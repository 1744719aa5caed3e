import FlowTiming.Propagation.Engine

/-!
Rules given as a table: seeds, marks and at most one rule a node, over sets of facts.
-/

namespace FlowTiming

instance {α : Type} [Ord α] [Std.TransOrd α] : Information (Std.ExtTreeSet α) where
  merge a b := a ∪ b
  grows a b := b.toList.any fun x => !a.contains x

structure Seed (τ π α : Type) [Ord α] where
  node : Node τ π
  facts : Option (Std.ExtTreeSet α)
  final : Bool

structure Derivation (τ π α : Type) [Ord α] where
  node : Node τ π
  needs : List (Node τ π)
  facts : Std.ExtTreeSet α

/-- Rules of a propagation in a table. A plain table neither seeds nor marks. -/
structure Table (τ π α : Type) [Ord α] where
  required : List (Node τ π)
  seeds : List (Seed τ π α)
  marks : List (Node τ π)
  derivations : List (Derivation τ π α)
  plain : Bool

namespace Table

variable {τ π α : Type} [Ord τ] [Ord π] [Ord α] [Std.TransOrd τ] [Std.TransOrd π] [Std.TransOrd α]
  [Shown τ] [Shown π]

abbrev Trace (τ π : Type) := Array (Node τ π × Bool)

abbrev TableRun (τ π α : Type) [Ord τ] [Ord π] [Ord α] :=
  Run τ π (Std.ExtTreeSet α) (Trace τ π)

def required? (t : Table τ π α) (task : τ) : Std.ExtTreeSet (Option π) :=
  (t.required.filter fun n => compare n.task task == .eq).foldl (fun s n => s.insert n.port) ∅

def plant (b : Board τ π (Std.ExtTreeSet α)) (s : Seed τ π α) : Board τ π (Std.ExtTreeSet α) :=
  let b := match s.facts with
    | some facts => b.extend s.node facts
    | none => b
  if s.final then b.finalize s.node else b

def seed (t : Table τ π α) (task : τ) (run : TableRun τ π α) : TableRun τ π α :=
  if t.plain then run
  else { run with
    board := (t.seeds.filter fun s => compare s.node.task task == .eq).foldl plant run.board }

def mark (t : Table τ π α) (task : τ) (run : TableRun τ π α) : TableRun τ π α :=
  if t.plain then run
  else { run with
    board := (t.marks.filter fun n => compare n.task task == .eq).foldl Board.finalize run.board }

def derivation? (t : Table τ π α) (n : Node τ π) : Option (Derivation τ π α) :=
  t.derivations.find? fun d => compare d.node n == .eq

/-- The facts of a derivation and all that is known about what it needs. -/
def gathered (b : Board τ π (Std.ExtTreeSet α)) (d : Derivation τ π α) : Std.ExtTreeSet α :=
  d.needs.foldl (fun s n => s ∪ (b.info? n).getD ∅) d.facts

def derive (t : Table τ π α) (n : Node τ π) (b : Board τ π (Std.ExtTreeSet α)) :
    Bool × Board τ π (Std.ExtTreeSet α) :=
  match t.derivation? n with
  | none => (false, b)
  | some d => if d.needs.all b.isFinal then (true, b.extend n (gathered b d)) else (false, b)

def rules (t : Table τ π α) : Rules τ π (Std.ExtTreeSet α) (Trace τ π) where
  required := t.required?
  seed := t.seed
  link := t.mark
  attempt n run :=
    match t.derive n run.board with
    | (done, board) => (done, ⟨run.memory.push (n, done), board⟩)

end Table

end FlowTiming
