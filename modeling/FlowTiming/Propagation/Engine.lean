import FlowTiming.Propagation.Board

/-!
Propagation over a board. Rules say which nodes a task requires and how a node is resolved from
nodes that are already final; passes over the tasks repeat until nothing is missing or a pass
resolves nothing.
-/

namespace FlowTiming

structure Run (τ π ι σ : Type) [Ord τ] [Ord π] where
  memory : σ
  board : Board τ π ι

structure Rules (τ π ι σ : Type) [Ord τ] [Ord π] where
  /-- The ports of a task that have to become final, the task itself being without a port. -/
  required : τ → Std.ExtTreeSet (Option π)
  /-- What is known about a task without looking at other nodes. -/
  seed : τ → Run τ π ι σ → Run τ π ι σ
  /-- What the nodes of a task depend on, asked once after all tasks are seeded. -/
  link : τ → Run τ π ι σ → Run τ π ι σ
  /-- Tries to resolve a node; answers whether it did. -/
  attempt : Node τ π → Run τ π ι σ → Bool × Run τ π ι σ

structure Outcome (τ π : Type) [Ord τ] [Ord π] where
  /-- Passes over the tasks, a last one without progress included. -/
  passes : Nat
  /-- Required nodes that were found or became final during the passes. -/
  resolved : Nat
  unresolved : Std.ExtTreeSet (Node τ π)

def Outcome.isComplete {τ π : Type} [Ord τ] [Ord π] (o : Outcome τ π) : Bool :=
  o.unresolved.isEmpty

/-- A board and the required nodes that are not resolved, kept from run to run. -/
structure Engine (τ π ι : Type) [Ord τ] [Ord π] where
  board : Board τ π ι
  missing : Std.ExtTreeSet (Node τ π)

def Engine.fresh {τ π ι : Type} [Ord τ] [Ord π] : Engine τ π ι := ⟨.empty, ∅⟩

instance {τ π ι : Type} [Ord τ] [Ord π] : Inhabited (Engine τ π ι) := ⟨.fresh⟩

def taskCount {τ π : Type} [Ord τ] [Std.TransOrd τ] [Ord π] (nodes : Std.ExtTreeSet (Node τ π))
    [Std.TransOrd π] : Nat :=
  (nodes.toList.foldl (fun (s : Std.ExtTreeSet τ) n => s.insert n.task) ∅).size

structure Sweep (τ π ι σ : Type) [Ord τ] [Ord π] where
  run : Run τ π ι σ
  missing : Std.ExtTreeSet (Node τ π)

namespace Run

variable {τ π ι σ : Type} [Ord τ] [Ord π]

def note (r : Run τ π ι σ) (e : Entry) : Run τ π ι σ := { r with board := r.board.note e }

def finalize [Std.TransOrd τ] [Std.TransOrd π] [Shown τ] [Shown π] (r : Run τ π ι σ)
    (n : Node τ π) : Run τ π ι σ :=
  { r with board := r.board.finalize n }

end Run

def passNote (number progress : Nat) : Entry :=
  { level := .debug, speaker := .engine, message := "propagation pass done",
    fields := [("pass", toString number), ("progress", toString progress)] }

namespace Rules

variable {τ π ι σ : Type} [Ord τ] [Ord π] [Std.TransOrd τ] [Std.TransOrd π] [Shown τ] [Shown π]

def requiredNodes (rules : Rules τ π ι σ) (tasks : List τ) : Std.ExtTreeSet (Node τ π) :=
  tasks.foldl (fun s t => (rules.required t).toList.foldl (fun s p => s.insert ⟨t, p⟩) s) ∅

/-- Resolves a node that is final already, or tries to; a resolved node becomes final. -/
def resolve (rules : Rules τ π ι σ) (n : Node τ π) (run : Run τ π ι σ) : Bool × Run τ π ι σ :=
  if run.board.isFinal n then (true, run)
  else
    match rules.attempt n run with
    | (true, run) => (true, run.finalize n)
    | (false, run) =>
      (false, run.note { level := .debug, speaker := .engine, message := "cannot resolve yet",
                         fields := n.fields })

/-- Resolves one missing node and takes it off the list if that worked. -/
def step (rules : Rules τ π ι σ) (s : Sweep τ π ι σ) (n : Node τ π) : Sweep τ π ι σ :=
  match rules.resolve n s.run with
  | (true, run) => ⟨run, s.missing.erase n⟩
  | (false, run) => ⟨run, s.missing⟩

def visitNote (t : τ) (nodes : List (Node τ π)) : Entry :=
  { level := .debug, speaker := .engine, message := "trying to resolve task",
    fields := [("task", Shown.shown t),
      ("required", Text.bracketed (nodes.map fun n => Shown.shown n.port))] }

def visit (rules : Rules τ π ι σ) (s : Sweep τ π ι σ) (t : τ) : Sweep τ π ι σ :=
  match s.missing.toList.filter fun n => compare n.task t == .eq with
  | [] => s
  | nodes =>
    nodes.foldl rules.step ⟨s.run.note (visitNote t nodes), s.missing⟩

def pass (rules : Rules τ π ι σ) (tasks : List τ) (number : Nat) (s : Sweep τ π ι σ) :
    Sweep τ π ι σ :=
  let s' := tasks.foldl rules.visit s
  ⟨s'.run.note (passNote number (s.missing.size - s'.missing.size)), s'.missing⟩

/-- Passes until nothing is missing or a pass resolves nothing, and how many there were. -/
def settle (rules : Rules τ π ι σ) (tasks : List τ) (passes : Nat) (s : Sweep τ π ι σ) :
    Nat × Sweep τ π ι σ :=
  if s.missing.isEmpty then (passes, s)
  else
    let s' := rules.pass tasks (passes + 1) s
    if s'.missing.size < s.missing.size then rules.settle tasks (passes + 1) s'
    else (passes + 1, s')
termination_by s.missing.size

def reset (rules : Rules τ π ι σ) (tasks : List τ) (_ : Engine τ π ι) : Engine τ π ι :=
  ⟨.empty, rules.requiredNodes tasks⟩

def prepare (rules : Rules τ π ι σ) (tasks : List τ) (run : Run τ π ι σ) : Run τ π ι σ :=
  tasks.foldl (fun run t => rules.link t run) (tasks.foldl (fun run t => rules.seed t run) run)

def closingNote (o : Outcome τ π) : Entry :=
  let counts := [("passes", toString o.passes), ("resolved", toString o.resolved)]
  if o.isComplete then
    { level := .info, speaker := .engine, message := "propagation reached a fixpoint",
      fields := counts }
  else
    { level := .info, speaker := .engine, message := "propagation stalled with unresolved nodes",
      fields := counts ++ [("stalled_tasks", toString (taskCount o.unresolved))] }

/-- Propagates over the tasks in the order given. Nothing of what the engine held before is used. -/
def propagate (rules : Rules τ π ι σ) (tasks : List τ) (memory : σ) (engine : Engine τ π ι) :
    Outcome τ π × σ × Engine τ π ι :=
  let clean := rules.reset tasks engine
  let run := rules.prepare tasks ⟨memory, clean.board⟩
  let (passes, s) := rules.settle tasks 0 ⟨run, clean.missing⟩
  let outcome := ⟨passes, clean.missing.size - s.missing.size, s.missing⟩
  (outcome, s.run.memory, ⟨s.run.board.note (closingNote outcome), s.missing⟩)

end Rules

end FlowTiming
