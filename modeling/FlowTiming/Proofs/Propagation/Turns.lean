import FlowTiming.Proofs.Propagation.Passes

/-!
The turns of a propagation: which nodes its passes try, in order, and which of them they resolve.
-/

namespace FlowTiming

/-- One try of a missing node, and whether the node was final before it. -/
structure Turn (τ π : Type) where
  node : Node τ π
  wasFinal : Bool
  resolved : Bool
deriving DecidableEq

namespace Rules

variable {τ π ι σ : Type} [Ord τ] [Ord π] [Std.TransOrd τ] [Std.TransOrd π]

/-- What some turns make of the missing nodes. -/
structure Settles (missing : Std.ExtTreeSet (Node τ π)) (turns : List (Turn τ π))
    (left : Std.ExtTreeSet (Node τ π)) : Prop where
  tried : ∀ turn ∈ turns, turn.node ∈ missing
  still : ∀ n, n ∈ left ↔ n ∈ missing ∧ ∀ turn ∈ turns, turn.node = n → turn.resolved = false
  once : ((turns.filter (·.resolved)).map (·.node)).Nodup
  size : turns.countP (·.resolved) + left.size = missing.size
  final : ∀ turn ∈ turns, turn.wasFinal = true → turn.resolved = true

variable {missing left rest : Std.ExtTreeSet (Node τ π)} {turns turns' : List (Turn τ π)}

theorem Settles.nil : Settles missing [] missing where
  tried := by simp
  still := by simp
  once := by simp
  size := by simp
  final := by simp

theorem Settles.append (h : Settles missing turns left) (h' : Settles left turns' rest) :
    Settles missing (turns ++ turns') rest where
  tried turn ht := by
    rcases List.mem_append.mp ht with ht | ht
    · exact h.tried turn ht
    · exact ((h.still _).mp (h'.tried turn ht)).1
  still n := by
    rw [h'.still, h.still, and_assoc, List.forall_mem_append]
  once := by
    rw [List.filter_append, List.map_append]
    refine List.nodup_append.mpr ⟨h.once, h'.once, fun n hn n' hn' he => ?_⟩
    obtain ⟨turn, ht, rfl⟩ := List.mem_map.mp hn
    obtain ⟨turn', ht', rfl⟩ := List.mem_map.mp hn'
    obtain ⟨hmem, hresolved⟩ := List.mem_filter.mp ht
    -- the second run would have tried a node that the first took away
    have hleft := h'.tried turn' (List.mem_filter.mp ht').1
    rw [← he, h.still] at hleft
    simp [hleft.2 turn hmem rfl] at hresolved
  size := by
    rw [List.countP_append, Nat.add_assoc, h'.size, h.size]
  final := List.forall_mem_append.mpr ⟨h.final, h'.final⟩

theorem Settles.single [Std.LawfulEqOrd τ] [Std.LawfulEqOrd π] {turn : Turn τ π}
    (hmem : turn.node ∈ missing) (hfinal : turn.wasFinal = true → turn.resolved = true) :
    Settles missing [turn] (if turn.resolved then missing.erase turn.node else missing) := by
  have htried : ∀ other ∈ [turn], other.node ∈ missing := by simpa using hmem
  have hfinal' : ∀ other ∈ [turn], other.wasFinal = true → other.resolved = true := by simpa using hfinal
  cases hr : turn.resolved with
  | true =>
    refine ⟨htried, fun n => ?_, by simp [hr], ?_, hfinal'⟩
    · simp [hr, Std.ExtTreeSet.mem_erase, and_comm]
    · have hsize := Std.ExtTreeSet.size_erase (t := missing) (k := turn.node)
      rw [if_pos (Std.ExtTreeSet.contains_iff_mem.mpr hmem)] at hsize
      have hpos : missing.size ≠ 0 := fun h0 => by
        rw [← Std.ExtTreeSet.eq_empty_iff_size_eq_zero] at h0
        simp [h0] at hmem
      simp [hr, hsize]
      omega
  | false => exact ⟨htried, fun n => by simp [hr], by simp [hr], by simp [hr], hfinal'⟩

theorem Settles.refused (h : Settles missing turns left) (hsize : missing.size ≤ left.size) :
    ∀ turn ∈ turns, turn.resolved = false := by
  have hnone : turns.countP (·.resolved) = 0 := by have := h.size; omega
  simpa using List.countP_eq_zero.mp hnone

variable [Shown τ] [Shown π]

def turnOf (rules : Rules τ π ι σ) (run : Run τ π ι σ) (n : Node τ π) : Turn τ π :=
  ⟨n, run.board.isFinal n, (rules.resolve n run).1⟩

def turnsOf (rules : Rules τ π ι σ) : List (Node τ π) → Sweep τ π ι σ → List (Turn τ π)
  | [], _ => []
  | n :: nodes, s => rules.turnOf s.run n :: rules.turnsOf nodes (rules.step s n)

def visitTurns (rules : Rules τ π ι σ) (s : Sweep τ π ι σ) (t : τ) : List (Turn τ π) :=
  rules.turnsOf (missingOf s t) ⟨s.run.note (visitNote t (missingOf s t)), s.missing⟩

def passTurns (rules : Rules τ π ι σ) : List τ → Sweep τ π ι σ → List (Turn τ π)
  | [], _ => []
  | t :: tasks, s => rules.visitTurns s t ++ rules.passTurns tasks (rules.visit s t)

def settleTurns (rules : Rules τ π ι σ) (tasks : List τ) (passes : Nat) (s : Sweep τ π ι σ) :
    List (List (Turn τ π)) :=
  if s.missing.isEmpty then []
  else
    let s' := rules.pass tasks (passes + 1) s
    if s'.missing.size < s.missing.size then
      rules.passTurns tasks s :: rules.settleTurns tasks (passes + 1) s'
    else [rules.passTurns tasks s]
termination_by s.missing.size

/-- The turns of a propagation, pass by pass. -/
def history (rules : Rules τ π ι σ) (tasks : List τ) (memory : σ) : List (List (Turn τ π)) :=
  rules.settleTurns tasks 0 ⟨rules.prepare tasks ⟨memory, .empty⟩, rules.requiredNodes tasks⟩

variable {rules : Rules τ π ι σ} {s : Sweep τ π ι σ} {t : τ}

theorem map_node_turnsOf (rules : Rules τ π ι σ) (nodes : List (Node τ π)) (s : Sweep τ π ι σ) :
    (rules.turnsOf nodes s).map (·.node) = nodes := by
  induction nodes generalizing s with
  | nil => rfl
  | cons n nodes ih => rw [turnsOf, List.map_cons, ih]; rfl

theorem exists_visitTurns {n : Node τ π} :
    (∃ turn ∈ rules.visitTurns s t, turn.node = n) ↔ n ∈ missingOf s t := by
  rw [← List.mem_map, visitTurns, map_node_turnsOf]

theorem visit_eq_foldl (rules : Rules τ π ι σ) (s : Sweep τ π ι σ) (t : τ) :
    rules.visit s t = if missingOf s t = [] then s else
      (missingOf s t).foldl rules.step ⟨s.run.note (visitNote t (missingOf s t)), s.missing⟩ := by
  unfold visit missingOf
  split
  case h_1 h => rw [if_pos h]
  case h_2 h => rw [if_neg h]

variable [Std.LawfulEqOrd τ] [Std.LawfulEqOrd π]

theorem settles_step {n : Node τ π} (hn : n ∈ s.missing) :
    Settles s.missing [rules.turnOf s.run n] (rules.step s n).missing := by
  have hfinal (hf : s.run.board.isFinal n = true) : (rules.resolve n s.run).1 = true := by
    rw [resolve, if_pos hf]
  rw [step_eq]
  exact .single hn hfinal

theorem settles_turnsOf {nodes : List (Node τ π)} (hd : nodes.Nodup) (hm : ∀ n ∈ nodes, n ∈ s.missing) :
    Settles s.missing (rules.turnsOf nodes s) (nodes.foldl rules.step s).missing := by
  induction nodes generalizing s with
  | nil => exact .nil
  | cons n nodes ih =>
    obtain ⟨hn, hd⟩ := List.nodup_cons.mp hd
    have hrest (m : Node τ π) (hmem : m ∈ nodes) : m ∈ (rules.step s n).missing :=
      mem_step_of_ne (fun e => hn (e ▸ hmem)) (hm m (.tail _ hmem))
    exact (settles_step (hm n (.head _))).append (ih hd hrest)

theorem settles_visit (rules : Rules τ π ι σ) (s : Sweep τ π ι σ) (t : τ) :
    Settles s.missing (rules.visitTurns s t) (rules.visit s t).missing := by
  rw [visit_eq_foldl]
  split
  case isTrue h => rw [visitTurns, h]; exact .nil
  case isFalse h =>
    exact settles_turnsOf (s := ⟨s.run.note (visitNote t (missingOf s t)), s.missing⟩)
      (nodup_missingOf s t) fun n hn => (mem_missingOf.mp hn).1

theorem settles_pass (rules : Rules τ π ι σ) (tasks : List τ) (s : Sweep τ π ι σ) :
    Settles s.missing (rules.passTurns tasks s) (tasks.foldl rules.visit s).missing := by
  induction tasks generalizing s with
  | nil => exact .nil
  | cons t tasks ih => exact (settles_visit rules s t).append (ih (rules.visit s t))

theorem exists_passTurns {tasks : List τ} {n : Node τ π} (hn : n ∈ s.missing) (ht : n.task ∈ tasks) :
    ∃ turn ∈ rules.passTurns tasks s, turn.node = n := by
  induction tasks generalizing s with
  | nil => simp at ht
  | cons t tasks ih =>
    by_cases he : n.task = t
    · obtain ⟨turn, hturn, hnode⟩ := exists_visitTurns.mpr (mem_missingOf.mpr ⟨hn, he⟩)
      exact ⟨turn, List.mem_append_left _ hturn, hnode⟩
    · -- the nodes of the first task are others
      have hn' : n ∈ (rules.visit s t).missing := by
        refine ((settles_visit rules s t).still n).mpr ⟨hn, fun turn hturn hnode => ?_⟩
        exact absurd (mem_missingOf.mp (exists_visitTurns.mp ⟨turn, hturn, hnode⟩)).2 he
      obtain ⟨turn, hturn, hnode⟩ := ih hn' ((List.mem_cons.mp ht).resolve_left he)
      exact ⟨turn, List.mem_append_right _ hturn, hnode⟩

theorem settles_settle (rules : Rules τ π ι σ) (tasks : List τ) (passes : Nat) (s : Sweep τ π ι σ) :
    Settles s.missing (rules.settleTurns tasks passes s).flatten
      (rules.settle tasks passes s).2.missing := by
  induction passes, s using Rules.settle.induct rules tasks with
  | case1 passes s he =>
    rw [settleTurns, settle, if_pos he, if_pos he]
    exact .nil
  | case2 passes s he s' hlt ih =>
    rw [settleTurns, settle, if_neg he, if_neg he, if_pos hlt, if_pos hlt]
    exact (settles_pass rules tasks s).append ih
  | case3 passes s he s' hlt =>
    rw [settleTurns, settle, if_neg he, if_neg he, if_neg hlt, if_neg hlt]
    rw [List.flatten_singleton]
    exact settles_pass rules tasks s

omit [Std.LawfulEqOrd τ] [Std.LawfulEqOrd π] in
theorem passes_settle (rules : Rules τ π ι σ) (tasks : List τ) (passes : Nat) (s : Sweep τ π ι σ) :
    (rules.settle tasks passes s).1 = passes + (rules.settleTurns tasks passes s).length := by
  induction passes, s using Rules.settle.induct rules tasks with
  | case1 passes s he => rw [settleTurns, settle, if_pos he, if_pos he]; rfl
  | case2 passes s he s' hlt ih =>
    rw [settleTurns, settle, if_neg he, if_neg he, if_pos hlt, if_pos hlt, List.length_cons]
    exact ih.trans (Nat.succ_add_eq_add_succ passes _)
  | case3 passes s he s' hlt =>
    rw [settleTurns, settle, if_neg he, if_neg he, if_neg hlt, if_neg hlt]
    rfl

theorem passes_le_resolved (rules : Rules τ π ι σ) (tasks : List τ) (passes : Nat)
    (s : Sweep τ π ι σ) : (rules.settleTurns tasks passes s).length ≤
      (rules.settleTurns tasks passes s).flatten.countP (·.resolved) + 1 := by
  induction passes, s using Rules.settle.induct rules tasks with
  | case1 passes s he => rw [settleTurns, if_pos he]; simp
  | case2 passes s he s' hlt ih =>
    rw [settleTurns, if_neg he, if_pos hlt, List.flatten_cons, List.countP_append, List.length_cons]
    have hsize := (settles_pass rules tasks s).size
    have hmore (k : Nat) : k + 1 ≤ (rules.passTurns tasks s).countP (·.resolved) + k := by
      have : (tasks.foldl rules.visit s).missing.size < s.missing.size := hlt
      omega
    exact Nat.succ_le_succ (Nat.le_trans ih (hmore _))
  | case3 passes s he s' hlt => rw [settleTurns, if_neg he, if_neg hlt]; simp

omit [Std.LawfulEqOrd τ] [Std.LawfulEqOrd π] in
theorem settleTurns_eq_nil (rules : Rules τ π ι σ) (tasks : List τ) (passes : Nat)
    (s : Sweep τ π ι σ) : rules.settleTurns tasks passes s = [] ↔ s.missing = ∅ := by
  rw [settleTurns, ← Std.ExtTreeSet.isEmpty_iff]
  split
  case isTrue he => simp [he]
  case isFalse he =>
    simp only [he, Bool.false_eq_true, iff_false]
    split <;> exact List.cons_ne_nil _ _

/-- The last pass tries all that is left in the end, and resolves nothing of it. -/
theorem last_settleTurns (rules : Rules τ π ι σ) {tasks : List τ} (passes : Nat)
    {s : Sweep τ π ι σ} (htasks : ∀ n ∈ s.missing, n.task ∈ tasks)
    (hleft : (rules.settle tasks passes s).2.missing ≠ ∅) :
    ∃ last, (rules.settleTurns tasks passes s).getLast? = some last ∧
      (∀ n ∈ (rules.settle tasks passes s).2.missing, ⟨n, false, false⟩ ∈ last) ∧
      ∀ turn ∈ last, turn.resolved = false := by
  induction passes, s using Rules.settle.induct rules tasks with
  | case1 passes s he =>
    rw [settle, if_pos he] at hleft
    exact absurd (Std.ExtTreeSet.isEmpty_iff.mp he) hleft
  | case2 passes s he s' hlt ih =>
    rw [settle, if_neg he, if_pos hlt] at hleft ⊢
    have hsub (n : Node τ π) (hn : n ∈ s'.missing) : n.task ∈ tasks :=
      htasks n (((settles_pass rules tasks s).still n).mp hn).1
    obtain ⟨last, hlast, hall, hnone⟩ := ih hsub hleft
    refine ⟨last, ?_, hall, hnone⟩
    rw [settleTurns, if_neg he, if_pos hlt, List.getLast?_cons, hlast]
    rfl
  | case3 passes s he s' hlt =>
    rw [settle, if_neg he, if_neg hlt] at hleft ⊢
    have hpass := settles_pass rules tasks s
    have hnone := hpass.refused (Nat.le_of_not_lt hlt)
    refine ⟨rules.passTurns tasks s, ?_, fun n hn => ?_, hnone⟩
    · rw [settleTurns, if_neg he, if_neg hlt]; rfl
    · have hn : n ∈ s.missing := ((hpass.still n).mp hn).1
      have htried : ∃ turn ∈ rules.passTurns tasks s, turn.node = n := exists_passTurns hn (htasks n hn)
      obtain ⟨⟨m, wasFinal, resolved⟩, hturn, rfl⟩ := htried
      obtain rfl : resolved = false := hnone _ hturn
      obtain rfl : wasFinal = false := by
        by_contra hf
        simpa using hpass.final _ hturn (by simpa using hf)
      exact hturn

end Rules

end FlowTiming
