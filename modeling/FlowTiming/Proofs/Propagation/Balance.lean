import FlowTiming.Proofs.Propagation.Turns
import FlowTiming.Proofs.Propagation.Updates
import Mathlib.Data.List.Dedup
import Mathlib.Algebra.BigOperators.Group.List.Basic
import Mathlib.Algebra.GroupWithZero.Nat

/-!
What a propagation counts and what it leaves open add up to what is required, whatever the rules do
to the board, as long as they only update it (`propagate_balances`).
-/

namespace FlowTiming

section Recording

variable {τ π ι σ : Type} [Ord τ] [Ord π]

def Run.keeping (run : Run τ π ι σ) (calls : List (Turn τ π)) : Run τ π ι (σ × List (Turn τ π)) :=
  ⟨(run.memory, calls), run.board⟩

def Sweep.keeping (s : Sweep τ π ι σ) (calls : List (Turn τ π)) : Sweep τ π ι (σ × List (Turn τ π)) :=
  ⟨s.run.keeping calls, s.missing⟩

end Recording

namespace Rules

variable {τ π ι σ : Type} [Ord τ] [Ord π] [Std.TransOrd τ] [Std.TransOrd π] [Shown τ] [Shown π]

/-- The same rules, with every attempt put on record together with whether the node was final. -/
def recorded (rules : Rules τ π ι σ) : Rules τ π ι (σ × List (Turn τ π)) where
  required := rules.required
  seed t run := (rules.seed t ⟨run.memory.1, run.board⟩).keeping run.memory.2
  link t run := (rules.link t ⟨run.memory.1, run.board⟩).keeping run.memory.2
  attempt n run :=
    let answer := rules.attempt n ⟨run.memory.1, run.board⟩
    (answer.1, answer.2.keeping (run.memory.2 ++ [⟨n, run.board.isFinal n, answer.1⟩]))

/-- The turns in which an attempt is made. -/
def attempts (turns : List (Turn τ π)) : List (Turn τ π) := turns.filter (!·.wasFinal)

section Recorded

variable (rules : Rules τ π ι σ)

theorem resolve_recorded (n : Node τ π) (run : Run τ π ι σ) (calls : List (Turn τ π)) :
    rules.recorded.resolve n (run.keeping calls) = ((rules.resolve n run).1,
      (rules.resolve n run).2.keeping (calls ++ attempts [rules.turnOf run n])) := by
  have hanswer : rules.recorded.attempt n (run.keeping calls) = ((rules.attempt n run).1,
      (rules.attempt n run).2.keeping
        (calls ++ [⟨n, run.board.isFinal n, (rules.attempt n run).1⟩])) := rfl
  have hboard : (run.keeping calls).board = run.board := rfl
  unfold attempts turnOf resolve
  rw [hanswer, hboard]
  cases hf : run.board.isFinal n with
  | true => simp
  | false =>
    obtain ⟨done, run'⟩ := rules.attempt n run
    cases done <;> simp <;> rfl

theorem step_recorded (n : Node τ π) (s : Sweep τ π ι σ) (calls : List (Turn τ π)) :
    rules.recorded.step (s.keeping calls) n =
      (rules.step s n).keeping (calls ++ attempts [rules.turnOf s.run n]) := by
  rw [step_eq, step_eq]
  change (⟨(rules.recorded.resolve n (s.run.keeping calls)).2,
    if (rules.recorded.resolve n (s.run.keeping calls)).1 = true then _ else _⟩ : Sweep τ π ι _) = _
  rw [resolve_recorded]
  rfl

theorem foldl_step_recorded (nodes : List (Node τ π)) (s : Sweep τ π ι σ) (calls : List (Turn τ π)) :
    nodes.foldl rules.recorded.step (s.keeping calls) =
      (nodes.foldl rules.step s).keeping (calls ++ attempts (rules.turnsOf nodes s)) := by
  induction nodes generalizing s calls with
  | nil => simp [attempts, turnsOf]
  | cons n nodes ih =>
    rw [List.foldl_cons, step_recorded, ih, List.append_assoc]
    simp only [attempts, ← List.filter_append]
    rfl

theorem visit_recorded (t : τ) (s : Sweep τ π ι σ) (calls : List (Turn τ π)) :
    rules.recorded.visit (s.keeping calls) t =
      (rules.visit s t).keeping (calls ++ attempts (rules.visitTurns s t)) := by
  rw [visit_eq_foldl, visit_eq_foldl, visitTurns]
  have hmissing : missingOf (s.keeping calls) t = missingOf s t := rfl
  rw [hmissing]
  split
  case isTrue h => simp [h, attempts, turnsOf]
  case isFalse h =>
    exact foldl_step_recorded rules (missingOf s t) ⟨s.run.note (visitNote t (missingOf s t)), s.missing⟩ calls

theorem foldl_visit_recorded (tasks : List τ) (s : Sweep τ π ι σ) (calls : List (Turn τ π)) :
    tasks.foldl rules.recorded.visit (s.keeping calls) =
      (tasks.foldl rules.visit s).keeping (calls ++ attempts (rules.passTurns tasks s)) := by
  induction tasks generalizing s calls with
  | nil => simp [attempts, passTurns]
  | cons t tasks ih =>
    rw [List.foldl_cons, visit_recorded, ih, List.append_assoc]
    simp only [attempts, ← List.filter_append]
    rfl

theorem pass_recorded (tasks : List τ) (number : Nat) (s : Sweep τ π ι σ) (calls : List (Turn τ π)) :
    rules.recorded.pass tasks number (s.keeping calls) =
      (rules.pass tasks number s).keeping (calls ++ attempts (rules.passTurns tasks s)) := by
  unfold pass
  rw [foldl_visit_recorded]
  rfl

theorem settle_recorded (tasks : List τ) (passes : Nat) (s : Sweep τ π ι σ)
    (calls : List (Turn τ π)) : rules.recorded.settle tasks passes (s.keeping calls) =
      ((rules.settle tasks passes s).1, (rules.settle tasks passes s).2.keeping
        (calls ++ attempts (rules.settleTurns tasks passes s).flatten)) := by
  have hmissing (s : Sweep τ π ι σ) (calls : List (Turn τ π)) : (s.keeping calls).missing = s.missing := rfl
  induction passes, s using Rules.settle.induct rules tasks generalizing calls with
  | case1 passes s he =>
    rw [settle, settle, settleTurns, hmissing, if_pos he, if_pos he, if_pos he]
    simp [attempts]
  | case2 passes s he s' hlt ih =>
    change (rules.pass tasks (passes + 1) s).missing.size < s.missing.size at hlt
    rw [settle, settle, settleTurns, hmissing, pass_recorded]
    simp only [he, hmissing, hlt, Bool.false_eq_true, ↓reduceIte, List.flatten_cons, attempts,
      List.filter_append, ← List.append_assoc]
    exact ih _
  | case3 passes s he s' hlt =>
    change ¬ (rules.pass tasks (passes + 1) s).missing.size < s.missing.size at hlt
    rw [settle, settle, settleTurns, hmissing, pass_recorded]
    simp only [he, hmissing, hlt, Bool.false_eq_true, ↓reduceIte, List.flatten_singleton]

omit [Shown τ] [Shown π] in
theorem prepare_recorded (tasks : List τ) (run : Run τ π ι σ) (calls : List (Turn τ π)) :
    rules.recorded.prepare tasks (run.keeping calls) = (rules.prepare tasks run).keeping calls := by
  have hseed : tasks.foldl (fun run t => rules.recorded.seed t run) (run.keeping calls) =
      (tasks.foldl (fun run t => rules.seed t run) run).keeping calls :=
    List.foldl_hom (fun run : Run τ π ι σ => run.keeping calls) fun _ _ => rfl
  unfold prepare
  rw [hseed]
  exact List.foldl_hom (fun run : Run τ π ι σ => run.keeping calls) fun _ _ => rfl

/-- Keeping a record changes nothing else, and the record holds the turns with an attempt. -/
theorem propagate_recorded (tasks : List τ) (memory : σ) (engine : Engine τ π ι) :
    rules.recorded.propagate tasks (memory, []) engine = ((rules.propagate tasks memory engine).1,
      ((rules.propagate tasks memory engine).2.1, attempts (rules.history tasks memory).flatten),
      (rules.propagate tasks memory engine).2.2) := by
  have hstart : (⟨rules.recorded.prepare tasks ⟨(memory, []), .empty⟩, rules.requiredNodes tasks⟩ :
      Sweep τ π ι (σ × List (Turn τ π))) =
      Sweep.keeping ⟨rules.prepare tasks ⟨memory, .empty⟩, rules.requiredNodes tasks⟩ [] := by
    rw [Sweep.keeping, ← prepare_recorded]
    rfl
  have hrequired : rules.recorded.requiredNodes tasks = rules.requiredNodes tasks := rfl
  unfold propagate history reset
  dsimp only
  rw [hrequired, hstart, settle_recorded]
  rfl

end Recorded

/-- Rules that change the board only by updates. -/
structure Updates [Information ι] (rules : Rules τ π ι σ) : Prop where
  seed : ∀ t (run : Run τ π ι σ), run.board.Updated (rules.seed t run).board
  link : ∀ t (run : Run τ π ι σ), run.board.Updated (rules.link t run).board
  attempt : ∀ n (run : Run τ π ι σ), run.board.Updated (rules.attempt n run).2.board

/-- Runs that can come up once all tasks are seeded, as tasks are linked, nodes resolved and things
noted. -/
inductive Course (rules : Rules τ π ι σ) (start : Run τ π ι σ) : Run τ π ι σ → Prop
  | start : Course rules start start
  | link {run : Run τ π ι σ} (t : τ) : Course rules start run → Course rules start (rules.link t run)
  | resolve {run : Run τ π ι σ} (n : Node τ π) :
      Course rules start run → Course rules start (rules.resolve n run).2
  | note {run : Run τ π ι σ} (e : Entry) : Course rules start run → Course rules start (run.note e)

/-- What a propagation that ends with `outcome` and the engine `after` amounts to, where `history` are
its turns, pass by pass, and `calls` the attempts it made. -/
structure Balances [DecidableEq τ] (rules : Rules τ π ι σ) (tasks : List τ) (outcome : Outcome τ π)
    (after : Engine τ π ι) (history : List (List (Turn τ π))) (calls : List (Turn τ π)) : Prop where
  passes : outcome.passes = history.length
  counted : outcome.resolved = history.flatten.countP (·.resolved)
  balanced : outcome.resolved + outcome.unresolved.size =
    (tasks.dedup.map fun t => (rules.required t).size).sum
  idle : outcome.passes = 0 ↔ ∀ t ∈ tasks, rules.required t = ∅
  bounded : outcome.passes ≤ outcome.resolved + 1
  required : ∀ n ∈ outcome.unresolved, n.task ∈ tasks ∧ n.port ∈ rules.required n.task
  missing : after.missing = outcome.unresolved
  final : ∀ t ∈ tasks, ∀ p ∈ rules.required t, (⟨t, p⟩ : Node τ π) ∉ outcome.unresolved →
    after.board.isFinal ⟨t, p⟩ = true
  recorded : calls = attempts history.flatten
  isOpen : ∀ call ∈ calls, call.wasFinal = false
  asked : ∀ call ∈ calls, call.node.task ∈ tasks ∧ call.node.port ∈ rules.required call.node.task
  once : ((calls.filter (·.resolved)).map (·.node)).Nodup
  stalled : outcome.unresolved ≠ ∅ → ∃ last, history.getLast? = some last ∧
    (∀ n ∈ outcome.unresolved, ⟨n, false, false⟩ ∈ last) ∧ ∀ turn ∈ last, turn.resolved = false

variable [Std.LawfulEqOrd τ] [Std.LawfulEqOrd π] {rules : Rules τ π ι σ}

omit [Shown τ] [Shown π] in
theorem requiredNodes_eq_empty {tasks : List τ} :
    rules.requiredNodes tasks = ∅ ↔ ∀ t ∈ tasks, rules.required t = ∅ := by
  simp only [← Std.ExtTreeSet.isEmpty_iff, isEmpty_iff_not_mem, mem_requiredNodes, not_and]
  exact ⟨fun h t ht p => h ⟨t, p⟩ ht, fun h n hn => h n.task hn n.port⟩

omit [Shown τ] [Shown π] in
theorem size_requiredNodes [DecidableEq τ] (rules : Rules τ π ι σ) (tasks : List τ) :
    (rules.requiredNodes tasks).size = (tasks.dedup.map fun t => (rules.required t).size).sum := by
  have hperm : (rules.requiredNodes tasks).toList.Perm
      (tasks.dedup.flatMap fun t => (rules.required t).toList.map (Node.mk t)) := by
    refine (List.perm_ext_iff_of_nodup (nodup_toList _) (List.nodup_flatMap.mpr ⟨fun t _ => ?_, ?_⟩)).mpr
      fun n => ?_
    · exact (nodup_toList _).map fun p p' he => (Node.mk.inj he).2
    · refine (List.nodup_dedup tasks).imp fun hne n hn hn' => hne ?_
      obtain ⟨p, -, rfl⟩ := List.mem_map.mp hn
      obtain ⟨p', -, he⟩ := List.mem_map.mp hn'
      exact (Node.mk.inj he).1.symm
    · rw [Std.ExtTreeSet.mem_toList, mem_requiredNodes, List.mem_flatMap]
      constructor
      · rintro ⟨ht, hp⟩
        exact ⟨n.task, List.mem_dedup.mpr ht,
          List.mem_map.mpr ⟨n.port, Std.ExtTreeSet.mem_toList.mpr hp, rfl⟩⟩
      · rintro ⟨t, ht, hn⟩
        obtain ⟨p, hp, rfl⟩ := List.mem_map.mp hn
        exact ⟨List.mem_dedup.mp ht, Std.ExtTreeSet.mem_toList.mp hp⟩
  rw [← Std.ExtTreeSet.length_toList, hperm.length_eq, List.length_flatMap]
  simp only [List.length_map, Std.ExtTreeSet.length_toList]

theorem Updates.keeps [Information ι] (h : rules.Updates) (tasks : List τ) :
    rules.Keeps tasks fun _ => True where
  success r r' n _ _ _ he := ⟨trivial, by simpa [he] using (h.attempt n r).later⟩
  failure r r' n _ he := ⟨trivial, by simpa [he] using (h.attempt n r).later⟩
  notes _ _ _ _ := trivial

theorem Updates.settled [Information ι] (h : rules.Updates) (tasks : List τ) (memory : σ) :
    (∀ n ∈ (rules.settled tasks memory).missing, n ∈ rules.requiredNodes tasks) ∧
      ∀ n ∈ rules.requiredNodes tasks, n ∉ (rules.settled tasks memory).missing →
        (rules.settled tasks memory).run.board.isFinal n = true :=
  ((h.keeps tasks).settled trivial).2

omit [Std.LawfulEqOrd τ] [Std.LawfulEqOrd π] in
theorem Course.updated [Information ι] (h : rules.Updates) {start run : Run τ π ι σ}
    (hc : rules.Course start run) : start.board.Updated run.board := by
  induction hc with
  | start => exact .refl
  | link t _ ih => exact ih.trans (h.link t _)
  | note e _ ih => exact .note e ih
  | @resolve run n _ ih =>
    have hattempt := ih.trans (h.attempt n run)
    unfold Rules.resolve
    split
    · exact ih
    · split
      case h_1 he =>
        rw [he] at hattempt
        exact .apply n .finalize hattempt
      case h_2 he =>
        rw [he] at hattempt
        exact .note _ hattempt

theorem course_settled (rules : Rules τ π ι σ) (tasks : List τ) (memory : σ) :
    rules.Course (tasks.foldl (fun run t => rules.seed t run) ⟨memory, .empty⟩)
      (rules.settled tasks memory).run := by
  have hlinks : rules.Course (tasks.foldl (fun run t => rules.seed t run) ⟨memory, .empty⟩)
      (rules.prepare tasks ⟨memory, .empty⟩) :=
    List.foldlRecOn _ _ .start fun run h t _ => .link t h
  refine settle_induction (P := fun s => rules.Course _ s.run) (fun s n _ hs => ?_)
    (fun s e _ hs => .note e hs) tasks 0 hlinks
  rw [step_eq]
  exact .resolve n hs

/-- Every propagation by updates ends with counts that add up: it resolves or leaves open each required
node, asks for none that is final, gets each at most once, and stops because nothing is left or because
a whole pass got nothing. -/
theorem propagate_balances [DecidableEq τ] [Information ι] (h : rules.Updates) (tasks : List τ)
    (memory : σ) (engine : Engine τ π ι) : ∃ calls,
      rules.recorded.propagate tasks (memory, []) engine = ((rules.propagate tasks memory engine).1,
        ((rules.propagate tasks memory engine).2.1, calls), (rules.propagate tasks memory engine).2.2) ∧
      Balances rules tasks (rules.propagate tasks memory engine).1
        (rules.propagate tasks memory engine).2.2 (rules.history tasks memory) calls := by
  have hsettles : Settles (rules.requiredNodes tasks) (rules.history tasks memory).flatten
      (rules.settled tasks memory).missing :=
    settles_settle rules tasks 0 ⟨rules.prepare tasks ⟨memory, .empty⟩, rules.requiredNodes tasks⟩
  have hpasses : (rules.propagate tasks memory engine).1.passes = (rules.history tasks memory).length :=
    (passes_settle rules tasks 0 _).trans (Nat.zero_add _)
  have hresolved : (rules.propagate tasks memory engine).1.resolved =
      (rules.requiredNodes tasks).size - (rules.settled tasks memory).missing.size := rfl
  have hcounted : (rules.propagate tasks memory engine).1.resolved =
      (rules.history tasks memory).flatten.countP (·.resolved) := by
    have := hsettles.size
    omega
  have hcalls {call : Turn τ π} (hc : call ∈ attempts (rules.history tasks memory).flatten) :
      call ∈ (rules.history tasks memory).flatten ∧ call.wasFinal = false := by
    rw [attempts, List.mem_filter] at hc
    exact ⟨hc.1, by simpa using hc.2⟩
  obtain ⟨hsub, hfinal⟩ := h.settled tasks memory
  refine ⟨_, propagate_recorded rules tasks memory engine, ?_⟩
  exact {
    passes := hpasses
    counted := hcounted
    balanced := by rw [← size_requiredNodes, hcounted]; exact hsettles.size
    idle := by
      rw [hpasses, List.length_eq_zero_iff]
      exact (settleTurns_eq_nil rules tasks 0 _).trans requiredNodes_eq_empty
    bounded := by
      rw [hpasses, hcounted]
      exact passes_le_resolved rules tasks 0 _
    required n hn := (mem_requiredNodes rules tasks n).mp (hsub n hn)
    missing := rfl
    final t ht p hp hn := hfinal ⟨t, p⟩ ((mem_requiredNodes rules tasks _).mpr ⟨ht, hp⟩) hn
    recorded := rfl
    isOpen call hc := (hcalls hc).2
    asked call hc := (mem_requiredNodes rules tasks _).mp (hsettles.tried call (hcalls hc).1)
    once := hsettles.once.sublist ((List.filter_sublist.filter _).map _)
    stalled := last_settleTurns rules 0 fun n hn => ((mem_requiredNodes rules tasks n).mp hn).1 }

end Rules

namespace Table

variable {τ π α : Type} [Ord τ] [Ord π] [Ord α] [Std.TransOrd τ] [Std.TransOrd π] [Std.TransOrd α]
  [Shown τ] [Shown π]

theorem updated_plant (b : Board τ π (Std.ExtTreeSet α)) (s : Seed τ π α) : b.Updated (plant b s) := by
  unfold plant
  cases s.facts with
  | none =>
    cases s.final with
    | true => exact .apply s.node .finalize .refl
    | false => exact .refl
  | some facts =>
    have hextend : b.Updated (b.extend s.node facts) := .apply s.node (.extend facts) .refl
    cases s.final with
    | true => exact .apply s.node .finalize hextend
    | false => exact hextend

theorem updates (t : Table τ π α) : t.rules.Updates where
  seed task run := by
    change run.board.Updated (t.seed task run).board
    unfold seed
    split
    · exact .refl
    · exact .foldl updated_plant _ run.board
  link task run := by
    change run.board.Updated (t.mark task run).board
    unfold mark
    split
    · exact .refl
    · exact .foldl (fun b n => .apply n .finalize .refl) _ run.board
  attempt n run := by
    change run.board.Updated (t.derive n run.board).2
    unfold derive
    split
    · exact .refl
    · split
      · exact .apply n (.extend _) .refl
      · exact .refl

/-- Two tasks that wait for each other, next to one that is final from the start. -/
def deadlock : Table String String String where
  required := [⟨"x", none⟩, ⟨"y", none⟩, ⟨"z", none⟩]
  seeds := [⟨⟨"z", none⟩, none, true⟩]
  marks := []
  derivations := [⟨⟨"x", none⟩, [⟨"y", none⟩], ∅⟩, ⟨⟨"y", none⟩, [⟨"x", none⟩], ∅⟩]
  plain := false

theorem deadlock_balances : deadlock.rules.Updates ∧ ∃ calls,
    (deadlock.rules.recorded.propagate ["x", "y", "x", "z", "free"] (#[], []) .fresh).2.1.2 = calls ∧
    Rules.Balances deadlock.rules ["x", "y", "x", "z", "free"]
      (deadlock.rules.propagate ["x", "y", "x", "z", "free"] #[] .fresh).1
      (deadlock.rules.propagate ["x", "y", "x", "z", "free"] #[] .fresh).2.2
      (deadlock.rules.history ["x", "y", "x", "z", "free"] #[]) calls ∧
    (deadlock.rules.propagate ["x", "y", "x", "z", "free"] #[] .fresh).1.passes = 2 ∧
    calls.map (·.node.task) = ["x", "y", "x", "x", "y", "x"] := by
  obtain ⟨calls, hcalls, h⟩ :=
    Rules.propagate_balances deadlock.updates ["x", "y", "x", "z", "free"] #[] .fresh
  have hsame : (deadlock.rules.recorded.propagate ["x", "y", "x", "z", "free"] (#[], [])
      .fresh).2.1.2 = calls := by rw [hcalls]
  refine ⟨deadlock.updates, calls, hsame, h, by decide +kernel, ?_⟩
  rw [← hsame]
  decide +kernel

end Table

end FlowTiming
