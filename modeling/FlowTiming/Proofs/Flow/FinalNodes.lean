import FlowTiming.Proofs.Flow.Linking
import FlowTiming.Proofs.NetworkFile.Building
import FlowTiming.Report
import Mathlib.Order.Bounds.Basic

/-!
The final nodes after a propagation over a network are the least closed set, whatever the order of the
tasks and whatever the engine held before.
-/

namespace FlowTiming

open Board

namespace Network

variable {n : Network} {tasks : List String} {needs : Dependencies}

theorem mem_required {x : String} {q : Option String} : q ∈ n.required x ↔ n.IsRequired ⟨x, q⟩ := by
  unfold required IsRequired
  split
  case h_1 hx => simp [hx]
  case h_2 t ht =>
    rw [mem_foldl_insert]
    simp only [Std.ExtTreeMap.mem_keys, ht, Option.some.injEq, exists_eq_left']
    cases q with
    | none => simp
    | some p => simp

theorem mem_requiredNodes (hall : tasks.Perm n.taskNames) {x : FlowNode} :
    x ∈ n.rules.requiredNodes tasks ↔ n.IsRequired x := by
  rw [Rules.mem_requiredNodes, hall.mem_iff, mem_taskNames]
  constructor
  · exact fun h => mem_required.mp h.2
  · intro h
    obtain ⟨t, ht, -⟩ := id h
    exact ⟨⟨t, ht⟩, mem_required.mpr h⟩

/-- Whether a run under way has only resolved nodes of the seeded board, with no update refused and
with the needs recorded before the first pass. -/
structure Underway (n : Network) (tasks : List String) (needs : Dependencies) (run : FlowRun) :
    Prop where
  unfolds : (n.scheme (n.seeded tasks)).Unfolds (n.seeded tasks) run.board
  later : (n.prepared tasks needs).board.Later run.board
  silent : Silent (n.seeded tasks) run.board
  memory : run.memory = (n.prepared tasks needs).memory

theorem prepared_underway (hn : n.WellFormed) (tasks : List String) (needs : Dependencies) :
    n.Underway tasks needs (n.prepared tasks needs) :=
  ⟨prepared_linked hn tasks needs, .refl _, prepared_silent n tasks needs, rfl⟩

theorem Underway.getD (hn : n.WellFormed) (hall : tasks.Perm n.taskNames) {run : FlowRun}
    (h : n.Underway tasks needs run) {x : FlowNode} (hx : n.IsRequired x)
    (hopen : run.board.isFinal x = false) :
    run.memory.getD x ∅ = setOf (n.needsOf (n.seeded tasks) x) := by
  rw [h.memory]
  exact (prepared_recorded hn hall needs hx).getD (h.later.stillOpen hopen)

theorem keeps_underway (hn : n.WellFormed) (hall : tasks.Perm n.taskNames) :
    n.rules.Keeps tasks (n.Underway tasks needs) where
  success run r x hrun hx hopen h := by
    rw [mem_requiredNodes hall] at hx
    obtain ⟨hmemory, hlater, hu, hsilent⟩ :=
      attempt_succeeded hn hall hx hopen hrun.unfolds (hrun.getD hn hall hx hopen) h
    have hlater' := (hrun.later.trans hlater).trans (later_finalize r.board x)
    have hsilent' := (hrun.silent.trans hsilent).trans (silent_finalize r.board x)
    exact ⟨⟨hu, hlater', hsilent', hmemory.trans hrun.memory⟩, hlater⟩
  failure run r x hrun h := by
    obtain ⟨hmemory, hfacts, hsilent⟩ := attempt_failed h
    exact ⟨⟨hrun.unfolds.congr hfacts, hrun.later.trans hfacts.later, hrun.silent.trans hsilent,
      hmemory.trans hrun.memory⟩, hfacts.later⟩
  notes run e he hrun :=
    ⟨hrun.unfolds.congr (sameFacts_note _ _), hrun.later.trans (sameFacts_note _ _).later,
      hrun.silent.trans (silent_note_iff.mpr (Entry.not_isRefusal (by simp [he]))), hrun.memory⟩

theorem tells_attempt (n : Network) :
    n.rules.Tells fun run x => run.board.isFinal x = true ∨ (n.attempt x run).1 = true where
  resolves run x h := by
    unfold Rules.resolve
    split
    case isTrue => rfl
    case isFalse hopen =>
      have hx : (n.rules.attempt x run).1 = true := h.resolve_left hopen
      split
      case h_1 => rfl
      case h_2 r he => simp [he] at hx
  fails run x y h hy := by
    unfold Rules.resolve at h hy
    split at h
    case isTrue => simp at h
    case isFalse hopen =>
      rw [if_neg hopen] at hy
      split at h
      case h_1 => simp at h
      case h_2 r he =>
        simp only [he] at hy
        obtain ⟨hmemory, hfacts, -⟩ := attempt_failed he
        have hnote := hfacts.trans (sameFacts_note r.board
          { level := .debug, speaker := .engine, message := "cannot resolve yet", fields := x.fields })
        rw [attempt_iff] at hy ⊢
        simp only [Run.note, hmemory, hnote.final, isSettled_congr hnote] at hy
        exact hy
  notes run e y hy := by
    rw [attempt_iff] at hy ⊢
    simp only [Run.note, isSettled_congr (sameFacts_note run.board e)] at hy
    exact hy

section Settled

variable (hn : n.WellFormed) (hall : tasks.Perm n.taskNames)
include hn hall

theorem settled_underway (needs : Dependencies) :
    n.Underway tasks needs (n.rules.settled tasks needs).run :=
  ((keeps_underway hn hall).settled (prepared_underway hn tasks needs)).1

theorem mem_missing_iff {x : FlowNode} : x ∈ (n.rules.settled tasks needs).missing ↔
    n.IsRequired x ∧ (n.rules.settled tasks needs).run.board.isFinal x = false := by
  obtain ⟨-, hsub, hdone⟩ :=
    (keeps_underway hn hall).settled (prepared_underway hn tasks needs)
  constructor
  · intro hx
    have hreq := hsub x hx
    have htask := ((Rules.mem_requiredNodes _ _ _).mp hreq).1
    refine ⟨(mem_requiredNodes hall).mp hreq, Bool.not_eq_true _ ▸ fun hf => ?_⟩
    exact Rules.not_ready_of_settle (tells_attempt n) tasks 0 _ hx htask (.inl hf)
  · rintro ⟨hx, hopen⟩
    by_contra hmem
    simp [hdone x ((mem_requiredNodes hall).mpr hx) hmem] at hopen

theorem final_of_ready {x : FlowNode}
    (h : (n.scheme (n.seeded tasks)).ready (n.rules.settled tasks needs).run.board x) :
    (n.rules.settled tasks needs).run.board.isFinal x = true := by
  have hunder := settled_underway hn hall needs
  by_contra hopen
  rw [Bool.not_eq_true] at hopen
  have hmem := (mem_missing_iff hn hall).mpr ⟨h.1, hopen⟩
  obtain ⟨t, ht, -⟩ := id h.1
  have htask : x.task ∈ tasks := hall.mem_iff.mpr (mem_taskNames.mpr ⟨t, ht⟩)
  refine Rules.not_ready_of_settle (tells_attempt n) tasks 0 _ hmem htask (.inr ?_)
  rw [attempt_iff]
  refine ⟨⟨t, ht⟩, fun y hy => ?_⟩
  change y ∈ (n.rules.settled tasks needs).run.memory.getD x ∅ at hy
  rw [hunder.getD hn hall h.1 hopen, mem_setOf] at hy
  exact (isSettled_iff hn hunder.unfolds y).mpr (h.2 y hy)

omit hall in
theorem settled_of_counts {y : FlowNode} {b : FlowBoard}
    (hb : (n.scheme (n.seeded tasks)).Unfolds (n.seeded tasks) b)
    (hy : n.Counts {x | b.isFinal x = true} y) : n.Settled (n.seeded tasks) b y := by
  unfold Settled
  rcases hy with hy | ⟨hin, -, hsources⟩
  · split
    case h_1 e he => exact .inl ((isFinal_input hn hb he).symm.trans hy)
    case h_2 => exact hy
  · rename_i e
    rw [inputOf_eq_some.mpr ⟨rfl, hin⟩]
    exact .inr hsources

omit hall in
theorem counts_of_settled {y : FlowNode} {b : FlowBoard} {F : Set FlowNode}
    (hstarts : ∀ x, n.StartsFinal x → x ∈ F) (hb : ∀ x, b.isFinal x = true → x ∈ F)
    (hy : n.Settled (n.seeded tasks) b y) : n.Counts F y := by
  unfold Settled at hy
  split at hy
  case h_1 e he =>
    obtain ⟨rfl, hin⟩ := inputOf_eq_some.mp he
    by_cases hstart : n.StartsFinal e.node
    · exact .mem (hstarts _ hstart)
    · have hopen : ¬ (n.seeded tasks).isFinal e.node = true := fun hf =>
        hstart (startsFinal_of_final hn tasks hf)
      exact .input hin hstart fun s hs => hb _ (hy.resolve_left hopen s hs)
  case h_2 => exact .mem (hb y hy)

theorem isLeast_settled (needs : Dependencies) : IsLeast {F | n.IsClosed F}
    {x | (n.rules.settled tasks needs).run.board.isFinal x = true} := by
  have hu := (settled_underway hn hall needs).unfolds
  refine ⟨⟨?_, ?_⟩, ?_⟩
  · rintro x ⟨t, ht, hx⟩
    exact hu.later.final x ((stands_seeded hn hall ht).final x.port hx)
  · intro x hx hcounts
    refine final_of_ready hn hall ⟨hx, fun y hy => settled_of_counts hn hu ?_⟩
    exact hcounts y ((mem_needsOf hn hall x y).mp hy)
  · -- nodes enter a closed set in the order in which they are resolved
    intro F hF x hx
    refine hu.induction (P := (· ∈ F)) (fun y hy => final_of_closed hn hF tasks hy) ?_ hx
    rintro b y - hb ⟨hreq, hneeds⟩ -
    refine hF.follows y hreq fun z hz => ?_
    exact counts_of_settled hn hF.starts hb (hneeds z ((mem_needsOf hn hall y z).mpr hz))

end Settled

/-! ### What a propagation leaves -/

section Ended

variable (hn : n.WellFormed) (hall : tasks.Perm n.taskNames) (engine : FlowEngine)
include hn hall

theorem mem_unresolved {x : FlowNode} : x ∈ (n.rules.propagate tasks needs engine).1.unresolved ↔
    n.IsRequired x ∧ (n.rules.propagate tasks needs engine).2.2.board.isFinal x = false := by
  rw [(Rules.propagate_board n.rules tasks needs engine).final]
  exact mem_missing_iff hn hall

theorem unfolds_ended (needs : Dependencies) : (n.scheme (n.seeded tasks)).Unfolds (n.seeded tasks)
    (n.rules.propagate tasks needs engine).2.2.board :=
  (settled_underway hn hall needs).unfolds.congr (Rules.propagate_board n.rules tasks needs engine)

end Ended

/-- The final nodes are the least closed set. Neither the order of the tasks matters nor what is left
of earlier runs. -/
theorem propagate_isLeast (f : ValidFile) {n : Network} (h : f.file.build = .ok n)
    {tasks tasks' : List String} (hall : tasks.Perm n.taskNames) (hall' : tasks'.Perm n.taskNames)
    (needs needs' : Dependencies) (engine engine' : FlowEngine) :
    let ended := n.rules.propagate tasks needs engine
    IsLeast {F | n.IsClosed F} {x | ended.2.2.board.isFinal x = true} ∧
      (n.rules.propagate tasks' needs' engine').2.2.board.finals = ended.2.2.board.finals := by
  intro ended
  have hn := NetworkFile.build_wellFormed f.checked h
  have hleast := isLeast_settled hn hall needs
  refine ⟨hleast, Std.ExtTreeSet.ext_contains fun x => ?_⟩
  have hsame := Set.ext_iff.mp ((isLeast_settled hn hall' needs').unique hleast) x
  exact Bool.eq_iff_iff.mpr hsame

def relay : ValidFile where
  file :=
    { tasks := ((∅ : Std.ExtTreeMap String TaskSection).insert "reader"
        { inputs := (∅ : Std.ExtTreeMap String InputPort).insert "in" {} }).insert "sensor"
        { activity := .periodic, period := some Margin.standardRatio,
          outputs := (∅ : Std.ExtTreeMap String OutputSection).insert "out" {} }
      connections := [⟨"sensor.out", "reader.in", {}⟩] }
  checked := by decide +kernel

theorem relay_isLeast : ∃ n, relay.file.build = .ok n ∧ ["sensor", "reader"].Perm n.taskNames ∧
    ["reader", "sensor"].Perm n.taskNames ∧
      IsLeast {F | n.IsClosed F}
        {x | (n.rules.propagate ["sensor", "reader"] ∅ .fresh).2.2.board.isFinal x = true} ∧
      (n.rules.propagate ["reader", "sensor"] ∅ .fresh).2.2.board.finals =
        (n.rules.propagate ["sensor", "reader"] ∅ .fresh).2.2.board.finals := by
  have hnames : relay.file.build.map taskNames = .ok ["reader", "sensor"] := by decide +kernel
  obtain ⟨n, h, hn⟩ := map_eq_ok.mp hnames
  have hall : ["sensor", "reader"].Perm n.taskNames := by rw [hn]; decide
  have hall' : ["reader", "sensor"].Perm n.taskNames := .of_eq hn.symm
  exact ⟨n, h, hall, hall', propagate_isLeast relay h hall hall' ∅ ∅ .fresh .fresh⟩

end Network

end FlowTiming
