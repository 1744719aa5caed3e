import FlowTiming.Proofs.Dynamics.Arrivals
import FlowTiming.Proofs.Flow.FinalTriggers

/-!
Bursts that wake a task. Each counts in the dynamics of the task, but bursts of several outputs that come
as often and are as great are one and the same trigger there.
-/

namespace FlowTiming

open Board

theorem Trigger.samplesOver_le (g : Trigger) (span : Duration) : (g.samplesOver span).toNat ≤ g.counted span := by
  rw [g.samplesOver_eq, Count.toNat_ofNat]
  omega

theorem PortDynamics.sum_le_sampleCount {d : PortDynamics} {facts : Finset Trigger}
    (h : ∀ g ∈ facts, g.count.toNat ≠ 0 → g ∈ d.triggers) (span : Duration) :
    min Count.limit (∑ g ∈ facts, (g.samplesOver span).toNat) ≤ (d.sampleCount span).toNat := by
  have hcounted : ∑ g ∈ facts, (g.samplesOver span).toNat ≤ ∑ g ∈ facts, g.counted span :=
    Finset.sum_le_sum fun g _ => g.samplesOver_le span
  have htotal : ∑ g ∈ facts, g.counted span ≤ d.total (·.counted span) := by
    apply d.sum_le_total
    intro g hg hne
    apply h g hg
    intro hc
    apply hne
    unfold Trigger.counted
    split <;> simp [hc]
  rw [d.sampleCount_eq, Count.toNat_ofNat]
  omega

namespace Network

/-- The burst that an output declares. What is no output of the network declares one without samples. -/
def burstAt (n : Network) (s : Endpoint) : Trigger :=
  (((n.task? s.task).bind fun t => t.outputs[s.port]?).map OutputPort.burst).getD ⟨"burst", .zero, 0⟩

/-- The outputs that can wake a task: those linked to waking inputs that were not seeded final. -/
def wakers (n : Network) (seeded : FlowBoard) (x : String) (t : Task) : Finset Endpoint :=
  ((t.wakingInputs.filter fun p => !seeded.isFinal ⟨x, some p⟩).flatMap fun p =>
    n.links.sourcesOf ⟨x, p⟩).toFinset

variable {n : Network} {x : String} {t : Task} {s : Endpoint}

theorem mem_wakers {seeded : FlowBoard} : s ∈ n.wakers seeded x t ↔
    ∃ p ∈ t.wakingInputs, seeded.isFinal ⟨x, some p⟩ = false ∧ s ∈ n.links.sourcesOf ⟨x, p⟩ := by
  simp [wakers, and_assoc]

theorem exists_burst (hn : n.WellFormed) {e : Endpoint} (hs : s ∈ n.links.sourcesOf e) :
    ∃ t o, n.task? s.task = some t ∧ t.outputs[s.port]? = some o ∧ n.burstAt s = o.burst := by
  obtain ⟨t, ht, hp⟩ := hn.sources _ (Links.mem_sourcesOf.mp hs)
  obtain ⟨o, ho⟩ := mem_iff_getElem?.mp hp
  refine ⟨t, o, ht, ho, ?_⟩
  rw [burstAt, ht, Option.bind_some, ho]
  rfl

theorem Accumulates.retains {seeded ended : FlowBoard} (h : n.Accumulates seeded ended)
    {p : String} {o : OutputPort} (ht : n.task? x = some t) (ho : t.outputs[p]? = some o)
    (hfinal : ended.isFinal ⟨x, some p⟩ = true) :
    seeded.triggersOf ⟨x, some p⟩ ⊆ ended.triggersOf ⟨x, some p⟩ := by
  intro g hg
  by_cases hstart : seeded.isFinal ⟨x, some p⟩ = true
  · obtain ⟨d, hd, hmem⟩ := hg
    exact ⟨d, (h.kept _ hstart).trans hd, hmem⟩
  · rw [Bool.not_eq_true] at hstart
    rw [h.output x t p o ht ho ⟨hstart, hfinal⟩]
    exact .inl (.inl hg)

section Seeded

variable {tasks : List String} (hn : n.WellFormed) (hall : tasks.Perm n.taskNames)
include hn hall

theorem burst_seeded {p : String} {o : OutputPort} (ht : n.task? x = some t) (ho : t.outputs[p]? = some o)
    (hc : o.burst.count.toNat ≠ 0) : o.burst ∈ (n.seeded tasks).triggersOf ⟨x, some p⟩ := by
  have hknown := (stands_seeded hn hall ht).known (some p) fun q hq => Option.some.inj hq ▸ mem_of_getElem? ho
  obtain ⟨d, hd⟩ := isKnown_iff.mp hknown
  exact ⟨d, hd, (model_seeded hn tasks ht ho d hd).2 hc⟩

omit hall

theorem idle_of_seeded (ht : n.task? x = some t) (hactivity : t.activity = .triggered)
    (hfinal : (n.seeded tasks).isFinal (taskNode x) = true) : t.wakingInputs = [] := by
  refine seeded_keeps (J := fun b => b.isFinal (taskNode x) = true → t.wakingInputs = []) hn ?_ tasks
    (by simp) hfinal
  intro y u hu
  refine { note := fun b _ _ hb => hb, hand := ?_, alter := ?_, finalize := ?_ }
  · intro b m d s hb _ _ hs _ hx
    rw [isFinal_finalize, FlowBoard.isFinal_contribute] at hx
    rcases hx with hx | hx
    · -- a task with a master is not triggered by its inputs
      obtain ⟨hs, hmaster⟩ := mem_slavesOf.mp hs
      obtain ⟨rfl, -⟩ := Node.mk.inj hx
      obtain rfl := Option.some.inj (ht.symm.trans hs)
      simp [Task.master, hactivity] at hmaster
    · exact hb hx
  · exact fun b b' q _ ha hb hx => hb ((ha.final _).symm.trans hx)
  · intro b q hq _ hb hx
    rw [isFinal_finalize] at hx
    rcases hx with hx | hx
    · obtain ⟨rfl, rfl⟩ := Node.mk.inj hx
      obtain rfl := Option.some.inj (ht.symm.trans hu)
      cases hq with
      | periodic ha => simp [hactivity] at ha
      | idle _ hw => exact hw
    · exact hb hx

end Seeded

theorem burst_heard {tasks : List String} {b : FlowBoard} (hn : n.WellFormed) (hall : tasks.Perm n.taskNames)
    (h : n.Accumulates (n.seeded tasks) b) (ht : n.task? x = some t) (hactivity : t.activity = .triggered)
    (hx : BecameFinal (n.seeded tasks) b (taskNode x)) (hs : s ∈ n.wakers (n.seeded tasks) x t)
    (hc : (n.burstAt s).count.toNat ≠ 0) : n.burstAt s ∈ b.triggersOf (taskNode x) := by
  obtain ⟨p, hp, hopen, hsource⟩ := mem_wakers.mp hs
  obtain ⟨u, o, hu, ho, hburst⟩ := exists_burst hn hsource
  rw [hburst] at hc ⊢
  have hm : t.master = none := by simp only [Task.master, hactivity]
  have hfeeds : n.CanArrive ⟨x, p⟩ := .inl (Links.feeds_iff.mpr ⟨s, hsource⟩)
  have hdepends : n.Depends (taskNode x) ⟨x, some p⟩ := .waking ht hm hp hfeeds
  obtain ⟨i, -, hi⟩ := h.arrival _ ⟨x, p⟩ hdepends (h.settled _ _ hx hdepends)
  have harrives := (hi i).mpr rfl
  rw [h.triggered x t ht hactivity hx]
  refine .inr ⟨p, hp, hfeeds, i, harrives, ?_⟩
  cases harrives with
  | seeded hfinal => simp [Endpoint.node, hopen] at hfinal
  | merged _ hsources _ _ hmem =>
    rw [hmem]
    exact ⟨s, hsource, h.retains hu ho (hsources s hsource) (burst_seeded hn hall hu ho hc)⟩

/-- Whether dynamics count the bursts of outputs, those that are the same trigger once. -/
structure CountsBursts (n : Network) (outputs : Finset Endpoint) (d : PortDynamics) : Prop where
  triggers : ∀ span, min Count.limit (∑ g ∈ outputs.image n.burstAt, (g.samplesOver span).toNat) ≤
    (d.sampleCount span).toNat
  outputs : (∀ s ∈ outputs, ∀ s' ∈ outputs, n.burstAt s = n.burstAt s' →
      s = s' ∨ (n.burstAt s).count.toNat = 0) → ∀ span,
    min Count.limit (∑ s ∈ outputs, ((n.burstAt s).samplesOver span).toNat) ≤ (d.sampleCount span).toNat

theorem Trigger.samplesOver_eq_zero {g : Trigger} (h : g.count.toNat = 0) (span : Duration) :
    (g.samplesOver span).toNat = 0 := by
  unfold Trigger.samplesOver
  split <;> simp [h]

theorem countsBursts_of_mem {outputs : Finset Endpoint} {d : PortDynamics}
    (h : ∀ s ∈ outputs, (n.burstAt s).count.toNat ≠ 0 → n.burstAt s ∈ d.triggers) :
    n.CountsBursts outputs d where
  triggers span := by
    apply PortDynamics.sum_le_sampleCount
    intro g hg hc
    obtain ⟨s, hs, rfl⟩ := Finset.mem_image.mp hg
    exact h s hs hc
  outputs hdistinct span := by
    -- outputs without samples add nothing, and the bursts of the others are different triggers
    let bursting := outputs.filter fun s => (n.burstAt s).count.toNat ≠ 0
    have hbursting : ∑ s ∈ bursting, ((n.burstAt s).samplesOver span).toNat =
        ∑ s ∈ outputs, ((n.burstAt s).samplesOver span).toNat := by
      apply Finset.sum_filter_of_ne
      intro s _ hne hc
      exact hne (Trigger.samplesOver_eq_zero hc span)
    have hinjective : Set.InjOn n.burstAt bursting := by
      intro s hs s' hs' he
      obtain ⟨hs, hc⟩ := Finset.mem_filter.mp hs
      exact (hdistinct s hs s' (Finset.mem_filter.mp hs').1 he).resolve_right hc
    have himage : ∑ g ∈ bursting.image n.burstAt, (g.samplesOver span).toNat =
        ∑ s ∈ bursting, ((n.burstAt s).samplesOver span).toNat := Finset.sum_image hinjective
    rw [← hbursting, ← himage]
    apply PortDynamics.sum_le_sampleCount
    intro g hg hc
    obtain ⟨s, hs, rfl⟩ := Finset.mem_image.mp hg
    exact h s (Finset.mem_filter.mp hs).1 hc

theorem propagate_countsBursts (f : ValidFile) {n : Network} (h : f.file.build = .ok n)
    {tasks : List String} (hall : tasks.Perm n.taskNames) (needs : Dependencies) (engine : FlowEngine)
    (ht : n.task? x = some t) (hactivity : t.activity = .triggered) :
    let ended := (n.rules.propagate tasks needs engine).2.2.board
    ended.isFinal (taskNode x) = true → ∃ d, ended.info? (taskNode x) = some d ∧
      n.CountsBursts (n.wakers (n.seeded tasks) x t) d := by
  intro ended hfinal
  have hn := NetworkFile.build_wellFormed f.checked h
  have hended := unfolds_ended hn hall engine needs
  have haccumulates := accumulates_unfolds hn hall hended
  obtain ⟨-, d, -, hd, -⟩ := haccumulates.model _ (required_task ht)
  refine ⟨d, hd, countsBursts_of_mem fun s hs hc => ?_⟩
  by_cases hstart : (n.seeded tasks).isFinal (taskNode x) = true
  · -- nothing wakes a task that is final from the start
    obtain ⟨p, hp, -⟩ := mem_wakers.mp hs
    rw [idle_of_seeded hn ht hactivity hstart] at hp
    contradiction
  · rw [Bool.not_eq_true] at hstart
    rw [← FlowBoard.mem_triggersOf hd]
    exact burst_heard hn hall haccumulates ht hactivity ⟨hstart, hfinal⟩ hs hc

/-- Two outputs that burst once a second, and a task that both of them wake. -/
def callers (left right : Count) : NetworkFile :=
  let caller (size : Count) : TaskSection :=
    { outputs := (∅ : Std.ExtTreeMap String OutputSection).insert "out"
        { burstPeriod := .signed false 1, burstSize := size } }
  { tasks := (((∅ : Std.ExtTreeMap String TaskSection).insert "left" (caller left)).insert "right"
      (caller right)).insert "sink"
        { inputs := ((∅ : Std.ExtTreeMap String InputPort).insert "a" {}).insert "b" {} }
    connections := [⟨"left.out", "sink.a", {}⟩, ⟨"right.out", "sink.b", {}⟩] }

def unlike : ValidFile := ⟨callers 1 2, by decide +kernel⟩

theorem unlike_countsBursts : ∃ n t d, unlike.file.build = .ok n ∧ ["sink", "left", "right"].Perm n.taskNames ∧
    n.task? "sink" = some t ∧ t.activity = .triggered ∧
    let ended := (n.rules.propagate ["sink", "left", "right"] ∅ .fresh).2.2.board
    ended.isFinal (taskNode "sink") = true ∧ ended.info? (taskNode "sink") = some d ∧
      n.CountsBursts (n.wakers (n.seeded ["sink", "left", "right"]) "sink" t) d ∧
      (d.sampleCount ⟨1000000000, by decide⟩).toNat = 3 := by
  have hbuild : (unlike.file.build.map fun n => (n.taskNames, (n.task? "sink").map Task.activity,
      (n.rules.propagate ["sink", "left", "right"] ∅ .fresh).2.2.board.isFinal (taskNode "sink"),
      ((n.rules.propagate ["sink", "left", "right"] ∅ .fresh).2.2.board.info? (taskNode "sink")).map fun d =>
        (d.sampleCount ⟨1000000000, by decide⟩).toNat)) =
      .ok (["left", "right", "sink"], some .triggered, true, some 3) := by
    decide +kernel
  obtain ⟨n, h, hn⟩ := map_eq_ok.mp hbuild
  simp only [Prod.mk.injEq] at hn
  obtain ⟨hnames, htask, hfinal, hcount⟩ := hn
  obtain ⟨t, ht, hactivity⟩ := Option.map_eq_some_iff.mp htask
  have hall : ["sink", "left", "right"].Perm n.taskNames := by rw [hnames]; decide
  obtain ⟨d, hd, hbursts⟩ := propagate_countsBursts unlike h hall ∅ .fresh ht hactivity hfinal
  rw [hd, Option.map_some, Option.some.injEq] at hcount
  exact ⟨n, t, d, h, hall, ht, hactivity, hfinal, hd, hbursts, hcount⟩

def alike : ValidFile := ⟨callers 1 1, by decide +kernel⟩

theorem alike_conflated : ∃ n t d, alike.file.build = .ok n ∧ n.task? "sink" = some t ∧ t.activity = .triggered ∧
    (n.propagate .fresh).2.2.board.isFinal (taskNode "sink") = true ∧
      (n.propagate .fresh).2.2.board.info? (taskNode "sink") = some d ∧
      ¬ min Count.limit (∑ s ∈ n.wakers (n.seeded n.taskNames) "sink" t,
          ((n.burstAt s).samplesOver ⟨1000000000, by decide⟩).toNat) ≤
        (d.sampleCount ⟨1000000000, by decide⟩).toNat := by
  have hbuild : (alike.file.build.map fun n =>
      ((n.task? "sink").map fun t => (t.activity, ∑ s ∈ n.wakers (n.seeded n.taskNames) "sink" t,
          ((n.burstAt s).samplesOver ⟨1000000000, by decide⟩).toNat),
        (n.propagate .fresh).2.2.board.isFinal (taskNode "sink"),
        ((n.propagate .fresh).2.2.board.info? (taskNode "sink")).map fun d =>
          (d.sampleCount ⟨1000000000, by decide⟩).toNat)) = .ok (some (.triggered, 2), true, some 1) := by
    decide +kernel
  obtain ⟨n, h, hn⟩ := map_eq_ok.mp hbuild
  simp only [Prod.mk.injEq] at hn
  obtain ⟨htask, hfinal, hinfo⟩ := hn
  obtain ⟨t, ht, hvalues⟩ := Option.map_eq_some_iff.mp htask
  obtain ⟨hactivity, hsum⟩ := Prod.mk.inj hvalues
  obtain ⟨d, hd, hcount⟩ := Option.map_eq_some_iff.mp hinfo
  refine ⟨n, t, d, h, ht, hactivity, hfinal, hd, ?_⟩
  rw [hsum, hcount]
  decide

end Network

end FlowTiming
