import FlowTiming.Proofs.Flow.FinalNodes

/-!
The triggers of all nodes after a propagation: those that a node was seeded with, and those of all
that it depends on.
-/

namespace FlowTiming

open Board

def FlowBoard.triggersOf (b : FlowBoard) (x : FlowNode) : Set Trigger :=
  {g | ∃ d, b.info? x = some d ∧ g ∈ d.triggers}

theorem FlowBoard.mem_triggersOf {b : FlowBoard} {x : FlowNode} {d : PortDynamics}
    (h : b.info? x = some d) (g : Trigger) : g ∈ b.triggersOf x ↔ g ∈ d.triggers := by
  simp [triggersOf, h]

namespace Network

/-- Whether a node became final after seeding. -/
def BecameFinal (seeded ended : FlowBoard) (x : FlowNode) : Prop :=
  seeded.isFinal x = false ∧ ended.isFinal x = true

/-- Whether dynamics are what arrives at an input in the end. An input that was not seeded final gets
the triggers of all outputs linked to it, with samples as great as the greatest of theirs. -/
inductive Arrives (n : Network) (seeded ended : FlowBoard) (e : Endpoint) : PortDynamics → Prop
  | seeded {d : PortDynamics} : seeded.isFinal e.node = true → seeded.info? e.node = some d →
      Arrives n seeded ended e d
  | merged {d : PortDynamics} : seeded.isFinal e.node = false →
      (∀ s ∈ n.links.sourcesOf e, ended.isFinal s.node = true) → d.name = e.text →
      IsGreatest {k | ∃ s ∈ n.links.sourcesOf e, ∃ i, ended.info? s.node = some i ∧
        i.sampleSize.toNat = k} d.sampleSize.toNat →
      (∀ g, g ∈ d.triggers ↔ ∃ s ∈ n.links.sourcesOf e, g ∈ ended.triggersOf s.node) →
      Arrives n seeded ended e d

/-- What is known at the end, given what was known after seeding. -/
structure Accumulates (n : Network) (seeded ended : FlowBoard) : Prop where
  kept : ∀ x, seeded.isFinal x = true → ended.info? x = seeded.info? x
  model : ∀ x, n.IsRequired x → ∃ start d, seeded.info? x = some start ∧ ended.info? x = some d ∧
    d.name = start.name ∧ d.sampleSize = start.sampleSize
  settled : ∀ x y, BecameFinal seeded ended x → n.Depends x y →
    n.Counts {z | ended.isFinal z = true} y
  arrival : ∀ x e, n.Depends x e.node → n.Counts {z | ended.isFinal z = true} e.node →
    ∃ i, n.dynamicsOf ended e.node = some i ∧ ∀ j, n.Arrives seeded ended e j ↔ j = i
  slave : ∀ x t m, n.task? x = some t → t.master = some m → BecameFinal seeded ended (taskNode x) →
    ended.triggersOf (taskNode x) =
      seeded.triggersOf (taskNode x) ∪ ended.triggersOf (taskNode m)
  triggered : ∀ x t, n.task? x = some t → t.activity = .triggered →
    BecameFinal seeded ended (taskNode x) → ended.triggersOf (taskNode x) =
      seeded.triggersOf (taskNode x) ∪ {g | ∃ p ∈ t.wakingInputs, n.CanArrive ⟨x, p⟩ ∧
        ∃ i, n.Arrives seeded ended ⟨x, p⟩ i ∧ g ∈ i.triggers}
  output : ∀ x t (p : String) (o : OutputPort), n.task? x = some t → t.outputs[p]? = some o →
    BecameFinal seeded ended ⟨x, some p⟩ → ended.triggersOf ⟨x, some p⟩ =
      seeded.triggersOf ⟨x, some p⟩ ∪ {g | o.onUpdate = true ∧ g ∈ ended.triggersOf (taskNode x)} ∪
        {g | ∃ p ∈ o.triggers, n.CanArrive ⟨x, p⟩ ∧ ∃ i, n.Arrives seeded ended ⟨x, p⟩ i ∧
          g ∈ ((n.rootPeriod t).elim i i.sampledAt).triggers}

/-! ### What arrives at inputs -/

theorem isGreatest_foldl_max {sizes : List Count} {c : Count} (h : ∃ s ∈ sizes, c.toNat ≤ s.toNat) :
    IsGreatest {k | ∃ s ∈ sizes, s.toNat = k} (sizes.foldl max c).toNat := by
  have general (sizes : List Count) (c : Count) : c.toNat ≤ (sizes.foldl max c).toNat ∧
      (∀ s ∈ sizes, s.toNat ≤ (sizes.foldl max c).toNat) ∧
        ((sizes.foldl max c).toNat = c.toNat ∨ ∃ s ∈ sizes, s.toNat = (sizes.foldl max c).toNat) := by
    induction sizes generalizing c with
    | nil => simp
    | cons s sizes ih =>
      obtain ⟨hstart, hall, hsome⟩ := ih (max c s)
      rw [Count.toNat_max] at hstart hsome
      simp only [List.foldl_cons, List.mem_cons, forall_eq_or_imp, exists_eq_or_imp]
      refine ⟨by omega, ⟨by omega, hall⟩, ?_⟩
      rcases hsome with hsome | hsome
      · omega
      · exact .inr (.inr hsome)
  obtain ⟨hstart, hall, hsome⟩ := general sizes c
  refine ⟨?_, ?_⟩
  · rcases hsome with hsome | hsome
    · obtain ⟨s, hs, hc⟩ := h
      have := hall s hs
      exact ⟨s, hs, by omega⟩
    · exact hsome
  · rintro k ⟨s, hs, rfl⟩
    exact hall s hs

theorem Arrives.unique {n : Network} {seeded ended : FlowBoard} {e : Endpoint} {i j : PortDynamics}
    (hi : n.Arrives seeded ended e i) (hj : n.Arrives seeded ended e j) : i = j := by
  cases hi with
  | seeded hfinal hi =>
    cases hj with
    | seeded _ hj => exact Option.some.inj (hi.symm.trans hj)
    | merged hopen => simp [hfinal] at hopen
  | merged hopen _ hname hsize hmem =>
    cases hj with
    | seeded hfinal => simp [hfinal] at hopen
    | merged _ _ hname' hsize' hmem' =>
      have hsizes : i.sampleSize = j.sampleSize := Count.ext (hsize.unique hsize')
      have htriggers : i.triggers = j.triggers :=
        Std.ExtTreeSet.ext_mem fun g => (hmem g).trans (hmem' g).symm
      cases i
      cases j
      simp only [PortDynamics.mk.injEq]
      exact ⟨hname.trans hname'.symm, hsizes, htriggers⟩

theorem mem_sourceDynamics {n : Network} {b : FlowBoard} {e : Endpoint} {i : PortDynamics} :
    i ∈ n.sourceDynamics b e ↔ ∃ s ∈ n.links.sourcesOf e, b.info? s.node = some i := List.mem_filterMap

theorem mem_mergedSources {n : Network} {b : FlowBoard} {e : Endpoint} (g : Trigger) :
    g ∈ (n.mergedSources b e).triggers ↔ ∃ s ∈ n.links.sourcesOf e, g ∈ b.triggersOf s.node := by
  rw [mergedSources, (PortDynamics.foldl_merge _ _).2.2]
  constructor
  · rintro (hg | ⟨i, hi, hg⟩)
    · simp [PortDynamics.empty] at hg
    · obtain ⟨s, hs, hi⟩ := mem_sourceDynamics.mp hi
      exact ⟨s, hs, i, hi, hg⟩
  · rintro ⟨s, hs, i, hi, hg⟩
    exact .inr ⟨i, mem_sourceDynamics.mpr ⟨s, hs, hi⟩, hg⟩

section Unfolded

variable {n : Network} {tasks : List String} {b : FlowBoard} (hn : n.WellFormed)
  (hall : tasks.Perm n.taskNames)
  (hb : (n.scheme (n.seeded tasks)).Unfolds (n.seeded tasks) b)
include hn hall hb

theorem known_source {e s : Endpoint} (hs : s ∈ n.links.sourcesOf e) :
    ∃ i, b.info? s.node = some i ∧ 1 ≤ i.sampleSize.toNat := by
  obtain ⟨t, ht, hp⟩ := hn.sources _ (Links.mem_sourcesOf.mp hs)
  obtain ⟨o, ho⟩ := mem_iff_getElem?.mp hp
  obtain ⟨start, i, hstart, hi, -, hsize⟩ := known_of_required hn hall hb (required_source hn hs)
  refine ⟨i, hi, ?_⟩
  rw [hsize, (model_seeded hn tasks ht ho start hstart).1, Count.toNat_max, Count.toNat_one]
  exact Nat.le_max_right _ _

theorem isGreatest_mergedSources {e : Endpoint} (hfeeds : n.links.feeds e = true) :
    IsGreatest {k | ∃ s ∈ n.links.sourcesOf e, ∃ i, b.info? s.node = some i ∧ i.sampleSize.toNat = k}
      (n.mergedSources b e).sampleSize.toNat := by
  let sizes : List Count := (n.sourceDynamics b e).map PortDynamics.sampleSize
  have hmem (c : Count) : c ∈ sizes ↔
      ∃ s ∈ n.links.sourcesOf e, ∃ i, b.info? s.node = some i ∧ i.sampleSize = c := by
    constructor
    · intro hc
      obtain ⟨i, hi, rfl⟩ := List.mem_map.mp hc
      obtain ⟨s, hs, hi⟩ := mem_sourceDynamics.mp hi
      exact ⟨s, hs, i, hi, rfl⟩
    · rintro ⟨s, hs, i, hi, rfl⟩
      exact List.mem_map.mpr ⟨i, mem_sourceDynamics.mpr ⟨s, hs, hi⟩, rfl⟩
  obtain ⟨s, hs⟩ := Links.feeds_iff.mp hfeeds
  obtain ⟨i, hi, hle⟩ := known_source hn hall hb hs
  have hlisted : i.sampleSize ∈ sizes := (hmem _).mpr ⟨s, hs, i, hi, rfl⟩
  have hgreatest := isGreatest_foldl_max (c := 1) ⟨_, hlisted, hle⟩
  have hone := hgreatest.2 ⟨_, hlisted, rfl⟩
  have hsize : (n.mergedSources b e).sampleSize.toNat = (sizes.foldl max 1).toNat := by
    rw [mergedSources, (PortDynamics.foldl_merge _ _).2.1, PortDynamics.empty, Count.toNat_max,
      Count.toNat_one]
    exact Nat.max_eq_left (Nat.le_trans hle hone)
  rw [hsize]
  constructor
  · obtain ⟨c, hc, he⟩ := hgreatest.1
    obtain ⟨s, hs, i, hi, rfl⟩ := (hmem c).mp hc
    exact ⟨s, hs, i, hi, he⟩
  · rintro k ⟨s, hs, i, hi, rfl⟩
    exact hgreatest.2 ⟨_, (hmem _).mpr ⟨s, hs, i, hi, rfl⟩, rfl⟩

theorem arrives_settled {y : FlowNode} {e : Endpoint} (he : n.inputOf y = some e)
    (hc : n.CanArrive e) (hy : n.Settled (n.seeded tasks) b y) :
    ∃ i, n.settledDynamics (n.seeded tasks) b y = some i ∧ n.Arrives (n.seeded tasks) b e i := by
  obtain ⟨rfl, -⟩ := inputOf_eq_some.mp he
  simp only [Settled, settledDynamics, he] at hy ⊢
  cases hfinal : (n.seeded tasks).isFinal e.node with
  | true =>
    obtain ⟨i, hi⟩ := isKnown_iff.mp (known_of_final hn tasks (x := e.task) (p := e.port) hfinal)
    exact ⟨i, hi, .seeded hfinal hi⟩
  | false =>
    have hsources := hy.resolve_left (by simp [hfinal])
    have hfeeds : n.links.feeds e = true := by
      refine hc.resolve_right fun hstart => ?_
      rw [Endpoint.node, (isFinal_seeded_port hn hall e.task e.port).mpr hstart] at hfinal
      contradiction
    exact ⟨_, rfl, .merged hfinal hsources (PortDynamics.foldl_merge _ _).1
      (isGreatest_mergedSources hn hall hb hfeeds) mem_mergedSources⟩

theorem mem_triggersOf_became {x : FlowNode} {t : Task} (ht : n.task? x.task = some t)
    (hx : BecameFinal (n.seeded tasks) b x) (g : Trigger) :
    g ∈ b.triggersOf x ↔ g ∈ (n.seeded tasks).triggersOf x ∨ ∃ y, n.Depends x y ∧
      ∃ i, n.settledDynamics (n.seeded tasks) b y = some i ∧
        g ∈ (seen (n.rootPeriod t) y.port.isSome i).triggers := by
  obtain ⟨start, d, hstart, hd, -⟩ :=
    known_of_required hn hall hb (hb.ready_of_final hx.2 hx.1).1
  have hvalue := hb.info_of_final hx.2 hx.1
  rw [hstart, hd] at hvalue
  obtain rfl := Option.some.inj hvalue
  rw [FlowBoard.mem_triggersOf hd, FlowBoard.mem_triggersOf hstart,
    (PortDynamics.foldl_merge _ _).2.2, contributions, ht, Option.bind_some]
  apply or_congr_right
  constructor
  · rintro ⟨c, hc, hg⟩
    obtain ⟨y, hy, hc⟩ := List.mem_flatMap.mp hc
    obtain ⟨i, hi, rfl⟩ := List.mem_map.mp hc
    rw [Std.ExtTreeSet.mem_toList, mem_setOf, mem_needsOf hn hall] at hy
    exact ⟨y, hy, i, Option.mem_toList.mp hi, hg⟩
  · rintro ⟨y, hy, i, hi, hg⟩
    refine ⟨_, List.mem_flatMap.mpr ⟨y, ?_, List.mem_map.mpr ⟨i, Option.mem_toList.mpr hi, rfl⟩⟩, hg⟩
    rw [Std.ExtTreeSet.mem_toList, mem_setOf, mem_needsOf hn hall]
    exact hy

theorem settled_became {x y : FlowNode} (hx : BecameFinal (n.seeded tasks) b x)
    (hy : n.Depends x y) : n.Settled (n.seeded tasks) b y :=
  (hb.ready_of_final hx.2 hx.1).2 y ((mem_needsOf hn hall x y).mpr hy)

theorem mem_over_inputs {x : String} {q : Option String} {period : Option Duration}
    {inputs : List String} (hx : BecameFinal (n.seeded tasks) b ⟨x, q⟩)
    (hinputs : ∀ p ∈ inputs, n.CanArrive ⟨x, p⟩ → n.Depends ⟨x, q⟩ ⟨x, some p⟩) (g : Trigger) :
    (∃ y, (∃ p ∈ inputs, n.CanArrive ⟨x, p⟩ ∧ y = ⟨x, some p⟩) ∧
      ∃ i, n.settledDynamics (n.seeded tasks) b y = some i ∧
        g ∈ (seen period y.port.isSome i).triggers) ↔
    ∃ p ∈ inputs, n.CanArrive ⟨x, p⟩ ∧ ∃ i, n.Arrives (n.seeded tasks) b ⟨x, p⟩ i ∧
      g ∈ (period.elim i i.sampledAt).triggers := by
  have hseen (i : PortDynamics) : seen period true i = period.elim i i.sampledAt := by
    cases period <;> rfl
  have harrives (p : String) (hp : p ∈ inputs) (hc : n.CanArrive ⟨x, p⟩) :=
    arrives_settled hn hall hb ((hinputs p hp hc).input hn (e := ⟨x, p⟩)).1 hc
      (settled_became hn hall hb hx (hinputs p hp hc))
  constructor
  · rintro ⟨_, ⟨p, hp, hc, rfl⟩, i, hi, hg⟩
    obtain ⟨j, hj, ha⟩ := harrives p hp hc
    obtain rfl := Option.some.inj (hj.symm.trans hi)
    exact ⟨p, hp, hc, j, ha, hseen j ▸ hg⟩
  · rintro ⟨p, hp, hc, i, hi, hg⟩
    obtain ⟨j, hj, ha⟩ := harrives p hp hc
    obtain rfl := ha.unique hi
    exact ⟨_, ⟨p, hp, hc, rfl⟩, j, hj, (hseen j).symm ▸ hg⟩

theorem accumulates_unfolds : n.Accumulates (n.seeded tasks) b where
  kept := hb.later.frozen
  model x hx := known_of_required hn hall hb hx
  settled x y hx hy := by
    refine counts_of_settled hn ?_ (fun _ hz => hz) (settled_became hn hall hb hx hy)
    rintro z ⟨t, ht, hz⟩
    exact hb.later.final z ((stands_seeded hn hall ht).final z.port hz)
  arrival x e hx hcounts := by
    obtain ⟨he, hc⟩ := hx.input hn
    obtain ⟨i, hi, harrives⟩ :=
      arrives_settled hn hall hb he hc (settled_of_counts hn hb hcounts)
    refine ⟨i, (dynamicsOf_eq hn hall hb _).trans hi, fun j => ⟨fun hj => hj.unique harrives, ?_⟩⟩
    rintro rfl
    exact harrives
  slave x t m ht hm hx := by
    ext g
    rw [mem_triggersOf_became hn hall hb (x := taskNode x) ht hx]
    apply or_congr_right
    simp only [depends_slave_iff ht hm, exists_eq_left, settledDynamics, inputOf_taskNode]
    have hport : (taskNode m).port.isSome = false := rfl
    simp only [hport, seen_of_task]
    rfl
  triggered x t ht hactivity hx := by
    have hm : t.master = none := by simp only [Task.master, hactivity]
    have hperiod : n.rootPeriod t = none := by
      rw [rootPeriod, periodWithin.eq_def]
      simp only [hm, Task.period, hactivity]
    ext g
    rw [mem_triggersOf_became hn hall hb (x := taskNode x) ht hx]
    apply or_congr_right
    simp only [depends_woken_iff ht hm, hperiod]
    exact mem_over_inputs hn hall hb hx (fun p hp hc => .waking ht hm hp hc) g
  output x t p o ht ho hx := by
    ext g
    rw [mem_triggersOf_became hn hall hb (x := ⟨x, some p⟩) ht hx, Set.union_assoc]
    apply or_congr_right
    simp only [depends_output_iff ht ho, or_and_right, exists_or]
    refine or_congr ?_ (mem_over_inputs hn hall hb hx (fun i hi hc => .cause ht ho hi hc) g)
    have hport : (taskNode x).port.isSome = false := rfl
    constructor
    · rintro ⟨_, ⟨hup, rfl⟩, i, hi, hg⟩
      rw [hport, seen_of_task] at hg
      exact ⟨hup, i, hi, hg⟩
    · rintro ⟨hup, i, hi, hg⟩
      exact ⟨taskNode x, ⟨hup, rfl⟩, i, hi, by rwa [hport, seen_of_task]⟩

end Unfolded

theorem not_isRefusal_closingNote (o : Outcome String String) :
    ¬ (Rules.closingNote o).IsRefusal := by
  apply Entry.not_isRefusal
  unfold Rules.closingNote
  split <;> simp

/-- After a propagation every node has what it was seeded with and what all that it depends on brought
it. No update after seeding was refused. -/
theorem propagate_accumulates (f : ValidFile) {n : Network} (h : f.file.build = .ok n)
    {tasks : List String} (hall : tasks.Perm n.taskNames) (needs : Dependencies)
    (engine : FlowEngine) :
    let ended := (n.rules.propagate tasks needs engine).2.2.board
    n.Accumulates (n.seeded tasks) ended ∧ Silent (n.seeded tasks) ended := by
  intro ended
  have hn := NetworkFile.build_wellFormed f.checked h
  have hunder := settled_underway hn hall needs
  have hsame := Rules.propagate_board n.rules tasks needs engine
  exact ⟨accumulates_unfolds hn hall (hunder.unfolds.congr hsame),
    hunder.silent.trans (silent_note_iff.mpr (not_isRefusal_closingNote _))⟩

theorem relay_accumulates : ∃ n, relay.file.build = .ok n ∧ ["sensor", "reader"].Perm n.taskNames ∧
    let ended := (n.rules.propagate ["sensor", "reader"] ∅ .fresh).2.2.board
    n.Accumulates (n.seeded ["sensor", "reader"]) ended ∧
      Silent (n.seeded ["sensor", "reader"]) ended := by
  have hnames : relay.file.build.map taskNames = .ok ["reader", "sensor"] := by decide +kernel
  obtain ⟨n, h, hn⟩ := map_eq_ok.mp hnames
  have hall : ["sensor", "reader"].Perm n.taskNames := by rw [hn]; decide
  exact ⟨n, h, hall, propagate_accumulates relay h hall ∅ .fresh⟩

end Network

end FlowTiming
