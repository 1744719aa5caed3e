import FlowTiming.Proofs.Flow.TaskSeeds
import FlowTiming.Proofs.Policy.Provision
import FlowTiming.Proofs.Policy.Sizes

/-!
The period looked up at the root of a chain of masters has been handed down the chain when seeding is
over, and stays (`rootPeriod_paces`). So links into such a task never lack a period to read them by.
-/

namespace FlowTiming

open Board

theorem PortDynamics.exists_minimalPeriod {d : PortDynamics} {g : Trigger} (hg : g ∈ d.triggers)
    (hperiod : 0 < g.period.nanos) :
    ∃ period, d.minimalPeriod = some period ∧ period.nanos ≤ g.period.nanos := by
  cases h : d.minimalPeriod with
  | none =>
    have := minimalPeriod_eq_none_iff.mp h g hg
    omega
  | some period =>
    exact ⟨period, rfl, (isLeast_of_minimalPeriod h).2 ⟨Nat.ne_of_gt hperiod, g, hg, rfl⟩⟩

namespace Synthesis

variable {s : Synthesis} {l : Link} {p : LinkPolicy}

/-- Whether a link is given up, or sent to its fallback, for want of a period of the sink's task. -/
inductive WantsPeriod (s : Synthesis) (l : Link) (p : LinkPolicy) : Prop
  | givenUp {e : Endpoint} : s.policyFor l p = .error (.noSinkPeriod e) → WantsPeriod s l p
  | fellBack {d : Decision} {w : Warning} : s.policyFor l p = .ok d → d.origin = .fallback w →
      w.gap = .sinkPeriod → WantsPeriod s l p

theorem unknown_of_noSinkPeriod {e : Endpoint} (h : s.policyFor l p = .error (.noSinkPeriod e)) :
    e = l.sink ∧ (s.finalDynamics (taskNode l.sink.task)).bind PortDynamics.minimalPeriod = none := by
  have hj := s.judged l p
  rw [h] at hj
  generalize hresult : (.error (.noSinkPeriod e) : Except Failure Decision) = result at hj
  cases hj with
  | preset | unmodelled | unreliable | overflow | sized => simp at hresult
  | lacking _ _ _ hlacks =>
    unfold fallBack at hresult
    split at hresult
    · simp at hresult
    · cases hlacks with
      | sourceDynamics =>
        rw [gapFailure_sourceDynamics] at hresult
        cases hc : s.cycleThrough l.source <;> simp [hc] at hresult
      | sinkPeriod _ _ hnone =>
        simp only [gapFailure, Except.error.injEq, Failure.noSinkPeriod.injEq] at hresult
        exact ⟨hresult, hnone⟩

theorem unknown_of_fallback {d : Decision} {w : Warning} (h : s.policyFor l p = .ok d)
    (hd : d.origin = .fallback w) (hgap : w.gap = .sinkPeriod) :
    (s.finalDynamics (taskNode l.sink.task)).bind PortDynamics.minimalPeriod = none := by
  have hj := s.judged l p
  rw [h] at hj
  generalize hresult : (.ok d : Except Failure Decision) = result at hj
  cases hj with
  | unmodelled | overflow => simp at hresult
  | preset | unreliable | sized =>
    obtain rfl := Except.ok.inj hresult
    simp [sized] at hd
  | lacking _ _ _ hlacks =>
    unfold fallBack at hresult
    split at hresult
    · obtain rfl := Except.ok.inj hresult
      obtain rfl := Origin.fallback.inj hd
      cases hlacks with
      | sourceDynamics => simp at hgap
      | sinkPeriod _ _ hnone => exact hnone
    · simp at hresult

theorem WantsPeriod.unknown (h : s.WantsPeriod l p) :
    (s.finalDynamics (taskNode l.sink.task)).bind PortDynamics.minimalPeriod = none := by
  cases h with
  | givenUp he => exact (unknown_of_noSinkPeriod he).2
  | fellBack hd horigin hgap => exact unknown_of_fallback hd horigin hgap

end Synthesis

namespace Network

variable {n : Network} {x root : String} {t u : Task} {period : Duration}

/-- Whether following masters from a task ends at a task that is deployed and has none. -/
inductive LeadsTo (n : Network) : String → String → Prop
  | root {x : String} {t : Task} : n.task? x = some t → t.master = none → LeadsTo n x x
  | slave {x m root : String} {t : Task} : n.task? x = some t → t.master = some m →
      LeadsTo n m root → LeadsTo n x root

theorem LeadsTo.rank (h : n.LeadsTo x root) : ∃ k, n.Rank x k := by
  induction h with
  | root ht hm => exact ⟨0, .root ht hm⟩
  | slave ht hm _ ih =>
    obtain ⟨k, hr⟩ := ih
    exact ⟨k + 1, .slave ht hm hr⟩

theorem root_of_periodWithin : ∀ {hops : Nat} {x : String} {t : Task}, n.task? x = some t →
    n.periodWithin hops t = some period →
      ∃ root u, n.LeadsTo x root ∧ n.task? root = some u ∧ u.activity = .periodic period := by
  intro hops x t ht h
  rw [periodWithin.eq_def] at h
  cases hm : t.master with
  | none =>
    simp only [hm] at h
    exact ⟨x, t, .root ht hm, ht, Task.period_eq_some.mp h⟩
  | some m =>
    cases hops with
    | zero => simp [hm] at h
    | succ hops =>
      simp only [hm] at h
      obtain ⟨v, hv, h⟩ := Option.bind_eq_some_iff.mp h
      obtain ⟨root, u, hroot, hu, ha⟩ := root_of_periodWithin hv h
      exact ⟨root, u, .slave ht hm hroot, hu, ha⟩

theorem LeadsTo.paced {tasks : List String} (hall : tasks.Perm n.taskNames) (h : n.LeadsTo x root)
    (hu : n.task? root = some u) (ha : u.activity = .periodic period) :
    (n.seeded tasks).isFinal (taskNode x) = true ∧
      periodTrigger root period ∈ (n.seeded tasks).triggersOf (taskNode x) := by
  obtain ⟨-, hdescends⟩ := seeded_descends n hall
  induction h with
  | root ht hm =>
    obtain rfl := Option.some.inj (ht.symm.trans hu)
    have hr := Rank.root ht hm
    refine ⟨(stands_of_rank hall ht hr).final none (.periodic ha), ?_⟩
    rw [hdescends.triggers _ _ 0 ht hr]
    exact .inl (.inr ⟨period, ha, rfl⟩)
  | slave ht hm hroot ih =>
    obtain ⟨hfinal, htrigger⟩ := ih hu
    obtain ⟨k, hr⟩ := hroot.rank
    refine ⟨(hdescends.slave _ _ _ ht hm).trans hfinal, ?_⟩
    rw [hdescends.triggers _ _ _ ht (.slave ht hm hr)]
    exact .inr ⟨_, hm, hfinal, htrigger⟩

/-- What it means on a board that a task runs at the period of a root. -/
structure Paces (x root : String) (period : Duration) (b : FlowBoard) : Prop where
  final : b.isFinal (taskNode x) = true
  trigger : periodTrigger root period ∈ b.triggersOf (taskNode x)
  minimal : 0 < period.nanos → ∃ d least, b.info? (taskNode x) = some d ∧
    d.minimalPeriod = some least ∧ least.nanos ≤ period.nanos
  served : 0 < period.nanos → ∀ (s : Synthesis) l p, s.board = b → l.sink.task = x → ¬ s.WantsPeriod l p

theorem paces_of_trigger {b : FlowBoard} (hfinal : b.isFinal (taskNode x) = true)
    (htrigger : periodTrigger root period ∈ b.triggersOf (taskNode x)) : Paces x root period b := by
  obtain ⟨d, hd, hg⟩ := htrigger
  refine ⟨hfinal, ⟨d, hd, hg⟩, fun hpos => ?_, fun hpos s l p hs hl hwants => ?_⟩
  · obtain ⟨least, hleast, hle⟩ := PortDynamics.exists_minimalPeriod hg hpos
    exact ⟨d, least, hd, hleast, hle⟩
  · obtain ⟨least, hleast, -⟩ := PortDynamics.exists_minimalPeriod hg hpos
    have hunknown := hwants.unknown
    rw [hl, Synthesis.finalDynamics_eq_some.mpr ⟨hs ▸ hfinal, hs ▸ hd⟩, Option.bind_some, hleast] at hunknown
    contradiction

theorem LeadsTo.paces {tasks : List String} (hall : tasks.Perm n.taskNames) (h : n.LeadsTo x root)
    (hu : n.task? root = some u) (ha : u.activity = .periodic period) (needs : Dependencies) :
    (∀ run, n.rules.Course ⟨needs, n.seeded tasks⟩ run → Paces x root period run.board) ∧
      ∀ engine, Paces x root period (n.rules.propagate tasks needs engine).2.2.board := by
  obtain ⟨hfinal, htrigger⟩ := h.paced hall hu ha
  have hcourse (run : FlowRun) (hrun : n.rules.Course ⟨needs, n.seeded tasks⟩ run) :
      Paces x root period run.board := by
    have hlater := (hrun.updated n.rules_updates).later
    refine paces_of_trigger (hlater.final _ hfinal) ?_
    rwa [FlowBoard.triggersOf_congr (hlater.frozen _ hfinal)]
  refine ⟨hcourse, fun engine => ?_⟩
  have hend := n.rules.course_settled tasks needs
  rw [seeds_eq] at hend
  exact hcourse _ (.note _ hend)

/-- A task whose masters end at a periodic one runs at that period from seeding on, so that no analysis
ever lacks a period to read the links into it by. -/
theorem rootPeriod_paces (n : Network) {tasks : List String} (hall : tasks.Perm n.taskNames)
    {x : String} {t : Task} {period : Duration} (ht : n.task? x = some t)
    (hperiod : n.rootPeriod t = some period) :
    ∃ root u, n.LeadsTo x root ∧ n.task? root = some u ∧ u.activity = .periodic period ∧
      (∀ needs run, n.rules.Course ⟨needs, n.seeded tasks⟩ run → Paces x root period run.board) ∧
      (∀ needs engine, Paces x root period (n.rules.propagate tasks needs engine).2.2.board) ∧
      (0 < period.nanos → ∀ margin engine,
        (∀ e, (n.analyze margin engine).result = .error (.noSinkPeriod e) → e.task ≠ x) ∧
        ∀ r, (n.analyze margin engine).result = .ok r →
          ∀ w ∈ r.warnings, w.link.sink.task = x → w.gap ≠ .sinkPeriod) := by
  obtain ⟨root, u, hroot, hu, ha⟩ := root_of_periodWithin ht hperiod
  refine ⟨root, u, hroot, hu, ha, fun needs => (hroot.paces hall hu ha needs).1,
    fun needs => (hroot.paces hall hu ha needs).2, fun hpos margin engine => ?_⟩
  have hserved := ((hroot.paces (.refl _) hu ha ∅).2 engine).served hpos (n.synthesis margin engine)
  have hdecides := (n.synthesis margin engine).report_decides (n.propagate engine).1
  rw [result_analyze]
  refine ⟨fun e he hx => ?_, fun r hr w hw hx hgap => ?_⟩
  · obtain ⟨l, p, -, hp, -⟩ := hdecides.failure _ he
    obtain ⟨rfl, -⟩ := Synthesis.unknown_of_noSinkPeriod hp
    exact hserved l p rfl hx (.givenUp hp)
  · obtain ⟨l, p, d, -, hd, horigin⟩ := (hdecides.warning_iff r w hr).mp hw
    obtain rfl := hdecides.named l p d w hd horigin
    exact hserved w.link p rfl hx (.fellBack hd horigin hgap)

theorem tangled_paces : ∃ t root u, tangled.task? "echo" = some t ∧
    tangled.rootPeriod t = some ⟨200000000, by decide⟩ ∧ tangled.LeadsTo "echo" root ∧
    tangled.task? root = some u ∧ u.activity = .periodic ⟨200000000, by decide⟩ ∧
    (∀ needs engine, Paces "echo" root ⟨200000000, by decide⟩
      (tangled.rules.propagate tangled.taskNames.reverse needs engine).2.2.board) ∧
    (∀ margin engine e, (tangled.analyze margin engine).result = .error (.noSinkPeriod e) →
      e.task ≠ "echo") ∧
    (tangled.analyze .standard .fresh).result.toOption.map
      (fun r => r.policy ⟨⟨"clock", "tick"⟩, ⟨"echo", "in"⟩⟩) = some (some (.buffer 4)) := by
  have hlookup : (tangled.task? "echo").bind tangled.rootPeriod = some ⟨200000000, by decide⟩ := by
    decide +kernel
  obtain ⟨t, ht, hperiod⟩ := Option.bind_eq_some_iff.mp hlookup
  obtain ⟨root, u, hroot, hu, ha, -, hend, hserved⟩ :=
    rootPeriod_paces tangled (List.reverse_perm tangled.taskNames) ht hperiod
  exact ⟨t, root, u, ht, hperiod, hroot, hu, ha, hend,
    fun margin engine => (hserved (by decide) margin engine).1, by decide +kernel⟩

end Network

end FlowTiming
