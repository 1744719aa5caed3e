import FlowTiming.Proofs.Dynamics.Counting
import FlowTiming.Proofs.Policy.Provision

/-!
The one computation of an analysis that may have no result: the latency of a task added to its least
period. An analysis stops there just if it comes to such a link before one that it gives up
(`analyze_ends`).
-/

namespace FlowTiming

namespace Duration

/-- A product of a span is only ever cut off. -/
theorem nanos_scaled (period : Duration) (count : Count) :
    (period.scaled count).nanos = min limit (period.nanos * min count.toNat (2 ^ 32 - 1)) := by
  unfold scaled
  cases h : ofNanos? (period.nanos * min count.toNat 4294967295) with
  | none =>
    rw [ofNanos?_eq_none_iff] at h
    exact (Nat.min_eq_left h.le).symm
  | some d =>
    rw [ofNanos?_eq_some_iff] at h
    have hle : d.nanos ≤ limit := d.nanos_le
    rw [Option.getD_some, h]
    exact (Nat.min_eq_right (h ▸ hle)).symm

end Duration

theorem Link.before_or_eq_or_before (a b : Link) : a.Before b ∨ a = b ∨ b.Before a := by
  simp only [before_iff]
  cases h : compare a b with
  | lt => exact .inl rfl
  | eq => exact .inr (.inl (Std.compare_eq_iff_eq.mp h))
  | gt => exact .inr (.inr (Std.OrientedCmp.gt_iff_lt.mp h))

/-- Whether a failure tells what is not known about a link. -/
inductive Failure.TellsGap : Failure → Prop
  | dependencyCycle (output : Endpoint) (cycle : List FlowNode) : TellsGap (.dependencyCycle output cycle)
  | unresolved (output sink : Endpoint) : TellsGap (.unresolved output sink)
  | noSinkPeriod (sink : Endpoint) : TellsGap (.noSinkPeriod sink)

/-- Whether a link is given up: it has to be sized, cannot be, and has no fallback. -/
inductive Network.GivesUp (n : Network) (unresolved : Std.ExtTreeSet FlowNode) (b : FlowBoard) (l : Link)
    (p : LinkPolicy) : Prop
  | intro {sink : Task} {input : InputPort} : p.preset = none → p.fallback = none →
      n.EndsAt l sink input → input.reliable = true → Unsizable unresolved b l input →
      ¬ n.Overruns b l p → GivesUp n unresolved b l p

namespace Synthesis

variable {s : Synthesis} {unresolved : Std.ExtTreeSet FlowNode} {l : Link} {p : LinkPolicy}

theorem gapFailure_tellsGap (s : Synthesis) (l : Link) (gap : Gap) : (s.gapFailure l gap).TellsGap := by
  cases gap with
  | sourceDynamics =>
    rw [gapFailure_sourceDynamics]
    cases s.cycleThrough l.source with
    | none => exact .unresolved _ _
    | some cycle => exact .dependencyCycle _ _
  | sinkPeriod => exact .noSinkPeriod _

variable (h : s.Follows unresolved) (hl : s.network.links.get? l = some p)
include h hl

theorem Follows.policyFor_of_overruns (ho : s.network.Overruns s.board l p) :
    s.policyFor l p = .error .latencyOverflow := by
  obtain ⟨hp, hend, hr, hw, hfinal, hinfo, hperiod, hlimit⟩ := ho
  have hm := (h.model_eq_ok hl).mpr hend
  have hreader := finalDynamics_eq_some.mpr ⟨hfinal, hinfo⟩
  have hsum := Duration.ofNanos?_eq_none_iff.mpr hlimit
  simp only [policyFor, hp, hm, judge, hr, ↓reduceIte, readingLatency, hw, Bool.false_eq_true, hreader,
    Option.bind_some, hperiod, Duration.add?, hsum]

theorem Follows.overflow_iff : s.policyFor l p = .error .latencyOverflow ↔ s.network.Overruns s.board l p := by
  refine ⟨fun he => ?_, h.policyFor_of_overruns hl⟩
  by_contra hno
  obtain ⟨-, -, gap, -, -, -, -, -, hgap⟩ := h.failing hl hno he
  have htells := s.gapFailure_tellsGap l gap
  rw [← hgap] at htells
  cases htells

theorem Follows.givesUp_iff : (∃ e, s.policyFor l p = .error e ∧ e.TellsGap) ↔
    s.network.GivesUp unresolved s.board l p := by
  constructor
  · rintro ⟨e, he, htells⟩
    have hno : ¬ s.network.Overruns s.board l p := by
      intro ho
      obtain rfl := Except.error.inj (he.symm.trans (h.policyFor_of_overruns hl ho))
      cases htells
    obtain ⟨sink, input, gap, hp, hfall, hend, hr, hgap, -⟩ := h.failing hl hno he
    exact ⟨hp, hfall, hend, hr, (h.lacks_iff hl hend).mp ⟨gap, hgap⟩, hno⟩
  · rintro ⟨hp, hfall, hend, hr, hx, hno⟩
    rcases h.policyFor_reliable hl hend hp hr hno with ⟨gap, -, heq⟩ | ⟨hsizable, -⟩
    · rw [fallBack, hfall] at heq
      exact ⟨_, heq, s.gapFailure_tellsGap l gap⟩
    · exact absurd hx hsizable

theorem Follows.failure_cases {e : Failure} (he : s.policyFor l p = .error e) :
    e = .latencyOverflow ∨ e.TellsGap := by
  by_cases ho : s.network.Overruns s.board l p
  · exact .inl (Except.error.inj (he.symm.trans (h.policyFor_of_overruns hl ho)))
  · obtain ⟨-, -, gap, -, -, -, -, -, rfl⟩ := h.failing hl ho he
    exact .inr (s.gapFailure_tellsGap l gap)

omit hl

theorem Follows.decisions_overflow_iff : s.decisions = .error .latencyOverflow ↔
    ∃ l p, s.network.links.get? l = some p ∧ s.network.Overruns s.board l p ∧
      ∀ l' p', s.network.links.get? l' = some p' → l'.Before l →
        ¬ s.network.GivesUp unresolved s.board l' p' := by
  constructor
  · intro hds
    obtain ⟨l, p, hl, he, hbefore⟩ := failing_of_decisions hds
    refine ⟨l, p, hl, (h.overflow_iff hl).mp he, fun l' p' hl' hlt hgives => ?_⟩
    obtain ⟨d, hd⟩ := hbefore l' p' hl' hlt
    obtain ⟨e, he', -⟩ := (h.givesUp_iff hl').mpr hgives
    rw [hd] at he'
    contradiction
  · rintro ⟨l, p, hl, ho, hbefore⟩
    have hover := h.policyFor_of_overruns hl ho
    cases hds : s.decisions with
    | ok ds =>
      obtain ⟨d, hd⟩ := decided hds hl
      rw [hover] at hd
      contradiction
    | error e =>
      obtain ⟨first, q, hfirst, he, hpast⟩ := failing_of_decisions hds
      -- the first link that fails is this one or stands before it, and is not given up
      rcases first.before_or_eq_or_before l with hlt | rfl | hlt
      · rcases h.failure_cases hfirst he with rfl | htells
        · rfl
        · exact absurd ((h.givesUp_iff hfirst).mp ⟨e, he, htells⟩) (hbefore first q hfirst hlt)
      · obtain rfl := Option.some.inj (hfirst.symm.trans hl)
        obtain rfl := Except.error.inj (he.symm.trans hover)
        rfl
      · obtain ⟨d, hd⟩ := hpast l p hl hlt
        rw [hover] at hd
        contradiction

end Synthesis

namespace Network

/-- How an analysis ends, given what its propagation left unresolved and found out: its arithmetic has
results, apart from the latency of a reader. -/
structure Ends (n : Network) (s : Synthesis) (unresolved : Std.ExtTreeSet FlowNode) (b : FlowBoard)
    (result : Except Failure Report) : Prop where
  overflows_iff : result = .error .latencyOverflow ↔ ∃ l p, n.links.get? l = some p ∧ n.Overruns b l p ∧
    ∀ l' p', n.links.get? l' = some p' → l'.Before l → ¬ n.GivesUp unresolved b l' p'
  givesUp_iff : ∀ l p, n.links.get? l = some p →
    ((∃ e, s.policyFor l p = .error e ∧ e.TellsGap) ↔ n.GivesUp unresolved b l p)
  otherwise : result ≠ .error .latencyOverflow →
    (∃ r, result = .ok r) ∨ ∃ e, result = .error e ∧ e.TellsGap
  counted : ∀ (d : PortDynamics) (span : Duration), d.sampleCount? span = some (d.sampleCount span)
  scaled : ∀ (period : Duration) (count : Count),
    (period.scaled count).nanos = min Duration.limit (period.nanos * min count.toNat (2 ^ 32 - 1))

theorem analyze_ends (f : ValidFile) {n : Network} (h : f.file.build = .ok n) (margin : Margin)
    (engine : FlowEngine) :
    let ended := n.propagate engine
    n.Ends (n.synthesis margin engine) ended.1.unresolved ended.2.2.board
      (n.analyze margin engine).result := by
  intro ended
  have hfollows := synthesis_follows (NetworkFile.build_wellFormed f.checked h) margin engine
  rw [result_analyze]
  constructor
  case overflows_iff =>
    rw [map_eq_error]
    exact hfollows.decisions_overflow_iff
  case givesUp_iff => exact fun l p hl => hfollows.givesUp_iff hl
  case otherwise =>
    intro hno
    cases hds : (n.synthesis margin engine).decisions with
    | ok ds => exact .inl ⟨_, rfl⟩
    | error e =>
      obtain ⟨l, p, hl, he, -⟩ := Synthesis.failing_of_decisions hds
      rw [hds] at hno
      rcases hfollows.failure_cases hl he with rfl | htells
      · exact absurd rfl hno
      · exact .inr ⟨e, rfl, htells⟩
  case counted => exact PortDynamics.sampleCount?_eq
  case scaled => exact Duration.nanos_scaled

/-- A task that runs once in 2^63 seconds and takes as long to be done reads an output that nothing is
known of. -/
def overlong : ValidFile where
  file :=
    { tasks := ((∅ : Std.ExtTreeMap String TaskSection).insert "reader"
        { activity := .periodic, period := some (.signed false ⟨4890909195324358656, by decide⟩),
          latency := .signed false ⟨4890909195324358656, by decide⟩,
          inputs := (∅ : Std.ExtTreeMap String InputPort).insert "in"
            { wakes := false, reliable := true } }).insert "source"
        { inputs := (∅ : Std.ExtTreeMap String InputPort).insert "back" {},
          outputs := (∅ : Std.ExtTreeMap String OutputSection).insert "out" {} }
      connections := [⟨"source.out", "source.back", {}⟩,
        ⟨"source.out", "reader.in", { fallback := some .passThrough }⟩] }
  checked := by decide +kernel

theorem overlong_ends : ∃ n, overlong.file.build = .ok n ∧
    (n.analyze .standard .fresh).result = .error .latencyOverflow ∧
    ∃ l p, n.links.get? l = some p ∧ n.Overruns (n.propagate .fresh).2.2.board l p := by
  have hbuild : (overlong.file.build.map fun n => (n.analyze .standard .fresh).result.map fun _ => ()) =
      .ok (.error .latencyOverflow) := by
    decide +kernel
  obtain ⟨n, h, hn⟩ := map_eq_ok.mp hbuild
  have hresult := map_eq_error.mp hn
  obtain ⟨l, p, hl, ho, -⟩ := (analyze_ends overlong h .standard .fresh).overflows_iff.mp hresult
  exact ⟨n, h, hresult, l, p, hl, ho⟩

end Network

end FlowTiming
