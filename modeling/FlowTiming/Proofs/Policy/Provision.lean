import FlowTiming.Proofs.Flow.FinalTriggers
import FlowTiming.Proofs.Policy.Decisions

/-!
When an analysis fails, and which policy every link has where it does not.
-/

namespace FlowTiming

open Board

namespace Network

def synthesis (n : Network) (margin : Margin) (engine : FlowEngine) : Synthesis :=
  let ended := n.propagate engine
  ⟨n, ended.2.2.board, n.reportedCycles ended.1 ended.2.2.board ended.2.1, margin⟩

theorem result_analyze (n : Network) (margin : Margin) (engine : FlowEngine) :
    (n.analyze margin engine).result = (n.synthesis margin engine).decisions.map
      (report (n.propagate engine).1 (n.propagate engine).2.2.board
        (n.synthesis margin engine).cycles) := by
  unfold analyze
  simp only
  split
  case h_1 e he =>
    change (n.synthesis margin engine).decisions = .error e at he
    rw [he]
    rfl
  case h_2 ds hds =>
    change (n.synthesis margin engine).decisions = .ok ds at hds
    rw [hds]
    rfl

def EndsAt (n : Network) (l : Link) (sink : Task) (input : InputPort) : Prop :=
  n.task? l.sink.task = some sink ∧ sink.inputs[l.sink.port]? = some input

/-- Whether a link to an input cannot be sized: its output is unresolved, or the input does not wake
its task, and the task is unresolved or nothing triggers it at a known rate. -/
inductive Unsizable (unresolved : Std.ExtTreeSet FlowNode) (b : FlowBoard) (l : Link)
    (input : InputPort) : Prop
  | source : l.source.node ∈ unresolved → Unsizable unresolved b l input
  | sink : input.wakes = false → taskNode l.sink.task ∈ unresolved → Unsizable unresolved b l input
  | rate : input.wakes = false → (∀ g ∈ b.triggersOf (taskNode l.sink.task), g.period.nanos = 0) →
      Unsizable unresolved b l input

/-- Whether the latency of every task that a link ends at can be added to its least period. -/
def LatenciesFit (n : Network) (b : FlowBoard) : Prop :=
  ∀ e ∈ n.links.toList, ∀ t ∈ n.task? e.1.sink.task, b.isFinal (taskNode e.1.sink.task) = true →
    ∀ d ∈ b.info? (taskNode e.1.sink.task), ∀ period ∈ d.minimalPeriod,
      period.nanos + t.latency.nanos ≤ Duration.limit

instance (n : Network) (b : FlowBoard) : Decidable (n.LatenciesFit b) :=
  inferInstanceAs (Decidable (∀ e ∈ n.links.toList, _))

/-- Whether a link that has to be sized ends at an input that does not wake its task, while the latency of
the task cannot be added to its least period. -/
inductive Overruns (n : Network) (b : FlowBoard) (l : Link) (p : LinkPolicy) : Prop
  | intro {sink : Task} {input : InputPort} {d : PortDynamics} {period : Duration} : p.preset = none →
      n.EndsAt l sink input → input.reliable = true → input.wakes = false →
      b.isFinal (taskNode l.sink.task) = true → b.info? (taskNode l.sink.task) = some d →
      d.minimalPeriod = some period → Duration.limit < period.nanos + sink.latency.nanos →
      Overruns n b l p

theorem LatenciesFit.not_overruns {n : Network} {b : FlowBoard} {l : Link} {p : LinkPolicy}
    (h : n.LatenciesFit b) (hl : n.links.get? l = some p) : ¬ n.Overruns b l p := by
  rintro ⟨-, hend, -, -, hfinal, hinfo, hperiod, hlimit⟩
  have hle := h (l, p) (mem_toList_iff.mpr hl) _ hend.1 hfinal _ hinfo _ hperiod
  omega

/-- How an analysis comes out, given what a propagation left unresolved and what it found out. -/
structure Provides (n : Network) (margin : Margin) (unresolved : Std.ExtTreeSet FlowNode)
    (b : FlowBoard) (result : Except Failure Report) : Prop where
  fails_iff : (∃ e, result = .error e) ↔ ∃ l p sink input, n.links.get? l = some p ∧
    p.preset = none ∧ p.fallback = none ∧ n.EndsAt l sink input ∧ input.reliable = true ∧
      Unsizable unresolved b l input
  failure : ∀ e, result = .error e → (∃ output cycle, e = .dependencyCycle output cycle) ∨
    (∃ output sink, e = .unresolved output sink) ∨ ∃ sink, e = .noSinkPeriod sink
  preset : ∀ r l p policy, result = .ok r → n.links.get? l = some p → p.preset = some policy →
    r.policy l = some policy
  unreliable : ∀ r l p sink input, result = .ok r → n.links.get? l = some p → p.preset = none →
    n.EndsAt l sink input → input.reliable = false → r.policy l = some input.kind.policy
  fallback : ∀ r l p sink input, result = .ok r → n.links.get? l = some p → p.preset = none →
    n.EndsAt l sink input → input.reliable = true → Unsizable unresolved b l input →
      ∃ policy, p.fallback = some policy ∧ r.policy l = some policy
  sized : ∀ r l p sink input, result = .ok r → n.links.get? l = some p → p.preset = none →
    n.EndsAt l sink input → input.reliable = true → ¬ Unsizable unresolved b l input →
      ∃ d latency, b.isFinal l.source.node = true ∧ b.info? l.source.node = some d ∧
        b.ReadAfter l sink input latency ∧
          r.policy l = some (.buffer (margin.bufferSize (d.queueSize latency)))

end Network

namespace Synthesis

/-- Whether the board is that of a propagation that left these nodes unresolved. -/
structure Follows (s : Synthesis) (unresolved : Std.ExtTreeSet FlowNode) : Prop where
  network : s.network.WellFormed
  unresolved : ∀ x, x ∈ unresolved ↔ s.network.IsRequired x ∧ s.board.isFinal x = false
  known : ∀ x, s.network.IsRequired x → ∃ d, s.board.info? x = some d

section Follows

variable {s : Synthesis} {unresolved : Std.ExtTreeSet FlowNode} {l : Link} {p : LinkPolicy}
  {sink : Task} {input : InputPort} {x : FlowNode}

theorem policyFor_preset {policy : Policy} (hp : p.preset = some policy) :
    s.policyFor l p = .ok ⟨policy, .preset⟩ := by
  rw [policyFor, hp]

variable (h : s.Follows unresolved)
include h

theorem Follows.finalDynamics_eq_none (hx : s.network.IsRequired x) :
    s.finalDynamics x = none ↔ x ∈ unresolved := by
  obtain ⟨d, hd⟩ := h.known x hx
  rw [h.unresolved, finalDynamics]
  cases hf : s.board.isFinal x <;> simp [hx, hd]

variable (hl : s.network.links.get? l = some p)
include hl

theorem Follows.required_source : s.network.IsRequired l.source.node := by
  obtain ⟨t, ht, hport⟩ := h.network.sources l (mem_of_getElem? hl)
  exact Network.required_output ht hport

theorem Follows.exists_end : ∃ sink input, s.network.EndsAt l sink input := by
  obtain ⟨sink, hsink, hport⟩ := h.network.sinks l (mem_of_getElem? hl)
  obtain ⟨input, hinput⟩ := mem_iff_getElem?.mp hport
  exact ⟨sink, input, hsink, hinput⟩

theorem Follows.model_eq_ok : s.model l = .ok (sink, input) ↔ s.network.EndsAt l sink input := by
  rw [Synthesis.model_eq_ok]
  exact and_iff_right (h.network.sources l (mem_of_getElem? hl))

variable (hend : s.network.EndsAt l sink input)
include hend

theorem Follows.unique_end {sink' : Task} {input' : InputPort} (hm : s.model l = .ok (sink', input')) :
    sink' = sink ∧ input' = input := by
  have hm' := (h.model_eq_ok hl).mpr hend
  exact Prod.mk.inj (Except.ok.inj (hm.symm.trans hm'))

theorem Follows.lacks_iff : (∃ gap, s.Lacks l input gap) ↔ Network.Unsizable unresolved s.board l input := by
  have hsource := h.finalDynamics_eq_none (h.required_source hl)
  have hsink := h.finalDynamics_eq_none (Network.required_task hend.1)
  constructor
  · rintro ⟨gap, hgap⟩
    cases hgap with
    | sourceDynamics hnone => exact .source (hsource.mp hnone)
    | sinkPeriod _ hw hnone =>
      cases hd : s.finalDynamics (taskNode l.sink.task) with
      | none => exact .sink hw (hsink.mp hd)
      | some d =>
        rw [hd, Option.bind_some, PortDynamics.minimalPeriod_eq_none_iff] at hnone
        refine .rate hw fun g hg => hnone g ?_
        exact (FlowBoard.mem_triggersOf (finalDynamics_eq_some.mp hd).2 g).mp hg
  · intro hx
    cases hd : s.finalDynamics l.source.node with
    | none => exact ⟨_, .sourceDynamics hd⟩
    | some d =>
      cases hx with
      | source hmem => simp [hsource.mpr hmem] at hd
      | sink hw hmem => exact ⟨_, .sinkPeriod hd hw (by rw [hsink.mpr hmem]; rfl)⟩
      | rate hw hall =>
        refine ⟨_, .sinkPeriod hd hw (Option.bind_eq_none_iff.mpr fun i hi => ?_)⟩
        rw [PortDynamics.minimalPeriod_eq_none_iff]
        intro g hg
        exact hall g ((FlowBoard.mem_triggersOf (finalDynamics_eq_some.mp hi).2 g).mpr hg)

variable (hp : p.preset = none)
include hp

theorem Follows.policyFor_unreliable (hr : input.reliable = false) :
    s.policyFor l p = .ok ⟨input.kind.policy, .unreliable⟩ := by
  simp only [policyFor, hp, (h.model_eq_ok hl).mpr hend, judge, hr, Bool.false_eq_true, ↓reduceIte]

theorem Follows.policyFor_reliable (hr : input.reliable = true) (hfits : ¬ s.network.Overruns s.board l p) :
    (∃ gap, s.Lacks l input gap ∧ s.policyFor l p = s.fallBack l p gap) ∨
      ¬ Network.Unsizable unresolved s.board l input ∧ ∃ d latency, s.finalDynamics l.source.node = some d ∧
        s.board.ReadAfter l sink input latency ∧ s.policyFor l p = .ok (s.sized d latency) := by
  have hj := judged s l p
  generalize s.policyFor l p = result at hj
  cases hj with
  | preset hp' => simp [hp] at hp'
  | unmodelled _ hm => simp [(h.model_eq_ok hl).mpr hend] at hm
  | unreliable _ hm hr' =>
    obtain ⟨rfl, rfl⟩ := h.unique_end hl hend hm
    simp [hr] at hr'
  | overflow _ hm _ hw hd hperiod hlimit =>
    obtain ⟨rfl, rfl⟩ := h.unique_end hl hend hm
    obtain ⟨hfinal, hinfo⟩ := finalDynamics_eq_some.mp hd
    exact absurd (.intro hp hend hr hw hfinal hinfo hperiod hlimit) hfits
  | lacking _ hm _ hgap =>
    obtain ⟨rfl, rfl⟩ := h.unique_end hl hend hm
    exact .inl ⟨_, hgap, rfl⟩
  | sized _ hm _ hd hread =>
    obtain ⟨rfl, rfl⟩ := h.unique_end hl hend hm
    -- what is known of the source and of the reader leaves no gap
    refine .inr ⟨fun hx => ?_, _, _, hd, hread, rfl⟩
    obtain ⟨gap, hgap⟩ := (h.lacks_iff hl hend).mpr hx
    cases hgap with
    | sourceDynamics hnone => simp [hd] at hnone
    | sinkPeriod _ hw hnone =>
      cases hread with
      | waking hw' => simp [hw] at hw'
      | sampling _ hfinal hinfo hperiod =>
        rw [finalDynamics_eq_some.mpr ⟨hfinal, hinfo⟩, Option.bind_some, hperiod] at hnone
        contradiction

omit hend hp

theorem Follows.failing (hfits : ¬ s.network.Overruns s.board l p) {e : Failure}
    (he : s.policyFor l p = .error e) : ∃ sink input gap, p.preset = none ∧ p.fallback = none ∧
      s.network.EndsAt l sink input ∧ input.reliable = true ∧ s.Lacks l input gap ∧
        e = s.gapFailure l gap := by
  obtain ⟨sink, input, hend⟩ := h.exists_end hl
  cases hp : p.preset with
  | some policy => simp [policyFor_preset hp] at he
  | none =>
    cases hr : input.reliable with
    | false => simp [h.policyFor_unreliable hl hend hp hr] at he
    | true =>
      rcases h.policyFor_reliable hl hend hp hr hfits with ⟨gap, hgap, heq⟩ | ⟨-, d, latency, -, -, heq⟩
      · rw [heq, fallBack] at he
        cases hfall : p.fallback with
        | some policy => simp [hfall] at he
        | none =>
          rw [hfall] at he
          exact ⟨sink, input, gap, rfl, rfl, hend, hr, hgap, (Except.error.inj he).symm⟩
      · simp [heq] at he

omit hl

theorem Follows.fails_iff (hfits : s.network.LatenciesFit s.board) : (∃ e, s.decisions = .error e) ↔
    ∃ l p sink input, s.network.links.get? l = some p ∧ p.preset = none ∧ p.fallback = none ∧
      s.network.EndsAt l sink input ∧ input.reliable = true ∧
        Network.Unsizable unresolved s.board l input := by
  constructor
  · rintro ⟨e, he⟩
    obtain ⟨l, p, hl, he, -⟩ := failing_of_decisions he
    obtain ⟨sink, input, gap, hp, hfall, hend, hr, hgap, -⟩ := h.failing hl (hfits.not_overruns hl) he
    exact ⟨l, p, sink, input, hl, hp, hfall, hend, hr, (h.lacks_iff hl hend).mp ⟨gap, hgap⟩⟩
  · rintro ⟨l, p, sink, input, hl, hp, hfall, hend, hr, hx⟩
    cases hds : s.decisions with
    | error e => exact ⟨e, rfl⟩
    | ok ds =>
      obtain ⟨d, hd⟩ := decided hds hl
      rcases h.policyFor_reliable hl hend hp hr (hfits.not_overruns hl) with ⟨gap, -, heq⟩ | ⟨hno, -⟩
      · rw [hd, fallBack, hfall] at heq
        contradiction
      · exact absurd hx hno

theorem Follows.provides (hfits : s.network.LatenciesFit s.board) (outcome : Outcome String String) :
    s.network.Provides s.margin unresolved s.board
      (s.decisions.map (Network.report outcome s.board s.cycles)) where
  fails_iff := by
    simp only [map_eq_error]
    exact h.fails_iff hfits
  failure e he := by
    obtain ⟨l, p, hl, he, -⟩ := failing_of_decisions (map_eq_error.mp he)
    obtain ⟨-, -, gap, -, -, -, -, -, rfl⟩ := h.failing hl (hfits.not_overruns hl) he
    cases gap with
    | sinkPeriod => exact .inr (.inr ⟨_, rfl⟩)
    | sourceDynamics =>
      rw [gapFailure_sourceDynamics]
      cases s.cycleThrough l.source with
      | some cycle => exact .inl ⟨_, _, rfl⟩
      | none => exact .inr (.inl ⟨_, _, rfl⟩)
  preset r l p chosen hr hl hp := policy_report hr hl (policyFor_preset hp)
  unreliable r l p sink input hr hl hp hend hrel :=
    policy_report hr hl (h.policyFor_unreliable hl hend hp hrel)
  fallback r l p sink input hr hl hp hend hrel hx := by
    rcases h.policyFor_reliable hl hend hp hrel (hfits.not_overruns hl) with ⟨gap, -, heq⟩ | ⟨hno, -⟩
    · cases hfall : p.fallback with
      | some chosen =>
        rw [fallBack, hfall] at heq
        exact ⟨chosen, rfl, policy_report hr hl heq⟩
      | none =>
        obtain ⟨ds, hds, -⟩ := map_eq_ok.mp hr
        obtain ⟨d, hd⟩ := decided hds hl
        rw [hd, fallBack, hfall] at heq
        contradiction
    · exact absurd hx hno
  sized r l p sink input hr hl hp hend hrel hno := by
    rcases h.policyFor_reliable hl hend hp hrel (hfits.not_overruns hl) with
      ⟨gap, hgap, -⟩ | ⟨-, d, latency, hd, hread, heq⟩
    · exact absurd ((h.lacks_iff hl hend).mp ⟨gap, hgap⟩) hno
    · obtain ⟨hfinal, hinfo⟩ := finalDynamics_eq_some.mp hd
      exact ⟨d, latency, hfinal, hinfo, hread, policy_report hr hl heq⟩

end Follows

end Synthesis

namespace Network

theorem synthesis_follows {n : Network} (hn : n.WellFormed) (margin : Margin) (engine : FlowEngine) :
    (n.synthesis margin engine).Follows (n.propagate engine).1.unresolved where
  network := hn
  unresolved _ := mem_unresolved hn (.refl _) engine
  known x hx := by
    obtain ⟨-, d, -, hd, -⟩ :=
      known_of_required hn (.refl _) (unfolds_ended hn (.refl _) engine ∅) hx
    exact ⟨d, hd⟩

/-- An analysis fails just if a link that has to be sized cannot be and has no fallback. Otherwise every
link has the policy chosen for it, what its input asks for, its fallback or a buffer. -/
theorem analyze_provides (f : ValidFile) {n : Network} (h : f.file.build = .ok n) (margin : Margin)
    (engine : FlowEngine) (hfits : n.LatenciesFit (n.propagate engine).2.2.board) :
    let ended := n.propagate engine
    n.Provides margin ended.1.unresolved ended.2.2.board (n.analyze margin engine).result := by
  intro ended
  rw [result_analyze]
  exact (synthesis_follows (NetworkFile.build_wellFormed f.checked h) margin engine).provides hfits _

/-- A sensor that writes ten times a second, and a task that looks at its samples every half second. -/
def polled : ValidFile where
  file :=
    { tasks := ((∅ : Std.ExtTreeMap String TaskSection).insert "reader"
        { activity := .periodic, period := some (.signed false ⟨4602678819172646912, by decide⟩),
          inputs := (∅ : Std.ExtTreeMap String InputPort).insert "in"
            { wakes := false, reliable := true } }).insert "sensor"
        { activity := .periodic, period := some Margin.standardRatio,
          outputs := (∅ : Std.ExtTreeMap String OutputSection).insert "out" {} }
      connections := [⟨"sensor.out", "reader.in", {}⟩] }
  checked := by decide +kernel

theorem polled_provides : ∃ n, polled.file.build = .ok n ∧
    n.LatenciesFit (n.propagate .fresh).2.2.board ∧
      n.Provides .standard (n.propagate .fresh).1.unresolved (n.propagate .fresh).2.2.board
        (n.analyze .standard .fresh).result ∧
      (n.analyze .standard .fresh).result.toOption.bind
        (·.policy ⟨⟨"sensor", "out"⟩, ⟨"reader", "in"⟩⟩) = some (.buffer 8) := by
  have hbuild : (polled.file.build.map fun n => (decide (n.LatenciesFit (n.propagate .fresh).2.2.board),
      (n.analyze .standard .fresh).result.toOption.bind
        (·.policy ⟨⟨"sensor", "out"⟩, ⟨"reader", "in"⟩⟩))) = .ok (true, some (.buffer 8)) := by
    decide +kernel
  obtain ⟨n, h, hn⟩ := map_eq_ok.mp hbuild
  obtain ⟨hfits, hpolicy⟩ := Prod.mk.inj hn
  have hfits := of_decide_eq_true hfits
  exact ⟨n, h, hfits, analyze_provides polled h .standard .fresh hfits, hpolicy⟩

end Network

end FlowTiming
