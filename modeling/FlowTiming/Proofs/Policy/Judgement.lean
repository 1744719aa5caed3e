import FlowTiming.Proofs.Collections
import FlowTiming.Proofs.Fallible
import FlowTiming.Report

/-!
All that can come of a single link (`judged`).
-/

namespace FlowTiming

theorem PortDynamics.minimalPeriod_eq_none_iff {d : PortDynamics} :
    d.minimalPeriod = none ↔ ∀ g ∈ d.triggers, g.period.nanos = 0 := by
  unfold minimalPeriod
  simp only [List.min?_eq_none_iff, List.filter_eq_nil_iff, List.forall_mem_map,
    Std.ExtTreeSet.mem_toList, decide_eq_true_eq, Decidable.not_not]

/-- Whether samples wait for so long at most before an input of a task. An input that wakes its task
is read after the latency of the task, any other one a period later. -/
inductive FlowBoard.ReadAfter (b : FlowBoard) (l : Link) (sink : Task) (input : InputPort) : Duration → Prop
  | waking : input.wakes = true → ReadAfter b l sink input sink.latency
  | sampling {d : PortDynamics} {period latency : Duration} : input.wakes = false →
      b.isFinal (taskNode l.sink.task) = true → b.info? (taskNode l.sink.task) = some d →
      d.minimalPeriod = some period → latency.nanos = period.nanos + sink.latency.nanos →
      ReadAfter b l sink input latency

namespace Synthesis

variable {s : Synthesis} {l : Link} {p : LinkPolicy} {sink : Task} {input : InputPort}

theorem finalDynamics_eq_some {x : FlowNode} {d : PortDynamics} :
    s.finalDynamics x = some d ↔ s.board.isFinal x = true ∧ s.board.info? x = some d := by
  unfold finalDynamics
  split <;> simp_all

theorem model_eq_ok : s.model l = .ok (sink, input) ↔
    (∃ t, s.network.task? l.source.task = some t ∧ l.source.port ∈ t.outputs) ∧
      s.network.task? l.sink.task = some sink ∧ sink.inputs[l.sink.port]? = some input := by
  unfold model
  split
  case h_1 h => simp [h]
  case h_2 h => simp [h]
  case h_3 t u ht hu =>
    simp only [ht, hu, Option.some.injEq, exists_eq_left']
    split
    case isTrue hout =>
      rw [Std.ExtTreeMap.contains_iff_mem] at hout
      split
      case h_1 i hi =>
        simp only [Except.ok.injEq, Prod.mk.injEq, hout, true_and]
        constructor
        · rintro ⟨rfl, rfl⟩
          exact ⟨rfl, hi⟩
        · rintro ⟨rfl, hi'⟩
          exact ⟨rfl, Option.some.inj (hi.symm.trans hi')⟩
      case h_2 hnone =>
        simp only [reduceCtorEq, false_iff, not_and]
        rintro - rfl
        simp [hnone]
    case isFalse hout =>
      rw [Std.ExtTreeMap.contains_iff_mem] at hout
      simp [hout]

/-- What is not known that it takes to size a link. -/
inductive Lacks (s : Synthesis) (l : Link) (input : InputPort) : Gap → Prop
  | sourceDynamics : s.finalDynamics l.source.node = none → Lacks s l input .sourceDynamics
  | sinkPeriod {d : PortDynamics} : s.finalDynamics l.source.node = some d → input.wakes = false →
      (s.finalDynamics (taskNode l.sink.task)).bind PortDynamics.minimalPeriod = none →
      Lacks s l input .sinkPeriod

inductive Judged (s : Synthesis) (l : Link) (p : LinkPolicy) : Except Failure Decision → Prop
  | preset {policy : Policy} : p.preset = some policy → Judged s l p (.ok ⟨policy, .preset⟩)
  | unmodelled {fault : ModelFault} : p.preset = none → s.model l = .error fault →
      Judged s l p (.error (.badModel fault))
  | unreliable {sink : Task} {input : InputPort} : p.preset = none →
      s.model l = .ok (sink, input) → input.reliable = false →
      Judged s l p (.ok ⟨input.kind.policy, .unreliable⟩)
  | overflow {sink : Task} {input : InputPort} {d : PortDynamics} {period : Duration} :
      p.preset = none → s.model l = .ok (sink, input) → input.reliable = true →
      input.wakes = false → s.finalDynamics (taskNode l.sink.task) = some d →
      d.minimalPeriod = some period → Duration.limit < period.nanos + sink.latency.nanos →
      Judged s l p (.error .latencyOverflow)
  | lacking {sink : Task} {input : InputPort} {gap : Gap} : p.preset = none →
      s.model l = .ok (sink, input) → input.reliable = true → s.Lacks l input gap →
      Judged s l p (s.fallBack l p gap)
  | sized {sink : Task} {input : InputPort} {d : PortDynamics} {latency : Duration} :
      p.preset = none → s.model l = .ok (sink, input) → input.reliable = true →
      s.finalDynamics l.source.node = some d → s.board.ReadAfter l sink input latency →
      Judged s l p (.ok (s.sized d latency))

inductive Read (s : Synthesis) (l : Link) (sink : Task) (input : InputPort) :
    Except Failure (Option Duration) → Prop
  | known {latency : Duration} : s.board.ReadAfter l sink input latency →
      Read s l sink input (.ok (some latency))
  | unknown : input.wakes = false →
      (s.finalDynamics (taskNode l.sink.task)).bind PortDynamics.minimalPeriod = none →
      Read s l sink input (.ok none)
  | overflow {d : PortDynamics} {period : Duration} : input.wakes = false →
      s.finalDynamics (taskNode l.sink.task) = some d → d.minimalPeriod = some period →
      Duration.limit < period.nanos + sink.latency.nanos →
      Read s l sink input (.error .latencyOverflow)

theorem read_readingLatency (s : Synthesis) (l : Link) (sink : Task) (input : InputPort) :
    s.Read l sink input (s.readingLatency l sink input) := by
  unfold readingLatency
  split
  case isTrue hw => exact .known (.waking hw)
  case isFalse hw =>
    rw [Bool.not_eq_true] at hw
    split
    case h_1 hnone => exact .unknown hw hnone
    case h_2 period hperiod =>
      obtain ⟨d, hd, hperiod⟩ := Option.bind_eq_some_iff.mp hperiod
      unfold Duration.add?
      split
      case h_1 latency hsum =>
        obtain ⟨hfinal, hinfo⟩ := finalDynamics_eq_some.mp hd
        exact .known (.sampling hw hfinal hinfo hperiod (Duration.ofNanos?_eq_some_iff.mp hsum))
      case h_2 hsum => exact .overflow hw hd hperiod (Duration.ofNanos?_eq_none_iff.mp hsum)

theorem judged (s : Synthesis) (l : Link) (p : LinkPolicy) : s.Judged l p (s.policyFor l p) := by
  unfold policyFor
  split
  case h_1 policy hp => exact .preset hp
  case h_2 hp =>
    split
    case h_1 fault hm => exact .unmodelled hp hm
    case h_2 sink input hm =>
      unfold judge
      split
      case isFalse hr => exact .unreliable hp hm (by simpa using hr)
      case isTrue hr =>
        have hreading := read_readingLatency s l sink input
        generalize s.readingLatency l sink input = reading at hreading
        cases hreading with
        | overflow hw hd hperiod hlimit => exact .overflow hp hm hr hw hd hperiod hlimit
        | known hread =>
          cases hd : s.finalDynamics l.source.node with
          | none => exact .lacking hp hm hr (.sourceDynamics hd)
          | some d => exact .sized hp hm hr hd hread
        | unknown hw hnone =>
          cases hd : s.finalDynamics l.source.node with
          | none => exact .lacking hp hm hr (.sourceDynamics hd)
          | some d => exact .lacking hp hm hr (.sinkPeriod hd hw hnone)

theorem gapFailure_sourceDynamics (s : Synthesis) (l : Link) : s.gapFailure l .sourceDynamics =
    (s.cycleThrough l.source).elim (.unresolved l.source l.sink) (.dependencyCycle l.source) := by
  unfold gapFailure
  simp only
  cases s.cycleThrough l.source <;> rfl

end Synthesis

end FlowTiming
