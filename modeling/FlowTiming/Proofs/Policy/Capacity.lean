import FlowTiming.Proofs.Dynamics.Arrivals
import FlowTiming.Proofs.Policy.Provision

/-!
Whether a buffer holds all that arrives before it is read. What may come on top of the samples counted
is one firing of every trigger whose periods do not fill the span, while a queue has room for one
sample more. What the margin adds need not make up for the rest.
-/

namespace FlowTiming

theorem Margin.le_bufferSize (m : Margin) (queue : Count) :
    min (queue.toNat + 1) Count.limit ≤ (m.bufferSize queue).toNat := by
  unfold bufferSize
  simp only [Count.toNat_add, Count.toNat_max, Count.toNat_one]
  omega

namespace PortDynamics

variable {d : PortDynamics} {size : Count} {span : Duration}

def IsPhase (d : PortDynamics) (phase : Trigger → ℝ) : Prop :=
  ∀ t ∈ d.triggers, t.isBurst = false → 0 ≤ phase t ∧ phase t < t.period.nanos

/-- Whether so many slots hold the data samples of a span, whenever it starts and whatever the phases. -/
def Fits (d : PortDynamics) (size : Count) (span : Duration) : Prop :=
  ∀ phase, d.IsPhase phase → ∀ start,
    min Count.limit (d.sampleSize.toNat * d.arrivals phase start span) ≤ size.toNat

theorem isPhase_zero : d.IsPhase 0 := fun t _ hburst =>
  ⟨le_refl _, Nat.cast_pos.mpr (t.isBurst_eq_false.mp hburst)⟩

theorem fits_iff : d.Fits size span ↔ min Count.limit
    (d.sampleSize.toNat * (d.total (·.counted span) + d.uncounted span)) ≤ size.toNat := by
  constructor
  · intro h
    have hzero := h 0 isPhase_zero 0
    rwa [arrivals_zero] at hzero
  · intro h phase _ start
    have harrive := Nat.mul_le_mul_left d.sampleSize.toNat (d.arrivals_le phase start span)
    omega

end PortDynamics

namespace Synthesis

variable {s : Synthesis} {l : Link} {p : LinkPolicy} {size queue : Count} {latency : Duration}

theorem sized_of_policyFor {d : Decision} (h : s.policyFor l p = .ok d)
    (hd : d.origin = .computed latency queue) : ∃ sink input source, s.model l = .ok (sink, input) ∧
      s.finalDynamics l.source.node = some source ∧ s.board.ReadAfter l sink input latency ∧
        d = s.sized source latency := by
  have hj := s.judged l p
  rw [h] at hj
  generalize hresult : (.ok d : Except Failure Decision) = result at hj
  cases hj with
  | unmodelled | overflow => simp at hresult
  | preset | unreliable =>
    obtain rfl := Except.ok.inj hresult
    contradiction
  | lacking _ _ _ hgap =>
    unfold fallBack at hresult
    split at hresult
    case h_1 =>
      obtain rfl := Except.ok.inj hresult
      contradiction
    case h_2 => contradiction
  | sized _ hm _ hsource hread =>
    obtain rfl := Except.ok.inj hresult
    obtain ⟨rfl, -⟩ := Origin.computed.inj hd
    exact ⟨_, _, _, hm, hsource, hread, rfl⟩

theorem computed_of_policyFor (h : s.policyFor l p = .ok ⟨.buffer size, .computed latency queue⟩) :
    ∃ d, s.finalDynamics l.source.node = some d ∧ queue = d.queueSize latency ∧
      size = s.margin.bufferSize queue := by
  obtain ⟨-, -, d, -, hd, -, hsized⟩ := sized_of_policyFor h rfl
  obtain ⟨hsize, hqueue⟩ := by simpa [sized] using hsized
  subst hqueue
  exact ⟨d, hd, rfl, hsize⟩

/-- A computed buffer falls short of what arrives by no more than the samples that are not counted, less
one. It holds everything just if it holds what comes where every trigger fires as the span starts. -/
theorem computed_fits (h : s.policyFor l p = .ok ⟨.buffer size, .computed latency queue⟩) :
    ∃ d, s.finalDynamics l.source.node = some d ∧
      (d.Fits size latency ↔ min Count.limit
        (d.sampleSize.toNat * (d.total (·.counted latency) + d.uncounted latency)) ≤ size.toNat) ∧
      (d.uncounted latency ≤ 1 → d.Fits size latency) ∧
      ∀ phase, d.IsPhase phase → ∀ start,
        min Count.limit (d.sampleSize.toNat * d.arrivals phase start latency) ≤
          size.toNat + d.sampleSize.toNat * (d.uncounted latency - 1) := by
  obtain ⟨d, hd, hqueue, hsize⟩ := computed_of_policyFor h
  have hroom := s.margin.le_bufferSize queue
  rw [← hsize, hqueue, d.queueSize_eq, Count.toNat_ofNat] at hroom
  have hshort (phase : Trigger → ℝ) (start : ℝ) :
      min Count.limit (d.sampleSize.toNat * d.arrivals phase start latency) ≤
        size.toNat + d.sampleSize.toNat * (d.uncounted latency - 1) := by
    have harrive := d.arrivals_le phase start latency
    -- the queue has room for one of the samples that are not counted
    have hsplit : d.arrivals phase start latency ≤
        d.total (·.counted latency) + 1 + (d.uncounted latency - 1) := by omega
    have hmul := Nat.mul_le_mul_left d.sampleSize.toNat hsplit
    rw [Nat.mul_add, Nat.mul_comm d.sampleSize.toNat (_ + 1)] at hmul
    omega
  refine ⟨d, hd, PortDynamics.fits_iff, ?_, fun phase _ start => hshort phase start⟩
  intro hone phase _ start
  have h := hshort phase start
  rwa [Nat.sub_eq_zero_of_le hone, Nat.mul_zero, Nat.add_zero] at h

end Synthesis

namespace Network

theorem polled_fits : ∃ n d, polled.file.build = .ok n ∧
    (n.synthesis .standard .fresh).policyFor ⟨⟨"sensor", "out"⟩, ⟨"reader", "in"⟩⟩ {} =
      .ok ⟨.buffer 8, .computed ⟨500000000, by decide⟩ 6⟩ ∧
      (n.synthesis .standard .fresh).finalDynamics ⟨"sensor", some "out"⟩ = some d ∧
      d.Fits 8 ⟨500000000, by decide⟩ := by
  let l : Link := ⟨⟨"sensor", "out"⟩, ⟨"reader", "in"⟩⟩
  have hbuild : (polled.file.build.map fun n =>
      ((n.synthesis .standard .fresh).policyFor l {},
        ((n.synthesis .standard .fresh).finalDynamics l.source.node).map
          (·.uncounted ⟨500000000, by decide⟩))) =
      .ok (.ok ⟨.buffer 8, .computed ⟨500000000, by decide⟩ 6⟩, some 0) := by
    decide +kernel
  obtain ⟨n, h, hn⟩ := map_eq_ok.mp hbuild
  obtain ⟨hpolicy, huncounted⟩ := Prod.mk.inj hn
  obtain ⟨d, hd, -, hone, -⟩ := Synthesis.computed_fits hpolicy
  rw [hd, Option.map_some, Option.some.injEq] at huncounted
  exact ⟨n, d, h, hpolicy, hd, hone (by omega)⟩

/-- A source of ten samples at once, once a second, and a sink that is done with them in ten milliseconds. -/
def bursts : ValidFile where
  file :=
    { tasks := ((∅ : Std.ExtTreeMap String TaskSection).insert "sink"
        { latency := .signed false ⟨4576918229304087675, by decide⟩,
          inputs := (∅ : Std.ExtTreeMap String InputPort).insert "in" { reliable := true } }).insert "source"
        { activity := .periodic, period := some (.signed false ⟨4607182418800017408, by decide⟩),
          outputs := (∅ : Std.ExtTreeMap String OutputSection).insert "out"
            { burstPeriod := .signed false ⟨4607182418800017408, by decide⟩, burstSize := 10,
              onUpdate := false } }
      connections := [⟨"source.out", "sink.in", {}⟩] }
  checked := by decide +kernel

theorem bursts_not_fit : ∃ n d queue, bursts.file.build = .ok n ∧
    (n.synthesis .standard .fresh).policyFor ⟨⟨"source", "out"⟩, ⟨"sink", "in"⟩⟩ {} =
      .ok ⟨.buffer 3, .computed ⟨10000000, by decide⟩ queue⟩ ∧
      (n.synthesis .standard .fresh).finalDynamics ⟨"source", some "out"⟩ = some d ∧
      ¬ d.Fits 3 ⟨10000000, by decide⟩ := by
  let l : Link := ⟨⟨"source", "out"⟩, ⟨"sink", "in"⟩⟩
  have hbuild : (bursts.file.build.map fun n =>
      ((n.synthesis .standard .fresh).policyFor l {},
        ((n.synthesis .standard .fresh).finalDynamics l.source.node).map fun d =>
          (d.sampleSize, d.total (·.counted ⟨10000000, by decide⟩), d.uncounted ⟨10000000, by decide⟩))) =
      .ok (.ok ⟨.buffer 3, .computed ⟨10000000, by decide⟩ 1⟩, some (1, 0, 10)) := by
    decide +kernel
  obtain ⟨n, h, hn⟩ := map_eq_ok.mp hbuild
  obtain ⟨hpolicy, hvalues⟩ := Prod.mk.inj hn
  obtain ⟨d, hd, hvalues⟩ := Option.map_eq_some_iff.mp hvalues
  simp only [Prod.mk.injEq] at hvalues
  obtain ⟨hsize, hcounted, huncounted⟩ := hvalues
  refine ⟨n, d, 1, h, hpolicy, hd, ?_⟩
  rw [PortDynamics.fits_iff, hsize, hcounted, huncounted]
  decide

end Network

end FlowTiming
