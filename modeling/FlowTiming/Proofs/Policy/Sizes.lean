import FlowTiming.Proofs.Policy.Capacity
import Mathlib.Order.Bounds.Defs

/-!
How small a buffer can be. However the slots for a queue come out in rounded arithmetic, a buffer has
one for every data sample of the queue and one more, up to the greatest count.
-/

namespace FlowTiming

namespace Duration

theorem min_def (a b : Duration) : min a b = if a.nanos ≤ b.nanos then a else b := rfl

instance : Std.IsLinearOrder Duration where
  le_refl a := Nat.le_refl a.nanos
  le_trans _ _ _ := Nat.le_trans
  le_antisymm _ _ h h' := ext (Nat.le_antisymm h h')
  le_total a b := Nat.le_total a.nanos b.nanos

instance : Std.LawfulOrderMin Duration where
  min_eq_or a b := by
    rw [min_def]
    exact ite_eq_or_eq ..
  le_min_iff a b c := by
    rw [min_def]
    simp only [le_def]
    split <;> omega

end Duration

namespace PortDynamics

variable {d : PortDynamics} {period : Duration}

/-- The periods of the triggers that have one. -/
def periods (d : PortDynamics) : Set ℕ := {k | k ≠ 0 ∧ ∃ t ∈ d.triggers, t.period.nanos = k}

theorem isLeast_of_minimalPeriod (h : d.minimalPeriod = some period) : IsLeast d.periods period.nanos := by
  rw [minimalPeriod, List.min?_eq_some_iff] at h
  simp only [List.mem_filter, List.mem_map, Std.ExtTreeSet.mem_toList, decide_eq_true_eq] at h
  obtain ⟨⟨⟨t, ht, hperiod⟩, hne⟩, hleast⟩ := h
  refine ⟨⟨hne, t, ht, congrArg Duration.nanos hperiod⟩, ?_⟩
  rintro k ⟨hk, t', ht', rfl⟩
  exact hleast t'.period ⟨⟨t', ht', rfl⟩, hk⟩

/-- Slots for what is counted of a span, for one sample more and for one data sample more. -/
def slotsOver (d : PortDynamics) (span : Duration) : ℕ :=
  (1 + d.total (·.counted span)) * d.sampleSize.toNat + 1

theorem slotsOver_le_bufferSize (d : PortDynamics) (margin : Margin) (span : Duration) :
    min Count.limit (d.slotsOver span) ≤ (margin.bufferSize (d.queueSize span)).toNat := by
  have hroom := margin.le_bufferSize (d.queueSize span)
  rw [d.queueSize_eq, Count.toNat_ofNat] at hroom
  rw [slotsOver, Nat.add_comm 1]
  rw [d.queueSize_eq]
  omega

end PortDynamics

theorem Margin.one_le_bufferSize (margin : Margin) (queue : Count) : 1 ≤ (margin.bufferSize queue).toNat := by
  have hroom := margin.le_bufferSize queue
  have hlimit : 1 ≤ Count.limit := by decide
  omega

namespace Synthesis

variable {s : Synthesis} {l : Link} {p : LinkPolicy} {d : Decision} {latency : Duration} {queue : Count}

/-- Whether a buffer of a size suits a link whose sink reads after a latency. -/
structure Suits (s : Synthesis) (l : Link) (latency : Duration) (size : Count) : Prop where
  ends : ∃ sink input, s.network.EndsAt l sink input
  waking : ∀ sink input, s.network.EndsAt l sink input → input.wakes = true → latency = sink.latency
  sampling : ∀ sink input, s.network.EndsAt l sink input → input.wakes = false →
    ∃ reader period, s.finalDynamics (taskNode l.sink.task) = some reader ∧
      IsLeast reader.periods period ∧ latency.nanos = period + sink.latency.nanos
  slots : ∃ source, s.finalDynamics l.source.node = some source ∧
    min Count.limit (source.slotsOver latency) ≤ size.toNat

theorem suits_of_computed (h : s.policyFor l p = .ok d) (hd : d.origin = .computed latency queue) :
    ∃ size, d.policy = .buffer size ∧ s.Suits l latency size := by
  obtain ⟨sink, input, source, hm, hsource, hread, rfl⟩ := sized_of_policyFor h hd
  obtain ⟨-, hend⟩ := model_eq_ok.mp hm
  have hunique {sink' input'} (h' : s.network.EndsAt l sink' input') : sink' = sink ∧ input' = input := by
    obtain rfl := Option.some.inj (hend.1.symm.trans h'.1)
    exact ⟨rfl, Option.some.inj (h'.2.symm.trans hend.2)⟩
  refine ⟨_, rfl, ⟨⟨sink, input, hend⟩, ?_, ?_, source, hsource, source.slotsOver_le_bufferSize _ latency⟩⟩
  · intro sink' input' h' hw
    obtain ⟨rfl, rfl⟩ := hunique h'
    cases hread with
    | waking => rfl
    | sampling hw' => simp [hw] at hw'
  · intro sink' input' h' hw
    obtain ⟨rfl, rfl⟩ := hunique h'
    cases hread with
    | waking hw' => simp [hw] at hw'
    | sampling _ hfinal hinfo hperiod hsum =>
      exact ⟨_, _, finalDynamics_eq_some.mpr ⟨hfinal, hinfo⟩, PortDynamics.isLeast_of_minimalPeriod hperiod, hsum⟩

theorem policy_ne_buffer_zero (hpreset : p.preset ≠ some (.buffer 0)) (hfallback : p.fallback ≠ some (.buffer 0))
    (h : s.policyFor l p = .ok d) : d.policy ≠ .buffer 0 := by
  have hj := s.judged l p
  rw [h] at hj
  generalize hresult : (.ok d : Except Failure Decision) = result at hj
  cases hj with
  | unmodelled | overflow => simp at hresult
  | preset hp =>
    obtain rfl := Except.ok.inj hresult
    rintro rfl
    exact hpreset hp
  | unreliable =>
    obtain rfl := Except.ok.inj hresult
    simp only [ConnectionKind.policy]
    split <;> exact nofun
  | lacking =>
    unfold fallBack at hresult
    split at hresult
    case h_1 policy hp =>
      obtain rfl := Except.ok.inj hresult
      rintro rfl
      exact hfallback hp
    case h_2 => contradiction
  | @sized _ _ source latency =>
    obtain rfl := Except.ok.inj hresult
    intro hzero
    have hone := s.margin.one_le_bufferSize (source.queueSize latency)
    rw [Policy.buffer.inj hzero] at hone
    contradiction

end Synthesis

namespace Network

theorem buffers_suit (f : ValidFile) {n : Network} (h : f.file.build = .ok n) (margin : Margin)
    (engine : FlowEngine) {r : Report} (hr : (n.analyze margin engine).result = .ok r) :
    (∀ l size, r.policy l = some (.buffer size) → 1 ≤ size.toNat) ∧
      ∀ l p d latency queue, n.links.get? l = some p → (n.synthesis margin engine).policyFor l p = .ok d →
        d.origin = .computed latency queue →
          ∃ size, r.policy l = some (.buffer size) ∧ (n.synthesis margin engine).Suits l latency size := by
  rw [result_analyze] at hr
  constructor
  · intro l size hsize
    obtain ⟨p, d, hl, hd, hpolicy⟩ := (Synthesis.policy_iff hr).mp hsize
    obtain ⟨c, hc, rfl⟩ := NetworkFile.label_of_build h hl
    obtain ⟨hpreset, hfallback⟩ := (NetworkFile.check_eq_ok.mp f.checked).policies c hc
    have hne := Synthesis.policy_ne_buffer_zero hpreset hfallback hd
    rw [hpolicy] at hne
    by_contra hzero
    exact hne (congrArg Policy.buffer (Count.ext (Nat.lt_one_iff.mp (not_le.mp hzero))))
  · intro l p d latency queue hl hd horigin
    obtain ⟨size, hsize, hsuits⟩ := Synthesis.suits_of_computed hd horigin
    exact ⟨size, hsize ▸ Synthesis.policy_report hr hl hd, hsuits⟩

theorem polled_suits : ∃ n r, polled.file.build = .ok n ∧ (n.analyze .standard .fresh).result = .ok r ∧
    r.policy ⟨⟨"sensor", "out"⟩, ⟨"reader", "in"⟩⟩ = some (.buffer 8) ∧
      (n.synthesis .standard .fresh).Suits ⟨⟨"sensor", "out"⟩, ⟨"reader", "in"⟩⟩ ⟨500000000, by decide⟩ 8 := by
  let l : Link := ⟨⟨"sensor", "out"⟩, ⟨"reader", "in"⟩⟩
  have hbuild : (polled.file.build.map fun n => (n.links.get? l, (n.synthesis .standard .fresh).policyFor l {},
      (n.analyze .standard .fresh).result.isOk)) =
        .ok (some {}, .ok ⟨.buffer 8, .computed ⟨500000000, by decide⟩ 6⟩, true) := by decide +kernel
  obtain ⟨n, h, hn⟩ := map_eq_ok.mp hbuild
  simp only [Prod.mk.injEq] at hn
  obtain ⟨hl, hd, hok⟩ := hn
  cases hr : (n.analyze .standard .fresh).result with
  | error e =>
    rw [hr] at hok
    contradiction
  | ok r =>
    obtain ⟨size, hpolicy, hsuits⟩ := (buffers_suit polled h .standard .fresh hr).2 l {} _ _ 6 hl hd rfl
    have hsize := Synthesis.policy_report ((result_analyze ..).symm.trans hr) hl hd
    obtain rfl := Policy.buffer.inj (Option.some.inj (hpolicy.symm.trans hsize))
    exact ⟨n, r, h, hr, hpolicy, hsuits⟩

end Network

end FlowTiming
