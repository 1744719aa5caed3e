import FlowTiming.Proofs.Binary64.Rounding
import FlowTiming.Proofs.Policy.Capacity
import FlowTiming.Proofs.Policy.Relabelling

/-!
What a wider margin changes. Nothing but the slots of buffers that are computed, and of these there are
never fewer.
-/

namespace FlowTiming

theorem Count.ofNat_le {a b : ℕ} (h : a ≤ b) : Count.ofNat a ≤ Count.ofNat b := by
  rw [Count.le_def, Count.toNat_ofNat, Count.toNat_ofNat]
  omega

namespace Margin

variable {m m' : Margin} {queue queue' : Count}

theorem scaledSlots_le (hm : m.magnitude.value ≤ m'.magnitude.value) (hq : queue ≤ queue') :
    m.scaledSlots queue ≤ m'.scaledSlots queue' := by
  have hfactor := Magnitude.value_add_le (le_refl (1 : Magnitude).value) hm
  have hscaled := Magnitude.value_mul_le hfactor (Magnitude.value_ofNat_le hq)
  have hstripped := Magnitude.value_nearest_le (sub_le_sub_right hscaled noise)
  unfold scaledSlots
  apply Count.ofNat_le
  apply Int.toNat_le_toNat
  apply Rat.ceil_le_iff.mpr
  exact hstripped.trans Rat.le_ceil

theorem bufferSize_le (hm : m.magnitude.value ≤ m'.magnitude.value) (hq : queue ≤ queue') :
    m.bufferSize queue ≤ m'.bufferSize queue' := by
  have hslots := scaledSlots_le hm hq
  rw [Count.le_def] at hq hslots ⊢
  simp only [bufferSize, Count.toNat_add, Count.toNat_max, Count.toNat_one]
  omega

end Margin

namespace Decision

/-- The decision for the same queue with another margin. -/
def resized (m : Margin) (d : Decision) : Decision :=
  match d.origin with
  | .computed _ queue => { d with policy := .buffer (m.bufferSize queue) }
  | _ => d

@[simp] theorem origin_resized (m : Margin) (d : Decision) : (d.resized m).origin = d.origin := by
  unfold resized
  split <;> rfl

@[simp] theorem warning?_resized (m : Margin) (d : Decision) : (d.resized m).warning? = d.warning? := by
  unfold warning?
  rw [origin_resized]

/-- Decisions that are the same but for a computed buffer, which is no smaller in the other one. -/
inductive Widens : Decision → Decision → Prop
  | same {d : Decision} : (∀ latency queue, d.origin ≠ .computed latency queue) → Widens d d
  | buffer {latency : Duration} {queue size size' : Count} : size ≤ size' →
      Widens ⟨.buffer size, .computed latency queue⟩ ⟨.buffer size', .computed latency queue⟩

end Decision

namespace Synthesis

variable (s : Synthesis) (m : Margin)

def widened : Synthesis := { s with margin := m }

theorem fallBack_widened (l : Link) (p : LinkPolicy) (gap : Gap) :
    (s.widened m).fallBack l p gap = (s.fallBack l p gap).map (Decision.resized m) := by
  unfold fallBack
  cases p.fallback <;> rfl

theorem judge_widened (l : Link) (p : LinkPolicy) (sink : Task) (input : InputPort) :
    (s.widened m).judge l p sink input = (s.judge l p sink input).map (Decision.resized m) := by
  have hread : (s.widened m).readingLatency l sink input = s.readingLatency l sink input := rfl
  have hfinal (x : FlowNode) : (s.widened m).finalDynamics x = s.finalDynamics x := rfl
  unfold judge
  rw [hread, hfinal, fallBack_widened, fallBack_widened]
  split
  case isFalse => rfl
  case isTrue =>
    cases s.readingLatency l sink input with
    | error e => rfl
    | ok latency =>
      cases s.finalDynamics l.source.node with
      | none => rfl
      | some source => cases latency <;> rfl

theorem policyFor_widened (l : Link) (p : LinkPolicy) :
    (s.widened m).policyFor l p = (s.policyFor l p).map (Decision.resized m) := by
  have hmodel : (s.widened m).model l = s.model l := rfl
  unfold policyFor
  rw [hmodel]
  cases p.preset with
  | some policy => rfl
  | none =>
    cases s.model l with
    | error fault => rfl
    | ok ends => exact judge_widened s m l p ends.1 ends.2

theorem decisions_widened : (s.widened m).decisions =
    s.decisions.map (List.map fun x => (x.1, x.2.resized m)) := by
  unfold decisions
  rw [← mapM_map]
  apply congrArg (s.network.links.toList.mapM ·)
  funext e
  rw [policyFor_widened]
  cases s.policyFor e.1 e.2 <;> rfl

variable {s m} {l : Link} {p : LinkPolicy} {d : Decision}

theorem widens_resized (hm : s.margin.magnitude.value ≤ m.magnitude.value) (h : s.policyFor l p = .ok d) :
    d.Widens (d.resized m) := by
  by_cases horigin : ∃ latency queue, d.origin = .computed latency queue
  · obtain ⟨latency, queue, horigin⟩ := horigin
    obtain ⟨-, -, source, -, -, -, rfl⟩ := sized_of_policyFor h horigin
    apply Decision.Widens.buffer
    exact Margin.bufferSize_le hm (Nat.le_refl _)
  · have hother (latency : Duration) (queue : Count) : d.origin ≠ .computed latency queue :=
      fun hd => horigin ⟨latency, queue, hd⟩
    have hsame : d.resized m = d := by
      unfold Decision.resized
      split
      case h_1 latency queue hd => exact absurd hd (hother latency queue)
      case h_2 => rfl
    rw [hsame]
    exact .same hother

end Synthesis

namespace Network

theorem synthesis_widened (n : Network) (margin margin' : Margin) (engine engine' : FlowEngine) :
    n.synthesis margin' engine' = (n.synthesis margin engine).widened margin' := by
  have hrun : n.propagate engine' = n.propagate engine := rfl
  unfold synthesis
  rw [hrun]
  rfl

/-- Reports on a network under two margins that differ in the slots of computed buffers only. -/
structure Widens (n : Network) (s s' : Synthesis) (r r' : Report) : Prop where
  rest : r' = { r with policies := r'.policies }
  links : ∀ l, n.links.get? l = none → r.policy l = none ∧ r'.policy l = none
  policies : ∀ l p, n.links.get? l = some p → ∃ d d', s.policyFor l p = .ok d ∧ s'.policyFor l p = .ok d' ∧
    d.Widens d' ∧ r.policy l = some d.policy ∧ r'.policy l = some d'.policy

theorem report_resized (outcome : Outcome String String) (board : FlowBoard) (cycles : List (List FlowNode))
    (ds : List (Link × Decision)) (m : Margin) :
    report outcome board cycles (ds.map fun x => (x.1, x.2.resized m)) =
      { report outcome board cycles ds with
        policies := (report outcome board cycles (ds.map fun x => (x.1, x.2.resized m))).policies } := by
  simp only [report, List.filterMap_map, Function.comp_def, Decision.warning?_resized]

theorem widens_of_decisions {n : Network} {margin margin' : Margin} {engine engine' : FlowEngine}
    {r r' : Report} {ds : List (Link × Decision)} (h : margin.magnitude.value ≤ margin'.magnitude.value)
    (hds : (n.synthesis margin engine).decisions = .ok ds)
    (hr : (n.analyze margin engine).result = .ok r) (hr' : (n.analyze margin' engine').result = .ok r') :
    n.Widens (n.synthesis margin engine) (n.synthesis margin' engine') r r' := by
  rw [result_analyze] at hr hr'
  have hs : n.synthesis margin' engine' = (n.synthesis margin engine).widened margin' :=
    synthesis_widened n margin margin' engine engine'
  constructor
  · rw [hs, Synthesis.decisions_widened, hds] at hr'
    rw [hds] at hr
    obtain rfl := Except.ok.inj hr
    obtain rfl := Except.ok.inj hr'
    exact report_resized ..
  · intro l hl
    exact ⟨Synthesis.policy_eq_none hr hl, Synthesis.policy_eq_none hr' hl⟩
  · intro l p hl
    obtain ⟨d, hd⟩ := Synthesis.decided hds hl
    have hd' : (n.synthesis margin' engine').policyFor l p = .ok (d.resized margin') := by
      rw [hs, Synthesis.policyFor_widened, hd]
      rfl
    have hwidens := Synthesis.widens_resized (s := n.synthesis margin engine) h hd
    exact ⟨d, _, hd, hd', hwidens, Synthesis.policy_report hr hl hd, Synthesis.policy_report hr' hl hd'⟩

theorem analyze_widens (n : Network) (margin margin' : Margin) (engine engine' : FlowEngine)
    (h : margin.magnitude.value ≤ margin'.magnitude.value) :
    ((∃ e, (n.analyze margin engine).result = .error e ∧ (n.analyze margin' engine').result = .error e) ∨
      ∃ r r', (n.analyze margin engine).result = .ok r ∧ (n.analyze margin' engine').result = .ok r' ∧
        n.Widens (n.synthesis margin engine) (n.synthesis margin' engine') r r') ∧
      ∀ (m : Margin) (queue queue' : Count), queue ≤ queue' → m.bufferSize queue ≤ m.bufferSize queue' := by
  refine ⟨?_, fun m queue queue' hq => Margin.bufferSize_le le_rfl hq⟩
  have hs : (n.synthesis margin' engine').decisions = (n.synthesis margin engine).decisions.map
      (List.map fun x => (x.1, x.2.resized margin')) := by
    rw [synthesis_widened n margin margin' engine engine', Synthesis.decisions_widened]
  cases hds : (n.synthesis margin engine).decisions with
  | error e =>
    apply Or.inl
    refine ⟨e, ?_, ?_⟩
    · rw [result_analyze, hds]
      rfl
    · rw [result_analyze, hs, hds]
      rfl
  | ok ds =>
    obtain ⟨r, hr⟩ : ∃ r, (n.analyze margin engine).result = .ok r := by
      rw [result_analyze, hds]
      exact ⟨_, rfl⟩
    obtain ⟨r', hr'⟩ : ∃ r', (n.analyze margin' engine').result = .ok r' := by
      rw [result_analyze, hs, hds]
      exact ⟨_, rfl⟩
    exact .inr ⟨r, r', hr, hr', widens_of_decisions h hds hr hr'⟩

theorem mixed_widens : Margin.standard.magnitude.value ≤ quarter.magnitude.value ∧
    ∃ r r', (mixed.analyze .standard .fresh).result = .ok r ∧ (mixed.analyze quarter .fresh).result = .ok r' ∧
      mixed.Widens (mixed.synthesis .standard .fresh) (mixed.synthesis quarter .fresh) r r' ∧
      r.policies.toList.map (·.2) = [.buffer 8, .passThrough, .singleSlot, .passThrough] ∧
      r'.policies.toList.map (·.2) = [.buffer 9, .passThrough, .singleSlot, .passThrough] := by
  have hmargins : Margin.standard.magnitude.value ≤ quarter.magnitude.value := by decide +kernel
  have hrun : ((mixed.analyze .standard .fresh).result.map fun r => r.policies.toList.map (·.2)) =
      .ok [.buffer 8, .passThrough, .singleSlot, .passThrough] := by decide +kernel
  have hrun' : ((mixed.analyze quarter .fresh).result.map fun r => r.policies.toList.map (·.2)) =
      .ok [.buffer 9, .passThrough, .singleSlot, .passThrough] := by decide +kernel
  refine ⟨hmargins, ?_⟩
  rcases (analyze_widens mixed .standard quarter .fresh .fresh hmargins).1 with
    ⟨e, he, -⟩ | ⟨r, r', hr, hr', hwidens⟩
  · rw [he] at hrun
    contradiction
  · rw [hr] at hrun
    rw [hr'] at hrun'
    exact ⟨r, r', hr, hr', hwidens, Except.ok.inj hrun, Except.ok.inj hrun'⟩

end Network

end FlowTiming
