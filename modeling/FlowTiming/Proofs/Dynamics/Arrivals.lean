import FlowTiming.Proofs.Collections
import FlowTiming.Dynamics.Basic
import Mathlib.Algebra.Order.Archimedean.Real.Basic
import Mathlib.Algebra.BigOperators.Group.List.Lemmas
import Mathlib.Algebra.Order.BigOperators.Group.Finset
import Mathlib.Algebra.Order.BigOperators.Group.List
import Mathlib.Data.Nat.Cast.Field
import Mathlib.Data.Set.Card
import Mathlib.Data.Int.ConditionallyCompleteOrder
import Mathlib.Data.Int.Interval

/-!
How many samples arrive at a port within a span of time, against how many of them are counted. A
trigger with a period fires at its phase and at every multiple of the period away from it.
-/

namespace FlowTiming

namespace Count

theorem ofNat_toNat (c : Count) : ofNat c.toNat = c := ext (Nat.min_eq_left c.toNat_le)

theorem ofNat_add (a b : Nat) : ofNat (a + b) = ofNat a + ofNat b := by
  apply ext
  simp only [toNat_add, toNat_ofNat]
  omega

theorem ofNat_mul (a b : Nat) : ofNat (a * b) = ofNat a * ofNat b := by
  apply ext
  simp only [toNat_mul, toNat_ofNat]
  rcases Nat.eq_zero_or_pos a with rfl | ha
  · simp
  rcases Nat.eq_zero_or_pos b with rfl | hb
  · simp
  have hone : 1 ≤ limit := by decide
  rcases Nat.le_total a limit with hal | hal
  · rcases Nat.le_total b limit with hbl | hbl
    · rw [Nat.min_eq_left hal, Nat.min_eq_left hbl]
    · have h := Nat.le_mul_of_pos_left limit ha
      have h' := Nat.mul_le_mul_left a hbl
      rw [Nat.min_eq_left hal, Nat.min_eq_right hbl, Nat.min_eq_right h, Nat.min_eq_right (h.trans h')]
  · have h := Nat.le_mul_of_pos_right limit (show 0 < min b limit by omega)
    have h' := Nat.le_mul_of_pos_right a hb
    rw [Nat.min_eq_right hal, Nat.min_eq_right h, Nat.min_eq_right (hal.trans h')]

end Count

namespace Trigger

variable (t : Trigger) (phase start : ℝ) (span : Duration)

/-- How many periods away from its phase a trigger fires within a span that starts at `start`. -/
def firings : Set ℤ :=
  {k | start ≤ phase + k * t.period.nanos ∧ phase + k * t.period.nanos < start + span.nanos}

/-- Samples that a trigger brings within a span. A burst comes once. -/
noncomputable def arrivals : ℕ :=
  if t.isBurst then t.count.toNat else (t.firings phase start span).ncard * t.count.toNat

/-- Samples that are counted of a trigger: those of as many firings as whole periods fit. -/
def counted : ℕ := if t.isBurst then t.count.toNat else span.nanos / t.period.nanos * t.count.toNat

/-- Samples that may come on top: those of one more firing where the span is not made of whole periods. -/
def uncounted : ℕ := if t.isBurst ∨ t.period.nanos ∣ span.nanos then 0 else t.count.toNat

theorem isBurst_eq_false : t.isBurst = false ↔ 0 < t.period.nanos := by
  simp [isBurst, Nat.pos_iff_ne_zero]

theorem samplesOver_eq : t.samplesOver span = Count.ofNat (t.counted span) := by
  unfold samplesOver counted
  split
  case isTrue => exact (Count.ofNat_toNat t.count).symm
  case isFalse => rw [Count.ofNat_mul, Count.ofNat_toNat]

variable {t} {span} (hp : 0 < t.period.nanos)
include hp

theorem firings_eq : t.firings phase start span =
    Set.Ico ⌈(start - phase) / t.period.nanos⌉ ⌈(start - phase + span.nanos) / t.period.nanos⌉ := by
  have hp : (0 : ℝ) < t.period.nanos := Nat.cast_pos.mpr hp
  ext k
  rw [Set.mem_Ico, Int.ceil_le, Int.lt_ceil, div_le_iff₀ hp, lt_div_iff₀ hp, sub_le_iff_le_add',
    sub_add_eq_add_sub, lt_sub_iff_add_lt']
  exact Iff.rfl

theorem ncard_firings_le : (t.firings phase start span).ncard ≤ ⌈(span.nanos : ℝ) / t.period.nanos⌉₊ := by
  have h := Int.ceil_add_le ((start - phase) / t.period.nanos) ((span.nanos : ℝ) / t.period.nanos)
  rw [firings_eq phase start hp, ← Finset.coe_Ico, Set.ncard_coe_finset, Int.card_Ico, add_div,
    ← Int.ceil_toNat]
  omega

theorem ncard_firings_zero : (t.firings 0 0 span).ncard = ⌈(span.nanos : ℝ) / t.period.nanos⌉₊ := by
  rw [firings_eq 0 0 hp, ← Finset.coe_Ico, Set.ncard_coe_finset, Int.card_Ico, ← Int.ceil_toNat]
  simp

theorem ceil_div_period : ⌈(span.nanos : ℝ) / t.period.nanos⌉₊ =
    span.nanos / t.period.nanos + if t.period.nanos ∣ span.nanos then 0 else 1 := by
  have hpos : (0 : ℝ) < t.period.nanos := Nat.cast_pos.mpr hp
  split
  case isTrue hdvd => rw [Nat.add_zero, ← Nat.cast_div hdvd hpos.ne', Nat.ceil_natCast]
  case isFalse hdvd =>
    have hle := Nat.div_mul_le_self span.nanos t.period.nanos
    have hne : span.nanos / t.period.nanos * t.period.nanos ≠ span.nanos :=
      fun h => hdvd (Dvd.intro_left _ h)
    have hlt := Nat.lt_div_mul_add hp (a := span.nanos)
    rw [Nat.ceil_eq_iff (Nat.succ_ne_zero _), lt_div_iff₀ hpos, div_le_iff₀ hpos]
    norm_cast
    rw [Nat.succ_mul]
    exact ⟨lt_of_le_of_ne hle hne, hlt.le⟩

omit hp

theorem arrivals_le : t.arrivals phase start span ≤ t.counted span + t.uncounted span := by
  unfold arrivals counted uncounted
  cases hburst : t.isBurst with
  | true => simp
  | false =>
    have hp := t.isBurst_eq_false.mp hburst
    have hfirings : (t.firings phase start span).ncard ≤ _ := ncard_firings_le phase start hp
    have h := Nat.mul_le_mul_right t.count.toNat hfirings
    rw [ceil_div_period hp, Nat.add_mul] at h
    simpa [ite_mul] using h

theorem arrivals_zero : t.arrivals 0 0 span = t.counted span + t.uncounted span := by
  unfold arrivals counted uncounted
  cases hburst : t.isBurst with
  | true => simp
  | false =>
    have hp := t.isBurst_eq_false.mp hburst
    rw [ncard_firings_zero hp, ceil_div_period hp, Nat.add_mul]
    simp [ite_mul]

end Trigger

namespace PortDynamics

variable (d : PortDynamics) (phase : Trigger → ℝ) (start : ℝ) (span : Duration)

def total (f : Trigger → ℕ) : ℕ := (d.triggers.toList.map f).sum

theorem total_eq_sum (f : Trigger → ℕ) : d.total f = ∑ g ∈ d.triggers.toList.toFinset, f g :=
  (List.sum_toFinset f (nodup_toList d.triggers)).symm

theorem sum_le_total {f : Trigger → ℕ} {facts : Finset Trigger}
    (h : ∀ g ∈ facts, f g ≠ 0 → g ∈ d.triggers) : ∑ g ∈ facts, f g ≤ d.total f := by
  rw [total_eq_sum]
  apply Finset.sum_le_sum_of_ne_zero
  intro g hg hne
  rw [List.mem_toFinset, Std.ExtTreeSet.mem_toList]
  exact h g hg hne

theorem sampleCount_eq : d.sampleCount span = Count.ofNat (d.total (·.counted span)) := by
  have general (ts : List Trigger) (n : ℕ) :
      (ts.map (·.samplesOver span)).foldl (· + ·) (Count.ofNat n) =
        Count.ofNat (n + (ts.map (·.counted span)).sum) := by
    induction ts generalizing n with
    | nil => rfl
    | cons t ts ih =>
      rw [List.map_cons, List.foldl_cons, t.samplesOver_eq, ← Count.ofNat_add, ih, List.map_cons,
        List.sum_cons, Nat.add_assoc]
  rw [sampleCount, total, ← Nat.zero_add (List.sum _)]
  exact general _ 0

theorem queueSize_eq : d.queueSize span =
    Count.ofNat ((d.total (·.counted span) + 1) * d.sampleSize.toNat) := by
  rw [Count.ofNat_mul, Count.ofNat_add, Count.ofNat_toNat, ← sampleCount_eq]
  rfl

noncomputable def arrivals : ℕ := d.total fun t => t.arrivals (phase t) start span

def uncounted : ℕ := d.total (·.uncounted span)

theorem total_counted_add : d.total (fun t => t.counted span + t.uncounted span) =
    d.total (·.counted span) + d.uncounted span := List.sum_map_add

theorem arrivals_le : d.arrivals phase start span ≤ d.total (·.counted span) + d.uncounted span := by
  rw [← total_counted_add]
  exact List.sum_le_sum fun t _ => Trigger.arrivals_le (phase t) start

theorem arrivals_zero : d.arrivals 0 0 span = d.total (·.counted span) + d.uncounted span := by
  rw [← total_counted_add]
  exact congrArg List.sum (List.map_congr_left fun t _ => Trigger.arrivals_zero)

end PortDynamics

end FlowTiming
