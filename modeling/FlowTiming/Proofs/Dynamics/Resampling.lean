import FlowTiming.Proofs.Dynamics.Counting
import Mathlib.Algebra.BigOperators.Ring.List

/-!
What a reader forwards who reads once every span, against what is written to it. All that is counted of
a span is forwarded once every span, and one sample more. Over several spans this need not make up for
the firings that fit into all of them together, but into none of them by itself.
-/

namespace FlowTiming

namespace Trigger

variable (t : Trigger) {span whole : Duration} {cycles : ℕ}

/-- Samples that are counted of so many spans together, but of none of them by itself. -/
def straddling (span : Duration) (cycles : ℕ) : ℕ :=
  if t.isBurst then 0 else cycles * (span.nanos % t.period.nanos) / t.period.nanos * t.count.toNat

theorem straddling_le (span : Duration) (cycles : ℕ) :
    t.straddling span cycles ≤ (cycles - 1) * t.uncounted span := by
  unfold straddling uncounted
  cases hburst : t.isBurst with
  | true => simp
  | false =>
    have hp := t.isBurst_eq_false.mp hburst
    have hrest := Nat.mod_lt span.nanos hp
    simp only [Bool.false_eq_true, ↓reduceIte, false_or]
    split
    case isTrue hdvd => simp [Nat.mod_eq_zero_of_dvd hdvd]
    case isFalse hdvd =>
      refine Nat.mul_le_mul_right _ ?_
      rcases Nat.eq_zero_or_pos cycles with rfl | hcycles
      · simp
      · have hlt := Nat.mul_lt_mul_of_pos_left hrest hcycles
        have := (Nat.div_lt_iff_lt_mul hp).mpr hlt
        omega

theorem counted_le (hcycles : 1 ≤ cycles) (hwhole : whole.nanos = cycles * span.nanos) :
    t.counted whole ≤ cycles * t.counted span + t.straddling span cycles := by
  unfold counted straddling
  cases hburst : t.isBurst with
  | true => simpa using Nat.le_mul_of_pos_left _ hcycles
  | false =>
    have hp := t.isBurst_eq_false.mp hburst
    have hfloor : whole.nanos / t.period.nanos = cycles * (span.nanos / t.period.nanos) +
        cycles * (span.nanos % t.period.nanos) / t.period.nanos := by
      rw [hwhole, ← Nat.mul_add_div hp, Nat.mul_left_comm, ← Nat.mul_add, Nat.div_add_mod]
    simp only [Bool.false_eq_true, ↓reduceIte, hfloor, Nat.add_mul, Nat.mul_assoc, le_refl]

end Trigger

namespace PortDynamics

variable {d : PortDynamics} {span whole : Duration} {cycles : ℕ}

theorem total_of_isEmpty (h : d.isEmpty = true) (f : Trigger → ℕ) : d.total f = 0 := by
  have hnone : d.triggers.toList = [] := List.eq_nil_iff_forall_not_mem.mpr fun g hg =>
    isEmpty_iff.mp h g (Std.ExtTreeSet.mem_toList.mp hg)
  rw [total, hnone, List.map_nil, List.sum_nil]

theorem sampleCount_singleton {t : Trigger} (h : ∀ g, g ∈ d.triggers ↔ g = t) (span : Duration) :
    d.sampleCount span = Count.ofNat (t.counted span) := by
  have hone : d.triggers.toList.toFinset = {t} := by
    ext g
    rw [List.mem_toFinset, Std.ExtTreeSet.mem_toList, h, Finset.mem_singleton]
  rw [sampleCount_eq, total_eq_sum, hone, Finset.sum_singleton]

theorem count_resampled (hsize : 1 ≤ d.sampleSize.toNat) : 1 ≤ (d.resampled span).count.toNat :=
  Nat.le_trans hsize (d.sampleSize_le_queueSize span)

theorem mem_sampledAt (hsize : 1 ≤ d.sampleSize.toNat) {g : Trigger} :
    g ∈ (d.sampledAt span).triggers ↔ d.isEmpty = false ∧ g = d.resampled span := by
  rw [sampledAt, mem_ofTriggers]
  cases d.isEmpty with
  | true => simp
  | false =>
    simp only [Bool.false_eq_true, ↓reduceIte, List.mem_singleton, true_and, and_iff_left_iff_imp]
    rintro rfl
    exact Nat.ne_of_gt (count_resampled hsize)

theorem sampleCount_sampledAt (hsize : 1 ≤ d.sampleSize.toNat) (hfacts : d.isEmpty = false)
    (hspan : 0 < span.nanos) (hwhole : whole.nanos = cycles * span.nanos) :
    (d.sampledAt span).sampleCount whole =
      Count.ofNat (cycles * ((d.total (·.counted span) + 1) * d.sampleSize.toNat)) := by
  have hone (g : Trigger) : g ∈ (d.sampledAt span).triggers ↔ g = d.resampled span :=
    (mem_sampledAt hsize).trans (and_iff_right hfacts)
  have hperiodic : (d.resampled span).isBurst = false := (d.resampled span).isBurst_eq_false.mpr hspan
  have hcycles : whole.nanos / (d.resampled span).period.nanos = cycles := by
    rw [hwhole]
    exact Nat.mul_div_cancel _ hspan
  rw [sampleCount_singleton hone, Trigger.counted, hperiodic, hcycles, Count.ofNat_mul _ (_ * _),
    ← queueSize_eq]
  simp only [Bool.false_eq_true, ↓reduceIte]
  rw [Count.ofNat_mul, Count.ofNat_toNat]
  rfl

theorem total_counted_le (hcycles : 1 ≤ cycles) (hwhole : whole.nanos = cycles * span.nanos) :
    d.total (·.counted whole) ≤ cycles * d.total (·.counted span) + d.total (·.straddling span cycles) := by
  have hsplit := List.sum_map_add (f := fun g : Trigger => cycles * g.counted span)
    (g := fun g => g.straddling span cycles) (l := d.triggers.toList)
  rw [List.sum_map_mul_left] at hsplit
  rw [total, total, total, ← hsplit]
  exact List.sum_le_sum fun g _ => g.counted_le hcycles hwhole

theorem total_straddling_le (span : Duration) (cycles : ℕ) :
    d.total (·.straddling span cycles) ≤ (cycles - 1) * d.uncounted span := by
  rw [uncounted, total, total, ← List.sum_map_mul_left]
  exact List.sum_le_sum fun g _ => g.straddling_le span cycles

/-- What a reader forwards over several of its cycles falls short of what is written in that time by no
more than the samples that no cycle counts by itself, less one data sample a cycle. -/
theorem sampledAt_carries (d : PortDynamics) (hsize : 1 ≤ d.sampleSize.toNat) (hspan : 0 < span.nanos)
    (hcycles : 1 ≤ cycles) (hwhole : whole.nanos = cycles * span.nanos) :
    let carried := (d.sampledAt span).sampleCount whole
    (d.sampleCount whole ≤ carried ↔ min (d.total (·.counted whole)) Count.limit ≤
      cycles * ((d.total (·.counted span) + 1) * d.sampleSize.toNat)) ∧
    (d.total (·.straddling span cycles) ≤ cycles * d.sampleSize.toNat → d.sampleCount whole ≤ carried) ∧
    (d.uncounted span ≤ d.sampleSize.toNat → d.sampleCount whole ≤ carried) ∧
    (d.sampleCount whole).toNat ≤ carried.toNat +
      (d.total (·.straddling span cycles) - cycles * d.sampleSize.toNat) := by
  intro carried
  have hwritten : (d.sampleCount whole).toNat = min (d.total (·.counted whole)) Count.limit := by
    rw [sampleCount_eq, Count.toNat_ofNat]
  have hcarried : d.total (·.counted whole) = 0 ∨ carried.toNat =
      min (cycles * ((d.total (·.counted span) + 1) * d.sampleSize.toNat)) Count.limit := by
    cases hfacts : d.isEmpty with
    | true => exact .inl (total_of_isEmpty hfacts _)
    | false => exact .inr (congrArg Count.toNat (sampleCount_sampledAt hsize hfacts hspan hwhole))
  have hroom : cycles * d.total (·.counted span) + cycles * d.sampleSize.toNat ≤
      cycles * ((d.total (·.counted span) + 1) * d.sampleSize.toNat) := by
    rw [← Nat.mul_add, Nat.succ_mul]
    exact Nat.mul_le_mul_left cycles (Nat.add_le_add_right (Nat.le_mul_of_pos_right _ hsize) _)
  have hle := d.total_counted_le hcycles hwhole
  have hkept (h : d.total (·.straddling span cycles) ≤ cycles * d.sampleSize.toNat) :
      d.sampleCount whole ≤ carried := by
    rw [Count.le_def]
    omega
  refine ⟨?_, hkept, fun h => hkept ?_, by omega⟩
  · rw [Count.le_def]
    omega
  · calc d.total (·.straddling span cycles)
      _ ≤ (cycles - 1) * d.uncounted span := d.total_straddling_le span cycles
      _ ≤ cycles * d.sampleSize.toNat := Nat.mul_le_mul (Nat.sub_le cycles 1) h

/-- One sample every 300 milliseconds, for a reader that reads twice a second. -/
def drifting : PortDynamics := .ofTriggers "reader.in" 1 [⟨"writer.main-period", ⟨300000000, by decide⟩, 1⟩]

theorem drifting_carries : drifting.sampleCount ⟨1500000000, by decide⟩ = 5 ∧
    (drifting.sampledAt ⟨500000000, by decide⟩).sampleCount ⟨1500000000, by decide⟩ = 6 ∧
    drifting.total (·.straddling ⟨500000000, by decide⟩ 3) = 2 ∧
    drifting.sampleCount ⟨1500000000, by decide⟩ ≤
      (drifting.sampledAt ⟨500000000, by decide⟩).sampleCount ⟨1500000000, by decide⟩ :=
  ⟨by decide +kernel, by decide +kernel, by decide +kernel,
    (@sampledAt_carries ⟨500000000, by decide⟩ ⟨1500000000, by decide⟩ 3 drifting (by decide +kernel)
      (by decide) (by decide) (by decide)).2.2.1 (by decide +kernel)⟩

/-- Ten samples at once every two seconds, for a reader that reads once a second. -/
def batched : PortDynamics := .ofTriggers "reader.in" 1 [⟨"writer.main-period", ⟨2000000000, by decide⟩, 10⟩]

/-- What comes every two seconds is counted of no single cycle of one second, so the reader is said to
forward one sample a cycle. -/
theorem batched_not_carried : ∃ (d : PortDynamics) (span whole : Duration) (cycles : ℕ),
    1 ≤ d.sampleSize.toNat ∧ 0 < span.nanos ∧ 1 ≤ cycles ∧ whole.nanos = cycles * span.nanos ∧
      d.sampleCount whole = 10 ∧ (d.sampledAt span).sampleCount whole = 2 ∧
        ¬ d.sampleCount whole ≤ (d.sampledAt span).sampleCount whole :=
  ⟨batched, ⟨1000000000, by decide⟩, ⟨2000000000, by decide⟩, 2, by decide +kernel, by decide, by decide,
    by decide, by decide +kernel, by decide +kernel, by decide +kernel⟩

end PortDynamics

end FlowTiming
