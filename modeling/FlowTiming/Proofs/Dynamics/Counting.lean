import FlowTiming.Proofs.Dynamics.Arrivals
import FlowTiming.Proofs.Dynamics.Triggers

/-!
What dynamics count of a span of time: the exact number of samples, cut off once at the greatest count
(`counts_exactly`). Longer spans and further triggers never count for less.
-/

namespace FlowTiming

/-- How often a period fits into a span. A period of zero is nothing to divide by. -/
def Duration.fit? (period span : Duration) : Option ℕ :=
  if period.nanos = 0 then none else some (span.nanos / period.nanos)

namespace Trigger

variable (t : Trigger) (span : Duration)

/-- Samples within a span, with nothing in the place of a division by zero. -/
def samplesOver? : Option Count :=
  if t.isBurst then some t.count else (t.period.fit? span).map (Count.ofNat · * t.count)

theorem samplesOver?_eq : t.samplesOver? span = some (t.samplesOver span) := by
  unfold samplesOver? samplesOver
  split
  case isTrue => rfl
  case isFalse hburst =>
    have hperiod := t.isBurst_eq_false.mp (Bool.eq_false_of_not_eq_true hburst)
    rw [Duration.fit?, if_neg hperiod.ne', Option.map_some]

theorem counted_eq : t.counted span =
    if t.period.nanos = 0 then t.count.toNat else span.nanos / t.period.nanos * t.count.toNat := by
  simp only [counted, isBurst, beq_iff_eq]

variable {span} {later : Duration}

theorem counted_le_of_le (h : span ≤ later) : t.counted span ≤ t.counted later := by
  unfold counted
  split
  case isTrue => exact le_refl _
  case isFalse => exact Nat.mul_le_mul_right _ (Nat.div_le_div_right h)

end Trigger

namespace PortDynamics

variable {d d' declared : PortDynamics} {span span' later : Duration}

/-- Samples within a span, with nothing in the place of a division by zero. -/
def sampleCount? (d : PortDynamics) (span : Duration) : Option Count :=
  (d.triggers.toList.mapM (Trigger.samplesOver? · span)).map (·.foldl (· + ·) 0)

theorem sampleCount?_eq (d : PortDynamics) (span : Duration) :
    d.sampleCount? span = some (d.sampleCount span) := by
  have hall : d.triggers.toList.mapM (Trigger.samplesOver? · span) =
      some (d.triggers.toList.map (·.samplesOver span)) := by
    simp only [Trigger.samplesOver?_eq]
    exact List.mapM_pure
  rw [sampleCount?, hall, Option.map_some, sampleCount]

theorem sampleCount_le (h : d.total (·.counted span) ≤ d'.total (·.counted span')) :
    d.sampleCount span ≤ d'.sampleCount span' := by
  rw [Count.le_def, sampleCount_eq, sampleCount_eq, Count.toNat_ofNat, Count.toNat_ofNat]
  exact min_le_min_right _ h

theorem queueSize_le (h : d.total (·.counted span) ≤ d'.total (·.counted span'))
    (hsize : d.sampleSize ≤ d'.sampleSize) : d.queueSize span ≤ d'.queueSize span' := by
  have hqueue := Nat.mul_le_mul (Nat.succ_le_succ h) hsize
  rw [Count.le_def, queueSize_eq, queueSize_eq, Count.toNat_ofNat, Count.toNat_ofNat]
  exact min_le_min_right _ hqueue

theorem total_le (h : ∀ g ∈ declared.triggers, g ∈ d.triggers) (f : Trigger → ℕ) :
    declared.total f ≤ d.total f := by
  rw [declared.total_eq_sum]
  apply d.sum_le_total
  intro g hg _
  rw [List.mem_toFinset, Std.ExtTreeSet.mem_toList] at hg
  exact h g hg

/-- Whether dynamics have all triggers of others and so count no fewer samples. They need no smaller
queue where their samples are not smaller. -/
structure Covers (d declared : PortDynamics) : Prop where
  triggers : ∀ g ∈ declared.triggers, g ∈ d.triggers
  samples : ∀ span, declared.sampleCount span ≤ d.sampleCount span
  queue : declared.sampleSize ≤ d.sampleSize → ∀ span, declared.queueSize span ≤ d.queueSize span

theorem covers_of_subset (h : ∀ g ∈ declared.triggers, g ∈ d.triggers) : d.Covers declared where
  triggers := h
  samples span := sampleCount_le (total_le h (·.counted span))
  queue hsize span := queueSize_le (total_le h (·.counted span)) hsize

theorem covers_merge (d other : PortDynamics) : (d.merge other).Covers d :=
  covers_of_subset fun _ hg => mem_merge.mpr (.inl hg)

theorem covers_addTrigger (d : PortDynamics) (t : Trigger) : (d.addTrigger t).Covers d :=
  covers_of_subset fun g hg => (d.mem_addTrigger t g).mpr (.inl hg)

theorem total_counted_le_of_le (d : PortDynamics) (h : span ≤ later) :
    d.total (·.counted span) ≤ d.total (·.counted later) :=
  List.sum_le_sum fun t _ => t.counted_le_of_le h

theorem sampleSize_le_queueSize (d : PortDynamics) (span : Duration) : d.sampleSize ≤ d.queueSize span := by
  have hone := Nat.le_mul_of_pos_left d.sampleSize.toNat (Nat.succ_pos (d.total (·.counted span)))
  rw [Count.le_def, queueSize_eq, Count.toNat_ofNat]
  exact le_min hone d.sampleSize.toNat_le

/-- How samples are counted that are `exact` many without a greatest count. -/
structure Counts (d : PortDynamics) (span : Duration) (exact : ℕ) : Prop where
  divided : d.sampleCount? span = some (d.sampleCount span)
  samples : (d.sampleCount span).toNat = min (2 ^ 64 - 1) exact
  queue : (d.queueSize span).toNat = min (2 ^ 64 - 1) ((1 + exact) * d.sampleSize.toNat)
  sampleSize : d.sampleSize ≤ d.queueSize span
  later : ∀ later, span ≤ later →
    d.sampleCount span ≤ d.sampleCount later ∧ d.queueSize span ≤ d.queueSize later
  more : ∀ d' : PortDynamics, (∀ t ∈ d.triggers, t ∈ d'.triggers) →
    d.sampleCount span ≤ d'.sampleCount span ∧
      (d.sampleSize ≤ d'.sampleSize → d.queueSize span ≤ d'.queueSize span)
  merged : ∀ other, d.sampleCount span ≤ (d.merge other).sampleCount span ∧
    d.queueSize span ≤ (d.merge other).queueSize span
  added : ∀ t, d.sampleCount span ≤ (d.addTrigger t).sampleCount span ∧
    d.queueSize span ≤ (d.addTrigger t).queueSize span

theorem counts_exactly (d : PortDynamics) (span : Duration) :
    d.Counts span (d.total fun t =>
      if t.period.nanos = 0 then t.count.toNat else span.nanos / t.period.nanos * t.count.toNat) := by
  simp only [← Trigger.counted_eq]
  constructor
  case divided => exact d.sampleCount?_eq span
  case samples =>
    rw [sampleCount_eq, Count.toNat_ofNat, min_comm]
    rfl
  case queue =>
    rw [queueSize_eq, Count.toNat_ofNat, min_comm, Nat.add_comm 1]
    rfl
  case sampleSize => exact d.sampleSize_le_queueSize span
  case later =>
    intro later h
    have htotal := d.total_counted_le_of_le h
    exact ⟨sampleCount_le htotal, queueSize_le htotal (Nat.le_refl _)⟩
  case more =>
    intro d' h
    have hcovers := covers_of_subset h
    exact ⟨hcovers.samples span, fun hsize => hcovers.queue hsize span⟩
  case merged =>
    intro other
    exact ⟨(d.covers_merge other).samples span, (d.covers_merge other).queue (Nat.le_refl _) span⟩
  case added =>
    intro t
    have hsize : d.sampleSize ≤ (d.addTrigger t).sampleSize := Nat.le_of_eq (by rw [sampleSize_addTrigger])
    exact ⟨(d.covers_addTrigger t).samples span, (d.covers_addTrigger t).queue hsize span⟩

end PortDynamics

end FlowTiming
