import FlowTiming.Proofs.Dynamics.Resampling

/-!
Any number of dynamics, made, added to, merged and resampled in any order. Triggers only ever come to
dynamics, and what an operation answers tells whether any did.
-/

namespace FlowTiming

namespace Trigger

def Before (a b : Trigger) : Prop :=
  a.source < b.source ∨ a.source = b.source ∧
    (a.period.nanos < b.period.nanos ∨ a.period = b.period ∧ a.count.toNat < b.count.toNat)

theorem before_iff {a b : Trigger} : a.Before b ↔ compare a b = .lt := by
  have hsource : compare a.source b.source = .lt ↔ a.source < b.source := compareOfLessAndEq_eq_lt
  have hperiod : compare a.period b.period = .lt ↔ a.period.nanos < b.period.nanos := Nat.compare_eq_lt
  have hcount : compare a.count b.count = .lt ↔ a.count.toNat < b.count.toNat := Nat.compare_eq_lt
  simp only [compare_def, Ordering.then_eq_lt, hsource, hperiod, hcount, Std.compare_eq_iff_eq, Before]

end Trigger

namespace PortDynamics

variable {d d' start : PortDynamics} {t g : Trigger}

structure WellFormed (d : PortDynamics) : Prop where
  sampleSize : 1 ≤ d.sampleSize.toNat
  counts : ∀ t ∈ d.triggers, 1 ≤ t.count.toNat

theorem before_toList (d : PortDynamics) : d.triggers.toList.Pairwise Trigger.Before :=
  Std.ExtTreeSet.ordered_toList.imp Trigger.before_iff.mpr

structure Extends (d start : PortDynamics) (brought : Trigger → Prop) : Prop where
  name : d.name = start.name
  sampleSize : d.sampleSize = start.sampleSize
  triggers : ∀ g, g ∈ d.triggers ↔ g ∈ start.triggers ∨ brought g

theorem extends_self {brought : Trigger → Prop} (h : ∀ g, ¬ brought g) : d.Extends d brought :=
  ⟨rfl, rfl, fun g => (or_iff_left (h g)).symm⟩

theorem extends_addTrigger (d : PortDynamics) (t : Trigger) :
    (d.addTrigger t).Extends d fun g => t.count.toNat ≠ 0 ∧ t = g :=
  ⟨d.name_addTrigger t, d.sampleSize_addTrigger t, d.mem_addTrigger t⟩

theorem extends_merge (d other : PortDynamics) : (d.merge other).Extends d (· ∈ other.triggers) :=
  ⟨rfl, rfl, fun _ => mem_merge⟩

theorem Extends.wellFormed {brought : Trigger → Prop} (h : d.Extends start brought) (hstart : start.WellFormed)
    (hbrought : ∀ g, brought g → 1 ≤ g.count.toNat) : d.WellFormed where
  sampleSize := h.sampleSize ▸ hstart.sampleSize
  counts g hg := by
    rcases (h.triggers g).mp hg with hg | hg
    · exact hstart.counts g hg
    · exact hbrought g hg

/-! ### Answers -/

/-- Whether an answer tells what a change did: there are more triggers, or nothing has changed. -/
def Tells (answer : Bool) (d d' : PortDynamics) : Prop :=
  (answer = true ↔ d.triggers.size < d'.triggers.size) ∧ (answer = false ↔ d' = d)

theorem Extends.tells {brought : Trigger → Prop} {answer : Bool} (h : d'.Extends d brought)
    (hanswer : answer = true ↔ ∃ g, brought g ∧ g ∉ d.triggers) : Tells answer d d' := by
  have hsize : d.triggers.size < d'.triggers.size ↔ ∃ g, brought g ∧ g ∉ d.triggers := by
    rw [size_lt_iff fun g hg => (h.triggers g).mpr (.inl hg)]
    apply exists_congr
    intro g
    rw [h.triggers, and_congr_left_iff]
    exact or_iff_right
  refine ⟨hanswer.trans hsize.symm, ?_⟩
  rw [← Bool.not_eq_true, hanswer]
  constructor
  · intro hnone
    have htriggers : d'.triggers = d.triggers := by
      apply Std.ExtTreeSet.ext_mem
      intro g
      rw [h.triggers, or_iff_left_iff_imp]
      intro hg
      by_contra hnew
      exact hnone ⟨g, hg, hnew⟩
    obtain ⟨hname, hsampleSize, -⟩ := h
    cases d
    cases d'
    simp_all
  · rintro rfl ⟨g, hg, hnew⟩
    exact hnew ((h.triggers g).mpr (.inr hg))

theorem gains_tells (d : PortDynamics) (t : Trigger) : Tells (d.gains t) d (d.addTrigger t) := by
  apply (d.extends_addTrigger t).tells
  simp [gains, ← Std.ExtTreeSet.contains_iff_mem]

theorem growsBy_tells (d other : PortDynamics) : Tells (d.growsBy other) d (d.merge other) := by
  apply (d.extends_merge other).tells
  simp [growsBy, ← Std.ExtTreeSet.contains_iff_mem]

/-! ### Merging -/

theorem triggers_merge_self (d : PortDynamics) : (d.merge d).triggers = d.triggers := by
  apply Std.ExtTreeSet.ext_mem
  intro g
  rw [mem_merge, or_self]

theorem triggers_merge_comm (d d' : PortDynamics) : (d.merge d').triggers = (d'.merge d).triggers := by
  apply Std.ExtTreeSet.ext_mem
  intro g
  rw [mem_merge, mem_merge, or_comm]

theorem triggers_merge_assoc (d d' d'' : PortDynamics) :
    ((d.merge d').merge d'').triggers = (d.merge (d'.merge d'')).triggers := by
  apply Std.ExtTreeSet.ext_mem
  intro g
  simp only [mem_merge, or_assoc]

end PortDynamics

/-- Operations on dynamics. Each of these is known by its place in the order in which they were made. -/
inductive Operation where
  | create (name : String) (sampleSize : Count)
  | add (place : Nat) (t : Trigger)
  | merge (place other : Nat)
  | resample (place : Nat) (span : Duration)

namespace Operation

/-- All dynamics after an operation. One that speaks of dynamics not made yet does nothing. -/
def apply (all : List PortDynamics) : Operation → List PortDynamics
  | create name sampleSize => all ++ [.empty name sampleSize]
  | add place t => all.modify place (·.addTrigger t)
  | merge place other => all.modify place fun d => (all[other]?).elim d d.merge
  | resample place span => all ++ ((all[place]?).map (·.sampledAt span)).toList

def run (operations : List Operation) : List PortDynamics := operations.foldl apply []

def Makes (all : List PortDynamics) (d : PortDynamics) : Operation → Prop
  | create name sampleSize => d.name = name ∧ d.sampleSize = max sampleSize 1 ∧ ∀ g, g ∉ d.triggers
  | resample place span => ∃ source, all[place]? = some source ∧ d.name = source.name ∧
      d.sampleSize = source.sampleSize ∧
      ∀ g, g ∈ d.triggers ↔ source.isEmpty = false ∧ g = source.resampled span
  | add .. | merge .. => False

def Brings (all : List PortDynamics) (i : Nat) (g : Trigger) : Operation → Prop
  | add place t => place = i ∧ t.count.toNat ≠ 0 ∧ t = g
  | merge place other => place = i ∧ ∃ d, all[other]? = some d ∧ g ∈ d.triggers
  | create .. | resample .. => False

variable {all : List PortDynamics} {op : Operation} {i : Nat} {d : PortDynamics} {g : Trigger}
  {before operations : List Operation}

/-! ### One operation -/

theorem apply_kept (op : Operation) (h : all[i]? = some d) :
    ∃ d', (op.apply all)[i]? = some d' ∧ d'.Extends d fun g => op.Brings all i g := by
  have hlt : i < all.length := (List.getElem?_eq_some_iff.mp h).1
  cases op with
  | create name sampleSize =>
    rw [apply, List.getElem?_append_left hlt]
    exact ⟨d, h, PortDynamics.extends_self fun _ => id⟩
  | resample place span =>
    rw [apply, List.getElem?_append_left hlt]
    exact ⟨d, h, PortDynamics.extends_self fun _ => id⟩
  | add place t =>
    rw [apply, List.getElem?_modify, h]
    by_cases hi : place = i
    · refine ⟨d.addTrigger t, by simp [hi], ?_⟩
      simpa [Brings, hi] using d.extends_addTrigger t
    · exact ⟨d, by simp [hi], PortDynamics.extends_self fun _ hg => hi hg.1⟩
  | merge place other =>
    rw [apply, List.getElem?_modify, h]
    by_cases hi : place = i
    · cases ho : all[other]? with
      | none => exact ⟨d, by simp, PortDynamics.extends_self (by simp [Brings, ho])⟩
      | some o =>
        refine ⟨d.merge o, by simp [hi], ?_⟩
        simpa [Brings, hi, ho] using d.extends_merge o
    · exact ⟨d, by simp [hi], PortDynamics.extends_self fun _ hg => hi hg.1⟩

theorem apply_made (hall : ∀ d ∈ all, d.WellFormed) (hnew : all.length ≤ i)
    (h : (op.apply all)[i]? = some d) : all.length = i ∧ op.Makes all d := by
  have hlast {made : PortDynamics} (h : (all ++ [made])[i]? = some d) : all.length = i ∧ made = d := by
    rw [List.getElem?_append_right hnew, List.getElem?_singleton] at h
    split at h
    case isTrue hi => exact ⟨by omega, Option.some.inj h⟩
    case isFalse => contradiction
  cases op with
  | create name sampleSize =>
    obtain ⟨hi, rfl⟩ := hlast h
    exact ⟨hi, rfl, rfl, by simp [PortDynamics.empty]⟩
  | resample place span =>
    rw [apply] at h
    cases hplace : all[place]? with
    | none =>
      rw [hplace, Option.map_none, Option.toList_none, List.append_nil, List.getElem?_eq_none hnew] at h
      contradiction
    | some source =>
      rw [hplace] at h
      obtain ⟨hi, rfl⟩ := hlast h
      have hsize := (hall source (List.mem_of_getElem? hplace)).sampleSize
      obtain ⟨hname, hmax⟩ := PortDynamics.name_ofTriggers source.name source.sampleSize
        (if source.isEmpty then [] else [source.resampled span])
      exact ⟨hi, source, hplace, hname, hmax.trans (Count.max_one hsize),
        fun g => PortDynamics.mem_sampledAt hsize⟩
  | add | merge =>
    rw [apply, List.getElem?_modify, List.getElem?_eq_none hnew] at h
    contradiction

theorem length_apply (h : op.Makes all d) : (op.apply all).length = all.length + 1 := by
  cases op with
  | create name sampleSize => simp [apply]
  | resample place span =>
    obtain ⟨source, hplace, -⟩ := h
    simp [apply, hplace]
  | add | merge => exact h.elim

theorem Makes.wellFormed (hall : ∀ d ∈ all, d.WellFormed) (h : op.Makes all d) : d.WellFormed := by
  cases op with
  | create name sampleSize =>
    obtain ⟨-, hsize, hnone⟩ := h
    exact ⟨by simp [hsize], fun g hg => absurd hg (hnone g)⟩
  | resample place span =>
    obtain ⟨source, hplace, -, hsize, htriggers⟩ := h
    have hsource := (hall source (List.mem_of_getElem? hplace)).sampleSize
    refine ⟨hsize ▸ hsource, fun g hg => ?_⟩
    obtain ⟨-, rfl⟩ := (htriggers g).mp hg
    exact PortDynamics.count_resampled hsource
  | add | merge => exact h.elim

theorem Brings.positive (hall : ∀ d ∈ all, d.WellFormed) (h : op.Brings all i g) : 1 ≤ g.count.toNat := by
  cases op with
  | add place t =>
    obtain ⟨-, hcount, rfl⟩ := h
    exact Nat.pos_of_ne_zero hcount
  | merge place other =>
    obtain ⟨-, o, ho, hg⟩ := h
    exact (hall o (List.mem_of_getElem? ho)).counts g hg
  | create | resample => exact h.elim

theorem apply_wellFormed (hall : ∀ d ∈ all, d.WellFormed) (op : Operation) :
    ∀ d ∈ op.apply all, d.WellFormed := by
  intro d hd
  obtain ⟨i, hi⟩ := List.mem_iff_getElem?.mp hd
  rcases Nat.lt_or_ge i all.length with hlt | hnew
  · obtain ⟨d', hd', hext⟩ := apply_kept op (List.getElem?_eq_getElem hlt)
    obtain rfl := Option.some.inj (hi.symm.trans hd')
    exact hext.wellFormed (hall _ (List.getElem_mem hlt)) fun g hg => hg.positive hall
  · exact (apply_made hall hnew hi).2.wellFormed hall

/-! ### Runs -/

theorem run_concat (operations : List Operation) (op : Operation) :
    run (operations ++ [op]) = op.apply (run operations) := List.foldl_append

theorem run_wellFormed (operations : List Operation) : ∀ d ∈ run operations, d.WellFormed :=
  List.foldlRecOn (motive := fun all => ∀ d ∈ all, d.WellFormed) operations apply (by simp)
    fun _ hall op _ => apply_wellFormed hall op

structure Later (d start : PortDynamics) : Prop where
  name : d.name = start.name
  sampleSize : d.sampleSize = start.sampleSize
  triggers : ∀ g ∈ start.triggers, g ∈ d.triggers

theorem run_later {start : PortDynamics} (h : before <+: operations) (hstart : (run before)[i]? = some start) :
    ∃ d, (run operations)[i]? = some d ∧ Later d start := by
  obtain ⟨rest, rfl⟩ := h
  rw [run, List.foldl_append]
  refine List.foldlRecOn (motive := fun all : List PortDynamics => ∃ d, all[i]? = some d ∧ Later d start)
    rest apply ⟨start, hstart, rfl, rfl, fun _ => id⟩ ?_
  rintro all ⟨d, hd, hlater⟩ op -
  obtain ⟨d', hd', hext⟩ := apply_kept op hd
  exact ⟨d', hd', hext.name.trans hlater.name, hext.sampleSize.trans hlater.sampleSize,
    fun g hg => (hext.triggers g).mpr (.inl (hlater.triggers g hg))⟩

theorem length_run_le (h : before <+: operations) : (run before).length ≤ (run operations).length := by
  by_contra hlt
  obtain ⟨d, hd, -⟩ := run_later h (List.getElem?_eq_getElem (Nat.not_le.mp hlt))
  simp at hd

/-- Whether a run brings a trigger to the dynamics at a place, once they are made. -/
def RunBrings (operations : List Operation) (i : Nat) (g : Trigger) : Prop :=
  ∃ before op, before ++ [op] <+: operations ∧ i < (run before).length ∧ op.Brings (run before) i g

theorem runBrings_concat (h : i < (run operations).length) :
    RunBrings (operations ++ [op]) i g ↔ RunBrings operations i g ∨ op.Brings (run operations) i g := by
  rw [RunBrings, exists_concat_isPrefix (P := fun before op => i < (run before).length ∧
    op.Brings (run before) i g)]
  exact or_congr_right (and_iff_right h)

theorem not_runBrings_concat (h : (run operations).length ≤ i) : ¬ RunBrings (operations ++ [op]) i g := by
  rintro ⟨before, op', hprefix, hlt, -⟩
  -- nothing goes, so what comes later than all there is was not there before
  have hbefore : before <+: operations := by
    rcases List.prefix_concat_iff.mp hprefix with he | hprefix
    · obtain ⟨rfl, -⟩ := List.concat_inj.mp (by simpa using he)
      exact List.prefix_refl _
    · exact (List.prefix_append _ _).trans hprefix
  have := length_run_le hbefore
  omega

/-- Whether dynamics at a place are as some operation made them, with all that was brought since. -/
def Stems (operations : List Operation) (i : Nat) (d : PortDynamics) : Prop :=
  ∃ before op start, before ++ [op] <+: operations ∧ (run before).length = i ∧
    op.Makes (run before) start ∧ d.Extends start (RunBrings operations i)

theorem run_stems (h : (run operations)[i]? = some d) : Stems operations i d := by
  induction operations using List.reverseRecOn generalizing d with
  | nil => simp [run] at h
  | append_singleton operations op ih =>
    rw [run_concat] at h
    -- the dynamics were there before, or the last operation made them
    rcases Nat.lt_or_ge i (run operations).length with hlt | hnew
    · obtain ⟨d', hd', hext⟩ := apply_kept op (List.getElem?_eq_getElem hlt)
      obtain rfl := Option.some.inj (h.symm.trans hd')
      obtain ⟨before, op', start, hprefix, hlength, hmakes, hstart⟩ := ih (List.getElem?_eq_getElem hlt)
      refine ⟨before, op', start, hprefix.trans (List.prefix_append _ _), hlength, hmakes,
        hext.name.trans hstart.name, hext.sampleSize.trans hstart.sampleSize, fun g => ?_⟩
      rw [hext.triggers, hstart.triggers, runBrings_concat hlt, or_assoc]
    · obtain ⟨hlength, hmakes⟩ := apply_made (run_wellFormed operations) hnew h
      exact ⟨operations, op, d, List.prefix_refl _, hlength, hmakes,
        PortDynamics.extends_self fun _ => not_runBrings_concat hnew⟩

theorem run_added (t : Trigger) (h : (run operations)[i]? = some d) :
    (run (operations ++ [.add i t]))[i]? = some (d.addTrigger t) := by
  rw [run_concat, apply, List.getElem?_modify, h]
  simp

theorem run_merged {j : Nat} {other : PortDynamics} (h : (run operations)[i]? = some d)
    (hother : (run operations)[j]? = some other) :
    (run (operations ++ [.merge i j]))[i]? = some (d.merge other) := by
  rw [run_concat, apply, List.getElem?_modify, h, hother]
  simp

structure Retains (operations : List Operation) : Prop where
  wellFormed : ∀ d ∈ run operations, d.WellFormed
  ordered : ∀ d ∈ run operations, d.triggers.toList.Pairwise Trigger.Before
  stems : ∀ i d, (run operations)[i]? = some d → Stems operations i d
  later : ∀ (before : List Operation) (i : Nat) (start : PortDynamics), before <+: operations →
    (run before)[i]? = some start → ∃ d, (run operations)[i]? = some d ∧ Later d start
  made : ∀ op d, op.Makes (run operations) d →
    (run (operations ++ [op])).length = (run operations).length + 1
  added : ∀ i t d, (run operations)[i]? = some d →
    ∃ d', (run (operations ++ [.add i t]))[i]? = some d' ∧ PortDynamics.Tells (d.gains t) d d'
  merged : ∀ i j d other, (run operations)[i]? = some d → (run operations)[j]? = some other →
    ∃ d', (run (operations ++ [.merge i j]))[i]? = some d' ∧ PortDynamics.Tells (d.growsBy other) d d'

/-- Dynamics keep their name and sample size, and have the triggers they started with and those that were
brought to them since. In which order dynamics are merged makes no difference to their triggers. -/
theorem run_retains (operations : List Operation) : Retains operations ∧ ∀ d d' d'' : PortDynamics,
    (d.merge d).triggers = d.triggers ∧ (d.merge d').triggers = (d'.merge d).triggers ∧
      ((d.merge d').merge d'').triggers = (d.merge (d'.merge d'')).triggers := by
  refine ⟨?_, fun d d' d'' =>
    ⟨d.triggers_merge_self, d.triggers_merge_comm d', d.triggers_merge_assoc d' d''⟩⟩
  constructor
  case wellFormed => exact run_wellFormed operations
  case ordered => exact fun d _ => d.before_toList
  case stems => exact fun _ _ => run_stems
  case later => exact fun _ _ _ hprefix => run_later hprefix
  case made =>
    intro op d h
    rw [run_concat]
    exact length_apply h
  case added => exact fun _ t d h => ⟨_, run_added t h, d.gains_tells t⟩
  case merged => exact fun _ _ d other h hother => ⟨_, run_merged h hother, d.growsBy_tells other⟩

end Operation

end FlowTiming
