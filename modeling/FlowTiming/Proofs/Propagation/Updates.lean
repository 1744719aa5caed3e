import FlowTiming.Flow.Basic
import FlowTiming.Proofs.Dynamics.Triggers
import FlowTiming.Proofs.Propagation.Board
import FlowTiming.Propagation.Table
import Mathlib.Data.Set.Subsingleton
import Mathlib.Order.Defs.PartialOrder

/-!
Runs of updates on a board. Additions never lose anything that is known about a node, and nothing
changes any more about a node that is final.
-/

namespace FlowTiming

/-- Information that is only ever added to. It is said to grow just if it changes. -/
class LawfulInformation (ι : Type) [PartialOrder ι] [Information ι] : Prop where
  le_merge (known i : ι) : known ≤ Information.merge known i
  grows_iff (known i : ι) : Information.grows known i = true ↔ Information.merge known i ≠ known

section Sets

variable {α : Type} [Ord α] [Std.TransOrd α] [Std.LawfulEqOrd α]

instance subsetOrder : PartialOrder (Std.ExtTreeSet α) where
  le s s' := ∀ a ∈ s, a ∈ s'
  le_refl _ _ ha := ha
  le_trans _ _ _ h h' a ha := h' a (h a ha)
  le_antisymm _ _ h h' := Std.ExtTreeSet.ext_mem fun a => ⟨h a, h' a⟩

theorem union_ne_self_iff {s s' : Std.ExtTreeSet α} :
    s ∪ s' ≠ s ↔ (s'.toList.any fun a => !s.contains a) = true := by
  rw [List.any_eq_true]
  constructor
  · intro hne
    by_contra hall
    refine hne (Std.ExtTreeSet.ext_mem fun a => ?_)
    rw [Std.ExtTreeSet.mem_union_iff, or_iff_left_iff_imp]
    intro ha
    by_contra hs
    rw [← Std.ExtTreeSet.contains_iff_mem, Bool.not_eq_true] at hs
    exact hall ⟨a, Std.ExtTreeSet.mem_toList.mpr ha, by simp [hs]⟩
  · rintro ⟨a, ha, hs⟩ he
    have hmem : a ∈ s ∪ s' := Std.ExtTreeSet.mem_union_iff.mpr (.inr (Std.ExtTreeSet.mem_toList.mp ha))
    rw [he, ← Std.ExtTreeSet.contains_iff_mem] at hmem
    simp [hmem] at hs

instance : LawfulInformation (Std.ExtTreeSet α) where
  le_merge _ _ _ ha := Std.ExtTreeSet.mem_union_iff.mpr (.inl ha)
  grows_iff _ _ := union_ne_self_iff.symm

end Sets

instance : PartialOrder PortDynamics where
  le d d' := d.name = d'.name ∧ d.sampleSize = d'.sampleSize ∧ d.triggers ≤ d'.triggers
  le_refl _ := ⟨rfl, rfl, le_refl _⟩
  le_trans _ _ _ h h' := ⟨h.1.trans h'.1, h.2.1.trans h'.2.1, h.2.2.trans h'.2.2⟩
  le_antisymm d d' h h' := by
    obtain ⟨name, size, triggers⟩ := d
    obtain ⟨rfl, rfl, hle⟩ := h
    exact congrArg _ (le_antisymm hle h'.2.2)

instance : LawfulInformation PortDynamics where
  le_merge d other := ⟨rfl, rfl, fun _ ht => PortDynamics.mem_merge.mpr (.inl ht)⟩
  grows_iff d other := by
    refine union_ne_self_iff.symm.trans (not_congr ⟨fun h => ?_, fun h => ?_⟩)
    · exact congrArg (fun triggers => { d with triggers }) h
    · exact congrArg PortDynamics.triggers h

structure Call (τ π ι : Type) where
  node : Node τ π
  update : Update ι

/-- Whether what is known about a node is new, or more than before. -/
inductive Grown {ι : Type} [LT ι] : Option ι → Option ι → Prop
  | created {i : ι} : Grown none (some i)
  | extended {i j : ι} : i < j → Grown (some i) (some j)

namespace Board

variable {τ π ι : Type} [Ord τ] [Ord π] [Std.TransOrd τ] [Std.TransOrd π] [Shown τ] [Shown π]
  [Information ι]

def applyAll (b : Board τ π ι) (calls : List (Call τ π ι)) : Board τ π ι :=
  calls.foldl (fun b c => b.apply c.node c.update) b

/-- What a run of updates leaves alone, what it adds and what it answers, at every place in the run. -/
structure Conserves [PartialOrder ι] (b : Board τ π ι) (calls : List (Call τ π ι)) : Prop where
  frozen : ∀ before, before <+: calls → ∀ x, (b.applyAll before).isFinal x = true →
    (b.applyAll calls).isFinal x = true ∧ (b.applyAll calls).info? x = (b.applyAll before).info? x
  once : ∀ x, {before | before ++ [⟨x, .finalize⟩] <+: calls ∧
    (b.applyAll before).takes x .finalize = true}.Subsingleton
  others : ∀ before c, before ++ [c] <+: calls → ∀ x, x ≠ c.node →
    (b.applyAll (before ++ [c])).isFinal x = (b.applyAll before).isFinal x ∧
      (b.applyAll (before ++ [c])).info? x = (b.applyAll before).info? x
  keeps : ∀ before x i, before ++ [⟨x, .extend i⟩] <+: calls → ∀ y,
    ∀ known ∈ (b.applyAll before).info? y,
      ∃ more ∈ (b.applyAll (before ++ [⟨x, .extend i⟩])).info? y, known ≤ more
  answers : ∀ before x i, before ++ [⟨x, .extend i⟩] <+: calls →
    ((b.applyAll before).takes x (.extend i) = true ↔
      Grown ((b.applyAll before).info? x) ((b.applyAll (before ++ [⟨x, .extend i⟩])).info? x))
  restricts : ∀ before, before <+: calls → ∀ x, (b.applyAll before).finalInfo[x]? =
    if (b.applyAll before).isFinal x = true then (b.applyAll before).info? x else none
  divides : ∀ before, before <+: calls →
    (b.applyAll before).finalInfo ∪ (b.applyAll before).partialInfo = (b.applyAll before).info ∧
      ∀ x ∈ (b.applyAll before).finalInfo, x ∉ (b.applyAll before).partialInfo

theorem applyAll_append (b : Board τ π ι) (calls rest : List (Call τ π ι)) :
    b.applyAll (calls ++ rest) = (b.applyAll calls).applyAll rest := List.foldl_append

theorem applyAll_concat (b : Board τ π ι) (calls : List (Call τ π ι)) (c : Call τ π ι) :
    b.applyAll (calls ++ [c]) = (b.applyAll calls).apply c.node c.update := applyAll_append b calls [c]

variable [Std.LawfulEqOrd τ] [Std.LawfulEqOrd π] {b : Board τ π ι} {x y : Node τ π}
  {calls before : List (Call τ π ι)}

/-! ### One update -/

theorem later_apply (b : Board τ π ι) (x : Node τ π) (u : Update ι) : Later b (b.apply x u) := by
  cases u with
  | replace i => exact (alters_replace b x i).later
  | extend i => exact later_extend b x i
  | finalize => exact later_finalize b x

theorem apply_of_ne (b : Board τ π ι) (h : y ≠ x) (u : Update ι) :
    (b.apply x u).isFinal y = b.isFinal y ∧ (b.apply x u).info? y = b.info? y := by
  cases u with
  | replace i => exact ⟨isFinal_replace b x y i, info?_replace_of_ne b h i⟩
  | extend i => exact ⟨isFinal_extend b x y i, info?_extend_of_ne b h i⟩
  | finalize => exact ⟨isFinal_finalize_of_ne b h, info?_finalize b x y⟩

section Lawful

variable [PartialOrder ι] [LawfulInformation ι]

theorem le_extend {i known : ι} (h : b.info? y = some known) :
    ∃ more, (b.extend x i).info? y = some more ∧ known ≤ more := by
  by_cases hy : y = x
  · subst hy
    cases hf : b.isFinal y with
    | true => exact ⟨known, ((alters_extend b y i).frozen hf).trans h, le_refl known⟩
    | false =>
      rw [info?_extend_self b hf, h]
      exact ⟨_, rfl, LawfulInformation.le_merge known i⟩
  · exact ⟨known, (info?_extend_of_ne b hy i).trans h, le_refl known⟩

theorem takes_extend_iff {i : ι} :
    b.takes x (.extend i) = true ↔ Grown (b.info? x) ((b.extend x i).info? x) := by
  cases hf : b.isFinal x with
  | true =>
    rw [(alters_extend b x i).frozen hf]
    simp only [takes, hf, Bool.not_true, Bool.false_and, Bool.false_eq_true, false_iff]
    intro h
    generalize b.info? x = known at h
    cases h with
    | extended hlt => exact lt_irrefl _ hlt
  | false =>
    rw [info?_extend_self b hf]
    simp only [takes, hf, Bool.not_false, Bool.true_and]
    cases b.info? x with
    | none => exact ⟨fun _ => .created, fun _ => rfl⟩
    | some known =>
      rw [Option.all_some, Option.elim_some, LawfulInformation.grows_iff]
      have hle := LawfulInformation.le_merge known i
      constructor
      · exact fun hne => .extended (lt_of_le_of_ne hle hne.symm)
      · rintro (_ | hlt)
        exact hlt.ne'

end Lawful

/-! ### Final and partial information -/

omit [Shown τ] [Shown π] [Information ι] in
open scoped Classical in
theorem getElem?_foldl_putDown (b : Board τ π ι) (nodes : List (Node τ π))
    (found : Std.ExtTreeMap (Node τ π) ι) : (nodes.foldl b.putDown found)[x]? =
      if x ∈ nodes then (b.info? x).or found[x]? else found[x]? := by
  induction nodes generalizing found with
  | nil => simp
  | cons n nodes ih =>
    have hput : (b.putDown found n)[x]? = if n = x then (b.info? x).or found[x]? else found[x]? := by
      unfold putDown
      by_cases hn : n = x
      · subst hn
        cases b.info? n <;> simp
      · cases b.info? n <;> simp [Std.ExtTreeMap.getElem?_insert, hn]
    rw [List.foldl_cons, ih, hput]
    by_cases hn : n = x
    · subst hn
      cases b.info? n <;> simp
    · simp [hn, Ne.symm hn]

omit [Shown τ] [Shown π] [Information ι] in
theorem getElem?_finalInfo (b : Board τ π ι) (x : Node τ π) :
    b.finalInfo[x]? = if b.isFinal x = true then b.info? x else none := by
  rw [finalInfo, getElem?_foldl_putDown]
  simp [isFinal]

omit [Shown τ] [Shown π] [Information ι] in
theorem getElem?_partialInfo (b : Board τ π ι) (x : Node τ π) :
    b.partialInfo[x]? = if b.isFinal x = true then none else b.info? x := by
  unfold partialInfo info?
  rw [Std.ExtTreeMap.getElem?_filter']
  cases b.info[x]? <;> cases b.isFinal x <;> rfl

omit [Shown τ] [Shown π] [Information ι] in
theorem mem_finalInfo : x ∈ b.finalInfo ↔ b.isFinal x = true ∧ b.isKnown x = true := by
  rw [mem_iff_getElem?, getElem?_finalInfo, isKnown_iff]
  cases b.isFinal x <;> simp

omit [Shown τ] [Shown π] [Information ι] in
theorem mem_partialInfo : x ∈ b.partialInfo ↔ b.isFinal x = false ∧ b.isKnown x = true := by
  rw [mem_iff_getElem?, getElem?_partialInfo, isKnown_iff]
  cases b.isFinal x <;> simp

omit [Shown τ] [Shown π] [Information ι] in
theorem finalInfo_union_partialInfo (b : Board τ π ι) : b.finalInfo ∪ b.partialInfo = b.info := by
  refine Std.ExtTreeMap.ext_getElem? fun x => ?_
  rw [Std.ExtTreeMap.getElem?_union, getElem?_finalInfo, getElem?_partialInfo]
  cases b.isFinal x <;> simp [info?]

omit [Shown τ] [Shown π] [Information ι] in
theorem not_mem_partialInfo (h : x ∈ b.finalInfo) : x ∉ b.partialInfo := by
  intro h'
  simpa [(mem_finalInfo.mp h).1] using (mem_partialInfo.mp h').1

/-! ### Runs -/

theorem later_applyAll (b : Board τ π ι) (calls : List (Call τ π ι)) : Later b (b.applyAll calls) :=
  List.foldlRecOn calls _ (.refl b) fun _ hc c _ => hc.trans (later_apply _ c.node c.update)

theorem later_of_isPrefix (h : before <+: calls) : Later (b.applyAll before) (b.applyAll calls) := by
  obtain ⟨rest, rfl⟩ := h
  rw [applyAll_append]
  exact later_applyAll _ rest

theorem takes_finalize_later (h : before ++ [⟨x, .finalize⟩] <+: calls) :
    (b.applyAll calls).takes x .finalize = false := by
  have hfinal : (b.applyAll (before ++ [⟨x, .finalize⟩])).isFinal x = true := by
    rw [applyAll_concat]
    exact (isFinal_finalize _ x x).mpr (.inl rfl)
  simp [takes, (later_of_isPrefix h).final x hfinal]

/-- Whether a board comes from another one by updates, with anything noted in between. -/
inductive Updated (b : Board τ π ι) : Board τ π ι → Prop
  | refl : Updated b b
  | apply {b' : Board τ π ι} (x : Node τ π) (u : Update ι) : Updated b b' → Updated b (b'.apply x u)
  | note {b' : Board τ π ι} (e : Entry) : Updated b b' → Updated b (b'.note e)

namespace Updated

variable {b' b'' : Board τ π ι}

omit [Std.LawfulEqOrd τ] [Std.LawfulEqOrd π] in
theorem trans (h : b.Updated b') (h' : b'.Updated b'') : b.Updated b'' := by
  induction h' with
  | refl => exact h
  | apply x u _ ih => exact .apply x u ih
  | note e _ ih => exact .note e ih

omit [Std.LawfulEqOrd τ] [Std.LawfulEqOrd π] in
theorem foldl {α : Type} {f : Board τ π ι → α → Board τ π ι}
    (h : ∀ (b : Board τ π ι) a, b.Updated (f b a)) (l : List α) (b : Board τ π ι) :
    b.Updated (l.foldl f b) :=
  List.foldlRecOn l f .refl fun b' hb a _ => hb.trans (h b' a)

theorem later (h : b.Updated b') : b.Later b' := by
  induction h with
  | refl => exact .refl b
  | apply x u _ ih => exact ih.trans (later_apply _ x u)
  | note e _ ih => exact ih.trans (sameFacts_note _ e).later

end Updated

variable [PartialOrder ι] [LawfulInformation ι]

/-- Along every run of updates final nodes stay as they are, an update concerns its own node only,
additions lose nothing and tell whether they added anything, and what is known is divided into what is
final and what is not. -/
theorem applyAll_conserves (b : Board τ π ι) (calls : List (Call τ π ι)) : b.Conserves calls where
  frozen before h x hx := ⟨(later_of_isPrefix h).final x hx, (later_of_isPrefix h).frozen x hx⟩
  once x := by
    rintro before ⟨h, htakes⟩ before' ⟨h', htakes'⟩
    -- of two places in the run one comes first
    have first {p p' : List (Call τ π ι)} (hp : p ++ [⟨x, .finalize⟩] <+: calls)
        (hp' : p' ++ [⟨x, .finalize⟩] <+: calls) (htakes : (b.applyAll p').takes x .finalize = true) :
        p'.length ≤ p.length := by
      by_contra hlt
      have hle : p ++ [⟨x, .finalize⟩] <+: p' :=
        List.prefix_of_prefix_length_le hp ((List.prefix_append p' _).trans hp') (by simp; omega)
      simp [takes_finalize_later hle] at htakes
    have hlen : before.length = before'.length := le_antisymm (first h' h htakes) (first h h' htakes')
    exact (List.prefix_of_prefix_length_le ((List.prefix_append _ _).trans h)
      ((List.prefix_append _ _).trans h') hlen.le).eq_of_length hlen
  others before c _ x hx := by
    rw [applyAll_concat]
    exact apply_of_ne _ hx c.update
  keeps before x i _ y known hknown := by
    rw [applyAll_concat]
    exact le_extend hknown
  answers before x i _ := by
    rw [applyAll_concat]
    exact takes_extend_iff
  restricts before _ := getElem?_finalInfo _
  divides before _ := ⟨finalInfo_union_partialInfo _, fun _ => not_mem_partialInfo⟩

/-- Updates of a port. Those that come after it is final are refused. -/
def belated : List (Call String String (Std.ExtTreeSet String)) :=
  [⟨⟨"reader", some "in"⟩, .replace {"early"}⟩, ⟨⟨"reader", some "in"⟩, .extend {"timely"}⟩,
    ⟨⟨"reader", some "in"⟩, .finalize⟩, ⟨⟨"writer", none⟩, .finalize⟩,
    ⟨⟨"reader", some "in"⟩, .extend {"late"}⟩, ⟨⟨"reader", some "in"⟩, .finalize⟩]

theorem belated_conserves : (empty.Conserves belated) ∧
    (belated.map fun c => (empty.applyAll belated).takes c.node c.update) = List.replicate 6 false ∧
    (empty.applyAll belated).finalInfo.toList.map (fun e => (e.1, e.2.toList)) =
      [(⟨"reader", some "in"⟩, ["early", "timely"])] :=
  ⟨applyAll_conserves empty belated, by decide +kernel, by decide +kernel⟩

end Board

end FlowTiming
