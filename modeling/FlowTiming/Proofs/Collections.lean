import Std.Data.ExtTreeMap
import Std.Data.ExtTreeSet
import Mathlib.Data.Finset.Card
import Mathlib.Data.List.Induction
import Mathlib.Tactic.Common

/-!
Members of maps, and properties of folds over a list from what one step does to them.
-/

namespace FlowTiming

section Maps

variable {α β : Type} [Ord α] [Std.TransOrd α] {m : Std.ExtTreeMap α β}

theorem mem_iff_getElem? {a : α} : a ∈ m ↔ ∃ v, m[a]? = some v := by
  rw [Std.ExtTreeMap.mem_iff_isSome_getElem?, Option.isSome_iff_exists]

theorem mem_of_getElem? {a : α} {v : β} (h : m[a]? = some v) : a ∈ m := mem_iff_getElem?.mpr ⟨v, h⟩

theorem mem_toList_iff [Std.LawfulEqOrd α] {e : α × β} : e ∈ m.toList ↔ m[e.1]? = some e.2 :=
  Std.ExtTreeMap.mem_toList_iff_getElem?_eq_some

theorem mem_of_mem_toList [Std.LawfulEqOrd α] {e : α × β} (h : e ∈ m.toList) : e.1 ∈ m :=
  mem_of_getElem? (mem_toList_iff.mp h)

theorem nodup_toList (s : Std.ExtTreeSet α) : s.toList.Nodup := by
  refine s.distinct_toList.imp fun h e => h ?_
  rw [e]
  exact Std.ReflCmp.compare_self

theorem isEmpty_iff_not_mem [Std.LawfulEqOrd α] {s : Std.ExtTreeSet α} :
    s.isEmpty = true ↔ ∀ a, a ∉ s := by
  rw [Std.ExtTreeSet.isEmpty_iff]
  constructor
  · rintro rfl a
    exact Std.ExtTreeSet.not_mem_empty
  · intro h
    apply Std.ExtTreeSet.ext_mem
    intro a
    simp [h a]

theorem size_lt_iff [Std.LawfulEqOrd α] {s s' : Std.ExtTreeSet α} (h : ∀ a ∈ s, a ∈ s') :
    s.size < s'.size ↔ ∃ a ∈ s', a ∉ s := by
  classical
  have hcard (s : Std.ExtTreeSet α) : s.size = s.toList.toFinset.card := by
    rw [List.toFinset_card_of_nodup (nodup_toList s), Std.ExtTreeSet.length_toList]
  rw [hcard, hcard]
  constructor
  · intro hlt
    obtain ⟨a, ha, hnew⟩ := Finset.exists_mem_notMem_of_card_lt_card hlt
    exact ⟨a, by simpa using ha, by simpa using hnew⟩
  · rintro ⟨a, ha, hnew⟩
    have hsub : s.toList.toFinset ⊆ s'.toList.toFinset := by
      intro b hb
      simpa using h b (by simpa using hb)
    refine Finset.card_lt_card (Finset.ssubset_iff_of_subset hsub |>.mpr ⟨a, ?_, ?_⟩)
    · simpa using ha
    · simpa using hnew

theorem eq_of_ordered_on (f : β → α) {l l' : List β} (h : l.Pairwise fun b b' => compare (f b) (f b') = .lt)
    (h' : l'.Pairwise fun b b' => compare (f b) (f b') = .lt) (hmem : ∀ b, b ∈ l ↔ b ∈ l') : l = l' := by
  have hne {b b' : β} (hlt : compare (f b) (f b') = .lt) : b ≠ b' := by
    rintro rfl
    have hself : compare (f b) (f b) = .eq := Std.ReflCmp.compare_self
    rw [hself] at hlt
    contradiction
  refine ((List.perm_ext_iff_of_nodup (h.imp hne) (h'.imp hne)).mpr hmem).eq_of_pairwise ?_ h h'
  intro b b' _ _ hlt hlt'
  rw [Std.OrientedOrd.eq_swap, hlt'] at hlt
  contradiction

end Maps

theorem foldl_iff_of_keeps {α β : Type} {f : β → α → β} (K P : β → Prop) (Q : α → Prop)
    {items : List α} {b : β} (hb : K b) (hkeep : ∀ b, ∀ a ∈ items, K b → K (f b a))
    (h : ∀ b, ∀ a ∈ items, K b → (P (f b a) ↔ P b ∨ Q a)) :
    P (items.foldl f b) ↔ P b ∨ ∃ a ∈ items, Q a := by
  induction items generalizing b with
  | nil => simp
  | cons a items ih =>
    rw [List.foldl_cons, ih (hkeep b a (.head _) hb) (fun b c hc => hkeep b c (.tail _ hc))
      (fun b c hc => h b c (.tail _ hc)), h b a (.head _) hb, or_assoc]
    simp only [List.mem_cons, exists_eq_or_imp]

theorem foldl_iff {α β : Type} {f : β → α → β} (P : β → Prop) (Q : α → Prop)
    (h : ∀ b a, P (f b a) ↔ P b ∨ Q a) (items : List α) (b : β) :
    P (items.foldl f b) ↔ P b ∨ ∃ a ∈ items, Q a :=
  foldl_iff_of_keeps (fun _ => True) P Q trivial (fun _ _ _ => id) fun b a _ _ => h b a

/-- Two folds stay related if the one follows the other on some items and has none of the rest. -/
theorem foldl_filter_rel {α β γ : Type} {R : β → γ → Prop} {own : α → Bool} {f : β → α → β}
    {g : γ → α → γ} {items : List α} {b : β} {c : γ} (h : R b c)
    (hown : ∀ a ∈ items, own a = true → ∀ b c, R b c → R (f b a) (g c a))
    (hrest : ∀ a ∈ items, own a = false → ∀ b c, R b c → R b (g c a)) :
    R ((items.filter own).foldl f b) (items.foldl g c) := by
  rw [List.foldl_filter]
  refine List.foldl_rel h fun a ha b c hbc => ?_
  cases hc : own a with
  | true => exact hown a ha hc b c hbc
  | false => exact hrest a ha hc b c hbc

theorem foldl_reaches_of_keeps {α β : Type} {f : β → α → β} (K P : β → Prop) {items : List α} {a : α}
    {b : β} (ha : a ∈ items) (hb : K b) (hK : ∀ b, ∀ a ∈ items, K b → K (f b a))
    (hkeep : ∀ b, ∀ a ∈ items, P b → P (f b a)) (hstep : ∀ b, K b → P (f b a)) :
    P (items.foldl f b) := by
  induction items generalizing b with
  | nil => simp at ha
  | cons c items ih =>
    have hrest (b : β) (a : α) (ha : a ∈ items) (hb : P b) : P (f b a) := hkeep b a (.tail _ ha) hb
    rcases List.mem_cons.mp ha with rfl | ha
    · exact List.foldlRecOn items f (hstep b hb) fun b hb a ha => hrest b a ha hb
    · exact ih ha (hK b c (.head _) hb) (fun b a ha => hK b a (.tail _ ha)) hrest

theorem foldl_reaches {α β : Type} {f : β → α → β} (P : β → Prop) {items : List α} {a : α}
    (ha : a ∈ items) (hkeep : ∀ b, ∀ a ∈ items, P b → P (f b a)) (hstep : ∀ b, P (f b a)) (b : β) :
    P (items.foldl f b) :=
  foldl_reaches_of_keeps (fun _ => True) P ha trivial (fun _ _ _ => id) hkeep fun b _ => hstep b

theorem foldlM_eq_some {α β : Type} {f : β → α → Option β} {g : β → α → β} {items : List α} (b : β)
    (h : ∀ b, ∀ a ∈ items, f b a = some (g b a)) : items.foldlM f b = some (items.foldl g b) := by
  induction items generalizing b with
  | nil => rfl
  | cons a items ih =>
    rw [List.foldlM_cons, h b a (.head _), List.foldl_cons]
    exact ih _ fun b a ha => h b a (.tail _ ha)

theorem getElem?_foldl_insert {α β γ : Type} [Ord α] [Std.TransOrd α] [Std.LawfulEqOrd α] (f : γ → β)
    {items : List (α × γ)} (h : items.Pairwise fun e e' => e.1 ≠ e'.1) {k : α} {v : β} :
    (items.foldl (fun m e => m.insert e.1 (f e.2)) (∅ : Std.ExtTreeMap α β))[k]? = some v ↔
      ∃ e ∈ items, e.1 = k ∧ f e.2 = v := by
  induction items using List.reverseRecOn with
  | nil => simp
  | append_singleton items e ih =>
    obtain ⟨hitems, -, hne⟩ := List.pairwise_append.mp h
    rw [List.foldl_append, List.foldl_cons, List.foldl_nil, Std.ExtTreeMap.getElem?_insert]
    split
    case isTrue he =>
      obtain rfl := Std.compare_eq_iff_eq.mp he
      have hnone : ¬ ∃ e' ∈ items, e'.1 = e.1 ∧ f e'.2 = v := fun ⟨e', he', hk, _⟩ =>
        hne e' he' e (.head _) hk
      simp only [List.mem_append, or_and_right, exists_or, hnone, false_or]
      simp
    case isFalse he =>
      rw [Std.compare_eq_iff_eq] at he
      rw [ih hitems]
      simp only [List.mem_append, List.mem_singleton, or_and_right, exists_or, exists_eq_left, he,
        false_and, or_false]

theorem mem_foldl_insert {α β : Type} [Ord α] [Std.TransOrd α] [Std.LawfulEqOrd α] (f : β → α)
    (items : List β) (s : Std.ExtTreeSet α) (a : α) :
    a ∈ items.foldl (fun s b => s.insert (f b)) s ↔ a ∈ s ∨ ∃ b ∈ items, f b = a := by
  refine foldl_iff (f := fun (s : Std.ExtTreeSet α) b => s.insert (f b)) (fun s => a ∈ s)
    (fun b => f b = a) ?_ items s
  intro s b
  rw [Std.ExtTreeSet.mem_insert, Std.compare_eq_iff_eq, or_comm]

theorem exists_concat_isPrefix {α : Type} {P : List α → α → Prop} {l : List α} {x : α} :
    (∃ before a, before ++ [a] <+: l ++ [x] ∧ P before a) ↔
      (∃ before a, before ++ [a] <+: l ∧ P before a) ∨ P l x := by
  constructor
  · rintro ⟨before, a, hprefix, h⟩
    rcases List.prefix_concat_iff.mp hprefix with he | hprefix
    · obtain ⟨rfl, rfl⟩ := List.concat_inj.mp (by simpa using he)
      exact .inr h
    · exact .inl ⟨before, a, hprefix, h⟩
  · rintro (⟨before, a, hprefix, h⟩ | h)
    · exact ⟨before, a, hprefix.trans (List.prefix_append _ _), h⟩
    · exact ⟨l, x, List.prefix_refl _, h⟩

end FlowTiming
