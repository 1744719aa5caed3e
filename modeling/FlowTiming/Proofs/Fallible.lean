import FlowTiming.Proofs.Collections
import Mathlib.Data.List.Forall2

/-!
Computations that may fail: how success and failure of a whole come from its parts.
-/

namespace FlowTiming

variable {ε α β : Type}

theorem bind_eq_ok {x : Except ε α} {f : α → Except ε β} {b : β} :
    x >>= f = .ok b ↔ ∃ a, x = .ok a ∧ f a = .ok b := by
  cases x <;> simp [bind, Except.bind]

theorem andThen_eq_ok {x : Except ε Unit} {f : Unit → Except ε β} {b : β} :
    x >>= f = .ok b ↔ x = .ok () ∧ f () = .ok b := by
  rw [bind_eq_ok]
  exact ⟨fun ⟨_, h⟩ => h, fun h => ⟨(), h⟩⟩

theorem bind_eq_error {x : Except ε α} {f : α → Except ε β} {e : ε} :
    x >>= f = .error e ↔ x = .error e ∨ ∃ a, x = .ok a ∧ f a = .error e := by
  cases x <;> simp [bind, Except.bind]

theorem map_eq_ok {x : Except ε α} {f : α → β} {b : β} :
    x.map f = .ok b ↔ ∃ a, x = .ok a ∧ f a = b := by
  cases x <;> simp [Except.map]

theorem map_eq_error {x : Except ε α} {f : α → β} {e : ε} : x.map f = .error e ↔ x = .error e := by
  cases x <;> simp [Except.map]

theorem forM_eq_ok {f : α → Except ε Unit} {items : List α} :
    items.forM f = .ok () ↔ ∀ a ∈ items, f a = .ok () := by
  induction items with
  | nil => simp [pure, Except.pure]
  | cons a items ih =>
    rw [List.forM_eq_forM, List.forM_cons, andThen_eq_ok, ← List.forM_eq_forM, ih]
    simp only [List.mem_cons, forall_eq_or_imp]

theorem of_foldlM {f : β → α → Except ε β} (P : β → Prop) (Q : α → Prop)
    (h : ∀ b a b', f b a = .ok b' → P b' → P b ∨ Q a) {items : List α} {b b' : β}
    (hf : items.foldlM f b = .ok b') (hb' : P b') : P b ∨ ∃ a ∈ items, Q a := by
  induction items generalizing b with
  | nil =>
    obtain rfl := Except.ok.inj hf
    exact .inl hb'
  | cons a items ih =>
    rw [List.foldlM_cons, bind_eq_ok] at hf
    obtain ⟨c, hc, hf⟩ := hf
    rcases ih hf with hp | ⟨a', ha', hq⟩
    · rcases h b a c hc hp with hp | hq
      · exact .inl hp
      · exact .inr ⟨a, .head _, hq⟩
    · exact .inr ⟨a', .tail _ ha', hq⟩

theorem foldlM_of {f : β → α → Except ε β} (P : β → Prop) (Q : α → Prop)
    (h : ∀ b a b', f b a = .ok b' → P b ∨ Q a → P b') {items : List α} {b b' : β}
    (hf : items.foldlM f b = .ok b') (hb : P b ∨ ∃ a ∈ items, Q a) : P b' := by
  induction items generalizing b with
  | nil =>
    obtain rfl := Except.ok.inj hf
    simpa using hb
  | cons a items ih =>
    rw [List.foldlM_cons, bind_eq_ok] at hf
    obtain ⟨c, hc, hf⟩ := hf
    apply ih hf
    rcases hb with hp | ⟨a', ha', hq⟩
    · exact .inl (h b a c hc (.inl hp))
    · rcases List.mem_cons.mp ha' with rfl | ha'
      · exact .inl (h b a' c hc (.inr hq))
      · exact .inr ⟨a', ha', hq⟩

theorem foldlM_keeps {f : β → α → Except ε β} (P : β → Prop) (h : ∀ b a b', f b a = .ok b' → P b → P b')
    {items : List α} {b b' : β} (hf : items.foldlM f b = .ok b') (hb : P b) : P b' :=
  foldlM_of P (fun _ => False) (fun b a b' hf hb => h b a b' hf (hb.resolve_right id)) hf (.inl hb)

/-- What holds of the start and the items gone through so far holds of the end and all items. -/
theorem foldlM_along {f : β → α → Except ε β} (P : List α → β → Prop) {items : List α} {b b' : β}
    (h : ∀ passed, ∀ a ∈ items, ∀ c c', f c a = .ok c' → P passed c → P (passed ++ [a]) c')
    (hf : items.foldlM f b = .ok b') (hb : P [] b) : P items b' := by
  induction items using List.reverseRecOn generalizing b' with
  | nil =>
    obtain rfl := Except.ok.inj hf
    exact hb
  | append_singleton items a ih =>
    rw [List.foldlM_append, bind_eq_ok] at hf
    obtain ⟨c, hc, hf⟩ := hf
    rw [List.foldlM_cons, bind_eq_ok] at hf
    obtain ⟨c', hc', hf⟩ := hf
    obtain rfl := Except.ok.inj hf
    have hmem (a' : α) (ha' : a' ∈ items) : a' ∈ items ++ [a] := List.mem_append_left _ ha'
    exact h items a (by simp) c c' hc' (ih (fun passed a' ha' => h passed a' (hmem a' ha')) hc)

theorem exists_foldlM {f : β → α → Except ε β} {items : List α}
    (h : ∀ a ∈ items, ∀ b, ∃ b', f b a = .ok b') (b : β) : ∃ b', items.foldlM f b = .ok b' := by
  induction items generalizing b with
  | nil => exact ⟨b, rfl⟩
  | cons a items ih =>
    rw [List.forall_mem_cons] at h
    obtain ⟨c, hc⟩ := h.1 b
    obtain ⟨b', hb'⟩ := ih h.2 c
    refine ⟨b', ?_⟩
    rw [List.foldlM_cons, bind_eq_ok]
    exact ⟨c, hc, hb'⟩

/-! ### Maps that are filled from a map, entry by entry -/

section Filling

variable {γ κ : Type} [Ord κ] [Std.TransOrd κ] [Std.LawfulEqOrd κ] (get : γ → Std.ExtTreeMap κ β)
  (put : γ → κ → β → γ) (build : κ → α → Except ε β) {m : Std.ExtTreeMap κ α} {start filled : γ} {k : κ}
  (hput : ∀ c k b, get (put c k b) = (get c).insert k b) (hstart : get start = ∅)
  (h : m.toList.foldlM (fun c e => (build e.1 e.2).map (put c e.1)) start = .ok filled)
include hput hstart h

theorem entry_of_filled {b : β} (hb : (get filled)[k]? = some b) :
    ∃ a, m[k]? = some a ∧ build k a = .ok b := by
  have step (c : γ) (e : κ × α) (c' : γ) (hc : (build e.1 e.2).map (put c e.1) = .ok c')
      (hk : (get c')[k]? = some b) : (get c)[k]? = some b ∨ e.1 = k ∧ build e.1 e.2 = .ok b := by
    obtain ⟨b', hb', rfl⟩ := map_eq_ok.mp hc
    rw [hput, Std.ExtTreeMap.getElem?_insert] at hk
    split at hk
    case isTrue he =>
      obtain rfl := Option.some.inj hk
      exact .inr ⟨Std.compare_eq_iff_eq.mp he, hb'⟩
    case isFalse => exact .inl hk
  obtain ⟨e, he, rfl, hbuild⟩ := (of_foldlM (fun c => (get c)[k]? = some b) _ step h hb).resolve_left
    (by simp [hstart])
  exact ⟨e.2, mem_toList_iff.mp he, hbuild⟩

theorem filled_of_entry {a : α} (ha : m[k]? = some a) :
    ∃ b, (get filled)[k]? = some b ∧ build k a = .ok b := by
  have hk : k ∈ get filled := by
    refine foldlM_of (fun c => k ∈ get c) (fun e => e.1 = k) ?_ h (.inr ⟨(k, a), mem_toList_iff.mpr ha, rfl⟩)
    intro c e c' hc hk
    obtain ⟨b, -, rfl⟩ := map_eq_ok.mp hc
    rw [hput, Std.ExtTreeMap.mem_insert, Std.compare_eq_iff_eq]
    exact hk.symm
  obtain ⟨b, hb⟩ := mem_iff_getElem?.mp hk
  obtain ⟨a', ha', hbuild⟩ := entry_of_filled get put build hput hstart h hb
  obtain rfl := Option.some.inj (ha.symm.trans ha')
  exact ⟨b, hb, hbuild⟩

theorem rel_of_filled (k : κ) : Option.Rel (fun a b => build k a = .ok b) m[k]? (get filled)[k]? := by
  cases ha : m[k]? with
  | some a =>
    obtain ⟨b, hb, hbuild⟩ := filled_of_entry get put build hput hstart h ha
    rw [hb]
    exact .some hbuild
  | none =>
    cases hb : (get filled)[k]? with
    | none => exact .none
    | some b =>
      obtain ⟨a, ha', -⟩ := entry_of_filled get put build hput hstart h hb
      rw [ha] at ha'
      contradiction

end Filling

/-! ### Lists -/

theorem mapM_eq_ok {f : α → Except ε β} {items : List α} {results : List β} :
    items.mapM f = .ok results ↔ List.Forall₂ (fun a b => f a = .ok b) items results := by
  induction items generalizing results with
  | nil =>
    rw [List.forall₂_nil_left_iff]
    simp [pure, Except.pure, eq_comm]
  | cons a items ih =>
    simp only [List.mapM_cons, bind_eq_ok, ih]
    constructor
    · rintro ⟨b, hb, rest, hrest, h⟩
      obtain rfl := Except.ok.inj h
      exact .cons hb hrest
    · rintro (_ | ⟨hb, hrest⟩)
      exact ⟨_, hb, _, hrest, rfl⟩

theorem mapM_map {γ : Type} (f : α → Except ε β) (g : β → γ) (items : List α) :
    items.mapM (fun a => (f a).map g) = (items.mapM f).map (List.map g) := by
  induction items with
  | nil => rfl
  | cons a items ih =>
    rw [List.mapM_cons, List.mapM_cons, ih]
    cases f a with
    | error e => rfl
    | ok b => cases items.mapM f <;> rfl

theorem exists_mapM {f : α → Except ε β} {items : List α} (h : ∀ a ∈ items, ∃ b, f a = .ok b) :
    ∃ results, items.mapM f = .ok results := by
  simp only [mapM_eq_ok]
  induction items with
  | nil => exact ⟨[], .nil⟩
  | cons a items ih =>
    rw [List.forall_mem_cons] at h
    obtain ⟨b, hb⟩ := h.1
    obtain ⟨results, hresults⟩ := ih h.2
    exact ⟨b :: results, .cons hb hresults⟩

theorem mem_of_mapM {f : α → Except ε β} {items : List α} {results : List β} {b : β}
    (hf : items.mapM f = .ok results) (hb : b ∈ results) : ∃ a ∈ items, f a = .ok b := by
  have hall := mapM_eq_ok.mp hf
  clear hf
  induction hall with
  | nil => simp at hb
  | cons ha _ ih =>
    rcases List.mem_cons.mp hb with rfl | hb
    · exact ⟨_, .head _, ha⟩
    · obtain ⟨a', ha', hb⟩ := ih hb
      exact ⟨a', .tail _ ha', hb⟩

theorem ok_of_mapM {f : α → Except ε β} {items : List α} {results : List β} {a : α}
    (hf : items.mapM f = .ok results) (ha : a ∈ items) : ∃ b ∈ results, f a = .ok b := by
  have hall := mapM_eq_ok.mp hf
  clear hf
  induction hall with
  | nil => simp at ha
  | cons hb _ ih =>
    rcases List.mem_cons.mp ha with rfl | ha
    · exact ⟨_, .head _, hb⟩
    · obtain ⟨b', hb', ha⟩ := ih ha
      exact ⟨b', .tail _ hb', ha⟩

theorem mapM_eq_error {f : α → Except ε β} {items : List α} {e : ε} :
    items.mapM f = .error e ↔ ∃ before a after, items = before ++ a :: after ∧
      (∀ b ∈ before, ∃ v, f b = .ok v) ∧ f a = .error e := by
  induction items with
  | nil => simp [pure, Except.pure]
  | cons a items ih =>
    rw [List.mapM_cons, bind_eq_error]
    constructor
    · rintro (ha | ⟨v, hv, hrest⟩)
      · exact ⟨[], a, items, rfl, by simp, ha⟩
      · rw [bind_eq_error] at hrest
        obtain ⟨before, c, after, rfl, hbefore, hc⟩ :=
          ih.mp (hrest.resolve_right (by simp [pure, Except.pure]))
        exact ⟨a :: before, c, after, rfl, List.forall_mem_cons.mpr ⟨⟨v, hv⟩, hbefore⟩, hc⟩
    · rintro ⟨before, c, after, h, hbefore, hc⟩
      cases before with
      | nil =>
        obtain ⟨rfl, rfl⟩ := List.cons.inj h
        exact .inl hc
      | cons b before =>
        obtain ⟨rfl, rfl⟩ := List.cons.inj h
        obtain ⟨⟨v, hv⟩, hbefore⟩ := List.forall_mem_cons.mp hbefore
        exact .inr ⟨v, hv, bind_eq_error.mpr (.inl (ih.mpr ⟨before, c, after, rfl, hbefore, hc⟩))⟩

end FlowTiming
