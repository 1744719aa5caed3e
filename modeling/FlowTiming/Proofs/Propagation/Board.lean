import FlowTiming.Propagation.Engine
import FlowTiming.Proofs.Collections

/-!
What the updates of a board do to a single node, and how a board relates to a later one.
-/

namespace FlowTiming

namespace Board

variable {τ π ι : Type} [Ord τ] [Ord π] [Std.TransOrd τ] [Std.TransOrd π]

theorem isKnown_eq (b : Board τ π ι) (n : Node τ π) : b.isKnown n = (b.info? n).isSome :=
  Std.ExtTreeMap.contains_eq_isSome_getElem?

theorem isKnown_iff {b : Board τ π ι} {n : Node τ π} :
    b.isKnown n = true ↔ ∃ i, b.info? n = some i := by
  rw [isKnown_eq, Option.isSome_iff_exists]

theorem isKnown_congr {b b' : Board τ π ι} {n : Node τ π} (h : b'.info? n = b.info? n) :
    b'.isKnown n = b.isKnown n := by
  rw [isKnown_eq, isKnown_eq, h]

structure SameFacts (b b' : Board τ π ι) : Prop where
  info : ∀ n, b'.info? n = b.info? n
  final : ∀ n, b'.isFinal n = b.isFinal n

structure Later (b b' : Board τ π ι) : Prop where
  final : ∀ n, b.isFinal n = true → b'.isFinal n = true
  frozen : ∀ n, b.isFinal n = true → b'.info? n = b.info? n

structure Alters (n : Node τ π) (b b' : Board τ π ι) : Prop where
  final : ∀ m, b'.isFinal m = b.isFinal m
  others : ∀ m, m ≠ n → b'.info? m = b.info? m
  frozen : b.isFinal n = true → b'.info? n = b.info? n
  known : b.isKnown n = true → b'.isKnown n = true

theorem SameFacts.refl (b : Board τ π ι) : SameFacts b b := ⟨fun _ => rfl, fun _ => rfl⟩

theorem SameFacts.trans {b b' b'' : Board τ π ι} (h : SameFacts b b') (h' : SameFacts b' b'') :
    SameFacts b b'' :=
  ⟨fun n => (h'.info n).trans (h.info n), fun n => (h'.final n).trans (h.final n)⟩

theorem SameFacts.symm {b b' : Board τ π ι} (h : SameFacts b b') : SameFacts b' b :=
  ⟨fun n => (h.info n).symm, fun n => (h.final n).symm⟩

theorem Later.refl (b : Board τ π ι) : Later b b := ⟨fun _ h => h, fun _ _ => rfl⟩

theorem Later.trans {b b' b'' : Board τ π ι} (h : Later b b') (h' : Later b' b'') : Later b b'' :=
  ⟨fun n hn => h'.final n (h.final n hn),
   fun n hn => (h'.frozen n (h.final n hn)).trans (h.frozen n hn)⟩

theorem SameFacts.later {b b' : Board τ π ι} (h : SameFacts b b') : Later b b' :=
  ⟨fun n hn => (h.final n).trans hn, fun n _ => h.info n⟩

theorem Later.stillOpen {b b' : Board τ π ι} (h : Later b b') {n : Node τ π}
    (hn : b'.isFinal n = false) : b.isFinal n = false := by
  by_contra hf
  rw [Bool.not_eq_false] at hf
  simp [h.final n hf] at hn

theorem SameFacts.alters {b b' : Board τ π ι} (h : SameFacts b b') (n : Node τ π) :
    Alters n b b' where
  final := h.final
  others m _ := h.info m
  frozen _ := h.info n
  known hn := (isKnown_congr (h.info n)).trans hn

theorem Alters.trans {n : Node τ π} {b b' b'' : Board τ π ι} (h : Alters n b b')
    (h' : Alters n b' b'') : Alters n b b'' where
  final m := (h'.final m).trans (h.final m)
  others m hm := (h'.others m hm).trans (h.others m hm)
  frozen hn := (h'.frozen ((h.final n).trans hn)).trans (h.frozen hn)
  known hn := h'.known (h.known hn)

theorem Alters.later {n : Node τ π} {b b' : Board τ π ι} (h : Alters n b b') : Later b b' := by
  refine ⟨fun m hm => (h.final m).trans hm, fun m hm => ?_⟩
  by_cases hmn : m = n
  · subst hmn
    exact h.frozen hm
  · exact h.others m hmn

theorem Alters.isKnown {n : Node τ π} {b b' : Board τ π ι} (h : Alters n b b') {m : Node τ π}
    (hm : b.isKnown m = true) : b'.isKnown m = true := by
  by_cases hmn : m = n
  · subst hmn
    exact h.known hm
  · exact (isKnown_congr (h.others m hmn)).trans hm

@[simp] theorem info?_empty (n : Node τ π) : (empty : Board τ π ι).info? n = none :=
  Std.ExtTreeMap.getElem?_empty

@[simp] theorem isFinal_empty (n : Node τ π) : (empty : Board τ π ι).isFinal n = false :=
  Std.ExtTreeSet.contains_empty

@[simp] theorem info?_note (b : Board τ π ι) (e : Entry) (n : Node τ π) :
    (b.note e).info? n = b.info? n := rfl

@[simp] theorem isFinal_note (b : Board τ π ι) (e : Entry) (n : Node τ π) :
    (b.note e).isFinal n = b.isFinal n := rfl

@[simp] theorem isKnown_empty (n : Node τ π) : (empty : Board τ π ι).isKnown n = false := by
  simp [isKnown_eq]

theorem sameFacts_note (b : Board τ π ι) (e : Entry) : SameFacts b (b.note e) :=
  ⟨fun _ => rfl, fun _ => rfl⟩

theorem sameFacts_noteAll (b : Board τ π ι) (entries : List Entry) :
    SameFacts b (b.noteAll entries) := by
  induction entries generalizing b with
  | nil => exact .refl b
  | cons e entries ih => exact (sameFacts_note b e).trans (ih (b.note e))

@[simp] theorem info?_noteAll (b : Board τ π ι) (entries : List Entry) (n : Node τ π) :
    (b.noteAll entries).info? n = b.info? n := (sameFacts_noteAll b entries).info n

@[simp] theorem isFinal_noteAll (b : Board τ π ι) (entries : List Entry) (n : Node τ π) :
    (b.noteAll entries).isFinal n = b.isFinal n := (sameFacts_noteAll b entries).final n

variable [Shown τ] [Shown π]

@[simp] theorem isFinal_replace (b : Board τ π ι) (n m : Node τ π) (i : ι) :
    (b.replace n i).isFinal m = b.isFinal m := by
  unfold replace
  split <;> rfl

@[simp] theorem info?_finalize (b : Board τ π ι) (n m : Node τ π) :
    (b.finalize n).info? m = b.info? m := by
  unfold finalize
  split <;> rfl

@[simp] theorem isKnown_finalize (b : Board τ π ι) (n m : Node τ π) :
    (b.finalize n).isKnown m = b.isKnown m := isKnown_congr (info?_finalize b n m)

theorem sameFacts_finalize {b : Board τ π ι} {n : Node τ π} (h : b.isFinal n = true) :
    SameFacts b (b.finalize n) := by
  rw [finalize, if_pos h]
  exact .refl b

variable [Std.LawfulEqOrd τ] [Std.LawfulEqOrd π]

theorem info?_replace_of_ne (b : Board τ π ι) {n m : Node τ π} (h : m ≠ n) (i : ι) :
    (b.replace n i).info? m = b.info? m := by
  unfold replace
  split
  · rfl
  · simp only [info?, Std.ExtTreeMap.getElem?_insert]
    exact if_neg fun e => h (Std.compare_eq_iff_eq.mp e).symm

theorem info?_replace_self (b : Board τ π ι) {n : Node τ π} (h : b.isFinal n = false) (i : ι) :
    (b.replace n i).info? n = some i := by
  simp [replace, h, info?]

@[simp] theorem isFinal_finalize (b : Board τ π ι) (n m : Node τ π) :
    (b.finalize n).isFinal m = true ↔ m = n ∨ b.isFinal m = true := by
  unfold finalize
  split
  case isTrue h => exact ⟨Or.inr, fun hm => hm.elim (fun e => e ▸ h) id⟩
  case isFalse h =>
    change (b.finals.insert n).contains m = true ↔ m = n ∨ b.finals.contains m = true
    rw [Std.ExtTreeSet.contains_insert, Bool.or_eq_true, beq_iff_eq, Std.compare_eq_iff_eq]
    exact or_congr_left eq_comm

theorem isFinal_finalize_of_ne (b : Board τ π ι) {n m : Node τ π} (h : m ≠ n) :
    (b.finalize n).isFinal m = b.isFinal m :=
  Bool.eq_iff_iff.mpr ((isFinal_finalize b n m).trans (or_iff_right h))

theorem later_finalize (b : Board τ π ι) (n : Node τ π) : Later b (b.finalize n) :=
  ⟨fun m hm => (isFinal_finalize b n m).mpr (.inr hm), fun m _ => info?_finalize b n m⟩

theorem alters_replace (b : Board τ π ι) (n : Node τ π) (i : ι) : Alters n b (b.replace n i) where
  final m := isFinal_replace b n m i
  others m hm := info?_replace_of_ne b hm i
  frozen hn := by simp [replace, hn]
  known hn := by
    cases hf : b.isFinal n with
    | true => rwa [replace, if_pos hf]
    | false => exact isKnown_iff.mpr ⟨i, info?_replace_self b hf i⟩

variable [Information ι]

omit [Std.LawfulEqOrd τ] [Std.LawfulEqOrd π] in
@[simp] theorem isFinal_extend (b : Board τ π ι) (n m : Node τ π) (i : ι) :
    (b.extend n i).isFinal m = b.isFinal m := by
  unfold extend
  split
  · rfl
  · split
    · rw [isFinal_noteAll]; rfl
    · rfl

theorem info?_extend_of_ne (b : Board τ π ι) {n m : Node τ π} (h : m ≠ n) (i : ι) :
    (b.extend n i).info? m = b.info? m := by
  have skip (j : ι) : ({ b with info := b.info.insert n j } : Board τ π ι).info? m = b.info? m := by
    simp only [info?, Std.ExtTreeMap.getElem?_insert]
    exact if_neg fun e => h (Std.compare_eq_iff_eq.mp e).symm
  unfold extend
  split
  · rfl
  · split
    · rw [info?_noteAll, skip]
    · exact skip i

theorem info?_extend_self (b : Board τ π ι) {n : Node τ π} (h : b.isFinal n = false) (i : ι) :
    (b.extend n i).info? n = some ((b.info? n).elim i (Information.merge · i)) := by
  unfold extend
  rw [if_neg (by simp [h])]
  cases hk : b.info? n with
  | some known => simp only [info?_noteAll, Option.elim_some]; simp [info?]
  | none => simp [info?]

theorem alters_extend (b : Board τ π ι) (n : Node τ π) (i : ι) : Alters n b (b.extend n i) where
  final m := isFinal_extend b n m i
  others m hm := info?_extend_of_ne b hm i
  frozen hn := by simp [extend, hn]
  known hn := by
    cases hf : b.isFinal n with
    | true => rwa [extend, if_pos hf]
    | false => exact isKnown_iff.mpr ⟨_, info?_extend_self b hf i⟩

theorem later_extend (b : Board τ π ι) (n : Node τ π) (i : ι) : Later b (b.extend n i) :=
  (alters_extend b n i).later

end Board

end FlowTiming
