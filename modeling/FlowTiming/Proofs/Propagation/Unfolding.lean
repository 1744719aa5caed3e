import FlowTiming.Proofs.Propagation.Board

/-!
Boards that come about from a first one by resolving nodes, one after the other and in any order.
What is final in the end and what it has does not depend on that order (`Unfolds.sameFacts`).
-/

namespace FlowTiming

variable {τ π ι : Type} [Ord τ] [Ord π] [Std.TransOrd τ] [Std.TransOrd π]

/-- When a node can be resolved, and what it has then, given what it had at the start. Neither
changes once the node can be resolved. -/
structure Scheme (τ π ι : Type) [Ord τ] [Ord π] [Std.TransOrd τ] [Std.TransOrd π] where
  ready : Board τ π ι → Node τ π → Prop
  value : Board τ π ι → Node τ π → Option ι → Option ι
  ready_later : ∀ {b b' n}, b.Later b' → ready b n → ready b' n
  value_later : ∀ {b b' n}, b.Later b' → ready b n → ∀ start, value b' n start = value b n start

namespace Scheme

structure Resolves (S : Scheme τ π ι) (n : Node τ π) (b b' : Board τ π ι) : Prop where
  isOpen : b.isFinal n = false
  ready : S.ready b n
  final : ∀ m, b'.isFinal m = true ↔ m = n ∨ b.isFinal m = true
  others : ∀ m, m ≠ n → b'.info? m = b.info? m
  value : b'.info? n = S.value b n (b.info? n)

inductive Unfolds (S : Scheme τ π ι) (b₀ : Board τ π ι) : Board τ π ι → Prop
  | start {b : Board τ π ι} : b₀.SameFacts b → Unfolds S b₀ b
  | resolve {b b' : Board τ π ι} {n : Node τ π} :
      Unfolds S b₀ b → S.Resolves n b b' → Unfolds S b₀ b'

variable {S : Scheme τ π ι} {b₀ b b' : Board τ π ι} {n : Node τ π}

theorem Resolves.later (h : S.Resolves n b b') : b.Later b' := by
  refine ⟨fun m hm => (h.final m).mpr (.inr hm), fun m hm => h.others m ?_⟩
  rintro rfl
  simp [h.isOpen] at hm

theorem Resolves.congr {c c' : Board τ π ι} (hb : b.SameFacts c) (hb' : b'.SameFacts c')
    (h : S.Resolves n b b') : S.Resolves n c c' where
  isOpen := (hb.final n).trans h.isOpen
  ready := S.ready_later hb.later h.ready
  final m := by rw [hb'.final, hb.final]; exact h.final m
  others m hm := by rw [hb'.info, hb.info]; exact h.others m hm
  value := by rw [hb'.info, hb.info, S.value_later hb.later h.ready]; exact h.value

namespace Unfolds

theorem refl (S : Scheme τ π ι) (b : Board τ π ι) : S.Unfolds b b := .start (.refl b)

theorem congr (h : S.Unfolds b₀ b) (hb : b.SameFacts b') : S.Unfolds b₀ b' := by
  cases h with
  | start h₀ => exact .start (h₀.trans hb)
  | resolve h hr => exact .resolve h (hr.congr (.refl _) hb)

theorem later (h : S.Unfolds b₀ b) : b₀.Later b := by
  induction h with
  | start hb => exact hb.later
  | resolve _ hr ih => exact ih.trans hr.later

theorem info_of_open (h : S.Unfolds b₀ b) (hn : b.isFinal n = false) : b.info? n = b₀.info? n := by
  induction h with
  | start hb => exact hb.info n
  | @resolve b b' m _ hr ih =>
    have hne : n ≠ m := by
      rintro rfl
      simp [(hr.final n).mpr (.inl rfl)] at hn
    rw [hr.others n hne]
    exact ih (hr.later.stillOpen hn)

theorem ready_of_final (h : S.Unfolds b₀ b) (hn : b.isFinal n = true) (h₀ : b₀.isFinal n = false) :
    S.ready b n := by
  induction h with
  | start hb => simp [(hb.final n).symm ▸ hn] at h₀
  | @resolve b b' m _ hr ih =>
    apply S.ready_later hr.later
    rcases (hr.final n).mp hn with rfl | hn
    · exact hr.ready
    · exact ih hn

theorem info_of_final (h : S.Unfolds b₀ b) (hn : b.isFinal n = true) (h₀ : b₀.isFinal n = false) :
    b.info? n = S.value b n (b₀.info? n) := by
  induction h with
  | start hb => simp [(hb.final n).symm ▸ hn] at h₀
  | @resolve b b' m hu hr ih =>
    rcases (hr.final n).mp hn with rfl | hm
    · rw [hr.value, hu.info_of_open hr.isOpen, S.value_later hr.later hr.ready]
    · rw [hr.later.frozen n hm, ih hm, S.value_later hr.later (hu.ready_of_final hm h₀)]

theorem induction {P : Node τ π → Prop} (h : S.Unfolds b₀ b)
    (start : ∀ m, b₀.isFinal m = true → P m)
    (resolve : ∀ c m, c.Later b → (∀ k, c.isFinal k = true → P k) → S.ready c m →
      b.isFinal m = true → P m) (hn : b.isFinal n = true) : P n := by
  induction h generalizing n with
  | start hb => exact start n ((hb.final n).symm.trans hn)
  | @resolve b b' m _ hr ih =>
    have old (k : Node τ π) (hk : b.isFinal k = true) : P k :=
      ih (fun c m hc hP hready hm => resolve c m (hc.trans hr.later) hP hready (hr.later.final m hm)) hk
    rcases (hr.final n).mp hn with rfl | hn'
    · exact resolve b n hr.later old hr.ready hn
    · exact old n hn'

variable {c₀ c : Board τ π ι}

theorem agrees_of_full (h : S.Unfolds b₀ b) (h' : S.Unfolds c₀ c) (hs : b₀.SameFacts c₀)
    (hfull : ∀ m, S.ready c m → c.isFinal m = true) (hn : b.isFinal n = true) :
    c.isFinal n = true ∧ c.info? n = b.info? n := by
  have atStart (m : Node τ π) (hm : b₀.isFinal m = true) :
      c.isFinal m = true ∧ c.info? m = b.info? m := by
    have hm' : c₀.isFinal m = true := (hs.final m).trans hm
    exact ⟨h'.later.final m hm', by rw [h'.later.frozen m hm', hs.info, h.later.frozen m hm]⟩
  refine h.induction (P := fun m => c.isFinal m = true ∧ c.info? m = b.info? m) atStart ?_ hn
  intro d m hd hP hready hm
  have hdc : d.Later c :=
    ⟨fun k hk => (hP k hk).1, fun k hk => (hP k hk).2.trans (hd.frozen k hk)⟩
  have hfinal : c.isFinal m = true := hfull m (S.ready_later hdc hready)
  refine ⟨hfinal, ?_⟩
  cases h₀ : b₀.isFinal m with
  | true => exact (atStart m h₀).2
  | false =>
    have h₀' : c₀.isFinal m = false := (hs.final m).trans h₀
    rw [h'.info_of_final hfinal h₀', h.info_of_final hm h₀, hs.info,
      S.value_later hdc hready, S.value_later hd hready]

theorem sameFacts (h : S.Unfolds b₀ b) (h' : S.Unfolds c₀ c) (hs : b₀.SameFacts c₀)
    (hfull : ∀ m, S.ready b m → b.isFinal m = true)
    (hfull' : ∀ m, S.ready c m → c.isFinal m = true) : b.SameFacts c := by
  have final (m : Node τ π) : c.isFinal m = b.isFinal m :=
    Bool.eq_iff_iff.mpr ⟨fun hm => (h'.agrees_of_full h hs.symm hfull hm).1,
      fun hm => (h.agrees_of_full h' hs hfull' hm).1⟩
  refine ⟨fun m => ?_, final⟩
  cases hm : b.isFinal m with
  | true => exact (h.agrees_of_full h' hs hfull' hm).2
  | false => rw [h.info_of_open hm, h'.info_of_open ((final m).trans hm), hs.info]

end Unfolds

end Scheme

end FlowTiming
