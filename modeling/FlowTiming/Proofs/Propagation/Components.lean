import FlowTiming.Proofs.Propagation.Cycles

/-!
The cycles of a list of dependencies as a whole: one sorted list for every greatest set of nodes that all
reach each other (`ListsCycles`), whatever finds the strongly connected components (`ofComponents`).
-/

namespace FlowTiming

open Relation

namespace Dependency

variable {ν : Type} [Ord ν]

/-- Whether a node depends on another one directly. -/
abbrev Step (edges : List (ν × ν)) (n m : ν) : Prop := (n, m) ∈ edges

/-- Whether lists are the cycles of dependencies: which nodes are together, and in which order. -/
structure ListsCycles (edges : List (ν × ν)) (cycles : List (List ν)) : Prop where
  together : ∀ n m, (∃ c ∈ cycles, n ∈ c ∧ m ∈ c) ↔ TransGen (Step edges) n m ∧ TransGen (Step edges) m n
  listed : ∀ n, (∃ c ∈ cycles, n ∈ c) ↔ TransGen (Step edges) n n
  occupied : ∀ c ∈ cycles, c ≠ []
  sorted : ∀ c ∈ cycles, c.Pairwise (compare · · = .lt)
  disjoint : cycles.Pairwise List.Disjoint
  ordered : cycles.Pairwise fun c c' => ∃ n ∈ c.head?, ∃ m ∈ c'.head?, compare n m = .lt

/-- Whether lists are the strongly connected components of dependencies, in whatever order. -/
structure AreComponents (edges : List (ν × ν)) (components : List (List ν)) : Prop where
  covers : ∀ e ∈ edges, ∃ c ∈ components, e.1 ∈ c
  connected : ∀ c ∈ components, ∀ n ∈ c, ∀ m ∈ c, ReflTransGen (Step edges) n m
  greatest : ∀ c ∈ components, ∀ n ∈ c, ∀ m, TransGen (Step edges) n m → TransGen (Step edges) m n → m ∈ c
  occupied : ∀ c ∈ components, c ≠ []
  nodup : ∀ c ∈ components, c.Nodup
  disjoint : components.Pairwise List.Disjoint

/-- Whether a component is a cycle. A node by itself is one if it depends on itself. -/
def isCycle (edges : List (ν × ν)) : List ν → Bool
  | [n] => edges.any fun e => compare e.1 n == .eq && compare e.2 n == .eq
  | _ => true

def inOrder {α : Type} [Ord α] (l : List α) : List α := l.mergeSort fun a b => (compare a b).isLE

/-- The components that are cycles, each of them in order and all of them in order. -/
def ofComponents (edges : List (ν × ν)) (components : List (List ν)) : List (List ν) :=
  inOrder ((components.filter (isCycle edges)).map inOrder)

variable {edges edges' : List (ν × ν)} {cycles cycles' components : List (List ν)} {c : List ν} {n m : ν}

/-! ### Lists in order -/

theorem mem_inOrder {α : Type} [Ord α] {l : List α} {a : α} : a ∈ inOrder l ↔ a ∈ l :=
  (List.mergeSort_perm l _).mem_iff

theorem pairwise_inOrder {α : Type} [Ord α] [Std.TransOrd α] [Std.LawfulEqOrd α] {l : List α}
    (h : l.Nodup) : (inOrder l).Pairwise (compare · · = .lt) := by
  have hle : (inOrder l).Pairwise fun a b => (compare a b).isLE = true := by
    refine List.pairwise_mergeSort (fun _ _ _ => Std.TransCmp.isLE_trans) (fun a b => ?_) l
    rw [Std.OrientedOrd.eq_swap (a := b)]
    cases compare a b <;> rfl
  have hne : (inOrder l).Pairwise (· ≠ ·) := (List.mergeSort_perm l _).nodup_iff.mpr h
  refine hle.imp₂ (fun a b hle hne => ?_) hne
  cases hc : compare a b with
  | lt => rfl
  | eq => exact absurd (Std.compare_eq_iff_eq.mp hc) hne
  | gt => simp [hc] at hle

theorem mem_ofComponents : c ∈ ofComponents edges components ↔
    ∃ a ∈ components, isCycle edges a = true ∧ inOrder a = c := by
  unfold ofComponents
  rw [mem_inOrder, List.mem_map]
  simp only [List.mem_filter, and_assoc]

omit [Ord ν] in
theorem eq_of_disjoint {lists : List (List ν)} (h : lists.Pairwise List.Disjoint) {c' : List ν}
    (hc : c ∈ lists) (hc' : c' ∈ lists) (hn : n ∈ c) (hn' : n ∈ c') : c = c' := by
  have : Std.Symm (List.Disjoint (α := ν)) := ⟨fun _ _ => List.Disjoint.symm⟩
  by_contra hne
  exact h.forall hc hc' hne hn hn'

/-! ### Only one list is that of the cycles -/

namespace ListsCycles

theorem mem_iff (h : ListsCycles edges cycles) (hc : c ∈ cycles) (hn : n ∈ c) :
    m ∈ c ↔ TransGen (Step edges) n m ∧ TransGen (Step edges) m n := by
  rw [← h.together]
  constructor
  · exact fun hm => ⟨c, hc, hn, hm⟩
  · rintro ⟨c', hc', hn', hm'⟩
    rwa [eq_of_disjoint h.disjoint hc hc' hn hn']

theorem congr (h : ListsCycles edges cycles) (he : ∀ e, e ∈ edges' ↔ e ∈ edges) :
    ListsCycles edges' cycles := by
  have hstep : Step edges' = Step edges := by
    funext n m
    exact propext (he (n, m))
  exact { h with
    together := by rw [hstep]; exact h.together
    listed := by rw [hstep]; exact h.listed }

variable [Std.TransOrd ν]

theorem subset (h : ListsCycles edges cycles) (h' : ListsCycles edges cycles') (hc : c ∈ cycles) :
    c ∈ cycles' := by
  obtain ⟨n, hn⟩ := List.exists_mem_of_ne_nil c (h.occupied c hc)
  obtain ⟨c', hc', hn', -⟩ := (h'.together n n).mpr ((h.together n n).mp ⟨c, hc, hn, hn⟩)
  have hsame (m : ν) : m ∈ c ↔ m ∈ c' := (h.mem_iff hc hn).trans (h'.mem_iff hc' hn').symm
  rwa [eq_of_ordered_on id (h.sorted c hc) (h'.sorted c' hc') hsame]

variable [Std.LawfulEqOrd ν]

theorem unique (h : ListsCycles edges cycles) (h' : ListsCycles edges cycles') : cycles = cycles' := by
  -- two lists in the order of first nodes are equal if they have the same members
  have hne (a b : List ν) (hlt : ∃ n ∈ a.head?, ∃ m ∈ b.head?, compare n m = .lt) : a ≠ b := by
    rintro rfl
    obtain ⟨n, hn, m, hm, hlt⟩ := hlt
    obtain rfl := Option.some.inj (hn.symm.trans hm)
    simp at hlt
  refine ((List.perm_ext_iff_of_nodup (h.ordered.imp (hne _ _)) (h'.ordered.imp (hne _ _))).mpr
    fun c => ⟨h.subset h', h'.subset h⟩).eq_of_pairwise ?_ h.ordered h'.ordered
  rintro a b - - ⟨n, hn, m, hm, hlt⟩ ⟨m', hm', n', hn', hlt'⟩
  obtain rfl := Option.some.inj (hn.symm.trans hn')
  obtain rfl := Option.some.inj (hm.symm.trans hm')
  rw [Std.OrientedOrd.eq_swap, hlt'] at hlt
  contradiction

end ListsCycles

/-! ### The lists made of components -/

namespace AreComponents

variable (h : AreComponents edges components)
include h

theorem disjoint_ofComponents : (ofComponents edges components).Pairwise List.Disjoint := by
  refine ((List.mergeSort_perm _ _).pairwise_iff List.Disjoint.symm).mpr (List.pairwise_map.mpr ?_)
  refine (h.disjoint.filter _).imp fun hd n hn hn' => ?_
  exact hd (mem_inOrder.mp hn) (mem_inOrder.mp hn')

variable [Std.LawfulEqOrd ν]

theorem isCycle_iff (hc : c ∈ components) (hn : n ∈ c) :
    isCycle edges c = true ↔ TransGen (Step edges) n n := by
  unfold isCycle
  split
  case h_1 k =>
    obtain rfl := List.mem_singleton.mp hn
    simp only [List.any_eq_true, Bool.and_eq_true, beq_iff_eq, Std.compare_eq_iff_eq]
    constructor
    · rintro ⟨⟨a, b⟩, he, ha, hb⟩
      obtain ⟨rfl, rfl⟩ : a = n ∧ b = n := ⟨ha, hb⟩
      exact .single he
    · intro hpath
      -- what the node depends on along a path back to itself is in its component
      obtain ⟨k, hk, hback⟩ := TransGen.head'_iff.mp hpath
      have hmem : k ∈ [n] := by
        rcases reflTransGen_iff_eq_or_transGen.mp hback with rfl | hback
        · exact .head _
        · exact h.greatest _ hc n (.head _) k (.single hk) hback
      obtain rfl := List.mem_singleton.mp hmem
      exact ⟨_, hk, rfl, rfl⟩
  case h_2 hmany =>
    refine iff_of_true rfl ?_
    obtain ⟨k, hk, hne⟩ : ∃ k ∈ c, n ≠ k := by
      by_contra hall
      simp only [not_exists, not_and, not_not] at hall
      refine hmany n (List.perm_singleton.mp ((List.perm_ext_iff_of_nodup (h.nodup c hc)
        (List.nodup_singleton n)).mpr fun k => ?_))
      rw [List.mem_singleton]
      exact ⟨fun hk => (hall k hk).symm, fun hk => hk ▸ hn⟩
    have hto := (reflTransGen_iff_eq_or_transGen.mp (h.connected c hc n hn k hk)).resolve_left hne.symm
    exact hto.trans_left (h.connected c hc k hk n hn)

theorem together_ofComponents : (∃ c ∈ ofComponents edges components, n ∈ c ∧ m ∈ c) ↔
    TransGen (Step edges) n m ∧ TransGen (Step edges) m n := by
  constructor
  · rintro ⟨c, hc, hn, hm⟩
    obtain ⟨a, ha, hcycle, rfl⟩ := mem_ofComponents.mp hc
    rw [mem_inOrder] at hn hm
    have hself := (h.isCycle_iff ha hn).mp hcycle
    exact ⟨hself.trans_left (h.connected a ha n hn m hm), .trans_right (h.connected a ha m hm n hn) hself⟩
  · rintro ⟨hto, hback⟩
    obtain ⟨k, hk, -⟩ := TransGen.head'_iff.mp hto
    obtain ⟨a, ha, hn⟩ := h.covers _ hk
    refine ⟨inOrder a, mem_ofComponents.mpr ⟨a, ha, (h.isCycle_iff ha hn).mpr (hto.trans hback), rfl⟩, ?_⟩
    rw [mem_inOrder, mem_inOrder]
    exact ⟨hn, h.greatest a ha n hn m hto hback⟩

theorem listsCycles [Std.TransOrd ν] : ListsCycles edges (ofComponents edges components) := by
  have hoccupied (c : List ν) (hc : c ∈ ofComponents edges components) : c ≠ [] := by
    obtain ⟨a, ha, -, rfl⟩ := mem_ofComponents.mp hc
    obtain ⟨n, hn⟩ := List.exists_mem_of_ne_nil a (h.occupied a ha)
    exact List.ne_nil_of_mem (mem_inOrder.mpr hn)
  have hdisjoint := h.disjoint_ofComponents
  refine ⟨fun _ _ => h.together_ofComponents, fun n => ?_, hoccupied, fun c hc => ?_, hdisjoint, ?_⟩
  · rw [← and_self_iff (a := TransGen _ _ _), ← h.together_ofComponents]
    simp only [and_self]
  · obtain ⟨a, ha, -, rfl⟩ := mem_ofComponents.mp hc
    exact pairwise_inOrder (h.nodup a ha)
  · have hnodup : (ofComponents edges components).Nodup := by
      refine hdisjoint.imp_of_mem ?_
      rintro c c' hc - hd rfl
      obtain ⟨n, hn⟩ := List.exists_mem_of_ne_nil c (hoccupied c hc)
      exact hd hn hn
    -- disjoint lists that are in order are in the order of their first nodes
    have hlt := pairwise_inOrder ((List.mergeSort_perm _ _).nodup_iff.mp hnodup)
    refine (hlt.and hdisjoint).imp_of_mem ?_
    rintro c c' hc hc' ⟨hlt, hd⟩
    obtain ⟨n, rest, rfl⟩ := List.exists_cons_of_ne_nil (hoccupied c hc)
    obtain ⟨m, rest', rfl⟩ := List.exists_cons_of_ne_nil (hoccupied c' hc')
    refine ⟨n, rfl, m, rfl, ?_⟩
    rw [List.compare_cons_cons, Ordering.then_eq_lt] at hlt
    refine hlt.resolve_right fun ⟨he, _⟩ => ?_
    obtain rfl := Std.compare_eq_iff_eq.mp he
    exact hd (.head _) (.head _)

end AreComponents

/-! ### The lists found by reachability -/

section Found

variable [Std.TransOrd ν] [Std.LawfulEqOrd ν]

omit [Std.LawfulEqOrd ν] in
theorem sorted_circle (edges : List (ν × ν)) (n : ν) : (circle edges n).Pairwise (compare · · = .lt) := by
  unfold circle component reach
  refine List.pairwise_map.mpr (List.Pairwise.filter _ (List.pairwise_map.mpr ?_))
  exact Std.ExtTreeSet.ordered_toList

omit [Std.TransOrd ν] [Std.LawfulEqOrd ν] in
theorem pairwise_heads {α : Type} {f : α → Option (List ν)} {items : List α} (key : α → ν)
    (hf : ∀ a c, f a = some c → c.head? = some (key a))
    (h : items.Pairwise fun a a' => compare (key a) (key a') = .lt) :
    (items.filterMap f).Pairwise fun c c' => ∃ n ∈ c.head?, ∃ m ∈ c'.head?, compare n m = .lt :=
  List.pairwise_filterMap.mpr (h.imp fun hlt c hc c' hc' => ⟨_, hf _ c hc, _, hf _ c' hc', hlt⟩)

theorem ordered_cycles (edges : List (ν × ν)) :
    (Dependency.cycles edges).Pairwise fun c c' => ∃ n ∈ c.head?, ∃ m ∈ c'.head?, compare n m = .lt := by
  unfold Dependency.cycles
  refine pairwise_heads Prod.fst (fun r c h => ?_) (List.pairwise_map.mpr Std.ExtTreeSet.ordered_toList)
  -- every list stands at the place of its first node
  simp only at h
  split at h
  case h_1 => contradiction
  case h_2 first rest hfirst =>
    split at h
    case isTrue he =>
      obtain rfl := Std.compare_eq_iff_eq.mp he
      obtain rfl := Option.some.inj h
      rw [hfirst, List.head?_cons]
    case isFalse => contradiction

theorem together_cycles : (∃ c ∈ Dependency.cycles edges, n ∈ c ∧ m ∈ c) ↔
    TransGen (Step edges) n m ∧ TransGen (Step edges) m n := by
  constructor
  · rintro ⟨c, hc, hn, hm⟩
    obtain ⟨k, -, -, rfl⟩ := mem_cycles.mp hc
    obtain ⟨hkn, hnk⟩ := mem_circle.mp hn
    obtain ⟨hkm, hmk⟩ := mem_circle.mp hm
    exact ⟨hnk.trans hkm, hmk.trans hkn⟩
  · rintro ⟨hto, hback⟩
    obtain ⟨c, hc, hn⟩ := mem_cycles_iff.mpr (hto.trans hback)
    obtain ⟨k, -, -, rfl⟩ := id (mem_cycles.mp hc)
    obtain ⟨hkn, hnk⟩ := mem_circle.mp hn
    exact ⟨_, hc, hn, mem_circle.mpr ⟨hkn.trans hto, hback.trans hnk⟩⟩

theorem listsCycles (edges : List (ν × ν)) : ListsCycles edges (Dependency.cycles edges) where
  together _ _ := together_cycles
  listed _ := mem_cycles_iff
  occupied c hc := by
    obtain ⟨n, -, hn, -⟩ := mem_cycles.mp hc
    rintro rfl
    contradiction
  sorted c hc := by
    obtain ⟨n, -, -, rfl⟩ := mem_cycles.mp hc
    exact sorted_circle edges n
  disjoint := by
    refine (ordered_cycles edges).imp_of_mem ?_
    rintro c c' hc hc' ⟨n, hn, m, hm, hlt⟩ k hk hk'
    obtain ⟨n, -, -, rfl⟩ := mem_cycles.mp hc
    obtain ⟨m, -, -, rfl⟩ := mem_cycles.mp hc'
    -- cycles that share a node are the same, and so are their first nodes
    obtain ⟨hnk, hkn⟩ := mem_circle.mp hk
    obtain ⟨hmk, hkm⟩ := mem_circle.mp hk'
    rw [circle_congr (hnk.trans hkm) (hmk.trans hkn)] at hn
    obtain rfl := Option.some.inj (hn.symm.trans hm)
    simp at hlt
  ordered := ordered_cycles edges

/-- The cycles of dependencies are the greatest sets of nodes that all reach each other in at least one
step, each set sorted, and the sets by their first nodes. They do not depend on how the dependencies are
listed, nor on what finds the strongly connected components. -/
theorem cycles_partition (edges : List (ν × ν)) :
    ListsCycles edges (Dependency.cycles edges) ∧
    (∀ edges' : List (ν × ν), (∀ e, e ∈ edges' ↔ e ∈ edges) →
      Dependency.cycles edges' = Dependency.cycles edges) ∧
    ∀ components, AreComponents edges components →
      ofComponents edges components = Dependency.cycles edges :=
  ⟨listsCycles edges, fun edges' he => (listsCycles edges').unique ((listsCycles edges).congr he),
    fun _ h => h.listsCycles.unique (listsCycles edges)⟩

end Found

/-- Two nodes that depend on each other, one that depends on them and one that depends on itself. -/
def knot : List (ℕ × ℕ) := [(3, 2), (2, 1), (4, 4), (1, 2)]

theorem cycles_knot : Dependency.cycles knot = [[1, 2], [4]] := by decide +kernel

theorem knot_components : AreComponents knot [[2, 1], [3], [4]] := by
  have htogether {n m : ℕ} : (n = 1 ∨ n = 2) ∧ (m = 1 ∨ m = 2) ∨ n = 4 ∧ m = 4 ↔
      TransGen (Step knot) n m ∧ TransGen (Step knot) m n := by
    rw [← together_cycles, cycles_knot]
    simp
  refine ⟨by decide, ?_, ?_, by decide, by decide, by simp [List.disjoint_iff_ne]⟩
  · intro c hc n hn m hm
    by_cases he : n = m
    · rw [he]
    · refine (htogether.mp (.inl ?_)).1.to_reflTransGen
      simp only [List.mem_cons, List.not_mem_nil, or_false] at hc
      rcases hc with rfl | rfl | rfl <;> simp only [List.mem_cons, List.not_mem_nil, or_false] at hn hm <;>
        omega
  · intro c hc n hn m hto hback
    have hboth := htogether.mpr ⟨hto, hback⟩
    simp only [List.mem_cons, List.not_mem_nil, or_false] at hc
    rcases hc with rfl | rfl | rfl <;> simp only [List.mem_cons, List.not_mem_nil, or_false] at hn ⊢ <;>
      omega

theorem knot_partition : ListsCycles knot [[1, 2], [4]] ∧
    Dependency.cycles (knot.reverse ++ knot) = [[1, 2], [4]] ∧
    ofComponents knot [[2, 1], [3], [4]] = [[1, 2], [4]] := by
  obtain ⟨hlists, hlisting, hcomponents⟩ := cycles_partition knot
  rw [cycles_knot] at hlists hlisting hcomponents
  exact ⟨hlists, hlisting _ (by simp), hcomponents _ knot_components⟩

end Dependency

end FlowTiming
