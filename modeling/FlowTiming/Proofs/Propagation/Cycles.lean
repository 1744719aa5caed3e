import FlowTiming.Proofs.Collections
import FlowTiming.Propagation.Cycle
import Mathlib.Data.Fintype.Pigeonhole
import Mathlib.Data.List.TakeWhile
import Mathlib.Data.Set.Finite.List
import Mathlib.Logic.Relation

/-!
The cycles of a list of dependencies are made of the nodes that reach themselves (`mem_cycles_iff`).
-/

namespace FlowTiming

open Relation

theorem exists_cycle_of_finite {α : Type} {R : α → α → Prop} {s : Set α} (hs : s.Finite)
    (hnext : ∀ a ∈ s, ∃ b ∈ s, R a b) {a : α} (ha : a ∈ s) :
    ∃ b, ReflTransGen R a b ∧ TransGen R b b := by
  have : Finite s := hs
  choose next hmem hstep using fun a : s => hnext a a.2
  let walk (k : ℕ) : s := (fun a => ⟨next a, hmem a⟩)^[k] ⟨a, ha⟩
  have step (k : ℕ) : R (walk k) (walk (k + 1)) := by
    simp only [walk, Function.iterate_succ_apply']
    exact hstep _
  have along (j d : ℕ) : ReflTransGen R (walk j) (walk (j + d)) := by
    induction d with
    | zero => exact .refl
    | succ d ih => exact ih.tail (step (j + d))
  -- the walk comes to some node twice
  obtain ⟨i, j, hij, he⟩ : ∃ i j, i < j ∧ walk i = walk j := by
    obtain ⟨i, j, hne, he⟩ := Finite.exists_ne_map_eq_of_infinite walk
    rcases Nat.lt_or_gt_of_ne hne with h | h
    · exact ⟨i, j, h, he⟩
    · exact ⟨j, i, h, he.symm⟩
  obtain ⟨d, rfl⟩ := Nat.exists_eq_add_of_lt hij
  refine ⟨walk i, by simpa [walk] using along 0 i, ?_⟩
  have hback : ReflTransGen R (walk (i + 1)) (walk i) := by
    have := along (i + 1) d
    rwa [Nat.add_right_comm, ← he] at this
  exact TransGen.head' (step i) hback

namespace Dependency

variable {ν : Type} [Ord ν] [Std.TransOrd ν] [Std.LawfulEqOrd ν] {edges : List (ν × ν)}

theorem mem_nodes {n : ν} : n ∈ nodes edges ↔ ∃ e ∈ edges, e.1 = n ∨ e.2 = n := by
  refine (foldl_iff (fun s : Std.ExtTreeSet ν => n ∈ s) (fun e : ν × ν => e.1 = n ∨ e.2 = n)
    (fun s e => ?_) edges ∅).trans (or_iff_right Std.ExtTreeSet.not_mem_empty)
  simp only [Std.ExtTreeSet.mem_insert, Std.compare_eq_iff_eq]
  tauto

theorem mem_successors {n m : ν} : m ∈ (successors edges).getD n [] ↔ (n, m) ∈ edges := by
  refine (foldl_iff (fun s : Std.ExtTreeMap ν (List ν) => m ∈ s.getD n []) (fun e => e = (n, m))
    (fun s e => ?_) edges ∅).trans ?_
  · obtain ⟨a, b⟩ := e
    rw [Std.ExtTreeMap.getD_insert, Prod.mk.injEq]
    split
    case isTrue he =>
      obtain rfl := Std.compare_eq_iff_eq.mp he
      rw [List.mem_cons, eq_self, true_and, or_comm, eq_comm]
    case isFalse he =>
      rw [Std.compare_eq_iff_eq] at he
      simp [he]
  · simp

/-! ### What is reached -/

section Reach

variable {next : ν → List ν} {remaining : Std.ExtTreeSet ν} {pending : List ν} {m : ν}

omit [Std.LawfulEqOrd ν] in
theorem pending_cases {n : ν} {rest : List ν}
    (found : (pending.dropWhile fun n => !remaining.contains n) = n :: rest) :
    n ∈ remaining ∧ (∀ p ∈ n :: rest, p ∈ pending) ∧ ∀ p ∈ pending, p ∈ remaining → p ∈ n :: rest := by
  have hsplit := List.takeWhile_append_dropWhile (p := fun n => !remaining.contains n) (l := pending)
  have hfirst := List.head_dropWhile_not (fun n => !remaining.contains n) (l := pending) (by simp [found])
  rw [found] at hsplit
  refine ⟨by simpa [found] using hfirst, fun p hp => ?_, fun p hp hr => ?_⟩
  · rw [← hsplit]
    exact List.mem_append_right _ hp
  · rw [← hsplit] at hp
    refine (List.mem_append.mp hp).resolve_left fun htaken => ?_
    simpa [Std.ExtTreeSet.contains_iff_mem.mpr hr] using List.mem_takeWhile_imp htaken

omit [Std.LawfulEqOrd ν] in
theorem unreached_of_nil (found : (pending.dropWhile fun n => !remaining.contains n) = []) :
    unreached next remaining pending = remaining := by
  rw [unreached]
  split
  case h_1 => rfl
  case h_2 found' => simp [found] at found'

omit [Std.LawfulEqOrd ν] in
theorem unreached_of_cons {n : ν} {rest : List ν}
    (found : (pending.dropWhile fun n => !remaining.contains n) = n :: rest) :
    unreached next remaining pending = unreached next (remaining.erase n) (next n ++ rest) := by
  rw [unreached]
  split
  case h_1 found' => simp [found] at found'
  case h_2 found' =>
    obtain ⟨rfl, rfl⟩ := List.cons.inj (found.symm.trans found')
    rfl

theorem reaches_of_taken (hm : m ∈ remaining) (htaken : m ∉ unreached next remaining pending) :
    ∃ p ∈ pending, ReflTransGen (fun a b => b ∈ next a) p m := by
  induction remaining, pending using unreached.induct next with
  | case1 remaining pending found =>
    rw [unreached_of_nil found] at htaken
    contradiction
  | case2 remaining pending n rest found ih =>
    rw [unreached_of_cons found] at htaken
    obtain ⟨-, hpending, -⟩ := pending_cases found
    by_cases hnm : n = m
    · exact ⟨n, hpending n (.head _), hnm ▸ .refl⟩
    · have herase : m ∈ remaining.erase n :=
        Std.ExtTreeSet.mem_erase.mpr ⟨fun he => hnm (Std.compare_eq_iff_eq.mp he), hm⟩
      obtain ⟨p, hp, hpath⟩ := ih herase htaken
      rcases List.mem_append.mp hp with hp | hp
      · exact ⟨n, hpending n (.head _), hpath.head hp⟩
      · exact ⟨p, hpending p (.tail _ hp), hpath⟩

structure Explored (next : ν → List ν) (remaining : Std.ExtTreeSet ν) (pending : List ν)
    (left : Std.ExtTreeSet ν) : Prop where
  subset : ∀ m ∈ left, m ∈ remaining
  pending : ∀ m ∈ pending, m ∉ left
  closed : ∀ a ∈ remaining, a ∉ left → ∀ b ∈ next a, b ∉ left

theorem explored_unreached (next : ν → List ν) (remaining : Std.ExtTreeSet ν) (pending : List ν) :
    Explored next remaining pending (unreached next remaining pending) := by
  induction remaining, pending using unreached.induct next with
  | case1 remaining pending found =>
    rw [unreached_of_nil found]
    refine ⟨fun m hm => hm, fun m hm hr => ?_, fun a ha hout => absurd ha hout⟩
    simpa [Std.ExtTreeSet.contains_iff_mem.mpr hr] using List.dropWhile_eq_nil_iff.mp found m hm
  | case2 remaining pending n rest found ih =>
    rw [unreached_of_cons found]
    obtain ⟨-, -, hpending⟩ := pending_cases found
    have hsub (m : ν) (hm : m ∈ unreached next (remaining.erase n) (next n ++ rest)) :
        m ≠ n ∧ m ∈ remaining := by
      obtain ⟨hne, hr⟩ := Std.ExtTreeSet.mem_erase.mp (ih.subset m hm)
      exact ⟨fun he => hne (Std.compare_eq_iff_eq.mpr he.symm), hr⟩
    refine ⟨fun m hm => (hsub m hm).2, fun m hm hleft => ?_, fun a ha hout b hb => ?_⟩
    · rcases List.mem_cons.mp (hpending m hm (hsub m hleft).2) with rfl | hrest
      · exact (hsub m hleft).1 rfl
      · exact ih.pending m (List.mem_append_right _ hrest) hleft
    · by_cases han : n = a
      · subst han
        exact ih.pending b (List.mem_append_left _ hb)
      · have herase : a ∈ remaining.erase n :=
          Std.ExtTreeSet.mem_erase.mpr ⟨fun he => han (Std.compare_eq_iff_eq.mp he), ha⟩
        exact ih.closed a herase hout b hb

end Reach

theorem mem_reached {n m : ν} :
    m ∈ reached edges (successors edges) n ↔ TransGen (fun a b => (a, b) ∈ edges) n m := by
  have hleft := explored_unreached ((successors edges).getD · []) (nodes edges)
    ((successors edges).getD n [])
  rw [reached, Std.ExtTreeSet.mem_diff_iff]
  constructor
  · rintro ⟨hm, htaken⟩
    obtain ⟨p, hp, hpath⟩ := reaches_of_taken hm htaken
    simp only [mem_successors] at hp hpath
    exact .head' hp hpath
  · intro h
    have hm : m ∈ nodes edges := by
      obtain ⟨p, -, hp⟩ := TransGen.tail'_iff.mp h
      exact mem_nodes.mpr ⟨_, hp, .inr rfl⟩
    refine ⟨hm, ?_⟩
    clear hm
    -- along the path no step goes back to what is left
    induction h with
    | single h => exact hleft.pending _ (mem_successors.mpr h)
    | tail _ h ih =>
      exact hleft.closed _ (mem_nodes.mpr ⟨_, h, .inl rfl⟩) ih _ (mem_successors.mpr h)

/-! ### The cycles -/

def circle (edges : List (ν × ν)) (n : ν) : List ν :=
  component (reach edges) n (reached edges (successors edges) n)

theorem mem_circle {n m : ν} : m ∈ circle edges n ↔
    TransGen (fun a b => (a, b) ∈ edges) n m ∧ TransGen (fun a b => (a, b) ∈ edges) m n := by
  unfold circle component reach
  constructor
  · intro h
    obtain ⟨r, hr, rfl⟩ := List.mem_map.mp h
    obtain ⟨hr, hreach⟩ := List.mem_filter.mp hr
    obtain ⟨m, -, rfl⟩ := List.mem_map.mp hr
    rw [Bool.and_eq_true, Std.ExtTreeSet.contains_iff_mem, Std.ExtTreeSet.contains_iff_mem,
      mem_reached, mem_reached] at hreach
    exact hreach.symm
  · rintro ⟨hto, hback⟩
    have hm : m ∈ nodes edges := (Std.ExtTreeSet.mem_diff_iff.mp (mem_reached.mpr hto)).1
    refine List.mem_map.mpr ⟨(m, reached edges (successors edges) m), List.mem_filter.mpr ⟨?_, ?_⟩, rfl⟩
    · exact List.mem_map.mpr ⟨m, Std.ExtTreeSet.mem_toList.mpr hm, rfl⟩
    · rw [Bool.and_eq_true, Std.ExtTreeSet.contains_iff_mem, Std.ExtTreeSet.contains_iff_mem,
        mem_reached, mem_reached]
      exact ⟨hback, hto⟩

theorem circle_congr {n m : ν} (hto : TransGen (fun a b => (a, b) ∈ edges) n m)
    (hback : TransGen (fun a b => (a, b) ∈ edges) m n) : circle edges n = circle edges m := by
  unfold circle component
  congr 1
  apply List.filter_congr
  intro r hr
  obtain ⟨k, -, rfl⟩ := List.mem_map.mp hr
  rw [Bool.eq_iff_iff]
  simp only [Bool.and_eq_true, Std.ExtTreeSet.contains_iff_mem, mem_reached]
  constructor
  · rintro ⟨hk, hk'⟩
    exact ⟨hk.trans hto, hback.trans hk'⟩
  · rintro ⟨hk, hk'⟩
    exact ⟨hk.trans hback, hto.trans hk'⟩

theorem mem_cycles {c : List ν} :
    c ∈ cycles edges ↔ ∃ n ∈ nodes edges, c.head? = some n ∧ c = circle edges n := by
  unfold cycles
  simp only
  constructor
  · intro h
    obtain ⟨r, hr, hc⟩ := List.mem_filterMap.mp h
    obtain ⟨n, hn, rfl⟩ := List.mem_map.mp hr
    simp only at hc
    split at hc
    case h_1 => simp at hc
    case h_2 first rest hcircle =>
      split at hc
      case isTrue he =>
        obtain rfl := Std.compare_eq_iff_eq.mp he
        obtain rfl := Option.some.inj hc
        exact ⟨first, Std.ExtTreeSet.mem_toList.mp hn, by rw [hcircle]; rfl, rfl⟩
      case isFalse => simp at hc
  · rintro ⟨n, hn, hfirst, rfl⟩
    refine List.mem_filterMap.mpr ⟨(n, reached edges (successors edges) n), ?_, ?_⟩
    · exact List.mem_map.mpr ⟨n, Std.ExtTreeSet.mem_toList.mpr hn, rfl⟩
    · obtain ⟨rest, hrest⟩ := List.head?_eq_some_iff.mp hfirst
      unfold circle at hrest
      simp [circle, hrest]

theorem mem_cycles_iff {m : ν} :
    (∃ c ∈ cycles edges, m ∈ c) ↔ TransGen (fun a b => (a, b) ∈ edges) m m := by
  constructor
  · rintro ⟨c, hc, hm⟩
    obtain ⟨n, -, -, rfl⟩ := mem_cycles.mp hc
    obtain ⟨hto, hback⟩ := mem_circle.mp hm
    exact hback.trans hto
  · intro h
    have hself : m ∈ circle edges m := mem_circle.mpr ⟨h, h⟩
    -- the cycle is listed at its first node
    obtain ⟨first, rest, hcircle⟩ := List.exists_cons_of_ne_nil (List.ne_nil_of_mem hself)
    obtain ⟨hto, hback⟩ := mem_circle.mp (hcircle ▸ List.mem_cons_self : first ∈ circle edges m)
    have hsame := circle_congr hto hback
    have hnode : first ∈ nodes edges := (Std.ExtTreeSet.mem_diff_iff.mp (mem_reached.mpr hto)).1
    refine ⟨circle edges first, mem_cycles.mpr ⟨first, hnode, ?_, rfl⟩, hsame ▸ hself⟩
    rw [← hsame, hcircle]
    rfl

end Dependency

end FlowTiming
