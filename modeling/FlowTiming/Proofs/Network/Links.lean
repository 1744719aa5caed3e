import FlowTiming.Network.Links
import FlowTiming.Proofs.Collections
import Mathlib.Data.List.Dedup

/-!
What links tell of the ends they join, and what those tell that were added one after the other.
-/

namespace FlowTiming

def Endpoint.Before (e e' : Endpoint) : Prop := e.task < e'.task ∨ e.task = e'.task ∧ e.port < e'.port

namespace Links

variable {ε : Type} {l : Links ε} {link : Link} {label : ε} {e s : Endpoint} {x y : String}
  {additions : List (Link × ε)}

theorem mem_toList {entry : Link × ε} : entry ∈ l.toList ↔ l.get? entry.1 = some entry.2 := mem_toList_iff

theorem ordered_toList (l : Links ε) : l.toList.Pairwise fun e e' => compare e.1 e'.1 = .lt :=
  Std.ExtTreeMap.ordered_keys_toList

theorem mem_between {entry : Link × ε} : entry ∈ l.between x y ↔
    entry.1.source.task = x ∧ entry.1.sink.task = y ∧ l.get? entry.1 = some entry.2 := by
  simp only [between, List.mem_filter, mem_toList, Bool.and_eq_true, beq_iff_eq]
  rw [and_comm, and_assoc]

theorem ordered_between (l : Links ε) (x y : String) :
    (l.between x y).Pairwise fun e e' => compare e.1 e'.1 = .lt := l.ordered_toList.filter _

theorem sourcesOf_eq (l : Links ε) (e : Endpoint) :
    l.sourcesOf e = (l.labels.keys.filter (·.sink == e)).map (·.source) := by
  rw [← Std.ExtTreeMap.map_fst_toList_eq_keys, List.filter_map, List.map_map]
  rfl

theorem mem_sourcesOf : s ∈ l.sourcesOf e ↔ (⟨s, e⟩ : Link) ∈ l.labels := by
  simp only [sourcesOf_eq, List.mem_map, List.mem_filter, Std.ExtTreeMap.mem_keys, beq_iff_eq]
  constructor
  · rintro ⟨link, ⟨hlink, rfl⟩, rfl⟩
    exact hlink
  · intro hlink
    exact ⟨⟨s, e⟩, ⟨hlink, rfl⟩, rfl⟩

theorem ordered_sourcesOf (l : Links ε) (e : Endpoint) : (l.sourcesOf e).Pairwise Endpoint.Before := by
  have hlt (x y : String) : compare x y = .lt ↔ x < y := compareOfLessAndEq_eq_lt
  rw [sourcesOf_eq, List.pairwise_map]
  refine (Std.ExtTreeMap.ordered_keys.filter _).imp_of_mem fun {a b} ha hb hab => ?_
  -- both links end at the same port, so their sources decide
  have ha := beq_iff_eq.mp (List.mem_filter.mp ha).2
  have hb := beq_iff_eq.mp (List.mem_filter.mp hb).2
  simpa [Link.compare_def, ha, hb, Ordering.then_eq_lt, hlt, Endpoint.Before] using hab

theorem feeds_iff : l.feeds e = true ↔ ∃ s, s ∈ l.sourcesOf e := by
  simp only [feeds, sourcesOf, List.any_eq_true, List.mem_map, List.mem_filter]
  constructor
  · rintro ⟨entry, hentry⟩
    exact ⟨_, entry, hentry, rfl⟩
  · rintro ⟨_, entry, hentry, -⟩
    exact ⟨entry, hentry⟩

/-! ### Additions -/

def ofList (additions : List (Link × ε)) : Links ε :=
  additions.foldl (fun l entry => l.insert entry.1 entry.2) empty

theorem get?_insert (l : Links ε) (link link' : Link) (label : ε) :
    (l.insert link label).get? link' = if link = link' then some label else l.get? link' := by
  simp only [get?, insert, Std.ExtTreeMap.getElem?_insert, Std.compare_eq_iff_eq]

theorem get?_ofList (additions : List (Link × ε)) (link : Link) :
    (ofList additions).get? link = ((additions.filter (·.1 = link)).getLast?).map (·.2) := by
  induction additions using List.reverseRecOn with
  | nil => simp [ofList, empty, get?]
  | append_singleton additions entry ih =>
    have hlast : ofList (additions ++ [entry]) = (ofList additions).insert entry.1 entry.2 := List.foldl_append
    rw [hlast, get?_insert, ih, List.filter_append]
    by_cases he : entry.1 = link <;> simp [he]

theorem mem_labels_ofList : link ∈ (ofList additions).labels ↔ link ∈ additions.map (·.1) := by
  rw [ofList, foldl_iff (fun l : Links ε => link ∈ l.labels) (fun entry : Link × ε => entry.1 = link)]
  · simp [empty]
  · intro l entry
    rw [insert, Std.ExtTreeMap.mem_insert, Std.compare_eq_iff_eq, or_comm]

theorem size_ofList (additions : List (Link × ε)) :
    (ofList additions).size = (additions.map (·.1)).dedup.length := by
  have hkeys : (ofList additions).labels.keys.Perm (additions.map (·.1)).dedup := by
    apply (List.perm_ext_iff_of_nodup Std.ExtTreeMap.nodup_keys (List.nodup_dedup _)).mpr
    intro link
    rw [Std.ExtTreeMap.mem_keys, mem_labels_ofList, List.mem_dedup]
  rw [← hkeys.length_eq, Std.ExtTreeMap.length_keys, size]

theorem isEmpty_ofList : (ofList additions).isEmpty = true ↔ additions = [] := by
  rw [isEmpty, Std.ExtTreeMap.isEmpty_eq_size_beq_zero, beq_iff_eq, ← size, size_ofList,
    List.length_eq_zero_iff, List.dedup_eq_nil, List.map_eq_nil_iff]

/-- What links answer that were added one after the other: of those with the same ends the last one counts. -/
structure Answers (l : Links ε) (additions : List (Link × ε)) : Prop where
  label : ∀ link, l.get? link = ((additions.filter (·.1 = link)).getLast?).map (·.2)
  size : l.size = (additions.map (·.1)).dedup.length
  isEmpty : l.isEmpty = true ↔ additions = []
  between : ∀ x y link label, (link, label) ∈ l.between x y ↔
    link.source.task = x ∧ link.sink.task = y ∧ l.get? link = some label
  distinct : ∀ x y, ((l.between x y).map (·.1)).Nodup
  sources : ∀ e s, s ∈ l.sourcesOf e ↔ ∃ label, (⟨s, e⟩, label) ∈ additions
  ordered : ∀ e, (l.sourcesOf e).Pairwise Endpoint.Before
  feeds : ∀ e, l.feeds e = true ↔ l.sourcesOf e ≠ []

theorem answers_ofList (additions : List (Link × ε)) : (ofList additions).Answers additions where
  label := get?_ofList additions
  size := size_ofList additions
  isEmpty := isEmpty_ofList
  between _ _ _ _ := mem_between
  distinct x y := by
    have hkeys : (ofList additions).toList.map (·.1) = (ofList additions).labels.keys :=
      Std.ExtTreeMap.map_fst_toList_eq_keys
    apply (List.filter_sublist.map _).nodup
    rw [hkeys]
    exact Std.ExtTreeMap.nodup_keys
  sources e s := by
    rw [mem_sourcesOf, mem_labels_ofList]
    simp
  ordered := ordered_sourcesOf _
  feeds e := by
    rw [feeds_iff]
    exact ⟨fun ⟨s, hs⟩ => List.ne_nil_of_mem hs, List.exists_mem_of_ne_nil _⟩

end Links

end FlowTiming
