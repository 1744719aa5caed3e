import FlowTiming.Proofs.Network.WellFormed

/-!
Networks with further tasks and links below a well-formed one: for its own tasks they have the same
slaves, sources and periods.
-/

namespace FlowTiming

namespace Network

/-- Whether a network has all tasks and links of another one, and no further link to its tasks. -/
structure Extends (n' n : Network) : Prop where
  tasks : ∀ x t, n.task? x = some t → n'.task? x = some t
  links : ∀ l ∈ n.links.labels, l ∈ n'.links.labels
  further : ∀ l ∈ n'.links.labels, l ∉ n.links.labels → l.sink.task ∉ n.tasks

theorem mem_tasks {n : Network} {x : String} : x ∈ n.tasks ↔ ∃ t, n.task? x = some t := mem_iff_getElem?

theorem contains_tasks_eq_false {n : Network} {x : String} : n.tasks.contains x = false ↔ x ∉ n.tasks := by
  rw [← Std.ExtTreeMap.contains_iff_mem, Bool.not_eq_true]

theorem WellFormed.master_mem {n : Network} (hn : n.WellFormed) {x m : String} {t : Task}
    (ht : n.task? x = some t) (hm : t.master = some m) : m ∈ n.tasks := by
  obtain ⟨k, hr⟩ := hn.ranked x t ht
  obtain ⟨j, -, hr⟩ := hr.above ht hm
  exact mem_tasks.mpr hr.deployed

namespace Extends

variable {n n' : Network} {x : String} {t : Task} {k : Nat}

theorem refl (n : Network) : n.Extends n := ⟨fun _ _ => id, fun _ => id, fun _ hl hnew => absurd hl hnew⟩

variable (h : n'.Extends n)
include h

theorem addTask (hx : x ∉ n.tasks) (t : Task) : (n'.addTask x t).Extends n where
  tasks y u hu := by
    have hne : compare x y ≠ .eq := fun he => hx (mem_tasks.mpr ⟨u, Std.compare_eq_iff_eq.mp he ▸ hu⟩)
    change (n'.tasks.insert x t)[y]? = some u
    rw [Std.ExtTreeMap.getElem?_insert, if_neg hne]
    exact h.tasks y u hu
  links := h.links
  further := h.further

theorem connect {l : Link} (hl : l.sink.task ∉ n.tasks) (policy : LinkPolicy) :
    (n'.connect l policy).Extends n where
  tasks := h.tasks
  links l' hl' := Std.ExtTreeMap.mem_insert.mpr (.inr (h.links l' hl'))
  further l' hl' hnew := by
    rcases Std.ExtTreeMap.mem_insert.mp hl' with he | hl'
    · exact Std.compare_eq_iff_eq.mp he ▸ hl
    · exact h.further l' hl' hnew

theorem task? (hx : x ∈ n.tasks) : n'.task? x = n.task? x := by
  obtain ⟨t, ht⟩ := mem_tasks.mp hx
  rw [ht, h.tasks x t ht]

theorem toList_tasks : n.tasks.toList = n'.tasks.toList.filter (n.tasks.contains ·.1) := by
  apply eq_of_ordered_on Prod.fst Std.ExtTreeMap.ordered_keys_toList
    (Std.ExtTreeMap.ordered_keys_toList.filter _)
  intro e
  rw [List.mem_filter, mem_toList_iff, mem_toList_iff, Std.ExtTreeMap.contains_iff_mem]
  constructor
  · exact fun he => ⟨h.tasks e.1 e.2 he, mem_of_getElem? he⟩
  · rintro ⟨he, hown⟩
    exact (h.task? hown).symm.trans he

theorem taskNames : n.taskNames = n'.taskNames.filter n.tasks.contains := by
  unfold Network.taskNames
  rw [← Std.ExtTreeMap.map_fst_toList_eq_keys, ← Std.ExtTreeMap.map_fst_toList_eq_keys, List.filter_map,
    h.toList_tasks]
  rfl

theorem slavesOf (m : String) : n.slavesOf m = (n'.slavesOf m).filter (n.tasks.contains ·.1) := by
  unfold Network.slavesOf
  rw [h.toList_tasks, List.filter_comm]

theorem slave_mem {m : String} {s : String × Task} (hs : s ∈ n'.slavesOf m)
    (hown : n.tasks.contains s.1 = true) : s ∈ n.slavesOf m := by
  rw [h.slavesOf m]
  exact List.mem_filter.mpr ⟨hs, hown⟩

theorem slave_notMem (hn : n.WellFormed) {m : String} (hm : m ∉ n.tasks) {s : String × Task}
    (hs : s ∈ n'.slavesOf m) : s.1 ∉ n.tasks := by
  intro hx
  obtain ⟨ht, hmaster⟩ := mem_slavesOf.mp hs
  exact hm (hn.master_mem ((h.task? hx).symm.trans ht) hmaster)

theorem sourcesOf {e : Endpoint} (he : e.task ∈ n.tasks) : n'.links.sourcesOf e = n.links.sourcesOf e := by
  have hordered (l : Links LinkPolicy) :
      (l.labels.keys.filter (·.sink == e)).Pairwise (compare · · = .lt) :=
    Std.ExtTreeMap.ordered_keys.filter _
  rw [Links.sourcesOf_eq, Links.sourcesOf_eq,
    eq_of_ordered_on id (hordered n'.links) (hordered n.links) fun l => ?_]
  simp only [List.mem_filter, Std.ExtTreeMap.mem_keys, beq_iff_eq]
  refine and_congr_left fun hl => ⟨fun hmem => ?_, h.links l⟩
  by_contra hnew
  exact h.further l hmem hnew (hl ▸ he)

theorem feeds {e : Endpoint} (he : e.task ∈ n.tasks) : n'.links.feeds e = n.links.feeds e := by
  rw [Bool.eq_iff_iff, Links.feeds_iff, Links.feeds_iff, h.sourcesOf he]

theorem rank (hr : n.Rank x k) : n'.Rank x k := by
  induction hr with
  | root ht hm => exact .root (h.tasks _ _ ht) hm
  | slave ht hm _ ih => exact .slave (h.tasks _ _ ht) hm ih

theorem periodWithin (hr : n.Rank x k) (ht : n.task? x = some t) {hops hops' : Nat} (hk : k ≤ hops)
    (hk' : k ≤ hops') : n'.periodWithin hops' t = n.periodWithin hops t := by
  induction hr generalizing t hops hops' with
  | root ht' hm =>
    obtain rfl := Option.some.inj (ht.symm.trans ht')
    unfold Network.periodWithin
    simp only [hm]
  | @slave x m t' k ht' hm hr ih =>
    obtain rfl := Option.some.inj (ht.symm.trans ht')
    obtain ⟨u, hu⟩ := hr.deployed
    obtain ⟨hops, rfl⟩ := Nat.exists_eq_add_of_le' (Nat.le_trans (Nat.le_add_left 1 k) hk)
    obtain ⟨hops', rfl⟩ := Nat.exists_eq_add_of_le' (Nat.le_trans (Nat.le_add_left 1 k) hk')
    unfold Network.periodWithin
    simp only [hm, hu, h.tasks m u hu, Option.bind_some]
    exact ih hu (by omega) (by omega)

theorem rootPeriod (hn : n.WellFormed) (ht : n.task? x = some t) : n'.rootPeriod t = n.rootPeriod t := by
  obtain ⟨k, hr⟩ := hn.ranked x t ht
  exact h.periodWithin hr ht (Nat.le_of_lt hr.lt_size) (Nat.le_of_lt (h.rank hr).lt_size)

end Extends

end Network

end FlowTiming
