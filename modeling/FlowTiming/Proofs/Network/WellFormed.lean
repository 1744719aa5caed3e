import FlowTiming.Network.Basic
import FlowTiming.Proofs.Network.Links
import Mathlib.Data.List.Perm.Subperm

/-!
What propagation relies on in a network: chains of masters end, ports are declared by one side
only, and links join declared ports.
-/

namespace FlowTiming

namespace Network

/-- So many masters stand one above the other over a task, and the topmost has none. -/
inductive Rank (n : Network) : String → Nat → Prop
  | root {x : String} {t : Task} : n.task? x = some t → t.master = none → Rank n x 0
  | slave {x m : String} {t : Task} {k : Nat} :
      n.task? x = some t → t.master = some m → Rank n m k → Rank n x (k + 1)

structure WellFormed (n : Network) : Prop where
  ranked : ∀ x t, n.task? x = some t → ∃ k, n.Rank x k
  disjoint : ∀ x t p, n.task? x = some t → p ∈ t.inputs → p ∉ t.outputs
  causes : ∀ x t (p : String) (o : OutputPort), n.task? x = some t → t.outputs[p]? = some o →
    ∀ i ∈ o.triggers, i ∈ t.inputs
  driven : ∀ x t devices, n.task? x = some t → t.kind = .driver devices →
    ∀ a ∈ devices, ∀ p ∈ a.ports, p ∈ t.outputs
  received : ∀ x t devices, n.task? x = some t → t.kind = .bus devices →
    ∀ a ∈ devices, ∀ p ∈ a.ports, p ∈ t.inputs
  sources : ∀ l ∈ n.links.labels, ∃ t, n.task? l.source.task = some t ∧ l.source.port ∈ t.outputs
  sinks : ∀ l ∈ n.links.labels, ∃ t, n.task? l.sink.task = some t ∧ l.sink.port ∈ t.inputs

variable {n : Network} {x m : String} {t : Task} {k : Nat}

theorem mem_taskNames : x ∈ n.taskNames ↔ ∃ t, n.task? x = some t := by
  unfold taskNames task?
  rw [Std.ExtTreeMap.mem_keys, mem_iff_getElem?]

theorem mem_slavesOf {s : String × Task} :
    s ∈ n.slavesOf m ↔ n.task? s.1 = some s.2 ∧ s.2.master = some m := by
  unfold slavesOf task?
  rw [List.mem_filter, beq_iff_eq, mem_toList_iff]

theorem Rank.deployed (h : n.Rank x k) : ∃ t, n.task? x = some t := by
  cases h with
  | root ht => exact ⟨_, ht⟩
  | slave ht => exact ⟨_, ht⟩

theorem Rank.unique {j : Nat} (h : n.Rank x k) (h' : n.Rank x j) : k = j := by
  induction h generalizing j with
  | root ht hm =>
    cases h' with
    | root => rfl
    | slave ht' hm' =>
      obtain rfl := Option.some.inj (ht.symm.trans ht')
      simp [hm] at hm'
  | slave ht hm _ ih =>
    cases h' with
    | root ht' hm' =>
      obtain rfl := Option.some.inj (ht.symm.trans ht')
      simp [hm] at hm'
    | slave ht' hm' hr =>
      obtain rfl := Option.some.inj (ht.symm.trans ht')
      obtain rfl := Option.some.inj (hm.symm.trans hm')
      rw [ih hr]

theorem Rank.ofSlave {s : String × Task} (h : n.Rank m k) (hs : s ∈ n.slavesOf m) :
    n.Rank s.1 (k + 1) := by
  obtain ⟨ht, hm⟩ := mem_slavesOf.mp hs
  exact .slave ht hm h

theorem Rank.above (h : n.Rank x k) (ht : n.task? x = some t) (hm : t.master = some m) :
    ∃ j, k = j + 1 ∧ n.Rank m j := by
  cases h with
  | root ht' hm' =>
    obtain rfl := Option.some.inj (ht.symm.trans ht')
    simp [hm] at hm'
  | @slave _ _ _ j ht' hm' hr =>
    obtain rfl := Option.some.inj (ht.symm.trans ht')
    obtain rfl := Option.some.inj (hm.symm.trans hm')
    exact ⟨j, rfl, hr⟩

theorem Rank.lt_size (h : n.Rank x k) : k < n.tasks.size := by
  -- the tasks above `x` have different ranks, so they are different tasks of the network
  have chain : ∃ above : List String, above.length = k + 1 ∧ above.Nodup ∧
      ∀ y ∈ above, ∃ j ≤ k, n.Rank y j := by
    induction h with
    | @root x t ht hm => exact ⟨[x], rfl, by simp, by simpa using Rank.root ht hm⟩
    | @slave x m t k ht hm hr ih =>
      obtain ⟨above, hlen, hnodup, hranks⟩ := ih
      refine ⟨x :: above, by simp [hlen], List.nodup_cons.mpr ⟨?_, hnodup⟩, ?_⟩
      · intro hx
        obtain ⟨j, hj, hxj⟩ := hranks x hx
        have := (Rank.slave ht hm hr).unique hxj
        omega
      · intro y hy
        rcases List.mem_cons.mp hy with rfl | hy
        · exact ⟨k + 1, Nat.le_refl _, .slave ht hm hr⟩
        · obtain ⟨j, hj, hyj⟩ := hranks y hy
          exact ⟨j, by omega, hyj⟩
  obtain ⟨above, hlen, hnodup, hranks⟩ := chain
  have hsub : above ⊆ n.taskNames := by
    intro y hy
    obtain ⟨j, -, hr⟩ := hranks y hy
    exact mem_taskNames.mpr hr.deployed
  have hle := (List.subperm_of_subset hnodup hsub).length_le
  have hsize : n.taskNames.length = n.tasks.size := Std.ExtTreeMap.length_keys
  omega

end Network

end FlowTiming
