import FlowTiming.Proofs.Policy.RootPeriod

/-!
Where following masters leads to, in any network. The period at the root of a chain is found however
long the chain is, and there is none where the chain loops or leaves the network (`rootPeriod_ends`).
-/

namespace FlowTiming.Network

open Relation

variable {n : Network} {x y root : String} {t u : Task} {k hops : Nat} {period : Duration}

def IsSlaveOf (n : Network) (x m : String) : Prop := (n.task? x).bind Task.master = some m

instance (n : Network) (x m : String) : Decidable (n.IsSlaveOf x m) :=
  inferInstanceAs (Decidable ((n.task? x).bind Task.master = some m))

theorem Rank.above_of_isSlaveOf {m : String} (h : n.Rank x k) (hm : n.IsSlaveOf x m) :
    ∃ j < k, n.Rank m j := by
  obtain ⟨t, ht, hm⟩ := Option.bind_eq_some_iff.mp hm
  obtain ⟨j, rfl, hr⟩ := h.above ht hm
  exact ⟨j, Nat.lt_succ_self j, hr⟩

theorem Rank.of_reflTransGen (h : n.Rank x k) (hxy : ReflTransGen n.IsSlaveOf x y) : ∃ j, n.Rank y j := by
  induction hxy with
  | refl => exact ⟨k, h⟩
  | tail _ hm ih =>
    obtain ⟨j, hr⟩ := ih
    obtain ⟨i, -, hr⟩ := hr.above_of_isSlaveOf hm
    exact ⟨i, hr⟩

theorem Rank.lt_of_transGen (h : n.Rank x k) (hxy : TransGen n.IsSlaveOf x y) : ∃ j < k, n.Rank y j := by
  induction hxy with
  | single hm => exact h.above_of_isSlaveOf hm
  | tail _ hm ih =>
    obtain ⟨j, hj, hr⟩ := ih
    obtain ⟨i, hi, hr⟩ := hr.above_of_isSlaveOf hm
    exact ⟨i, hi.trans hj, hr⟩

theorem Rank.not_loops (h : n.Rank x k) : ¬ TransGen n.IsSlaveOf x x := by
  intro hloop
  obtain ⟨j, hj, hr⟩ := h.lt_of_transGen hloop
  exact hj.ne (hr.unique h)

theorem LeadsTo.exists_task (h : n.LeadsTo x root) : ∃ u, n.task? root = some u := by
  induction h with
  | root ht => exact ⟨_, ht⟩
  | slave _ _ _ ih => exact ih

theorem periodWithin_root (hm : t.master = none) (hops : Nat) : n.periodWithin hops t = t.period := by
  rw [periodWithin.eq_def]
  simp only [hm]

theorem periodWithin_slave {m : String} (hm : t.master = some m) (ht : n.task? m = some u) (hops : Nat) :
    n.periodWithin (hops + 1) t = n.periodWithin hops u := by
  rw [periodWithin.eq_def]
  simp only [hm, ht, Option.bind_some]

/-- The lookup takes a hop for every master on the way, and needs none to spare. -/
theorem LeadsTo.periodWithin_eq (h : n.LeadsTo x root) (ht : n.task? x = some t)
    (hu : n.task? root = some u) (hr : n.Rank x k) (hk : k ≤ hops) : n.periodWithin hops t = u.period := by
  induction h generalizing t k hops with
  | root ht' hm =>
    obtain rfl := Option.some.inj (ht.symm.trans ht')
    obtain rfl := Option.some.inj (ht.symm.trans hu)
    exact periodWithin_root hm hops
  | slave ht' hm _ ih =>
    obtain rfl := Option.some.inj (ht.symm.trans ht')
    obtain ⟨j, rfl, habove⟩ := hr.above ht hm
    obtain ⟨v, hv⟩ := habove.deployed
    obtain ⟨spare, rfl⟩ := Nat.exists_eq_add_of_le' hk
    rw [← Nat.add_assoc, periodWithin_slave hm hv]
    exact ih hv hu habove (Nat.le_add_left _ _)

theorem periodWithin_eq_none (ht : n.task? x = some t) (h : ∀ root, ¬ n.LeadsTo x root) (hops : Nat) :
    n.periodWithin hops t = none := by
  refine Option.eq_none_iff_forall_ne_some.mpr fun period hperiod => ?_
  obtain ⟨root, -, hroot, -⟩ := root_of_periodWithin ht hperiod
  exact h root hroot

theorem LeadsTo.rootPeriod_eq (h : n.LeadsTo x root) (ht : n.task? x = some t)
    (hu : n.task? root = some u) : n.rootPeriod t = u.period := by
  obtain ⟨k, hr⟩ := h.rank
  exact h.periodWithin_eq ht hu hr hr.lt_size.le

/-- No chain that ends is cut off: further hops find nothing else, and one fewer would do. -/
theorem periodWithin_eq_rootPeriod (ht : n.task? x = some t) (hops : Nat) (h : n.tasks.size ≤ hops + 1) :
    n.periodWithin hops t = n.rootPeriod t := by
  by_cases hends : ∃ root, n.LeadsTo x root
  · obtain ⟨root, hroot⟩ := hends
    obtain ⟨u, hu⟩ := hroot.exists_task
    obtain ⟨k, hr⟩ := hroot.rank
    have hk := hr.lt_size
    rw [hroot.periodWithin_eq ht hu hr (by omega), hroot.rootPeriod_eq ht hu]
  · have hnone := not_exists.mp hends
    rw [rootPeriod, periodWithin_eq_none ht hnone, periodWithin_eq_none ht hnone]

theorem rootPeriod_eq_some_iff (ht : n.task? x = some t) : n.rootPeriod t = some period ↔
    ∃ root u, n.LeadsTo x root ∧ n.task? root = some u ∧ u.activity = .periodic period := by
  constructor
  · exact root_of_periodWithin ht
  · rintro ⟨root, u, hroot, hu, ha⟩
    rw [hroot.rootPeriod_eq ht hu]
    exact Task.period_eq_some.mpr ha

theorem rootPeriod_eq_none (ht : n.task? x = some t) (hxy : ReflTransGen n.IsSlaveOf x y)
    (hy : TransGen n.IsSlaveOf y y ∨ n.task? y = none) : n.rootPeriod t = none := by
  refine periodWithin_eq_none ht (fun root hroot => ?_) _
  obtain ⟨k, hr⟩ := hroot.rank
  obtain ⟨j, hr⟩ := hr.of_reflTransGen hxy
  rcases hy with hloop | hnone
  · exact hr.not_loops hloop
  · obtain ⟨v, hv⟩ := hr.deployed
    rw [hnone] at hv
    contradiction

/-- The period of a task is that of the periodic task that its masters end at, after however many steps.
There is none where they end at another task, loop or leave the network. -/
theorem rootPeriod_ends (n : Network) {x : String} {t : Task} (ht : n.task? x = some t) :
    (∀ period, n.rootPeriod t = some period ↔
      ∃ root u, n.LeadsTo x root ∧ n.task? root = some u ∧ u.activity = .periodic period) ∧
    (∀ hops, n.tasks.size ≤ hops + 1 → n.periodWithin hops t = n.rootPeriod t) ∧
    ∀ y, ReflTransGen n.IsSlaveOf x y → TransGen n.IsSlaveOf y y ∨ n.task? y = none →
      n.rootPeriod t = none :=
  ⟨fun _ => rootPeriod_eq_some_iff ht, periodWithin_eq_rootPeriod ht, fun _ => rootPeriod_eq_none ht⟩

theorem tangled_ends : ∃ echo under lost, tangled.task? "echo" = some echo ∧
    tangled.task? "under" = some under ∧ tangled.task? "lost" = some lost ∧
    tangled.rootPeriod echo = some ⟨200000000, by decide⟩ ∧
    (∃ root u, tangled.LeadsTo "echo" root ∧ tangled.task? root = some u ∧
      u.activity = .periodic ⟨200000000, by decide⟩) ∧
    tangled.periodWithin 1000 echo = some ⟨200000000, by decide⟩ ∧
    TransGen tangled.IsSlaveOf "left" "left" ∧ tangled.rootPeriod under = none ∧
    tangled.task? "nowhere" = none ∧ tangled.rootPeriod lost = none := by
  have hlookup : (tangled.task? "echo").bind tangled.rootPeriod = some ⟨200000000, by decide⟩ := by
    decide +kernel
  have hunder : tangled.IsSlaveOf "under" "left" := by decide +kernel
  have hleft : tangled.IsSlaveOf "left" "right" := by decide +kernel
  have hright : tangled.IsSlaveOf "right" "left" := by decide +kernel
  have hlost : tangled.IsSlaveOf "lost" "nowhere" := by decide +kernel
  have hloop : TransGen tangled.IsSlaveOf "left" "left" := .tail (.single hleft) hright
  have hnowhere : tangled.task? "nowhere" = none := by decide +kernel
  obtain ⟨echo, hecho, hperiod⟩ := Option.bind_eq_some_iff.mp hlookup
  obtain ⟨under, hu, -⟩ := Option.bind_eq_some_iff.mp hunder
  obtain ⟨lost, hl, -⟩ := Option.bind_eq_some_iff.mp hlost
  have hsize : tangled.tasks.size ≤ 1000 + 1 := by decide +kernel
  obtain ⟨hsome, hhops, -⟩ := rootPeriod_ends tangled hecho
  exact ⟨echo, under, lost, hecho, hu, hl, hperiod, (hsome _).mp hperiod, (hhops 1000 hsize).trans hperiod,
    hloop, (rootPeriod_ends tangled hu).2.2 "left" (.single hunder) (.inl hloop), hnowhere,
    (rootPeriod_ends tangled hl).2.2 "nowhere" (.single hlost) (.inr hnowhere)⟩

end FlowTiming.Network
