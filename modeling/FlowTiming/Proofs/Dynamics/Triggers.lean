import FlowTiming.Dynamics.Basic
import FlowTiming.Proofs.Collections

/-!
Which triggers dynamics have.
-/

namespace FlowTiming

namespace PortDynamics

theorem mem_addTrigger (d : PortDynamics) (t x : Trigger) :
    x ∈ (d.addTrigger t).triggers ↔ x ∈ d.triggers ∨ t.count.toNat ≠ 0 ∧ t = x := by
  unfold addTrigger
  split
  case isTrue h => simp [h]
  case isFalse h =>
    rw [Std.ExtTreeSet.mem_insert, Std.compare_eq_iff_eq]
    simp [h, or_comm]

@[simp] theorem sampleSize_addTrigger (d : PortDynamics) (t : Trigger) :
    (d.addTrigger t).sampleSize = d.sampleSize := by
  unfold addTrigger
  split <;> rfl

@[simp] theorem name_addTrigger (d : PortDynamics) (t : Trigger) : (d.addTrigger t).name = d.name := by
  unfold addTrigger
  split <;> rfl

theorem mem_foldl_addTrigger (facts : List Trigger) (d : PortDynamics) (x : Trigger) :
    x ∈ (facts.foldl addTrigger d).triggers ↔ x ∈ d.triggers ∨ x ∈ facts ∧ x.count.toNat ≠ 0 := by
  rw [foldl_iff (fun d : PortDynamics => x ∈ d.triggers) _ fun d t => mem_addTrigger d t x]
  apply or_congr_right
  constructor
  · rintro ⟨t, ht, hc, rfl⟩
    exact ⟨ht, hc⟩
  · rintro ⟨hx, hc⟩
    exact ⟨x, hx, hc, rfl⟩

theorem mem_ofTriggers {name : String} {size : Count} {facts : List Trigger} {x : Trigger} :
    x ∈ (ofTriggers name size facts).triggers ↔ x ∈ facts ∧ x.count.toNat ≠ 0 := by
  rw [ofTriggers, mem_foldl_addTrigger]
  simp [empty]

theorem name_ofTriggers (name : String) (size : Count) (facts : List Trigger) :
    (ofTriggers name size facts).name = name ∧
      (ofTriggers name size facts).sampleSize = max size 1 := by
  refine List.foldlRecOn (motive := fun d : PortDynamics => d.name = name ∧ d.sampleSize = max size 1)
    facts addTrigger ⟨rfl, rfl⟩ fun d hd t _ => ?_
  unfold addTrigger
  split <;> exact hd

theorem mem_merge {d other : PortDynamics} {x : Trigger} :
    x ∈ (d.merge other).triggers ↔ x ∈ d.triggers ∨ x ∈ other.triggers :=
  Std.ExtTreeSet.mem_union_iff

theorem isEmpty_iff {d : PortDynamics} : d.isEmpty = true ↔ ∀ x, x ∉ d.triggers :=
  isEmpty_iff_not_mem

theorem foldl_merge (others : List PortDynamics) (d : PortDynamics) :
    (others.foldl merge d).name = d.name ∧ (others.foldl merge d).sampleSize = d.sampleSize ∧
      ∀ x, x ∈ (others.foldl merge d).triggers ↔ x ∈ d.triggers ∨ ∃ o ∈ others, x ∈ o.triggers := by
  induction others generalizing d with
  | nil => simp
  | cons o others ih =>
    obtain ⟨hname, hsize, hmem⟩ := ih (d.merge o)
    refine ⟨hname, hsize, fun x => ?_⟩
    rw [List.foldl_cons, hmem, mem_merge, or_assoc]
    simp only [List.mem_cons, exists_eq_or_imp]

end PortDynamics

end FlowTiming
