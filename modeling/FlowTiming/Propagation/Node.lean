import Std.Data.ExtTreeSet

/-!
Nodes of a propagation: tasks and their ports.
-/

namespace FlowTiming

structure Node (τ π : Type) where
  task : τ
  port : Option π
deriving DecidableEq

namespace Node

variable {τ π : Type} [Ord τ] [Ord π]

/-- By task, the task itself before its ports. -/
instance : Ord (Node τ π) := ⟨compareLex (compareOn task) (compareOn port)⟩

theorem compare_def (a b : Node τ π) :
    compare a b = (compare a.task b.task).then (compare a.port b.port) := rfl

instance [Std.TransOrd τ] [Std.TransOrd π] : Std.TransOrd (Node τ π) :=
  inferInstanceAs (Std.TransCmp (compareLex (compareOn task) (compareOn port)))

instance [Std.LawfulEqOrd τ] [Std.LawfulEqOrd π] : Std.LawfulEqOrd (Node τ π) where
  compare_self {a} := by
    rw [compare_def, Ordering.then_eq_eq]
    exact ⟨Std.ReflCmp.compare_self, Std.ReflCmp.compare_self⟩
  eq_of_compare {a b} h := by
    rw [compare_def, Ordering.then_eq_eq] at h
    obtain ⟨task, port⟩ := h
    cases a
    cases b
    simp_all

end Node

end FlowTiming
