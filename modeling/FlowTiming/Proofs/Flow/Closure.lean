import FlowTiming.Flow.Resolution
import Mathlib.Data.Set.Defs

/-!
What the final nodes of a network are to be: the nodes that start final, and every task and output
once all it depends on counts as final.
-/

namespace FlowTiming

def Device.IsActive (d : Device) : Prop := d.period.isSome = true ∨ d.burst.toNat ≠ 0

/-- Whether a task, or one of its ports, is final before anything is resolved. -/
inductive Task.StartsFinal (t : Task) : Option String → Prop
  | periodic {period : Duration} : t.activity = .periodic period → StartsFinal t none
  | idle : t.activity = .triggered → t.wakingInputs = [] → StartsFinal t none
  | hinted {p : String} : p ∈ t.hints.ports → StartsFinal t (some p)
  | driven {devices : List Attachment} {a : Attachment} {p : String} : t.kind = .driver devices →
      a ∈ devices → a.device.IsActive → p ∈ a.ports → StartsFinal t (some p)
  | received {devices : List Attachment} {a : Attachment} {p : String} : t.kind = .bus devices →
      a ∈ devices → p ∈ a.ports → StartsFinal t (some p)

namespace Network

def StartsFinal (n : Network) (x : FlowNode) : Prop :=
  ∃ t, n.task? x.task = some t ∧ t.StartsFinal x.port

/-- Whether data can arrive at an input: it is linked, or final from the start. -/
def CanArrive (n : Network) (e : Endpoint) : Prop := n.links.feeds e = true ∨ n.StartsFinal e.node

/-- Whether a node is a task of the network or one of its outputs. -/
def IsRequired (n : Network) (x : FlowNode) : Prop :=
  ∃ t, n.task? x.task = some t ∧ ∀ p, x.port = some p → p ∈ t.outputs

theorem required_task {n : Network} {x : String} {t : Task} (ht : n.task? x = some t) :
    n.IsRequired (taskNode x) := ⟨t, ht, fun _ h => by simp [taskNode] at h⟩

theorem required_output {n : Network} {x p : String} {t : Task} (ht : n.task? x = some t)
    (hp : p ∈ t.outputs) : n.IsRequired ⟨x, some p⟩ := by
  refine ⟨t, ht, ?_⟩
  rintro _ ⟨⟩
  exact hp

inductive Depends (n : Network) : FlowNode → FlowNode → Prop
  | master {x m : String} {t : Task} : n.task? x = some t → t.master = some m →
      Depends n (taskNode x) (taskNode m)
  | waking {x p : String} {t : Task} : n.task? x = some t → t.master = none →
      p ∈ t.wakingInputs → n.CanArrive ⟨x, p⟩ → Depends n (taskNode x) ⟨x, some p⟩
  | update {x p : String} {t : Task} {o : OutputPort} : n.task? x = some t → t.outputs[p]? = some o →
      o.onUpdate = true → Depends n ⟨x, some p⟩ (taskNode x)
  | cause {x p i : String} {t : Task} {o : OutputPort} : n.task? x = some t → t.outputs[p]? = some o →
      i ∈ o.triggers → n.CanArrive ⟨x, i⟩ → Depends n ⟨x, some p⟩ ⟨x, some i⟩

/-- Whether a node counts as final where the nodes of a set are: an input that does not start final
does once all outputs linked to it are in the set. -/
inductive Counts (n : Network) (F : Set FlowNode) : FlowNode → Prop
  | mem {x : FlowNode} : x ∈ F → Counts n F x
  | input {e : Endpoint} : n.hasInput e = true → ¬ n.StartsFinal e.node →
      (∀ s ∈ n.links.sourcesOf e, s.node ∈ F) → Counts n F e.node

structure IsClosed (n : Network) (F : Set FlowNode) : Prop where
  starts : ∀ x, n.StartsFinal x → x ∈ F
  follows : ∀ x, n.IsRequired x → (∀ y, n.Depends x y → n.Counts F y) → x ∈ F

end Network

end FlowTiming
