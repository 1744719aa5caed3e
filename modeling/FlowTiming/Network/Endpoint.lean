import FlowTiming.Propagation.Node

/-!
Ports by task and name, their text `task.port`, and links between them.
-/

namespace FlowTiming

structure Endpoint where
  task : String
  port : String
deriving DecidableEq, Inhabited

namespace Endpoint

def text (e : Endpoint) : String := e.task ++ "." ++ e.port

def cut? (text : String) : Option Endpoint :=
  let backwards := text.toList.reverse
  match backwards.dropWhile (· != '.') with
  | [] => none
  | _ :: task =>
    some ⟨String.ofList task.reverse, String.ofList (backwards.takeWhile (· != '.')).reverse⟩

/-- Reads `task.port`, where the port is what follows the last dot and neither is empty. -/
def read? (text : String) : Option Endpoint :=
  (cut? text).filter fun e => !e.task.isEmpty && !e.port.isEmpty

def node (e : Endpoint) : Node String String := ⟨e.task, some e.port⟩

end Endpoint

def taskNode (task : String) : Node String String := ⟨task, none⟩

def mainName (task : String) : String := task ++ ".main"

def Node.text (n : Node String String) : String :=
  match n.port with
  | some port => Endpoint.text ⟨n.task, port⟩
  | none => n.task

def chainText (nodes : List (Node String String)) : String :=
  " -> ".intercalate (nodes.map Node.text)

structure Link where
  source : Endpoint
  sink : Endpoint
deriving DecidableEq, Inhabited

namespace Link

instance : Ord Link :=
  ⟨compareLex (compareOn (·.source.task)) (compareLex (compareOn (·.sink.task))
    (compareLex (compareOn (·.source.port)) (compareOn (·.sink.port))))⟩

theorem compare_def (a b : Link) :
    compare a b = (compare a.source.task b.source.task).then
      ((compare a.sink.task b.sink.task).then ((compare a.source.port b.source.port).then
        (compare a.sink.port b.sink.port))) := rfl

instance : Std.TransOrd Link :=
  inferInstanceAs (Std.TransCmp (compareLex (compareOn fun l : Link => l.source.task)
    (compareLex (compareOn fun l : Link => l.sink.task)
      (compareLex (compareOn fun l : Link => l.source.port)
        (compareOn fun l : Link => l.sink.port)))))

instance : Std.LawfulEqOrd Link where
  eq_of_compare {a b} h := by
    rw [compare_def, Ordering.then_eq_eq, Ordering.then_eq_eq, Ordering.then_eq_eq] at h
    obtain ⟨⟨_, _⟩, ⟨_, _⟩⟩ := a
    obtain ⟨⟨_, _⟩, ⟨_, _⟩⟩ := b
    simp_all

end Link

end FlowTiming
