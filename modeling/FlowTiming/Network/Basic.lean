import FlowTiming.Network.Links
import FlowTiming.Network.Task
import FlowTiming.Policy.Basic

/-!
Networks: tasks by name, and links between their ports. Nothing is checked here; a link may
name a port that its task does not have.
-/

namespace FlowTiming

structure Network where
  tasks : Std.ExtTreeMap String Task
  links : Links LinkPolicy

namespace Network

def empty : Network := ⟨∅, .empty⟩

instance : Inhabited Network := ⟨empty⟩

def addTask (n : Network) (name : String) (task : Task) : Network :=
  { n with tasks := n.tasks.insert name task }

def connect (n : Network) (link : Link) (policy : LinkPolicy) : Network :=
  { n with links := n.links.insert link policy }

def task? (n : Network) (name : String) : Option Task := n.tasks[name]?

def taskNames (n : Network) : List String := n.tasks.keys

def slavesOf (n : Network) (master : String) : List (String × Task) :=
  n.tasks.toList.filter fun t => t.2.master == some master

def hasInput (n : Network) (port : Endpoint) : Bool :=
  (n.task? port.task).any (·.inputs.contains port.port)

/-- The period at the root of a chain of masters, at most so many masters up. -/
def periodWithin (n : Network) : Nat → Task → Option Duration
  | hops, t =>
    match t.master, hops with
    | none, _ => t.period
    | some _, 0 => none
    | some master, hops + 1 => (n.task? master).bind (n.periodWithin hops)

/-- The period of the task that in the end triggers a task: its own, or that of the root of its
masters. -/
def rootPeriod (n : Network) (t : Task) : Option Duration := n.periodWithin n.tasks.size t

end Network

end FlowTiming
