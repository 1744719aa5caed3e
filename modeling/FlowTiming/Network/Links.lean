import Std.Data.ExtTreeMap
import FlowTiming.Network.Endpoint

/-!
Links between ports, each with a label: at most one from an output to an input, in the
order of the tasks first and the ports second.
-/

namespace FlowTiming

structure Links (ε : Type) where
  labels : Std.ExtTreeMap Link ε

namespace Links

variable {ε : Type}

def empty : Links ε := ⟨∅⟩

instance : Inhabited (Links ε) := ⟨empty⟩

def insert (l : Links ε) (link : Link) (label : ε) : Links ε :=
  ⟨l.labels.insert link label⟩

def get? (l : Links ε) (link : Link) : Option ε := l.labels[link]?

def size (l : Links ε) : Nat := l.labels.size

def isEmpty (l : Links ε) : Bool := l.labels.isEmpty

def toList (l : Links ε) : List (Link × ε) := l.labels.toList

def between (l : Links ε) (source sink : String) : List (Link × ε) :=
  l.toList.filter fun e => e.1.source.task == source && e.1.sink.task == sink

def sourcesOf (l : Links ε) (sink : Endpoint) : List Endpoint :=
  (l.toList.filter (·.1.sink == sink)).map (·.1.source)

def feeds (l : Links ε) (sink : Endpoint) : Bool := l.toList.any (·.1.sink == sink)

end Links

end FlowTiming
