import FlowTiming.Network.Basic
import FlowTiming.Policy.Margin

/-!
Network files: what is written down about a network, before anything is checked. Times are
numbers of seconds as written.
-/

namespace FlowTiming

inductive ActivityName where
  | periodic
  | triggered
  | slave
deriving DecidableEq, Inhabited

inductive KindName where
  | component
  | driver
  | bus
deriving DecidableEq, Inhabited

structure OutputSection where
  sampleSize : Count := 1
  burstPeriod : Binary64 := .zero
  burstSize : Count := 0
  onUpdate : Bool := true
  triggers : List String := []
deriving DecidableEq, Inhabited

structure DeviceSection where
  name : String
  period : Option Binary64 := none
  burst : Count := 0
  sampleSize : Count := 1
  ports : List String := []
deriving DecidableEq, Inhabited

structure HintSection where
  port : Option String := none
  name : String
  period : Binary64 := .zero
  sampleCount : Count
  sampleSize : Option Count := none
deriving DecidableEq, Inhabited

structure TaskSection where
  activity : ActivityName := .triggered
  period : Option Binary64 := none
  master : Option String := none
  latency : Binary64 := .zero
  kind : KindName := .component
  outputs : Std.ExtTreeMap String OutputSection := ∅
  inputs : Std.ExtTreeMap String InputPort := ∅
  devices : List DeviceSection := []
  hints : List HintSection := []

instance : Inhabited TaskSection := ⟨{}⟩

structure ConnectionSection where
  source : String
  sink : String
  policy : LinkPolicy
deriving DecidableEq, Inhabited

structure NetworkFile where
  marginRatio : Binary64 := Margin.standardRatio
  tasks : Std.ExtTreeMap String TaskSection := ∅
  connections : List ConnectionSection := []

instance : Inhabited NetworkFile := ⟨{}⟩

/-- A number of seconds as a span of time; `what` names it where it is refused. -/
def spanOf (what : String) (value : Binary64) : Except Failure Duration :=
  match Duration.ofSeconds? value with
  | some d => .ok d
  | none => .error (.badFile (.badSeconds what value))

def endpointOf (text : String) : Except Failure Endpoint :=
  match Endpoint.read? text with
  | some e => .ok e
  | none => .error (.badFile (.badEndpoint text))

end FlowTiming
