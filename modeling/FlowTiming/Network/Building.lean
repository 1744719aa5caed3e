import FlowTiming.Network.Basic

/-!
Building networks by hand, part by part, with times in seconds and ports as `task.port`.
-/

namespace FlowTiming

inductive BuildFault where
  | negativeSeconds
  | secondsOutOfRange
  | notAnEndpoint (text : String)
deriving DecidableEq

def BuildFault.message : BuildFault → String
  | negativeSeconds => "cannot convert float seconds to Duration: value is negative"
  | secondsOutOfRange => "cannot convert float seconds to Duration: value is either too big or NaN"
  | notAnEndpoint text => "endpoint '" ++ text ++ "' is not \"task.port\""

def Duration.ofSeconds (value : Binary64) : Except BuildFault Duration :=
  match Duration.ofSeconds? value with
  | some d => .ok d
  | none => .error (if value.isBelowZero then .negativeSeconds else .secondsOutOfRange)

namespace Task

def ofActivity (activity : Activity) : Task := { activity }

def everySeconds (seconds : Binary64) : Except BuildFault Task :=
  (Duration.ofSeconds seconds).map fun period => ofActivity (.periodic period)

def withLatency (t : Task) (seconds : Binary64) : Except BuildFault Task :=
  (Duration.ofSeconds seconds).map fun latency => { t with latency }

def withOutput (t : Task) (name : String) (p : OutputPort) : Task :=
  { t with outputs := t.outputs.insert name p }

/-- Adds an output that is written only when one of the inputs given receives data. -/
def withOutputOn (t : Task) (name : String) (triggers : List String) : Task :=
  t.withOutput name { onUpdate := false, triggers }

def withInput (t : Task) (name : String) (p : InputPort) : Task :=
  { t with inputs := t.inputs.insert name p }

def withReliableInput (t : Task) (name : String) (wakes : Bool) : Task :=
  t.withInput name { wakes, reliable := true }

def withUnreliableInput (t : Task) (name : String) (kind : ConnectionKind) : Task :=
  t.withInput name { kind }

/-- Attaches a device to outputs; the task becomes a driver if it is not one. -/
def withDriver (t : Task) (a : Attachment) : Task :=
  match t.kind with
  | .driver devices => { t with kind := .driver (devices ++ [a]) }
  | _ => { t with kind := .driver [a] }

/-- Attaches a device to inputs; the task becomes a bus if it is not one. -/
def withBus (t : Task) (a : Attachment) : Task :=
  match t.kind with
  | .bus devices => { t with kind := .bus (devices ++ [a]) }
  | _ => { t with kind := .bus [a] }

def withHint (t : Task) (d : PortDynamics) : Task :=
  { t with hints := { t.hints with task := some d } }

def withPortHint (t : Task) (port : String) (d : PortDynamics) : Task :=
  { t with hints := { t.hints with ports := t.hints.ports.insert port d } }

end Task

def Device.everySeconds (name : String) (seconds : Option Binary64) (burst sampleSize : Count) :
    Except BuildFault Device :=
  match seconds with
  | none => .ok ⟨name, none, burst, sampleSize⟩
  | some seconds =>
    (Duration.ofSeconds seconds).map fun period => ⟨name, some period, burst, sampleSize⟩

/-- The port that a text names before and after its last dot. -/
def Endpoint.ofText (text : String) : Except BuildFault Endpoint :=
  match Endpoint.cut? text with
  | some e => .ok e
  | none => .error (.notAnEndpoint text)

def Network.connectTexts (n : Network) (source sink : String) (policy : LinkPolicy) :
    Except BuildFault Network := do
  let source ← Endpoint.ofText source
  let sink ← Endpoint.ofText sink
  return n.connect ⟨source, sink⟩ policy

end FlowTiming
