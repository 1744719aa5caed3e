import FlowTiming.NetworkFile.Decoding
import FlowTiming.NetworkFile.Validation

/-!
Networks from network files. Hints for the same node are put together; of connections between
the same ports the last one counts.
-/

namespace FlowTiming

namespace OutputSection

def build (p : OutputSection) : Except Failure OutputPort := do
  return { sampleSize := p.sampleSize, burstPeriod := ← spanOf "burst_period" p.burstPeriod,
           burstSize := p.burstSize, onUpdate := p.onUpdate, triggers := p.triggers }

end OutputSection

namespace DeviceSection

def build (d : DeviceSection) : Except Failure Attachment := do
  let period ← match d.period with
    | some period => some <$> spanOf "device period" period
    | none => pure none
  return ⟨{ name := d.name, period, burst := d.burst, sampleSize := d.sampleSize }, d.ports⟩

end DeviceSection

namespace HintSection

def trigger (h : HintSection) : Except Failure Trigger := do
  return ⟨h.name, ← spanOf "hint period" h.period, h.sampleCount⟩

def label (h : HintSection) (task : String) : String :=
  match h.port with
  | some port => Endpoint.text ⟨task, port⟩
  | none => mainName task

/-- The sample size that the first hint for a node gives it: its own, or that of the output. -/
def startSize (h : HintSection) (outputs : Std.ExtTreeMap String OutputPort) : Count :=
  h.sampleSize.getD (((h.port.bind (outputs[·]?)).map OutputPort.sampleSize).getD 1)

def addTo (task : String) (outputs : Std.ExtTreeMap String OutputPort) (hints : Hints)
    (h : HintSection) : Except Failure Hints := do
  let t ← h.trigger
  let start : PortDynamics := .empty (h.label task) (h.startSize outputs)
  return match h.port with
    | none => { hints with task := some ((hints.task.getD start).addTrigger t) }
    | some port =>
      let d := (hints.ports.getD port start).addTrigger t
      { hints with ports := hints.ports.insert port d }

def notes (h : HintSection) (task : String) : List Entry :=
  match h.trigger with
  | .ok t => PortDynamics.additionNotes (h.label task) [t]
  | .error _ => []

end HintSection

namespace TaskSection

def buildActivity (t : TaskSection) : Except Failure Activity :=
  match t.activity with
  | .periodic => (spanOf "period" (t.period.getD .zero)).map .periodic
  | .triggered => .ok .triggered
  | .slave => .ok (.slave (t.master.getD ""))

def buildOutputs (t : TaskSection) : Except Failure (Std.ExtTreeMap String OutputPort) :=
  t.outputs.toList.foldlM (fun m p => p.2.build.map fun output => m.insert p.1 output) ∅

def buildKind (t : TaskSection) (devices : List Attachment) : TaskKind :=
  match t.kind with
  | .component => .component
  | .driver => .driver devices
  | .bus => .bus devices

def build (t : TaskSection) (task : String) : Except Failure Task := do
  let activity ← t.buildActivity
  let latency ← spanOf "trigger_latency" t.latency
  let outputs ← t.buildOutputs
  let devices ← t.devices.mapM DeviceSection.build
  let hints ← t.hints.foldlM (HintSection.addTo task outputs) {}
  return { activity, latency, kind := t.buildKind devices, inputs := t.inputs, outputs, hints }

end TaskSection

namespace NetworkFile

def connect (n : Network) (c : ConnectionSection) : Except Failure Network := do
  let source ← endpointOf c.source
  let sink ← endpointOf c.sink
  return n.connect ⟨source, sink⟩ c.policy

def build (f : NetworkFile) : Except Failure Network := do
  let n ← f.tasks.toList.foldlM (fun n t => (t.2.build t.1).map (n.addTask t.1)) Network.empty
  f.connections.foldlM connect n

def buildNotes (f : NetworkFile) : List Entry :=
  f.tasks.toList.flatMap fun t => t.2.hints.flatMap fun h => h.notes t.1

def margin (f : NetworkFile) : Except Failure Margin := Margin.ofBinary64 f.marginRatio

def load (text : String) : Except Failure ValidFile := do
  (← read text).validate

end NetworkFile

end FlowTiming
