import Std.Data.ExtTreeMap
import FlowTiming.Dynamics.Basic

/-!
Tasks of a network: what triggers them, their ports, the devices attached to them, and the
dynamics that are known of them in advance.
-/

namespace FlowTiming

inductive ConnectionKind where
  /-- The latest value. -/
  | data
  /-- One slot. -/
  | buffer
deriving DecidableEq, Inhabited

structure InputPort where
  /-- Data arriving here wakes the task up. -/
  wakes : Bool := true
  /-- No sample may be lost on the way here. -/
  reliable : Bool := false
  kind : ConnectionKind := .data
deriving DecidableEq, Inhabited

structure OutputPort where
  /-- Data samples in a virtual sample. -/
  sampleSize : Count := 1
  burstPeriod : Duration := .zero
  /-- Samples in a burst; none if zero. -/
  burstSize : Count := 0
  /-- Whether the port is written every time the task runs. -/
  onUpdate : Bool := true
  /-- Inputs whose data cause a write. -/
  triggers : List String := []
deriving DecidableEq, Inhabited

inductive Activity where
  | periodic (period : Duration)
  /-- When data arrives on a waking input. -/
  | triggered
  /-- Together with another task. -/
  | slave (master : String)
deriving DecidableEq, Inhabited

structure Device where
  name : String
  period : Option Duration
  /-- Samples that can come at once. -/
  burst : Count
  sampleSize : Count
deriving DecidableEq, Inhabited

/-- A device and the ports it is wired to, outputs of a driver and inputs of a bus. -/
structure Attachment where
  device : Device
  ports : List String
deriving DecidableEq, Inhabited

/-- What a task stands for. Drivers and buses get their timing from devices. -/
inductive TaskKind where
  | component
  | driver (devices : List Attachment)
  | bus (devices : List Attachment)
deriving DecidableEq, Inhabited

/-- Dynamics known in advance: of the task, which is still resolved, and of ports, which are final
from the start. -/
structure Hints where
  task : Option PortDynamics := none
  ports : Std.ExtTreeMap String PortDynamics := ∅

structure Task where
  activity : Activity
  /-- Time from a trigger until it is processed. -/
  latency : Duration := .zero
  kind : TaskKind := .component
  inputs : Std.ExtTreeMap String InputPort := ∅
  outputs : Std.ExtTreeMap String OutputPort := ∅
  hints : Hints := {}

instance : Inhabited Task := ⟨{ activity := .triggered }⟩

namespace Task

def period (t : Task) : Option Duration :=
  match t.activity with
  | .periodic period => some period
  | .triggered | .slave _ => none

def master (t : Task) : Option String :=
  match t.activity with
  | .slave master => some master
  | .periodic _ | .triggered => none

def wakingInputs (t : Task) : List String :=
  (t.inputs.toList.filter (·.2.wakes)).map Prod.fst

end Task

end FlowTiming
