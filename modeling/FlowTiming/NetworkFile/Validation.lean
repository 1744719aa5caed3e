import FlowTiming.NetworkFile.Basic

/-!
Validation of network files. The checks run in a fixed order, tasks by name, and the first
fault found is the one that is told.
-/

namespace FlowTiming.NetworkFile

/-- Nothing is wrong, or a fault is. -/
abbrev Check := Except Failure Unit

def fault (f : FileFault) : Check := .error (.badFile f)

/-- A fault unless the condition holds. -/
def demand (holds : Bool) (f : FileFault) : Check := if holds then .ok () else fault f

def checkSpan (what : String) (value : Binary64) : Check := do
  let _ ← spanOf what value

def checkTasks (f : NetworkFile) : Check := demand (!f.tasks.isEmpty) .noTasks

def checkMargin (f : NetworkFile) : Check := do
  let _ ← Margin.ofBinary64 f.marginRatio

/-- A periodic task has a period of at least a nanosecond, any other one has none. -/
def checkPeriod (task : String) (t : TaskSection) : Check :=
  match t.activity, t.period with
  | .periodic, none => fault (.periodicWithoutPeriod task)
  | .periodic, some period => do
    let d ← spanOf ("task '" ++ task ++ "': period") period
    demand (d.nanos != 0) (.zeroPeriod task)
  | .triggered, period | .slave, period => demand period.isNone (.strayPeriod task)

/-- A slave has another task of the file as its master, any other task has none. -/
def checkMaster (f : NetworkFile) (task : String) (t : TaskSection) : Check :=
  match t.activity, t.master with
  | .slave, none => fault (.slaveWithoutMaster task)
  | .slave, some master => do
    demand (master != task) (.ownMaster task)
    demand (f.tasks.contains master) (.unknownMaster task master)
  | .periodic, master | .triggered, master => demand master.isNone (.strayMaster task)

def checkActivity (f : NetworkFile) (task : String) (t : TaskSection) : Check := do
  checkSpan ("task '" ++ task ++ "': trigger_latency") t.latency
  checkPeriod task t
  f.checkMaster task t

def checkOutput (task : String) (t : TaskSection) (p : String × OutputSection) : Check := do
  let place : Endpoint := ⟨task, p.1⟩
  demand (p.2.sampleSize.toNat != 0) (.zeroOutputSize place)
  checkSpan ("output '" ++ place.text ++ "': burst_period") p.2.burstPeriod
  p.2.triggers.forM fun input =>
    demand (t.inputs.contains input) (.unknownTriggerInput place input)

def checkPorts (task : String) (t : TaskSection) : Check := do
  t.outputs.toList.forM (checkOutput task t)
  match t.inputs.keys.find? t.outputs.contains with
  | some port => fault (.inputAndOutput task port)
  | none => .ok ()

/-- Devices are attached to inputs of a bus and to outputs of any other task. -/
def checkAttachment (task : String) (t : TaskSection) (device port : String) : Check :=
  match t.kind with
  | .bus => demand (t.inputs.contains port) (.deviceOnUnknownInput device ⟨task, port⟩)
  | .driver => demand (t.outputs.contains port) (.deviceOnUnknownOutput device ⟨task, port⟩)
  | .component => fault (.deviceOnUnknownOutput device ⟨task, port⟩)

def checkDevice (task : String) (t : TaskSection) (d : DeviceSection) : Check := do
  match d.period with
  | some period => checkSpan ("device '" ++ d.name ++ "': period") period
  | none => pure ()
  demand (d.sampleSize.toNat != 0) (.zeroDeviceSize d.name)
  d.ports.forM (checkAttachment task t d.name)

def checkDevices (task : String) (t : TaskSection) : Check := do
  demand (t.kind != .component || t.devices.isEmpty) (.strayDevices task)
  t.devices.forM (checkDevice task t)

def checkHint (task : String) (t : TaskSection) (h : HintSection) : Check := do
  checkSpan ("hint '" ++ h.name ++ "' on task '" ++ task ++ "': period") h.period
  demand (h.sampleSize.all (·.toNat != 0)) (.zeroHintSize h.name task)
  match h.port with
  | some port =>
    demand (t.outputs.contains port || t.inputs.contains port) (.hintOnUnknownPort h.name ⟨task, port⟩)
  | none => .ok ()

def checkTask (f : NetworkFile) (task : String) (t : TaskSection) : Check := do
  f.checkActivity task t
  checkPorts task t
  checkDevices task t
  t.hints.forM (checkHint task t)

/-! ### Masters -/

def masterOf (f : NetworkFile) (task : String) : Option String :=
  f.tasks[task]?.bind TaskSection.master

/-- Whether the masters above a task come to an end within so many steps. -/
def chainEnds (f : NetworkFile) : Nat → String → Bool
  | 0, task => (f.masterOf task).isNone
  | steps + 1, task => (f.masterOf task).all (f.chainEnds steps)

def slavesOf (f : NetworkFile) (master : String) : List String :=
  (f.tasks.keys.filter fun task => f.masterOf task == some master).reverse

/-- Extends a list of tasks by a task after everything below it, unless it is met already; at most
so many tasks deep. The first list holds the tasks met, the second those done, last first. -/
def descend (f : NetworkFile) : Nat → List String × List String → String → List String × List String
  | 0, walk, _ => walk
  | depth + 1, (met, done), task =>
    if met.contains task then (met, done)
    else
      let (met, done) := (f.slavesOf task).foldl (f.descend depth) (task :: met, done)
      (met, task :: done)

/-- All tasks, each master before its slaves as far as that is possible. -/
def downward (f : NetworkFile) : List String :=
  (f.tasks.keys.foldl (f.descend f.tasks.size) ([], [])).2

/-- The master of the first task, going downward, that comes before its master. -/
def loopMaster (f : NetworkFile) : List String → List String → Option String
  | _, [] => none
  | before, task :: rest =>
    match f.masterOf task with
    | some master =>
      if before.contains master then f.loopMaster (task :: before) rest else some master
    | none => f.loopMaster (task :: before) rest

def checkMasters (f : NetworkFile) : Check :=
  if f.tasks.keys.all (f.chainEnds f.tasks.size) then .ok ()
  else .error (.masterLoop ((f.loopMaster [] f.downward).getD ""))

/-! ### Connections -/

def checkSource (f : NetworkFile) (c : ConnectionSection) (e : Endpoint) : Check :=
  match f.tasks[e.task]? with
  | none => fault (.unknownSourceTask c.source e.task)
  | some t => demand (t.outputs.contains e.port) (.sourceNotOutput c.source)

def checkSink (f : NetworkFile) (c : ConnectionSection) (e : Endpoint) : Check :=
  match f.tasks[e.task]? with
  | none => fault (.unknownSinkTask c.sink e.task)
  | some t => demand (t.inputs.contains e.port) (.sinkNotInput c.sink)

def checkPolicy (c : ConnectionSection) (p : Option Policy) : Check :=
  demand (p != some (.buffer 0)) (.zeroBuffer c.source c.sink)

def checkConnection (f : NetworkFile) (c : ConnectionSection) : Check := do
  let source ← endpointOf c.source
  let sink ← endpointOf c.sink
  f.checkSource c source
  f.checkSink c sink
  checkPolicy c c.policy.preset
  checkPolicy c c.policy.fallback

def check (f : NetworkFile) : Check := do
  f.checkTasks
  f.checkMargin
  f.tasks.toList.forM fun t => f.checkTask t.1 t.2
  f.checkMasters
  f.connections.forM f.checkConnection

end NetworkFile

/-- A network file in which no check finds a fault. -/
structure ValidFile where
  file : NetworkFile
  checked : file.check = .ok ()

namespace NetworkFile

def validate (f : NetworkFile) : Except Failure ValidFile :=
  match h : f.check with
  | .ok () => .ok ⟨f, h⟩
  | .error e => .error e

end FlowTiming.NetworkFile
