import FlowTiming.Flow.Basic

/-!
Seeding: what is known about a network without following its links. Periods, devices and hints
give the first triggers; a task seeds the tasks that run together with it before itself.
-/

namespace FlowTiming

namespace Device

def triggers (d : Device) : List Trigger :=
  (match d.period with
    | some period => [⟨d.name, period, 1⟩]
    | none => []) ++ [⟨d.name ++ "-burst", .zero, d.burst⟩]

def dynamics (d : Device) : PortDynamics := .ofTriggers d.name 1 d.triggers

def polled (d : Device) (period : Duration) : Trigger :=
  ⟨d.name, period, d.dynamics.queueSize period⟩

/-- The triggers of a device behind a bus, whose bursts come as often as their samples take. -/
def busTriggers (d : Device) : List Trigger :=
  match d.period with
  | some period => [⟨d.name, period, 1⟩, ⟨d.name, period.scaled d.burst, d.burst⟩]
  | none => []

def note (d : Device) (task : String) : Entry :=
  resolverNote "attached device" [("task", task), ("device", d.name),
    ("period", Text.optional (d.period.map Duration.unitText)), ("burst", toString d.burst)]

end Device

namespace FlowBoard

/-- Seeds the outputs that a device of a driver is attached to, and the driver itself unless it
reads the device by its own period. -/
def seedDevice (task : String) (t : Task) (b : FlowBoard) (a : Attachment) : FlowBoard :=
  let d := a.device
  let b := b.note (d.note task)
  let b := b.noteAll (PortDynamics.additionNotes d.name d.triggers)
  if d.dynamics.isEmpty then b
  else
    match t.activity with
    | .periodic period =>
      a.ports.foldl (fun b port =>
        (FlowBoard.contributeTriggers b t ⟨task, some port⟩ d.name 1 [d.polled period]).finalize
          ⟨task, some port⟩) b
    | .triggered | .slave _ =>
      a.ports.foldl (fun b port =>
        (FlowBoard.contribute b t ⟨task, some port⟩ d.dynamics).finalize ⟨task, some port⟩)
        (FlowBoard.contribute b t (taskNode task) d.dynamics)

/-- Adds what a device behind a bus sends to the inputs it is attached to. -/
def seedBusDevice (task : String) (t : Task) (b : FlowBoard) (a : Attachment) : FlowBoard :=
  a.ports.foldl (fun b port =>
    FlowBoard.contributeTriggers b t ⟨task, some port⟩ (Endpoint.text ⟨task, port⟩)
      a.device.sampleSize a.device.busTriggers) b

def seedBus (task : String) (t : Task) (b : FlowBoard) (devices : List Attachment) : FlowBoard :=
  let ports : Std.ExtTreeSet String :=
    (devices.flatMap (·.ports)).foldl (fun s port => s.insert port) ∅
  ports.toList.foldl (fun b port => b.finalize ⟨task, some port⟩)
    (devices.foldl (FlowBoard.seedBusDevice task t) b)

def seedKind (task : String) (t : Task) (b : FlowBoard) : FlowBoard :=
  match t.kind with
  | .component => b
  | .driver devices => devices.foldl (FlowBoard.seedDevice task t) b
  | .bus devices => FlowBoard.seedBus task t b devices

def seedModels (task : String) (t : Task) (b : FlowBoard) : FlowBoard :=
  t.outputs.toList.foldl (fun b p => FlowBoard.placeOutput b ⟨task, p.1⟩ p.2)
    (FlowBoard.placeTask b task)

/-- Adds the hints; a port with a hint is final. -/
def seedHints (task : String) (t : Task) (b : FlowBoard) : FlowBoard :=
  let b := match t.hints.task with
    | some d => FlowBoard.contribute b t (taskNode task) d
    | none => b
  t.hints.ports.toList.foldl (fun b h =>
    (FlowBoard.contribute b t ⟨task, some h.1⟩ h.2).finalize ⟨task, some h.1⟩) b

end FlowBoard

namespace Network

/-- Seeds a task by its activity: a periodic task and a triggered one that nothing can wake are
final, and one that runs together with another waits for it. -/
def seedActivity (n : Network) (task : String) (t : Task) (b : FlowBoard) : FlowBoard :=
  match t.activity with
  | .periodic period =>
    let b := b.note (resolverNote "adding periodic trigger"
      [("task", task), ("period", period.inSeconds.markedText)])
    n.finish task (FlowBoard.contributeTriggers b t (taskNode task) (mainName task) 1
      [⟨mainName task ++ "-period", period, 1⟩])
  | .triggered => if t.wakingInputs.isEmpty then n.finish task b else b
  | .slave _ => b

def seedTask (n : Network) (task : String) (t : Task) (b : FlowBoard) : FlowBoard :=
  let b := b.note (resolverNote "initial port dynamics" [("task", task)])
  n.seedActivity task t
    (FlowBoard.seedKind task t (FlowBoard.seedHints task t (FlowBoard.seedModels task t b)))

/-- Seeds a task after the tasks that run together with it and about which nothing is known, at
most so many tasks deep. -/
def seedWithin (n : Network) : Nat → String → Task → FlowBoard → FlowBoard
  | 0, _, _, b => b
  | depth + 1, task, t, b =>
    n.seedTask task t <| (n.slavesOf task).foldl (fun b s =>
      if b.isKnown (taskNode s.1) then b else n.seedWithin depth s.1 s.2 b) b

/-- Seeds a deployed task that has no master, and with it all tasks below. No chain of masters
that ends is longer than there are tasks. -/
def seed (n : Network) (task : String) (b : FlowBoard) : FlowBoard :=
  match n.task? task with
  | none => b
  | some t => if t.master.isSome then b else n.seedWithin n.tasks.size task t b

end Network

end FlowTiming
