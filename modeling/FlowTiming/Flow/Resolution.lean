import FlowTiming.Flow.Seeding
import FlowTiming.Propagation.Cycle

/-!
Resolution: how the dynamics of tasks and outputs follow from others. An input that is not
seeded is final once every output linked to it is, and has the triggers of them all.
-/

namespace FlowTiming

/-- What each node needs before it can be resolved. -/
abbrev Dependencies := Std.ExtTreeMap FlowNode (Std.ExtTreeSet FlowNode)

abbrev FlowRun := Run String String PortDynamics Dependencies

namespace Network

def inputOf (n : Network) (node : FlowNode) : Option Endpoint :=
  (node.port.map fun port => ⟨node.task, port⟩).filter n.hasInput

def isSettled (n : Network) (b : FlowBoard) (node : FlowNode) : Bool :=
  b.isFinal node ||
    match n.inputOf node with
    | some input => (n.links.sourcesOf input).all fun s => b.isFinal s.node
    | none => false

def sourceDynamics (n : Network) (b : FlowBoard) (input : Endpoint) : List PortDynamics :=
  (n.links.sourcesOf input).filterMap fun s => b.info? s.node

/-- What an input has before its sources are merged into it; its samples are as great as the
greatest of theirs. -/
def inputStart (n : Network) (b : FlowBoard) (input : Endpoint) : PortDynamics :=
  (b.info? input.node).getD
    (.empty input.text (((n.sourceDynamics b input).map (·.sampleSize)).foldl max 1))

/-- Dynamics of a node, where an input that is not final has those of its sources. -/
def dynamicsOf (n : Network) (b : FlowBoard) (node : FlowNode) : Option PortDynamics :=
  match n.inputOf node with
  | some input =>
    if b.isFinal node then b.info? node
    else some ((n.sourceDynamics b input).foldl PortDynamics.merge (n.inputStart b input))
  | none => b.info? node

def dynamicsNotes (n : Network) (b : FlowBoard) (node : FlowNode) : List Entry :=
  match n.inputOf node with
  | some input =>
    if b.isFinal node then []
    else (n.sourceDynamics b input).map (n.inputStart b input).mergeNote
  | none => []

/-- Whether data can reach a port: over a link, or because the port is final from the start. -/
def canReceive (n : Network) (b : FlowBoard) (port : Endpoint) : Bool :=
  n.links.feeds port || b.isFinal port.node

/-- What a task node needs: its master, or the waking inputs that data can reach. -/
def taskNeeds (n : Network) (b : FlowBoard) (task : String) (t : Task) : List FlowNode :=
  match t.master with
  | some master => [taskNode master]
  | none =>
    ((t.wakingInputs.map (Endpoint.mk task)).filter (n.canReceive b)).map Endpoint.node

/-- What an output needs: its task if it is written on updates, and the inputs that cause writes
and that data can reach. -/
def outputNeeds (n : Network) (b : FlowBoard) (task : String) (p : OutputPort) : List FlowNode :=
  (if p.onUpdate then [taskNode task] else []) ++
    ((p.triggers.map (Endpoint.mk task)).filter (n.canReceive b)).map Endpoint.node

def setOf (nodes : List FlowNode) : Std.ExtTreeSet FlowNode :=
  nodes.foldl (fun s node => s.insert node) ∅

/-- Records what an output needs; one that needs nothing is final. -/
def linkOutput (n : Network) (task : String) (run : FlowRun) (p : String × OutputPort) : FlowRun :=
  match n.outputNeeds run.board task p.2 with
  | [] => run.finalize ⟨task, some p.1⟩
  | needs => { run with memory := run.memory.insert ⟨task, some p.1⟩ (setOf needs) }

def link (n : Network) (task : String) (run : FlowRun) : FlowRun :=
  match n.task? task with
  | none => run
  | some t =>
    let needs := setOf (n.taskNeeds run.board task t)
    t.outputs.toList.foldl (n.linkOutput task)
      { run with memory := run.memory.insert (taskNode task) needs }

/-- The dynamics of needed nodes in order, each with whether it is a port; nothing if one of them
is not settled. -/
def gather (n : Network) (node : FlowNode) :
    List FlowNode → FlowBoard → Option (List (Bool × PortDynamics)) × FlowBoard
  | [], b => (some [], b)
  | need :: needs, b =>
    if n.isSettled b need then
      let (rest, b') := n.gather node needs (b.noteAll (n.dynamicsNotes b need))
      (rest.map ((n.dynamicsOf b need).toList.map (need.port.isSome, ·) ++ ·), b')
    else
      (none, b.note (resolverNote "missing information to compute node"
        [("dep", Shown.shown need), ("key", Shown.shown node)]))

/-- Adds needed dynamics to a node. A task with a period reads its inputs once every period. -/
def absorb (t : Task) (node : FlowNode) (period : Option Duration) (b : FlowBoard)
    (need : Bool × PortDynamics) : FlowBoard :=
  match period, need with
  | some period, (true, d) =>
    FlowBoard.contribute (b.noteAll (d.resampleNotes period)) t node (d.sampledAt period)
  | _, (_, d) => FlowBoard.contribute b t node d

/-- Resolves a node of a deployed task if all that it needs is settled. -/
def attempt (n : Network) (node : FlowNode) (run : FlowRun) : Bool × FlowRun :=
  match n.task? node.task with
  | none => (false, run)
  | some t =>
    match n.gather node (run.memory.getD node ∅).toList run.board with
    | (none, b) => (false, { run with board := b })
    | (some needs, b) =>
      let b := needs.foldl (absorb t node (n.rootPeriod t)) b
      (true, { run with board := if node.port.isNone then n.finish node.task b else b })

def required (n : Network) (task : String) : Std.ExtTreeSet (Option String) :=
  match n.task? task with
  | none => ∅
  | some t => t.outputs.keys.foldl (fun s port => s.insert (some port)) {none}

def rules (n : Network) : Rules String String PortDynamics Dependencies where
  required := n.required
  seed task run := { run with board := n.seed task run.board }
  link := n.link
  attempt := n.attempt

/-- Dependencies among nodes that are not settled: those recorded, and those of the inputs among
them on the outputs linked to them. -/
def stalledEdges (n : Network) (b : FlowBoard) (needs : Dependencies) : List (FlowNode × FlowNode) :=
  let recorded := (needs.toList.filter fun e => !n.isSettled b e.1).flatMap fun e =>
    (e.2.toList.filter fun need => !n.isSettled b need).map (e.1, ·)
  let inputs := (setOf (recorded.map Prod.snd)).toList.filterMap n.inputOf
  recorded ++ inputs.flatMap fun input =>
    ((n.links.sourcesOf input).filter fun s => !n.isSettled b s.node).map
      fun s => (input.node, s.node)

/-- Dependency cycles among nodes that are not settled. -/
def stalledCycles (n : Network) (b : FlowBoard) (needs : Dependencies) : List (List FlowNode) :=
  Dependency.cycles (n.stalledEdges b needs)

end Network

end FlowTiming
