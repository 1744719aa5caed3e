import FlowTiming.Policy.Synthesis

/-!
The analysis of a network: its dynamics, what could not be resolved and why, and the policy of
every link.
-/

namespace FlowTiming

structure Report where
  /-- Dynamics of final nodes. -/
  dynamics : Std.ExtTreeMap FlowNode PortDynamics
  /-- What is known about the other nodes. -/
  partialDynamics : Std.ExtTreeMap FlowNode PortDynamics
  /-- Tasks and outputs that did not become final. -/
  unresolved : Std.ExtTreeSet FlowNode
  cycles : List (List FlowNode)
  policies : Links Policy
  warnings : List Warning
  passes : Nat

namespace Report

def portDynamics (r : Report) (port : Endpoint) : Option PortDynamics := r.dynamics[port.node]?

def taskDynamics (r : Report) (task : String) : Option PortDynamics := r.dynamics[taskNode task]?

def policy (r : Report) (l : Link) : Option Policy := r.policies.get? l

end Report

abbrev FlowEngine := Engine String String PortDynamics

/-- What an analysis leaves: the engine, the journal, and a report or the first failure. -/
structure Analysis where
  engine : FlowEngine
  journal : Journal
  result : Except Failure Report

namespace Network

def propagate (n : Network) (engine : FlowEngine) :
    Outcome String String × Dependencies × FlowEngine :=
  n.rules.propagate n.taskNames ∅ engine

def cycleNote (cycle : List FlowNode) : Entry :=
  { level := .warn, speaker := .flow, message := "dependency cycle among unresolved nodes",
    fields := [("cycle", chainText cycle)] }

def reportNote (n : Network) (r : Report) : Entry :=
  { level := .info, speaker := .flow, message := "computed connection policies",
    fields := [("tasks", toString n.tasks.size), ("links", toString r.policies.size),
      ("warnings", toString r.warnings.length), ("unresolved", toString (taskCount r.unresolved))] }

/-- A report from the outcome of a propagation and the policies found. -/
def report (outcome : Outcome String String) (board : FlowBoard) (cycles : List (List FlowNode))
    (decisions : List (Link × Decision)) : Report where
  dynamics := board.finalInfo
  partialDynamics := board.partialInfo
  unresolved := outcome.unresolved
  cycles := cycles
  policies := decisions.foldl (fun l e => l.insert e.1 e.2.policy) .empty
  warnings := decisions.filterMap fun e => e.2.warning?
  passes := outcome.passes

/-- The cycles that are reported of a propagation. They are looked for only if something is
unresolved. -/
def reportedCycles (n : Network) (outcome : Outcome String String) (board : FlowBoard)
    (needs : Dependencies) : List (List FlowNode) :=
  if outcome.isComplete then [] else n.stalledCycles board needs

def analyze (n : Network) (margin : Margin) (engine : FlowEngine) : Analysis :=
  let (outcome, needs, engine) := n.propagate engine
  let board := engine.board
  let cycles := n.reportedCycles outcome board needs
  let synthesis : Synthesis := ⟨n, board, cycles, margin⟩
  let journal :=
    board.journal ++ cycles.map cycleNote ++ synthesis.allNotes n.links.toList
  match synthesis.decisions with
  | .error e => ⟨engine, journal, .error e⟩
  | .ok decisions =>
    let r := report outcome board cycles decisions
    ⟨engine, journal.push (n.reportNote r), .ok r⟩

end Network

end FlowTiming
