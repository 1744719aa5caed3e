import FlowTiming.Network.Basic
import FlowTiming.Propagation.Engine

/-!
Dynamics on a board: the nodes of a network and how dynamics get onto them. A node about which
nothing is known is first made from the model of its task or output.
-/

namespace FlowTiming

instance : Information PortDynamics where
  merge := PortDynamics.merge
  grows := PortDynamics.growsBy
  mergeNotes d other := [d.mergeNote other]

abbrev FlowNode := Node String String

abbrev FlowBoard := Board String String PortDynamics

def resolverNote (message : String) (fields : List (String × String)) : Entry :=
  { level := .debug, speaker := .resolver, message, fields }

namespace OutputPort

def burst (p : OutputPort) : Trigger := ⟨"burst", p.burstPeriod, p.burstSize⟩

def dynamics (p : OutputPort) (place : Endpoint) : PortDynamics :=
  .ofTriggers place.text p.sampleSize [p.burst]

end OutputPort

namespace FlowBoard

def placeOutput (b : FlowBoard) (place : Endpoint) (p : OutputPort) : FlowBoard :=
  (b.noteAll (PortDynamics.additionNotes place.text [p.burst])).replace place.node
    (p.dynamics place)

def placeTask (b : FlowBoard) (task : String) : FlowBoard :=
  b.replace (taskNode task) (.empty (mainName task) 1)

/-- Starts a node of a task about which nothing is known, if there is a model for it. -/
def introduce (b : FlowBoard) (t : Task) (n : FlowNode) : FlowBoard :=
  if b.isKnown n then b
  else
    match n.port with
    | none => b.placeTask n.task
    | some port =>
      match t.outputs[port]? with
      | some p => b.placeOutput ⟨n.task, port⟩ p
      | none => b

def contribute (b : FlowBoard) (t : Task) (n : FlowNode) (d : PortDynamics) : FlowBoard :=
  (b.introduce t n).extend n d

/-- Adds triggers to a node of a task, under the name and sample size given. -/
def contributeTriggers (b : FlowBoard) (t : Task) (n : FlowNode) (name : String) (size : Count)
    (facts : List Trigger) : FlowBoard :=
  contribute (b.noteAll (PortDynamics.additionNotes name facts)) t n (.ofTriggers name size facts)

end FlowBoard

namespace Network

/-- Makes a task final and hands what is known about it down to the tasks that run together with
it, at most so many tasks deep. -/
def finishWithin (n : Network) : Nat → String → FlowBoard → FlowBoard
  | 0, _, b => b
  | depth + 1, task, b =>
    let b := b.finalize (taskNode task)
    match b.info? (taskNode task) with
    | none => b
    | some d =>
      (n.slavesOf task).foldl (fun b s =>
        if b.isFinal (taskNode s.1) then b
        else
          let b := b.note (resolverNote "slave inherits task dynamics"
            [("master", task), ("slave", s.1)])
          n.finishWithin depth s.1 (FlowBoard.contribute b s.2 (taskNode s.1) d)) b

/-- Makes a task final and hands its dynamics down. No chain of tasks that are not final yet is
longer than there are tasks. -/
def finish (n : Network) (task : String) (b : FlowBoard) : FlowBoard :=
  n.finishWithin n.tasks.size task b

end Network

end FlowTiming
