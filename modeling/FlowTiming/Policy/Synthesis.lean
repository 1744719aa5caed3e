import FlowTiming.Flow.Resolution
import FlowTiming.Policy.Margin

/-!
Policies of links, from the dynamics at both ends. A preset policy stays; a sink that may lose
samples gets what it asks for; every other link gets a buffer for all that piles up until the
sink reads, or its fallback where that is not known.
-/

namespace FlowTiming

/-- What was not known about a link. -/
inductive Gap where
  /-- The dynamics of the source are not final. -/
  | sourceDynamics
  /-- The task of the sink has no period to derive a reading latency from. -/
  | sinkPeriod
deriving DecidableEq, Inhabited

structure Warning where
  link : Link
  gap : Gap
  fallback : Policy
deriving DecidableEq, Inhabited

def Warning.text (w : Warning) : String :=
  match w.gap with
  | .sourceDynamics =>
    "cannot compute the period information for output port " ++ w.link.source.text ++
      ", needed to connect to " ++ w.link.sink.text ++ "; using fallback policy " ++ w.fallback.text
  | .sinkPeriod =>
    "the task of " ++ w.link.sink.text ++
      " has no minimal period, needed to compute its reading latency; using fallback policy " ++
      w.fallback.text

inductive Origin where
  | preset
  | unreliable
  | computed (latency : Duration) (queue : Count)
  | fallback (warning : Warning)
deriving DecidableEq, Inhabited

structure Decision where
  policy : Policy
  origin : Origin
deriving DecidableEq, Inhabited

def Decision.warning? (d : Decision) : Option Warning :=
  match d.origin with
  | .fallback w => some w
  | _ => none

def ConnectionKind.policy : ConnectionKind → Policy
  | data => .passThrough
  | buffer => .singleSlot

/-- What policies are derived from: a network after propagation and a margin. -/
structure Synthesis where
  network : Network
  board : FlowBoard
  cycles : List (List FlowNode)
  margin : Margin

namespace Synthesis

def finalDynamics (s : Synthesis) (node : FlowNode) : Option PortDynamics :=
  if s.board.isFinal node then s.board.info? node else none

/-- The tasks and the input of a link, if it agrees with the network. -/
def model (s : Synthesis) (l : Link) : Except ModelFault (Task × InputPort) :=
  match s.network.task? l.source.task, s.network.task? l.sink.task with
  | none, _ => .error (.undeployedTask l.source.task)
  | some _, none => .error (.undeployedTask l.sink.task)
  | some source, some sink =>
    if source.outputs.contains l.source.port then
      match sink.inputs[l.sink.port]? with
      | some input => .ok (sink, input)
      | none => .error (.notAnInput l.sink)
    else .error (.notAnOutput l.source)

/-- The longest time samples wait before a sink: a waking input is read after its task's latency,
any other one once a period later. -/
def readingLatency (s : Synthesis) (l : Link) (sink : Task) (input : InputPort) :
    Except Failure (Option Duration) :=
  if input.wakes then .ok (some sink.latency)
  else
    match (s.finalDynamics (taskNode l.sink.task)).bind PortDynamics.minimalPeriod with
    | none => .ok none
    | some period =>
      match period.add? sink.latency with
      | some latency => .ok (some latency)
      | none => .error .latencyOverflow

def cycleThrough (s : Synthesis) (port : Endpoint) : Option (List FlowNode) :=
  s.cycles.find? fun cycle => cycle.any fun node => node.text == port.text

/-- Why a link without a fallback has no policy. -/
def gapFailure (s : Synthesis) (l : Link) : Gap → Failure
  | .sourceDynamics =>
    match s.cycleThrough l.source with
    | some cycle => .dependencyCycle l.source cycle
    | none => .unresolved l.source l.sink
  | .sinkPeriod => .noSinkPeriod l.sink

def fallBack (s : Synthesis) (l : Link) (p : LinkPolicy) (gap : Gap) : Except Failure Decision :=
  match p.fallback with
  | some policy => .ok ⟨policy, .fallback ⟨l, gap, policy⟩⟩
  | none => .error (s.gapFailure l gap)

def sized (s : Synthesis) (source : PortDynamics) (latency : Duration) : Decision :=
  let queue := source.queueSize latency
  ⟨.buffer (s.margin.bufferSize queue), .computed latency queue⟩

/-- The policy of a link to an input of a task that agrees with the network. -/
def judge (s : Synthesis) (l : Link) (p : LinkPolicy) (sink : Task) (input : InputPort) :
    Except Failure Decision :=
  if input.reliable then
    match s.readingLatency l sink input with
    | .error e => .error e
    | .ok latency =>
      match s.finalDynamics l.source.node, latency with
      | none, _ => s.fallBack l p .sourceDynamics
      | some _, none => s.fallBack l p .sinkPeriod
      | some source, some latency => .ok (s.sized source latency)
  else .ok ⟨input.kind.policy, .unreliable⟩

def policyFor (s : Synthesis) (l : Link) (p : LinkPolicy) : Except Failure Decision :=
  match p.preset with
  | some policy => .ok ⟨policy, .preset⟩
  | none =>
    match s.model l with
    | .error fault => .error (.badModel fault)
    | .ok (sink, input) => s.judge l p sink input

def policyNote (message : String) (l : Link) (rest : List (String × String)) : Entry :=
  { level := .debug, speaker := .policy, message,
    fields := ("source", l.source.text) :: ("sink", l.sink.text) :: rest }

def sizeNote (s : Synthesis) (l : Link) (latency : Duration) (queue : Count) (policy : Policy) :
    Entry :=
  let source := (s.board.info? l.source.node).getD default
  policyNote "sized buffer" l
    [("input_period", Text.optional (source.minimalPeriod.map Duration.unitText)),
      ("reading_latency", latency.inSeconds.markedText),
      ("sample_size", toString source.sampleSize), ("queue_size", toString queue),
      ("size", match policy with
        | .buffer size => toString size
        | _ => "")]

def notes (s : Synthesis) (l : Link) : Except Failure Decision → List Entry
  | .error (.badModel _) => []
  | .error _ => [policyNote "computing policy" l []]
  | .ok ⟨policy, .preset⟩ =>
    [policyNote "already connected with a policy" l [("policy", policy.text)]]
  | .ok ⟨policy, .unreliable⟩ =>
    [policyNote "computing policy" l [],
      policyNote "sink does not need a reliable connection" l [("policy", policy.text)]]
  | .ok ⟨policy, .computed latency queue⟩ =>
    [policyNote "computing policy" l [], s.sizeNote l latency queue policy]
  | .ok ⟨_, .fallback w⟩ =>
    [policyNote "computing policy" l [],
      { level := .warn, speaker := .policy, message := w.text }]

/-- The policies of all links in their order, or the first failure. -/
def decisions (s : Synthesis) : Except Failure (List (Link × Decision)) :=
  s.network.links.toList.mapM fun e => (s.policyFor e.1 e.2).map (e.1, ·)

/-- What is reported of finding the policies of links up to the first failure. -/
def allNotes (s : Synthesis) : List (Link × LinkPolicy) → List Entry
  | [] => []
  | e :: rest =>
    let decision := s.policyFor e.1 e.2
    s.notes e.1 decision ++ if decision.isOk then s.allNotes rest else []

end Synthesis

end FlowTiming
