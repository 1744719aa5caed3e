import Std.Data.ExtTreeSet
import FlowTiming.Dynamics.Trigger
import FlowTiming.Journal.Basic

/-!
Dynamics of a port or a task: the set of triggers behind it, and how many samples that makes
over a span of time. Triggers are only ever added.
-/

namespace FlowTiming

/-- The triggers of a port or a task. A virtual sample stands for `sampleSize` data samples. -/
structure PortDynamics where
  name : String
  sampleSize : Count
  triggers : Std.ExtTreeSet Trigger

namespace PortDynamics

/-- Dynamics without triggers. A sample size of zero counts as one. -/
def empty (name : String) (sampleSize : Count) : PortDynamics := ⟨name, max sampleSize 1, ∅⟩

instance : Inhabited PortDynamics := ⟨empty "" 1⟩

instance : DecidableEq PortDynamics := fun a b =>
  decidable_of_iff (a.name = b.name ∧ a.sampleSize = b.sampleSize ∧
      a.triggers.toList = b.triggers.toList) <| by
    cases a
    cases b
    simp [Std.ExtTreeSet.toList_inj]

def isEmpty (d : PortDynamics) : Bool := d.triggers.isEmpty

/-- Adds a trigger, unless it brings no samples. -/
def addTrigger (d : PortDynamics) (t : Trigger) : PortDynamics :=
  if t.count.toNat = 0 then d else { d with triggers := d.triggers.insert t }

/-- Whether adding a trigger changes anything. -/
def gains (d : PortDynamics) (t : Trigger) : Bool := t.count.toNat ≠ 0 && !d.triggers.contains t

/-- Dynamics with the given triggers, those without samples left out. -/
def ofTriggers (name : String) (sampleSize : Count) (facts : List Trigger) : PortDynamics :=
  facts.foldl addTrigger (empty name sampleSize)

/-- Adds the triggers of other dynamics. Name and sample size stay. -/
def merge (d other : PortDynamics) : PortDynamics :=
  { d with triggers := d.triggers ∪ other.triggers }

def growsBy (d other : PortDynamics) : Bool :=
  other.triggers.toList.any fun t => !d.triggers.contains t

def minimalPeriod (d : PortDynamics) : Option Duration :=
  ((d.triggers.toList.map Trigger.period).filter (·.nanos ≠ 0)).min?

def sampleCount (d : PortDynamics) (span : Duration) : Count :=
  (d.triggers.toList.map (·.samplesOver span)).foldl (· + ·) 0

def queueSize (d : PortDynamics) (span : Duration) : Count :=
  (d.sampleCount span + 1) * d.sampleSize

/-- Source of the one trigger that a reader sees who reads once every span. -/
def resampledSource (d : PortDynamics) (span : Duration) : String :=
  d.name ++ ".resample(" ++ ",".intercalate (d.triggers.toList.map Trigger.source) ++ "," ++
    span.secondsText ++ ")"

/-- The trigger that a reader sees who reads once every span: all that has piled up. -/
def resampled (d : PortDynamics) (span : Duration) : Trigger :=
  ⟨d.resampledSource span, span, d.queueSize span⟩

/-- Dynamics as a reader sees them who reads once every span. Where nothing is written, nothing
is read. -/
def sampledAt (d : PortDynamics) (span : Duration) : PortDynamics :=
  ofTriggers d.name d.sampleSize (if d.isEmpty then [] else [d.resampled span])

def text (d : PortDynamics) : String :=
  d.name ++ " [sample_size=" ++ toString d.sampleSize ++ "]" ++
    if d.isEmpty then " (no triggers)"
    else " " ++ ", ".intercalate (d.triggers.toList.map Trigger.text)

/-- What is reported of triggers added one after the other to dynamics of a name. -/
def additionNotes (name : String) (facts : List Trigger) : List Entry :=
  (facts.filter (·.count.toNat ≠ 0)).map fun t =>
    { level := .debug, speaker := .dynamics, message := "adding trigger",
      fields := [("dynamics", name), ("trigger", t.text)] }

def mergeNote (d other : PortDynamics) : Entry :=
  { level := .debug, speaker := .dynamics, message := "merging triggers",
    fields := [("from", other.name), ("into", d.name), ("count", toString other.triggers.size)] }

def resampleNotes (d : PortDynamics) (span : Duration) : List Entry :=
  additionNotes d.name (if d.isEmpty then [] else [d.resampled span])

end PortDynamics

end FlowTiming
