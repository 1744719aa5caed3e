import Std.Data.ExtTreeMap
import FlowTiming.Journal.Basic
import FlowTiming.Propagation.Node

/-!
The board of a propagation: what is known about each node, and which nodes are final. Once a
node is final, what is known about it no longer changes.
-/

namespace FlowTiming

class Information (ι : Type) where
  merge : ι → ι → ι
  /-- Whether merging the second into the first adds anything. -/
  grows : ι → ι → Bool
  /-- What is reported of merging the second into the first. -/
  mergeNotes : ι → ι → List Entry := fun _ _ => []

class Shown (α : Type) where
  shown : α → String

instance : Shown String := ⟨Text.quoted⟩

instance {α : Type} [Shown α] : Shown (Option α) := ⟨fun a => Text.optional (a.map Shown.shown)⟩

instance {τ π : Type} [Shown τ] [Shown π] : Shown (Node τ π) :=
  ⟨fun n => "(" ++ Shown.shown n.task ++ ", " ++ Shown.shown n.port ++ ")"⟩

def Node.fields {τ π : Type} [Shown τ] [Shown π] (n : Node τ π) : List (String × String) :=
  [("task", Shown.shown n.task), ("port", Shown.shown n.port)]

/-- What is known about nodes, which nodes are final, and the journal since the board was empty. -/
structure Board (τ π ι : Type) [Ord τ] [Ord π] where
  info : Std.ExtTreeMap (Node τ π) ι
  finals : Std.ExtTreeSet (Node τ π)
  journal : Journal

inductive Update (ι : Type) where
  | replace (info : ι)
  | extend (info : ι)
  | finalize

namespace Board

variable {τ π ι : Type} [Ord τ] [Ord π]

def empty : Board τ π ι := ⟨∅, ∅, #[]⟩

instance : Inhabited (Board τ π ι) := ⟨empty⟩

def note (b : Board τ π ι) (e : Entry) : Board τ π ι := { b with journal := b.journal.push e }

def noteAll (b : Board τ π ι) (entries : List Entry) : Board τ π ι := entries.foldl note b

variable [Std.TransOrd τ] [Std.TransOrd π]

def info? (b : Board τ π ι) (n : Node τ π) : Option ι := b.info[n]?

def isKnown (b : Board τ π ι) (n : Node τ π) : Bool := b.info.contains n

def isFinal (b : Board τ π ι) (n : Node τ π) : Bool := b.finals.contains n

/-- Puts down what is known about a node, if anything is. -/
def putDown (b : Board τ π ι) (found : Std.ExtTreeMap (Node τ π) ι) (n : Node τ π) :
    Std.ExtTreeMap (Node τ π) ι :=
  match b.info? n with
  | some i => found.insert n i
  | none => found

def finalInfo (b : Board τ π ι) : Std.ExtTreeMap (Node τ π) ι := b.finals.toList.foldl b.putDown ∅

def partialInfo (b : Board τ π ι) : Std.ExtTreeMap (Node τ π) ι :=
  b.info.filter fun n _ => !b.isFinal n

variable [Shown τ] [Shown π]

/-- Replaces what is known about a node, unless it is final. -/
def replace (b : Board τ π ι) (n : Node τ π) (i : ι) : Board τ π ι :=
  if b.isFinal n then
    b.note { level := .debug, speaker := .board, message := "ignoring set on final node",
             fields := n.fields }
  else { b with info := b.info.insert n i }

def finalize (b : Board τ π ι) (n : Node τ π) : Board τ π ι :=
  if b.isFinal n then b
  else
    { b with finals := b.finals.insert n }.note
      { level := .debug, speaker := .board, message := "node is final", fields := n.fields }

variable [Information ι]

/-- Adds to what is known about a node, unless it is final. -/
def extend (b : Board τ π ι) (n : Node τ π) (i : ι) : Board τ π ι :=
  if b.isFinal n then
    b.note { level := .debug, speaker := .board,
             message := "ignoring new information on final node", fields := n.fields }
  else
    match b.info? n with
    | some known =>
      { b with info := b.info.insert n (Information.merge known i) }.noteAll
        (Information.mergeNotes known i)
    | none => { b with info := b.info.insert n i }

def apply (b : Board τ π ι) (n : Node τ π) : Update ι → Board τ π ι
  | .replace i => b.replace n i
  | .extend i => b.extend n i
  | .finalize => b.finalize n

/-- Whether an update takes effect: a replacement where it is allowed, an extension where it adds
something, a finalization the first time. -/
def takes (b : Board τ π ι) (n : Node τ π) : Update ι → Bool
  | .replace _ => !b.isFinal n
  | .extend i => !b.isFinal n && (b.info? n).all (Information.grows · i)
  | .finalize => !b.isFinal n

end Board

end FlowTiming
