import FlowTiming.Count

/-!
Policies of connections.
-/

namespace FlowTiming

inductive Policy where
  /-- The latest value only. -/
  | passThrough
  /-- One slot. -/
  | singleSlot
  | buffer (size : Count)
deriving DecidableEq, Inhabited

def Policy.text : Policy → String
  | passThrough => "pass-through"
  | singleSlot => "single-slot"
  | buffer size => "buffer(size=" ++ toString size ++ ")"

/-- What is laid down about a link before its policy is computed. -/
structure LinkPolicy where
  /-- A policy chosen for the link; it is never computed. -/
  preset : Option Policy := none
  /-- The policy where the dynamics are not known well enough. -/
  fallback : Option Policy := none
deriving DecidableEq, Inhabited

end FlowTiming
