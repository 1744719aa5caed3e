import FlowTiming.Pattern.Reader

/-!
Which patterns can be matched. Text is UTF-8 and is matched byte by byte, without tables of
characters: nothing is known of case, of digits, blanks and words beyond ASCII, and no pattern
may match a part of a character.
-/

namespace FlowTiming

namespace Members

def hasNoShorthand : Members → Bool
  | shorthand _ => false
  | nested _ inner => inner.hasNoShorthand
  | union left right | combined _ left right => left.hasNoShorthand && right.hasNoShorthand
  | _ => true

def isHollow : Members → Bool
  | nothing => true
  | nested _ inner => inner.isHollow
  | union left right | combined _ left right => left.isHollow && right.isHollow
  | _ => false

/-- Whether the bytes beyond ASCII are in a set of bytes: all of them are, or none. A set between
brackets may not have them. -/
def passesAscii? : Members → Option Bool
  | nothing => some false
  | character c => if Text.isAscii c then some false else none
  | range first last => if Text.isAscii first && Text.isAscii last then some false else none
  | named negated => some negated
  | shorthand negated => if negated then none else some false
  | nested negated inner => do if (← inner.passesAscii?) = negated then some false else none
  | union first rest => return (← first.passesAscii?) || (← rest.passesAscii?)
  | combined how left right => return how.holds (← left.passesAscii?) (← right.passesAscii?)

end Members

namespace Pattern

structure Mode where
  caseless : Bool := false
  unicode : Bool := true
deriving DecidableEq, Inhabited

def Mode.change (m : Mode) (f : Flags) : Mode :=
  ⟨f.caseless.getD m.caseless, f.unicode.getD m.unicode⟩

def Mode.allows (m : Mode) (negated : Bool) (members : Members) : Bool :=
  if m.unicode then if m.caseless then members.isHollow else members.hasNoShorthand
  else (Members.nested negated members).passesAscii?.isSome

/-- The mode after a pattern that can be matched. What flags change ends with their group. -/
def modeAfter? : Pattern → Mode → Option Mode
  | empty, m | edge, m => some m
  | flags f, m => some (m.change f)
  | character c asByte, m =>
    if m.unicode then if m.caseless then none else some m
    else if asByte && !Text.isAscii c then none
    else some m
  | any, m => if m.unicode then some m else none
  | wordEdge, m => if m.unicode then none else some m
  | shorthand negated, m => if m.unicode || negated then none else some m
  | set negated members, m => if m.allows negated members then some m else none
  | repetition body, m => body.modeAfter? m
  | group _ f body, m => (body.modeAfter? (m.change f)).map fun _ => m
  | sequence first rest, m | choice first rest, m => (first.modeAfter? m).bind rest.modeAfter?

def maxDepth : Nat := 250

/-- Whether a pattern can be matched. No two of its groups may have the same name. -/
def isSupported (p : Pattern) : Bool :=
  p.depth ≤ maxDepth && p.names.all (fun name => p.names.count name == 1) && (p.modeAfter? {}).isSome

def accepts (cs : List Char) : Bool := (read? cs).any isSupported

end Pattern

end FlowTiming
