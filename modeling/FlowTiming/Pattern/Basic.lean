/-!
Patterns of text: regular expressions as they are written, as far as it matters whether they can
be matched. Characters that share their meaning share a constructor.
-/

namespace FlowTiming

/-- Changes of how the rest of a group is read and matched; what is left out stays as it is. -/
structure Flags where
  /-- Upper and lower case count as the same. -/
  caseless : Option Bool := none
  /-- Text is matched by characters, not by bytes. -/
  unicode : Option Bool := none
  /-- Blanks and comments do not count in the pattern. -/
  spaced : Option Bool := none
deriving DecidableEq, Inhabited

inductive Combination where
  | intersection
  | difference
  | symmetricDifference
deriving DecidableEq, Inhabited

/-- Whether something is in the combination of two sets, by whether it is in either. -/
def Combination.holds : Combination → Bool → Bool → Bool
  | intersection, a, b => a && b
  | difference, a, b => a && !b
  | symmetricDifference, a, b => a != b

inductive Members where
  | nothing
  | character (c : Char)
  | range (first last : Char)
  /-- A set of ASCII characters by its name between colons. -/
  | named (negated : Bool)
  /-- The digits, blanks, or characters of words, by one letter. -/
  | shorthand (negated : Bool)
  | nested (negated : Bool) (inner : Members)
  /-- A member and the members after it. -/
  | union (first rest : Members)
  | combined (how : Combination) (left right : Members)
deriving DecidableEq, Inhabited

namespace Members

def ofList : List Members → Members
  | [] => nothing
  | [m] => m
  | m :: ms => union m (ofList ms)

def isUnion : Members → Bool
  | union .. => true
  | _ => false

/-- How deep sets are nested. All members of a union are equally deep in it. -/
def depth : Members → Nat
  | nested _ inner => inner.depth + 1
  | union first rest =>
    max (first.depth + 1) (if rest.isUnion then rest.depth else rest.depth + 1)
  | combined _ left right => max left.depth right.depth + 1
  | _ => 0

end Members

inductive Pattern where
  | empty
  /-- Flags for what follows in the same group. -/
  | flags (f : Flags)
  /-- A character, which may be written as a byte in hexadecimal digits. -/
  | character (c : Char) (asByte : Bool)
  /-- Any character but the end of a line. -/
  | any
  /-- The beginning or the end of a line or of the text. -/
  | edge
  /-- The beginning or the end of a word, or neither. -/
  | wordEdge
  | shorthand (negated : Bool)
  | set (negated : Bool) (members : Members)
  | repetition (body : Pattern)
  | group (name : Option (List Char)) (f : Flags) (body : Pattern)
  /-- A pattern and the patterns after it. -/
  | sequence (first rest : Pattern)
  /-- A pattern and the patterns that may stand in its place. -/
  | choice (first rest : Pattern)
deriving DecidableEq, Inhabited

namespace Pattern

def sequenceOf : List Pattern → Pattern
  | [] => empty
  | [p] => p
  | p :: ps => sequence p (sequenceOf ps)

def choiceOf : List Pattern → Pattern
  | [] => empty
  | [p] => p
  | p :: ps => choice p (choiceOf ps)

def isSequence : Pattern → Bool
  | sequence .. => true
  | _ => false

def isChoice : Pattern → Bool
  | choice .. => true
  | _ => false

/-- How deep patterns are nested. All parts of a sequence are equally deep in it, and so are all
parts of a choice. -/
def depth : Pattern → Nat
  | set _ members => members.depth + 1
  | repetition body => body.depth + 1
  | group _ _ body => body.depth + 1
  | sequence first rest =>
    max (first.depth + 1) (if rest.isSequence then rest.depth else rest.depth + 1)
  | choice first rest =>
    max (first.depth + 1) (if rest.isChoice then rest.depth else rest.depth + 1)
  | _ => 0

def names : Pattern → List (List Char)
  | repetition body => body.names
  | group name _ body => name.toList ++ body.names
  | sequence first rest | choice first rest => first.names ++ rest.names
  | _ => []

end Pattern

end FlowTiming
