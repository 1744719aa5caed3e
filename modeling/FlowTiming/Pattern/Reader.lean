import FlowTiming.Pattern.Basic
import FlowTiming.Text.Alphanumeric
import FlowTiming.Text.Blank
import FlowTiming.Text.Digits

/-!
Reading a pattern from its characters. A reader takes what it reads off the front of the text. In
a spaced pattern blanks and comments do not count.
-/

namespace FlowTiming.Pattern

def skipVoid (inComment : Bool) : List Char → List Char
  | [] => []
  | c :: cs =>
    if inComment then skipVoid (c != '\n') cs
    else if Text.isBlank c then skipVoid false cs
    else if c == '#' then skipVoid true cs
    else c :: cs

def skip (spaced : Bool) (cs : List Char) : List Char := if spaced then skipVoid false cs else cs

/-- The next character that counts. A comment is only looked into. -/
def peek (spaced : Bool) (cs : List Char) : Option Char :=
  if spaced then
    let inner := cs.dropWhile Text.isBlank
    let inner := if inner.head? = some '#' then (inner.drop 1).dropWhile Text.isBlank else inner
    if inner.isEmpty then cs.head? else inner.head?
  else cs.head?

/-- What a character after a backslash stands for. Those that are no letters and no digits stand
for themselves, of ASCII only. Properties of characters cannot be named. -/
def escape? (spaced : Bool) : List Char → Option (Pattern × List Char)
  | 'x' :: cs => (Text.codePoint? (skip spaced) 2 cs).map fun r => (.character r.1 true, r.2)
  | 'u' :: cs => (Text.codePoint? (skip spaced) 4 cs).map fun r => (.character r.1 false, r.2)
  | 'U' :: cs => (Text.codePoint? (skip spaced) 8 cs).map fun r => (.character r.1 false, r.2)
  | 'a' :: cs => some (.character '\x07' false, cs)
  | 'f' :: cs => some (.character '\x0c' false, cs)
  | 'n' :: cs => some (.character '\n' false, cs)
  | 'r' :: cs => some (.character '\r' false, cs)
  | 't' :: cs => some (.character '\t' false, cs)
  | 'v' :: cs => some (.character '\x0b' false, cs)
  | c :: cs =>
    if c ∈ ['A', 'z'] then some (.edge, cs)
    else if c ∈ ['b', 'B', '<', '>'] then some (.wordEdge, cs)
    else if c ∈ ['d', 's', 'w'] then some (.shorthand false, cs)
    else if c ∈ ['D', 'S', 'W'] then some (.shorthand true, cs)
    else if Text.isAscii c ∧ !c.isAlphanum then some (.character c false, cs)
    else none
  | [] => none

/-! ### Sets -/

def item? (spaced : Bool) : List Char → Option (Pattern × List Char)
  | '\\' :: cs => escape? spaced cs
  | c :: cs => some (.character c false, cs)
  | [] => none

def member? : Pattern → Option Members
  | .character c _ => some (.character c)
  | .shorthand negated => some (.shorthand negated)
  | _ => none

/-- A member of a set, or a range of them, which may not be empty. A dash makes a range unless the
set or another dash follows it. -/
def memberOrRange? (spaced : Bool) (cs : List Char) : Option (Members × List Char) := do
  let (first, rest) ← item? spaced cs
  match skip spaced rest with
  | '-' :: more =>
    if peek spaced more ∈ [some ']', some '-'] then return (← member? first, '-' :: more)
    else
      match first, ← item? spaced (skip spaced more) with
      | .character a _, (.character b _, rest) => if a ≤ b then some (.range a b, rest) else none
      | _, _ => none
  | rest => return (← member? first, rest)

def setNames : List String :=
  ["alnum", "alpha", "ascii", "blank", "cntrl", "digit", "graph", "lower", "print", "punct",
    "space", "upper", "word", "xdigit"]

def named? : List Char → Option (Members × List Char)
  | ':' :: cs =>
    let negated := cs.head? == some '^'
    let cs := if negated then cs.drop 1 else cs
    match cs.dropWhile (· != ':') with
    | ':' :: ']' :: rest =>
      if setNames.contains (String.ofList (cs.takeWhile (· != ':'))) then
        some (.named negated, rest)
      else none
    | _ => none
  | _ => none

def negation (spaced : Bool) (cs : List Char) : Bool × List Char :=
  match skip spaced cs with
  | '^' :: rest => (true, rest)
  | rest => (false, rest)

/-- A set from what it is combined with on its left and from its last members. -/
def combine (left : Option (Combination × Members)) (members : List Members) : Members :=
  let right := Members.ofList members.reverse
  match left with
  | some (how, left) => .combined how left right
  | none => right

/-- Reads members up to the closing bracket, given those already read, the last one first. At the
start dashes stand for themselves, and so does a bracket that is the very first member. -/
def members? (spaced : Bool) :
    Nat → Bool → Option (Combination × Members) → List Members → List Char →
      Option (Members × List Char)
  | 0, _, _, _, _ => none
  | fuel + 1, start, left, members, cs =>
    match skip spaced cs, start with
    | '-' :: rest, true => members? spaced fuel true left (.character '-' :: members) rest
    | ']' :: rest, start =>
      if start && members.isEmpty then members? spaced fuel false left [.character ']'] rest
      else some (combine left members, rest)
    | '&' :: '&' :: rest, _ =>
      members? spaced fuel false (some (.intersection, combine left members)) [] rest
    | '-' :: '-' :: rest, _ =>
      members? spaced fuel false (some (.difference, combine left members)) [] rest
    | '~' :: '~' :: rest, _ =>
      members? spaced fuel false (some (.symmetricDifference, combine left members)) [] rest
    | '[' :: rest, _ =>
      match named? rest with
      | some (m, rest) => members? spaced fuel false left (m :: members) rest
      | none => do
        let (negated, rest) := negation spaced rest
        let (inner, rest) ← members? spaced fuel true none [] rest
        members? spaced fuel false left (.nested negated inner :: members) rest
    | cs, _ => do
      let (m, rest) ← memberOrRange? spaced cs
      members? spaced fuel false left (m :: members) rest

def set? (spaced : Bool) (cs : List Char) : Option (Pattern × List Char) :=
  let (negated, cs) := negation spaced cs
  (members? spaced (cs.length + 1) true none [] cs).map fun r => (.set negated r.1, r.2)

/-! ### Groups -/

def beginsName (c : Char) : Bool := c == '_' || Text.isAlphabetic c

def continuesName (c : Char) : Bool := c ∈ ['_', '.', '[', ']'] || Text.isAlphanumeric c

def name? (cs : List Char) : Option (List Char × List Char) :=
  match cs.takeWhile (· != '>'), cs.dropWhile (· != '>') with
  | c :: name, '>' :: rest =>
    if beginsName c && name.all continuesName then some (c :: name, rest) else none
  | _, _ => none

/-- Flags from their letters, each at most once. Those after a dash, of which one has to be there,
are taken back. -/
def flagsOf? (letters : List Char) : Option Flags :=
  let isKnown (l : Char) : Bool := l ∈ ['i', 'm', 's', 'U', 'u', 'R', 'x', '-']
  let on := letters.takeWhile (· != '-')
  let state (l : Char) : Option Bool := if letters.contains l then some (on.contains l) else none
  if letters.all (fun l => isKnown l && letters.count l == 1) && letters.getLast? != some '-' then
    some { caseless := state 'i', unicode := state 'u', spaced := state 'x' }
  else none

inductive Opening where
  | setting (f : Flags)
  | group (name : Option (List Char)) (f : Flags)
deriving DecidableEq, Inhabited

def opening? (spaced : Bool) (cs : List Char) : Option (Opening × List Char) :=
  match skip spaced cs with
  | '?' :: 'P' :: '<' :: cs | '?' :: '<' :: cs => (name? cs).map fun r => (.group (some r.1) {}, r.2)
  | '?' :: cs => do
    let isLetter (c : Char) : Bool := c != ':' && c != ')'
    let letters := cs.takeWhile isLetter
    let f ← flagsOf? letters
    match cs.dropWhile isLetter with
    | ':' :: rest => return (.group none f, rest)
    | ')' :: rest => if letters.isEmpty then none else return (.setting f, rest)
    | _ => none
  | cs => some (.group none {}, cs)

/-! ### Patterns -/

def plain : Char → Pattern
  | '.' => .any
  | '^' | '$' => .edge
  | c => .character c false

/-- Reads parts up to a closing parenthesis or the end of the text, given the alternatives before
them and the parts already read, the last one first. A repetition needs a part to repeat. Counts
between braces are not allowed. -/
def parts? : Nat → Bool → List Pattern → List Pattern → List Char → Option (Pattern × List Char)
  | 0, _, _, _, _ => none
  | fuel + 1, spaced, before, parts, cs =>
    let alternatives := sequenceOf parts.reverse :: before
    match skip spaced cs with
    | [] => some (choiceOf alternatives.reverse, [])
    | ')' :: rest => some (choiceOf alternatives.reverse, ')' :: rest)
    | '|' :: rest => parts? fuel spaced alternatives [] rest
    | '(' :: rest => do
      match ← opening? spaced rest with
      | (.setting f, rest) => parts? fuel (f.spaced.getD spaced) before (.flags f :: parts) rest
      | (.group name f, rest) =>
        match ← parts? fuel (f.spaced.getD spaced) [] [] rest with
        | (body, ')' :: rest) => parts? fuel spaced before (.group name f body :: parts) rest
        | _ => none
    | '[' :: rest => do
      let (p, rest) ← set? spaced rest
      parts? fuel spaced before (p :: parts) rest
    | '\\' :: rest => do
      let (p, rest) ← escape? spaced rest
      parts? fuel spaced before (p :: parts) rest
    | c :: rest =>
      if c = '\x7b' then none
      else if c ∈ ['?', '*', '+'] then
        match parts with
        | [] | .flags _ :: _ => none
        | p :: parts =>
          let rest := if rest.head? = some '?' then rest.drop 1 else rest
          parts? fuel spaced before (.repetition p :: parts) rest
      else parts? fuel spaced before (plain c :: parts) rest

def read? (cs : List Char) : Option Pattern :=
  match parts? (cs.length + 1) false [] [] cs with
  | some (p, []) => some p
  | _ => none

end FlowTiming.Pattern
