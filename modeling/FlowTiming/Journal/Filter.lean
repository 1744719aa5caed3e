import FlowTiming.Binary64.Literal
import FlowTiming.Journal.Basic
import FlowTiming.Pattern.Support
import FlowTiming.Text.Places

/-!
Which entries of a journal are shown. A filter is a list of directives. Among those that cover an
entry the one with the longest path decides, of several with that path the one with the most
fields, and of equal ones the last.
-/

namespace FlowTiming

/-- Entries of the speakers under a path are shown down to a level, or not at all. -/
structure Directive where
  path : List Char
  /-- Names that have to be among those of an entry. -/
  fields : List String := []
  /-- Speaks of entries made within a span of work. No entry is. -/
  inSpan : Bool := false
  level : Option Level
deriving DecidableEq

namespace Directive

def covers (d : Directive) (e : Entry) : Bool :=
  !d.inSpan && d.path.isPrefixOf e.speaker.path.toList &&
    d.fields.all fun f => e.fieldNames.contains f

/-- Whether a directive gives way to another one that covers an entry too. -/
def yields (d other : Directive) : Bool :=
  ((compare d.path.length other.path.length).then
    ((compare d.fields.length other.fields.length).then (compare d.fields other.fields))).isLE

end Directive

structure Filter where
  directives : List Directive

namespace Filter

def upTo (level : Level) : Filter := ⟨[{ path := [], level := some level }]⟩

def decisive (f : Filter) (e : Entry) : Option Directive :=
  (f.directives.filter (·.covers e)).foldl (fun best d =>
    match best with
    | some b => if b.yields d then some d else some b
    | none => some d) none

def shows (f : Filter) (e : Entry) : Bool :=
  match (f.decisive e).bind Directive.level with
  | some level => e.level.rank ≤ level.rank
  | none => false

def lines (f : Filter) (j : Journal) : List String :=
  (j.toList.filter f.shows).map Entry.line

end Filter

/-- A level by its name in any case or by its rank, where nothing is shown at `off` and zero. -/
def readLevel (text : List Char) : Option (Option Level) :=
  let digits := if text.head? = some '+' then text.drop 1 else text
  if !digits.isEmpty && digits.all Char.isDigit then
    match digits.dropWhile (· == '0') with
    | [] => some none
    | ['1'] => some (some .error)
    | ['2'] => some (some .warn)
    | ['3'] => some (some .info)
    | ['4'] => some (some .debug)
    | ['5'] => some (some .trace)
    | _ => none
  else
    match String.ofList (text.map Char.toLower) with
    | "off" => some none
    | "error" => some (some .error)
    | "warn" => some (some .warn)
    | "info" => some (some .info)
    | "debug" => some (some .debug)
    | "trace" => some (some .trace)
    | _ => none

namespace Directive

def mayBegin (c : Char) : Bool := c == '-' || c == ':' || c == '_' || Text.isAlphanumeric c

/-- The level at the end of a directive; all is shown where nothing is written. -/
def readEnd (text : List Char) : Option (Option Level) :=
  if text.isEmpty then some (some .trace) else readLevel text

/-- A field by its name, with a value or a pattern for its value after `=`. Values are only looked
at within spans. -/
def readField (text : List Char) : Option (List String × Bool) :=
  let isName (c : Char) : Bool := c != '='
  match text.dropWhile isName with
  | [] => if text.isEmpty then none else some ([String.ofList text], false)
  | _ :: rest =>
    let value := rest.takeWhile isName
    if (Binary64.read? (String.ofList value)).isSome || Pattern.accepts value then some ([], true)
    else none

structure Scope where
  fields : List String := []
  inSpan : Bool := false
deriving DecidableEq, Inhabited

/-- Reads the name of a span, a field between braces, or both, up to the closing bracket. Leaves the
place after it and what follows. -/
def readScope (text : List Char) (place : Nat) (inner : List Char) :
    Option (Scope × Nat × List Char) :=
  let isName (c : Char) : Bool := c != ']' && c != '\x7b'
  let name := inner.takeWhile isName
  let place := place + Text.byteSize name + 1
  match inner.dropWhile isName with
  | ']' :: inner => some ({ inSpan := true }, place, inner)
  | _ :: inner => do
    let last := place + Text.byteSize (inner.takeWhile (· != '\x7d'))
    let (fields, hasValue) ← readField (← Text.between? place last text)
    match inner.dropWhile (· != '\x7d') with
    | '\x7d' :: ']' :: inner => return (⟨fields, !name.isEmpty || hasValue⟩, last + 2, inner)
    | _ => none
  | [] => none

/-- Reads `LEVEL`, `PATH`, `PATH=LEVEL`, or a path with a scope between brackets. The places of the
parts are those without the blanks around the directive, but it is the text with its blanks that is
read there: blanks in front make all parts begin too early, and blanks at the end belong to the last
one. -/
def read? (text : List Char) : Option Directive :=
  let inner := Text.trimmed text
  let isPath (c : Char) : Bool := c != '=' && c != '['
  let place := Text.byteSize (inner.takeWhile isPath)
  if !(inner.head?.any fun c => c == '[' || mayBegin c) then none
  else
    match inner.dropWhile isPath with
    | [] =>
      match readLevel text with
      | some level => some { path := [], level }
      | none => some { path := text, level := some .trace }
    | '=' :: _ => do
      let path ← Text.takeBytes? place text
      return { path, level := ← readEnd (← Text.dropBytes? (place + 1) text) }
    | _ :: inner => do
      let path ← Text.takeBytes? place text
      let (scope, place, inner) ← readScope text (place + 1) inner
      let d : Directive := { path, fields := scope.fields, inSpan := scope.inSpan, level := none }
      match inner with
      | [] => return { d with level := some .trace }
      | '=' :: _ => return { d with level := ← readEnd (← Text.dropBytes? (place + 1) text) }
      | _ => none

end Directive

namespace Filter

def parts : List Char → List (List Char)
  | [] => [[]]
  | c :: rest =>
    match c, parts rest with
    | ',', ps => [] :: ps
    | c, p :: ps => (c :: p) :: ps
    | c, [] => [[c]]

/-- Reads directives between commas. Empty parts do not count; without any directive, errors are
shown. -/
def read? (text : String) : Option Filter :=
  match (parts text.toList).filter (!·.isEmpty) with
  | [] => some (upTo .error)
  | ps => (ps.mapM Directive.read?).map Filter.mk

end Filter

end FlowTiming
