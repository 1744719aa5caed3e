import FlowTiming.Binary64.Basic

/-!
Values of a TOML document, and tables under construction. A table remembers how it came to be,
because that decides what may still be added to it.
-/

namespace FlowTiming.Toml

inductive Origin where
  /-- By its own header, or as the whole document. -/
  | header
  /-- As a part of the path in a header. -/
  | path
  /-- As a part of a dotted key. -/
  | dotted
  /-- Between braces. -/
  | inline
deriving DecidableEq, Inhabited

/-- Whether the table was only named on the way to something else. -/
def Origin.isImplicit : Origin → Bool
  | path | dotted => true
  | header | inline => false

inductive Value where
  | string (text : String)
  | integer (number : Int)
  | float (number : Binary64)
  /-- What is written like a number and stands for none. -/
  | numberless
  | boolean (value : Bool)
  /-- A date, a time, or both. -/
  | moment
  /-- Values between brackets, or tables with one header each. -/
  | array (ofTables : Bool) (items : List Value)
  | table (origin : Origin) (entries : List (String × Value))

instance : Inhabited Value := ⟨.moment⟩

mutual

/-- Whether a condition holds for every value without parts within a value. -/
def Value.every (holds : Value → Bool) : Value → Bool
  | .array _ items => everyItem holds items
  | .table _ entries => everyEntry holds entries
  | v => holds v

def everyItem (holds : Value → Bool) : List Value → Bool
  | [] => true
  | v :: rest => v.every holds && everyItem holds rest

def everyEntry (holds : Value → Bool) : List (String × Value) → Bool
  | [] => true
  | (_, v) :: rest => v.every holds && everyEntry holds rest

end

abbrev Entries := List (String × Value)

namespace Entries

def replace (es : Entries) (key : String) (value : Value) : Entries :=
  es.map fun e => if e.1 == key then (key, value) else e

/-- Changes the table at the end of a path of keys. Tables on the way that are missing are made.
An array of tables is entered at its last one. Nothing is ever added to an inline table, and a
dotted key does not enter a table with a header. -/
def change (dotted : Bool) (f : Origin → Entries → Option (Origin × Entries)) :
    List String → Origin → Entries → Option (Origin × Entries)
  | [], origin, es => f origin es
  | key :: path, origin, es =>
    match es.lookup key with
    | none => do
      let made ← change dotted f path (if dotted then .dotted else .path) []
      return (origin, es ++ [(key, .table made.1 made.2)])
    | some (.table inner entries) =>
      if inner = .inline ∨ (dotted ∧ !inner.isImplicit) then none
      else do
        let changed ← change dotted f path inner entries
        return (origin, replace es key (.table changed.1 changed.2))
    | some (.array true items) =>
      match items.getLast? with
      | some (.table inner entries) => do
        let changed ← change dotted f path inner entries
        return (origin,
          replace es key (.array true (items.dropLast ++ [.table changed.1 changed.2])))
      | _ => none
    | some _ => none

/-- Adds a value under a new key. A table made by dotted keys only takes further dotted keys, and
only such a table takes them. -/
def add (dotted : Bool) (key : String) (value : Value) (origin : Origin) (es : Entries) :
    Option (Origin × Entries) :=
  if (origin == .dotted) != dotted ∨ (es.lookup key).isSome then none
  else some (origin, es ++ [(key, value)])

def addAt (path : List String) (key : String) (value : Value) (origin : Origin) (es : Entries) :
    Option (Origin × Entries) :=
  change (!path.isEmpty) (add (!path.isEmpty) key value) path origin es

/-- Opens the table of a header, which is new or was only part of the path of another one. -/
def openTable (key : String) (origin : Origin) (es : Entries) : Option (Origin × Entries) :=
  match es.lookup key with
  | none => some (origin, es ++ [(key, .table .header [])])
  | some (.table .path inner) => some (origin, replace es key (.table .header inner))
  | some _ => none

def openItem (key : String) (origin : Origin) (es : Entries) : Option (Origin × Entries) :=
  match es.lookup key with
  | none => some (origin, es ++ [(key, .array true [.table .header []])])
  | some (.array true items) =>
    some (origin, replace es key (.array true (items ++ [.table .header []])))
  | some _ => none

end Entries

/-- A key with the keys before it. -/
structure Key where
  path : List String
  last : String

def Key.toList (k : Key) : List String := k.path ++ [k.last]

inductive Statement where
  | table (key : Key)
  | item (key : Key)
  | entry (key : Key) (value : Value)

def inlineTable (entries : List (Key × Value)) : Option Value := do
  let made ← entries.foldlM (fun (table : Origin × Entries) e =>
    Entries.addAt e.1.path e.1.last e.2 table.1 table.2) (.header, [])
  return .table .inline made.2

/-- A document so far, and the path of the header that its next entries belong to. -/
structure Document where
  root : Entries
  place : List String

namespace Document

def empty : Document := ⟨[], []⟩

def add (d : Document) : Statement → Option Document
  | .table key => do
    let root ← Entries.change false (Entries.openTable key.last) key.path .header d.root
    return ⟨root.2, key.toList⟩
  | .item key => do
    let root ← Entries.change false (Entries.openItem key.last) key.path .header d.root
    return ⟨root.2, key.toList⟩
  | .entry key value => do
    let root ← Entries.change false (Entries.addAt key.path key.last value) d.place .header d.root
    return ⟨root.2, d.place⟩

def ofStatements (statements : List Statement) : Option Document := statements.foldlM add empty

end Document

end FlowTiming.Toml
