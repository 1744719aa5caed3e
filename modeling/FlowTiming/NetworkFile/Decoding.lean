import FlowTiming.NetworkFile.Basic
import FlowTiming.Toml.Reader

/-!
Network files from the values of a TOML document. Keys that mean nothing here are passed over if
their values are readable. A section may also be an array of its values in the order of their
declaration; of these the last ones may be missing where they have a standard value, and further
ones are not even looked at.
-/

namespace FlowTiming.NetworkFile

open Toml (Value)

abbrev Decoder (α : Type) := Value → Option α

namespace Decoder

def string : Decoder String
  | .string s => some s
  | _ => none

def boolean : Decoder Bool
  | .boolean b => some b
  | _ => none

/-- An integer that is not negative and fits 64 bits. -/
def count : Decoder Count
  | .integer n => if 0 ≤ n then Count.ofNat? n.toNat else none
  | _ => none

/-- A float, or an integer that fits 64 bits with or without a sign. -/
def number : Decoder Binary64
  | .float x => some x
  | .integer n =>
    if -9223372036854775808 ≤ n ∧ n ≤ 18446744073709551615 then some (.ofInt n) else none
  | _ => none

def list {α : Type} (item : Decoder α) : Decoder (List α)
  | .array _ items => items.mapM item
  | _ => none

def map {α : Type} (item : Decoder α) : Decoder (Std.ExtTreeMap String α)
  | .table _ entries =>
    entries.foldlM (fun m e => (item e.2).map fun a => m.insert e.1 a) ∅
  | _ => none

def optional {α : Type} (item : Decoder α) : Decoder (Option α) := fun v => (item v).map some

/-- A name, or a table with the name as its only key and nothing under it. -/
def name {α : Type} (names : List (String × α)) : Decoder α
  | .string s => names.lookup s
  | .table _ [(key, .table _ [])] => names.lookup key
  | .table _ [(key, .array _ [])] => names.lookup key
  | _ => none

end Decoder

/-- Whether no part of a value that nobody asks for is without meaning. -/
def isReadable (v : Value) : Bool :=
  v.every fun
    | .numberless => false
    | _ => true

/-- The values of a section in the order of declaration, as far as they are there. -/
abbrev Fields := List (Option Value)

namespace Fields

/-- The values of a section with fields of the given names. Of a table all other values have to be
readable, further items of an array do not. A date or a time counts as a table without any of
the names. -/
def of? (names : List String) : Value → Option Fields
  | .table _ entries =>
    if (entries.filter fun e => !names.contains e.1).all fun e => isReadable e.2 then
      some (names.map fun name => entries.lookup name)
    else none
  | .array _ items => some (items.map some)
  | .moment => some []
  | _ => none

def field {α : Type} (f : Fields) (place : Nat) (item : Decoder α) : Option α :=
  f[place]?.join.bind item

/-- The value at a place, or a standard one where nothing is. -/
def fieldOr {α : Type} (f : Fields) (place : Nat) (standard : α) (item : Decoder α) : Option α :=
  match f[place]?.join with
  | some v => item v
  | none => some standard

end Fields

open Decoder

/-- Whether a value is readable and all integers in it fit 64 bits with or without a sign. -/
def fitsWords (v : Value) : Bool :=
  v.every fun
    | .integer n => -9223372036854775808 ≤ n && n ≤ 18446744073709551615
    | .numberless => false
    | _ => true

def policyOf (type : String) (size : Option Value) : Option Policy :=
  match type with
  | "pass-through" => some .passThrough
  | "single-slot" => some .singleSlot
  | "buffer" => (size.bind count).map .buffer
  | _ => none

/-- A policy by its type and, for a buffer, its size; also as an array without anything more. -/
def policy : Decoder Policy
  | .table _ entries => do
    let type ← (entries.lookup "type").bind string
    if entries.all fun e => fitsWords e.2 then policyOf type (entries.lookup "size") else none
  | .array _ [type] => do policyOf (← string type) none
  | .array _ [type, size] => do
    match ← string type with
    | "buffer" => policyOf "buffer" (some size)
    | _ => none
  | _ => none

def outputSection : Decoder OutputSection := fun v => do
  let f ← Fields.of?
    ["sample_size", "burst_period", "burst_size", "triggered_on_update", "port_triggers"] v
  return { sampleSize := ← f.fieldOr 0 1 count, burstPeriod := ← f.fieldOr 1 .zero number,
           burstSize := ← f.fieldOr 2 0 count, onUpdate := ← f.fieldOr 3 true boolean,
           triggers := ← f.fieldOr 4 [] (list string) }

def connectionKind : Decoder ConnectionKind := name [("data", .data), ("buffer", .buffer)]

def inputSection : Decoder InputPort := fun v => do
  let f ← Fields.of? ["trigger_port", "needs_reliable_connection", "connection_type"] v
  return { wakes := ← f.fieldOr 0 true boolean, reliable := ← f.fieldOr 1 false boolean,
           kind := ← f.fieldOr 2 .data connectionKind }

def deviceSection : Decoder DeviceSection := fun v => do
  let f ← Fields.of? ["name", "period", "burst", "sample_size", "ports"] v
  return { name := ← f.field 0 string, period := ← f.fieldOr 1 none (optional number),
           burst := ← f.fieldOr 2 0 count, sampleSize := ← f.fieldOr 3 1 count,
           ports := ← f.fieldOr 4 [] (list string) }

def hintSection : Decoder HintSection := fun v => do
  let f ← Fields.of? ["port", "name", "period", "sample_count", "sample_size"] v
  return { port := ← f.fieldOr 0 none (optional string), name := ← f.field 1 string,
           period := ← f.fieldOr 2 .zero number, sampleCount := ← f.field 3 count,
           sampleSize := ← f.fieldOr 4 none (optional count) }

def activityName : Decoder ActivityName :=
  name [("periodic", .periodic), ("triggered", .triggered), ("slave", .slave)]

def kindName : Decoder KindName :=
  name [("component", .component), ("driver", .driver), ("combus", .bus)]

def taskSection : Decoder TaskSection := fun v => do
  let f ← Fields.of?
    ["activity", "period", "master", "trigger_latency", "kind", "output", "input", "device",
      "hint"] v
  return { activity := ← f.fieldOr 0 .triggered activityName,
           period := ← f.fieldOr 1 none (optional number),
           master := ← f.fieldOr 2 none (optional string),
           latency := ← f.fieldOr 3 .zero number, kind := ← f.fieldOr 4 .component kindName,
           outputs := ← f.fieldOr 5 ∅ (map outputSection),
           inputs := ← f.fieldOr 6 ∅ (map inputSection),
           devices := ← f.fieldOr 7 [] (list deviceSection),
           hints := ← f.fieldOr 8 [] (list hintSection) }

def connectionSection : Decoder ConnectionSection := fun v => do
  let f ← Fields.of? ["from", "to", "policy", "fallback"] v
  return { source := ← f.field 0 string, sink := ← f.field 1 string,
           policy := ⟨← f.fieldOr 2 none (optional policy), ← f.fieldOr 3 none (optional policy)⟩ }

def marginSection : Decoder Binary64 := fun v => do
  (← Fields.of? ["buffer_size_margin"] v).fieldOr 0 Margin.standardRatio number

def file : Decoder NetworkFile := fun v => do
  let f ← Fields.of? ["config", "task", "connection"] v
  return { marginRatio := ← f.fieldOr 0 Margin.standardRatio marginSection,
           tasks := ← f.fieldOr 1 ∅ (map taskSection),
           connections := ← f.fieldOr 2 [] (list connectionSection) }

def read (text : String) : Except Failure NetworkFile :=
  match (Toml.read text).bind fun entries => file (.table .header entries) with
  | some f => .ok f
  | none => .error .notToml

end FlowTiming.NetworkFile
