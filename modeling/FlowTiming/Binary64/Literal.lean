import FlowTiming.Binary64.Basic
import FlowTiming.Text.Digits

/-!
Binary64 numbers from decimal text: a sign, digits with or without a point, and a power of ten;
or infinity, or what is not a number, in any case.
-/

namespace FlowTiming.Binary64

open Text (ofDigits)

/-- A power of ten after an `e`, or none. -/
def readExponent? : List Char → Option Int
  | [] => some 0
  | c :: rest =>
    let negative := rest.head? = some '-'
    let ds := if negative ∨ rest.head? = some '+' then rest.drop 1 else rest
    if (c = 'e' ∨ c = 'E') ∧ !ds.isEmpty ∧ ds.all Char.isDigit then
      some (if negative then -(ofDigits 10 ds : Int) else ofDigits 10 ds)
    else none

def readMagnitude? (cs : List Char) : Option Magnitude := do
  let whole := cs.takeWhile Char.isDigit
  let rest := cs.dropWhile Char.isDigit
  let (fraction, rest) := match rest with
    | '.' :: rest => (rest.takeWhile Char.isDigit, rest.dropWhile Char.isDigit)
    | rest => ([], rest)
  let exponent ← readExponent? rest
  let ds := whole ++ fraction
  if ds.isEmpty then none
  else return Magnitude.ofDecimal (ofDigits 10 ds) (exponent - fraction.length)

/-- The number that a text is nearest to; one past the range is infinite. -/
def read? (text : String) : Option Binary64 :=
  let cs := text.toList
  let negative := cs.head? = some '-'
  let body := if negative ∨ cs.head? = some '+' then cs.drop 1 else cs
  match String.ofList (body.map Char.toLower) with
  | "nan" => some .nan
  | "inf" | "infinity" => some (.signed negative .infinity)
  | _ => (readMagnitude? body).map (.signed negative)

end FlowTiming.Binary64
