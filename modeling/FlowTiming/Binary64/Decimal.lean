import FlowTiming.Binary64.Magnitude

/-!
Decimal text of magnitudes. A magnitude is written with the fewest digits that read back
to it, and of the texts with that many digits the nearest.
-/

namespace FlowTiming

structure Decimal where
  digits : Nat
  exponent : Int
deriving DecidableEq

namespace Decimal

def value (d : Decimal) : Rat := (d.digits : Rat) * (10 : Rat) ^ d.exponent

def digitList (d : Decimal) : List Char := Nat.toDigits 10 d.digits

def trimmed (d : Decimal) : Decimal :=
  go d.digitList.length d
where
  go : Nat → Decimal → Decimal
    | 0, d => d
    | n + 1, d =>
      if d.digits % 10 = 0 ∧ d.digits ≠ 0 then go n ⟨d.digits / 10, d.exponent + 1⟩ else d

def leading (d : Decimal) : Int := d.exponent + d.digitList.length - 1

/-- All digits in place, with a point only before a fraction. -/
def plainText (d : Decimal) : String :=
  let ds := d.digitList
  if 0 ≤ d.exponent then String.ofList (ds ++ List.replicate d.exponent.toNat '0')
  else
    let places := (-d.exponent).toNat
    if places < ds.length then
      String.ofList (ds.take (ds.length - places) ++ '.' :: ds.drop (ds.length - places))
    else
      String.ofList ('0' :: '.' :: (List.replicate (places - ds.length) '0' ++ ds))

/-- One digit, a point before further ones, and the power of ten after an `e`. -/
def scientificText (d : Decimal) : String :=
  match d.digitList with
  | [] => ""
  | [c] => String.ofList [c, 'e'] ++ toString d.leading
  | c :: rest => String.ofList (c :: '.' :: rest) ++ "e" ++ toString d.leading

end Decimal

namespace Magnitude

def floorLog10 (x : Rat) : Int :=
  let k : Int := (Nat.toDigits 10 x.num.toNat).length - (Nat.toDigits 10 x.den).length
  if (10 : Rat) ^ k ≤ x then k else k - 1

/-- Whether `x` reads back to the magnitude at `code`: it lies between the midpoints to its two
neighbours, which belong to even places. -/
def readsBack (code : Nat) (x : Rat) : Bool :=
  let low := (valueAt (code - 1) + valueAt code) / 2
  let high := (valueAt code + valueAt (code + 1)) / 2
  if code % 2 = 0 then low ≤ x && x ≤ high else low < x && x < high

/-- The better of the two neighbours of a number on the grid of multiples of `10 ^ exponent`, if
one of them reads back; a tie goes up. -/
def onGrid (code : Nat) (exponent : Int) : Option Decimal :=
  let x := valueAt code
  let step := (10 : Rat) ^ exponent
  let below := (x / step).floor.toNat
  let lower : Decimal := ⟨below, exponent⟩
  let upper : Decimal := ⟨below + 1, exponent⟩
  match readsBack code lower.value, readsBack code upper.value with
  | true, true => some (if x - lower.value < upper.value - x then lower else upper)
  | true, false => some lower
  | false, true => some upper
  | false, false => none

/-- The decimal with the fewest digits that reads back, for a place other than zero. -/
def shortest (code : Nat) : Decimal :=
  let top := floorLog10 (valueAt code)
  match (List.range 17).findSome? (fun n : Nat => onGrid code (top - n)) with
  | some d => d.trimmed
  | none => ⟨0, 0⟩

/-- Digits in place, never a power of ten. -/
def plainText (m : Magnitude) : String :=
  if m.code = infinityCode then "inf"
  else if m.code = 0 then "0"
  else (shortest m.code).plainText

/-- Digits in place with at least one after the point, but a power of ten below 10^-4 and from
10^16 on. -/
def markedText (m : Magnitude) : String :=
  if m.code = infinityCode then "inf"
  else if m.code = 0 then "0.0"
  else
    let d := shortest m.code
    if m.value < (10 : Rat) ^ (-4 : Int) ∨ (10 : Rat) ^ (16 : Int) ≤ m.value then d.scientificText
    else if 0 ≤ d.exponent then d.plainText ++ ".0"
    else d.plainText

end Magnitude

end FlowTiming
