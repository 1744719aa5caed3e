/-!
Magnitudes of 64-bit binary floating point numbers, from zero to infinity, and rounding
to the nearest of them. A magnitude is its place in increasing order, so that `value` is
strictly increasing and rounding up past the last fraction of a binade carries by itself.
-/

namespace FlowTiming

/-- The integer nearest to `x`; an exact half goes to the even neighbour. -/
def roundHalfEven (x : Rat) : Int :=
  if x - x.floor < 1 / 2 then x.floor
  else if 1 / 2 < x - x.floor then x.floor + 1
  else x.floor + x.floor % 2

def floorLog2 (x : Rat) : Int :=
  let k : Int := (x.num.toNat.log2 : Int) - (x.den.log2 : Int)
  if (2 : Rat) ^ k ≤ x then k else k - 1

/-- A non-negative binary64 number or infinity: its place in increasing order, where 2^52
magnitudes share a binade and zero comes first. -/
structure Magnitude where
  code : Nat
  code_le : code ≤ 9218868437227405312
deriving DecidableEq

namespace Magnitude

def binade : Nat := 4503599627370496

def infinityCode : Nat := 9218868437227405312

def zero : Magnitude := ⟨0, by decide⟩

def infinity : Magnitude := ⟨infinityCode, Nat.le_refl _⟩

instance : Inhabited Magnitude := ⟨zero⟩

def isFinite (m : Magnitude) : Bool := m.code < infinityCode

def significandAt (code : Nat) : Nat :=
  if code < binade then code else binade + code % binade

def exponentAt (code : Nat) : Int :=
  if code < binade then -1074 else (code / binade : Nat) - 1075

/-- The number at a place. Infinity stands at 2^1024, where the binade after the last would begin. -/
def valueAt (code : Nat) : Rat := (significandAt code : Rat) * (2 : Rat) ^ exponentAt code

def value (m : Magnitude) : Rat := valueAt m.code

/-- The magnitude at a place, at most infinity. -/
def atPlace (code : Nat) : Magnitude := ⟨min code infinityCode, Nat.min_le_right _ _⟩

/-- The nearest magnitude, of two equally near ones the one at the even place. What is past the
last finite magnitude by half a step or more is infinite; what is not positive is zero. -/
def nearest (x : Rat) : Magnitude :=
  if x ≤ 0 then zero
  else
    let e := max (floorLog2 x - 52) (-1074)
    atPlace ((e + 1074).toNat * binade + (roundHalfEven (x / (2 : Rat) ^ e)).toNat)

instance : Add Magnitude := ⟨fun a b => nearest (a.value + b.value)⟩

instance : Mul Magnitude := ⟨fun a b => nearest (a.value * b.value)⟩

def ofNat (n : Nat) : Magnitude := nearest (n : Rat)

instance (n : Nat) : OfNat Magnitude n := ⟨ofNat n⟩

/-- The magnitude nearest to `digits * 10 ^ exponent`. Exponents far outside the range are
settled by the number of digits alone. -/
def ofDecimal (digits : Nat) (exponent : Int) : Magnitude :=
  let place : Int := (Nat.toDigits 10 digits).length + exponent
  if digits = 0 then zero
  else if 310 < place then infinity
  else if place < -330 then zero
  else nearest ((digits : Rat) * (10 : Rat) ^ exponent)

end Magnitude

end FlowTiming
