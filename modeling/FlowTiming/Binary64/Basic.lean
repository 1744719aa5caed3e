import FlowTiming.Binary64.Decimal

/-!
Binary64 numbers: a sign and a magnitude, or not a number.
-/

namespace FlowTiming

/-- A 64-bit binary floating point number. All that is not a number is one value. -/
inductive Binary64 where
  | nan
  | signed (negative : Bool) (magnitude : Magnitude)
deriving DecidableEq

namespace Binary64

instance : Inhabited Binary64 := ⟨.signed false .zero⟩

def zero : Binary64 := .signed false .zero

def isFinite : Binary64 → Bool
  | nan => false
  | signed _ m => m.isFinite

/-- Below zero; negative zero is not. -/
def isBelowZero : Binary64 → Bool
  | nan => false
  | signed negative m => negative && m.code != 0

def ofBits (bits : UInt64) : Binary64 :=
  let code := bits.toNat % 9223372036854775808
  if h : code ≤ Magnitude.infinityCode then
    signed (9223372036854775808 ≤ bits.toNat) ⟨code, h⟩
  else nan

def toBits : Binary64 → UInt64
  | nan => 9221120237041090560
  | signed negative m => UInt64.ofNat (m.code + if negative then 9223372036854775808 else 0)

def ofInt (n : Int) : Binary64 := signed (n < 0) (Magnitude.ofNat n.natAbs)

/-- Digits in place, never a power of ten. -/
def plainText : Binary64 → String
  | nan => "NaN"
  | signed negative m => (if negative then "-" else "") ++ m.plainText

/-- Digits in place with at least one after the point, but a power of ten below 10^-4 and from
10^16 on. -/
def markedText : Binary64 → String
  | nan => "NaN"
  | signed negative m => (if negative then "-" else "") ++ m.markedText

end Binary64

end FlowTiming
