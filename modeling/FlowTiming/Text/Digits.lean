/-!
Digits of bases up to sixteen, and characters that are named by their code points.
-/

namespace FlowTiming.Text

def isHexDigit (c : Char) : Bool :=
  c.isDigit || ('a' ≤ c && c ≤ 'f') || ('A' ≤ c && c ≤ 'F')

def isOctalDigit (c : Char) : Bool := '0' ≤ c && c ≤ '7'

def isBinaryDigit (c : Char) : Bool := c == '0' || c == '1'

def digitValue (c : Char) : Nat :=
  if c.isDigit then c.toNat - 48
  else if 'a' ≤ c then c.toNat - 87
  else c.toNat - 55

/-- The number that digits stand for, the first one being the greatest. -/
def ofDigits (base : Nat) (ds : List Char) : Nat :=
  ds.foldl (fun n c => base * n + digitValue c) 0

/-- Goes on reading a number by so many hexadecimal digits. Before each one all is skipped that
does not count. -/
def hexNumber? (skip : List Char → List Char) : Nat → Nat → List Char → Option (Nat × List Char)
  | 0, n, cs => some (n, cs)
  | count + 1, n, cs =>
    match skip cs with
    | d :: rest =>
      if isHexDigit d then hexNumber? skip count (16 * n + digitValue d) rest else none
    | [] => none

/-- The character with a code point in so many hexadecimal digits, and what follows them. -/
def codePoint? (skip : List Char → List Char) (count : Nat) (cs : List Char) :
    Option (Char × List Char) := do
  let (n, rest) ← hexNumber? skip count 0 cs
  if n.isValidChar then some (Char.ofNat n, rest) else none

end FlowTiming.Text
