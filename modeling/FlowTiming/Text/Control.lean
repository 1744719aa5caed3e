/-!
Controls in running text: those that could steer a terminal are shown by their code points.
-/

namespace FlowTiming.Text

/-- Bell, backspace, form feed, escape, delete, and the controls beyond ASCII. -/
def steers (c : Char) : Bool :=
  c.toNat ∈ [7, 8, 12, 27, 127] || (128 ≤ c.toNat && c.toNat ≤ 159)

/-- A control in two hexadecimal digits after `\x`, or between braces after `\u` beyond ASCII. -/
def controlName (c : Char) : List Char :=
  let digits := Nat.toDigits 16 c.toNat
  if c.toNat < 128 then '\\' :: 'x' :: (List.replicate (2 - digits.length) '0' ++ digits)
  else '\\' :: 'u' :: '\x7b' :: (digits ++ ['\x7d'])

def tamed (s : String) : String :=
  String.ofList (s.toList.flatMap fun c => if steers c then controlName c else [c])

end FlowTiming.Text
