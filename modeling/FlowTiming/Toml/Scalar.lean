import FlowTiming.Text.Digits
import FlowTiming.Toml.Value

/-!
Values that are one word: booleans, numbers, dates and times. A word may have the form of a number
without standing for one: too great, without digits, or with letters after an underscore. It is
a value all the same, which nobody can use.
-/

namespace FlowTiming.Toml

open Text (isHexDigit isOctalDigit isBinaryDigit ofDigits)

/-- Integers have at most 128 bits, with or without a sign. -/
def integer (n : Int) : Value :=
  if -170141183460469231731687303715884105728 ≤ n ∧ n ≤ 340282366920938463463374607431768211455
  then .integer n else .numberless

/-! ### Underscores -/

def isUnderscore (c : Char) : Bool := c == '_'

def areParted (isDigit : Char → Bool) : List Char → Bool
  | '_' :: _ => false
  | a :: '_' :: rest => isDigit a && rest.head?.any isDigit && areParted isDigit rest
  | _ :: rest => areParted isDigit rest
  | [] => true

def joined? (isDigit : Char → Bool) (cs : List Char) : Option (List Char) :=
  if areParted isDigit cs then some (cs.filter (!isUnderscore ·)) else none

/-! ### Numbers -/

def radixNumber? (base : Nat) (isDigit : Char → Bool) (cs : List Char) : Option Value := do
  let ds ← joined? isDigit cs
  if !ds.all isDigit then none
  else return if ds.isEmpty then .numberless else integer (ofDigits base ds)

def signed (negative : Bool) (n : Nat) : Int := if negative then -n else n

/-- A whole number without a leading zero. After an underscore anything may come that starts like
a number in some base. -/
def wholeNumber? (sign : Option Char) (cs : List Char) : Option Value := do
  let ds ← joined? isHexDigit cs
  if 1 < cs.length ∧ cs.head? = some '0' then none
  else if ds.all Char.isDigit then
    return integer (signed (sign == some '-') (ofDigits 10 ds))
  else return .numberless

def isMark (c : Char) : Bool := c == 'e' || c == 'E'

/-- Digits and underscores at the front of a text, one digit at least, and the rest. -/
def digits? (cs : List Char) : Option (List Char × List Char) :=
  let isPart (c : Char) : Bool := c.isDigit || isUnderscore c
  let ds := cs.takeWhile isPart
  if ds.any Char.isDigit then some (ds.filter Char.isDigit, cs.dropWhile isPart) else none

def fraction? : List Char → Option (List Char × List Char)
  | '.' :: cs => digits? cs
  | cs => some ([], cs)

def exponent? : List Char → Option (Int × List Char)
  | [] => some (0, [])
  | c :: cs =>
    if isMark c then
      let negative := cs.head? = some '-'
      (digits? (if negative ∨ cs.head? = some '+' then cs.drop 1 else cs)).map fun r =>
        (signed negative (ofDigits 10 r.1), r.2)
    else some (0, c :: cs)

/-- A number with a fraction, a power of ten, or both. One past the greatest floating point number
has no value. -/
def float? (sign : Option Char) (cs : List Char) : Option Value := do
  let _ ← joined? Char.isDigit cs
  let (whole, rest) ← digits? cs
  let (fraction, rest) ← fraction? rest
  let (exponent, rest) ← exponent? rest
  if !rest.isEmpty ∨ (1 < whole.length ∧ cs.head? = some '0') then none
  else
    let m := Magnitude.ofDecimal (ofDigits 10 (whole ++ fraction)) (exponent - fraction.length)
    return if m.isFinite then .float (.signed (sign == some '-') m) else .numberless

/-! ### Dates and times -/

def fixed? (count : Nat) (cs : List Char) : Option (Nat × List Char) :=
  let ds := cs.take count
  if ds.length = count ∧ ds.all Char.isDigit then some (ofDigits 10 ds, cs.drop count) else none

def expect? (c : Char) : List Char → Option (List Char)
  | d :: rest => if d = c then some rest else none
  | [] => none

def isLeapYear (year : Nat) : Bool := year % 4 == 0 && (year % 100 != 0 || year % 400 == 0)

def daysIn (year month : Nat) : Nat :=
  if month = 2 then (if isLeapYear year then 29 else 28)
  else if month ∈ [4, 6, 9, 11] then 30
  else 31

def afterDate? (cs : List Char) : Option (List Char) := do
  let (year, cs) ← fixed? 4 cs
  let (month, cs) ← fixed? 2 (← expect? '-' cs)
  let (day, cs) ← fixed? 2 (← expect? '-' cs)
  if 1 ≤ month ∧ month ≤ 12 ∧ 1 ≤ day ∧ day ≤ daysIn year month then some cs else none

/-- What follows the seconds of a time and their fraction, both of which may be missing. -/
def afterSeconds? : List Char → Option (List Char)
  | ':' :: cs => do
    let (second, cs) ← fixed? 2 cs
    if 60 < second then none
    else
      match cs with
      | '.' :: rest =>
        if rest.head?.any Char.isDigit then some (rest.dropWhile Char.isDigit) else none
      | cs => some cs
  | cs => some cs

def afterTime? (cs : List Char) : Option (List Char) := do
  let (hour, cs) ← fixed? 2 cs
  let (minute, cs) ← fixed? 2 (← expect? ':' cs)
  if hour ≤ 23 ∧ minute ≤ 59 then afterSeconds? cs else none

def afterOffset? : List Char → Option (List Char)
  | 'Z' :: cs | 'z' :: cs => some cs
  | '+' :: cs | '-' :: cs => do
    let (hour, cs) ← fixed? 2 cs
    let (minute, cs) ← fixed? 2 (← expect? ':' cs)
    if hour ≤ 23 ∧ minute ≤ 59 then some cs else none
  | cs => some cs

def isMoment (cs : List Char) : Bool :=
  match afterDate? cs with
  | some [] => true
  | some (c :: time) =>
    (c == 'T' || c == 't' || c == ' ') && ((afterTime? time).bind afterOffset?) == some []
  | none => afterTime? cs == some []

/-! ### Words -/

/-- A number, a date or a time. What follows the first digits tells which it is. -/
def numberOrMoment? (sign : Option Char) (cs : List Char) : Option Value :=
  let rest := cs.dropWhile Char.isDigit
  match rest with
  | [] => wholeNumber? sign cs
  | c :: _ =>
    if c = '-' ∨ c = ':' then if sign.isNone ∧ isMoment cs then some .moment else none
    else if rest.any fun c => c == '.' || isMark c then float? sign cs
    else if c = '_' then wholeNumber? sign cs
    else none

def unsigned? (sign : Option Char) (cs : List Char) : Option Value :=
  match sign, cs with
  | _, ['i', 'n', 'f'] => some (.float (.signed (sign == some '-') .infinity))
  | _, ['n', 'a', 'n'] => some (.float .nan)
  | none, '0' :: 'x' :: ds => radixNumber? 16 isHexDigit ds
  | none, '0' :: 'o' :: ds => radixNumber? 8 isOctalDigit ds
  | none, '0' :: 'b' :: ds => radixNumber? 2 isBinaryDigit ds
  | _, [] => none
  | _, cs => numberOrMoment? sign cs

def scalar? (cs : List Char) : Option Value :=
  match cs with
  | ['t', 'r', 'u', 'e'] => some (.boolean true)
  | ['f', 'a', 'l', 's', 'e'] => some (.boolean false)
  | '+' :: cs => unsigned? (some '+') cs
  | '-' :: cs => unsigned? (some '-') cs
  | cs => unsigned? none cs

end FlowTiming.Toml
