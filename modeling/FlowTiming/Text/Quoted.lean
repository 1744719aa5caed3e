import FlowTiming.Text.Unprintable

/-!
Quoted text: names between double quotes, where a reader can tell every character.
-/

namespace FlowTiming.Text

/-- A character inside quotes. Controls with a short name use it, a quote and a backslash follow a
backslash, and what is not shown as itself is named by its code point. -/
def escaped (c : Char) : List Char :=
  if c = '\x00' then ['\\', '0']
  else if c = '\t' then ['\\', 't']
  else if c = '\n' then ['\\', 'n']
  else if c = '\r' then ['\\', 'r']
  else if c = '"' then ['\\', '"']
  else if c = '\\' then ['\\', '\\']
  else if isUnprintable c then '\\' :: 'u' :: '\x7b' :: (Nat.toDigits 16 c.toNat ++ ['\x7d'])
  else [c]

def quoted (s : String) : String :=
  String.ofList ('"' :: (s.toList.flatMap escaped ++ ['"']))

def bracketed (items : List String) : String := "[" ++ ", ".intercalate items ++ "]"

def optional : Option String → String
  | none => "None"
  | some s => "Some(" ++ s ++ ")"

end FlowTiming.Text
