import FlowTiming.Toml.Scalar

/-!
Reading a TOML 1.1 document from its characters. A reader takes what it reads off the front of
the text; all of a document has to be read, or there is none.
-/

namespace FlowTiming.Toml

abbrev Reader (α : Type) := List Char → Option (α × List Char)

def isBlank (c : Char) : Bool := c == ' ' || c == '\t'

/-- Characters of a comment or a string: no controls but the tab. -/
def isVisible (c : Char) : Bool := c == '\t' || (32 ≤ c.toNat && c.toNat != 127)

def skipBlanks (cs : List Char) : List Char := cs.dropWhile isBlank

/-- Skips blanks, line ends and comments; the flag tells that a comment has begun. -/
def skipVoid : Bool → List Char → Option (List Char)
  | _, [] => some []
  | _, '\n' :: cs => skipVoid false cs
  | _, '\r' :: '\n' :: cs => skipVoid false cs
  | true, c :: cs => if isVisible c then skipVoid true cs else none
  | false, c :: cs =>
    if isBlank c then skipVoid false cs
    else if c == '#' then skipVoid true cs
    else some (c :: cs)

/-- Skips blanks and a comment up to the end of the line, which has to come. -/
def endLine (cs : List Char) : Option (List Char) :=
  let cs := skipBlanks cs
  let cs := if cs.head? = some '#' then cs.dropWhile isVisible else cs
  match cs with
  | [] => some []
  | '\n' :: rest => some rest
  | '\r' :: '\n' :: rest => some rest
  | _ => none

/-! ### Strings -/

def escape : Reader Char
  | 'b' :: cs => some ('\x08', cs)
  | 't' :: cs => some ('\t', cs)
  | 'n' :: cs => some ('\n', cs)
  | 'f' :: cs => some ('\x0c', cs)
  | 'r' :: cs => some ('\r', cs)
  | 'e' :: cs => some ('\x1b', cs)
  | '"' :: cs => some ('"', cs)
  | '\\' :: cs => some ('\\', cs)
  | 'x' :: cs => Text.codePoint? id 2 cs
  | 'u' :: cs => Text.codePoint? id 4 cs
  | 'U' :: cs => Text.codePoint? id 8 cs
  | _ => none

def basicRest : Nat → Reader (List Char)
  | 0, _ => none
  | fuel + 1, cs =>
    match cs with
    | [] => none
    | '"' :: rest => some ([], rest)
    | '\\' :: rest => do
      let (c, rest) ← escape rest
      let (text, rest) ← basicRest fuel rest
      return (c :: text, rest)
    | c :: rest => do
      if isVisible c then
        let (text, rest) ← basicRest fuel rest
        return (c :: text, rest)
      else none

def literalRest : Reader (List Char)
  | [] => none
  | '\'' :: rest => some ([], rest)
  | c :: rest => do
    if isVisible c then
      let (text, rest) ← literalRest rest
      return (c :: text, rest)
    else none

/-- The end of a string over several lines: three quotes, before which two more may stand that
belong to the string. -/
def closing (quote : Char) : Reader (List Char)
  | a :: b :: c :: d :: e :: rest =>
    if a = quote ∧ b = quote ∧ c = quote then
      if d = quote then
        if e = quote then some ([quote, quote], rest) else some ([quote], e :: rest)
      else some ([], d :: e :: rest)
    else none
  | [a, b, c, d] =>
    if a = quote ∧ b = quote ∧ c = quote then
      if d = quote then some ([quote], []) else some ([], [d])
    else none
  | [a, b, c] => if a = quote ∧ b = quote ∧ c = quote then some ([], []) else none
  | _ => none

def skipLines : List Char → List Char
  | '\r' :: '\n' :: cs => skipLines cs
  | c :: cs => if isBlank c || c == '\n' then skipLines cs else c :: cs
  | [] => []

/-- What follows a backslash at the end of a line: the next character that is not blank. -/
def continued (cs : List Char) : Option (List Char) :=
  match skipBlanks cs with
  | '\n' :: rest => some (skipLines rest)
  | '\r' :: '\n' :: rest => some (skipLines rest)
  | _ => none

def lineEnd : Reader (List Char)
  | '\n' :: rest => some (['\n'], rest)
  | '\r' :: '\n' :: rest => some (['\r', '\n'], rest)
  | _ => none

/-- The rest of a string over several lines; only between double quotes a backslash escapes. -/
def longRest (quote : Char) : Nat → Reader (List Char)
  | 0, _ => none
  | fuel + 1, cs => do
    if let some done := closing quote cs then return done
    if let some (eol, rest) := lineEnd cs then
      let (text, rest) ← longRest quote fuel rest
      return (eol ++ text, rest)
    match cs with
    | [] => none
    | c :: rest =>
      if c = '\\' ∧ quote = '"' then
        match continued rest with
        | some rest => longRest quote fuel rest
        | none =>
          let (c, rest) ← escape rest
          let (text, rest) ← longRest quote fuel rest
          return (c :: text, rest)
      else if isVisible c then
        let (text, rest) ← longRest quote fuel rest
        return (c :: text, rest)
      else none

/-- A line end right after the opening quotes does not count. -/
def dropLineEnd (cs : List Char) : List Char :=
  match lineEnd cs with
  | some (_, rest) => rest
  | none => cs

def shortString : Reader String
  | '"' :: cs => (basicRest (cs.length + 1) cs).map fun r => (String.ofList r.1, r.2)
  | '\'' :: cs => (literalRest cs).map fun r => (String.ofList r.1, r.2)
  | _ => none

def string : Reader String
  | '"' :: '"' :: '"' :: cs =>
    (longRest '"' (cs.length + 1) (dropLineEnd cs)).map fun r => (String.ofList r.1, r.2)
  | '\'' :: '\'' :: '\'' :: cs =>
    (longRest '\'' (cs.length + 1) (dropLineEnd cs)).map fun r => (String.ofList r.1, r.2)
  | cs => shortString cs

/-! ### Keys -/

def isBare (c : Char) : Bool := c.isAlphanum || c == '-' || c == '_'

def simpleKey : Reader String := fun cs =>
  match cs with
  | '"' :: '"' :: '"' :: _ | '\'' :: '\'' :: '\'' :: _ => none
  | '"' :: _ | '\'' :: _ => shortString cs
  | cs =>
    let name := cs.takeWhile isBare
    if name.isEmpty then none else some (String.ofList name, cs.dropWhile isBare)

def maxDepth : Nat := 80

/-- Keys parted by dots, so many at most. -/
def keyFrom (before : List String) : Nat → Reader Key
  | 0, _ => none
  | fuel + 1, cs => do
    let (name, rest) ← simpleKey cs
    match skipBlanks rest with
    | '.' :: rest => keyFrom (before ++ [name]) fuel (skipBlanks rest)
    | rest => return (⟨before, name⟩, rest)

def key : Reader Key := keyFrom [] maxDepth

/-! ### Values -/

/-- Characters of words: all that have no meaning of their own. -/
def isWord (c : Char) : Bool :=
  !isBlank c && !(c ∈ ['\n', '\r', '#', '=', ',', '[', ']', '\x7b', '\x7d'])

/-- A value that is one word; a date may be followed by a blank and a time. -/
def word : Reader Value := fun cs =>
  let first := cs.takeWhile isWord
  match cs.dropWhile isWord with
  | ' ' :: rest =>
    if isMoment first ∧ first.length = 10 ∧ rest.head?.any Char.isDigit then
      (scalar? (first ++ ' ' :: rest.takeWhile isWord)).map (·, rest.dropWhile isWord)
    else (scalar? first).map (·, ' ' :: rest)
  | rest => (scalar? first).map (·, rest)

/-- Items parted by commas up to a closing character, over any number of lines. A comma may follow
the last item. -/
def items {α : Type} (close : Char) (item : Reader α) : Nat → Reader (List α)
  | 0, _ => none
  | fuel + 1, cs => do
    match ← skipVoid false cs with
    | [] => none
    | c :: rest =>
      if c = close then return ([], rest)
      else
        let (a, rest) ← item (c :: rest)
        match ← skipVoid false rest with
        | [] => none
        | c :: rest =>
          if c = close then return ([a], rest)
          else if c = ',' then
            let (as, rest) ← items close item fuel rest
            return (a :: as, rest)
          else none

/-- A key and its value, given a reader of values and what may stand on either side of the equals
sign between them. -/
def entryOf (skip : List Char → Option (List Char)) (value : Reader Value) :
    Reader (Key × Value) := fun cs => do
  let (k, rest) ← key cs
  match ← skip rest with
  | '=' :: rest =>
    let (v, rest) ← value (← skip rest)
    return ((k, v), rest)
  | _ => none

/-- A value in which arrays and inline tables are nested at most so deep. -/
def value : Nat → Reader Value
  | 0 => fun cs =>
    match cs with
    | '"' :: _ | '\'' :: _ => (string cs).map fun r => (.string r.1, r.2)
    | cs => word cs
  | depth + 1 => fun cs =>
    match cs with
    | '[' :: rest => do
      let (values, rest) ← items ']' (value depth) (rest.length + 1) rest
      return (.array false values, rest)
    | '\x7b' :: rest => do
      let entry := entryOf (skipVoid false) (value depth)
      let (entries, rest) ← items '\x7d' entry (rest.length + 1) rest
      return (← inlineTable entries, rest)
    | '"' :: _ | '\'' :: _ => (string cs).map fun r => (.string r.1, r.2)
    | cs => word cs

/-! ### Documents -/

def statement : Reader Statement := fun cs =>
  match cs with
  | '[' :: '[' :: rest => do
    let (k, rest) ← key (skipBlanks rest)
    match skipBlanks rest with
    | ']' :: ']' :: rest => return (.item k, ← endLine rest)
    | _ => none
  | '[' :: rest => do
    let (k, rest) ← key (skipBlanks rest)
    match skipBlanks rest with
    | ']' :: rest => return (.table k, ← endLine rest)
    | _ => none
  | cs => do
    let ((k, v), rest) ← entryOf (some ∘ skipBlanks) (value maxDepth) cs
    return (.entry k v, ← endLine rest)

def statements : Nat → List Char → Option (List Statement)
  | 0, _ => none
  | fuel + 1, cs => do
    match ← skipVoid false cs with
    | [] => return []
    | cs =>
      let (s, rest) ← statement cs
      return s :: (← statements fuel rest)

/-- Reads a document; a mark of the byte order in front of it does not count. -/
def read (text : String) : Option Entries := do
  let cs := text.toList
  let cs := if cs.head? = some '\ufeff' then cs.drop 1 else cs
  let d ← Document.ofStatements (← statements (cs.length + 1) cs)
  return d.root

end FlowTiming.Toml
