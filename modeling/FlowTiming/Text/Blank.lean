import FlowTiming.Text.Runs

/-!
Blank characters: spaces of all widths, the tab, and characters that end a line or a paragraph.
-/

namespace FlowTiming.Text

def blankRuns : Runs := #[
  (9, 13), (32, 32), (133, 133), (160, 160), (5760, 5760), (8192, 8202), (8232, 8233), (8239, 8239),
  (8287, 8287), (12288, 12288)]

def isBlank (c : Char) : Bool := blankRuns.has c

def trimmed (cs : List Char) : List Char :=
  ((cs.dropWhile isBlank).reverse.dropWhile isBlank).reverse

end FlowTiming.Text
