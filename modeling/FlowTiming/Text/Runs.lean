/-!
Sets of characters, written down as runs of code points in increasing order.
-/

namespace FlowTiming.Text

abbrev Runs := Array (Nat × Nat)

def Runs.has (runs : Runs) (c : Char) : Bool :=
  runs.any fun run => run.1 ≤ c.toNat && c.toNat ≤ run.2

def isAscii (c : Char) : Bool := c.toNat < 128

end FlowTiming.Text
