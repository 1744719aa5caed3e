import FlowTiming.Count
import FlowTiming.Failure

/-!
The margin on buffer sizes: a ratio of slots added against jitter.
-/

namespace FlowTiming

/-- A finite ratio that is not below zero. Negative zero is kept as such. -/
structure Margin where
  ratio : Binary64
  ratio_isFinite : ratio.isFinite = true
  ratio_not_below : ratio.isBelowZero = false
deriving DecidableEq

namespace Margin

def ofBinary64 (value : Binary64) : Except Failure Margin :=
  if finite : value.isFinite = true then
    if below : value.isBelowZero = false then .ok ⟨value, finite, below⟩
    else .error (.badMargin value)
  else .error (.badMargin value)

def standardRatio : Binary64 := .signed false ⟨4591870180066957722, by decide⟩

def standard : Margin := ⟨standardRatio, by decide, by decide⟩

instance : Inhabited Margin := ⟨standard⟩

def magnitude (m : Margin) : Magnitude :=
  match m.ratio with
  | .nan => .zero
  | .signed _ magnitude => magnitude

/-- What is taken off a scaled size before it is rounded up, so that 1.1 times 10 stays 11. -/
def noise : Rat := (Magnitude.ofDecimal 1 (-9)).value

/-- Slots for a queue and the margin on it, in rounded arithmetic and rounded up. -/
def scaledSlots (m : Margin) (queue : Count) : Count :=
  let scaled := (1 + m.magnitude) * Magnitude.ofNat queue.toNat
  Count.ofNat (Magnitude.nearest (scaled.value - noise)).value.ceil.toNat

/-- Slots for a channel that must hold a queue: no fewer than the queue, the margin on it, and one
more because whole periods are rounded down. -/
def bufferSize (m : Margin) (queue : Count) : Count := max (m.scaledSlots queue) queue + 1

end Margin

end FlowTiming
