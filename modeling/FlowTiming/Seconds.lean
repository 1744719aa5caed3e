import FlowTiming.Binary64.Basic
import FlowTiming.Duration

/-!
Seconds as floating point numbers, and the spans of time they stand for.
-/

namespace FlowTiming

namespace Duration

/-- The span in seconds: whole seconds and the fraction are rounded each, then their sum. -/
def inSeconds (d : Duration) : Magnitude :=
  Magnitude.ofNat d.wholeSeconds + Magnitude.nearest ((d.subsecond : Rat) / 1000000000)

def secondsText (d : Duration) : String := d.inSeconds.plainText

/-- The span nearest to a number of seconds, a half of a nanosecond going to the even neighbour.
Refused are numbers below zero, what is not a number, and 2^64 seconds or more. -/
def ofSeconds? : Binary64 → Option Duration
  | .nan => none
  | .signed negative m =>
    if negative ∧ m.code ≠ 0 then none
    else ofNanos? (roundHalfEven (m.value * 1000000000)).toNat

end Duration

end FlowTiming
