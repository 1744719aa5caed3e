import FlowTiming.Seconds

/-!
Triggers: facts of the form "this source brings so many samples every so often".
-/

namespace FlowTiming

/-- A source brings `count` samples every `period`. Without a period (zero) the samples come as
one burst, at no known rate. -/
structure Trigger where
  source : String
  period : Duration
  count : Count
deriving DecidableEq

namespace Trigger

instance : Ord Trigger :=
  ⟨compareLex (compareOn source) (compareLex (compareOn period) (compareOn count))⟩

theorem compare_def (a b : Trigger) :
    compare a b = ((compare a.source b.source).then
      ((compare a.period b.period).then (compare a.count b.count))) := rfl

instance : Std.TransOrd Trigger :=
  inferInstanceAs (Std.TransCmp
    (compareLex (compareOn source) (compareLex (compareOn period) (compareOn count))))

instance : Std.LawfulEqOrd Trigger where
  eq_of_compare {a b} h := by
    rw [compare_def, Ordering.then_eq_eq, Ordering.then_eq_eq] at h
    obtain ⟨source, period, count⟩ := h
    cases a
    cases b
    simp_all

/-- Whether the samples come at no known rate. -/
def isBurst (t : Trigger) : Bool := t.period.nanos == 0

/-- Samples within a span: as many times the count as whole periods fit, and a burst once. -/
def samplesOver (t : Trigger) (span : Duration) : Count :=
  if t.isBurst then t.count
  else Count.ofNat (span.nanos / t.period.nanos) * t.count

def text (t : Trigger) : String :=
  "(" ++ t.source ++ "): " ++ t.period.secondsText ++ "s x" ++ toString t.count

end Trigger

end FlowTiming
