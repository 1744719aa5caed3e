import FlowTiming.Count

/-!
Spans of time in whole nanoseconds. The greatest span is one nanosecond short of
2^64 seconds; a sum past it is refused and a product stops there.
-/

namespace FlowTiming

structure Duration where
  nanos : Nat
  nanos_le : nanos ≤ 18446744073709551615999999999
deriving DecidableEq

namespace Duration

def limit : Nat := 18446744073709551615999999999

def zero : Duration := ⟨0, by decide⟩

instance : Inhabited Duration := ⟨zero⟩

def greatest : Duration := ⟨limit, Nat.le_refl _⟩

def ofNanos? (n : Nat) : Option Duration :=
  if h : n ≤ limit then some ⟨n, h⟩ else none

/-- The sum, unless it is past the greatest span. -/
def add? (a b : Duration) : Option Duration := ofNanos? (a.nanos + b.nanos)

/-- The span taken `count` times, at most 2^32 - 1 times and at most the greatest span. -/
def scaled (period : Duration) (count : Count) : Duration :=
  (ofNanos? (period.nanos * min count.toNat 4294967295)).getD greatest

def wholeSeconds (d : Duration) : Nat := d.nanos / 1000000000

def subsecond (d : Duration) : Nat := d.nanos % 1000000000

instance : Ord Duration := ⟨compareOn nanos⟩

instance : LE Duration := ⟨fun a b => a.nanos ≤ b.nanos⟩

instance (a b : Duration) : Decidable (a ≤ b) := Nat.decLe a.nanos b.nanos

instance : Min Duration := ⟨fun a b => if a.nanos ≤ b.nanos then a else b⟩

theorem ext {a b : Duration} (h : a.nanos = b.nanos) : a = b := by
  cases a; cases b; simp_all

theorem le_def (a b : Duration) : a ≤ b ↔ a.nanos ≤ b.nanos := Iff.rfl

theorem ofNanos?_eq_some_iff {n : Nat} {d : Duration} : ofNanos? n = some d ↔ d.nanos = n := by
  unfold ofNanos?
  split
  · exact ⟨fun h => by cases h; rfl, fun h => congrArg some (ext h.symm)⟩
  · refine ⟨fun h => by simp at h, fun h => ?_⟩
    have := d.nanos_le
    unfold limit at *
    omega

theorem ofNanos?_eq_none_iff {n : Nat} : ofNanos? n = none ↔ limit < n := by
  unfold ofNanos?
  split <;> simp <;> omega

theorem compare_def (a b : Duration) : compare a b = compare a.nanos b.nanos := rfl

instance : Std.TransOrd Duration := inferInstanceAs (Std.TransCmp (compareOn nanos))

instance : Std.LawfulEqOrd Duration where
  eq_of_compare h := ext (Std.LawfulEqOrd.eq_of_compare h)

/-- The fraction in `digits` places without its trailing zeros, after a point; empty for zero. -/
def fractionText (digits part : Nat) : String :=
  let padded := (List.replicate (digits - (Nat.toDigits 10 part).length) '0') ++ Nat.toDigits 10 part
  let kept := (padded.reverse.dropWhile (· == '0')).reverse
  if kept.isEmpty then "" else "." ++ String.ofList kept

/-- The span in the greatest of `s`, `ms`, `µs`, `ns` that it fills at least once. -/
def unitText (d : Duration) : String :=
  if 1000000000 ≤ d.nanos then
    toString d.wholeSeconds ++ fractionText 9 d.subsecond ++ "s"
  else if 1000000 ≤ d.nanos then
    toString (d.nanos / 1000000) ++ fractionText 6 (d.nanos % 1000000) ++ "ms"
  else if 1000 ≤ d.nanos then
    toString (d.nanos / 1000) ++ fractionText 3 (d.nanos % 1000) ++ "µs"
  else
    toString d.nanos ++ "ns"

end Duration

end FlowTiming
