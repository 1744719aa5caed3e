/-!
Numbers of samples and slots. A count never wraps: sums and products past the greatest
count stop there, and `toNat_add`, `toNat_mul` say so in the natural numbers.
-/

namespace FlowTiming

structure Count where
  toNat : Nat
  toNat_le : toNat ≤ 18446744073709551615
deriving DecidableEq

namespace Count

def limit : Nat := 18446744073709551615

/-- The number itself, or the greatest count if the number is past it. -/
def ofNat (n : Nat) : Count := ⟨min n limit, Nat.min_le_right n limit⟩

def ofNat? (n : Nat) : Option Count :=
  if h : n ≤ limit then some ⟨n, h⟩ else none

instance (n : Nat) : OfNat Count n := ⟨ofNat n⟩

instance : Inhabited Count := ⟨0⟩

instance : Add Count := ⟨fun a b => ofNat (a.toNat + b.toNat)⟩

instance : Mul Count := ⟨fun a b => ofNat (a.toNat * b.toNat)⟩

instance : Max Count := ⟨fun a b => if a.toNat ≤ b.toNat then b else a⟩

instance : LE Count := ⟨fun a b => a.toNat ≤ b.toNat⟩

instance (a b : Count) : Decidable (a ≤ b) := Nat.decLe a.toNat b.toNat

instance : Ord Count := ⟨compareOn toNat⟩

instance : ToString Count := ⟨fun a => toString a.toNat⟩

theorem ext {a b : Count} (h : a.toNat = b.toNat) : a = b := by
  cases a; cases b; simp_all

theorem le_def (a b : Count) : a ≤ b ↔ a.toNat ≤ b.toNat := Iff.rfl

@[simp] theorem toNat_ofNat (n : Nat) : (ofNat n).toNat = min n limit := rfl

@[simp] theorem toNat_zero : (0 : Count).toNat = 0 := rfl

@[simp] theorem toNat_one : (1 : Count).toNat = 1 := rfl

@[simp] theorem toNat_add (a b : Count) : (a + b).toNat = min (a.toNat + b.toNat) limit := rfl

@[simp] theorem toNat_mul (a b : Count) : (a * b).toNat = min (a.toNat * b.toNat) limit := rfl

@[simp] theorem toNat_max (a b : Count) : (max a b).toNat = max a.toNat b.toNat := by
  change (if a.toNat ≤ b.toNat then b else a).toNat = _
  split <;> omega

theorem max_one {a : Count} (h : 1 ≤ a.toNat) : max a 1 = a := by
  apply ext
  rw [toNat_max, toNat_one, Nat.max_eq_left h]

theorem compare_def (a b : Count) : compare a b = compare a.toNat b.toNat := rfl

instance : Std.TransOrd Count := inferInstanceAs (Std.TransCmp (compareOn toNat))

instance : Std.LawfulEqOrd Count where
  eq_of_compare h := ext (Std.LawfulEqOrd.eq_of_compare h)

end Count

end FlowTiming
