/-! # Sizes as 64-bit words

A size is a natural number below `2 ^ 64`. Sums and products that leave this range
have no size, and whoever asked for them is told so.
-/

namespace GrowBuffer.Word

/-- One more than the largest size: two to the power of 64. -/
def limit : Nat := 0x10000000000000000

/-- The largest size. -/
def largest : Nat := limit - 1

def add? (a b : Nat) : Option Nat :=
  if a + b < limit then some (a + b) else none

def mul? (a b : Nat) : Option Nat :=
  if a * b < limit then some (a * b) else none

theorem add?_eq_some_iff {a b c : Nat} : add? a b = some c ↔ a + b < limit ∧ a + b = c := by
  simp [add?]

theorem add?_eq_none_iff {a b : Nat} : add? a b = none ↔ limit ≤ a + b := by
  simp [add?]

theorem mul?_eq_some_iff {a b c : Nat} : mul? a b = some c ↔ a * b < limit ∧ a * b = c := by
  simp [mul?]

theorem mul?_one {n : Nat} (h : n < limit) : mul? n 1 = some n :=
  mul?_eq_some_iff.mpr ⟨by rwa [Nat.mul_one], Nat.mul_one n⟩

theorem mul?_eq_none_iff {a b : Nat} : mul? a b = none ↔ limit ≤ a * b := by
  simp [mul?]

end GrowBuffer.Word
