/-! # Byte strings

Zeroed memory, overwriting in place, and the search for the first NUL. An overwrite is
the bytes before the place, the new bytes, and the bytes behind them; resizing keeps
what fits and continues with zeros.
-/

namespace GrowBuffer.Bytes

/-- The bytes in order. -/
def toList (b : ByteArray) : List UInt8 := b.data.toList

@[simp] theorem length_toList (b : ByteArray) : (toList b).length = b.size := by
  simp [toList]

@[simp] theorem toList_append (a b : ByteArray) : toList (a ++ b) = toList a ++ toList b := by
  simp [toList]

@[simp] theorem toList_push (b : ByteArray) (c : UInt8) : toList (b.push c) = toList b ++ [c] := by
  simp [toList]

theorem ext_toList {a b : ByteArray} (h : toList a = toList b) : a = b :=
  ByteArray.ext (Array.ext' h)

/-- Equality is decided on the bytes. -/
instance (priority := 2000) decidableEq : DecidableEq ByteArray := ByteArray.instDecidableEq

def zeroed (n : Nat) : ByteArray := ⟨Array.replicate n 0⟩

@[simp] theorem toList_zeroed (n : Nat) : toList (zeroed n) = List.replicate n 0 := by
  simp [toList, zeroed]

@[simp] theorem size_zeroed (n : Nat) : (zeroed n).size = n := by
  simp [← length_toList]

/-- Replace the bytes of `b` from `start` on by `w`; `w` has to end inside `b`. -/
def overwrite (b : ByteArray) (start : Nat) (w : ByteArray) : ByteArray :=
  w.copySlice 0 b start w.size

theorem toList_overwrite (b : ByteArray) (start : Nat) (w : ByteArray) :
    toList (overwrite b start w) =
      (toList b).take start ++ toList w ++ (toList b).drop (start + w.size) := by
  simp [toList, overwrite, ByteArray.copySlice_eq_append, List.take_of_length_le]

theorem size_overwrite {b : ByteArray} {start : Nat} {w : ByteArray}
    (h : start + w.size ≤ b.size) : (overwrite b start w).size = b.size := by
  rw [← length_toList, toList_overwrite]
  simp
  omega

/-- The bytes from `start` up to but not including `stop`. -/
theorem toList_extract (b : ByteArray) (start stop : Nat) :
    toList (b.extract start stop) = ((toList b).take stop).drop start := by
  simp [toList, List.drop_take]

/-- Exactly `n` bytes: those of `b` as far as they go, then zeros. -/
def resize (b : ByteArray) (n : Nat) : ByteArray :=
  b.extract 0 n ++ zeroed (n - b.size)

theorem toList_resize (b : ByteArray) (n : Nat) :
    toList (resize b n) = (toList b).take n ++ List.replicate (n - b.size) 0 := by
  simp [resize, toList_extract]

@[simp] theorem size_resize (b : ByteArray) (n : Nat) : (resize b n).size = n := by
  rw [← length_toList, toList_resize]
  simp
  omega

/-- Zeros from `start` on. -/
def zeroFrom (b : ByteArray) (start : Nat) : ByteArray :=
  overwrite b start (zeroed (b.size - start))

theorem toList_zeroFrom (b : ByteArray) (start : Nat) :
    toList (zeroFrom b start) = (toList b).take start ++ List.replicate (b.size - start) 0 := by
  have h : (toList b).length ≤ start + (b.size - start) := by simp; omega
  simp [zeroFrom, toList_overwrite, List.drop_eq_nil_of_le h]

/-- Where the first NUL stands. -/
def firstNul? (b : ByteArray) : Option Nat := (toList b).findIdx? (· == 0)

def hasNul (b : ByteArray) : Bool := (toList b).contains 0

/-- The bytes up to the first NUL. -/
def untilNul (b : ByteArray) : ByteArray := b.extract 0 ((firstNul? b).getD b.size)

theorem toList_untilNul (b : ByteArray) :
    toList (untilNul b) = (toList b).takeWhile (· != 0) := by
  unfold untilNul firstNul?
  rw [toList_extract, List.drop_zero, ← length_toList]
  generalize toList b = l
  induction l with
  | nil => rfl
  | cons x l ih =>
    by_cases h : x = 0
    · simp [h, List.findIdx?_cons]
    · simp only [List.findIdx?_cons, beq_iff_eq, h, if_false, List.takeWhile_cons, bne_iff_ne,
        ne_eq, not_false_eq_true, if_true, ← ih]
      cases l.findIdx? (· == 0) <;> simp

end GrowBuffer.Bytes
