import GrowBuffer.Decimal.Layout
import GrowBuffer.Json.Numeral
import GrowBuffer.Word

/-! # What numerals are worth

A numeral without fraction and exponent is an integer if it fits 64 bits; every other
one is a double. Digits are taken up as long as what they write is a size; those that are
not taken up count by their place alone.
-/

namespace GrowBuffer.Json

inductive Number where
  | natural (n : Nat)
  /-- The negative of a positive number. -/
  | negative (n : Nat)
  | floating (f : Float)

def digitValue (c : Char) : Nat := c.toNat - '0'.toNat

/-- The number that digits write behind those of `n`. -/
def decimalFrom (n : Nat) (ds : List Char) : Nat := ds.foldl (fun n c => 10 * n + digitValue c) n

/-- Take up digits behind those of `n` as long as they write a size; how many were taken
up comes second. -/
def takeUp (n : Nat) : List Char → Nat × Nat
  | [] => (n, 0)
  | c :: cs =>
    if 10 * n + digitValue c < Word.limit then
      let (m, k) := takeUp (10 * n + digitValue c) cs
      (m, k + 1)
    else (n, 0)

/-- When the last of the digits is taken up, the number is that of all digits. -/
theorem takeUp_of_lt {n : Nat} {ds : List Char} (h : decimalFrom n ds < Word.limit) :
    takeUp n ds = (decimalFrom n ds, ds.length) := by
  induction ds generalizing n with
  | nil => rfl
  | cons c cs ih =>
    have hle : ∀ (ds : List Char) (n : Nat), n ≤ decimalFrom n ds := by
      intro ds
      induction ds with
      | nil => exact fun n => Nat.le_refl n
      | cons c cs ih =>
        intro n
        have := ih (10 * n + digitValue c)
        simp only [decimalFrom, List.foldl_cons] at this ⊢
        omega
    have hc : 10 * n + digitValue c < Word.limit := Nat.lt_of_le_of_lt (hle cs _) h
    simp only [takeUp, hc, if_true]
    rw [ih h]
    rfl

def Exponent.value (e : Exponent) : Int :=
  let n : Nat := decimalFrom 0 e.digits
  if e.negative then -n else n

/-- The powers of ten that are doubles reach up to this one. -/
def largestPower : Nat := 308

def powerOfTen (k : Nat) : Float := Float.ofScientific 1 false k

/-- `f * 10 ^ e`, by one multiplication or division after divisions by the largest power
while the exponent is out of its reach. -/
def scaled (f : Float) (e : Int) : Except Problem Float :=
  if 0 ≤ e then
    if e ≤ largestPower then
      let g := f * powerOfTen e.toNat
      if g.isInf then .error .numberTooLarge else .ok g
    else if f == 0 then .ok f
    else .error .numberTooLarge
  else if -largestPower ≤ e then .ok (f / powerOfTen (-e).toNat)
  else if f == 0 then .ok f
  else scaled (f / powerOfTen largestPower) (e + largestPower)
termination_by e.natAbs
decreasing_by simp only [largestPower] at *; omega

/-- The largest magnitude of a negative integer, two to the power of 63. -/
def largestNegative : Nat := 0x8000000000000000

def signed (negative : Bool) (f : Float) : Float := if negative then -f else f

/-- The worth of a numeral. Zero with a sign is no integer. -/
def Numeral.number (l : Numeral) : Except Problem Number :=
  let (whole, taken) := takeUp 0 l.whole
  let dropped := l.whole.length - taken
  let (significand, places) := takeUp whole (l.fraction.getD [])
  if dropped = 0 ∧ l.fraction.isNone ∧ l.exponent.isNone then
    if !l.negative then .ok (.natural significand)
    else if 0 < significand ∧ significand ≤ largestNegative then .ok (.negative significand)
    else .ok (.floating (-significand.toUInt64.toFloat))
  else
    let exponent := (l.exponent.map (·.value)).getD 0
    (scaled significand.toUInt64.toFloat ((dropped : Int) - places + exponent)).map fun f =>
      .floating (signed l.negative f)

/-- The number that begins here, and what stands behind it. -/
def number (s : Source) : Except Problem (Number × Source) :=
  match numeral .endInValue s with
  | .error p => .error p
  | .ok (l, rest) => l.number.map fun n => (n, rest)

theorem length_lt_of_number {s rest : Source} {n : Number} (h : number s = .ok (n, rest)) :
    rest.length < s.length := by
  unfold number at h
  split at h
  · simp at h
  · next l r hl =>
    have := length_lt_of_numeral hl
    cases hn : l.number with
    | error p => simp [hn, Except.map] at h
    | ok m =>
      simp only [hn, Except.map, Except.ok.injEq, Prod.mk.injEq] at h
      rwa [← h.2]

end GrowBuffer.Json
