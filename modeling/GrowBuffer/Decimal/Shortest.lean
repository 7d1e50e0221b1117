/-! # Shortest decimals

A double is written with as few digits as will be read back as the same double; of
several such decimals the one nearest to it is taken. All comparisons are exact: values
are counted in units of a quarter of the smallest positive double.
-/

namespace GrowBuffer

/-- The number `digits * 10 ^ scale`. -/
structure Decimal where
  digits : Nat
  scale : Int
  deriving DecidableEq, Repr

namespace Decimal

/-- How many units make one. -/
def unitsPerOne : Nat := Nat.pow 2 1076

/-- A positive double with the numbers next to it that are read as it, in units. The
bounds belong to them only if the interval is closed. -/
structure Neighbourhood where
  value : Nat
  low : Nat
  high : Nat
  closed : Bool

/-- The bit of a mantissa that its encoding leaves out. -/
def implicitBit : Nat := 0x10000000000000

/-- From the encoding of a finite double, whose sign is ignored. Below a power of two
doubles lie twice as close together as above it. -/
def Neighbourhood.ofBits (bits : Nat) : Neighbourhood :=
  let fraction := bits % implicitBit
  let biased := bits / implicitBit % 0x800
  let mantissa := if biased = 0 then fraction else implicitBit + fraction
  let quarter := Nat.pow 2 (biased - 1)
  let below := if fraction = 0 ∧ 1 < biased then 1 else 2
  { value := 4 * mantissa * quarter
    low := (4 * mantissa - below) * quarter
    high := (4 * mantissa + 2) * quarter
    closed := mantissa % 2 == 0 }

namespace Neighbourhood

/-- Whether `digits * spacing` is read as the double, after all figures of the
neighbourhood were multiplied by `factor`. -/
def holds (v : Neighbourhood) (factor spacing digits : Nat) : Bool :=
  let x := digits * spacing
  let low := v.low * factor
  let high := v.high * factor
  if v.closed then decide (low ≤ x ∧ x ≤ high) else decide (low < x ∧ x < high)

/-- The decimal of this scale that is read as the double and lies nearest to it. Of two
equally near ones the last digit of the chosen one is even. -/
def atScale (v : Neighbourhood) (scale : Int) : Option Decimal :=
  let factor := Nat.pow 10 (-scale).toNat
  let spacing := Nat.pow 10 scale.toNat * unitsPerOne
  let value := v.value * factor
  let lower := value / spacing
  let upper := lower + 1
  match v.holds factor spacing lower, v.holds factor spacing upper with
  | false, false => none
  | true, false => some ⟨lower, scale⟩
  | false, true => some ⟨upper, scale⟩
  | true, true =>
    let up := value - lower * spacing
    let down := upper * spacing - value
    if up < down ∨ (up = down ∧ lower % 2 = 0) then some ⟨lower, scale⟩
    else some ⟨upper, scale⟩

/-- The double itself; every double is a decimal. -/
def exact (v : Neighbourhood) : Decimal := ⟨v.value * Nat.pow 5 1076, -1076⟩

/-- A scale at which one is more than the value. -/
def topScale (v : Neighbourhood) : Int :=
  ((toString v.value).length : Int) - (toString unitsPerOne).length + 1

/-- The first scale from the top that has a decimal gives the shortest one; seventeen
digits always suffice. -/
def shortest (v : Neighbourhood) : Decimal :=
  ((List.range 20).findSome? fun (k : Nat) => v.atScale (v.topScale - k)).getD v.exact

end Neighbourhood
end Decimal
end GrowBuffer
