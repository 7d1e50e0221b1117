import GrowBuffer.Decimal.Shortest

/-! # Writing decimals

Numbers of common size are written with a point among their digits and a digit on both
sides of it. All others are written with an exponent, which always has its sign.
-/

namespace GrowBuffer.Decimal

/-- When a decimal is written without an exponent. -/
structure Layout where
  /-- A fraction is while fewer zeros than this stand between the point and its digits. -/
  leadingZeros : Nat
  /-- A number from one on is while no more digits than this stand before the point. -/
  places : Nat

/-- No exponent from a hundred-thousandth up to ten to the sixteenth. -/
def standardLayout : Layout := ⟨5, 16⟩

/-- The exponent of a number, with its sign. -/
def exponentText (e : Int) : String :=
  (if e < 0 then "e-" else "e+") ++ toString e.natAbs

private def zeros (n : Int) : List Char := List.replicate n.toNat '0'

def Layout.write (l : Layout) (d : Decimal) : String :=
  let digits := Nat.toDigits 10 d.digits
  let point := digits.length + d.scale
  String.ofList <|
    if 0 ≤ d.scale ∧ point ≤ l.places then digits ++ zeros d.scale ++ ['.', '0']
    else if 0 < point ∧ point ≤ l.places then
      digits.take point.toNat ++ '.' :: digits.drop point.toNat
    else if -(l.leadingZeros : Int) < point ∧ point ≤ 0 then
      '0' :: '.' :: zeros (-point) ++ digits
    else
      let fraction := if digits.length = 1 then [] else '.' :: digits.drop 1
      digits.take 1 ++ fraction ++ (exponentText (point - 1)).toList

/-- The bit that marks negative doubles. -/
def signBit : Nat := 0x8000000000000000

/-- The text of a finite double. -/
def ofFloat (f : Float) : String :=
  let bits := f.toBits.toNat
  let sign := if bits < signBit then "" else "-"
  let magnitude := bits % signBit
  sign ++ if magnitude = 0 then "0.0"
    else standardLayout.write (Neighbourhood.ofBits magnitude).shortest

end GrowBuffer.Decimal
