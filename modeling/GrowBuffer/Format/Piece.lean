import GrowBuffer.Format.Pass

/-! # Pieces of formatted text

A template is a list of pieces, and every piece makes definite writes: a sign, a
padding character and the text behind them are written one by one.
-/

namespace GrowBuffer.Format

/-- On which side padding leaves the text. -/
inductive Alignment where
  | left
  | right
  | center
  deriving DecidableEq, Repr

inductive Piece where
  | text (s : String)
  | scalar (c : Char)
  | decimal (n : Int)
  | zeroPadded (n : Int) (width : Nat)
  | hexadecimal (n : Nat)
  | aligned (s : String) (width : Nat) (side : Alignment)
  /-- The number of the round in which the text is formatted. -/
  | counter
  | repeated (s : String) (count : Nat)
  /-- One text in the first pass and another in every later one; `none` gives up. -/
  | byPass (first later : Option String)
  deriving DecidableEq, Repr

abbrev Template := List Piece

/-- The sign of a number is a write of its own. -/
def signWrites (n : Int) : List String := if n < 0 then ["-"] else []

def digits (n : Int) : String := toString n.natAbs

/-- The padding in front of the text and the padding behind it. -/
def Alignment.split (side : Alignment) (padding : Nat) : Nat × Nat :=
  match side with
  | .left => (0, padding)
  | .right => (padding, 0)
  | .center => (padding / 2, padding - padding / 2)

namespace Piece

/-- What a piece writes in the first pass or in a later one. -/
def pass (first : Bool) (round : Nat) : Piece → Pass
  | text s => ⟨[s], false⟩
  | scalar c => ⟨[String.singleton c], false⟩
  | decimal n => ⟨signWrites n ++ [digits n], false⟩
  | zeroPadded n width =>
    let sign := signWrites n
    let padding := width - (sign.length + (digits n).length)
    ⟨sign ++ List.replicate padding "0" ++ [digits n], false⟩
  | hexadecimal n => ⟨[String.ofList (Nat.toDigits 16 n)], false⟩
  | aligned s width side =>
    let (before, after) := side.split (width - s.length)
    ⟨List.replicate before " " ++ [s] ++ List.replicate after " ", false⟩
  | counter => ⟨[toString round], false⟩
  | repeated s count => ⟨List.replicate count s, false⟩
  | byPass a b =>
    match if first then a else b with
    | some s => ⟨[s], false⟩
    | none => ⟨[], true⟩

end Piece

namespace Template

/-- The writes of all pieces in order, up to one that gives up. -/
def pass (t : Template) (first : Bool) (round : Nat) : Pass :=
  t.foldr (fun p rest => (p.pass first round).append rest) ⟨[], false⟩

/-- The template in one round, for a sink that measures first. -/
def formatted (t : Template) (round : Nat) : Formatted :=
  ⟨pass t true round, pass t false round⟩

end Template
end GrowBuffer.Format
