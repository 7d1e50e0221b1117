import GrowBuffer.Bytes

/-! # Reading bytes as text

Bytes are read as UTF-8. Where they are not, the longest piece that could still have
become a character is replaced as one, and reading goes on behind it. A lead byte fixes
how many bytes follow and which values the first of them may take; later ones are always
continuation bytes.
-/

namespace GrowBuffer.Text.Utf8

/-- A character of which some bytes are still to come. -/
structure Pending where
  value : Nat
  missing : Nat
  low : UInt8 := 0x80
  high : UInt8 := 0xBF
  deriving DecidableEq, Repr

/-- What a byte can begin. -/
inductive Lead where
  | complete (c : Char)
  | pending (p : Pending)
  | invalid

def lead (b : UInt8) : Lead :=
  let n := b.toNat
  if n < 0x80 then .complete (Char.ofNat n)
  else if n < 0xC2 then .invalid
  else if n < 0xE0 then .pending ⟨n - 0xC0, 1, 0x80, 0xBF⟩
  else if n = 0xE0 then .pending ⟨0, 2, 0xA0, 0xBF⟩
  else if n = 0xED then .pending ⟨0xD, 2, 0x80, 0x9F⟩
  else if n < 0xF0 then .pending ⟨n - 0xE0, 2, 0x80, 0xBF⟩
  else if n = 0xF0 then .pending ⟨0, 3, 0x90, 0xBF⟩
  else if n = 0xF4 then .pending ⟨4, 3, 0x80, 0x8F⟩
  else if n < 0xF4 then .pending ⟨n - 0xF0, 3, 0x80, 0xBF⟩
  else .invalid

def replacement : Char := '\uFFFD'

/-- The text read so far and the character that is begun. -/
structure Decoder where
  text : String := ""
  pending : Option Pending := none

namespace Decoder

/-- Begin a character with a byte. -/
def start (text : String) (b : UInt8) : Decoder :=
  match lead b with
  | .complete c => ⟨text.push c, none⟩
  | .pending p => ⟨text, some p⟩
  | .invalid => ⟨text.push replacement, none⟩

def feed (d : Decoder) (b : UInt8) : Decoder :=
  match d with
  | ⟨text, none⟩ => start text b
  | ⟨text, some p⟩ =>
    if p.low ≤ b ∧ b ≤ p.high then
      let value := p.value * 64 + (b.toNat - 0x80)
      if p.missing ≤ 1 then ⟨text.push (Char.ofNat value), none⟩
      else ⟨text, some ⟨value, p.missing - 1, 0x80, 0xBF⟩⟩
    else start (text.push replacement) b

def finish (d : Decoder) : String :=
  match d.pending with
  | none => d.text
  | some _ => d.text.push replacement

end Decoder

/-- The bytes as text, whatever they are. -/
def decodeLossy (b : ByteArray) : String := ((Bytes.toList b).foldl Decoder.feed {}).finish

end GrowBuffer.Text.Utf8
