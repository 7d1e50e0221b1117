import GrowBuffer.Buffer.Append
import GrowBuffer.Format.Measure
import GrowBuffer.Format.Window

/-! # Formatted output

`print` measures the text, makes room for it and a terminator, and then formats it once
more, straight behind the content. `stream` formats once and appends every write as it
comes. When either pass of `print` gives up, or the second one outgrows the first, the
content is what it was.
-/

namespace GrowBuffer.Buffer
open Format Memory

/-- The measure of a pass, or nothing when it gives up. -/
def measure (p : Pass) : Work (Option Measure) :=
  match Measure.overflow? {} p.writes with
  | some count => throw (.refused (.freshOverflow count 1))
  | none => pure (Measure.of? p)

/-- Make sure of `size` free bytes by asking for those that are missing. -/
def ensure (cfg : Config) (size : Nat) : Work Unit := do
  let room ← readRoom
  if room < size then grow cfg (size - room)

/-- Make room for a measured text and a terminator. -/
def makeRoom (cfg : Config) (m : Measure) : Work Unit := do
  if (← current).isInline && m.hasNul then grow cfg m.length
  ensure cfg (min (m.length + 1) Word.largest)

/-- Run a pass on the `length` bytes behind the content. What it wrote becomes content only
when it comes to its end. -/
def fill (p : Pass) (length : Nat) : Work (Option Nat) := do
  let b ← current
  let region ← slice b.length (b.length + length)
  let after := Window.run ⟨region, 0⟩ p
  write b.length after.1.bytes
  if after.2 then
    write (b.length + after.1.filled) terminator
    putLength (b.length + after.1.filled)
    pure (some after.1.filled)
  else
    write b.length terminator
    pure none

/-- Answers how many bytes were written, or nothing when formatting failed. -/
def print (cfg : Config) (f : Formatted) : Work (Option Nat) := do
  match ← measure f.measured with
  | none => pure none
  | some m =>
    makeRoom cfg m
    fill f.written m.length

/-- Answers whether the formatter came to its end. -/
def stream (cfg : Config) (p : Pass) : Work Bool := do
  appendTexts cfg p.writes
  pure !p.givesUp

end GrowBuffer.Buffer
