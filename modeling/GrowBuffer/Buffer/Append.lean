import GrowBuffer.Buffer.Growth

/-! # Appending and removing bytes

Bytes are appended behind the content and taken from its end. A NUL would end the text
of an inline buffer, so bytes that hold one move it to the heap first, and a single NUL
is dropped.
-/

namespace GrowBuffer.Buffer
open Memory

/-- Make sure that `extra` more bytes fit. -/
def reserve (cfg : Config) (extra : Nat) : Work Unit := do
  if (← readRoom) < extra then grow cfg extra

/-- Put one byte behind the content, where there is room for it. -/
def placeByte (c : UInt8) : Work Unit := do
  let b ← current
  if b.isInline then write b.length ⟨#[c, 0]⟩
  else
    write b.length ⟨#[c]⟩
    putLength (b.length + 1)

def appendByte (cfg : Config) (c : UInt8) : Work Unit := do
  if (← current).isInline && c == 0 then pure ()
  else
    if (← current).length ≥ (← readCapacity) then grow cfg 1
    placeByte c

/-- Put `w` and a terminator behind the content, where there is room for them. -/
def place (w : ByteArray) : Work Nat := do
  let b ← current
  write b.length (w.push 0)
  putLength (b.length + w.size)
  pure w.size

/-- Append all of `w` and terminate it. Answers how many bytes were appended. -/
def append (cfg : Config) (w : ByteArray) : Work Nat := do
  if w.size = 0 then pure 0
  else
    if (← current).isInline && Bytes.hasNul w then grow cfg w.size
    reserve cfg w.size
    place w

def appendText (cfg : Config) (s : String) : Work Nat := append cfg s.toUTF8

/-- Append texts one by one, each in the room that the one before has left. -/
def appendTexts (cfg : Config) : List String → Work Unit
  | [] => pure ()
  | s :: ss => do
    let _ ← appendText cfg s
    appendTexts cfg ss

/-- Remove the last byte and answer it. -/
def pop : Work (Option UInt8) := do
  let b ← current
  let n := b.length
  if n = 0 then pure none
  else
    let last ← slice (n - 1) n
    if b.isInline then write (n - 1) terminator else putLength (n - 1)
    pure (Bytes.toList last).head?

def clear : Work Unit := do
  if (← current).isInline then write 0 terminator else putLength 0

end GrowBuffer.Buffer
