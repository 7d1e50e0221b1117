import GrowBuffer.Bytes
import GrowBuffer.Config
import GrowBuffer.Memory.Action
import GrowBuffer.Memory.Ledger
import GrowBuffer.Word

/-! # Blocks of zeroed memory

A block is a byte string of exactly the requested size, and every byte that comes into
being with it is zero. A request is refused when its size cannot be computed, when the
ceiling is lower, or when memory is exhausted, in this order; a refused request leaves
the ledger as it was.
-/

namespace GrowBuffer.Memory

/-- Memory is exhausted by a request of this size, two to the power of 47. -/
def addressable : Nat := 0x800000000000

/-- Whether a request of this size is granted. -/
def approve (cfg : Config) (bytes : Nat) : Except Refusal Unit :=
  if cfg.permits bytes then
    if bytes < addressable then .ok () else .error (.exhausted bytes)
  else .error (.aboveCeiling bytes (cfg.ceiling.getD Word.largest))

/-- A fresh block for `count` elements. An empty block costs nothing and is not entered. -/
def allocate (cfg : Config) (count elemSize : Nat) : Action Ledger ByteArray := do
  match Word.mul? count elemSize with
  | none => throw (.refused (.freshOverflow count elemSize))
  | some 0 => pure .empty
  | some bytes =>
    Action.grant (approve cfg bytes)
    modify (·.enterFresh bytes)
    pure (Bytes.zeroed bytes)

/-- The block under its new size: what was vouched for is kept, the rest is zero. -/
def resized (block : ByteArray) (oldSize newSize : Nat) : ByteArray :=
  let fitted := Bytes.resize block newSize
  if oldSize < newSize then Bytes.zeroFrom fitted oldSize else fitted

/-- Change the size of a block of which the caller vouches for the first `oldSize` bytes.
Only a block that has to become longer needs the consent of `approve`. -/
def resize (cfg : Config) (block : ByteArray) (oldSize newSize : Nat) :
    Action Ledger ByteArray := do
  if newSize = 0 then
    modify (·.enterResize oldSize 0)
    pure .empty
  else
    if block.size < newSize then Action.grant (approve cfg newSize)
    modify (·.enterResize oldSize newSize)
    pure (resized block oldSize newSize)

/-- The same, with both sizes counted in elements. -/
def resizeElements (cfg : Config) (block : ByteArray) (oldCount newCount elemSize : Nat) :
    Action Ledger ByteArray := do
  if elemSize = 0 then throw (.faulted .emptyElements)
  else
    match Word.mul? oldCount elemSize with
    | none => throw (.faulted .oldExtentOverflow)
    | some oldSize =>
      match Word.mul? newCount elemSize with
      | none => throw (.refused (.resizeOverflow newCount elemSize))
      | some newSize => resize cfg block oldSize newSize

/-- A fresh block of `extent` bytes that begins with `content`. -/
def allocateCopy (cfg : Config) (content : ByteArray) (extent : Nat) :
    Action Ledger ByteArray := do
  let block ← allocate cfg extent 1
  if content.size ≤ block.size then pure (Bytes.overwrite block 0 content)
  else throw (.faulted .outOfRange)

/-- A fresh copy of at most `n` bytes of `s`, cut at the first NUL and terminated by one. -/
def duplicateAtMost (cfg : Config) (s : ByteArray) (n : Nat) : Action Ledger ByteArray := do
  let text := Bytes.untilNul (s.extract 0 n)
  match Word.add? text.size 1 with
  | none => throw (.refused (.freshOverflow text.size 1))
  | some extent => allocateCopy cfg text extent

def duplicate (cfg : Config) (s : ByteArray) : Action Ledger ByteArray :=
  duplicateAtMost cfg s s.size

end GrowBuffer.Memory
