import GrowBuffer.Buffer.Access
import GrowBuffer.Memory.Block

/-! # Growth

A buffer that runs out of room moves to a block on the heap, whatever its store was
before. The new capacity is the largest of twice the old one, the configured minimum and
what is needed. The old storage is given up before memory is asked for, so a refused
request leaves an empty inline buffer; a capacity that cannot be computed leaves
everything as it was.
-/

namespace GrowBuffer.Buffer
open Memory

def targetCapacity (cfg : Config) (capacity extra : Nat) : Except Refusal Nat :=
  match Word.add? capacity extra with
  | none => .error (.resizeOverflow capacity 1)
  | some needed =>
    let doubled := (Word.mul? capacity 2).getD needed
    let target := max (max doubled cfg.minGrowth) needed
    match Word.add? target 1 with
    | none => .error (.resizeOverflow target 1)
    | some _ => .ok target

/-- Bring a heap block of `extent` bytes to a size of `extent'`. -/
def enlarge (cfg : Config) (block : ByteArray) (length extent extent' : Nat) : Work Unit := do
  vacate
  let block ← onLedger (resizeElements cfg block extent extent' 1)
  settle block length

/-- Copy the content to a fresh heap block of `extent` bytes. -/
def migrate (cfg : Config) (length extent : Nat) : Work Unit := do
  let content ← slice 0 length
  vacate
  let block ← onLedger (allocateCopy cfg content extent)
  settle block length

/-- Make room for at least `extra` more bytes behind the present capacity. -/
def grow (cfg : Config) (extra : Nat) : Work Unit := do
  let b ← current
  let capacity ← readCapacity
  let target ← Action.grant (targetCapacity cfg capacity extra)
  match b.storage with
  | .heap block length => enlarge cfg block length (capacity + 1) (target + 1)
  | _ => migrate cfg b.length (target + 1)

end GrowBuffer.Buffer
