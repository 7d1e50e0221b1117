import GrowBuffer.Buffer.Append

/-! # The spare region

The free bytes behind the content, up to the one kept for a terminator, may be written
directly. They become content when they are committed.
-/

namespace GrowBuffer.Buffer
open Memory

def spare : Work ByteArray := do
  let b ← current
  slice b.length (← readCapacity)

/-- Write into the spare region from `start` on; what would leave the region is cut off. -/
def writeSpare (start : Nat) (w : ByteArray) : Work Unit := do
  let region ← spare
  let start := min start region.size
  write ((← current).length + start) (w.extract 0 (region.size - start))

/-- Take `n` bytes of the spare region into the content. -/
def commit (n : Nat) : Work Unit := do
  let room ← readRoom
  if room < n then throw (.faulted (.overcommitted n room))
  else
    let b ← current
    if b.isInline then write (b.length + n) terminator else putLength (b.length + n)

end GrowBuffer.Buffer
