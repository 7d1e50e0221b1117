import GrowBuffer.Buffer.Append
import GrowBuffer.Buffer.Detached

/-! # Handing the content out

`terminate` shows the content with a terminator behind it, `rewind` shows it and starts
over, and `detach` gives it away and leaves a new buffer. A block on the heap is given
away as it is; any other content is copied.
-/

namespace GrowBuffer.Buffer
open Memory

/-- The content and its terminator. -/
def terminate : Work ByteArray := do
  let b ← current
  if b.isInline then pure () else write b.length terminator
  slice 0 (b.length + 1)

/-- Show the content and start over in the same store. An inline store has to keep the shown
content intact, so it moves it one byte on and puts the empty text in front. -/
def restart : Work ByteArray := do
  let b ← current
  if b.isInline then
    let shown ← slice 0 (b.length + 1)
    write 1 shown
    write 0 terminator
    slice 1 (b.length + 1)
  else
    putLength 0
    write b.length terminator
    slice 0 b.length

/-- The content; the buffer is empty afterwards. A full inline store has no byte to move
its content on to, so it is left for the heap. -/
def rewind (cfg : Config) : Work ByteArray := do
  if (← current).isInline && (← current).length ≥ (← readCapacity) then grow cfg 1
  restart

/-- The terminated bytes of the content, in a block of their own. -/
def detachBytes (cfg : Config) : Work ByteArray := do
  let b ← current
  match b.storage with
  | .heap _ length =>
    write length terminator
    let bytes ← slice 0 (length + 1)
    vacate
    pure bytes
  | _ =>
    let content ← slice 0 b.length
    vacate
    onLedger (allocateCopy cfg content (content.size + 1))

def detach (cfg : Config) : Work Detached := do
  let bytes ← detachBytes cfg
  Action.require .unterminated (Detached.ofTerminated? bytes)

end GrowBuffer.Buffer
