import GrowBuffer.Memory.Block

/-! # Calls for memory

The requests that a thread can make of its memory, as data. A call that resizes takes
its block over: when it is stopped, that block is gone.
-/

namespace GrowBuffer.Memory

inductive Call where
  | allocate (count elemSize : Nat)
  | allocateBytes (size : Nat)
  | resize (block : ByteArray) (oldSize newSize : Nat)
  | resizeElements (block : ByteArray) (oldCount newCount elemSize : Nat)
  | duplicate (s : ByteArray)
  | duplicateAtMost (s : ByteArray) (n : Nat)

namespace Call

def run (cfg : Config) : Call → Action Ledger ByteArray
  | allocate count elemSize => Memory.allocate cfg count elemSize
  | allocateBytes size => Memory.allocate cfg 1 size
  | resize block oldSize newSize => Memory.resize cfg block oldSize newSize
  | resizeElements block oldCount newCount elemSize =>
    Memory.resizeElements cfg block oldCount newCount elemSize
  | duplicate s => Memory.duplicate cfg s
  | duplicateAtMost s n => Memory.duplicateAtMost cfg s n

/-- The block that a call takes over. -/
def taken? : Call → Option ByteArray
  | resize block _ _ => some block
  | resizeElements block _ _ _ => some block
  | _ => none

end Call
end GrowBuffer.Memory
