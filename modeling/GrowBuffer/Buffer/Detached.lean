import GrowBuffer.Bytes

/-! # Detached content

Bytes that were detached from a buffer: the content and the one terminator behind it.
-/

namespace GrowBuffer

structure Detached where
  terminated : ByteArray
  deriving DecidableEq, Hashable

namespace Detached

def length (d : Detached) : Nat := d.terminated.size - 1

def isEmpty (d : Detached) : Bool := d.length == 0

def content (d : Detached) : ByteArray := d.terminated.extract 0 d.length

/-- Take over bytes that end in a terminator. -/
def ofTerminated? (bytes : ByteArray) : Option Detached :=
  if (Bytes.toList bytes).getLast? = some 0 then some ⟨bytes⟩ else none

/-- The content, if no NUL inside it would cut it short. -/
def cString? (d : Detached) : Option ByteArray :=
  if Bytes.hasNul d.content then none else some d.content

end Detached
end GrowBuffer
