import GrowBuffer.Text.Record

/-! # Why memory is refused

Four causes, kept apart so that a handler can tell them from one another: no memory is
left, the configured ceiling is lower, or the size itself cannot be computed.
-/

namespace GrowBuffer.Memory

inductive Refusal where
  | exhausted (bytes : Nat)
  | aboveCeiling (bytes ceiling : Nat)
  | freshOverflow (count elemSize : Nat)
  | resizeOverflow (count elemSize : Nat)
  deriving DecidableEq, Repr

namespace Refusal

/-- The diagnostic for people. -/
def message : Refusal → String
  | exhausted bytes => s!"out of memory (requested {bytes} bytes)"
  | aboveCeiling bytes ceiling =>
    s!"out of memory (requested {bytes} bytes, ceiling {ceiling})"
  | freshOverflow count elemSize =>
    s!"integer overflow in dynamic memory allocation ({count} x {elemSize} bytes)"
  | resizeOverflow count elemSize =>
    s!"integer overflow in dynamic memory reallocation ({count} x {elemSize} bytes)"

def record : Refusal → Text.Record
  | exhausted bytes => ⟨"OutOfMemory", [("bytes", toString bytes)]⟩
  | aboveCeiling bytes ceiling =>
    ⟨"CeilingExceeded", [("bytes", toString bytes), ("ceiling", toString ceiling)]⟩
  | freshOverflow count elemSize =>
    ⟨"Overflow", [("count", toString count), ("elem_size", toString elemSize)]⟩
  | resizeOverflow count elemSize =>
    ⟨"ReallocOverflow", [("count", toString count), ("elem_size", toString elemSize)]⟩

/-- The cause and its figures, for logs. -/
def details (r : Refusal) : String := r.record.oneLine

end Refusal
end GrowBuffer.Memory
