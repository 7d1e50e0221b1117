import GrowBuffer.Buffer.Storage
import GrowBuffer.Memory.Ledger
import GrowBuffer.Memory.Action

/-! # Checked access to the store

Operations on a buffer reach its store through these actions only. Each of them checks
its bounds and stops where they are not kept, so that "no operation leaves the store" is
a statement about outcomes.
-/

namespace GrowBuffer
open Memory

/-- A buffer and the ledger of the thread that works on it. -/
structure State where
  buffer : Buffer := {}
  ledger : Ledger := {}
  deriving DecidableEq

namespace Buffer

/-- Work on a buffer: what it changes stays changed when it is stopped. -/
abbrev Work (α : Type) := Action State α

/-- The byte that ends a text. -/
def terminator : ByteArray := ⟨#[0]⟩

def current : Work Buffer := fun s => .ok s.buffer s

def onLedger {α : Type} (act : Action Ledger α) : Work α :=
  Action.zoom State.ledger (fun l s => { s with ledger := l }) act

/-- The capacity, which only a store with room for a terminator has. -/
def readCapacity : Work Nat := fun s =>
  if 0 < s.buffer.store.size then .ok s.buffer.capacity s else .error (.faulted .outOfRange) s

/-- The free bytes in front of the one kept for a terminator. -/
def readRoom : Work Nat := fun s =>
  if 0 < s.buffer.store.size ∧ s.buffer.length ≤ s.buffer.capacity then
    .ok (s.buffer.capacity - s.buffer.length) s
  else .error (.faulted .outOfRange) s

def slice (start stop : Nat) : Work ByteArray := fun s =>
  if start ≤ stop ∧ stop ≤ s.buffer.store.size then .ok (s.buffer.store.extract start stop) s
  else .error (.faulted .outOfRange) s

def write (start : Nat) (w : ByteArray) : Work Unit := fun s =>
  if start + w.size ≤ s.buffer.store.size then
    .ok () { s with buffer := s.buffer.overwrite start w }
  else .error (.faulted .outOfRange) s

def putLength (n : Nat) : Work Unit := fun s =>
  .ok () { s with buffer := s.buffer.setLength n }

/-- Give the storage up for the empty inline one. -/
def vacate : Work Unit := fun s => .ok () { s with buffer := s.buffer.vacated }

/-- Move the buffer onto a block of the heap. -/
def settle (block : ByteArray) (length : Nat) : Work Unit := fun s =>
  .ok () { s with buffer := { s.buffer with storage := .heap block length } }

end Buffer
end GrowBuffer
