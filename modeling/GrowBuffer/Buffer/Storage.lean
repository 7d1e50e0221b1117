import GrowBuffer.Bytes

/-! # A buffer and the memory behind it

The content of a buffer is the first part of a store. The store is a small array inside
the buffer, a block on the heap, or memory that the caller has lent. A store on the heap
or on loan comes with the length of the content; the small one is terminated by a NUL
and its length is found by looking for it.
-/

namespace GrowBuffer

/-- The size of the store inside a buffer: four words. -/
def inlineSize : Nat := 32

inductive Location where
  | inline
  | heap
  | lent
  deriving DecidableEq, Repr

def Location.label : Location → String
  | inline => "Inline"
  | heap => "OnHeap"
  | lent => "OnStack"

/-- The representations; lent bytes stay with the loan. -/
inductive Storage where
  | inline (store : ByteArray)
  | heap (block : ByteArray) (length : Nat)
  | lent (length : Nat)
  deriving DecidableEq

def Storage.empty : Storage := .inline (Bytes.zeroed inlineSize)

/-- A buffer with the memory that its caller lent to it, which outlives its use. -/
structure Buffer where
  storage : Storage := .empty
  loan : ByteArray := .empty
  deriving DecidableEq

namespace Buffer

def location (b : Buffer) : Location :=
  match b.storage with
  | .inline _ => .inline
  | .heap _ _ => .heap
  | .lent _ => .lent

def isInline (b : Buffer) : Bool := b.location == .inline

def store (b : Buffer) : ByteArray :=
  match b.storage with
  | .inline store => store
  | .heap block _ => block
  | .lent _ => b.loan

/-- The length of the text in an inline store. -/
def inlineLength (store : ByteArray) : Nat := (Bytes.firstNul? store).getD (inlineSize - 1)

def length (b : Buffer) : Nat :=
  match b.storage with
  | .inline store => inlineLength store
  | .heap _ length => length
  | .lent length => length

/-- One byte of every store is kept for a terminator. -/
def capacity (b : Buffer) : Nat :=
  match b.storage with
  | .inline _ => inlineSize - 1
  | .heap block _ => block.size - 1
  | .lent _ => b.loan.size - 1

def isEmpty (b : Buffer) : Bool := b.length == 0

def content (b : Buffer) : ByteArray := b.store.extract 0 b.length

/-- The buffer with other bytes from `start` on in its store. -/
def overwrite (b : Buffer) (start : Nat) (w : ByteArray) : Buffer :=
  match b with
  | ⟨.inline store, loan⟩ => ⟨.inline (Bytes.overwrite store start w), loan⟩
  | ⟨.heap block length, loan⟩ => ⟨.heap (Bytes.overwrite block start w) length, loan⟩
  | ⟨.lent length, loan⟩ => ⟨.lent length, Bytes.overwrite loan start w⟩

/-- The buffer with another length; an inline store has none to set. -/
def setLength (b : Buffer) (n : Nat) : Buffer :=
  match b with
  | ⟨.inline store, loan⟩ => ⟨.inline store, loan⟩
  | ⟨.heap block _, loan⟩ => ⟨.heap block n, loan⟩
  | ⟨.lent _, loan⟩ => ⟨.lent n, loan⟩

/-- The empty inline buffer that keeps nothing but the loan. -/
def vacated (b : Buffer) : Buffer := ⟨.empty, b.loan⟩

/-- A buffer over lent memory; there has to be room for a terminator. -/
def over? (memory : ByteArray) : Option Buffer :=
  if 0 < memory.size then some ⟨.lent 0, Bytes.overwrite memory 0 ⟨#[0]⟩⟩ else none

/-- What every operation relies on and keeps: an inline store has its size and ends in a
NUL, any other store has room for a terminator behind the content. -/
def WellFormed (b : Buffer) : Prop :=
  match b.storage with
  | .inline store => store.size = inlineSize ∧ (Bytes.toList store)[inlineSize - 1]? = some 0
  | .heap block length => length < block.size
  | .lent length => length < b.loan.size

@[simp] theorem store_overwrite (b : Buffer) (start : Nat) (w : ByteArray) :
    (b.overwrite start w).store = Bytes.overwrite b.store start w := by
  rcases b with ⟨_ | _ | _, _⟩ <;> rfl

@[simp] theorem location_overwrite (b : Buffer) (start : Nat) (w : ByteArray) :
    (b.overwrite start w).location = b.location := by
  rcases b with ⟨_ | _ | _, _⟩ <;> rfl

@[simp] theorem store_setLength (b : Buffer) (n : Nat) : (b.setLength n).store = b.store := by
  rcases b with ⟨_ | _ | _, _⟩ <;> rfl

@[simp] theorem location_setLength (b : Buffer) (n : Nat) :
    (b.setLength n).location = b.location := by
  rcases b with ⟨_ | _ | _, _⟩ <;> rfl

end Buffer
end GrowBuffer
