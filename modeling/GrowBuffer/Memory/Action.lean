import GrowBuffer.Memory.Refusal

/-! # Actions that may be stopped

An action changes a state and either answers or is stopped. What it had changed before
it was stopped stays changed, so the state that a stop leaves behind is part of the
meaning of every operation.
-/

namespace GrowBuffer.Memory

/-- Mistakes of the caller; no handler is asked about them. -/
inductive Fault where
  | noTerminatorRoom
  | overcommitted (count room : Nat)
  | emptyElements
  | oldExtentOverflow
  | outOfRange
  | unterminated
  | sumOverflow
  deriving DecidableEq, Repr

def Fault.message : Fault → String
  | noTerminatorRoom => "backing storage needs room for a terminator"
  | overcommitted count room =>
    s!"committed {count} bytes into {room} bytes of spare room"
  | emptyElements => "attempt to allocate array of 0-sized elements"
  | oldExtentOverflow => "claimed previous extent is too large"
  | outOfRange => "access outside the store"
  | unterminated => "detached storage must be NUL-terminated"
  | sumOverflow => "attempt to add with overflow"

/-- Why an action was stopped. -/
inductive Stop where
  | refused (why : Refusal)
  | faulted (mistake : Fault)
  deriving DecidableEq, Repr

abbrev Action (σ : Type) := EStateM Stop σ

namespace Action

variable {σ τ α : Type}

/-- Stop unless there is a value. -/
def require (mistake : Fault) : Option α → Action σ α
  | some a => pure a
  | none => throw (.faulted mistake)

/-- Stop unless the answer is a success. -/
def grant : Except Refusal α → Action σ α
  | .ok a => pure a
  | .error why => throw (.refused why)

/-- Run an action on a part of a larger state. -/
def zoom (get : σ → τ) (set : τ → σ → σ) (act : Action τ α) : Action σ α := fun s =>
  match act (get s) with
  | .ok a t => .ok a (set t s)
  | .error e t => .error e (set t s)

end Action
end GrowBuffer.Memory
