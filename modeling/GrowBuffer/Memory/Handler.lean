import GrowBuffer.Memory.Refusal

/-! # Handlers of refused requests

A handler decides how a computation ends whose request was refused; it has no way to
let it go on. Which handler is asked is settled by the scopes that are open: the one of
the thread first, then the one of the process, then the one that ends the process.
-/

namespace GrowBuffer.Memory

/-- The end that a handler chooses. -/
inductive Response where
  | exit (diagnostic : String)
  | unwind (message : String)
  deriving DecidableEq, Repr

structure Handler where
  name : String
  respond : Refusal → Response

namespace Handler

/-- Print the diagnostic and end the process. -/
def exiting : Handler := ⟨"default", fun r => .exit r.message⟩

/-- Unwind with the diagnostic. -/
def unwinding : Handler := ⟨"panic", fun r => .unwind r.message⟩

/-- The handlers in force where a request is refused. -/
structure Scope where
  thread : Option Handler := none
  process : Option Handler := none

def Scope.effective (s : Scope) : Handler := (s.thread.or s.process).getD exiting

end Handler
end GrowBuffer.Memory
