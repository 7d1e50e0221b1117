import GrowBuffer.Buffer.Op
import GrowBuffer.Memory.Handler

/-! # What a step of a script answers

One type for all scripts. A step that was stopped has an answer too, unless the handler
ends the whole process.
-/

namespace GrowBuffer.Script
open Memory

inductive Reply where
  | nothing
  | answer (a : Buffer.Answer)
  | region (size : Nat) (used : ByteArray)
  | text (s : String)
  | equality (same sameHash : Bool)
  | config (cfg : Config)
  | ledger (l : Ledger)
  | since (l : Ledger) (calls : Nat)
  | size (n : Nat)
  | handler (name : Option String)
  | word (s : String)
  | unwound (message : String)
  | rounds (last : Reply) (failures : Nat)

namespace Reply

/-- Whether a step failed in a way that its caller notices. -/
def isFailure : Reply → Bool
  | answer (.printed none) => true
  | answer (.streamed false) => true
  | unwound _ => true
  | _ => false

/-- The figures since an earlier ledger; counting the calls may go beyond 64 bits. -/
def ofSince (l : Ledger) : Reply :=
  match l.calls? with
  | some calls => since l calls
  | none => unwound Fault.sumOverflow.message

end Reply

/-- The end of a stopped step: the handler decides about refusals, mistakes unwind. -/
def conclude (h : Handler) : Stop → Response
  | .refused why => h.respond why
  | .faulted mistake => .unwind mistake.message

end GrowBuffer.Script
