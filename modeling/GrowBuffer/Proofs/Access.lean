import GrowBuffer.Buffer.Access
import GrowBuffer.Proofs.Blocks
import GrowBuffer.Proofs.Layout

/-! # Access that stays inside the store

On a well-formed buffer the checked accesses answer, as long as their bounds are kept. A
step on such a buffer has three ways to end: it is finished, it is refused before it has
changed anything, or it has given its storage up when memory is refused.
-/

namespace GrowBuffer.Buffer
open Memory

variable {s : State}

theorem current_run (s : State) : current s = .ok s.buffer s := rfl

theorem putLength_run (n : Nat) (s : State) :
    putLength n s = .ok () { s with buffer := s.buffer.setLength n } := rfl

theorem vacate_run (s : State) : vacate s = .ok () { s with buffer := s.buffer.vacated } := rfl

theorem settle_run (block : ByteArray) (n : Nat) (s : State) :
    settle block n s = .ok () { s with buffer := ⟨.heap block n, s.buffer.loan⟩ } := rfl

theorem readCapacity_run (h : s.buffer.WellFormed) :
    readCapacity s = .ok s.buffer.capacity s := by
  rw [readCapacity, if_pos h.store_pos]

theorem readRoom_run (h : s.buffer.WellFormed) : readRoom s = .ok s.buffer.room s := by
  rw [readRoom, if_pos ⟨h.store_pos, h.length_le⟩]
  rfl

theorem slice_run {start stop : Nat} (h : start ≤ stop) (h' : stop ≤ s.buffer.store.size) :
    slice start stop s = .ok (s.buffer.store.extract start stop) s := by
  rw [slice, if_pos ⟨h, h'⟩]

theorem write_run {start : Nat} {w : ByteArray} (h : start + w.size ≤ s.buffer.store.size) :
    write start w s = .ok () { s with buffer := s.buffer.overwrite start w } := by
  rw [write, if_pos h]

theorem onLedger_ok {α : Type} {act : Action Ledger α} {a : α} {l : Ledger}
    (h : act s.ledger = .ok a l) : onLedger act s = .ok a { s with ledger := l } := by
  unfold onLedger Action.zoom
  rw [h]

theorem onLedger_error {α : Type} {act : Action Ledger α} {e : Stop} {l : Ledger}
    (h : act s.ledger = .error e l) : onLedger act s = .error e { s with ledger := l } := by
  unfold onLedger Action.zoom
  rw [h]

/-- How a step ends: done, or refused before or after its storage was given up. -/
inductive Ends (s : State) {α : Type} (done : α → State → Prop) :
    EStateM.Result Stop State α → Prop
  | finished {a : α} {t : State} (h : done a t) : Ends s done (.ok a t)
  | uncountable {why : Refusal} (h : why.isOverflow = true) :
    Ends s done (.error (.refused why) s)
  | unsupplied {why : Refusal} (h : why.isOverflow = false) (l : Ledger) :
    Ends s done (.error (.refused why) ⟨s.buffer.vacated, l⟩)

namespace Ends

variable {α β : Type} {done : α → State → Prop} {done' : β → State → Prop}

theorem mono {done'' : α → State → Prop} {r : EStateM.Result Stop State α} (h : Ends s done r)
    (hd : ∀ a t, done a t → done'' a t) : Ends s done'' r := by
  cases h with
  | finished h => exact .finished (hd _ _ h)
  | uncountable h => exact .uncountable h
  | unsupplied h l => exact .unsupplied h l

theorem of_ok {r : EStateM.Result Stop State α} {a : α} {t : State} (h : Ends s done r)
    (hr : r = .ok a t) : done a t := by
  subst hr
  cases h with
  | finished hd => exact hd

/-- What follows a step that may be refused has to be done without a further refusal. -/
theorem bind {x : Work α} {f : α → Work β} (h : Ends s done (x s))
    (hf : ∀ a t, done a t → ∃ b u, f a t = .ok b u ∧ done' b u) : Ends s done' ((x >>= f) s) := by
  generalize hr : x s = r at h
  cases h with
  | @finished a t h =>
    obtain ⟨b, u, hu, hb⟩ := hf a t h
    rw [Action.bind_ok hr, hu]
    exact .finished hb
  | uncountable h =>
    rw [Action.bind_error hr]
    exact .uncountable h
  | unsupplied h l =>
    rw [Action.bind_error hr]
    exact .unsupplied h l

end Ends
end GrowBuffer.Buffer
