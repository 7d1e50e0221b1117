import GrowBuffer.Memory.Call
import GrowBuffer.Script.Reply

/-! # A workbench for one block of memory

There is one block on the bench, empty at first. Every call that is granted puts its
result there; one that takes the block over and is stopped leaves the bench empty.
-/

namespace GrowBuffer.Script
open Memory

structure Workbench where
  handler : Handler
  block : ByteArray := .empty
  ledger : Ledger := {}
  /-- The ledger at the last mark. -/
  mark : Ledger := {}

namespace Workbench

/-- What can be done at the bench; `put`, `overwrite` and what follows make no call. -/
inductive Job where
  | allocate (count elemSize : Nat)
  | allocateBytes (size : Nat)
  | resize (oldSize newSize : Nat)
  | resizeElements (oldCount newCount elemSize : Nat)
  | duplicate (s : ByteArray)
  | duplicateAtMost (s : ByteArray) (n : Nat)
  | put (w : ByteArray)
  | overwrite (start : Nat) (w : ByteArray)
  | resetLedger
  | mark
  | sinceMark
  | config

/-- A bench either goes on with an answer or is ended by a diagnostic. -/
abbrev Step := Except String (Reply × Workbench)

def call (cfg : Config) (c : Call) (b : Workbench) : Step :=
  match c.run cfg b.ledger with
  | .ok block ledger => .ok (.nothing, { b with block, ledger })
  | .error stop ledger =>
    match conclude b.handler stop with
    | .exit diagnostic => .error diagnostic
    | .unwind message =>
      let block := if c.taken?.isSome then .empty else b.block
      .ok (.unwound message, { b with block, ledger })

/-- Overwrite the block as far as it reaches. -/
def overwritten (block : ByteArray) (start : Nat) (w : ByteArray) : ByteArray :=
  let start := min start block.size
  Bytes.overwrite block start (w.extract 0 (block.size - start))

def perform (cfg : Config) (b : Workbench) : Job → Step
  | .allocate count elemSize => b.call cfg (.allocate count elemSize)
  | .allocateBytes size => b.call cfg (.allocateBytes size)
  | .resize oldSize newSize => b.call cfg (.resize b.block oldSize newSize)
  | .resizeElements oldCount newCount elemSize =>
    b.call cfg (.resizeElements b.block oldCount newCount elemSize)
  | .duplicate s => b.call cfg (.duplicate s)
  | .duplicateAtMost s n => b.call cfg (.duplicateAtMost s n)
  | .put w => .ok (.nothing, { b with block := w })
  | .overwrite start w => .ok (.nothing, { b with block := overwritten b.block start w })
  | .resetLedger => .ok (.nothing, { b with ledger := {} })
  | .mark => .ok (.nothing, { b with mark := b.ledger })
  | .sinceMark => .ok (Reply.ofSince (b.ledger.since b.mark), b)
  | .config => .ok (.config cfg, b)

/-- What is recorded about a job: its answer and the bench after it. -/
structure Entry where
  reply : Reply
  block : ByteArray
  ledger : Ledger

/-- Do jobs one after the other. The record ends early, with a diagnostic, when a handler
ends the process. -/
def work (cfg : Config) (b : Workbench) : List Job → List Entry × Option String
  | [] => ([], none)
  | j :: js =>
    match b.perform cfg j with
    | .error diagnostic => ([], some diagnostic)
    | .ok (reply, b') =>
      let (entries, ending) := b'.work cfg js
      (⟨reply, b'.block, b'.ledger⟩ :: entries, ending)

end Workbench
end GrowBuffer.Script
