import GrowBuffer.Buffer.Display
import GrowBuffer.Format.Piece
import GrowBuffer.Script.Reply

/-! # Sessions with several buffers

A session works on a row of buffers and keeps what was detached from them. All of them
share one ledger and run under one handler. A step that unwinds is caught and the session
goes on with whatever that step has left; a handler that exits ends the session.
-/

namespace GrowBuffer.Script
open Format Memory

/-- A place for a buffer: in use or released, with or without lent memory. -/
structure Slot where
  buffer : Buffer := {}
  inUse : Bool := true
  hasLoan : Bool := false

structure Session where
  handler : Handler
  slots : Array Slot := #[]
  detached : Array Detached := #[]
  ledger : Ledger := {}

/-- A session either goes on or is ended by a diagnostic. -/
abbrev Step := StateT Session (Except String)

/-- What can be asked of one buffer of a session. -/
inductive Request where
  | inspect
  | perform (op : Buffer.Op)
  /-- Append all bytes and answer nothing. -/
  | appendAll (w : ByteArray)
  | print (t : Template)
  | stream (t : Template)
  /-- Stream to a sink that never fails; a formatter that gives up on it unwinds. -/
  | streamOut (t : Template)
  /-- Show the spare region, then write into it. -/
  | spare (start : Nat) (w : Option ByteArray)
  | renew
  | release
  | details
  | detailsByLine
  | showDetached (i : Nat)
  | quoteDetached (i : Nat)
  | compareDetached (i j : Nat)
  | config
  | resetLedger

inductive Command where
  | once (r : Request)
  | rounds (n : Nat) (body : List Command)

namespace Session

/-- Run work on the buffer in a slot. -/
def work {α : Type} (i : Nat) (act : Buffer.Work α) (reply : α → Reply) : Step Reply := fun s =>
  match s.slots[i]? with
  | some slot =>
    if slot.inUse then
      let keep (t : State) : Session :=
        { s with slots := s.slots.setIfInBounds i { slot with buffer := t.buffer }
                 ledger := t.ledger }
      match act ⟨slot.buffer, s.ledger⟩ with
      | .ok a t => .ok (reply a, keep t)
      | .error stop t =>
        match conclude s.handler stop with
        | .exit diagnostic => .error diagnostic
        | .unwind message => .ok (.unwound message, keep t)
    else .ok (.nothing, s)
  | none => .ok (.nothing, s)

def modifySlot (i : Nat) (f : Slot → Slot) : Step Reply := fun s =>
  .ok (.nothing, { s with slots := s.slots.modify i f })

def fromSlot (i : Nat) (f : Slot → Reply) : Step Reply := fun s =>
  .ok ((s.slots[i]?.map f).getD .nothing, s)

def fromDetached (i : Nat) (f : Detached → Reply) : Step Reply := fun s =>
  .ok ((s.detached[i]?.map f).getD .nothing, s)

end Session

/-- A region up to its last byte that is not zero. -/
def usedPart (region : ByteArray) : ByteArray :=
  region.extract 0 ((Bytes.toList region).reverse.dropWhile (· == 0)).length

/-- What is said when a formatter gives up although its sink took everything. -/
def gaveUpMessage : String :=
  "a formatting trait implementation returned an error when the underlying stream did not"

open Session in
/-- Carry out a request on slot `i`; `round` numbers the round of the enclosing repetition. -/
def Request.run (cfg : Config) (i round : Nat) : Request → Step Reply
  | inspect => pure .nothing
  | perform op => do
    let reply ← work i (op.run cfg) .answer
    match reply with
    | .answer (.detached d) => modify fun s => { s with detached := s.detached.push d }
    | _ => pure ()
    pure reply
  | appendAll w => work i (Buffer.append cfg w) fun _ => .nothing
  | print t => work i (Buffer.print cfg (t.formatted round)) fun n => .answer (.printed n)
  | stream t => work i (Buffer.stream cfg (t.pass true round)) fun b => .answer (.streamed b)
  | streamOut t => work i (Buffer.stream cfg (t.pass true round)) fun completed =>
    if completed then .nothing else .unwound gaveUpMessage
  | spare start w => do
    let reply ← work i Buffer.spare fun region => .region region.size (usedPart region)
    match w with
    | none => pure ()
    | some w => let _ ← work i (Buffer.writeSpare start w) fun _ => .nothing
    pure reply
  | renew => modifySlot i fun slot => { slot with buffer := slot.buffer.vacated, inUse := true }
  | release => modifySlot i fun slot => { slot with inUse := false }
  | details => fromSlot i fun slot => .text slot.buffer.record.oneLine
  | detailsByLine => fromSlot i fun slot => .text slot.buffer.record.manyLines
  | showDetached k => fromDetached k fun d => .answer (.detached d)
  | quoteDetached k => fromDetached k fun d => .text d.details
  | compareDetached k l => fun s =>
    match s.detached[k]?, s.detached[l]? with
    | some d, some e => .ok (.equality (d == e) (hash d == hash e), s)
    | _, _ => .ok (.nothing, s)
  | config => pure (.config cfg)
  | resetLedger => do
    modify fun s => { s with ledger := {} }
    pure .nothing

/-- The last answer of some steps and how many of them failed. -/
structure Tally where
  last : Reply := .nothing
  failures : Nat := 0

def Tally.add (t : Tally) (r : Reply) : Tally :=
  ⟨r, if r.isFailure then t.failures + 1 else t.failures⟩

mutual

def Command.run (cfg : Config) (i round : Nat) : Command → Step Reply
  | .once r => r.run cfg i round
  | .rounds n body => do
    let tally ← (List.range n).foldlM (fun t k => runAll cfg i k body t) {}
    pure (.rounds tally.last tally.failures)

def runAll (cfg : Config) (i round : Nat) : List Command → Tally → Step Tally
  | [], t => pure t
  | c :: cs, t => do
    let reply ← c.run cfg i round
    runAll cfg i round cs (t.add reply)

end

/-- What is recorded about a step: its answer, the buffer after it unless that is
released, and the ledger. -/
structure Entry where
  reply : Reply
  buffer : Option Buffer
  ledger : Ledger

namespace Session

def entry (s : Session) (i : Nat) (reply : Reply) : Entry where
  reply
  buffer := s.slots[i]?.bind fun slot => if slot.inUse then some slot.buffer else none
  ledger := s.ledger

/-- Make a buffer in a new slot, over memory if some is lent. -/
def openSlot (s : Session) (memory : Option ByteArray) : Reply × Session :=
  match memory with
  | none => (.nothing, { s with slots := s.slots.push {} })
  | some m =>
    match Buffer.over? m with
    | some b => (.nothing, { s with slots := s.slots.push ⟨b, true, true⟩ })
    | none =>
      (.unwound Fault.noTerminatorRoom.message,
        { s with slots := s.slots.push ⟨{}, false, true⟩ })

/-- The memory that was lent, after all buffers were released. -/
def loans (s : Session) : List ByteArray :=
  (s.slots.toList.filter (·.hasLoan)).map (·.buffer.loan)

end Session

/-- A session's record, and either the lent memory at its end or the diagnostic that
ended it early. -/
structure Transcript where
  entries : List Entry
  ending : Except String (List ByteArray)

/-- Open the buffers one after the other. -/
def openAll : List (Option ByteArray) → Session → List Entry → Session × List Entry
  | [], s, log => (s, log)
  | m :: ms, s, log =>
    let (reply, s) := s.openSlot m
    openAll ms s (s.entry (s.slots.size - 1) reply :: log)

/-- Run commands on their slots; the log grows at its front. -/
def runScript (cfg : Config) : List (Nat × Command) → Session → List Entry → Transcript
  | [], s, log => ⟨log.reverse, .ok s.loans⟩
  | (i, c) :: cs, s, log =>
    match c.run cfg i 0 s with
    | .error diagnostic => ⟨log.reverse, .error diagnostic⟩
    | .ok (reply, s) => runScript cfg cs s (s.entry i reply :: log)

def session (cfg : Config) (handler : Handler) (memories : List (Option ByteArray))
    (commands : List (Nat × Command)) : Transcript :=
  let (s, log) := openAll memories { handler } []
  runScript cfg commands s log

end GrowBuffer.Script
