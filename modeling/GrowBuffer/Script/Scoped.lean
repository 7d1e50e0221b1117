import GrowBuffer.Memory.Block
import GrowBuffer.Script.Reply

/-! # Programs with scoped handlers

A program is a list of steps, some of which enclose programs of their own: a block runs
under a handler of its thread, a thread runs beside the one that waits for it. A handler
put in place for a block is there until the block is left, however that happens.

An unwinding step is caught where it stands, unless it propagates; then it leaves the
list it stands in and the enclosing step unwinds in its place.
-/

namespace GrowBuffer.Script.Scoped
open Memory

/-- A step that encloses no others. -/
inductive Simple where
  | install (h : Handler)
  | uninstall
  | refuse (why : Refusal)
  | allocate (count elemSize : Nat)
  | ledger
  | config

inductive Program where
  | done
  | simple (s : Simple) (propagates : Bool) (rest : Program)
  | within (h : Handler) (body : Program) (propagates : Bool) (rest : Program)
  | spawned (body : Program) (propagates : Bool) (rest : Program)

/-- What a completed step answers. A change of the handler of the process answers the one that
was in force until then, an enclosing step only that it is over. -/
inductive Answer where
  | previous (h : Option Handler)
  | size (n : Nat)
  | ledger (l : Ledger)
  | config (cfg : Config)
  | left
  | joined
  | unwound (message : String)

/-- An answer as scripts show it, handlers by their names. -/
def Answer.shown : Answer → Reply
  | previous h => .handler (h.map (·.name))
  | size n => .size n
  | ledger l => .ledger l
  | config cfg => .config cfg
  | left => .word "done"
  | joined => .word "joined"
  | unwound message => .unwound message

/-- A step that was completed: where it stands, outermost index first, and its answer. -/
structure Event where
  path : List Nat
  answer : Answer

def Event.reply (e : Event) : Reply := e.answer.shown

/-- The handlers in force, the ledger of the running thread, and the steps completed so
far, the latest first. -/
structure World where
  scope : Handler.Scope := {}
  ledger : Ledger := {}
  log : List Event := []

namespace World

def setProcess (w : World) (h : Option Handler) : World :=
  { w with scope := { w.scope with process := h } }

def setThread (w : World) (h : Option Handler) : World :=
  { w with scope := { w.scope with thread := h } }

/-- The world of a new thread: no handler of its own, an empty ledger. -/
def forThread (w : World) : World := { w.setThread none with ledger := {} }

/-- Back to the thread that waited, whose handler and ledger are its own. -/
def join (w : World) (waiting : World) : World :=
  { w.setThread waiting.scope.thread with ledger := waiting.ledger }

end World

/-- How a program or a step ends. -/
inductive Ending (α : Type) where
  | completed (a : α)
  | unwound (message : String)
  | exited (diagnostic : String)

def Ending.map {α β : Type} (f : α → β) : Ending α → Ending β
  | completed a => completed (f a)
  | unwound message => unwound message
  | exited diagnostic => exited diagnostic

/-- The end that a handler chose. -/
def Ending.ofResponse {α : Type} : Response → Ending α
  | .exit diagnostic => exited diagnostic
  | .unwind message => unwound message

def Simple.run (cfg : Config) (w : World) : Simple → Ending Answer × World
  | install h => (.completed (.previous w.scope.process), w.setProcess (some h))
  | uninstall => (.completed (.previous w.scope.process), w.setProcess none)
  | refuse why => (.ofResponse (w.scope.effective.respond why), w)
  | allocate count elemSize =>
    match Memory.allocate cfg count elemSize w.ledger with
    | .ok block after => (.completed (.size block.size), { w with ledger := after })
    | .error stop after =>
      (.ofResponse (conclude w.scope.effective stop), { w with ledger := after })
  | ledger => (.completed (.ledger w.ledger), w)
  | config => (.completed (.config cfg), w)

/-- Enter a step into the log and go on with the steps behind it. -/
def proceed (path : List Nat) (propagates : Bool) (step : Ending Answer × World)
    (next : World → Ending Unit × World) : Ending Unit × World :=
  let enter (w : World) (a : Answer) : World := { w with log := ⟨path, a⟩ :: w.log }
  match step with
  | (.completed a, w) => next (enter w a)
  | (.unwound message, w) =>
    if propagates then (.unwound message, w) else next (enter w (.unwound message))
  | (.exited diagnostic, w) => (.exited diagnostic, w)

/-- Run a program whose first step has the index `k` in the list at `path`. -/
def Program.run (cfg : Config) (path : List Nat) (k : Nat) (w : World) :
    Program → Ending Unit × World
  | done => (.completed (), w)
  | simple s propagates rest =>
    proceed (path ++ [k]) propagates (s.run cfg w) fun w' => rest.run cfg path (k + 1) w'
  | within h body propagates rest =>
    let (ending, inner) := body.run cfg (path ++ [k]) 0 (w.setThread (some h))
    let after := inner.setThread w.scope.thread
    proceed (path ++ [k]) propagates (ending.map fun _ => .left, after) fun w' =>
      rest.run cfg path (k + 1) w'
  | spawned body propagates rest =>
    let (ending, inner) := body.run cfg (path ++ [k]) 0 w.forThread
    proceed (path ++ [k]) propagates (ending.map fun _ => .joined, inner.join w) fun w' =>
      rest.run cfg path (k + 1) w'

/-- The steps completed by a program, in the order of their completion, and the
diagnostic if a handler ended the process. -/
def record (cfg : Config) (p : Program) : List Event × Option String :=
  match p.run cfg [] 0 {} with
  | (.exited diagnostic, w) => (w.log.reverse, some diagnostic)
  | (_, w) => (w.log.reverse, none)

end GrowBuffer.Script.Scoped
