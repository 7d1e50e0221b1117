import GrowBuffer.Proofs.Blocks
import GrowBuffer.Script.Scoped

/-! # Which handler is asked

The run of a program leaves a trace of what it came to: enclosures were entered and left, and
the steps in them ended. The handlers in force at any point are read off the trace that lies
behind it. The thread has the handler of the innermost block that is still open on it, and the
process has the one that was installed last, on whichever thread that was.
-/

namespace GrowBuffer.Script.Scoped
open Memory

/-- What encloses steps of its own. -/
inductive Enclosure where
  | block (h : Handler)
  | thread

namespace Enclosure

/-- The handler that its steps begin with; those of a new thread have none. -/
def own : Enclosure → Option Handler
  | block h => some h
  | thread => none

def enter (w : World) : Enclosure → World
  | block h => w.setThread (some h)
  | thread => w.forThread

/-- Back from the world `inner` to where the world was `w`. -/
def leave (w inner : World) : Enclosure → World
  | block _ => inner.setThread w.scope.thread
  | thread => inner.join w

variable (e : Enclosure) (w inner : World)

theorem enter_scope : (e.enter w).scope = ⟨e.own, w.scope.process⟩ := by
  cases e <;> rfl

theorem enter_log : (e.enter w).log = w.log := by
  cases e <;> rfl

theorem leave_scope : (e.leave w inner).scope = ⟨w.scope.thread, inner.scope.process⟩ := by
  cases e <;> rfl

theorem leave_log : (e.leave w inner).log = inner.log := by
  cases e <;> rfl

end Enclosure

/-- How a step ended that stands at `path`. -/
structure Outcome where
  path : List Nat
  propagates : Bool
  ending : Ending Answer

namespace Outcome

/-- The entry of the step in the log, unless the list is left that it stands in. -/
def event? (o : Outcome) : Option Event :=
  match o.ending with
  | .completed a => some ⟨o.path, a⟩
  | .unwound message => if o.propagates then none else some ⟨o.path, .unwound message⟩
  | .exited _ => none

def logged (o : Outcome) (w : World) : World := { w with log := o.event?.toList ++ w.log }

@[simp] theorem logged_scope (o : Outcome) (w : World) : (o.logged w).scope = w.scope := rfl

theorem logged_log (o : Outcome) (w : World) :
    (o.logged w).log.reverse = w.log.reverse ++ o.event?.toList := by
  rw [logged, List.reverse_append]
  cases o.event? <;> rfl

end Outcome

inductive Mark where
  | entered (e : Enclosure)
  | left (o : Outcome)
  | did (s : Simple) (o : Outcome)

def Mark.event? : Mark → Option Event
  | entered _ => none
  | left o => o.event?
  | did _ o => o.event?

/-- The marks of an enclosure around those of its steps. -/
def Enclosure.around (e : Enclosure) (ms : List Mark) (o : Outcome) : List Mark :=
  .entered e :: (ms ++ [.left o])

/-- The marks of the steps behind one that ended in this way. -/
def Outcome.follow (o : Outcome) (w : World) (next : World → List Mark) : List Mark :=
  if o.event?.isSome then next (o.logged w) else []

/-- The trace of a program, the first mark first. -/
def Program.marks (cfg : Config) (path : List Nat) (k : Nat) (w : World) : Program → List Mark
  | done => []
  | simple s propagates rest =>
    let (ending, after) := s.run cfg w
    let o : Outcome := ⟨path ++ [k], propagates, ending⟩
    [.did s o] ++ o.follow after fun w' => rest.marks cfg path (k + 1) w'
  | within h body propagates rest =>
    let (ending, inner) := body.run cfg (path ++ [k]) 0 (w.setThread (some h))
    let o : Outcome := ⟨path ++ [k], propagates, ending.map fun _ => .left⟩
    Enclosure.around (.block h) (body.marks cfg (path ++ [k]) 0 (w.setThread (some h))) o ++
      o.follow (inner.setThread w.scope.thread) fun w' => rest.marks cfg path (k + 1) w'
  | spawned body propagates rest =>
    let (ending, inner) := body.run cfg (path ++ [k]) 0 w.forThread
    let o : Outcome := ⟨path ++ [k], propagates, ending.map fun _ => .joined⟩
    Enclosure.around .thread (body.marks cfg (path ++ [k]) 0 w.forThread) o ++
      o.follow (inner.join w) fun w' => rest.marks cfg path (k + 1) w'

section Past

/-! A past is a trace with its latest mark first. -/

/-- The handler of the innermost block that is open `depth` enclosures further out. The search
ends at the entry of a thread, since the blocks behind it are open on other threads. -/
def innermostOpen : Nat → List Mark → Option Handler
  | _, [] => none
  | depth, .did _ _ :: past => innermostOpen depth past
  | depth, .left _ :: past => innermostOpen (depth + 1) past
  | 0, .entered e :: _ => e.own
  | depth + 1, .entered _ :: past => innermostOpen depth past

/-- The handler of the process, if it was `start` in the beginning. -/
def processWide (start : Option Handler) : List Mark → Option Handler
  | [] => start
  | .did (.install h) _ :: _ => some h
  | .did .uninstall _ :: _ => none
  | _ :: past => processWide start past

def scopeAfter (past : List Mark) : Handler.Scope := ⟨innermostOpen 0 past, processWide none past⟩

/-- The handler that a refused request meets. -/
def asked (past : List Mark) : Handler :=
  match innermostOpen 0 past with
  | some h => h
  | none => (processWide none past).getD .exiting

theorem effective_scopeAfter (past : List Mark) : (scopeAfter past).effective = asked past := by
  rw [asked, scopeAfter, Handler.Scope.effective]
  cases innermostOpen 0 past <;> rfl

theorem processWide_append (start : Option Handler) (ms past : List Mark) :
    processWide start (ms ++ past) = processWide (processWide start past) ms := by
  induction ms with
  | nil => rfl
  | cons m ms ih =>
    cases m with
    | entered e => exact ih
    | left o => exact ih
    | did s o => cases s <;> first | rfl | exact ih

end Past

/-- A refused request is answered by the handler that is to be asked, and a change of the handler
of the process by the one before. -/
def Mark.Fits (cfg : Config) (past : List Mark) : Mark → Prop
  | did (.refuse why) o => o.ending = .ofResponse ((asked past).respond why)
  | did (.allocate count elemSize) o => ∀ l,
    match allocate cfg count elemSize l with
    | .ok block _ => o.ending = .completed (.size block.size)
    | .error (.refused why) _ => o.ending = .ofResponse ((asked past).respond why)
    | .error (.faulted _) _ => False
  | did (.install _) o => o.ending = .completed (.previous (processWide none past))
  | did .uninstall o => o.ending = .completed (.previous (processWide none past))
  | _ => True

/-- Every mark fits the past that it has in the trace, behind `past`. -/
def AllFit (cfg : Config) (past : List Mark) : List Mark → Prop
  | [] => True
  | m :: ms => m.Fits cfg past ∧ AllFit cfg (m :: past) ms

theorem AllFit.append {cfg : Config} {past ms ns : List Mark} (h : AllFit cfg past ms)
    (k : AllFit cfg (ms.reverse ++ past) ns) : AllFit cfg past (ms ++ ns) := by
  induction ms generalizing past with
  | nil => exact k
  | cons m ms ih =>
    rw [List.reverse_cons, List.append_assoc] at k
    exact ⟨h.1, ih h.2 k⟩

/-- What a run from `w` to `v` has to do with its trace `ms`. All that was entered in it was left
in it again, so that the enclosures of its past are found behind it as they were. -/
structure Traced (cfg : Config) (w v : World) (ms : List Mark) : Prop where
  thread : v.scope.thread = w.scope.thread
  process : v.scope.process = processWide w.scope.process ms.reverse
  balanced : ∀ depth past, innermostOpen depth (ms.reverse ++ past) = innermostOpen depth past
  log : v.log.reverse = w.log.reverse ++ ms.filterMap Mark.event?
  fits : ∀ past, w.scope = scopeAfter past → AllFit cfg past ms

namespace Traced

variable {cfg : Config} {w v u : World} {ms ns : List Mark}

theorem refl : Traced cfg w w [] :=
  ⟨rfl, rfl, fun _ _ => rfl, (List.append_nil _).symm, fun _ _ => trivial⟩

theorem scope_eq (h : Traced cfg w v ms) {past : List Mark} (hw : w.scope = scopeAfter past) :
    v.scope = scopeAfter (ms.reverse ++ past) := by
  have hscope : v.scope = ⟨v.scope.thread, v.scope.process⟩ := rfl
  rw [hscope, h.thread, h.process, hw, scopeAfter, scopeAfter, h.balanced, processWide_append]

theorem trans (h : Traced cfg w v ms) (k : Traced cfg v u ns) : Traced cfg w u (ms ++ ns) where
  thread := k.thread.trans h.thread
  process := by rw [k.process, h.process, List.reverse_append, processWide_append]
  balanced depth past := by
    rw [List.reverse_append, List.append_assoc, k.balanced, h.balanced]
  log := by rw [k.log, h.log, List.filterMap_append, List.append_assoc]
  fits past hw := (h.fits past hw).append (k.fits _ (h.scope_eq hw))

end Traced

/-- The end of a request for a block does not depend on the ledger that it is entered in. -/
theorem allocate_fits (cfg : Config) (count elemSize : Nat) (w : World) {past : List Mark}
    (hw : w.scope = scopeAfter past) (path : List Nat) (propagates : Bool) :
    (Mark.did (.allocate count elemSize)
      ⟨path, propagates, ((Simple.allocate count elemSize).run cfg w).1⟩).Fits cfg past := by
  intro l
  rw [Simple.run, hw, effective_scopeAfter, allocate_eq, allocate_eq]
  cases Word.mul? count elemSize with
  | none => rfl
  | some bytes =>
    by_cases hzero : bytes = 0
    · simp only [if_pos hzero]
    · simp only [if_neg hzero, requested]
      cases approve cfg bytes <;> rfl

theorem Simple.run_scope (cfg : Config) (w : World) (s : Simple) (o : Outcome) :
    (s.run cfg w).2.scope = ⟨w.scope.thread, processWide w.scope.process [.did s o]⟩ := by
  cases s with
  | allocate count elemSize =>
    rw [Simple.run]
    cases Memory.allocate cfg count elemSize w.ledger <;> rfl
  | _ => rfl

theorem Simple.run_log (cfg : Config) (w : World) (s : Simple) : (s.run cfg w).2.log = w.log := by
  cases s with
  | allocate count elemSize =>
    rw [Simple.run]
    cases Memory.allocate cfg count elemSize w.ledger <;> rfl
  | _ => rfl

theorem Simple.run_fits (cfg : Config) (w : World) (s : Simple) {past : List Mark}
    (hw : w.scope = scopeAfter past) (path : List Nat) (propagates : Bool) :
    (Mark.did s ⟨path, propagates, (s.run cfg w).1⟩).Fits cfg past := by
  cases s with
  | install h => rw [Simple.run, hw]; rfl
  | uninstall => rw [Simple.run, hw]; rfl
  | refuse why => rw [Simple.run, hw, effective_scopeAfter]; rfl
  | allocate count elemSize => exact allocate_fits cfg count elemSize w hw path propagates
  | ledger => trivial
  | config => trivial

theorem events_did (s : Simple) (o : Outcome) :
    [Mark.did s o].filterMap Mark.event? = o.event?.toList := by
  rw [List.filterMap_cons, Mark.event?]
  cases o.event? <;> rfl

theorem events_around (e : Enclosure) (ms : List Mark) (o : Outcome) :
    (e.around ms o).filterMap Mark.event? = ms.filterMap Mark.event? ++ o.event?.toList := by
  rw [Enclosure.around, List.filterMap_cons]
  show (ms ++ [Mark.left o]).filterMap Mark.event? = _
  rw [List.filterMap_append, List.filterMap_cons, Mark.event?]
  cases o.event? <;> rfl

theorem reverse_around (e : Enclosure) (ms : List Mark) (o : Outcome) :
    (e.around ms o).reverse = .left o :: (ms.reverse ++ [.entered e]) := by
  rw [Enclosure.around, List.reverse_cons, List.reverse_append]
  rfl

namespace Traced

variable {cfg : Config} {w inner after : World} {ms : List Mark}

theorem simple (cfg : Config) (w : World) (s : Simple) (path : List Nat) (propagates : Bool) :
    Traced cfg w (Outcome.logged ⟨path, propagates, (s.run cfg w).1⟩ (s.run cfg w).2)
      [.did s ⟨path, propagates, (s.run cfg w).1⟩] where
  thread := by rw [Outcome.logged_scope, s.run_scope cfg w ⟨path, propagates, (s.run cfg w).1⟩]
  process := by
    rw [Outcome.logged_scope, s.run_scope cfg w ⟨path, propagates, (s.run cfg w).1⟩]
    rfl
  balanced _ _ := rfl
  log := by rw [Outcome.logged_log, s.run_log, events_did]
  fits _ hw := ⟨s.run_fits cfg w hw path propagates, trivial⟩

/-- Steps leave their enclosure as they have found it, but for the handler of the process. -/
theorem enclosed {e : Enclosure} (o : Outcome) (h : Traced cfg (e.enter w) inner ms) :
    Traced cfg w (o.logged (e.leave w inner)) (e.around ms o) where
  thread := by rw [Outcome.logged_scope, e.leave_scope]
  process := by
    rw [Outcome.logged_scope, e.leave_scope, reverse_around]
    show inner.scope.process = processWide w.scope.process (ms.reverse ++ [.entered e])
    rw [h.process, e.enter_scope, processWide_append]
    rfl
  balanced depth past := by
    rw [reverse_around, List.cons_append, List.append_assoc]
    exact h.balanced (depth + 1) (.entered e :: past)
  log := by
    rw [Outcome.logged_log, e.leave_log, h.log, e.enter_log, events_around, List.append_assoc]
  fits past hw := by
    have hinner : (e.enter w).scope = scopeAfter (.entered e :: past) := by
      rw [e.enter_scope, hw]
      rfl
    exact ⟨trivial, (h.fits _ hinner).append ⟨trivial, trivial⟩⟩

theorem follow {o : Outcome} {next : World → Ending Unit × World} {marks : World → List Mark}
    (h : Traced cfg w (o.logged after) ms) (hnext : ∀ v, Traced cfg v (next v).2 (marks v)) :
    Traced cfg w (proceed o.path o.propagates (o.ending, after) next).2
      (ms ++ o.follow after marks) := by
  have hproceed : (proceed o.path o.propagates (o.ending, after) next).2 =
      if o.event?.isSome then (next (o.logged after)).2 else o.logged after := by
    obtain ⟨path, propagates, _ | message | _⟩ := o
    · rfl
    · cases propagates <;> rfl
    · rfl
  rw [hproceed, Outcome.follow]
  split
  · exact h.trans (hnext _)
  · exact h.trans .refl

end Traced

theorem Program.traced (cfg : Config) (p : Program) (path : List Nat) (k : Nat) (w : World) :
    Traced cfg w (p.run cfg path k w).2 (p.marks cfg path k w) := by
  -- on the program; the steps behind the first one start from whatever world that has left
  induction p generalizing path k w with
  | done => exact .refl
  | simple s propagates rest ih =>
    exact (Traced.simple cfg w s (path ++ [k]) propagates).follow fun v => ih path (k + 1) v
  | within h body propagates rest ihBody ihRest =>
    have hblock := (ihBody (path ++ [k]) 0 (w.setThread (some h))).enclosed (e := .block h)
    exact (hblock ⟨path ++ [k], propagates, _⟩).follow fun v => ihRest path (k + 1) v
  | spawned body propagates rest ihBody ihRest =>
    have hthread := (ihBody (path ++ [k]) 0 w.forThread).enclosed (e := .thread)
    exact (hthread ⟨path ++ [k], propagates, _⟩).follow fun v => ihRest path (k + 1) v

theorem record_log (cfg : Config) (p : Program) :
    (record cfg p).1 = (p.run cfg [] 0 {}).2.log.reverse := by
  rw [record]
  split
  next diagnostic w hrun => rw [hrun]
  next ending w _ hrun => rw [hrun]

/-- Every refused request is answered by the handler of the innermost block that is open on its
thread, or else by that of the process, and every change of the latter answers the one before.
Whatever a program does and however it ends, the thread has the handler that it began with, and
only installing and uninstalling has changed the one of the process. -/
theorem handlers_scoped (cfg : Config) (p : Program) :
    AllFit cfg [] (p.marks cfg [] 0 {}) ∧
      (record cfg p).1 = (p.marks cfg [] 0 {}).filterMap Mark.event? ∧
      ∀ path k w, (p.run cfg path k w).2.scope =
        ⟨w.scope.thread, processWide w.scope.process (p.marks cfg path k w).reverse⟩ := by
  have hwhole := p.traced cfg [] 0 {}
  refine ⟨hwhole.fits [] rfl, ?_, fun path k w => ?_⟩
  · rw [record_log, hwhole.log]
    rfl
  · have hpart := p.traced cfg path k w
    rw [← hpart.thread, ← hpart.process]

/-- Inside a block under `outer`, a request is refused in a block of its own under `inner`, and
the unwinding leaves that block. A thread that is started then has neither of the two handlers,
but the one of the process, and it uninstalls this. Behind it the block still has its handler,
and behind the block nothing but the end of the process is left. -/
example :
    let inner : Handler := ⟨"inner", fun why => .unwind ("inner: " ++ why.message)⟩
    let outer : Handler := ⟨"outer", fun why => .unwind ("outer: " ++ why.message)⟩
    let refuse (propagates : Bool) : Program → Program :=
      .simple (.refuse (.exhausted 7)) propagates
    record {} (.simple (.install .unwinding) false
      (.within outer
        (.within inner (refuse true .done) false
          (.spawned (refuse false (.simple .uninstall false .done)) false
            (refuse false .done)))
        false (refuse false .done))) =
      ([⟨[0], .previous none⟩,
        ⟨[1, 0], .unwound "inner: out of memory (requested 7 bytes)"⟩,
        ⟨[1, 1, 0], .unwound "out of memory (requested 7 bytes)"⟩,
        ⟨[1, 1, 1], .previous (some .unwinding)⟩,
        ⟨[1, 1], .joined⟩,
        ⟨[1, 2], .unwound "outer: out of memory (requested 7 bytes)"⟩,
        ⟨[1], .left⟩], some "out of memory (requested 7 bytes)") := by
  rfl

end GrowBuffer.Script.Scoped
