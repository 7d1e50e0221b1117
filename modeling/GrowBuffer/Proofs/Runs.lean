import GrowBuffer.Buffer.Op
import GrowBuffer.Proofs.Operations

/-! # Runs of operations

A run goes on behind an operation that was stopped, since whoever catches the stop still
has the buffer. Every operation widens its buffer and works inside the store, or gives the
storage up, so the buffer is sound wherever the run has got to.
-/

namespace GrowBuffer.Buffer
open Format Memory

/-- A buffer at the start of its use. Lent memory has a size, as all memory. -/
inductive Fresh : Buffer → Prop
  | new : Fresh {}
  | lent (memory : ByteArray) {b : Buffer} (hm : memory.size < Word.limit)
      (hb : over? memory = some b) : Fresh b

/-- The state behind an operation, whether it has answered or was stopped. -/
def Op.after (cfg : Config) (op : Op) (s : State) : State :=
  match op.run cfg s with
  | .ok _ t => t
  | .error _ t => t

/-- The state that an action leaves, whether it has answered or was stopped. -/
def stateOf {α : Type} : EStateM.Result Stop State α → State
  | .ok _ t => t
  | .error _ t => t

theorem Op.after_eq (cfg : Config) (op : Op) (s : State) :
    op.after cfg s = stateOf (op.run cfg s) := by
  unfold Op.after
  cases op.run cfg s <;> rfl

theorem stateOf_map {α β : Type} (x : Work α) (f : α → β) (s : State) :
    stateOf ((do pure (f (← x))) s) = stateOf (x s) := by
  cases h : x s with
  | ok a t =>
    rw [Action.bind_ok h]
    rfl
  | error e t =>
    rw [Action.bind_error h]
    rfl

/-- What an action answers, or what has stopped it. -/
def outcomeOf {α : Type} : EStateM.Result Stop State α → Except Stop α
  | .ok a _ => .ok a
  | .error e _ => .error e

theorem outcomeOf_map {α β : Type} (x : Work α) (f : α → β) (s : State) :
    outcomeOf ((do pure (f (← x))) s) = (outcomeOf (x s)).map f := by
  cases h : x s with
  | ok a t =>
    rw [Action.bind_ok h]
    rfl
  | error e t =>
    rw [Action.bind_error h]
    rfl

/-- The buffers that operations lead to, by any configuration and on any ledger. -/
inductive Reachable : Buffer → Prop
  | fresh {b : Buffer} (h : Fresh b) : Reachable b
  | step {b : Buffer} (h : Reachable b) (cfg : Config) (l : Ledger) (op : Op) :
      Reachable (op.after cfg ⟨b, l⟩).buffer

/-- The outcomes of operations one after the other, and the state at the end. -/
def runs (cfg : Config) : List Op → State → List (Except Stop Answer) × State
  | [], s => ([], s)
  | op :: ops, s =>
    match op.run cfg s with
    | .ok a t => ((runs cfg ops t).1.cons (.ok a), (runs cfg ops t).2)
    | .error e t => ((runs cfg ops t).1.cons (.error e), (runs cfg ops t).2)

theorem runs_cons (cfg : Config) (op : Op) (ops : List Op) (s : State) :
    (runs cfg (op :: ops) s).2 = (runs cfg ops (op.after cfg s)).2 := by
  rw [runs, Op.after]
  split <;> rfl

theorem runs_ok {cfg : Config} {op : Op} {s t : State} {a : Answer} (h : op.run cfg s = .ok a t)
    (ops : List Op) :
    runs cfg (op :: ops) s = (.ok a :: (runs cfg ops t).1, (runs cfg ops t).2) := by
  rw [runs, h]

theorem runs_append (cfg : Config) (ops ops' : List Op) (s : State) :
    runs cfg (ops ++ ops') s =
      ((runs cfg ops s).1 ++ (runs cfg ops' (runs cfg ops s).2).1,
        (runs cfg ops' (runs cfg ops s).2).2) := by
  induction ops generalizing s with
  | nil => rfl
  | cons op ops ih =>
    rw [List.cons_append, runs, runs]
    cases op.run cfg s with
    | ok a t => simp only [ih t, List.cons_append]
    | error e t => simp only [ih t, List.cons_append]

theorem over?_eq_none_iff {memory : ByteArray} : over? memory = none ↔ memory.size = 0 := by
  simp [over?]

theorem over?_eq_some_iff {memory : ByteArray} {b : Buffer} :
    over? memory = some b ↔
      0 < memory.size ∧ b = ⟨.lent 0, Bytes.overwrite memory 0 terminator⟩ := by
  simp [over?, eq_comm, terminator]

theorem wellFormed_vacated (b : Buffer) : b.vacated.WellFormed := by
  refine ⟨Bytes.size_zeroed inlineSize, ?_⟩
  rw [Bytes.toList_zeroed]
  rfl

theorem Sound.vacated {b : Buffer} (h : b.Sound) : b.vacated.Sound := by
  refine ⟨wellFormed_vacated b, ?_, h.loan_lt⟩
  show (Bytes.zeroed inlineSize).size < Word.limit
  rw [Bytes.size_zeroed]
  decide

theorem Fresh.sound {b : Buffer} (h : Fresh b) : b.Sound := by
  cases h with
  | new => exact ⟨wellFormed_vacated {}, by decide, by decide⟩
  | lent memory hm hb =>
    obtain ⟨hpos, rfl⟩ := over?_eq_some_iff.mp hb
    have hsize : (Bytes.overwrite memory 0 terminator).size = memory.size :=
      Bytes.size_overwrite hpos
    have hlt : (Bytes.overwrite memory 0 terminator).size < Word.limit := by rwa [hsize]
    exact ⟨Nat.lt_of_lt_of_eq hpos hsize.symm, hlt, hlt⟩

theorem Fresh.content {b : Buffer} (h : Fresh b) : Bytes.toList b.content = [] := by
  have hzero : b.length = 0 := by
    cases h with
    | new => rfl
    | lent memory hm hb =>
      obtain ⟨-, rfl⟩ := over?_eq_some_iff.mp hb
      rfl
  exact h.sound.wellFormed.content_eq_nil hzero

theorem Fresh.location_ne_heap {b : Buffer} (h : Fresh b) : b.location ≠ .heap := by
  cases h with
  | new => exact Location.noConfusion
  | lent memory hm hb =>
    obtain ⟨-, rfl⟩ := over?_eq_some_iff.mp hb
    exact Location.noConfusion

/-- From `s` to `t` by growing as often as it takes and then working inside the store. -/
def Worked (cfg : Config) (s t : State) : Prop :=
  ∃ e, Widened cfg s e ∧ SameShape e.buffer t.buffer ∧ t.buffer.WellFormed ∧
    t.ledger = e.ledger

namespace Worked

variable {cfg : Config} {s e t : State}

theorem of_widened (hs : s.buffer.WellFormed) (h : Widened cfg s t) : Worked cfg s t :=
  ⟨t, h, .refl _, h.wellFormed hs, rfl⟩

theorem put {b : Buffer} (h : Widened cfg s e) (hb : SameShape e.buffer b) (hw : b.WellFormed) :
    Worked cfg s { e with buffer := b } :=
  ⟨e, h, hb, hw, rfl⟩

theorem sound (h : Worked cfg s t) (hs : s.buffer.Sound) : t.buffer.Sound := by
  obtain ⟨e, he, hshape, hw, -⟩ := h
  refine ⟨hw, ?_, ?_⟩
  · rw [hshape.store]
    exact he.store_lt hs.wellFormed (Nat.le_of_lt addressable_lt_limit) hs.store_lt
  · rw [hshape.loan, he.loan]
    exact hs.loan_lt

end Worked

section Step

variable {cfg : Config} {s : State}

theorem appendByte_works (h : s.buffer.WellFormed) (c : UInt8) :
    Ends s (fun _ t => Worked cfg s t) (appendByte cfg c s) := by
  by_cases hc : (s.buffer.isInline && c == 0) = true
  · rw [appendByte_dropped hc]
    exact .finished (.of_widened h .refl)
  · apply (appendByte_ends h (by simpa using hc)).mono
    rintro _ t ⟨e, he, hr, rfl⟩
    have hw := he.wellFormed h
    exact .put he (sameShape_bytePlaced hw hr) (wellFormed_bytePlaced hw hr)

theorem append_works (h : s.buffer.WellFormed) (w : ByteArray) :
    Ends s (fun _ t => Worked cfg s t) (append cfg w s) := by
  by_cases hz : w.size = 0
  · rw [append_empty hz]
    exact .finished (.of_widened h .refl)
  · apply (append_ends h hz).mono
    rintro _ t ⟨-, e, he, hr, -, rfl⟩
    have hw := he.wellFormed h
    exact .put he (sameShape_placed hw hr) (wellFormed_placed hw hr)

theorem print_works (h : s.buffer.Sound) (f : Formatted) :
    Ends s (fun _ t => Worked cfg s t) (print cfg f s) := by
  apply (print_ends h f).mono
  rintro _ t (⟨-, -, rfl⟩ | ⟨-, e, he, hr, -, -, rfl⟩)
  · exact .of_widened h.wellFormed .refl
  · have hw := he.wellFormed h.wellFormed
    exact .put he (sameShape_filled hw hr) (wellFormed_filled hw hr)

theorem pop_works (h : s.buffer.WellFormed) :
    Ends s (fun _ t => Worked cfg s t) (pop s) := by
  rw [pop_run h]
  apply Ends.finished
  split
  · exact .of_widened h .refl
  · have hn : s.buffer.length - 1 < s.buffer.store.size := by have := h.length_lt; omega
    exact .put .refl (sameShape_endedAt hn) (wellFormed_endedAt hn h)

theorem clear_works (h : s.buffer.WellFormed) :
    Ends s (fun _ t => Worked cfg s t) (clear s) := by
  have hn := h.store_pos
  rw [clear_run h]
  exact .finished (.put .refl (sameShape_endedAt hn) (wellFormed_endedAt hn h))

theorem reserve_works (h : s.buffer.WellFormed) (extra : Nat) :
    Ends s (fun _ t => Worked cfg s t) (reserve cfg extra s) :=
  (reserve_ends h extra).mono fun _ _ hd => .of_widened h hd.1

theorem spare_works (h : s.buffer.WellFormed) :
    Ends s (fun _ t => Worked cfg s t) (spare s) := by
  rw [spare_run h]
  exact .finished (.of_widened h .refl)

theorem writeSpare_works (h : s.buffer.WellFormed) (start : Nat) (w : ByteArray) :
    Ends s (fun _ t => Worked cfg s t) (writeSpare start w s) := by
  rw [writeSpare_run h]
  exact .finished (.put .refl (sameShape_scribbled h) (wellFormed_scribbled h))

theorem commit_works (h : s.buffer.WellFormed) {n : Nat} (hn : n ≤ s.buffer.room) :
    Ends s (fun _ t => Worked cfg s t) (commit n s) := by
  have hlt : s.buffer.length + n < s.buffer.store.size := by have := h.length_add_room; omega
  rw [commit_run h, if_neg (by omega)]
  exact .finished (.put .refl (sameShape_endedAt hlt) (wellFormed_endedAt hlt h))

theorem terminate_works (h : s.buffer.WellFormed) :
    Ends s (fun _ t => Worked cfg s t) (terminate s) := by
  rw [terminate_run h]
  exact .finished (.put .refl (sameShape_terminated h) (wellFormed_terminated h))

theorem rewind_works (h : s.buffer.WellFormed) :
    Ends s (fun _ t => Worked cfg s t) (rewind cfg s) := by
  apply (rewind_ends h).mono
  rintro _ t ⟨-, e, he, hr, rfl⟩
  have hw := he.wellFormed h
  exact .put he (sameShape_restarted hw hr) (wellFormed_restarted hw hr)

end Step

theorem Ends.map {s : State} {α β : Type} {done : α → State → Prop} {done' : β → State → Prop}
    {x : Work α} {f : α → β} (h : Ends s done (x s)) (hd : ∀ a t, done a t → done' (f a) t) :
    Ends s done' ((do pure (f (← x))) s) :=
  h.bind fun a t ha => ⟨f a, t, rfl, hd a t ha⟩

namespace Op

/-- Streams make several steps, every one of which may be refused. -/
def isStream : Op → Bool
  | stream _ => true
  | _ => false

variable {cfg : Config} {s : State}

/-- A single step has three ends: it is done, it is refused where it began, or it has
given its storage up. -/
theorem run_ends (h : s.buffer.Sound) {op : Op} (hstream : op.isStream = false)
    (hcommit : ∀ n, op = .commit n → n ≤ s.buffer.room) :
    Ends s (fun _ t => Worked cfg s t ∨ t.buffer = s.buffer.vacated) (op.run cfg s) := by
  have hw := h.wellFormed
  cases op with
  | appendByte c => exact (appendByte_works hw c).map fun _ _ => .inl
  | append w => exact (append_works hw w).map fun _ _ => .inl
  | appendText x => exact (append_works hw x.toUTF8).map fun _ _ => .inl
  | print f => exact (print_works h f).map fun _ _ => .inl
  | stream p => cases hstream
  | pop => exact (pop_works hw).map fun _ _ => .inl
  | clear => exact (clear_works hw).map fun _ _ => .inl
  | reserve extra => exact (reserve_works hw extra).map fun _ _ => .inl
  | spare => exact (spare_works hw).map fun _ _ => .inl
  | writeSpare start w => exact (writeSpare_works hw start w).map fun _ _ => .inl
  | commit n => exact (commit_works hw (hcommit n rfl)).map fun _ _ => .inl
  | terminate => exact (terminate_works hw).map fun _ _ => .inl
  | rewind => exact (rewind_works hw).map fun _ _ => .inl
  | detach => exact (detach_ends hw h.length_lt).map fun _ _ hd => .inr hd.2.1

end Op

/-- An outcome with a sound buffer, in which no mistake of a caller is found. -/
inductive Safe {α : Type} : EStateM.Result Stop State α → Prop
  | ok {a : α} {t : State} (h : t.buffer.Sound) : Safe (.ok a t)
  | refused {why : Refusal} {t : State} (h : t.buffer.Sound) : Safe (.error (.refused why) t)

theorem Ends.safe {s : State} {α : Type} {done : α → State → Prop}
    {r : EStateM.Result Stop State α} (h : Ends s done r) (hs : s.buffer.Sound)
    (hd : ∀ a t, done a t → t.buffer.Sound) : Safe r := by
  cases h with
  | finished h => exact .ok (hd _ _ h)
  | uncountable _ => exact .refused hs
  | unsupplied _ _ => exact .refused hs.vacated

theorem Safe.bind {s : State} {α β : Type} {x : Work α} {f : α → Work β} (h : Safe (x s))
    (hf : ∀ a t, t.buffer.Sound → Safe (f a t)) : Safe ((x >>= f) s) := by
  generalize hr : x s = r at h
  cases h with
  | ok ht =>
    rw [Action.bind_ok hr]
    exact hf _ _ ht
  | refused ht =>
    rw [Action.bind_error hr]
    exact .refused ht

section Safe

variable {cfg : Config} {s : State}

theorem append_safe (h : s.buffer.Sound) (w : ByteArray) : Safe (append cfg w s) :=
  (append_works h.wellFormed w).safe h fun _ _ hd => hd.sound h

theorem print_safe (h : s.buffer.Sound) (f : Formatted) : Safe (print cfg f s) :=
  (print_works h f).safe h fun _ _ hd => hd.sound h

theorem appendTexts_safe (h : s.buffer.Sound) (ss : List String) :
    Safe (appendTexts cfg ss s) := by
  induction ss generalizing s with
  | nil => exact .ok h
  | cons x ss ih => exact (append_safe h x.toUTF8).bind fun _ _ ht => ih ht

/-- No operation but an excessive commit finds a mistake. -/
theorem Op.run_safe (h : s.buffer.Sound) {op : Op}
    (hcommit : ∀ n, op = .commit n → n ≤ s.buffer.room) : Safe (op.run cfg s) := by
  cases hstream : op.isStream with
  | true =>
    -- a refused stream keeps the writes before the refusal, so it has none of the three ends
    cases op with
    | stream p => exact ((appendTexts_safe h p.writes).bind fun _ _ => .ok).bind fun _ _ => .ok
    | _ => cases hstream
  | false =>
    apply (run_ends h hstream hcommit).safe h
    intro _ t hd
    rcases hd with hd | hd
    · exact hd.sound h
    · rw [hd]
      exact h.vacated

theorem Op.run_commit_excess (h : s.buffer.Sound) {n : Nat} (hn : s.buffer.room < n) :
    (Op.commit n).run cfg s = .error (.faulted (.overcommitted n s.buffer.room)) s := by
  apply Action.bind_error
  rw [commit_run h.wellFormed, if_pos hn]

theorem Op.after_sound (h : s.buffer.Sound) (op : Op) : (op.after cfg s).buffer.Sound := by
  by_cases hcommit : ∀ n, op = .commit n → n ≤ s.buffer.room
  · have hsafe : Safe (op.run cfg s) := run_safe h hcommit
    unfold Op.after
    generalize op.run cfg s = r at hsafe
    cases hsafe with
    | ok ht => exact ht
    | refused ht => exact ht
  · push Not at hcommit
    obtain ⟨n, rfl, hn⟩ := hcommit
    rw [Op.after, run_commit_excess h hn]
    exact h

end Safe

theorem Reachable.sound {b : Buffer} (h : Reachable b) : b.Sound := by
  induction h with
  | fresh h => exact h.sound
  | step _ cfg l op ih => exact Op.after_sound (s := ⟨_, l⟩) ih op

/-- A reachable buffer is well formed and its length stays below its capacity, which is a
size. The mistakes that are ever found are memory without room for a terminator and commits
of more than there is room for, and a commit that was stopped has changed nothing. -/
theorem reachable_wellFormed_faults :
    (∀ memory, over? memory = none ↔ memory.size = 0) ∧
      ∀ b, Reachable b → b.WellFormed ∧ b.length ≤ b.capacity ∧ b.capacity < Word.limit ∧
        ∀ cfg (op : Op) l f t, op.run cfg ⟨b, l⟩ = .error (.faulted f) t ↔
          ∃ n, op = .commit n ∧ b.room < n ∧ f = .overcommitted n b.room ∧ t = ⟨b, l⟩ := by
  refine ⟨fun _ => over?_eq_none_iff, fun b h => ?_⟩
  have hs := h.sound
  have hcap := hs.wellFormed.capacity_succ
  have hlt := hs.store_lt
  refine ⟨hs.wellFormed, hs.wellFormed.length_le, by omega, fun cfg op l f t => ⟨?_, ?_⟩⟩
  · intro hrun
    by_cases hcommit : ∀ n, op = .commit n → n ≤ b.room
    · have hsafe : Safe (op.run cfg ⟨b, l⟩) := Op.run_safe hs hcommit
      rw [hrun] at hsafe
      cases hsafe
    · push Not at hcommit
      obtain ⟨n, rfl, hn⟩ := hcommit
      rw [Op.run_commit_excess hs hn] at hrun
      cases hrun
      exact ⟨n, rfl, hn, rfl, rfl⟩
  · rintro ⟨n, rfl, hn, rfl, rfl⟩
    exact Op.run_commit_excess hs hn

/-- Three bytes of room, of which one was taken, do not take three more. -/
theorem reachable_wellFormed_faults_scratch :
    let s := (Op.append ⟨#[97]⟩).after {} ⟨⟨.lent 0, ⟨#[0, 7, 7, 7]⟩⟩, {}⟩
    (Op.commit 3).run {} ⟨s.buffer, {}⟩ =
      .error (.faulted (.overcommitted 3 2)) ⟨⟨.lent 1, ⟨#[97, 0, 7, 7]⟩⟩, {}⟩ :=
  ((reachable_wellFormed_faults.2 _
    (.step (.fresh (.lent ⟨#[7, 7, 7, 7]⟩ (by decide) rfl)) {} {} (.append ⟨#[97]⟩))).2.2.2
      {} (.commit 3) {} _ _).mpr ⟨3, rfl, by decide, rfl, rfl⟩

end GrowBuffer.Buffer
