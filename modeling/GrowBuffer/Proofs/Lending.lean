import GrowBuffer.Proofs.Frame
import GrowBuffer.Proofs.Loan
import GrowBuffer.Script.Session

/-! # What becomes of lent memory

A buffer on lent memory either works in it, and then touches the places that the operation is
about, or it leaves it, and then it has not touched it at all. A buffer that is not on lent
memory leaves it alone for good.
-/

namespace GrowBuffer.Buffer
open Bytes Format Memory

/-- What becomes of lent memory: the buffer edits it in place or has left it as it was. -/
inductive Lends (p : Nat → Prop) (b c : Buffer) : Prop
  | stays (h : WritesAt p b c)
  | leaves (hl : c.location ≠ .lent) (h : c.loan = b.loan)

namespace Lends

variable {cfg : Config} {p : Nat → Prop} {b c : Buffer} {s e : State}

theorem size (h : Lends p b c) : c.loan.size = b.loan.size := by
  cases h with
  | stays h => exact h.size
  | leaves _ h => rw [h]

theorem spared (h : Lends p b c) {i : Nat} (hi : ¬ p i) :
    (toList c.loan)[i]? = (toList b.loan)[i]? := by
  cases h with
  | stays h => exact h.spared i hi
  | leaves _ h => rw [h]

theorem left (h : Lends p b c) (hc : c.location ≠ .lent) : c.loan = b.loan := by
  cases h with
  | stays h =>
    rw [h.location] at hc
    exact h.own hc
  | leaves _ h => exact h

theorem of_widened (h : Widened cfg s e) (hw : WritesAt p e.buffer c) : Lends p s.buffer c := by
  cases h with
  | refl => exact .stays hw
  | grow h _ _ _ _ =>
    apply leaves
    · rw [hw.location]
      exact Location.noConfusion
    · rw [hw.own Location.noConfusion, loan_grown, h.loan]

theorem vacated (p : Nat → Prop) (b : Buffer) : Lends p b b.vacated :=
  .leaves Location.noConfusion rfl

end Lends

/-- The places of lent memory that an operation may touch. -/
def Op.Touches (b : Buffer) : Op → Nat → Prop
  | appendByte _, i => i = b.length
  | append w, i => 0 < w.size ∧ b.length ≤ i ∧ i ≤ b.length + w.size
  | appendText x, i => 0 < x.toUTF8.size ∧ b.length ≤ i ∧ i ≤ b.length + x.toUTF8.size
  | print f, i => f.measured.givesUp = false ∧
    b.length ≤ i ∧ i ≤ b.length + (bytesOf f.measured.writes).length
  | writeSpare start w, i =>
    b.length + start ≤ i ∧ i < b.length + start + w.size ∧ i < b.capacity
  | terminate, i => i = b.length
  | rewind, i => i = b.length
  | stream _, _ => True
  | pop, _ | clear, _ | reserve _, _ | spare, _ | commit _, _ | detach, _ => False

section Step

variable {cfg : Config} {s : State}

theorem append_lends (h : s.buffer.WellFormed) (w : ByteArray) :
    Ends s (fun _ t => Lends ((Op.append w).Touches s.buffer) s.buffer t.buffer)
      (append cfg w s) := by
  by_cases hz : w.size = 0
  · rw [append_empty hz]
    exact .finished (.stays (.refl _ _))
  · apply (append_ends h hz).mono
    rintro _ t ⟨-, e, he, hr, -, rfl⟩
    have hedit := WritesAt.placed (he.wellFormed h) hr
    rw [he.length] at hedit
    exact .of_widened he (hedit.mono fun i hi => ⟨Nat.pos_of_ne_zero hz, hi⟩)

theorem appendByte_lends (h : s.buffer.WellFormed) (c : UInt8) :
    Ends s (fun _ t => Lends ((Op.appendByte c).Touches s.buffer) s.buffer t.buffer)
      (appendByte cfg c s) := by
  by_cases hc : (s.buffer.isInline && c == 0) = true
  · rw [appendByte_dropped hc]
    exact .finished (.stays (.refl _ _))
  · apply (appendByte_ends h (by simpa using hc)).mono
    rintro _ t ⟨e, he, hr, rfl⟩
    have hedit := WritesAt.bytePlaced (x := c) (he.wellFormed h) hr
    rw [he.length] at hedit
    exact .of_widened he hedit

theorem print_lends (h : s.buffer.Sound) (f : Formatted) :
    Ends s (fun _ t => Lends ((Op.print f).Touches s.buffer) s.buffer t.buffer)
      (print cfg f s) := by
  apply (print_ends h f).mono
  rintro _ t (⟨-, -, rfl⟩ | ⟨hmeasured, e, he, hr, -, -, rfl⟩)
  · exact .stays (.refl _ _)
  · have hedit := WritesAt.filled (f := f.written) (he.wellFormed h.wellFormed) hr
    rw [he.length] at hedit
    exact .of_widened he (hedit.mono fun i hi => ⟨hmeasured, hi⟩)

theorem rewind_lends (h : s.buffer.WellFormed) :
    Ends s (fun _ t => Lends (Op.rewind.Touches s.buffer) s.buffer t.buffer) (rewind cfg s) := by
  apply (rewind_ends h).mono
  rintro _ t ⟨-, e, he, hr, rfl⟩
  have hedit := WritesAt.restarted (he.wellFormed h) hr
  rw [he.length] at hedit
  exact .of_widened he hedit

theorem Op.run_lends (h : s.buffer.Sound) {op : Op} (hop : op.isStream = false)
    (hcommit : ∀ n, op = .commit n → n ≤ s.buffer.room) :
    Ends s (fun _ t => Lends (op.Touches s.buffer) s.buffer t.buffer) (op.run cfg s) := by
  have hw := h.wellFormed
  cases op with
  | appendByte c => exact (appendByte_lends hw c).map fun _ _ => id
  | append w => exact (append_lends hw w).map fun _ _ => id
  | appendText x => exact (append_lends hw x.toUTF8).map fun _ _ => id
  | print f => exact (print_lends h f).map fun _ _ => id
  | stream p => cases hop
  | pop =>
    rw [Op.run, Action.bind_ok (pop_run hw)]
    apply Ends.finished
    split
    · exact .stays (.refl _ _)
    · have hn : s.buffer.length - 1 < s.buffer.store.size := by have := hw.length_lt; omega
      exact .stays (.endedAt _ hn)
  | clear =>
    rw [Op.run, Action.bind_ok (clear_run hw)]
    exact .finished (.stays (.endedAt _ hw.store_pos))
  | reserve extra => exact (reserve_ends hw extra).map fun _ _ hd => .of_widened hd.1 (.refl _ _)
  | spare =>
    rw [Op.run, Action.bind_ok (spare_run hw)]
    exact .finished (.stays (.refl _ _))
  | writeSpare start w =>
    rw [Op.run, Action.bind_ok (writeSpare_run hw start w)]
    exact .finished (.stays (.scribbled hw start w))
  | commit n =>
    have hn := hcommit n rfl
    have hlt : s.buffer.length + n < s.buffer.store.size := by have := hw.length_add_room; omega
    have hrun := commit_run hw n
    rw [if_neg (by omega)] at hrun
    rw [Op.run, Action.bind_ok hrun]
    exact .finished (.stays (.endedAt _ hlt))
  | terminate =>
    rw [Op.run, Action.bind_ok (terminate_run hw)]
    exact .finished (.stays (.terminated hw))
  | rewind => exact (rewind_lends hw).map fun _ _ => id
  | detach =>
    refine (detach_ends hw h.length_lt).map fun _ t hd => ?_
    rw [hd.2.1]
    exact .vacated _ _

theorem Op.run_stopped_loan (h : s.buffer.Sound) {op : Op} (hop : op.isStream = false) {e : Stop}
    {t : State} (hrun : op.run cfg s = .error e t) : t.buffer.loan = s.buffer.loan := by
  by_cases hcommit : ∀ n, op = .commit n → n ≤ s.buffer.room
  · have hends : Ends s _ (op.run cfg s) := run_lends h hop hcommit
    rw [hrun] at hends
    cases hends with
    | uncountable _ => rfl
    | unsupplied _ _ => rfl
  · push Not at hcommit
    obtain ⟨n, rfl, hn⟩ := hcommit
    rw [run_commit_excess h hn] at hrun
    cases hrun
    rfl

theorem Op.after_lends (h : s.buffer.Sound) {op : Op} (hop : op.isStream = false) :
    Lends (op.Touches s.buffer) s.buffer (op.after cfg s).buffer := by
  by_cases hcommit : ∀ n, op = .commit n → n ≤ s.buffer.room
  · have hends : Ends s _ (op.run cfg s) := run_lends h hop hcommit
    unfold Op.after
    generalize op.run cfg s = r at hends
    cases hends with
    | finished h => exact h
    | uncountable _ => exact .stays (.refl _ _)
    | unsupplied _ _ => exact .vacated _ _
  · push Not at hcommit
    obtain ⟨n, rfl, hn⟩ := hcommit
    rw [Op.after, run_commit_excess h hn]
    exact .stays (.refl _ _)

end Step

theorem appendText_after (cfg : Config) (x : String) (s : State) :
    (Op.appendText x).after cfg s = stateOf (appendText cfg x s) :=
  (Op.after_eq cfg _ s).trans (stateOf_map (appendText cfg x) Answer.count s)

theorem appendTexts_after (cfg : Config) (xs : List String) (s : State) :
    ∃ k, stateOf (appendTexts cfg xs s) = (runs cfg ((xs.take k).map .appendText) s).2 := by
  induction xs generalizing s with
  | nil => exact ⟨0, rfl⟩
  | cons x xs ih =>
    cases hone : appendText cfg x s with
    | ok n t =>
      obtain ⟨k, hk⟩ := ih t
      refine ⟨k + 1, ?_⟩
      rw [appendTexts, Action.bind_ok hone, hk, List.take_succ_cons, List.map_cons, runs_cons,
        appendText_after, hone]
      rfl
    | error e t =>
      refine ⟨1, ?_⟩
      rw [appendTexts, Action.bind_error hone, List.take_succ_cons, List.take_zero, List.map_cons,
        runs_cons, appendText_after, hone]
      rfl

theorem stream_after (cfg : Config) (p : Pass) (s : State) :
    ∃ k, (Op.stream p).after cfg s = (runs cfg ((p.writes.take k).map .appendText) s).2 := by
  obtain ⟨k, hk⟩ := appendTexts_after cfg p.writes s
  have hstream : stateOf (stream cfg p s) = stateOf (appendTexts cfg p.writes s) :=
    stateOf_map (appendTexts cfg p.writes) (fun _ => !p.givesUp) s
  have hrun : (Op.stream p).after cfg s = stateOf (stream cfg p s) :=
    (Op.after_eq cfg _ s).trans (stateOf_map (stream cfg p) Answer.streamed s)
  exact ⟨k, hrun.trans (hstream.trans hk)⟩

section Lender

open Script

theorem over?_loan {memory : ByteArray} {b : Buffer} (h : over? memory = some b) :
    b.location = .lent ∧ b.loan.size = memory.size ∧ (toList b.loan)[0]? = some 0 ∧
      ∀ i, i ≠ 0 → (toList b.loan)[i]? = (toList memory)[i]? := by
  obtain ⟨hpos, rfl⟩ := over?_eq_some_iff.mp h
  refine ⟨rfl, size_overwrite hpos, ?_, fun i hi => ?_⟩
  · show (toList (Bytes.overwrite memory 0 terminator))[0]? = some 0
    rw [getElem?_overwrite (Nat.zero_le _)]
    rfl
  · show (toList (Bytes.overwrite memory 0 terminator))[i]? = _
    rw [getElem?_overwrite (Nat.zero_le _), if_neg (Nat.not_lt_zero i), if_neg]
    rw [size_terminator]
    omega

theorem runs_loan_of_left {b : Buffer} (hb : b.location ≠ .lent) (cfg : Config) (ops : List Op)
    (l : Ledger) : (runs cfg ops ⟨b, l⟩).2.buffer.loan = b.loan := by
  rcases b with ⟨st, loan⟩
  have hown : st.Own := by
    rcases st with _ | _ | _
    · trivial
    · trivial
    · exact hb rfl
  obtain ⟨outcomes, st', l', -, hruns⟩ := runs_own cfg ops st hown l
  rw [hruns loan]

theorem map_modify_of_fixed {α β : Type} {f : α → α} {g : α → β} (hg : ∀ a, g (f a) = g a)
    (xs : List α) (i : Nat) : (xs.modify i f).map g = xs.map g := by
  apply List.ext_getElem?
  intro j
  rw [List.getElem?_map, List.getElem?_map, List.getElem?_modify]
  by_cases hj : i = j
  · cases xs[j]? <;> simp [hj, hg]
  · cases xs[j]? <;> simp [hj]

theorem loans_modify (s : Session) (i : Nat) {f : Slot → Slot}
    (hf : ∀ slot, (f slot).hasLoan = slot.hasLoan ∧ (f slot).buffer.loan = slot.buffer.loan) :
    Session.loans { s with slots := s.slots.modify i f } = s.loans := by
  let view (slot : Slot) : Bool × ByteArray := (slot.hasLoan, slot.buffer.loan)
  have hview : ∀ s : Session, s.loans = ((s.slots.toList.map view).filter (·.1)).map (·.2) := by
    intro s
    rw [Session.loans, List.filter_map, List.map_map]
    rfl
  have hfixed : ∀ slot, view (f slot) = view slot := fun slot =>
    Prod.ext (hf slot).1 (hf slot).2
  rw [hview, hview, Array.toList_modify, map_modify_of_fixed hfixed]

theorem release_run (cfg : Config) (i round : Nat) (s : Session) :
    ∃ s', Request.release.run cfg i round s = .ok (.nothing, s') ∧ s'.loans = s.loans ∧
      ∀ round' op, (Request.perform op).run cfg i round' s' = .ok (.nothing, s') := by
  let s' : Session :=
    { s with slots := s.slots.modify i fun slot => { slot with inUse := false } }
  refine ⟨s', rfl, loans_modify s i fun _ => ⟨rfl, rfl⟩, fun round' op => ?_⟩
  have hwork : Session.work i (op.run cfg) Reply.answer s' = .ok (.nothing, s') := by
    rw [Session.work, Array.getElem?_modify, if_pos rfl]
    cases s.slots[i]? <;> rfl
  rw [Request.run]
  simp only [bind, StateT.bind, hwork]
  rfl

end Lender

/-- Lending memory writes its first byte. After that no operation touches lent bytes other than
those it is about; one that takes the buffer off the memory or is stopped touches none, and a
buffer that has left the memory never touches it again. A stream is made of single appends, and
the release of a buffer changes no loan. -/
theorem reachable_loan :
    (∀ memory b, over? memory = some b → b.location = .lent ∧ b.loan.size = memory.size ∧
      (toList b.loan)[0]? = some 0 ∧ ∀ i, i ≠ 0 → (toList b.loan)[i]? = (toList memory)[i]?) ∧
    (∀ b, Reachable b → ∀ cfg l,
      (∀ op : Op, op.isStream = false →
        (op.after cfg ⟨b, l⟩).buffer.loan.size = b.loan.size ∧
        (∀ i, ¬ op.Touches b i →
          (toList (op.after cfg ⟨b, l⟩).buffer.loan)[i]? = (toList b.loan)[i]?) ∧
        ((op.after cfg ⟨b, l⟩).buffer.location ≠ .lent →
          (op.after cfg ⟨b, l⟩).buffer.loan = b.loan) ∧
        ∀ e t, op.run cfg ⟨b, l⟩ = .error e t → t.buffer.loan = b.loan) ∧
      (∀ p, ∃ k, (Op.stream p).after cfg ⟨b, l⟩ =
        (runs cfg ((p.writes.take k).map .appendText) ⟨b, l⟩).2) ∧
      (b.location ≠ .lent → ∀ ops, (runs cfg ops ⟨b, l⟩).2.buffer.loan = b.loan)) ∧
    ∀ cfg i round s, ∃ s', Script.Request.release.run cfg i round s = .ok (.nothing, s') ∧
      s'.loans = s.loans ∧
      ∀ round' op, (Script.Request.perform op).run cfg i round' s' = .ok (.nothing, s') := by
  refine ⟨fun _ _ => over?_loan, fun b h cfg l => ⟨fun op hop => ?_, fun p => ?_, ?_⟩, release_run⟩
  · have hlends : Lends (op.Touches b) b (op.after cfg ⟨b, l⟩).buffer :=
      Op.after_lends (s := ⟨b, l⟩) h.sound hop
    exact ⟨hlends.size, fun i hi => hlends.spared hi, hlends.left, fun e t hrun =>
      Op.run_stopped_loan (s := ⟨b, l⟩) h.sound hop hrun⟩
  · exact stream_after cfg p ⟨b, l⟩
  · exact fun hb ops => runs_loan_of_left hb cfg ops l

/-- One byte is appended to lent memory, three leave it, and what they lead to stays off it. -/
theorem reachable_loan_scratch :
    let b : Buffer := ⟨.lent 0, ⟨#[0, 7, 7]⟩⟩
    let left : Buffer := ((Op.append ⟨#[97, 98, 99]⟩).after ⟨4, none⟩ ⟨b, {}⟩).buffer
    (toList ((Op.append ⟨#[97]⟩).after ⟨4, none⟩ ⟨b, {}⟩).buffer.loan)[2]? = some 7 ∧
      left.loan = b.loan ∧
      (runs ⟨4, none⟩ [.clear, .appendByte 98] ⟨left, {}⟩).2.buffer.loan = b.loan := by
  intro b left
  have hlent : Reachable b := .fresh (.lent ⟨#[7, 7, 7]⟩ (by decide) rfl)
  have hleft : Reachable left := hlent.step ⟨4, none⟩ {} (.append ⟨#[97, 98, 99]⟩)
  have hspared := ((reachable_loan.2.1 b hlent ⟨4, none⟩ {}).1 (.append ⟨#[97]⟩) rfl).2.1 2
    fun hi => absurd hi.2.2 (by decide)
  have hkept := ((reachable_loan.2.1 b hlent ⟨4, none⟩ {}).1 (.append ⟨#[97, 98, 99]⟩) rfl).2.2.1
    (by decide +kernel)
  have hlater := (reachable_loan.2.1 left hleft ⟨4, none⟩ {}).2.2 (by decide +kernel)
    [.clear, .appendByte 98]
  exact ⟨hspared, hkept, hlater.trans hkept⟩

end GrowBuffer.Buffer
