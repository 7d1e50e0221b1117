import GrowBuffer.Proofs.InPlace
import GrowBuffer.Proofs.Runs

/-! # Writing into the spare region without committing

What a buffer shows is decided by its place, its size and its content. Bytes that are written
behind a length that is kept do not show before they are committed. An inline length is looked
for in the store: a write behind its NUL does not show, but one that covers it is taken for
content at once, with everything up to the next NUL.
-/

namespace GrowBuffer.Buffer
open Bytes Memory

/-- The operations that give the content, or a part of it, out of the buffer. -/
def Op.shows : Op → Bool
  | pop | terminate | rewind | detach => true
  | _ => false

/-- Nothing that the buffer `c` shows tells it from `b`. -/
structure Unseen (b c : Buffer) : Prop where
  length : c.length = b.length
  isEmpty : c.isEmpty = b.isEmpty
  content : c.content = b.content
  outcome : ∀ cfg l (op : Op), op.shows = true →
    outcomeOf (op.run cfg ⟨c, l⟩) = outcomeOf (op.run cfg ⟨b, l⟩)

section Outcomes

variable {cfg : Config} {s : State} (h : s.buffer.WellFormed)
include h

theorem outcome_pop : outcomeOf (pop s) = .ok (toList s.buffer.content).getLast? := by
  rw [pop_run h]
  rfl

theorem outcome_terminate : outcomeOf (terminate s) = .ok s.buffer.shown := by
  rw [terminate_run h]
  rfl

theorem outcome_grow {extra : Nat} (hx : 0 < extra) :
    outcomeOf (grow cfg extra s) =
      match targetCapacity cfg s.buffer.capacity extra with
      | .error why => .error (.refused why)
      | .ok target =>
        match approve cfg (target + 1) with
        | .error why => .error (.refused why)
        | .ok _ => .ok () := by
  rw [grow_run h hx]
  cases targetCapacity cfg s.buffer.capacity extra with
  | error why => rfl
  | ok target =>
    simp only
    cases approve cfg (target + 1) <;> rfl

theorem outcome_rewind :
    outcomeOf (rewind cfg s) =
      if s.buffer.isInline = true ∧ s.buffer.room = 0 then
        (outcomeOf (grow cfg 1 s)).map fun _ => s.buffer.content
      else .ok s.buffer.content := by
  by_cases hfull : s.buffer.isInline = true ∧ s.buffer.room = 0
  · have hends : Ends s _ (grow cfg 1 s) := grow_widens h Nat.zero_lt_one
    rw [if_pos hfull, rewind_of_full h hfull.1 hfull.2]
    generalize hgrow : grow cfg 1 s = r at hends
    cases hends with
    | uncountable hwhy =>
      rw [Action.bind_error hgrow]
      rfl
    | unsupplied hwhy l =>
      rw [Action.bind_error hgrow]
      rfl
    | @finished _ t ht =>
      obtain ⟨hwide, -, -, -, hout⟩ := ht
      have hsame : t.buffer.content = s.buffer.content := ext_toList (hwide.content h)
      have hrestart := restart_run (hwide.wellFormed h) fun hi => absurd hi (by simp [hout])
      rw [Action.bind_ok hgrow]
      show outcomeOf (restart t) = _
      rw [hrestart, hsame]
      rfl
  · rw [if_neg hfull, rewind_in_place h]
    · rfl
    · intro hi
      exact Nat.pos_of_ne_zero fun hroom => hfull ⟨hi, hroom⟩

theorem outcome_detach (hl : s.buffer.length + 1 < Word.limit) :
    outcomeOf (detach cfg s) =
      if s.buffer.location = .heap then .ok ⟨s.buffer.shown⟩
      else
        match approve cfg (s.buffer.length + 1) with
        | .error why => .error (.refused why)
        | .ok _ => .ok ⟨s.buffer.shown⟩ := by
  rw [detach_run h hl]
  split
  · rfl
  · cases approve cfg (s.buffer.length + 1) <;> rfl

end Outcomes

theorem Absorbed.unseen {b c : Buffer} (h : Absorbed b c []) (hb : b.Sound) : Unseen b c := by
  have hw := hb.wellFormed
  have hlist : toList c.content = toList b.content := h.content.trans (List.append_nil _)
  have hlength : c.length = b.length := h.length hw
  have hcontent : c.content = b.content := ext_toList hlist
  have hroom : c.room = b.room := h.room hw
  have hshown : c.shown = b.shown := by rw [shown, hlist, shown]
  refine ⟨hlength, by rw [isEmpty, hlength, isEmpty], hcontent, fun cfg l op hop => ?_⟩
  have hgrow : outcomeOf (grow cfg 1 ⟨c, l⟩) = outcomeOf (grow cfg 1 ⟨b, l⟩) := by
    rw [outcome_grow h.wellFormed Nat.zero_lt_one, outcome_grow hw Nat.zero_lt_one,
      h.shape.capacity]
  cases op with
  | pop =>
    simp only [Op.run, outcomeOf_map]
    rw [outcome_pop h.wellFormed, outcome_pop hw, hlist]
  | terminate =>
    simp only [Op.run, outcomeOf_map]
    rw [outcome_terminate h.wellFormed, outcome_terminate hw, hshown]
  | rewind =>
    simp only [Op.run, outcomeOf_map]
    rw [outcome_rewind h.wellFormed, outcome_rewind hw, hgrow, h.shape.isInline, hroom, hcontent]
  | detach =>
    simp only [Op.run, outcomeOf_map]
    rw [outcome_detach h.wellFormed (hlength.symm ▸ hb.length_lt), outcome_detach hw hb.length_lt,
      h.shape.location, hlength, hshown]
  | _ => cases hop

/-- The write covers the NUL that ends an inline text, with another byte. -/
def Overruns (b : Buffer) (start : Nat) (w : ByteArray) : Prop :=
  b.isInline = true ∧ 0 < b.room ∧ start = 0 ∧ ∃ c r, toList w = c :: r ∧ c ≠ 0

/-- The bytes up to the next NUL from the end of the content on, when `w` is written there. -/
def overrun (b : Buffer) (w : ByteArray) : List UInt8 :=
  ((toList w).take b.room ++
    (toList b.store).drop (b.length + min b.room w.size)).takeWhile (· != 0)

theorem overwrite_of_empty (b : Buffer) (start : Nat) {w : ByteArray} (hw : toList w = []) :
    b.overwrite start w = b := by
  have hsame : ∀ store : ByteArray, Bytes.overwrite store start w = store := by
    intro store
    apply ext_toList
    rw [toList_overwrite, hw, toList_nil_iff.mp hw, List.append_nil, Nat.add_zero,
      List.take_append_drop]
  rcases b with ⟨_ | _ | _, _⟩ <;> simp only [overwrite, hsame]

section Scribbled

variable {b : Buffer} {start : Nat} {w : ByteArray} (h : b.WellFormed)
include h

theorem absorbed_scribbled (hn : ¬ b.Overruns start w) : Absorbed b (b.scribbled start w) [] := by
  have hclipped : toList (w.extract 0 (b.room - min start b.room)) =
      (toList w).take (b.room - min start b.room) := toList_extract_zero _ _
  refine ⟨sameShape_scribbled h, wellFormed_scribbled h, ?_⟩
  rw [List.append_nil]
  by_cases hnil : (toList w).take (b.room - min start b.room) = []
  · rw [scribbled, overwrite_of_empty b _ (hclipped.trans hnil)]
  · rw [List.take_eq_nil_iff, not_or] at hnil
    obtain ⟨hroom, hw⟩ := hnil
    apply content_overwrite h (Nat.le_add_right _ _)
    intro hi
    by_cases hstart : start = 0
    · obtain ⟨c, r, hcr⟩ := List.exists_cons_of_ne_nil hw
      obtain ⟨n, hcount⟩ := Nat.exists_eq_succ_of_ne_zero hroom
      have hzero : c = 0 := by
        by_contra hc
        exact hn ⟨hi, by omega, hstart, c, r, hcr, hc⟩
      exact .inr ⟨r.take n, by rw [hclipped, hcr, hcount, hzero, List.take_succ_cons]⟩
    · exact .inl (by omega)

theorem content_scribbled_of_overruns (ho : b.Overruns start w) :
    toList (b.scribbled start w).content = toList b.content ++ b.overrun w := by
  obtain ⟨hi, -, rfl, -⟩ := ho
  obtain ⟨_, -, hfree⟩ := h.inline_split hi
  have hi' : (b.scribbled 0 w).isInline = true := by rwa [(sameShape_scribbled h).isInline]
  rw [(wellFormed_scribbled h).content_inline hi', store_scribbled_zero,
    takeWhile_append_of_notMem hfree, overrun]

omit h in
theorem overrun_ne_nil (ho : b.Overruns start w) : b.overrun w ≠ [] := by
  obtain ⟨-, hroom, -, c, r, hw, hc⟩ := ho
  obtain ⟨n, hn⟩ := Nat.exists_eq_succ_of_ne_zero (Nat.ne_of_gt hroom)
  have hkept : (c != 0) = true := bne_iff_ne.mpr hc
  rw [overrun, hw, hn, List.take_succ_cons, List.cons_append, List.takeWhile_cons, if_pos hkept]
  exact List.cons_ne_nil _ _

end Scribbled

/-- From any state that operations lead to, a write into the spare region is answered, and it does
not show unless it covers the NUL of an inline text with another byte. If it does, the content goes
on with it up to the next NUL. -/
theorem reachable_writeSpare_unseen_iff {b : Buffer} (h : Reachable b) (cfg : Config) (l : Ledger)
    (start : Nat) (w : ByteArray) :
    ∃ c, (Op.writeSpare start w).run cfg ⟨b, l⟩ = .ok .done ⟨c, l⟩ ∧
      (Unseen b c ↔ ¬ b.Overruns start w) ∧
      (b.Overruns start w →
        toList c.content = toList b.content ++ b.overrun w ∧ b.overrun w ≠ []) := by
  have hw := h.sound.wellFormed
  refine ⟨b.scribbled start w, Action.bind_ok (writeSpare_run hw start w), ⟨?_, ?_⟩, ?_⟩
  · intro hunseen ho
    have hcontent := content_scribbled_of_overruns hw ho
    rw [hunseen.content] at hcontent
    exact overrun_ne_nil ho (List.append_right_eq_self.mp hcontent.symm)
  · exact fun hn => (absorbed_scribbled hw hn).unseen h.sound
  · exact fun ho => ⟨content_scribbled_of_overruns hw ho, overrun_ne_nil ho⟩

theorem reachable_writeSpare_unseen_iff_behind :
    let b := ((Op.append ⟨#[97, 98]⟩).after {} {}).buffer
    ∃ c, (Op.writeSpare 1 ⟨#[99]⟩).run {} ⟨b, {}⟩ = .ok .done ⟨c, {}⟩ ∧ c ≠ b ∧ Unseen b c := by
  intro b
  have hb : Reachable b := .step (.fresh .new) {} {} (.append ⟨#[97, 98]⟩)
  obtain ⟨c, hrun, hiff, -⟩ := reachable_writeSpare_unseen_iff hb {} {} 1 ⟨#[99]⟩
  refine ⟨c, hrun, ?_, hiff.mpr fun ⟨_, _, hstart, _⟩ => absurd hstart (by decide)⟩
  rintro rfl
  have hsame : (stateOf ((Op.writeSpare 1 ⟨#[99]⟩).run {} ⟨b, {}⟩)).buffer = b :=
    congrArg (fun r => (stateOf r).buffer) hrun
  exact absurd hsame (by decide +kernel)

/-- One byte in a new buffer, which is not committed, makes a text of one byte. -/
theorem uncommitted_byte_seen :
    ¬ ∀ b, Reachable b → ∀ cfg l start w c,
      (Op.writeSpare start w).run cfg ⟨b, l⟩ = .ok .done ⟨c, l⟩ → Unseen b c := by
  intro hall
  have hunseen := hall {} (.fresh .new) {} {} 0 ⟨#[97]⟩ (scribbled {} 0 ⟨#[97]⟩) rfl
  exact absurd hunseen.length (by decide +kernel)

end GrowBuffer.Buffer
