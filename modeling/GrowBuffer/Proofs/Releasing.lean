import GrowBuffer.Proofs.Cutting

/-! # Handing the content out

Whatever the store holds behind the content, the terminator is put there before the content
is shown, so what is shown is the content and one NUL. Starting over keeps the shown bytes
and leaves the empty content; giving the content away leaves a new buffer.
-/

namespace GrowBuffer.Buffer
open Bytes Memory

/-- The buffer with a terminator behind its content. -/
def terminated (b : Buffer) : Buffer :=
  if b.isInline then b else b.overwrite b.length terminator

section Terminated

variable {b : Buffer} (h : b.WellFormed)
include h

theorem wellFormed_terminated : b.terminated.WellFormed := by
  unfold terminated
  split
  · exact h
  · exact h.overwrite h.length_lt fun _ _ _ => rfl

theorem sameShape_terminated : SameShape b b.terminated := by
  unfold terminated
  split
  · exact SameShape.refl b
  · exact SameShape.overwrite h.length_lt

theorem content_terminated : toList b.terminated.content = toList b.content := by
  unfold terminated
  split
  · rfl
  · exact content_overwrite h (Nat.le_refl _) fun _ => .inr ⟨[], rfl⟩

theorem store_terminated :
    ∃ rest, toList b.terminated.store = toList b.content ++ [0] ++ rest := by
  obtain ⟨rest, hstore, -, hrest⟩ := h.split
  unfold terminated
  split
  · rename_i hi
    obtain ⟨-, r, rfl⟩ := hrest hi
    exact ⟨r, by rw [hstore, List.append_assoc]; rfl⟩
  · refine ⟨rest.drop 1, ?_⟩
    rw [store_overwrite, ← h.length_content, toList_overwrite_of_split hstore]
    rfl

end Terminated

/-- The content and its terminator, as bytes. -/
def shown (b : Buffer) : ByteArray := ofList (toList b.content ++ [0])

theorem slice_shown {s : State} {b : Buffer} (h : b.WellFormed) (hs : s.buffer = b.terminated) :
    slice 0 (b.length + 1) s = .ok b.shown s := by
  obtain ⟨rest, hstore⟩ := store_terminated h
  have hsize := (sameShape_terminated h).store
  have hlt := h.length_lt
  rw [slice_run (Nat.zero_le _) (by rw [hs, hsize]; omega), hs]
  congr 1
  rw [shown, eq_ofList_iff, toList_extract, hstore, List.drop_zero]
  have hl : b.length + 1 = (toList b.content ++ [0]).length := by
    rw [List.length_append, h.length_content]
    rfl
  rw [hl, List.take_left]

theorem terminate_run {s : State} (h : s.buffer.WellFormed) :
    terminate s = .ok s.buffer.shown { s with buffer := s.buffer.terminated } := by
  have hshown := slice_shown (s := { s with buffer := s.buffer.terminated }) h rfl
  rw [terminate, Action.bind_ok (current_run s), ← hshown]
  unfold terminated
  split
  · rfl
  · rw [Action.bind_ok (write_run h.length_lt)]

/-- The buffer as it starts over; an inline text is moved one byte on. -/
def restarted (b : Buffer) : Buffer :=
  if b.isInline then (b.overwrite 1 b.shown).overwrite 0 terminator
  else (b.setLength 0).overwrite b.length terminator

theorem size_shown {b : Buffer} (h : b.WellFormed) : b.shown.size = b.length + 1 := by
  rw [shown, size_ofList, List.length_append, h.length_content]
  rfl

section Restarted

variable {b : Buffer} (h : b.WellFormed) (hr : b.isInline = true → 0 < b.room)
include h hr

theorem shown_fits (hi : b.isInline = true) : 1 + b.shown.size ≤ b.store.size := by
  have := h.length_add_room
  have := hr hi
  rw [size_shown h]
  omega

theorem wellFormed_restarted : b.restarted.WellFormed := by
  unfold restarted
  split
  · rename_i hi
    have hfits := shown_fits h hr hi
    have hmoved : (b.overwrite 1 b.shown).WellFormed := by
      apply h.overwrite hfits
      intro _ _ _
      rw [size_shown h, Nat.add_sub_cancel, shown, toList_ofList, ← h.length_content,
        List.getElem?_concat_length]
    refine hmoved.overwrite ?_ fun _ _ _ => rfl
    exact hmoved.store_pos
  · rename_i hi
    have hzero : (b.setLength 0).WellFormed := h.setLength h.store_pos
    refine hzero.overwrite ?_ fun _ _ _ => rfl
    rw [store_setLength]
    exact h.length_lt

theorem sameShape_restarted : SameShape b b.restarted := by
  unfold restarted
  split
  · rename_i hi
    have hmoved := SameShape.overwrite (b := b) (shown_fits h hr hi)
    refine hmoved.trans (SameShape.overwrite ?_)
    rw [hmoved.store]
    exact h.store_pos
  · refine (SameShape.setLength b 0).trans (SameShape.overwrite ?_)
    rw [store_setLength]
    exact h.length_lt

theorem content_restarted : toList b.restarted.content = [] := by
  have hw := wellFormed_restarted h hr
  apply hw.content_eq_nil
  unfold restarted
  split
  · rename_i hi
    have hnew : toList ((b.overwrite 1 b.shown).overwrite 0 terminator).store =
        [] ++ 0 :: (toList (b.overwrite 1 b.shown).store).drop 1 := by
      rw [store_overwrite]
      exact toList_overwrite_of_split (p := []) rfl
    exact length_of_split (by rwa [isInline_overwrite, isInline_overwrite]) hnew (by simp)
  · rename_i hi
    rw [length_overwrite (by simpa using hi), length_setLength (by simpa using hi)]

end Restarted

theorem store_restarted {b : Buffer} (h : b.WellFormed) (hr : b.isInline = true → 0 < b.room) :
    ∃ rest, toList b.restarted.store =
      (if b.isInline then [0] else []) ++ toList b.content ++ [0] ++ rest := by
  obtain ⟨rest, hstore, -, -⟩ := h.split
  unfold restarted
  split
  · rename_i hi
    have hfits := shown_fits h hr hi
    have hone : ((toList b.store).take 1).length = 1 := by
      rw [List.length_take, length_toList]
      omega
    have hmoved : toList (b.overwrite 1 b.shown).store =
        (toList b.store).take 1 ++ (toList b.content ++ [0]) ++
          (toList b.store).drop (1 + b.shown.size) := by
      rw [store_overwrite, toList_overwrite]
      rfl
    obtain ⟨c, hc⟩ := List.length_eq_one_iff.mp hone
    rw [hc, List.append_assoc] at hmoved
    refine ⟨(toList b.store).drop (1 + b.shown.size), ?_⟩
    have hfinal := toList_overwrite_of_split (p := []) (w := terminator) hmoved
    rw [store_overwrite]
    apply hfinal.trans
    simp
  · refine ⟨rest.drop 1, ?_⟩
    rw [store_overwrite, store_setLength, ← h.length_content, toList_overwrite_of_split hstore]
    rfl

theorem restart_run {s : State} (h : s.buffer.WellFormed)
    (hr : s.buffer.isInline = true → 0 < s.buffer.room) :
    restart s = .ok s.buffer.content { s with buffer := s.buffer.restarted } := by
  obtain ⟨rest, hstore⟩ := store_restarted h hr
  have hshape := sameShape_restarted h hr
  have hlen := h.length_content
  have hlt := h.length_lt
  rw [restart, Action.bind_ok (current_run s)]
  unfold restarted at hstore hshape ⊢
  split
  · rename_i hi
    have hfits := shown_fits h hr hi
    have hsize := size_overwrite hfits
    rw [if_pos hi] at hshape
    rw [if_pos hi, if_pos hi, List.append_assoc, List.append_assoc] at hstore
    have hshown := slice_shown (s := s) h (by rw [terminated, if_pos hi])
    rw [Action.bind_ok hshown, Action.bind_ok (write_run hfits)]
    have hzero : write 0 terminator { s with buffer := s.buffer.overwrite 1 s.buffer.shown } =
        .ok ()
          { s with buffer := (s.buffer.overwrite 1 s.buffer.shown).overwrite 0 terminator } := by
      apply write_run
      rw [store_overwrite, hsize]
      exact h.store_pos
    have hback : ((s.buffer.overwrite 1 s.buffer.shown).overwrite 0 terminator).store.extract 1
        (s.buffer.length + 1) = s.buffer.content := by
      apply ext_toList
      rw [toList_extract, hstore, List.singleton_append, List.take_succ_cons,
        List.drop_succ_cons, List.drop_zero, ← hlen, List.take_left]
    rw [Action.bind_ok hzero, slice_run (by omega) (by rw [hshape.store]; omega), hback]
  · rename_i hi
    rw [if_neg hi] at hshape
    rw [if_neg hi, if_neg hi, List.nil_append] at hstore
    have hput : write s.buffer.length terminator { s with buffer := s.buffer.setLength 0 } =
        .ok ()
          { s with buffer := (s.buffer.setLength 0).overwrite s.buffer.length terminator } := by
      apply write_run
      rw [store_setLength]
      exact hlt
    have hback : ((s.buffer.setLength 0).overwrite s.buffer.length terminator).store.extract 0
        s.buffer.length = s.buffer.content := by
      apply ext_toList
      rw [toList_extract, List.drop_zero, hstore, ← hlen, List.append_assoc, List.take_left]
    rw [Action.bind_ok (putLength_run 0 s), Action.bind_ok hput,
      slice_run (Nat.zero_le _) (by rw [hshape.store]; omega), hback]

theorem padded_content {b : Buffer} (h : b.WellFormed) :
    padded (toList b.content) (b.length + 1) = b.shown := by
  rw [padded, shown, h.length_content, Nat.add_sub_cancel_left]
  rfl

section Detach

variable {cfg : Config} {s : State}

theorem detachBytes_heap {block loan : ByteArray} {n : Nat} {l : Ledger} (h : n < block.size) :
    detachBytes cfg ⟨⟨.heap block n, loan⟩, l⟩ =
      .ok (shown ⟨.heap block n, loan⟩) ⟨⟨.empty, loan⟩, l⟩ := by
  have hw : (⟨.heap block n, loan⟩ : Buffer).WellFormed := h
  have hput : write n terminator ⟨⟨.heap block n, loan⟩, l⟩ = _ := write_run h
  have hshown := slice_shown
    (s := ⟨terminated ⟨.heap block n, loan⟩, l⟩) hw rfl
  rw [detachBytes, Action.bind_ok (current_run _)]
  simp only
  rw [Action.bind_ok hput]
  exact (Action.bind_ok hshown).trans rfl

theorem detachBytes_copy (h : s.buffer.WellFormed) (hb : s.buffer.location ≠ .heap)
    (hl : s.buffer.length + 1 < Word.limit) :
    detachBytes cfg s =
      match approve cfg (s.buffer.length + 1) with
      | .error why => .error (.refused why) { s with buffer := s.buffer.vacated }
      | .ok _ =>
        .ok s.buffer.shown ⟨s.buffer.vacated, s.ledger.enterFresh (s.buffer.length + 1)⟩ := by
  have hsize := h.size_content
  have hcopy : onLedger (allocateCopy cfg s.buffer.content (s.buffer.content.size + 1))
      { s with buffer := s.buffer.vacated } = _ :=
    onLedger_requested (allocateCopy_run (by omega) (by omega) (by omega))
  rw [hsize, padded_content h] at hcopy
  rw [detachBytes, Action.bind_ok (current_run s)]
  rcases s with ⟨⟨_ | _ | _, loan⟩, l⟩
  · simp only
    rw [Action.bind_ok (slice_content h), Action.bind_ok (vacate_run _), hsize]
    exact hcopy
  · exact absurd rfl hb
  · simp only
    rw [Action.bind_ok (slice_content h), Action.bind_ok (vacate_run _), hsize]
    exact hcopy

theorem detach_run (h : s.buffer.WellFormed) (hl : s.buffer.length + 1 < Word.limit) :
    detach cfg s =
      if s.buffer.location = .heap then
        .ok ⟨s.buffer.shown⟩ { s with buffer := s.buffer.vacated }
      else
        match approve cfg (s.buffer.length + 1) with
        | .error why => .error (.refused why) { s with buffer := s.buffer.vacated }
        | .ok _ =>
          .ok ⟨s.buffer.shown⟩ ⟨s.buffer.vacated, s.ledger.enterFresh (s.buffer.length + 1)⟩ := by
  have hterm : Detached.ofTerminated? s.buffer.shown = some ⟨s.buffer.shown⟩ := by
    rw [Detached.ofTerminated?, if_pos]
    rw [shown, toList_ofList, List.getLast?_concat]
  unfold detach
  split
  · rename_i hb
    rcases s with ⟨⟨_ | ⟨block, n⟩ | _, loan⟩, l⟩
    · cases hb
    · rw [Action.bind_ok (detachBytes_heap h), hterm]
      rfl
    · cases hb
  · rename_i hb
    have hcopy : detachBytes cfg s = _ := detachBytes_copy h hb hl
    cases ha : approve cfg (s.buffer.length + 1) with
    | error why =>
      rw [ha] at hcopy
      rw [Action.bind_error hcopy]
    | ok u =>
      rw [ha] at hcopy
      rw [Action.bind_ok hcopy, hterm]
      rfl

theorem detach_ends (h : s.buffer.WellFormed) (hl : s.buffer.length + 1 < Word.limit) :
    Ends s (fun d t => d = ⟨s.buffer.shown⟩ ∧ t.buffer = s.buffer.vacated ∧
      t.ledger = if s.buffer.location = .heap then s.ledger
        else s.ledger.enterFresh (s.buffer.length + 1)) (detach cfg s) := by
  rw [detach_run h hl]
  split
  · exact .finished ⟨rfl, rfl, rfl⟩
  · cases ha : approve cfg (s.buffer.length + 1) with
    | error why => exact .unsupplied (not_isOverflow_of_approve ha) s.ledger
    | ok u => exact .finished ⟨rfl, rfl, rfl⟩

end Detach
end GrowBuffer.Buffer
