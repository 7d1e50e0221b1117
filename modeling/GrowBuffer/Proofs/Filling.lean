import GrowBuffer.Buffer.Print
import GrowBuffer.Proofs.Cutting
import GrowBuffer.Proofs.Sinks

/-! # Writing into free bytes

A formatting pass and a direct write both get the free bytes behind the content as a region
and cannot leave it. The region ends in front of the byte kept for a terminator, so nothing
that is written there endangers the store.
-/

namespace GrowBuffer.Buffer
open Bytes Format Memory

/-- The `n` bytes behind the content after a pass on them, and whether the pass completed. -/
def windowAfter (b : Buffer) (p : Pass) (n : Nat) : Window × Bool :=
  Window.run ⟨b.store.extract b.length (b.length + n), 0⟩ p

/-- The buffer with the window of a pass back in its place. -/
def windowWritten (b : Buffer) (p : Pass) (n : Nat) : Buffer :=
  b.overwrite b.length (b.windowAfter p n).1.bytes

/-- The buffer after a pass on the `n` bytes behind its content. -/
def filled (b : Buffer) (p : Pass) (n : Nat) : Buffer :=
  if (b.windowAfter p n).2 then
    let stop := b.length + (b.windowAfter p n).1.filled
    ((b.windowWritten p n).overwrite stop terminator).setLength stop
  else (b.windowWritten p n).overwrite b.length terminator

theorem windowAfter_of_complete {b : Buffer} {p : Pass} {n : Nat}
    (hp : (b.windowAfter p n).2 = true) :
    (∃ r, toList (b.windowAfter p n).1.bytes = bytesOf p.writes ++ r) ∧
      (b.windowAfter p n).1.filled = (bytesOf p.writes).length := by
  rw [windowAfter, Window.run_eq] at hp ⊢
  have hdone := (Bool.and_eq_true_iff.mp hp).1
  obtain ⟨hbytes, hfilled⟩ := Window.takeWrites_of_done (p := []) rfl rfl hdone
  rw [List.length_nil, Nat.zero_add] at hfilled
  exact ⟨⟨_, hbytes⟩, hfilled⟩

section Filled

variable {b : Buffer} {p : Pass} {n : Nat} (h : b.WellFormed)
include h

theorem content_filled_of_incomplete (hp : (b.windowAfter p n).2 = false) :
    toList (b.filled p n).content = toList b.content := by
  obtain ⟨rest, hstore, -, hrest⟩ := h.split
  have hlen := h.length_content
  have hone := toList_overwrite_of_split (w := (b.windowAfter p n).1.bytes) hstore
  rw [List.append_assoc] at hone
  have htwo := toList_overwrite_of_split (w := terminator) hone
  rw [hlen, List.append_assoc, toList_terminator, List.singleton_append] at htwo
  have hnew : ∃ r, toList (b.filled p n).store = toList b.content ++ 0 :: r := by
    rw [filled, hp, if_neg Bool.false_ne_true, windowWritten, store_overwrite, store_overwrite]
    exact ⟨_, htwo⟩
  obtain ⟨r, hnew⟩ := hnew
  by_cases hi : b.isInline = true
  · have hi' : (b.filled p n).isInline = true := by
      rwa [filled, hp, if_neg Bool.false_ne_true, windowWritten, isInline_overwrite,
        isInline_overwrite]
    exact content_of_split hnew (length_of_split hi' hnew (hrest hi).1)
  · have hi' : b.isInline = false := by simpa using hi
    apply content_of_split hnew
    rw [filled, hp, if_neg Bool.false_ne_true, windowWritten,
      length_overwrite (by rwa [isInline_overwrite]), length_overwrite hi', hlen]

theorem stop_of_complete (hp : (b.windowAfter p n).2 = true) :
    b.length + (b.windowAfter p n).1.filled =
      (toList b.content ++ bytesOf p.writes).length := by
  rw [List.length_append, h.length_content, (windowAfter_of_complete hp).2]

theorem store_filled_of_complete (hp : (b.windowAfter p n).2 = true) :
    ∃ r, toList (b.filled p n).store = toList b.content ++ bytesOf p.writes ++ 0 :: r := by
  obtain ⟨rest, hstore, -, -⟩ := h.split
  obtain ⟨⟨r, hbytes⟩, -⟩ := windowAfter_of_complete hp
  have hone := toList_overwrite_of_split (w := (b.windowAfter p n).1.bytes) hstore
  rw [h.length_content, hbytes, ← List.append_assoc, List.append_assoc] at hone
  have htwo := toList_overwrite_of_split (w := terminator) hone
  rw [toList_terminator, List.append_assoc, List.singleton_append,
    ← stop_of_complete h hp] at htwo
  rw [filled, hp, if_pos rfl]
  simp only
  rw [store_setLength, windowWritten, store_overwrite, store_overwrite]
  exact ⟨_, htwo⟩

theorem content_filled_of_complete (hp : (b.windowAfter p n).2 = true)
    (hz : b.isInline = true → 0 ∉ bytesOf p.writes) :
    toList (b.filled p n).content = toList b.content ++ bytesOf p.writes := by
  obtain ⟨rest, hstore, -, hrest⟩ := h.split
  obtain ⟨r, hnew⟩ := store_filled_of_complete h hp
  rw [filled, hp, if_pos rfl] at hnew ⊢
  simp only [store_setLength, stop_of_complete h hp] at hnew ⊢
  refine content_setLength hnew fun hi => ⟨?_, _, rfl⟩
  rw [windowWritten, isInline_overwrite, isInline_overwrite] at hi
  rw [List.mem_append, not_or]
  exact ⟨(hrest hi).1, hz hi⟩

variable (hn : n < b.room)
include hn

theorem size_region : (b.store.extract b.length (b.length + n)).size = n := by
  have := h.length_add_room
  rw [← length_toList, toList_extract, List.length_drop, List.length_take, length_toList]
  omega

theorem windowAfter_bounds :
    (b.windowAfter p n).1.bytes.size = n ∧ (b.windowAfter p n).1.filled ≤ n := by
  have hsize := size_region h hn
  have := Window.takeWrites_bounds
    (w := ⟨b.store.extract b.length (b.length + n), 0⟩) (Nat.zero_le _) p.writes
  rw [windowAfter, Window.run_eq]
  simpa only [hsize] using this

theorem windowAfter_complete_iff :
    (b.windowAfter p n).2 = true ↔ (bytesOf p.writes).length ≤ n ∧ p.givesUp = false := by
  rw [windowAfter, Window.run_eq, Bool.and_eq_true, Window.takeWrites_done_iff (Nat.zero_le _),
    size_region h hn, Nat.zero_add, Bool.not_eq_true']

theorem window_fits : b.length + (b.windowAfter p n).1.bytes.size < b.store.size := by
  have := h.length_add_room
  rw [(windowAfter_bounds h hn).1]
  omega

theorem wellFormed_windowWritten : (b.windowWritten p n).WellFormed := by
  have hfits := window_fits (p := p) h hn
  exact h.overwrite (Nat.le_of_lt hfits) fun _ hend _ => absurd hend (Nat.ne_of_lt hfits)

theorem sameShape_windowWritten : SameShape b (b.windowWritten p n) :=
  SameShape.overwrite (Nat.le_of_lt (window_fits h hn))

theorem stop_lt :
    b.length + (b.windowAfter p n).1.filled < (b.windowWritten p n).store.size := by
  have := (windowAfter_bounds (p := p) h hn).2
  have := h.length_add_room
  rw [(sameShape_windowWritten h hn).store]
  omega

theorem length_lt_windowWritten : b.length < (b.windowWritten p n).store.size := by
  rw [(sameShape_windowWritten h hn).store]
  exact h.length_lt

theorem wellFormed_filled : (b.filled p n).WellFormed := by
  have hw := wellFormed_windowWritten (p := p) h hn
  have hstop := stop_lt (p := p) h hn
  unfold filled
  simp only
  split
  · have hput := hw.overwrite (w := terminator) hstop fun _ _ _ => rfl
    apply hput.setLength
    rwa [store_overwrite, size_overwrite (w := terminator) hstop]
  · exact hw.overwrite (length_lt_windowWritten h hn) fun _ _ _ => rfl

theorem sameShape_filled : SameShape b (b.filled p n) := by
  have hw := sameShape_windowWritten (p := p) h hn
  unfold filled
  simp only
  split
  · exact (hw.trans (SameShape.overwrite (stop_lt h hn))).trans (SameShape.setLength _ _)
  · exact hw.trans (SameShape.overwrite (length_lt_windowWritten h hn))

end Filled

theorem fill_run {s : State} {p : Pass} {n : Nat} (h : s.buffer.WellFormed)
    (hn : n < s.buffer.room) :
    fill p n s =
      .ok (if (s.buffer.windowAfter p n).2 then some (s.buffer.windowAfter p n).1.filled else none)
        { s with buffer := s.buffer.filled p n } := by
  have := h.length_add_room
  have hwrite : write s.buffer.length (s.buffer.windowAfter p n).1.bytes s =
      .ok () { s with buffer := s.buffer.windowWritten p n } :=
    write_run (Nat.le_of_lt (window_fits (p := p) h hn))
  rw [fill, Action.bind_ok (current_run s), Action.bind_ok (slice_run (by omega) (by omega))]
  show (write _ (s.buffer.windowAfter p n).1.bytes >>= fun _ =>
    if (s.buffer.windowAfter p n).2 = true then _ else _) s = _
  rw [Action.bind_ok hwrite]
  cases hp : (s.buffer.windowAfter p n).2 with
  | true =>
    have hput := write_run (s := { s with buffer := s.buffer.windowWritten p n })
      (w := terminator) (stop_lt (p := p) h hn)
    rw [filled, hp, if_pos rfl, if_pos rfl, if_pos rfl]
    exact (Action.bind_ok hput).trans rfl
  | false =>
    have hput := write_run (s := { s with buffer := s.buffer.windowWritten p n })
      (w := terminator) (length_lt_windowWritten (p := p) h hn)
    rw [filled, hp, if_neg Bool.false_ne_true, if_neg Bool.false_ne_true,
      if_neg Bool.false_ne_true]
    exact (Action.bind_ok hput).trans rfl

/-- The buffer after a direct write into its free bytes, cut off where these end. -/
def scribbled (b : Buffer) (start : Nat) (w : ByteArray) : Buffer :=
  b.overwrite (b.length + min start b.room) (w.extract 0 (b.room - min start b.room))

section Scribbled

variable {b : Buffer} {start : Nat} {w : ByteArray} (h : b.WellFormed)
include h

theorem scribble_fits : b.length + min start b.room +
    (w.extract 0 (b.room - min start b.room)).size < b.store.size := by
  have := h.length_add_room
  rw [size_extract_zero]
  omega

theorem wellFormed_scribbled : (b.scribbled start w).WellFormed :=
  h.overwrite (Nat.le_of_lt (scribble_fits h)) fun _ hend _ =>
    absurd hend (Nat.ne_of_lt (scribble_fits h))

theorem sameShape_scribbled : SameShape b (b.scribbled start w) :=
  SameShape.overwrite (Nat.le_of_lt (scribble_fits h))

omit h in
theorem store_scribbled_zero (b : Buffer) (w : ByteArray) :
    toList (b.scribbled 0 w).store =
      toList b.content ++ ((toList w).take b.room ++
        (toList b.store).drop (b.length + min b.room w.size)) := by
  rw [scribbled, Nat.zero_min, Nat.sub_zero, Nat.add_zero, store_overwrite, toList_overwrite,
    size_extract_zero, toList_extract_zero, toList_content, List.append_assoc]

end Scribbled

/-- The free bytes end where the byte kept for a terminator begins. -/
theorem spare_run {s : State} (h : s.buffer.WellFormed) :
    spare s = .ok (s.buffer.store.extract s.buffer.length s.buffer.capacity) s := by
  have := h.capacity_succ
  rw [spare, Action.bind_ok (current_run s), Action.bind_ok (readCapacity_run h),
    slice_run h.length_le (by omega)]

theorem size_spare {b : Buffer} (h : b.WellFormed) :
    (b.store.extract b.length b.capacity).size = b.room := by
  have := h.capacity_succ
  rw [← length_toList, toList_extract, List.length_drop, List.length_take, length_toList, room]
  omega

theorem writeSpare_run {s : State} (h : s.buffer.WellFormed) (start : Nat) (w : ByteArray) :
    writeSpare start w s = .ok () { s with buffer := s.buffer.scribbled start w } := by
  rw [writeSpare, Action.bind_ok (spare_run h)]
  simp only [size_spare h]
  rw [Action.bind_ok (current_run s)]
  exact write_run (Nat.le_of_lt (scribble_fits h))

end GrowBuffer.Buffer
