import GrowBuffer.Buffer.Append
import GrowBuffer.Proofs.Growth

/-! # Bytes behind the content

Where there is room for them, bytes are placed behind the content by one or two writes that
stay inside the store. The buffer keeps its shape and stays well formed whatever the bytes
are; in an inline store they must not hold a NUL to become content as a whole.
-/

namespace GrowBuffer.Buffer
open Bytes Memory

@[simp] theorem toList_terminator : toList terminator = [0] := rfl

@[simp] theorem size_terminator : terminator.size = 1 := rfl

section Behind

variable {b : Buffer} {start : Nat} {w : ByteArray}

/-- A write at or behind the end of the content keeps it, unless it takes the NUL away
that ends an inline text. -/
theorem content_overwrite (h : b.WellFormed) (hs : b.length ≤ start)
    (hi : b.isInline = true → b.length < start ∨ ∃ r, toList w = 0 :: r) :
    toList (b.overwrite start w).content = toList b.content := by
  obtain ⟨rest, hstore, -, hrest⟩ := h.split
  have hlen := h.length_content
  obtain ⟨k, rfl⟩ := Nat.exists_eq_add_of_le hs
  have hnew : toList (b.overwrite (b.length + k) w).store =
      toList b.content ++
        (rest.take k ++ toList w ++ (toList b.store).drop (b.length + k + w.size)) := by
    rw [store_overwrite, toList_overwrite, hstore, ← hlen, List.take_length_add_append]
    simp only [List.append_assoc]
  by_cases hb : b.isInline = true
  · obtain ⟨hn, r, rfl⟩ := hrest hb
    have hzero : ∃ r', (0 :: r).take k ++ toList w ++
        (toList b.store).drop (b.length + k + w.size) = 0 :: r' := by
      rcases hi hb with hk | ⟨r', hw⟩
      · obtain ⟨j, rfl⟩ : ∃ j, k = j + 1 := ⟨k - 1, by omega⟩
        exact ⟨_, rfl⟩
      · rcases k with _ | k
        · exact ⟨_, by rw [hw]; rfl⟩
        · exact ⟨_, rfl⟩
    obtain ⟨r', hr'⟩ := hzero
    rw [hr'] at hnew
    exact content_of_split hnew (length_of_split (by rwa [isInline_overwrite]) hnew hn)
  · exact content_of_split hnew (by rw [length_overwrite (by simpa using hb), hlen])

end Behind

/-- Bytes and a terminator behind the content. -/
def placed (b : Buffer) (w : ByteArray) : Buffer :=
  (b.overwrite b.length (w.push 0)).setLength (b.length + w.size)

theorem size_push (w : ByteArray) (c : UInt8) : (w.push c).size = w.size + 1 := by
  rw [← length_toList, toList_push, List.length_append, length_toList]
  rfl

section Placed

variable {b : Buffer} {w : ByteArray} (h : b.WellFormed)
include h

theorem store_placed :
    ∃ rest, toList (b.placed w).store = toList b.content ++ toList w ++ 0 :: rest := by
  obtain ⟨rest, hstore, -, -⟩ := h.split
  refine ⟨rest.drop (w.push 0).size, ?_⟩
  rw [placed, store_setLength, store_overwrite, ← h.length_content,
    toList_overwrite_of_split hstore, toList_push]
  simp

theorem content_placed (hn : b.isInline = true → 0 ∉ toList w) :
    toList (b.placed w).content = toList b.content ++ toList w := by
  obtain ⟨rest, hstore, -, hrest⟩ := h.split
  obtain ⟨r, hnew⟩ := store_placed (w := w) h
  rw [placed, store_setLength] at hnew
  have hl : b.length + w.size = (toList b.content ++ toList w).length := by
    rw [List.length_append, h.length_content, length_toList]
  rw [placed, hl]
  refine content_setLength hnew fun hi => ⟨?_, _, rfl⟩
  rw [isInline_overwrite] at hi
  rw [List.mem_append, not_or]
  exact ⟨(hrest hi).1, hn hi⟩

variable (hw : w.size ≤ b.room)
include hw

theorem place_fits : b.length + (w.push 0).size ≤ b.store.size := by
  have := h.length_add_room
  rw [size_push]
  omega

theorem wellFormed_placed : (b.placed w).WellFormed := by
  have hfits := place_fits h hw
  rw [size_push] at hfits
  refine (h.overwrite (place_fits h hw) ?_).setLength ?_
  · intro _ _ _
    rw [toList_push, size_push, Nat.add_sub_cancel, ← length_toList w, List.getElem?_concat_length]
  · rw [store_overwrite, size_overwrite (place_fits h hw)]
    omega

theorem sameShape_placed : SameShape b (b.placed w) :=
  (SameShape.overwrite (place_fits h hw)).trans (SameShape.setLength _ _)

end Placed

theorem place_run {s : State} {w : ByteArray} (h : s.buffer.WellFormed)
    (hw : w.size ≤ s.buffer.room) :
    place w s = .ok w.size { s with buffer := s.buffer.placed w } := by
  rw [place, Action.bind_ok (current_run s), Action.bind_ok (write_run (place_fits h hw))]
  rfl

/-- One byte behind the content; only an inline buffer is terminated by it. -/
def bytePlaced (b : Buffer) (c : UInt8) : Buffer :=
  if b.isInline then b.placed ⟨#[c]⟩
  else (b.overwrite b.length ⟨#[c]⟩).setLength (b.length + 1)

section BytePlaced

variable {b : Buffer} {c : UInt8} (h : b.WellFormed)
include h

theorem content_bytePlaced (hc : b.isInline = true → c ≠ 0) :
    toList (b.bytePlaced c).content = toList b.content ++ [c] := by
  unfold bytePlaced
  split
  · rename_i hi
    exact content_placed h fun _ => by simpa [eq_comm] using hc hi
  · rename_i hi
    obtain ⟨rest, hstore, -, -⟩ := h.split
    have hnew : toList (b.overwrite b.length ⟨#[c]⟩).store =
        (toList b.content ++ [c]) ++ rest.drop (⟨#[c]⟩ : ByteArray).size := by
      rw [store_overwrite, ← h.length_content, toList_overwrite_of_split hstore]
      rfl
    have hl : b.length + 1 = (toList b.content ++ [c]).length := by
      rw [List.length_append, h.length_content]
      rfl
    rw [hl]
    exact content_setLength hnew fun hi' => absurd (isInline_overwrite b _ _ ▸ hi') hi

variable (hr : 0 < b.room)
include hr

theorem byte_fits : b.length + (⟨#[c]⟩ : ByteArray).size ≤ b.store.size := by
  have := h.length_add_room
  have : (⟨#[c]⟩ : ByteArray).size = 1 := rfl
  omega

theorem wellFormed_bytePlaced : (b.bytePlaced c).WellFormed := by
  unfold bytePlaced
  split
  · exact wellFormed_placed h hr
  · rename_i hi
    apply (h.overwrite (byte_fits h hr) fun hi' => absurd hi' hi).setLength
    rw [store_overwrite, size_overwrite (byte_fits h hr)]
    have := h.length_add_room
    omega

theorem sameShape_bytePlaced : SameShape b (b.bytePlaced c) := by
  unfold bytePlaced
  split
  · exact sameShape_placed h hr
  · exact (SameShape.overwrite (byte_fits h hr)).trans (SameShape.setLength _ _)

end BytePlaced

theorem placeByte_run {s : State} {c : UInt8} (h : s.buffer.WellFormed)
    (hr : 0 < s.buffer.room) :
    placeByte c s = .ok () { s with buffer := s.buffer.bytePlaced c } := by
  unfold placeByte bytePlaced
  rw [Action.bind_ok (current_run s)]
  split
  · rename_i hi
    rw [placed, setLength_inline (by rwa [isInline_overwrite])]
    exact write_run (place_fits (w := ⟨#[c]⟩) h hr)
  · rw [Action.bind_ok (write_run (byte_fits h hr))]
    rfl

end GrowBuffer.Buffer
