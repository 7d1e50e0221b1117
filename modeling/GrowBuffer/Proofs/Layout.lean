import GrowBuffer.Buffer.Storage
import GrowBuffer.Proofs.Bytes

/-! # The layout of a well-formed buffer

A store is its content and at least one byte behind it. In an inline store that byte is
the first NUL, which is what makes the length that is scanned agree with the content.
-/

namespace GrowBuffer.Buffer
open Bytes

/-- The free bytes in front of the one kept for a terminator. -/
def room (b : Buffer) : Nat := b.capacity - b.length

theorem isInline_iff {b : Buffer} : b.isInline = true ↔ ∃ store, b.storage = .inline store := by
  rcases b with ⟨_ | _ | _, _⟩ <;> simp [isInline, location]

@[simp] theorem isInline_overwrite (b : Buffer) (start : Nat) (w : ByteArray) :
    (b.overwrite start w).isInline = b.isInline := by
  simp [isInline]

@[simp] theorem isInline_setLength (b : Buffer) (n : Nat) :
    (b.setLength n).isInline = b.isInline := by
  simp [isInline]

theorem setLength_inline {b : Buffer} (h : b.isInline = true) (n : Nat) : b.setLength n = b := by
  obtain ⟨store, hs⟩ := isInline_iff.mp h
  rcases b with ⟨_ | _ | _, _⟩ <;> simp_all [setLength]

theorem length_setLength {b : Buffer} (h : b.isInline = false) (n : Nat) :
    (b.setLength n).length = n := by
  rcases b with ⟨_ | _ | _, _⟩ <;> simp_all [setLength, length, isInline, location]

theorem length_overwrite {b : Buffer} (h : b.isInline = false) (start : Nat) (w : ByteArray) :
    (b.overwrite start w).length = b.length := by
  rcases b with ⟨_ | _ | _, _⟩ <;> simp_all [overwrite, length, isInline, location]

theorem length_of_split {b : Buffer} (h : b.isInline = true) {p q : List UInt8}
    (hs : toList b.store = p ++ 0 :: q) (hp : 0 ∉ p) : b.length = p.length := by
  obtain ⟨store, hb⟩ := isInline_iff.mp h
  have hstore : b.store = store := by simp [Buffer.store, hb]
  rw [hstore] at hs
  simp [length, hb, inlineLength, firstNul?_of_split hs hp]

theorem capacity_of_inline {b : Buffer} (h : b.isInline = true) :
    b.capacity = inlineSize - 1 := by
  obtain ⟨store, hb⟩ := isInline_iff.mp h
  simp [capacity, hb]

theorem toList_content (b : Buffer) : toList b.content = (toList b.store).take b.length := by
  simp [content, toList_extract]

theorem content_of_split {b : Buffer} {p q : List UInt8} (hs : toList b.store = p ++ q)
    (hl : b.length = p.length) : toList b.content = p := by
  rw [toList_content, hs, hl, List.take_left]

theorem content_setLength {b : Buffer} {p q : List UInt8} (hs : toList b.store = p ++ q)
    (hi : b.isInline = true → 0 ∉ p ∧ ∃ r, q = 0 :: r) :
    toList (b.setLength p.length).content = p := by
  apply content_of_split (q := q) (by rw [store_setLength, hs])
  by_cases h : b.isInline = true
  · obtain ⟨hp, r, rfl⟩ := hi h
    rw [setLength_inline h, length_of_split h hs hp]
  · rw [length_setLength (by simpa using h)]

namespace WellFormed

variable {b : Buffer}

theorem inline_size (h : b.WellFormed) (hi : b.isInline = true) : b.store.size = inlineSize := by
  obtain ⟨store, hb⟩ := isInline_iff.mp hi
  simp only [WellFormed, hb] at h
  simpa [Buffer.store, hb] using h.1

theorem inline_last (h : b.WellFormed) (hi : b.isInline = true) :
    (toList b.store)[inlineSize - 1]? = some 0 := by
  obtain ⟨store, hb⟩ := isInline_iff.mp hi
  simp only [WellFormed, hb] at h
  simpa [Buffer.store, hb] using h.2

/-- An inline store is its content, a NUL and whatever is left behind that. -/
theorem inline_split (h : b.WellFormed) (hi : b.isInline = true) :
    ∃ rest, toList b.store = toList b.content ++ 0 :: rest ∧ 0 ∉ toList b.content := by
  obtain ⟨p, q, hs, hp⟩ := exists_split_of_nul (List.mem_of_getElem? (h.inline_last hi))
  have hc : toList b.content = p := content_of_split hs (length_of_split hi hs hp)
  exact ⟨q, by rw [hc, hs], by rwa [hc]⟩

theorem content_inline (h : b.WellFormed) (hi : b.isInline = true) :
    toList b.content = (toList b.store).takeWhile (· != 0) := by
  obtain ⟨rest, hs, hn⟩ := h.inline_split hi
  rw [hs, takeWhile_append_of_notMem hn]
  exact (List.append_nil _).symm

theorem length_lt (h : b.WellFormed) : b.length < b.store.size := by
  by_cases hi : b.isInline = true
  · obtain ⟨p, q, hs, hp⟩ := exists_split_of_nul (List.mem_of_getElem? (h.inline_last hi))
    have hl := congrArg List.length hs
    simp only [length_toList, List.length_append, List.length_cons] at hl
    rw [length_of_split hi hs hp]
    omega
  · rcases b with ⟨_ | _ | _, _⟩
    · simp [isInline, location] at hi
    · exact h
    · exact h

theorem store_pos (h : b.WellFormed) : 0 < b.store.size := Nat.zero_lt_of_lt h.length_lt

theorem capacity_succ (h : b.WellFormed) : b.capacity + 1 = b.store.size := by
  have hp := h.store_pos
  by_cases hi : b.isInline = true
  · rw [capacity_of_inline hi, h.inline_size hi]
    rfl
  · rcases b with ⟨_ | _ | _, _⟩
    · simp [isInline, location] at hi
    · exact Nat.sub_add_cancel hp
    · exact Nat.sub_add_cancel hp

theorem length_le (h : b.WellFormed) : b.length ≤ b.capacity := by
  have := h.length_lt
  have := h.capacity_succ
  omega

theorem length_add_room (h : b.WellFormed) : b.length + b.room + 1 = b.store.size := by
  have := h.length_le
  have := h.capacity_succ
  simp only [room]
  omega

theorem length_content (h : b.WellFormed) : (toList b.content).length = b.length := by
  have := h.length_lt
  rw [toList_content, List.length_take, length_toList]
  omega

theorem content_eq_nil (h : b.WellFormed) (hz : b.length = 0) : toList b.content = [] :=
  List.length_eq_zero_iff.mp (h.length_content.trans hz)

theorem size_content (h : b.WellFormed) : b.content.size = b.length := by
  rw [← length_toList, h.length_content]

/-- Behind the content are the room and the byte kept for a terminator. -/
theorem split (h : b.WellFormed) :
    ∃ rest, toList b.store = toList b.content ++ rest ∧ rest.length = b.room + 1 ∧
      (b.isInline = true → 0 ∉ toList b.content ∧ ∃ r, rest = 0 :: r) := by
  have hc := h.length_content
  have hsum := h.length_add_room
  have hs : ∃ rest, toList b.store = toList b.content ++ rest ∧
      (b.isInline = true → 0 ∉ toList b.content ∧ ∃ r, rest = 0 :: r) := by
    by_cases hi : b.isInline = true
    · obtain ⟨rest, hs, hn⟩ := h.inline_split hi
      exact ⟨0 :: rest, hs, fun _ => ⟨hn, rest, rfl⟩⟩
    · refine ⟨(toList b.store).drop b.length, ?_, fun hi' => absurd hi' hi⟩
      rw [toList_content, List.take_append_drop]
  obtain ⟨rest, hs, hi⟩ := hs
  have hl := congrArg List.length hs
  rw [length_toList, List.length_append] at hl
  exact ⟨rest, hs, by omega, hi⟩

/-- Writes that keep the last byte of an inline store zero keep the buffer well formed. -/
theorem overwrite (h : b.WellFormed) {start : Nat} {w : ByteArray}
    (hw : start + w.size ≤ b.store.size)
    (hz : b.isInline = true → start + w.size = b.store.size → 0 < w.size →
      (toList w)[w.size - 1]? = some 0) : (b.overwrite start w).WellFormed := by
  rcases b with ⟨store | ⟨block, n⟩ | n, loan⟩
  · have hsize : store.size = inlineSize := h.1
    replace hw : start + w.size ≤ store.size := hw
    refine ⟨by rw [size_overwrite hw, hsize], ?_⟩
    rw [getElem?_overwrite (by omega)]
    split
    · exact h.2
    · split
      · have hend : start + w.size = store.size := by omega
        have hlast : inlineSize - 1 - start = w.size - 1 := by omega
        rw [hlast]
        exact hz rfl hend (by omega)
      · exact h.2
  · have hsize : (Bytes.overwrite block start w).size = block.size := size_overwrite hw
    exact Nat.lt_of_lt_of_eq h hsize.symm
  · have hsize : (Bytes.overwrite loan start w).size = loan.size := size_overwrite hw
    exact Nat.lt_of_lt_of_eq h hsize.symm

theorem setLength (h : b.WellFormed) {n : Nat} (hn : n < b.store.size) :
    (b.setLength n).WellFormed := by
  rcases b with ⟨store | ⟨block, m⟩ | m, loan⟩
  · exact h
  · exact hn
  · exact hn

end WellFormed

/-- The same place, and as many bytes of store and of loan. -/
structure SameShape (b c : Buffer) : Prop where
  location : c.location = b.location
  store : c.store.size = b.store.size
  loan : c.loan.size = b.loan.size

namespace SameShape

variable {b c d : Buffer}

theorem refl (b : Buffer) : SameShape b b := ⟨rfl, rfl, rfl⟩

theorem trans (h : SameShape b c) (k : SameShape c d) : SameShape b d :=
  ⟨k.location.trans h.location, k.store.trans h.store, k.loan.trans h.loan⟩

theorem isInline (h : SameShape b c) : c.isInline = b.isInline := by
  simp [Buffer.isInline, h.location]

theorem capacity (h : SameShape b c) : c.capacity = b.capacity := by
  obtain ⟨hl, hs, ho⟩ := h
  rcases b with ⟨_ | _ | _, _⟩ <;> rcases c with ⟨_ | _ | _, _⟩ <;>
    simp_all [Buffer.location, Buffer.store, Buffer.capacity]

theorem setLength (b : Buffer) (n : Nat) : SameShape b (b.setLength n) := by
  rcases b with ⟨_ | _ | _, _⟩ <;> exact ⟨rfl, rfl, rfl⟩

theorem overwrite {start : Nat} {w : ByteArray} (hw : start + w.size ≤ b.store.size) :
    SameShape b (b.overwrite start w) := by
  refine ⟨location_overwrite b start w, ?_, ?_⟩
  · rw [store_overwrite, size_overwrite hw]
  · rcases b with ⟨_ | _ | _, _⟩
    · rfl
    · rfl
    · exact size_overwrite hw

end SameShape
end GrowBuffer.Buffer
