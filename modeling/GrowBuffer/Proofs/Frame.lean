import GrowBuffer.Proofs.Operations

/-! # Which lent bytes an edit may touch

An edit of the store writes at some places of it. On lent memory every other byte is as it
was, and where the store is the buffer's own the lent memory is as it was altogether.
-/

namespace GrowBuffer.Buffer
open Bytes Format Memory

theorem location_ne_lent {b : Buffer} (hi : b.isInline = true) : b.location ≠ .lent := by
  intro hb
  rw [isInline, hb] at hi
  cases hi

/-- An edit in place, which leaves lent memory as it is outside of `p`. -/
structure WritesAt (p : Nat → Prop) (b c : Buffer) : Prop where
  location : c.location = b.location
  size : c.loan.size = b.loan.size
  spared : ∀ i, ¬ p i → (toList c.loan)[i]? = (toList b.loan)[i]?
  own : b.location ≠ .lent → c.loan = b.loan

namespace WritesAt

variable {p q : Nat → Prop} {b c d : Buffer} {n start : Nat} {w : ByteArray}

theorem refl (p : Nat → Prop) (b : Buffer) : WritesAt p b b :=
  ⟨rfl, rfl, fun _ _ => rfl, fun _ => rfl⟩

theorem trans (h : WritesAt p b c) (k : WritesAt p c d) : WritesAt p b d := by
  refine ⟨k.location.trans h.location, k.size.trans h.size, fun i hi => ?_, fun hb => ?_⟩
  · exact (k.spared i hi).trans (h.spared i hi)
  · rw [← h.location] at hb
    exact (k.own hb).trans (h.own (h.location ▸ hb))

theorem mono (h : WritesAt p b c) (hpq : ∀ i, p i → q i) : WritesAt q b c :=
  ⟨h.location, h.size, fun i hi => h.spared i (mt (hpq i) hi), h.own⟩

theorem setLength (p : Nat → Prop) (b : Buffer) (n : Nat) : WritesAt p b (b.setLength n) := by
  rcases b with ⟨_ | _ | _, _⟩ <;> exact ⟨rfl, rfl, fun _ _ => rfl, fun _ => rfl⟩

theorem overwrite (hw : start + w.size ≤ b.store.size)
    (hp : b.location = .lent → ∀ i, start ≤ i → i < start + w.size → p i) :
    WritesAt p b (b.overwrite start w) := by
  rcases b with ⟨_ | _ | n, loan⟩
  · exact ⟨rfl, rfl, fun _ _ => rfl, fun _ => rfl⟩
  · exact ⟨rfl, rfl, fun _ _ => rfl, fun _ => rfl⟩
  · replace hw : start + w.size ≤ loan.size := hw
    refine ⟨rfl, size_overwrite hw, fun i hi => ?_, fun hb => absurd rfl hb⟩
    show (toList (Bytes.overwrite loan start w))[i]? = (toList loan)[i]?
    rw [getElem?_overwrite (by omega)]
    by_cases hstart : i < start
    · rw [if_pos hstart]
    · rw [if_neg hstart, if_neg fun hstop => hi (hp rfl i (by omega) hstop)]

section Edits

variable (h : b.WellFormed)
include h

theorem placed (hw : w.size ≤ b.room) :
    WritesAt (fun i => b.length ≤ i ∧ i ≤ b.length + w.size) b (b.placed w) := by
  refine (overwrite (place_fits h hw) fun _ i hstart hstop => ?_).trans (setLength _ _ _)
  rw [size_push] at hstop
  omega

theorem bytePlaced {x : UInt8} (hr : 0 < b.room) :
    WritesAt (fun i => i = b.length) b (b.bytePlaced x) := by
  unfold Buffer.bytePlaced
  split
  · rename_i hi
    exact (overwrite (place_fits h (w := ⟨#[x]⟩) hr) fun hb =>
      absurd hb (location_ne_lent hi)).trans (setLength _ _ _)
  · refine (overwrite (byte_fits h hr) fun _ i hstart hstop => ?_).trans (setLength _ _ _)
    have : (⟨#[x]⟩ : ByteArray).size = 1 := rfl
    omega

theorem filled {f : Pass} (hn : n < b.room) :
    WritesAt (fun i => b.length ≤ i ∧ i ≤ b.length + n) b (b.filled f n) := by
  obtain ⟨hsize, hfilled⟩ := windowAfter_bounds (p := f) h hn
  have hwindow : WritesAt (fun i => b.length ≤ i ∧ i ≤ b.length + n) b (b.windowWritten f n) := by
    refine overwrite (Nat.le_of_lt (window_fits h hn)) fun _ i hstart hstop => ?_
    omega
  unfold Buffer.filled
  simp only
  split
  · refine (hwindow.trans (overwrite (stop_lt h hn) ?_)).trans (setLength _ _ _)
    intro _ i hstart hstop
    rw [size_terminator] at hstop
    omega
  · refine hwindow.trans (overwrite (length_lt_windowWritten h hn) ?_)
    intro _ i hstart hstop
    rw [size_terminator] at hstop
    omega

theorem terminated : WritesAt (fun i => i = b.length) b b.terminated := by
  unfold Buffer.terminated
  split
  · exact refl _ b
  · refine overwrite h.length_lt fun _ i hstart hstop => ?_
    rw [size_terminator] at hstop
    omega

theorem restarted (hr : b.isInline = true → 0 < b.room) :
    WritesAt (fun i => i = b.length) b b.restarted := by
  unfold Buffer.restarted
  split
  · rename_i hi
    have hinline := location_ne_lent hi
    have hmoved : WritesAt (fun i => i = b.length) b (b.overwrite 1 b.shown) :=
      overwrite (shown_fits h hr hi) fun hb => absurd hb hinline
    refine hmoved.trans (overwrite ?_ fun hb => absurd (hmoved.location.symm.trans hb) hinline)
    rw [store_overwrite, size_overwrite (shown_fits h hr hi)]
    exact h.store_pos
  · refine (setLength _ b 0).trans (overwrite ?_ fun _ i hstart hstop => ?_)
    · rw [store_setLength]
      exact h.length_lt
    · rw [size_terminator] at hstop
      omega

/-- What would leave the region that may be written is cut off. -/
theorem scribbled (start : Nat) (w : ByteArray) :
    WritesAt (fun i => b.length + start ≤ i ∧ i < b.length + start + w.size ∧ i < b.capacity) b
      (b.scribbled start w) := by
  refine overwrite (Nat.le_of_lt (scribble_fits h)) fun _ i hstart hstop => ?_
  rw [size_extract_zero] at hstop
  have hlength := h.length_le
  have hroom : b.room = b.capacity - b.length := rfl
  omega

omit h in
theorem endedAt (p : Nat → Prop) (hn : n < b.store.size) : WritesAt p b (b.endedAt n) := by
  unfold Buffer.endedAt
  split
  · rename_i hi
    exact overwrite hn fun hb => absurd hb (location_ne_lent hi)
  · exact setLength p b n

end Edits
end WritesAt
end GrowBuffer.Buffer
