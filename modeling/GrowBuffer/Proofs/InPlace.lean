import GrowBuffer.Proofs.Operations

/-! # Operations that find room

Where the bytes of an operation and their terminator fit, and no NUL has to be kept out of an
inline text, the operation makes no request: it is not refused, the buffer keeps its shape
and the ledger is as it was.
-/

namespace GrowBuffer.Buffer
open Bytes Format Memory

/-- A text of these bytes can be placed without growth. -/
def Fits (b : Buffer) (w : List UInt8) : Prop :=
  w.length ≤ b.room ∧ (b.isInline = true → 0 ∉ w)

instance (b : Buffer) (w : List UInt8) : Decidable (b.Fits w) :=
  inferInstanceAs (Decidable (w.length ≤ b.room ∧ (b.isInline = true → 0 ∉ w)))

theorem Fits.left {b : Buffer} {w r : List UInt8} (h : b.Fits (w ++ r)) : b.Fits w := by
  refine ⟨?_, fun hi hz => h.2 hi (List.mem_append_left r hz)⟩
  have hlen := h.1
  rw [List.length_append] at hlen
  omega

/-- `c` is `b` with `w` taken in behind its content, in the same place. -/
structure Absorbed (b c : Buffer) (w : List UInt8) : Prop where
  shape : SameShape b c
  wellFormed : c.WellFormed
  content : toList c.content = toList b.content ++ w

namespace Absorbed

variable {b c d : Buffer} {w r : List UInt8}

theorem refl (h : b.WellFormed) : Absorbed b b [] :=
  ⟨.refl b, h, (List.append_nil _).symm⟩

theorem trans (h : Absorbed b c w) (k : Absorbed c d r) : Absorbed b d (w ++ r) := by
  refine ⟨h.shape.trans k.shape, k.wellFormed, ?_⟩
  rw [k.content, h.content, List.append_assoc]

theorem length (h : Absorbed b c w) (hb : b.WellFormed) : c.length = b.length + w.length := by
  rw [← h.wellFormed.length_content, h.content, List.length_append, hb.length_content]

theorem room (h : Absorbed b c w) (hb : b.WellFormed) : c.room = b.room - w.length := by
  simp only [Buffer.room, h.shape.capacity, h.length hb, Nat.sub_add_eq]

theorem fits (h : Absorbed b c w) (hb : b.WellFormed) (hf : b.Fits (w ++ r)) : c.Fits r := by
  obtain ⟨hr, hn⟩ := hf
  rw [List.length_append] at hr
  refine ⟨?_, fun hi hz => ?_⟩
  · rw [h.room hb]
    omega
  · rw [h.shape.isInline] at hi
    exact hn hi (List.mem_append_right w hz)

theorem placed (h : b.WellFormed) {w : ByteArray} (hf : b.Fits (toList w)) :
    Absorbed b (b.placed w) (toList w) := by
  have hr : w.size ≤ b.room := (length_toList w).symm ▸ hf.1
  exact ⟨sameShape_placed h hr, wellFormed_placed h hr, content_placed h hf.2⟩

theorem bytePlaced (h : b.WellFormed) {x : UInt8} (hf : b.Fits [x]) :
    Absorbed b (b.bytePlaced x) [x] := by
  have hr : 0 < b.room := hf.1
  refine ⟨sameShape_bytePlaced h hr, wellFormed_bytePlaced h hr, content_bytePlaced h ?_⟩
  rintro hi rfl
  exact hf.2 hi (List.mem_singleton_self 0)

end Absorbed

variable {cfg : Config} {s : State}

theorem appendByte_in_place (h : s.buffer.WellFormed) {c : UInt8} (hf : s.buffer.Fits [c]) :
    appendByte cfg c s = .ok () { s with buffer := s.buffer.bytePlaced c } := by
  obtain ⟨hr, hn⟩ := hf
  have hc : (s.buffer.isInline && c == 0) = false := by
    cases hi : s.buffer.isInline with
    | false => rfl
    | true =>
      have hne : c ≠ 0 := fun hc => hn hi (hc ▸ List.mem_singleton_self c)
      rw [Bool.true_and, beq_eq_false_iff_ne]
      exact hne
  have hroom : 0 < s.buffer.room := hr
  have hfull : ¬ s.buffer.length ≥ s.buffer.capacity := by
    simp only [room] at hroom
    omega
  rw [appendByte, Action.bind_ok (current_run s), if_neg (by simp [hc]),
    Action.bind_ok (current_run s), Action.bind_ok (readCapacity_run h), if_neg hfull]
  exact placeByte_run h hroom

theorem append_in_place (h : s.buffer.WellFormed) {w : ByteArray} (hw : w.size ≠ 0)
    (hf : s.buffer.Fits (toList w)) :
    append cfg w s = .ok w.size { s with buffer := s.buffer.placed w } := by
  obtain ⟨hr, hn⟩ := hf
  rw [length_toList] at hr
  have hnul : ¬ (s.buffer.isInline && hasNul w) = true := by
    rw [Bool.and_eq_true, hasNul_iff, not_and]
    exact hn
  rw [append, if_neg hw, Action.bind_ok (current_run s), if_neg hnul]
  exact (Action.bind_ok (reserve_of_room h hr)).trans (place_run h hr)

theorem append_absorbs (cfg : Config) (h : s.buffer.WellFormed) {w : ByteArray}
    (hf : s.buffer.Fits (toList w)) :
    ∃ c, append cfg w s = .ok w.size { s with buffer := c } ∧ Absorbed s.buffer c (toList w) := by
  by_cases hw : w.size = 0
  · have hempty : append cfg w s = .ok w.size s := by rw [append_empty hw, hw]
    refine ⟨s.buffer, hempty, ?_⟩
    rw [toList_nil_iff.mpr hw]
    exact .refl h
  · exact ⟨_, append_in_place h hw hf, .placed h hf⟩

theorem appendTexts_absorbs (cfg : Config) (h : s.buffer.WellFormed) {xs : List String}
    (hf : s.buffer.Fits (bytesOf xs)) :
    ∃ c, appendTexts cfg xs s = .ok () { s with buffer := c } ∧
      Absorbed s.buffer c (bytesOf xs) := by
  induction xs generalizing s with
  | nil => exact ⟨s.buffer, rfl, .refl h⟩
  | cons x xs ih =>
    rw [bytesOf_cons] at hf ⊢
    obtain ⟨b, hrun, hb⟩ := append_absorbs cfg h hf.left
    obtain ⟨c, hrun', hc⟩ := ih (s := { s with buffer := b }) hb.wellFormed (hb.fits h hf)
    refine ⟨c, ?_, hb.trans hc⟩
    rw [appendTexts, appendText, Action.bind_ok hrun, hrun']

section Print

theorem print_in_place (h : s.buffer.Sound) {f : Formatted} (hm : f.measured.givesUp = false)
    (hr : (bytesOf f.measured.writes).length < s.buffer.room)
    (hn : s.buffer.isInline = true → 0 ∉ bytesOf f.measured.writes) :
    let n := (bytesOf f.measured.writes).length
    print cfg f s =
      .ok (if (s.buffer.windowAfter f.written n).2 then
            some (s.buffer.windowAfter f.written n).1.filled else none)
        { s with buffer := s.buffer.filled f.written n } := by
  have hw := h.wellFormed
  have hlt := h.store_lt
  have hsum := hw.length_add_room
  rcases f with ⟨⟨ws, g⟩, p⟩
  obtain rfl : g = false := hm
  replace hr : (bytesOf ws).length < s.buffer.room := hr
  have hlen := Measure.length_total ws
  have hmeasure : measure ⟨ws, false⟩ s = .ok (some (ws.foldl Measure.write {})) s := by
    have hnone : Measure.overflow? {} ws = none :=
      (Measure.overflow?_eq_none_iff (by decide) ws).mpr (by rw [Nat.zero_add]; omega)
    rw [measure, hnone]
    rfl
  have hnul : ¬ (s.buffer.isInline && (ws.foldl Measure.write {}).hasNul) = true := by
    rw [Bool.and_eq_true, Measure.hasNul_total, not_and]
    exact hn
  have hensure : ensure cfg (min ((bytesOf ws).length + 1) Word.largest) s = .ok () s := by
    have henough : min ((bytesOf ws).length + 1) Word.largest ≤ s.buffer.room :=
      (Nat.min_le_left _ _).trans hr
    rw [ensure, Action.bind_ok (readRoom_run hw), if_neg (by omega)]
    rfl
  have hroom : makeRoom cfg (ws.foldl Measure.write {}) s = .ok () s := by
    rw [makeRoom, Action.bind_ok (current_run s), if_neg hnul, hlen]
    exact hensure
  simp only
  rw [print, Action.bind_ok hmeasure]
  simp only
  rw [Action.bind_ok hroom, hlen]
  exact fill_run hw hr

end Print

/-- A full inline buffer grows before it starts over. -/
theorem rewind_of_full (h : s.buffer.WellFormed) (hi : s.buffer.isInline = true)
    (hr : s.buffer.room = 0) : rewind cfg s = (do grow cfg 1; restart) s := by
  have hfull : (s.buffer.isInline && decide (s.buffer.length ≥ s.buffer.capacity)) = true := by
    rw [Bool.and_eq_true, decide_eq_true_eq]
    exact ⟨hi, Nat.sub_eq_zero_iff_le.mp hr⟩
  rw [rewind, Action.bind_ok (current_run s), Action.bind_ok (current_run s),
    Action.bind_ok (readCapacity_run h), if_pos hfull]

theorem rewind_in_place (h : s.buffer.WellFormed)
    (hr : s.buffer.isInline = true → 0 < s.buffer.room) :
    rewind cfg s = .ok s.buffer.content { s with buffer := s.buffer.restarted } := by
  have hfull : ¬ (s.buffer.isInline && decide (s.buffer.length ≥ s.buffer.capacity)) = true := by
    rw [Bool.and_eq_true, decide_eq_true_eq, not_and]
    intro hi
    have hroom := hr hi
    simp only [room] at hroom
    omega
  rw [rewind, Action.bind_ok (current_run s), Action.bind_ok (current_run s),
    Action.bind_ok (readCapacity_run h), if_neg hfull]
  exact restart_run h hr

end GrowBuffer.Buffer
