import GrowBuffer.Proofs.Refinement

/-! # Measuring first and streaming

A text may be measured and then printed, or streamed write by write. Both ways append it, and
both leave it where it is as long as it fits, whatever the writes are that it comes in. They
only differ on a text that takes all of the room: a print asks for its terminator as well, so
it moves such a text to the heap.
-/

namespace GrowBuffer.Buffer
open Bytes Format Memory

/-- The buffer has kept its shape, unless it is on the heap by now. -/
def Kept (b c : Buffer) : Prop := c.location = .heap ∨ SameShape b c

namespace Kept

variable {b c d : Buffer}

theorem trans (h : Kept b c) (k : Kept c d) : Kept b d := by
  rcases k with hheap | hshape
  · exact .inl hheap
  rcases h with hheap | h
  · exact .inl (hshape.location.trans hheap)
  · exact .inr (h.trans hshape)

theorem heap_of_excess (h : Kept b c) (hb : b.WellFormed) (hc : c.WellFormed) {w : List UInt8}
    (hw : toList c.content = toList b.content ++ w) (hf : ¬ b.Fits w) : c.location = .heap := by
  rcases h with hheap | hshape
  · exact hheap
  refine absurd ⟨?_, fun hi hz => ?_⟩ hf
  · have hlen := congrArg List.length hw
    rw [List.length_append, hc.length_content, hb.length_content] at hlen
    have hle := hc.length_le
    rw [hshape.capacity] at hle
    simp only [room]
    omega
  · obtain ⟨rest, -, hfree⟩ := hc.inline_split (hshape.isInline.trans hi)
    rw [hw] at hfree
    exact hfree (List.mem_append_right _ hz)

end Kept

theorem Worked.kept {cfg : Config} {s t : State} (h : Worked cfg s t) :
    Kept s.buffer t.buffer := by
  obtain ⟨e, hwide, hshape, -, -⟩ := h
  rcases hwide.eq_or_heap with rfl | hheap
  · exact .inr hshape
  · exact .inl (hshape.location.trans hheap)

/-- A request that an action had to make was refused. -/
def Refused {α : Type} (r : EStateM.Result Stop State α) : Prop :=
  ∃ why t, r = .error (.refused why) t

instance {α : Type} (r : EStateM.Result Stop State α) : Decidable (Refused r) :=
  match r with
  | .ok _ _ => .isFalse fun ⟨_, _, h⟩ => nomatch h
  | .error (.refused why) t => .isTrue ⟨why, t, rfl⟩
  | .error (.faulted _) _ => .isFalse fun ⟨_, _, h⟩ => nomatch h

theorem Granted.answered {α : Type} {sure : Prop} {done : α → State → Prop}
    {r : EStateM.Result Stop State α} (h : Granted sure done r) (hr : ¬ Refused r) :
    ∃ a t, r = .ok a t ∧ done a t := by
  rcases r with ⟨a, t⟩ | ⟨why | _, t⟩
  · exact ⟨a, t, rfl, h⟩
  · exact absurd ⟨why, t, rfl⟩ hr
  · exact h.elim

section Location

variable {cfg : Config} {s : State}

theorem print_location (h : s.buffer.Sound) (ws : List String) :
    Ends s (fun _ t => t.buffer.location =
      if (bytesOf ws).length < s.buffer.room ∧ s.buffer.Fits (bytesOf ws) then s.buffer.location
      else .heap) (print cfg (.steady ⟨ws, false⟩) s) := by
  by_cases hf : (bytesOf ws).length < s.buffer.room ∧ s.buffer.Fits (bytesOf ws)
  · rw [if_pos hf, print_in_place (f := .steady ⟨ws, false⟩) h rfl hf.1 hf.2.2]
    exact .finished (sameShape_filled h.wellFormed hf.1).location
  · rw [if_neg hf]
    apply (print_ends h (.steady ⟨ws, false⟩)).mono
    rintro _ t (⟨hgiven, -, -⟩ | ⟨-, e, he, hr, hn, -, rfl⟩)
    · cases hgiven
    · have hw := he.wellFormed h.wellFormed
      have hlocation := (sameShape_filled (p := ⟨ws, false⟩) hw hr).location
      rcases he.eq_or_heap with rfl | hheap
      · exact absurd ⟨hr, Nat.le_of_lt hr, hn⟩ hf
      · exact hlocation.trans hheap

theorem appendTexts_kept (h : s.buffer.Sound) (ws : List String) :
    Granted False (fun _ t => Kept s.buffer t.buffer) (appendTexts cfg ws s) := by
  induction ws generalizing s with
  | nil => exact .inr (.refl _)
  | cons x ws ih =>
    apply ((append_works h.wellFormed x.toUTF8).granted.and_safe (append_safe h _)).bind
    rintro n t ⟨hworked, hsound⟩
    exact (ih hsound).mono fun _ u hu => hworked.kept.trans hu

theorem stream_location (h : s.buffer.Sound) (ws : List String) :
    Granted False (fun _ t => t.buffer.location =
      if s.buffer.Fits (bytesOf ws) then s.buffer.location else .heap)
      (stream cfg ⟨ws, false⟩ s) := by
  have hw := h.wellFormed
  by_cases hf : s.buffer.Fits (bytesOf ws)
  · obtain ⟨c, hrun, hc⟩ := appendTexts_absorbs cfg hw hf
    rw [if_pos hf, stream, Action.bind_ok hrun]
    exact hc.shape.location
  · rw [if_neg hf]
    have hsafe : Safe (appendTexts cfg ws s) := appendTexts_safe h ws
    apply (((appendTexts_kept h ws).and (appendTexts_content h ws)).and_safe hsafe).bind
    rintro _ t ⟨⟨hkept, hcontent⟩, hsound⟩
    exact hkept.heap_of_excess hw hsound.wellFormed hcontent hf

theorem print_appends (h : s.buffer.Sound) (ws : List String) :
    Granted False (fun n t => n = some (bytesOf ws).length ∧ t.buffer.WellFormed ∧
      toList t.buffer.content = toList s.buffer.content ++ bytesOf ws ∧
      t.buffer.location =
        if (bytesOf ws).length < s.buffer.room ∧ s.buffer.Fits (bytesOf ws) then s.buffer.location
        else .heap) (print cfg (.steady ⟨ws, false⟩) s) := by
  have hagrees : (Formatted.steady ⟨ws, false⟩).Agrees := ⟨rfl, rfl, rfl⟩
  have htext : toList (Formatted.steady ⟨ws, false⟩).written.text.toUTF8 = bytesOf ws :=
    toList_text ⟨ws, false⟩
  apply (((print_content h hagrees).granted.and (print_location h ws).granted).and_safe
    (print_safe h _)).mono
  rintro n t ⟨⟨⟨hn, ht⟩, hlocation⟩, hsound⟩
  rw [htext] at hn ht
  exact ⟨hn, hsound.wellFormed, ht, hlocation⟩

theorem stream_appends (h : s.buffer.Sound) (ws : List String) :
    Granted False (fun done t => done = true ∧ t.buffer.WellFormed ∧
      toList t.buffer.content = toList s.buffer.content ++ bytesOf ws ∧
      t.buffer.location = if s.buffer.Fits (bytesOf ws) then s.buffer.location else .heap)
      (stream cfg ⟨ws, false⟩ s) := by
  have hsafe : Safe (stream cfg ⟨ws, false⟩ s) :=
    (appendTexts_safe h ws).bind fun _ _ => .ok
  apply (((stream_content h ws).and (stream_location h ws)).and_safe hsafe).mono
  rintro done t ⟨⟨⟨hdone, ht⟩, hlocation⟩, hsound⟩
  exact ⟨hdone, hsound.wellFormed, ht, hlocation⟩

end Location

/-- A text takes all of the room of a buffer that it would not leave anyway, as an inline one
is left for a NUL. -/
def FillsUp (b : Buffer) (w : List UInt8) : Prop :=
  b.location ≠ .heap ∧ w.length = b.room ∧ ¬ (b.location = .inline ∧ 0 ∈ w)

theorem FillsUp.fits {b : Buffer} {w : List UInt8} (h : b.FillsUp w) : b.Fits w :=
  ⟨Nat.le_of_eq h.2.1, fun hi hz => h.2.2 ⟨beq_iff_eq.mp hi, hz⟩⟩

theorem fits_terminated_iff {b : Buffer} {w : List UInt8} (hb : b.location ≠ .heap)
    (h : ¬ b.FillsUp w) : (w.length < b.room ∧ b.Fits w) ↔ b.Fits w := by
  refine ⟨And.right, fun hf => ⟨Nat.lt_of_le_of_ne hf.1 fun hall => h ⟨hb, hall, ?_⟩, hf⟩⟩
  rintro ⟨hi, hz⟩
  exact hf.2 (beq_iff_eq.mpr hi) hz

/-- From any state that operations lead to, a text that is printed and one that is streamed in
any number of writes leave the same bytes, in the same place unless the text fills the buffer
up: then the print has moved it to the heap. -/
theorem reachable_print_stream {b : Buffer} (h : Reachable b) (cfg : Config) (l : Ledger)
    (ws : List String) (hp : ¬ Refused (print cfg (.steady ⟨ws, false⟩) ⟨b, l⟩))
    (hs : ¬ Refused (stream cfg ⟨ws, false⟩ ⟨b, l⟩)) :
    ∃ t u, print cfg (.steady ⟨ws, false⟩) ⟨b, l⟩ = .ok (some (bytesOf ws).length) t ∧
      stream cfg ⟨ws, false⟩ ⟨b, l⟩ = .ok true u ∧
      toList t.buffer.content = toList b.content ++ bytesOf ws ∧
      u.buffer.content = t.buffer.content ∧ u.buffer.length = t.buffer.length ∧
      (b.FillsUp (bytesOf ws) →
        t.buffer.location = .heap ∧ u.buffer.location = b.location) ∧
      (¬ b.FillsUp (bytesOf ws) → u.buffer.location = t.buffer.location) := by
  obtain ⟨_, t, hprint, rfl, ht, hcontent, hlocation⟩ :=
    (print_appends (s := ⟨b, l⟩) h.sound ws).answered hp
  obtain ⟨_, u, hstream, rfl, hu, hcontent', hlocation'⟩ :=
    (stream_appends (s := ⟨b, l⟩) h.sound ws).answered hs
  have hsame : u.buffer.content = t.buffer.content := ext_toList (hcontent'.trans hcontent.symm)
  have hlen : u.buffer.length = t.buffer.length := by
    rw [← hu.length_content, ← ht.length_content, hsame]
  refine ⟨t, u, hprint, hstream, hcontent, hsame, hlen, fun hfull => ?_, fun hfull => ?_⟩
  · have hall : ¬ (bytesOf ws).length < b.room := Nat.not_lt.mpr (Nat.le_of_eq hfull.2.1.symm)
    rw [if_neg fun hf => hall hf.1] at hlocation
    rw [if_pos hfull.fits] at hlocation'
    exact ⟨hlocation, hlocation'⟩
  · rw [hlocation, hlocation']
    by_cases hb : b.location = .heap
    · simp only [hb, ite_self]
    · simp only [fits_terminated_iff hb hfull]

/-- Two bytes take all of the room of lent memory, and the print moves them. -/
theorem reachable_print_stream_full :
    ∃ t u, print ⟨8, none⟩ (.steady ⟨["a", "b"], false⟩) ⟨⟨.lent 0, ⟨#[0, 7, 7]⟩⟩, {}⟩ =
        .ok (some 2) t ∧
      stream ⟨8, none⟩ ⟨["a", "b"], false⟩ ⟨⟨.lent 0, ⟨#[0, 7, 7]⟩⟩, {}⟩ = .ok true u ∧
      t.buffer.location = .heap ∧ u.buffer.location = .lent := by
  have hfresh : Fresh ⟨.lent 0, ⟨#[0, 7, 7]⟩⟩ := .lent ⟨#[7, 7, 7]⟩ (by decide) rfl
  have hall := reachable_print_stream (.fresh hfresh) ⟨8, none⟩ {} ["a", "b"]
  -- neither run is refused, which evaluating them shows
  obtain ⟨t, u, hprint, hstream, -, -, -, hfull, -⟩ :=
    hall (fun ⟨_, _, hrun⟩ => nomatch hrun) (fun ⟨_, _, hrun⟩ => nomatch hrun)
  obtain ⟨hheap, hkept⟩ := hfull ⟨by decide, by decide, by decide⟩
  exact ⟨t, u, hprint, hstream, hheap, hkept⟩

end GrowBuffer.Buffer
