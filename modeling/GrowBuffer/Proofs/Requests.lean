import GrowBuffer.Proofs.Doubling
import GrowBuffer.Proofs.Streaming

/-! # How many requests a print makes

A print that needs room makes one request, with one exception. A text with a NUL is moved off an
inline store by a growth of its length, which does not count the terminator. When the store is
full, and neither twice of it nor the configured minimum is more than the sum, the terminator
needs a growth of its own.
-/

namespace GrowBuffer.Buffer
open Bytes Format Memory

/-- The text and a terminator find no room, or the text has a NUL and the buffer is inline. -/
def Outgrows (b : Buffer) (w : List UInt8) : Prop :=
  b.room < w.length + 1 ∨ b.isInline = true ∧ 0 ∈ w

/-- The move of a text with a NUL off a full inline store makes no room for a terminator;
sixty-two is twice the capacity of an inline store. -/
def FallsShort (cfg : Config) (b : Buffer) (w : List UInt8) : Prop :=
  b.isInline = true ∧ 0 ∈ w ∧ b.room = 0 ∧ max 62 cfg.minGrowth ≤ b.capacity + w.length

instance (b : Buffer) (w : List UInt8) : Decidable (b.Outgrows w) :=
  inferInstanceAs (Decidable (_ ∨ _))

instance (cfg : Config) (b : Buffer) (w : List UInt8) : Decidable (b.FallsShort cfg w) :=
  inferInstanceAs (Decidable (_ ∧ _))

theorem FallsShort.outgrows {cfg : Config} {b : Buffer} {w : List UInt8}
    (h : b.FallsShort cfg w) : b.Outgrows w :=
  .inr ⟨h.1, h.2.1⟩

def requestsToPrint (cfg : Config) (b : Buffer) (w : List UInt8) : Nat :=
  if b.FallsShort cfg w then 2 else if b.Outgrows w then 1 else 0

section Count

variable {cfg : Config} {s t : State} {extra size : Nat} {m : Measure} {w : List UInt8}

theorem growthsBy_answered (h : grow cfg extra s = .ok () t) : growthsBy cfg extra s = 1 :=
  ifAnswered_ok h _

theorem growthsToEnsure_answered (h : s.buffer.WellFormed) (hrun : ensure cfg size s = .ok () t) :
    growthsToEnsure cfg size s = if s.buffer.room < size then 1 else 0 := by
  rw [ensure, Action.bind_ok (readRoom_run h)] at hrun
  unfold growthsToEnsure
  by_cases hr : s.buffer.room < size
  · rw [if_pos hr] at hrun
    rw [if_pos hr, if_pos hr, growthsBy_answered hrun]
  · rw [if_neg hr, if_neg hr]

theorem room_lt_saturated_iff (h : s.buffer.Sound) (n : Nat) :
    s.buffer.room < min (n + 1) Word.largest ↔ s.buffer.room < n + 1 := by
  have hlt := h.store_lt
  have hsum := h.wellFormed.length_add_room
  have hlimit : Word.largest + 1 = Word.limit := rfl
  omega

theorem room_widened_lt_iff (h : s.buffer.WellFormed) (hi : s.buffer.isInline = true)
    (hz : 0 ∈ w) :
    (widened cfg w.length s).buffer.room < w.length + 1 ↔ s.buffer.FallsShort cfg w := by
  have hcap := capacity_of_inline hi
  have hinline : inlineSize = 32 := rfl
  have hsum := h.room_add_length
  have hroom : (widened cfg w.length s).buffer.room =
      widerCapacity cfg s.buffer.capacity w.length - s.buffer.length := by
    rw [room, capacity_widened h]
    rfl
  rw [hroom]
  unfold widerCapacity FallsShort
  constructor
  · intro hlt
    exact ⟨hi, hz, by omega, by omega⟩
  · rintro ⟨-, -, hr, hmin⟩
    omega

theorem growthsToMakeRoom_answered (h : s.buffer.Sound) (hl : m.length = w.length)
    (hn : m.hasNul = true ↔ 0 ∈ w) (hrun : makeRoom cfg m s = .ok () t) :
    growthsToMakeRoom cfg m s = requestsToPrint cfg s.buffer w := by
  rw [makeRoom, Action.bind_ok (current_run s)] at hrun
  unfold growthsToMakeRoom requestsToPrint
  by_cases hmove : (s.buffer.isInline && m.hasNul) = true
  · obtain ⟨hi, hz⟩ := Bool.and_eq_true_iff.mp hmove
    rw [hn] at hz
    have hx : 0 < w.length := List.length_pos_of_mem hz
    simp only [if_pos hmove, hl] at hrun ⊢
    obtain ⟨_, u, hgrow, hrest⟩ := Action.exists_of_bind_answered hrun
    have hone : growthsBy cfg w.length s = 1 := growthsBy_answered hgrow
    have hcourse : Course cfg _ s 1 u := .grow .start hx hgrow (Nat.le_refl _)
    have hu := hcourse.sound h
    obtain ⟨rfl, -⟩ := grow_answered h.wellFormed hx hgrow
    rw [ifAnswered_ok hgrow, hone, growthsToEnsure_answered hu.wellFormed hrest]
    simp only [room_lt_saturated_iff hu, room_widened_lt_iff h.wellFormed hi hz]
    have hout : s.buffer.Outgrows w := .inr ⟨hi, hz⟩
    by_cases hshort : s.buffer.FallsShort cfg w
    · rw [if_pos hshort, if_pos hshort]
    · rw [if_neg hshort, if_neg hshort, if_pos hout]
  · have hstays : ¬ (s.buffer.isInline = true ∧ 0 ∈ w) := by
      rwa [Bool.and_eq_true, hn] at hmove
    simp only [if_neg hmove] at hrun ⊢
    have hshort : ¬ s.buffer.FallsShort cfg w := fun hf => hstays ⟨hf.1, hf.2.1⟩
    rw [growthsToEnsure_answered h.wellFormed hrun, if_neg hshort]
    simp only [room_lt_saturated_iff h, hl, Outgrows, hstays, or_false]

theorem growthsToPrint_answered (h : s.buffer.Sound) {f : Formatted} {n : Option Nat}
    (hf : f.measured.givesUp = false) (hrun : print cfg f s = .ok n t) :
    growthsToPrint cfg f s = requestsToPrint cfg s.buffer (bytesOf f.measured.writes) := by
  rcases f with ⟨⟨ws, _ | _⟩, p⟩
  · rw [print] at hrun
    rcases measure_run ⟨ws, false⟩ s with ⟨count, hm⟩ | ⟨-, hm⟩
    · rw [Action.bind_error hm] at hrun
      cases hrun
    rw [Action.bind_ok hm] at hrun
    obtain ⟨_, u, hroom, -⟩ := Action.exists_of_bind_answered hrun
    rw [growthsToPrint, hm]
    exact growthsToMakeRoom_answered h (Measure.length_total ws) (Measure.hasNul_total ws) hroom
  · cases hf

end Count

theorem print_requests {cfg : Config} {s : State} (h : s.buffer.Sound) {f : Formatted}
    (hf : f.Agrees) (hp : ¬ Refused (print cfg f s)) :
    let w := bytesOf f.measured.writes
    ∃ t, print cfg f s = .ok (some w.length) t ∧
      t.ledger.calls = s.ledger.calls + requestsToPrint cfg s.buffer w := by
  intro w
  have hcontent : Ends s _ (print cfg f s) := print_content h hf
  obtain ⟨_, t, hrun, rfl, -⟩ := hcontent.granted.answered hp
  have htext : toList f.written.text.toUTF8 = w := by
    rw [← hf.text, toList_text]
  rw [htext] at hrun
  have hleads : Leads cfg _ s (growthsToPrint cfg f s) (print cfg f s) := print_leads h f
  rw [growthsToPrint_answered h hf.measured hrun] at hleads
  exact ⟨t, hrun, (hleads.of_ok hrun).calls h⟩

/-- From any state that operations lead to, a print whose passes agree and of which nothing is
refused makes no request if its text and a terminator find room and no NUL has to leave an
inline store. Otherwise it makes one, and a second one exactly if the first falls short. -/
theorem reachable_print_requests {b : Buffer} (h : Reachable b) (cfg : Config) (l : Ledger)
    {f : Formatted} (hf : f.Agrees) (hp : ¬ Refused (print cfg f ⟨b, l⟩)) :
    let w := bytesOf f.measured.writes
    ∃ t, print cfg f ⟨b, l⟩ = .ok (some w.length) t ∧
      (¬ b.Outgrows w → t.ledger.calls = l.calls) ∧
      (b.Outgrows w → ¬ b.FallsShort cfg w → t.ledger.calls = l.calls + 1) ∧
      (b.FallsShort cfg w → t.ledger.calls = l.calls + 2) := by
  intro w
  obtain ⟨t, hrun, hcalls⟩ := print_requests (s := ⟨b, l⟩) h.sound hf hp
  replace hcalls : t.ledger.calls = l.calls + requestsToPrint cfg b w := hcalls
  rw [requestsToPrint] at hcalls
  refine ⟨t, hrun, fun hout => ?_, fun hout hshort => ?_, fun hshort => ?_⟩
  · have hshort : ¬ b.FallsShort cfg w := mt FallsShort.outgrows hout
    rwa [if_neg hshort, if_neg hout] at hcalls
  · rwa [if_neg hshort, if_pos hout] at hcalls
  · rwa [if_pos hshort] at hcalls

def fullInline : Buffer := ⟨.inline (ofList (List.replicate 31 97 ++ [0])), .empty⟩

theorem reachable_fullInline : Reachable fullInline := by
  have happend : ((Op.append (ofList (List.replicate 31 97))).after {} {}).buffer = fullInline := by
    decide +kernel
  rw [← happend]
  exact .step (.fresh .new) {} {} _

def nulFirst : Formatted := .steady ⟨["\x00", "thirty bytes stand behind that"], false⟩

theorem reachable_print_requests_full :
    ∃ t, print ⟨1, none⟩ nulFirst ⟨fullInline, {}⟩ = .ok (some 31) t ∧ t.ledger.calls = 2 := by
  obtain ⟨t, hrun, -, -, htwo⟩ := reachable_print_requests reachable_fullInline ⟨1, none⟩ {}
    (f := nulFirst) ⟨rfl, rfl, rfl⟩ (by decide +kernel)
  exact ⟨t, hrun, htwo (by decide +kernel)⟩

/-- So a print does not always grow its buffer at most once. -/
theorem nulFirst_requested_twice :
    ¬ ∀ (cfg : Config) (b : Buffer), Reachable b → ∀ (l : Ledger) (f : Formatted), f.Agrees →
      ¬ Refused (print cfg f ⟨b, l⟩) → (stateOf (print cfg f ⟨b, l⟩)).ledger.calls =
        l.calls + if b.Outgrows (bytesOf f.measured.writes) then 1 else 0 := by
  intro hall
  have hone := hall ⟨1, none⟩ fullInline reachable_fullInline {} nulFirst ⟨rfl, rfl, rfl⟩
    (by decide +kernel)
  exact absurd hone (by decide +kernel)

end GrowBuffer.Buffer
