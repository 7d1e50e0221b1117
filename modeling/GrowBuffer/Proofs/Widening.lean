import GrowBuffer.Proofs.Growth
import GrowBuffer.Proofs.Cutting

/-! # Growing as often as it takes

An operation may grow its buffer before it does its work. However often it grows, content
and lent memory are as before, and once it has grown the buffer is no longer inline.
-/

namespace GrowBuffer.Buffer
open Bytes Memory

/-- The states that successful growth leads to, in any number of steps. -/
inductive Widened (cfg : Config) (s : State) : State → Prop
  | refl : Widened cfg s s
  | grow {t : State} {extra target : Nat} (h : Widened cfg s t) (hx : 0 < extra)
      (hlarge : t.buffer.capacity + extra ≤ target) (hmin : cfg.minGrowth ≤ target)
      (hsmall : target + 1 < addressable) :
      Widened cfg s ⟨t.buffer.grown target, t.buffer.ledgerAfterGrowth target t.ledger⟩

namespace Widened

variable {cfg : Config} {s t : State}

theorem trans {u : State} (h : Widened cfg s t) (k : Widened cfg t u) : Widened cfg s u := by
  induction k with
  | refl => exact h
  | grow _ hx hlarge hmin hsmall ih => exact .grow ih hx hlarge hmin hsmall

theorem wellFormed (h : Widened cfg s t) (hs : s.buffer.WellFormed) : t.buffer.WellFormed := by
  induction h with
  | refl => exact hs
  | grow _ _ hlarge _ _ ih => exact wellFormed_grown ih (by omega)

theorem content (h : Widened cfg s t) (hs : s.buffer.WellFormed) :
    toList t.buffer.content = toList s.buffer.content := by
  induction h with
  | refl => rfl
  | grow h _ _ _ _ ih => rw [toList_content_grown (h.wellFormed hs), ih]

theorem length (h : Widened cfg s t) : t.buffer.length = s.buffer.length := by
  induction h with
  | refl => rfl
  | grow _ _ _ _ _ ih => exact ih

theorem loan (h : Widened cfg s t) : t.buffer.loan = s.buffer.loan := by
  induction h with
  | refl => rfl
  | grow _ _ _ _ _ ih => exact ih

theorem vacated (h : Widened cfg s t) : t.buffer.vacated = s.buffer.vacated := by
  rw [Buffer.vacated, Buffer.vacated, h.loan]

theorem eq_of_isInline (h : Widened cfg s t) (hi : t.buffer.isInline = true) : t = s := by
  cases h with
  | refl => rfl
  | grow _ _ _ _ _ => cases hi

theorem eq_or_heap (h : Widened cfg s t) : t = s ∨ t.buffer.location = .heap := by
  cases h with
  | refl => exact .inl rfl
  | grow _ _ _ _ _ => exact .inr rfl

theorem store_lt (h : Widened cfg s t) (hs : s.buffer.WellFormed) {n : Nat}
    (hn : addressable ≤ n) (hlt : s.buffer.store.size < n) : t.buffer.store.size < n := by
  cases h with
  | refl => exact hlt
  | grow h _ hlarge _ hsmall =>
    rw [size_store_grown (h.wellFormed hs) (by omega)]
    omega

end Widened

section Room

variable {cfg : Config} {s : State}

/-- Growth ends in a wider buffer that has the room it was asked for on top of the old. -/
theorem grow_widens (h : s.buffer.WellFormed) {extra : Nat} (hx : 0 < extra) :
    Ends s (fun _ t => Widened cfg s t ∧ s.buffer.room + extra ≤ t.buffer.room ∧
      cfg.minGrowth ≤ t.buffer.capacity ∧ t.buffer.capacity < addressable ∧
      t.buffer.isInline = false) (grow cfg extra s) := by
  apply (grow_ends h hx).mono
  rintro _ t ⟨target, hlarge, hmin, hsmall, rfl⟩
  have hcap : (s.buffer.grown target).capacity = target := capacity_grown h (by omega)
  have hle := h.length_le
  refine ⟨.grow .refl hx hlarge hmin hsmall, ?_, ?_, ?_, rfl⟩
  · simp only [room, hcap, length_grown]
    omega
  · rw [hcap]
    exact hmin
  · rw [hcap]
    omega

theorem reserve_of_room (h : s.buffer.WellFormed) {extra : Nat} (hr : extra ≤ s.buffer.room) :
    reserve cfg extra s = .ok () s := by
  rw [reserve, Action.bind_ok (readRoom_run h), if_neg (by omega)]
  rfl

theorem reserve_ends (h : s.buffer.WellFormed) (extra : Nat) :
    Ends s (fun _ t => Widened cfg s t ∧ extra ≤ t.buffer.room) (reserve cfg extra s) := by
  by_cases hr : extra ≤ s.buffer.room
  · rw [reserve_of_room h hr]
    exact .finished ⟨.refl, hr⟩
  · rw [reserve, Action.bind_ok (readRoom_run h), if_pos (by omega)]
    apply (grow_widens h (by omega)).mono
    rintro _ t ⟨hw, hroom, -⟩
    exact ⟨hw, by omega⟩

theorem growIfFull_ends (cfg : Config) (h : s.buffer.WellFormed) :
    Ends s (fun _ t => Widened cfg s t ∧ 0 < t.buffer.room)
      ((if s.buffer.length ≥ s.buffer.capacity then grow cfg 1 else pure ()) s) := by
  by_cases hr : s.buffer.length ≥ s.buffer.capacity
  · rw [if_pos hr]
    apply (grow_widens h (by omega)).mono
    rintro _ t ⟨hw, hroom, -⟩
    exact ⟨hw, by omega⟩
  · rw [if_neg hr]
    refine .finished ⟨.refl, ?_⟩
    simp only [room]
    omega

end Room
end GrowBuffer.Buffer
