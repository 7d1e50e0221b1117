import GrowBuffer.Proofs.Growths

/-! # Growth doubles and is bounded

Every growth makes one request for memory and at least doubles the capacity, and none goes
beyond what its demand explains. So the requests of a run are no more than the logarithm of
the largest content that was ever asked for.
-/

namespace GrowBuffer.Buffer
open Memory

@[simp] theorem calls_ledgerAfterGrowth (b : Buffer) (target : Nat) (l : Ledger) :
    (b.ledgerAfterGrowth target l).calls = l.calls + 1 := by
  rcases b with ⟨_ | _ | _, loan⟩ <;> simp [ledgerAfterGrowth]

namespace Course

variable {cfg : Config} {top : Nat} {s t : State} {n : Nat}

theorem calls (h : Course cfg top s n t) (hs : s.buffer.Sound) :
    t.ledger.calls = s.ledger.calls + n := by
  apply h.keeps hs
  case start => rfl
  case grow =>
    intro n t extra _ _ _ ih
    rw [widened, calls_ledgerAfterGrowth, ih, Nat.add_assoc]
  case work => exact fun _ ih => ih

theorem doubles (h : Course cfg top s n t) (hs : s.buffer.Sound) :
    s.buffer.capacity * 2 ^ n ≤ t.buffer.capacity := by
  apply h.keeps hs
  case start => rw [Nat.pow_zero, Nat.mul_one]
  case grow =>
    intro n t extra ht _ _ ih
    calc s.buffer.capacity * 2 ^ (n + 1)
        = 2 * (s.buffer.capacity * 2 ^ n) := by rw [Nat.pow_succ]; ring
      _ ≤ 2 * t.buffer.capacity := Nat.mul_le_mul_left 2 ih
      _ ≤ widerCapacity cfg t.buffer.capacity extra := double_le_widerCapacity ..
      _ = (widened cfg extra t).buffer.capacity := (capacity_widened ht.wellFormed).symm
  case work => exact fun hb ih => ih.trans_eq hb.capacity.symm

theorem capacity_le (h : Course cfg top s n t) (hs : s.buffer.Sound) :
    t.buffer.capacity ≤ max s.buffer.capacity top := by
  apply h.keeps hs
  case start => exact Nat.le_max_left _ _
  case grow =>
    intro n t extra ht _ htop _
    rw [capacity_widened ht.wellFormed]
    exact htop.trans (Nat.le_max_right _ _)
  case work => exact fun hb ih => hb.capacity.trans_le ih

end Course

/-- A run from a new buffer, without detachment and with memory for all that it asks for, at
least doubles the capacity with each request for memory. The capacity stays below the
configured minimum, twice an inline store, and twice the largest demand, unless it was larger
from the beginning. Without lent memory this bounds the requests by the logarithm of the
largest demand. -/
theorem fresh_capacity {cfg : Config} {b : Buffer} (h : Fresh b) (l : Ledger) {ops : List Op}
    (hops : Op.detach ∉ ops) (hs : Supplied (runs cfg ops ⟨b, l⟩).1) :
    ∃ calls, (runs cfg ops ⟨b, l⟩).2.ledger.calls = l.calls + calls ∧
      b.capacity * 2 ^ calls ≤ (runs cfg ops ⟨b, l⟩).2.buffer.capacity ∧
      (runs cfg ops ⟨b, l⟩).2.buffer.capacity ≤
        max b.capacity (capacityFor cfg (largestDemand cfg ops ⟨b, l⟩)) ∧
      (b = {} → 31 * 2 ^ calls ≤ capacityFor cfg (largestDemand cfg ops ⟨b, l⟩)) := by
  have hcourse : Course cfg _ ⟨b, l⟩ _ _ := runs_course h.sound hops hs
  have hdoubles := hcourse.doubles h.sound
  have hbound := hcourse.capacity_le h.sound
  refine ⟨growths cfg ops ⟨b, l⟩, hcourse.calls h.sound, hdoubles, hbound, ?_⟩
  rintro rfl
  -- an inline store is smaller than what twice of it allows for
  have hinline : (31 : Nat) ≤ capacityFor cfg (largestDemand cfg ops ⟨{}, l⟩) := by
    unfold capacityFor
    omega
  exact hdoubles.trans (hbound.trans (Nat.max_le.mpr ⟨hinline, Nat.le_refl _⟩))

/-- Room for forty bytes more is one request, and a capacity below the eighty-two that a demand of
forty-one may lead to. -/
theorem fresh_capacity_reserve :
    let ops : List Op := [.appendByte 7, .reserve 40]
    let t := (runs ⟨4, none⟩ ops ⟨{}, {}⟩).2
    t.buffer.capacity = 71 ∧ ∃ calls, calls = 1 ∧ t.ledger.calls = 0 + calls ∧
      31 * 2 ^ calls ≤ t.buffer.capacity ∧ t.buffer.capacity ≤ 82 ∧ 31 * 2 ^ calls ≤ 82 := by
  intro ops t
  have hops : Op.detach ∉ ops := by simp [ops]
  have hs : Supplied (runs ⟨4, none⟩ ops ⟨{}, {}⟩).1 := by decide +kernel
  have hdemand : largestDemand ⟨4, none⟩ ops ⟨{}, {}⟩ = 41 := by decide +kernel
  have hentered : t.ledger.calls = 1 := by decide +kernel
  obtain ⟨calls, hcalls, hdoubles, hbound, hnew⟩ := fresh_capacity .new {} hops hs
  rw [hdemand] at hbound hnew
  have hone : calls = 1 := (Nat.zero_add calls).symm.trans (hcalls.symm.trans hentered)
  exact ⟨by decide +kernel, calls, hone, hcalls, hdoubles, hbound, hnew rfl⟩

end GrowBuffer.Buffer
