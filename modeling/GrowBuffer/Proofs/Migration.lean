import GrowBuffer.Proofs.Growths

/-! # Storage moves one way

Work inside the store keeps where a buffer is and how much it holds. Growth always asks for
more than nothing, so it ends on the heap with more capacity than there was, from the smallest
store on. Along a course one of the two has happened, and neither leads back from the heap.
-/

namespace GrowBuffer.Buffer
open Memory

/-- The buffer stays where it is with the capacity it has, or is on the heap with more. -/
inductive Migrates (b c : Buffer) : Prop
  | kept (hl : c.location = b.location) (hc : c.capacity = b.capacity)
  | moved (hl : c.location = .heap) (hc : b.capacity < c.capacity)

namespace Migrates

variable {b c d : Buffer}

theorem refl (b : Buffer) : Migrates b b := .kept rfl rfl

theorem trans (h : Migrates b c) (k : Migrates c d) : Migrates b d := by
  cases k with
  | kept hl hc =>
    cases h with
    | kept hl' hc' => exact .kept (hl.trans hl') (hc.trans hc')
    | moved hl' hc' => exact .moved (hl.trans hl') (hc'.trans_eq hc.symm)
  | moved hl hc =>
    cases h with
    | kept _ hc' => exact .moved hl (hc'.symm.trans_lt hc)
    | moved _ hc' => exact .moved hl (hc'.trans hc)

theorem of_sameShape (h : SameShape b c) : Migrates b c := .kept h.location h.capacity

theorem capacity_le (h : Migrates b c) : b.capacity ≤ c.capacity := by
  cases h with
  | kept _ hc => exact hc.ge
  | moved _ hc => exact hc.le

theorem heap_of_heap (h : Migrates b c) (hb : b.location = .heap) : c.location = .heap := by
  cases h with
  | kept hl _ => exact hl.trans hb
  | moved hl _ => exact hl

theorem location_of_ne_heap (h : Migrates b c) (hc : c.location ≠ .heap) :
    c.location = b.location := by
  cases h with
  | kept hl _ => exact hl
  | moved hl _ => exact absurd hl hc

theorem widened {cfg : Config} {s : State} {extra : Nat} (h : s.buffer.WellFormed)
    (hx : 0 < extra) : Migrates s.buffer (widened cfg extra s).buffer := by
  have hneed := add_le_widerCapacity cfg s.buffer.capacity extra
  refine .moved rfl ?_
  rw [capacity_widened h]
  omega

end Migrates

theorem Course.migrates {cfg : Config} {top n : Nat} {s t : State} (h : Course cfg top s n t)
    (hs : s.buffer.Sound) : Migrates s.buffer t.buffer := by
  induction h with
  | start => exact .refl _
  | grow hcourse hx hrun _ ih =>
    have ht := (hcourse.sound hs).wellFormed
    obtain ⟨rfl, -⟩ := grow_answered ht hx hrun
    exact ih.trans (.widened ht hx)
  | work _ hb _ ih => exact ih.trans (.of_sameShape hb)

/-- Of every reachable buffer: a step that is no detachment and is not refused memory keeps
location and capacity, or ends on the heap with a larger capacity. So does a run of such steps;
it does not leave the heap, does not reach any other place than the heap, and does not lose
capacity. -/
theorem reachable_migrates {b : Buffer} (h : Reachable b) (cfg : Config) (l : Ledger) :
    (∀ op : Op, op ≠ .detach →
      (∀ why t, op.run cfg ⟨b, l⟩ = .error (.refused why) t → why.isOverflow = true) →
      Migrates b (op.after cfg ⟨b, l⟩).buffer) ∧
    ∀ ops : List Op, Op.detach ∉ ops → Supplied (runs cfg ops ⟨b, l⟩).1 →
      let c := (runs cfg ops ⟨b, l⟩).2.buffer
      Migrates b c ∧ (b.location = .heap → c.location = .heap) ∧
        (c.location ≠ .heap → c.location = b.location) ∧ b.capacity ≤ c.capacity := by
  constructor
  · intro op hop hs
    have hstep : Course cfg _ ⟨b, l⟩ _ (op.after cfg ⟨b, l⟩) :=
      (Op.run_leads h.sound hop).after_op (hs _ _)
    exact hstep.migrates h.sound
  · intro ops hops hs
    have hcourse : Course cfg _ ⟨b, l⟩ _ (runs cfg ops ⟨b, l⟩).2 := runs_course h.sound hops hs
    have hmigrates := hcourse.migrates h.sound
    exact ⟨hmigrates, hmigrates.heap_of_heap, hmigrates.location_of_ne_heap,
      hmigrates.capacity_le⟩

/-- One byte of lent memory holds nothing. The excessive commit leaves it alone, the first byte
leads to room for four on the heap, and a reservation from there to room for nine. -/
theorem reachable_migrates_scratch :
    let b : Buffer := ⟨.lent 0, ⟨#[0]⟩⟩
    let ops : List Op := [.commit 1, .append ⟨#[97]⟩, .clear, .reserve 5, .pop]
    let c := (runs ⟨4, none⟩ ops ⟨b, {}⟩).2.buffer
    b.capacity = 0 ∧ Migrates b ((Op.commit 1).after ⟨4, none⟩ ⟨b, {}⟩).buffer ∧
      Migrates b c ∧ c.capacity = 9 := by
  intro b ops c
  have hb : Reachable b := .fresh (.lent ⟨#[7]⟩ (by decide) rfl)
  obtain ⟨hstep, hrun⟩ := reachable_migrates hb ⟨4, none⟩ {}
  refine ⟨rfl, hstep (.commit 1) Op.noConfusion ?_, (hrun ops ?_ ?_).1, ?_⟩
  · intro why t ht
    have hcommit : (Op.commit 1).run ⟨4, none⟩ ⟨b, {}⟩ =
        .error (.faulted (.overcommitted 1 0)) ⟨b, {}⟩ := rfl
    rw [hcommit] at ht
    cases ht
  · simp [ops]
  · decide +kernel
  · decide +kernel

end GrowBuffer.Buffer
