import GrowBuffer.Proofs.Growths

/-! # The ledger of one buffer

The first growth of a buffer takes a fresh block and every later one resizes it. Each resize
vouches for the whole block and asks for more, so the bytes that had to be zeroed add up to
the block that the buffer has, and no earlier request was larger.
-/

namespace GrowBuffer.Buffer
open Memory

section Entry

variable {b : Buffer}

theorem ledgerAfterGrowth_of_heap (h : b.WellFormed) (hb : b.location = .heap) (target : Nat)
    (l : Ledger) : b.ledgerAfterGrowth target l = l.enterResize (b.capacity + 1) (target + 1) := by
  have hcap := h.capacity_succ
  rcases b with ⟨_ | ⟨block, n⟩ | _, loan⟩
  · cases hb
  · exact congrArg (l.enterResize · (target + 1)) hcap.symm
  · cases hb

theorem ledgerAfterGrowth_off_heap (hb : b.location ≠ .heap) (target : Nat) (l : Ledger) :
    b.ledgerAfterGrowth target l = l.enterFresh (target + 1) := by
  rcases b with ⟨_ | _ | _, loan⟩
  · rfl
  · exact absurd rfl hb
  · rfl

end Entry

/-- The ledger of the requests for one block of `size` bytes that was resized `later` times. -/
def ledgerOfBlock (later size : Nat) : Ledger where
  allocations := 1
  resizes := later
  zeroed := size
  peak := size

theorem enterFresh_empty (size : Nat) : ({} : Ledger).enterFresh size = ledgerOfBlock 0 size := by
  simp [Ledger.enterFresh, ledgerOfBlock]

/-- A block that is only ever enlarged is zeroed once. -/
theorem enterResize_ledgerOfBlock {later size size' : Nat} (h : size ≤ size') :
    (ledgerOfBlock later size).enterResize size size' = ledgerOfBlock (later + 1) size' := by
  simp only [Ledger.enterResize, ledgerOfBlock, Nat.add_sub_cancel' h, Nat.max_eq_right h]

/-- After `n` growths: nothing is entered for a buffer that is not on the heap, and for one
that is the ledger tells of its present block, all growths but the first being resizes. -/
structure Accounts (s : State) (n : Nat) : Prop where
  off_heap : s.buffer.location ≠ .heap → n = 0 ∧ s.ledger = {}
  on_heap : s.buffer.location = .heap →
    ∃ later, n = later + 1 ∧ s.ledger = ledgerOfBlock later (s.buffer.capacity + 1)

namespace Accounts

variable {cfg : Config} {s t : State} {m n top : Nat}

theorem put (h : Accounts s n) {b : Buffer} (hb : SameShape s.buffer b) :
    Accounts { s with buffer := b } n := by
  constructor
  · intro hl
    rw [hb.location] at hl
    exact h.off_heap hl
  · intro hl
    rw [hb.location] at hl
    rw [hb.capacity]
    exact h.on_heap hl

theorem widened (h : Accounts s n) (hs : s.buffer.WellFormed) (extra : Nat) :
    Accounts (widened cfg extra s) (n + 1) := by
  have hcap : (Buffer.widened cfg extra s).buffer.capacity =
      widerCapacity cfg s.buffer.capacity extra := capacity_widened hs
  have hwider := add_le_widerCapacity cfg s.buffer.capacity extra
  refine ⟨fun hl => absurd rfl hl, fun _ => ?_⟩
  rw [hcap]
  by_cases hb : s.buffer.location = .heap
  · obtain ⟨later, rfl, hledger⟩ := h.on_heap hb
    refine ⟨later + 1, rfl, ?_⟩
    rw [Buffer.widened, ledgerAfterGrowth_of_heap hs hb, hledger]
    exact enterResize_ledgerOfBlock (by omega)
  · obtain ⟨rfl, hledger⟩ := h.off_heap hb
    refine ⟨0, rfl, ?_⟩
    rw [Buffer.widened, ledgerAfterGrowth_off_heap hb, hledger]
    exact enterFresh_empty _

theorem course (h : Accounts s m) (hs : s.buffer.Sound) (hcourse : Course cfg top s n t) :
    Accounts t (m + n) := by
  apply hcourse.keeps hs
  case start => exact h
  case grow => exact fun ht _ _ ih => ih.widened ht.wellFormed _
  case work => exact fun hb ih => ih.put hb

theorem of_fresh {b : Buffer} (h : Fresh b) : Accounts ⟨b, {}⟩ 0 :=
  ⟨fun _ => ⟨rfl, rfl⟩, fun hb => absurd hb h.location_ne_heap⟩

end Accounts

/-- A run from a new buffer and an empty ledger, without detachment and with memory for all
that it asks for, leaves the ledger empty while the buffer is not on the heap. Once it is, one
allocation is entered and a resize for every growth but the first, and both the bytes zeroed
and the largest request are the capacity and the byte kept for a terminator. -/
theorem fresh_accounts {cfg : Config} {b : Buffer} (h : Fresh b) {ops : List Op}
    (hops : Op.detach ∉ ops) (hs : Supplied (runs cfg ops ⟨b, {}⟩).1) :
    Accounts (runs cfg ops ⟨b, {}⟩).2 (growths cfg ops ⟨b, {}⟩) := by
  have hcourse : Course cfg _ ⟨b, {}⟩ _ _ := runs_course h.sound hops hs
  have haccounts := (Accounts.of_fresh h).course h.sound hcourse
  rwa [Nat.zero_add] at haccounts

/-- Room for two bytes is left for room for five, and that for room for ten. The excessive
commit in between is stopped and costs nothing. -/
theorem fresh_accounts_scratch :
    let ops : List Op := [.append ⟨#[1, 2, 3]⟩, .commit 9, .append ⟨#[4, 5, 6, 7]⟩]
    let s : State := ⟨⟨.lent 0, ⟨#[0, 7, 7]⟩⟩, {}⟩
    Accounts (runs ⟨4, none⟩ ops s).2 (growths ⟨4, none⟩ ops s) ∧
      growths ⟨4, none⟩ ops s = 2 ∧ (runs ⟨4, none⟩ ops s).2.ledger = ledgerOfBlock 1 11 := by
  have hfresh : Fresh ⟨.lent 0, ⟨#[0, 7, 7]⟩⟩ := .lent ⟨#[7, 7, 7]⟩ (by decide) rfl
  refine ⟨fresh_accounts hfresh ?_ ?_, ?_, ?_⟩
  · simp
  · decide +kernel
  · decide +kernel
  · decide +kernel

end GrowBuffer.Buffer
