import GrowBuffer.Buffer.Growth
import GrowBuffer.Proofs.Access

/-! # What growth does

On a well-formed buffer growth has one outcome for each verdict on its two questions: is
there a target capacity, and is the block for it approved. The grown buffer has the same
content on a heap block that continues with zeros.
-/

namespace GrowBuffer.Buffer
open Bytes Memory

/-- The bytes that growth carries over: a whole block, or the content of any other store. -/
def carried (b : Buffer) : List UInt8 :=
  match b.storage with
  | .heap block _ => toList block
  | _ => toList b.content

/-- The buffer on a heap block for `target` bytes and a terminator. -/
def grown (b : Buffer) (target : Nat) : Buffer :=
  ⟨.heap (padded b.carried (target + 1)) b.length, b.loan⟩

/-- The ledger after the block for `target` bytes and a terminator was obtained. -/
def ledgerAfterGrowth (b : Buffer) (target : Nat) (l : Ledger) : Ledger :=
  match b.storage with
  | .heap block _ => l.enterResize block.size (target + 1)
  | _ => l.enterFresh (target + 1)

/-- The capacity that growth by `extra` aims at. Twice the capacity counts where it is a size. -/
def aim (cfg : Config) (capacity extra : Nat) : Nat :=
  let doubled := if 2 * capacity < Word.limit then 2 * capacity else capacity + extra
  max (max doubled cfg.minGrowth) (capacity + extra)

section Target

variable {cfg : Config} {capacity extra target : Nat}

theorem add_le_aim (cfg : Config) (capacity extra : Nat) :
    capacity + extra ≤ aim cfg capacity extra :=
  Nat.le_max_right _ _

theorem minGrowth_le_aim (cfg : Config) (capacity extra : Nat) :
    cfg.minGrowth ≤ aim cfg capacity extra :=
  (Nat.le_max_right _ _).trans (Nat.le_max_left _ _)

/-- The one equation of the target: what is needed has to be a size, and then the aim with the
byte that is kept for a terminator. -/
theorem targetCapacity_run (cfg : Config) (capacity extra : Nat) :
    targetCapacity cfg capacity extra =
      if Word.limit ≤ capacity + extra then .error (.resizeOverflow capacity 1)
      else if Word.limit ≤ aim cfg capacity extra + 1 then
        .error (.resizeOverflow (aim cfg capacity extra) 1)
      else .ok (aim cfg capacity extra) := by
  have hdoubled : (Word.mul? capacity 2).getD (capacity + extra) =
      if 2 * capacity < Word.limit then 2 * capacity else capacity + extra := by
    rw [Word.mul?, Nat.mul_comm]
    split <;> rfl
  unfold targetCapacity
  by_cases hneeded : Word.limit ≤ capacity + extra
  · rw [if_pos hneeded, Word.add?_eq_none_iff.mpr hneeded]
  · rw [if_neg hneeded, Word.add?_eq_some_iff.mpr ⟨Nat.lt_of_not_le hneeded, rfl⟩]
    simp only [hdoubled]
    rw [← aim]
    by_cases htarget : Word.limit ≤ aim cfg capacity extra + 1
    · rw [if_pos htarget, Word.add?_eq_none_iff.mpr htarget]
    · rw [if_neg htarget, Word.add?_eq_some_iff.mpr ⟨Nat.lt_of_not_le htarget, rfl⟩]

theorem targetCapacity_eq_ok_iff :
    targetCapacity cfg capacity extra = .ok target ↔
      target = aim cfg capacity extra ∧ target + 1 < Word.limit := by
  have hneed := add_le_aim cfg capacity extra
  rw [targetCapacity_run]
  split
  · simp
    omega
  split
  · simp
    omega
  · rename_i hlt
    constructor
    · rintro ⟨⟩
      exact ⟨rfl, by omega⟩
    · rintro ⟨rfl, -⟩
      rfl

theorem targetCapacity_ok (h : targetCapacity cfg capacity extra = .ok target) :
    capacity + extra ≤ target ∧ cfg.minGrowth ≤ target ∧ target + 1 < Word.limit := by
  obtain ⟨rfl, hlt⟩ := targetCapacity_eq_ok_iff.mp h
  exact ⟨add_le_aim .., minGrowth_le_aim .., hlt⟩

theorem targetCapacity_error {why : Refusal}
    (h : targetCapacity cfg capacity extra = .error why) : why.isOverflow = true := by
  rw [targetCapacity_run] at h
  split at h
  · cases h
    rfl
  split at h
  · cases h
    rfl
  · cases h

theorem targetCapacity_of_granted (hm : cfg.minGrowth ≤ capacity)
    (hc : capacity < addressable) (hx : extra ≤ 1) :
    ∃ target, targetCapacity cfg capacity extra = .ok target := by
  have hlimit : 4 * addressable < Word.limit := by decide
  refine ⟨_, targetCapacity_eq_ok_iff.mpr ⟨rfl, ?_⟩⟩
  simp only [aim]
  split <;> omega

end Target

section Grown

variable {b : Buffer} {target : Nat}

@[simp] theorem length_grown : (b.grown target).length = b.length := rfl

@[simp] theorem loan_grown : (b.grown target).loan = b.loan := rfl

theorem length_carried_le (h : b.WellFormed) : b.carried.length ≤ b.capacity + 1 := by
  rw [h.capacity_succ]
  rcases b with ⟨store | ⟨block, n⟩ | n, loan⟩
  · exact Nat.le_of_lt (h.length_content ▸ h.length_lt)
  · exact (length_toList block).le
  · exact Nat.le_of_lt (h.length_content ▸ h.length_lt)

theorem carried_take (h : b.WellFormed) : b.carried.take b.length = toList b.content := by
  rcases b with ⟨store | ⟨block, n⟩ | n, loan⟩
  · exact List.take_of_length_le h.length_content.le
  · exact (toList_content _).symm
  · exact List.take_of_length_le h.length_content.le

theorem length_le_carried (h : b.WellFormed) : b.length ≤ b.carried.length := by
  have := congrArg List.length (carried_take h)
  rw [List.length_take, h.length_content] at this
  omega

variable (h : b.WellFormed)
include h

theorem toList_content_grown : toList (b.grown target).content = toList b.content := by
  rw [toList_content, length_grown, ← carried_take h]
  show (toList (padded b.carried (target + 1))).take b.length = _
  rw [toList_padded, List.take_append_of_le_length (length_le_carried h)]

variable (ht : b.capacity ≤ target)
include ht

theorem size_store_grown : (b.grown target).store.size = target + 1 :=
  size_padded (by have := length_carried_le h; omega)

theorem capacity_grown : (b.grown target).capacity = target := by
  show (padded b.carried (target + 1)).size - 1 = target
  rw [size_padded (by have := length_carried_le h; omega), Nat.add_sub_cancel]

theorem wellFormed_grown : (b.grown target).WellFormed := by
  show b.length < (b.grown target).store.size
  rw [size_store_grown h ht]
  have := h.length_le
  omega

end Grown

section Run

variable {cfg : Config} {s : State}

theorem slice_content (h : s.buffer.WellFormed) :
    slice 0 s.buffer.length s = .ok s.buffer.content s :=
  slice_run (Nat.zero_le _) (Nat.le_of_lt h.length_lt)

theorem onLedger_requested {act : Action Ledger ByteArray} {bytes : Nat} {block : ByteArray}
    {l : Ledger} (h : act s.ledger = requested cfg bytes block l s.ledger) :
    onLedger act s =
      match approve cfg bytes with
      | .error why => .error (.refused why) s
      | .ok _ => .ok block { s with ledger := l } := by
  cases ha : approve cfg bytes with
  | error why => exact onLedger_error (h.trans (requested_error ha _ _ _))
  | ok u => exact onLedger_ok (h.trans (requested_ok ha _ _ _))

theorem migrate_run (h : s.buffer.WellFormed) {extent : Nat} (hc : s.buffer.length < extent)
    (hl : extent < Word.limit) :
    migrate cfg s.buffer.length extent s =
      match approve cfg extent with
      | .error why => .error (.refused why) { s with buffer := s.buffer.vacated }
      | .ok _ =>
        .ok () ⟨⟨.heap (padded (toList s.buffer.content) extent) s.buffer.length, s.buffer.loan⟩,
          s.ledger.enterFresh extent⟩ := by
  have hcopy : onLedger (allocateCopy cfg s.buffer.content extent)
      { s with buffer := s.buffer.vacated } = _ :=
    onLedger_requested (allocateCopy_run (by omega) (by rw [h.size_content]; omega) hl)
  rw [migrate, Action.bind_ok (slice_content h), Action.bind_ok (vacate_run s)]
  cases ha : approve cfg extent with
  | error why =>
    rw [ha] at hcopy
    rw [Action.bind_error hcopy]
  | ok u =>
    rw [ha] at hcopy
    rw [Action.bind_ok hcopy, settle_run]
    rfl

/-- All bytes of the block are vouched for, so none of them is lost. -/
theorem enlarge_run {block : ByteArray} {n extent : Nat} (hc : block.size < extent)
    (hl : extent < Word.limit) :
    enlarge cfg block n block.size extent s =
      match approve cfg extent with
      | .error why => .error (.refused why) { s with buffer := s.buffer.vacated }
      | .ok _ =>
        .ok () ⟨⟨.heap (padded (toList block) extent) n, s.buffer.loan⟩,
          s.ledger.enterResize block.size extent⟩ := by
  have hresize : onLedger (resizeElements cfg block block.size extent 1)
      { s with buffer := s.buffer.vacated } = _ :=
    onLedger_requested (resizeElements_run hc hl)
  rw [enlarge, Action.bind_ok (vacate_run s)]
  cases ha : approve cfg extent with
  | error why =>
    rw [ha] at hresize
    rw [Action.bind_error hresize]
  | ok u =>
    rw [ha] at hresize
    rw [Action.bind_ok hresize, settle_run]
    rfl

theorem grow_run (h : s.buffer.WellFormed) {extra : Nat} (hx : 0 < extra) :
    grow cfg extra s =
      match targetCapacity cfg s.buffer.capacity extra with
      | .error why => .error (.refused why) s
      | .ok target =>
        match approve cfg (target + 1) with
        | .error why => .error (.refused why) { s with buffer := s.buffer.vacated }
        | .ok _ =>
          .ok () ⟨s.buffer.grown target, s.buffer.ledgerAfterGrowth target s.ledger⟩ := by
  rw [grow, Action.bind_ok (current_run s), Action.bind_ok (readCapacity_run h)]
  cases htarget : targetCapacity cfg s.buffer.capacity extra with
  | error why => rfl
  | ok target =>
    obtain ⟨hlarge, -, hlimit⟩ := targetCapacity_ok htarget
    have hgrant : (Action.grant (.ok target) : Work Nat) s = .ok target s := rfl
    have hcap := h.capacity_succ
    have hlen := h.length_le
    have hstore : s.buffer.store.size < target + 1 := by omega
    have hmigrate : migrate cfg s.buffer.length (target + 1) s = _ :=
      migrate_run h (by omega) hlimit
    rw [Action.bind_ok hgrant]
    rcases s with ⟨⟨store | ⟨block, n⟩ | n, loan⟩, l⟩
    · exact hmigrate
    · have hblock : (⟨.heap block n, loan⟩ : Buffer).capacity + 1 = block.size := hcap
      simp only [hblock]
      exact enlarge_run (s := ⟨⟨.heap block n, loan⟩, l⟩) hstore hlimit
    · exact hmigrate

theorem grow_ends (h : s.buffer.WellFormed) {extra : Nat} (hx : 0 < extra) :
    Ends s (fun _ t => ∃ target, s.buffer.capacity + extra ≤ target ∧ cfg.minGrowth ≤ target ∧
      target + 1 < addressable ∧
      t = ⟨s.buffer.grown target, s.buffer.ledgerAfterGrowth target s.ledger⟩)
      (grow cfg extra s) := by
  rw [grow_run h hx]
  cases htarget : targetCapacity cfg s.buffer.capacity extra with
  | error why => exact .uncountable (targetCapacity_error htarget)
  | ok target =>
    obtain ⟨hlarge, hmin, -⟩ := targetCapacity_ok htarget
    simp only
    cases ha : approve cfg (target + 1) with
    | error why => exact .unsupplied (not_isOverflow_of_approve ha) s.ledger
    | ok u => exact .finished ⟨target, hlarge, hmin, lt_addressable_of_approve ha, rfl⟩

end Run
end GrowBuffer.Buffer
