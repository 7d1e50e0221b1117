import GrowBuffer.Proofs.Doubling
import GrowBuffer.Proofs.Accounting

/-! # Growth to the byte

What growth does is settled by three sizes: the capacity, what is asked for on top of it, and
the configured minimum. It fails for a size exactly where one of its two sums is none, and
otherwise one request decides. What it leaves is known byte by byte: a block of the heap goes
on with zeros, and so does the content where it comes from any other store.
-/

namespace GrowBuffer.Buffer
open Bytes Memory

/-- `t` has the buffer of `s` with a capacity of `n`, of which at least `extra` bytes are free,
and has made the one request for it. -/
structure GrownTo (s t : State) (extra n : Nat) : Prop where
  location : t.buffer.location = .heap
  capacity : t.buffer.capacity = n
  content : t.buffer.content = s.buffer.content
  length : t.buffer.length = s.buffer.length
  room : extra ≤ t.buffer.room
  loan : t.buffer.loan = s.buffer.loan
  calls : t.ledger.calls = s.ledger.calls + 1
  ledger : t.ledger =
    if s.buffer.location = .heap then s.ledger.enterResize (s.buffer.capacity + 1) (n + 1)
    else s.ledger.enterFresh (n + 1)
  store_heap : s.buffer.location = .heap →
    toList t.buffer.store = toList s.buffer.store ++ List.replicate (n - s.buffer.capacity) 0
  store_off_heap : s.buffer.location ≠ .heap →
    toList t.buffer.store =
      toList s.buffer.content ++ List.replicate (n + 1 - s.buffer.length) 0

section Grown

variable {b : Buffer} {n : Nat}

theorem carried_of_heap (hb : b.location = .heap) : b.carried = toList b.store := by
  rcases b with ⟨_ | _ | _, _⟩
  · cases hb
  · rfl
  · cases hb

theorem carried_off_heap (hb : b.location ≠ .heap) : b.carried = toList b.content := by
  rcases b with ⟨_ | _ | _, _⟩
  · rfl
  · exact absurd rfl hb
  · rfl

theorem toList_store_grown (b : Buffer) (n : Nat) :
    toList (b.grown n).store = b.carried ++ List.replicate (n + 1 - b.carried.length) 0 := rfl

theorem grownTo_grown {s : State} (h : s.buffer.WellFormed) {extra : Nat}
    (hn : s.buffer.capacity + extra ≤ n) :
    GrownTo s ⟨s.buffer.grown n, s.buffer.ledgerAfterGrowth n s.ledger⟩ extra n := by
  have hcapacity : (s.buffer.grown n).capacity = n := capacity_grown h (by omega)
  have hlength := h.length_le
  refine {
    location := rfl
    capacity := hcapacity
    content := ext_toList (toList_content_grown h)
    length := rfl
    room := ?_
    loan := rfl
    calls := calls_ledgerAfterGrowth ..
    ledger := ?_
    store_heap := fun hb => ?_
    store_off_heap := fun hb => ?_ }
  · simp only [room, hcapacity, length_grown]
    omega
  · split
    · rename_i hb
      exact ledgerAfterGrowth_of_heap h hb n s.ledger
    · rename_i hb
      exact ledgerAfterGrowth_off_heap hb n s.ledger
  · rw [toList_store_grown, carried_of_heap hb, length_toList, ← h.capacity_succ,
      Nat.add_sub_add_right]
  · rw [toList_store_grown, carried_off_heap hb, h.length_content]

end Grown

section Outcome

variable {cfg : Config} {s : State} {extra : Nat} (h : s.buffer.WellFormed) (hx : 0 < extra)
include h hx

theorem grow_of_needed_ge (hneeded : Word.limit ≤ s.buffer.capacity + extra) :
    grow cfg extra s = .error (.refused (.resizeOverflow s.buffer.capacity 1)) s := by
  rw [grow_run h hx, targetCapacity_run, if_pos hneeded]

theorem grow_of_aim_ge (hneeded : s.buffer.capacity + extra < Word.limit)
    (haim : Word.limit ≤ aim cfg s.buffer.capacity extra + 1) :
    grow cfg extra s =
      .error (.refused (.resizeOverflow (aim cfg s.buffer.capacity extra) 1)) s := by
  rw [grow_run h hx, targetCapacity_run, if_neg (Nat.not_le.mpr hneeded), if_pos haim]

theorem grow_of_aim_lt (haim : aim cfg s.buffer.capacity extra + 1 < Word.limit) :
    grow cfg extra s =
      match approve cfg (aim cfg s.buffer.capacity extra + 1) with
      | .error why => .error (.refused why) { s with buffer := s.buffer.vacated }
      | .ok _ =>
        .ok () ⟨s.buffer.grown (aim cfg s.buffer.capacity extra),
          s.buffer.ledgerAfterGrowth (aim cfg s.buffer.capacity extra) s.ledger⟩ := by
  have htarget : targetCapacity cfg s.buffer.capacity extra =
      .ok (aim cfg s.buffer.capacity extra) := targetCapacity_eq_ok_iff.mpr ⟨rfl, haim⟩
  have hrun : grow cfg extra s = _ := grow_run h hx
  rw [htarget] at hrun
  exact hrun

theorem grow_ne_resizeOverflow (haim : aim cfg s.buffer.capacity extra + 1 < Word.limit)
    (count elemSize : Nat) (t : State) :
    grow cfg extra s ≠ .error (.refused (.resizeOverflow count elemSize)) t := by
  intro hrun
  rw [grow_of_aim_lt h hx haim] at hrun
  cases ha : approve cfg (aim cfg s.buffer.capacity extra + 1) with
  | error why =>
    have hsize := not_isOverflow_of_approve ha
    rw [ha] at hrun
    cases hrun
    cases hsize
  | ok u =>
    rw [ha] at hrun
    cases hrun

end Outcome

/-- Growth of a well-formed buffer is refused for the size of its capacity exactly if what is
needed is no size, and else for the size of its aim exactly if that, with a terminator, is none.
Either leaves everything. Otherwise one request for the aim and a terminator decides. -/
theorem grow_exact {s : State} (h : s.buffer.WellFormed) (cfg : Config) {extra : Nat}
    (hx : 0 < extra) :
    let size := s.buffer.capacity
    let n := aim cfg size extra
    (∀ t, grow cfg extra s = .error (.refused (.resizeOverflow size 1)) t ↔
      Word.limit ≤ size + extra ∧ t = s) ∧
    (size + extra < Word.limit →
      ∀ t, grow cfg extra s = .error (.refused (.resizeOverflow n 1)) t ↔
        Word.limit ≤ n + 1 ∧ t = s) ∧
    (n + 1 < Word.limit →
      (∀ why, approve cfg (n + 1) = .error why →
        grow cfg extra s = .error (.refused why) { s with buffer := s.buffer.vacated }) ∧
      (approve cfg (n + 1) = .ok () →
        ∃ t, grow cfg extra s = .ok () t ∧ GrownTo s t extra n)) := by
  intro size n
  have hneed : size + extra ≤ n := add_le_aim cfg size extra
  refine ⟨fun t => ⟨fun hrun => ?_, ?_⟩, fun hneeded t => ⟨fun hrun => ?_, ?_⟩,
    fun haim => ⟨fun why ha => ?_, fun ha => ?_⟩⟩
  · by_cases hneeded : Word.limit ≤ size + extra
    · rw [grow_of_needed_ge h hx hneeded] at hrun
      cases hrun
      exact ⟨hneeded, rfl⟩
    by_cases haim : Word.limit ≤ n + 1
    · -- the aim that is named then is not the capacity
      rw [grow_of_aim_ge h hx (Nat.lt_of_not_le hneeded) haim] at hrun
      simp only [EStateM.Result.error.injEq, Stop.refused.injEq,
        Refusal.resizeOverflow.injEq] at hrun
      have hsame : n = size := hrun.1.1
      omega
    · exact absurd hrun (grow_ne_resizeOverflow h hx (Nat.lt_of_not_le haim) _ _ _)
  · rintro ⟨hneeded, rfl⟩
    exact grow_of_needed_ge h hx hneeded
  · by_cases haim : Word.limit ≤ n + 1
    · rw [grow_of_aim_ge h hx hneeded haim] at hrun
      cases hrun
      exact ⟨haim, rfl⟩
    · exact absurd hrun (grow_ne_resizeOverflow h hx (Nat.lt_of_not_le haim) _ _ _)
  · rintro ⟨haim, rfl⟩
    exact grow_of_aim_ge h hx hneeded haim
  · rw [grow_of_aim_lt h hx haim, ha]
  · refine ⟨_, ?_, grownTo_grown h hneed⟩
    rw [grow_of_aim_lt h hx haim, ha]

/-- A text of one byte in front of what an earlier one has left. Forty bytes more are supplied
under a minimum of four; nearly all sizes on top of thirty-one are none, and the largest size as
a minimum leaves no room for a terminator. -/
theorem grow_exact_leftover :
    let b : Buffer := ⟨.inline (ofList ([97, 0, 99] ++ List.replicate 29 0)), .empty⟩
    grow {} (Word.limit - 31) ⟨b, {}⟩ = .error (.refused (.resizeOverflow 31 1)) ⟨b, {}⟩ ∧
      grow ⟨Word.largest, none⟩ 1 ⟨b, {}⟩ =
        .error (.refused (.resizeOverflow Word.largest 1)) ⟨b, {}⟩ ∧
      ∃ t, grow ⟨4, none⟩ 40 ⟨b, {}⟩ = .ok () t ∧ GrownTo ⟨b, {}⟩ t 40 71 ∧
        toList t.buffer.store = 97 :: List.replicate 71 0 := by
  intro b
  have hb : b.WellFormed := ⟨rfl, rfl⟩
  obtain ⟨hneeded, -⟩ := grow_exact (s := ⟨b, {}⟩) hb {} (show 0 < Word.limit - 31 by decide)
  obtain ⟨-, haim, -⟩ := grow_exact (s := ⟨b, {}⟩) hb ⟨Word.largest, none⟩ Nat.one_pos
  obtain ⟨-, -, hsupplied⟩ :=
    grow_exact (s := ⟨b, {}⟩) hb ⟨4, none⟩ (show 0 < 40 by decide)
  obtain ⟨t, hrun, ht⟩ := (hsupplied (by decide)).2 rfl
  refine ⟨(hneeded _).mpr ⟨by decide, rfl⟩, (haim (by decide) _).mpr ⟨by decide, rfl⟩, t, hrun,
    ht, ?_⟩
  rw [ht.store_off_heap Location.noConfusion]
  decide +kernel

end GrowBuffer.Buffer
