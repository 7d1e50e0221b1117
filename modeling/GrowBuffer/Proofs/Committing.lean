import GrowBuffer.Proofs.Runs

/-! # Writing into the spare region and committing

Behind a content whose length is kept, what is written into the spare region and committed
is appended. An inline length is looked for again after the write has covered the NUL that
ended it, and is then found at the next one, wherever earlier contents have left it.
-/

namespace GrowBuffer.Buffer
open Bytes Memory

def deposit (w : ByteArray) : List Op := [.writeSpare 0 w, .commit w.size]

/-- The deposit is answered and has appended `w` in place. -/
def Deposits (cfg : Config) (s : State) (w : ByteArray) : Prop :=
  ∃ b : Buffer, runs cfg (deposit w) s = ([.ok .done, .ok .done], { s with buffer := b }) ∧
    toList b.content = toList s.buffer.content ++ toList w ∧
    b.length = s.buffer.length + w.size ∧ b.location = s.buffer.location ∧
    b.capacity = s.buffer.capacity

/-- The bytes from `n` bytes behind the content up to the next NUL. -/
def leftover (b : Buffer) (n : Nat) : List UInt8 :=
  ((toList b.store).drop (b.length + n)).takeWhile (· != 0)

section Deposit

variable {b : Buffer} {w : ByteArray}

theorem store_scribbled_whole (hw : w.size ≤ b.room) :
    toList (b.scribbled 0 w).store =
      toList b.content ++ toList w ++ (toList b.store).drop (b.length + w.size) := by
  rw [store_scribbled_zero, List.take_of_length_le (by rwa [length_toList]), Nat.min_eq_right hw,
    List.append_assoc]

theorem leftover_eq_nil_iff {n : Nat} (hn : b.length + n < b.store.size) :
    b.leftover n = [] ↔ (toList b.store)[b.length + n]? = some 0 := by
  have hlt : b.length + n < (toList b.store).length := by rwa [length_toList]
  rw [leftover, List.drop_eq_getElem_cons hlt, List.takeWhile_cons, List.getElem?_eq_getElem hlt]
  by_cases hz : (toList b.store)[b.length + n] = 0
  · simp [hz]
  · simp [hz]

theorem content_scribbled_inline (h : b.WellFormed) (hi : b.isInline = true) (hw : w.size ≤ b.room)
    (hz : 0 ∉ toList w) :
    toList (b.scribbled 0 w).content = toList b.content ++ toList w ++ b.leftover w.size := by
  have hi' : (b.scribbled 0 w).isInline = true := by rwa [(sameShape_scribbled h).isInline]
  obtain ⟨_, -, hfree⟩ := h.inline_split hi
  have hkept : 0 ∉ toList b.content ++ toList w := by
    rw [List.mem_append, not_or]
    exact ⟨hfree, hz⟩
  rw [(wellFormed_scribbled h).content_inline hi', store_scribbled_whole hw,
    takeWhile_append_of_notMem hkept, leftover]

end Deposit

section Commit

variable {cfg : Config} {s : State} {w : ByteArray}

theorem runs_deposit (h : s.buffer.WellFormed) :
    runs cfg (deposit w) s =
      let b := s.buffer.scribbled 0 w
      if b.room < w.size then
        ([.ok .done, .error (.faulted (.overcommitted w.size b.room))], { s with buffer := b })
      else ([.ok .done, .ok .done], { s with buffer := b.endedAt (b.length + w.size) }) := by
  have hwrite : (Op.writeSpare 0 w).run cfg s =
      .ok .done { s with buffer := s.buffer.scribbled 0 w } :=
    Action.bind_ok (writeSpare_run h 0 w)
  have hcommit := commit_run (s := { s with buffer := s.buffer.scribbled 0 w })
    (wellFormed_scribbled h) w.size
  simp only
  rw [deposit, runs, hwrite]
  simp only
  rw [runs]
  by_cases hroom : (s.buffer.scribbled 0 w).room < w.size
  · rw [if_pos hroom] at hcommit ⊢
    rw [show (Op.commit w.size).run cfg _ = _ from Action.bind_error hcommit]
    rfl
  · rw [if_neg hroom] at hcommit ⊢
    rw [show (Op.commit w.size).run cfg _ = _ from Action.bind_ok hcommit]
    rfl

theorem deposits_of_not_inline (h : s.buffer.WellFormed) (hi : s.buffer.isInline = false)
    (hw : w.size ≤ s.buffer.room) : Deposits cfg s w := by
  have hshape : SameShape s.buffer (s.buffer.scribbled 0 w) := sameShape_scribbled h
  have hsum := h.length_add_room
  have hi' : (s.buffer.scribbled 0 w).isInline = false := by rw [hshape.isInline, hi]
  have hlength : (s.buffer.scribbled 0 w).length = s.buffer.length := by
    rw [scribbled, length_overwrite hi]
  have hroom : (s.buffer.scribbled 0 w).room = s.buffer.room := by
    simp only [room, hshape.capacity, hlength]
  have hn : s.buffer.length + w.size < (s.buffer.scribbled 0 w).store.size := by
    rw [hshape.store]
    omega
  have hend := sameShape_endedAt hn
  have hput : (s.buffer.scribbled 0 w).endedAt (s.buffer.length + w.size) =
      (s.buffer.scribbled 0 w).setLength (s.buffer.length + w.size) := by
    rw [endedAt, if_neg (by simp [hi'])]
  refine ⟨(s.buffer.scribbled 0 w).endedAt (s.buffer.length + w.size), ?_, ?_, ?_, ?_, ?_⟩
  · rw [runs_deposit h]
    simp only
    rw [if_neg (by omega), hlength]
  · rw [hput]
    apply content_of_split (by rw [store_setLength]; exact store_scribbled_whole hw)
    rw [length_setLength hi', List.length_append, h.length_content, length_toList]
  · rw [hput, length_setLength hi']
  · rw [hend.location, hshape.location]
  · rw [hend.capacity, hshape.capacity]

theorem deposits_inline_iff (h : s.buffer.WellFormed) (hi : s.buffer.isInline = true)
    (hw : w.size ≤ s.buffer.room) (hz : 0 ∉ toList w) :
    Deposits cfg s w ↔ s.buffer.leftover w.size = [] ∧
      s.buffer.length + 2 * w.size < inlineSize := by
  have hshape : SameShape s.buffer (s.buffer.scribbled 0 w) := sameShape_scribbled h
  have hwell : (s.buffer.scribbled 0 w).WellFormed := wellFormed_scribbled h
  have hi' : (s.buffer.scribbled 0 w).isInline = true := by rw [hshape.isInline, hi]
  have hcontent := content_scribbled_inline h hi hw hz
  have hlength : (s.buffer.scribbled 0 w).length =
      s.buffer.length + w.size + (s.buffer.leftover w.size).length := by
    rw [← hwell.length_content, hcontent, List.length_append, List.length_append,
      h.length_content, length_toList]
  have hsum := hwell.length_add_room
  rw [hshape.store, h.inline_size hi] at hsum
  constructor
  · rintro ⟨b, hrun, hb, -⟩
    rw [runs_deposit h] at hrun
    simp only at hrun
    split at hrun
    · cases hrun
    · rename_i hroom
      obtain rfl : b = (s.buffer.scribbled 0 w).endedAt
          ((s.buffer.scribbled 0 w).length + w.size) :=
        (congrArg (fun r : _ × State => r.2.buffer) hrun).symm
      rw [content_endedAt_inline hwell hi' (by omega), hcontent, List.append_right_eq_self] at hb
      rw [hb, List.length_nil] at hlength
      exact ⟨hb, by omega⟩
  · rintro ⟨hleft, hfits⟩
    rw [hleft, List.append_nil] at hcontent
    rw [hleft, List.length_nil, Nat.add_zero] at hlength
    have hn : (s.buffer.scribbled 0 w).length + w.size < (s.buffer.scribbled 0 w).store.size := by
      rw [hshape.store, h.inline_size hi]
      omega
    have hend := sameShape_endedAt hn
    have hsame := content_endedAt_inline hwell hi' (Nat.le_add_right _ w.size)
    refine ⟨_, ?_, hsame.trans hcontent, ?_, ?_, ?_⟩
    · rw [runs_deposit h]
      simp only
      rw [if_neg (by omega)]
    · rw [← (wellFormed_endedAt hn hwell).length_content, hsame, hwell.length_content, hlength]
    · rw [hend.location, hshape.location]
    · rw [hend.capacity, hshape.capacity]

end Commit

/-- Writing bytes without a NUL into the spare region and committing them appends them in
place, except to an inline buffer: there the byte behind them has to be a NUL already, and
there has to be room for as many bytes once more. -/
theorem reachable_deposits_iff {b : Buffer} (h : Reachable b) (cfg : Config) (l : Ledger)
    {w : ByteArray} (hw : w.size ≤ b.room) (hz : 0 ∉ toList w) :
    Deposits cfg ⟨b, l⟩ w ↔
      (b.isInline = true → (toList b.store)[b.length + w.size]? = some 0 ∧
        b.length + 2 * w.size < inlineSize) := by
  have hwell := h.sound.wellFormed
  have hlt : b.length + w.size < b.store.size := by have := hwell.length_add_room; omega
  cases hi : b.isInline with
  | false =>
    have hall : Deposits cfg ⟨b, l⟩ w := deposits_of_not_inline hwell hi hw
    exact ⟨fun _ hi' => absurd hi' Bool.false_ne_true, fun _ => hall⟩
  | true =>
    rw [deposits_inline_iff (s := ⟨b, l⟩) hwell hi hw hz, leftover_eq_nil_iff hlt]
    exact ⟨fun hd _ => hd, fun hd => hd rfl⟩

theorem reachable_deposits_iff_appended :
    Deposits {} ⟨((Op.append ⟨#[97, 98]⟩).after {} {}).buffer, {}⟩ ⟨#[99, 100]⟩ :=
  (reachable_deposits_iff (.step (.fresh .new) {} {} (.append ⟨#[97, 98]⟩)) {} {}
    (by decide) (by decide)).mpr fun _ => by decide

/-- Twenty bytes in a new buffer, which has room for thirty-one. -/
theorem overrun_not_deposited :
    ¬ ∀ b, Reachable b → ∀ w : ByteArray, w.size ≤ b.room → 0 ∉ toList w →
      Deposits {} ⟨b, {}⟩ w := by
  intro hall
  obtain ⟨b, hrun, -⟩ :=
    hall {} (.fresh .new) (ofList (List.replicate 20 97)) (by decide) (by decide)
  have hanswers : (runs {} (deposit (ofList (List.replicate 20 97))) {}).1 =
      [.ok .done, .ok .done] := congrArg Prod.fst hrun
  exact absurd hanswers (by decide +kernel)

/-- What a cleared text has left behind comes back with the bytes that are committed. -/
example :
    let ops := .append ⟨#[97, 98, 99, 100]⟩ :: .clear :: deposit ⟨#[120]⟩
    toList (runs {} ops {}).2.buffer.content = [120, 98, 99, 100] := by
  decide +kernel

end GrowBuffer.Buffer
