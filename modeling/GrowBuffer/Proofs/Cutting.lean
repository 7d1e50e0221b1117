import GrowBuffer.Buffer.Release
import GrowBuffer.Buffer.Spare
import GrowBuffer.Proofs.Placing

/-! # Moving the end of the content

An inline text is ended by a NUL and any other content by its length. Either way the store
keeps its shape, and what stood in front of the new end stays where it is.
-/

namespace GrowBuffer.Buffer
open Bytes Memory

/-- The buffer with its end at `n`. -/
def endedAt (b : Buffer) (n : Nat) : Buffer :=
  if b.isInline then b.overwrite n terminator else b.setLength n

section EndedAt

variable {b : Buffer} {n : Nat} (hn : n < b.store.size)
include hn

theorem wellFormed_endedAt (h : b.WellFormed) : (b.endedAt n).WellFormed := by
  unfold endedAt
  split
  · exact h.overwrite hn fun _ _ _ => rfl
  · exact h.setLength hn

theorem sameShape_endedAt : SameShape b (b.endedAt n) := by
  unfold endedAt
  split
  · exact SameShape.overwrite hn
  · exact SameShape.setLength _ _

end EndedAt

theorem endedAt_run {s : State} {n : Nat} (hn : n < s.buffer.store.size) :
    (if s.buffer.isInline = true then write n terminator else putLength n) s =
      .ok () { s with buffer := s.buffer.endedAt n } := by
  unfold endedAt
  split
  · exact write_run hn
  · rfl

theorem content_endedAt {b : Buffer} (h : b.WellFormed) {n : Nat} (hn : n ≤ b.length) :
    toList (b.endedAt n).content = (toList b.content).take n := by
  obtain ⟨rest, hstore, -, hrest⟩ := h.split
  have hlen : ((toList b.content).take n).length = n := by
    rw [List.length_take, h.length_content]
    omega
  have hcut : toList b.store =
      (toList b.content).take n ++ ((toList b.content).drop n ++ rest) := by
    rw [← List.append_assoc, List.take_append_drop, hstore]
  unfold endedAt
  split
  · rename_i hi
    have hnew : toList (b.overwrite n terminator).store =
        (toList b.content).take n ++ 0 :: ((toList b.content).drop n ++ rest).drop 1 := by
      have := toList_overwrite_of_split (w := terminator) hcut
      rw [hlen] at this
      rw [store_overwrite, this, toList_terminator, List.append_assoc]
      rfl
    have hfree : 0 ∉ (toList b.content).take n := fun hm => (hrest hi).1 (List.mem_of_mem_take hm)
    exact content_of_split hnew (length_of_split (by rwa [isInline_overwrite]) hnew hfree)
  · rename_i hi
    apply content_of_split (by rw [store_setLength]; exact hcut)
    rw [length_setLength (by simpa using hi), hlen]

/-- At or behind its NUL an inline text does not notice another end. -/
theorem content_endedAt_inline {b : Buffer} (h : b.WellFormed) (hi : b.isInline = true) {n : Nat}
    (hn : b.length ≤ n) : toList (b.endedAt n).content = toList b.content := by
  rw [endedAt, if_pos hi]
  exact content_overwrite h hn fun _ => .inr ⟨[], rfl⟩

theorem clear_run {s : State} (h : s.buffer.WellFormed) :
    clear s = .ok () { s with buffer := s.buffer.endedAt 0 } := by
  rw [clear, Action.bind_ok (current_run s)]
  exact endedAt_run h.store_pos

theorem commit_run {s : State} (h : s.buffer.WellFormed) (n : Nat) :
    commit n s =
      if s.buffer.room < n then .error (.faulted (.overcommitted n s.buffer.room)) s
      else .ok () { s with buffer := s.buffer.endedAt (s.buffer.length + n) } := by
  rw [commit, Action.bind_ok (readRoom_run h)]
  by_cases hn : s.buffer.room < n
  · rw [if_pos hn, if_pos hn]
    rfl
  · have := h.length_add_room
    rw [if_neg hn, if_neg hn, Action.bind_ok (current_run s)]
    exact endedAt_run (by omega)

theorem content_eq_concat {b : Buffer} (h : b.WellFormed) (hn : b.length ≠ 0) :
    ∃ c, toList b.content = (toList b.content).take (b.length - 1) ++ [c] ∧
      toList (b.store.extract (b.length - 1) b.length) = [c] := by
  obtain ⟨n, hn⟩ := Nat.exists_eq_succ_of_ne_zero hn
  have hlt := h.length_lt
  have hlen := h.length_content
  obtain ⟨c, hc⟩ : ∃ c, (toList b.content)[n]? = some c :=
    ⟨_, List.getElem?_eq_getElem (by omega)⟩
  have hdrop : (toList b.content).drop n = [c] := by
    rw [List.drop_eq_getElem_cons (by omega), List.drop_eq_nil_of_le (by omega)]
    rw [List.getElem?_eq_getElem (by omega)] at hc
    rw [Option.some.inj hc]
  refine ⟨c, ?_, ?_⟩
  · rw [hn, Nat.succ_sub_one, ← hdrop, List.take_append_drop]
  · rw [toList_extract, ← toList_content, hn, Nat.succ_sub_one, hdrop]

theorem pop_run {s : State} (h : s.buffer.WellFormed) :
    pop s =
      .ok (toList s.buffer.content).getLast?
        (if s.buffer.length = 0 then s
          else { s with buffer := s.buffer.endedAt (s.buffer.length - 1) }) := by
  have hlen := h.length_content
  rw [pop, Action.bind_ok (current_run s)]
  by_cases hn : s.buffer.length = 0
  · have hnil : toList s.buffer.content = [] := h.content_eq_nil hn
    simp only [hn, if_true, hnil]
    rfl
  · have hlt := h.length_lt
    obtain ⟨c, hc, hlast⟩ := content_eq_concat h hn
    have hend := endedAt_run (s := s) (n := s.buffer.length - 1) (by omega)
    have hget : (toList s.buffer.content).getLast? = some c := by
      rw [hc, List.getLast?_concat]
    simp only [if_neg hn]
    rw [Action.bind_ok (slice_run (by omega) (by omega)), hget, hlast]
    split
    · rename_i hi
      rw [if_pos hi] at hend
      rw [Action.bind_ok hend]
      rfl
    · rename_i hi
      rw [if_neg hi] at hend
      rw [Action.bind_ok hend]
      rfl

end GrowBuffer.Buffer
