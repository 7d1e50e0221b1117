import GrowBuffer.Proofs.Blocks

/-! # Copies of copies

A copy is cut at its bound or at the first NUL, whichever comes first, and ends with a NUL of its
own. That NUL stands behind all that a copy of the copy may take, so two bounds are worth the
smaller of them, and a copy without a bound is the same once more. What a copy costs depends on
its text alone.
-/

namespace GrowBuffer.Memory
open Bytes

/-- The text that a copy of at most `n` bytes takes. -/
def textOf (s : ByteArray) (n : Nat) : List UInt8 := ((toList s).take n).takeWhile (· != 0)

/-- The longest beginning of some bytes that has no NUL. -/
structure LongestText (bytes p : List UInt8) : Prop where
  begins : p <+: bytes
  nul_notMem : 0 ∉ p
  longest : ∀ q, q <+: bytes → 0 ∉ q → q <+: p

theorem longestText_textOf (s : ByteArray) (n : Nat) :
    LongestText ((toList s).take n) (textOf s n) where
  begins := List.takeWhile_prefix _
  nul_notMem := nul_notMem_takeWhile _
  longest := by
    rintro q ⟨rest, hq⟩ hnul
    rw [textOf, ← hq, takeWhile_append_of_notMem hnul]
    exact List.prefix_append q _

theorem textOf_of_size_le {s : ByteArray} {n : Nat} (h : s.size ≤ n) :
    textOf s n = textOf s s.size := by
  have hall : ∀ k, s.size ≤ k → (toList s).take k = toList s := fun k hk =>
    List.take_of_length_le ((length_toList s).trans_le hk)
  rw [textOf, textOf, hall n h, hall s.size (Nat.le_refl _)]

theorem textOf_terminated {t : ByteArray} {p : List UInt8} (hp : 0 ∉ p)
    (ht : toList t = p ++ [0]) (m : Nat) : textOf t m = p.take m := by
  have hwhole : (p ++ [0]).takeWhile (· != 0) = p := by
    rw [takeWhile_append_of_notMem hp, List.takeWhile_cons_of_neg (by decide), List.append_nil]
  rw [textOf, ht, ← List.take_takeWhile, hwhole]

theorem take_textOf (s : ByteArray) (n m : Nat) : (textOf s n).take m = textOf s (min n m) := by
  rw [textOf, textOf, List.take_takeWhile, List.take_take, Nat.min_comm]

theorem untilNul_extract_zero (s : ByteArray) (n : Nat) :
    untilNul (s.extract 0 n) = ofList (textOf s n) := by
  apply ext_toList
  rw [toList_untilNul, toList_extract_zero, toList_ofList, textOf]

section Copy

variable {cfg : Config} {s t : ByteArray} {n m : Nat} {l l' : Ledger}

theorem duplicateAtMost_congr (h : textOf t m = textOf s n) :
    duplicateAtMost cfg t m = duplicateAtMost cfg s n := by
  simp only [duplicateAtMost, untilNul_extract_zero, h]

theorem duplicateAtMost_answered (h : duplicateAtMost cfg s n l = .ok t l') :
    toList t = textOf s n ++ [0] ∧ l' = l.enterFresh t.size := by
  rw [duplicateAtMost_eq, untilNul_extract_zero] at h
  split at h
  · cases h
  · next extent hextent =>
    obtain ⟨-, rfl⟩ := Word.add?_eq_some_iff.mp hextent
    have hpad : padded (toList (ofList (textOf s n))) ((ofList (textOf s n)).size + 1) =
        ofList (textOf s n ++ [0]) := by
      rw [padded, toList_ofList, size_ofList, Nat.add_sub_cancel_left]
      rfl
    rw [hpad, requested] at h
    split at h
    · cases h
      exact ⟨rfl, by rw [size_ofList, size_ofList, List.length_append, List.length_singleton]⟩
    · cases h

end Copy

/-- A copy that is given is the longest text without a NUL within its bound, and one NUL; it is
entered as one fresh block of its size. A bound that the source does not reach is none. To copy
the copy, with a bound or without one, is to copy the source with the smaller bound: the same
block, entry and refusal, whatever the configuration and the ledger are by then. -/
theorem copies_compose (s : ByteArray) (n : Nat) :
    (s.size ≤ n → ∀ cfg, duplicate cfg s = duplicateAtMost cfg s n) ∧
      ∀ (cfg : Config) (l l' : Ledger) (t : ByteArray), duplicateAtMost cfg s n l = .ok t l' →
        (∃ p, LongestText ((toList s).take n) p ∧ toList t = p ++ [0]) ∧
        l' = l.enterFresh t.size ∧
        (∀ cfg, duplicate cfg t = duplicateAtMost cfg s n) ∧
        ∀ cfg m, duplicateAtMost cfg t m = duplicateAtMost cfg s (min n m) := by
  refine ⟨fun hn cfg => duplicateAtMost_congr (textOf_of_size_le hn).symm, ?_⟩
  intro cfg l l' t h
  obtain ⟨ht, hl⟩ := duplicateAtMost_answered h
  have htext := longestText_textOf s n
  have hcut : ∀ m, textOf t m = (textOf s n).take m := textOf_terminated htext.nul_notMem ht
  refine ⟨⟨_, htext, ht⟩, hl, fun cfg => ?_, fun cfg m => ?_⟩
  · have hsize : (textOf s n).length ≤ t.size := by
      rw [← length_toList, ht, List.length_append]
      exact Nat.le_add_right _ _
    apply duplicateAtMost_congr
    rw [hcut, List.take_of_length_le hsize]
  · apply duplicateAtMost_congr
    rw [hcut, take_textOf]

/-- Of six bytes with a NUL behind the third, five are copied, then two of the copy. -/
theorem copies_compose_nul :
    let s : ByteArray := ⟨#[97, 98, 99, 0, 100, 101]⟩
    let t : ByteArray := ⟨#[97, 98, 99, 0]⟩
    duplicateAtMost {} s 5 {} = .ok t ⟨1, 0, 4, 4⟩ ∧ s.size ≤ 6 ∧
      duplicate {} s = duplicateAtMost {} s 6 ∧ duplicate {} t = duplicateAtMost {} s 5 ∧
      duplicateAtMost ⟨8192, some 2⟩ t 2 = duplicateAtMost ⟨8192, some 2⟩ s 2 := by
  intro s t
  have htext : untilNul (s.extract 0 5) = ⟨#[97, 98, 99]⟩ := by decide +kernel
  have hcopy : padded (toList ⟨#[97, 98, 99]⟩) 4 = t := by decide +kernel
  have hrun : duplicateAtMost {} s 5 {} = .ok t ⟨1, 0, 4, 4⟩ := by
    rw [duplicateAtMost_eq, htext, ← hcopy]
    rfl
  obtain ⟨-, -, hagain, hbound⟩ := (copies_compose s 5).2 {} {} _ t hrun
  exact ⟨hrun, by decide, (copies_compose s 6).1 (by decide) {}, hagain {}, hbound _ 2⟩

end GrowBuffer.Memory
