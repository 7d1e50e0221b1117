import GrowBuffer.Bytes
import Mathlib.Data.List.TakeWhile
import Mathlib.Tactic

/-! # Bytes as lists

A store is read as the bytes in front of a place and the bytes from there on, and an
overwrite that starts at that place only touches the second part. The first NUL of a store
is where the text ends that no NUL is part of.
-/

namespace GrowBuffer.Bytes

/-- The bytes of a list. -/
def ofList (l : List UInt8) : ByteArray := ⟨l.toArray⟩

@[simp] theorem toList_ofList (l : List UInt8) : toList (ofList l) = l := rfl

@[simp] theorem size_ofList (l : List UInt8) : (ofList l).size = l.length := by
  rw [← length_toList, toList_ofList]

theorem eq_ofList_iff {b : ByteArray} {l : List UInt8} : b = ofList l ↔ toList b = l := by
  constructor
  · rintro rfl
    rfl
  · intro h
    exact ext_toList h

@[simp] theorem toList_mk (l : List UInt8) : toList ⟨l.toArray⟩ = l := rfl

theorem toList_nil_iff {b : ByteArray} : toList b = [] ↔ b.size = 0 := by
  rw [← length_toList, List.length_eq_zero_iff]

theorem hasNul_iff {b : ByteArray} : hasNul b = true ↔ 0 ∈ toList b := by
  simp [hasNul]

theorem toList_extract_zero (b : ByteArray) (n : Nat) :
    toList (b.extract 0 n) = (toList b).take n := by
  rw [toList_extract, List.drop_zero]

theorem size_extract_zero (b : ByteArray) (n : Nat) : (b.extract 0 n).size = min n b.size := by
  rw [← length_toList, toList_extract_zero, List.length_take, length_toList]

theorem toList_overwrite_of_split {b w : ByteArray} {p q : List UInt8}
    (h : toList b = p ++ q) : toList (overwrite b p.length w) = p ++ toList w ++ q.drop w.size := by
  rw [toList_overwrite, h, List.take_left, List.drop_append, Nat.add_sub_cancel_left,
    List.drop_eq_nil_of_le (Nat.le_add_right _ _), List.nil_append]

theorem getElem?_overwrite {b w : ByteArray} {start i : Nat} (h : start ≤ b.size) :
    (toList (overwrite b start w))[i]? =
      if i < start then (toList b)[i]?
      else if i < start + w.size then (toList w)[i - start]? else (toList b)[i]? := by
  have hs : ((toList b).take start).length = start := by simp [h]
  rw [toList_overwrite, List.append_assoc]
  by_cases h₁ : i < start
  · rw [if_pos h₁, List.getElem?_append_left (by omega), List.getElem?_take_of_lt h₁]
  rw [if_neg h₁, List.getElem?_append_right (by omega), hs]
  by_cases h₂ : i < start + w.size
  · rw [if_pos h₂, List.getElem?_append_left (by rw [length_toList]; omega)]
  · rw [if_neg h₂, List.getElem?_append_right (by rw [length_toList]; omega), length_toList,
      List.getElem?_drop]
    congr 1
    omega

theorem getElem?_resize {b : ByteArray} {n i : Nat} (hi : i < n) :
    (toList (resize b n))[i]? = if i < b.size then (toList b)[i]? else some 0 := by
  have hs : ((toList b).take n).length = min n b.size := by simp
  rw [toList_resize]
  by_cases h : i < b.size
  · rw [if_pos h, List.getElem?_append_left (by omega), List.getElem?_take_of_lt hi]
  · rw [if_neg h, List.getElem?_append_right (by omega), List.getElem?_replicate_of_lt (by omega)]

theorem getElem?_zeroFrom {b : ByteArray} {start i : Nat} (hi : i < b.size) :
    (toList (zeroFrom b start))[i]? = if i < start then (toList b)[i]? else some 0 := by
  have hs : ((toList b).take start).length = min start b.size := by simp
  rw [toList_zeroFrom]
  by_cases h : i < start
  · rw [if_pos h, List.getElem?_append_left (by omega), List.getElem?_take_of_lt h]
  · rw [if_neg h, List.getElem?_append_right (by omega), List.getElem?_replicate_of_lt (by omega)]

theorem firstNul?_of_split {b : ByteArray} {p q : List UInt8} (h : toList b = p ++ 0 :: q)
    (hp : 0 ∉ p) : firstNul? b = some p.length := by
  have hn : p.findIdx? (· == 0) = none := by
    rw [List.findIdx?_eq_none_iff]
    intro c hc
    rw [beq_eq_false_iff_ne]
    rintro rfl
    exact hp hc
  simp [firstNul?, h, List.findIdx?_append, hn, List.findIdx?_cons]

theorem exists_split_of_nul {b : ByteArray} (h : 0 ∈ toList b) :
    ∃ p q, toList b = p ++ 0 :: q ∧ 0 ∉ p := by
  obtain ⟨p, q, hb, hp⟩ := List.eq_append_cons_of_mem h
  exact ⟨p, q, hb, hp⟩

/-- The first NUL at the latest is the one behind the list. -/
theorem exists_append_nul_eq (l r : List UInt8) :
    ∃ q, l ++ 0 :: r = l.takeWhile (· != 0) ++ 0 :: q := by
  induction l with
  | nil => exact ⟨r, rfl⟩
  | cons c l ih =>
    by_cases hc : c = 0
    · subst hc
      exact ⟨l ++ 0 :: r, rfl⟩
    · obtain ⟨q, hq⟩ := ih
      refine ⟨q, ?_⟩
      rw [List.takeWhile_cons_of_pos (by simpa using hc), List.cons_append, hq, List.cons_append]

theorem nul_notMem_takeWhile (l : List UInt8) : 0 ∉ l.takeWhile (· != 0) := by
  intro hz
  have hne := List.mem_takeWhile_imp hz
  cases hne

/-- Bytes without a NUL stand in front of the first one, wherever that is. -/
theorem takeWhile_append_of_notMem {p : List UInt8} (hp : 0 ∉ p) (q : List UInt8) :
    (p ++ q).takeWhile (· != 0) = p ++ q.takeWhile (· != 0) := by
  apply List.takeWhile_append_of_pos
  intro c hc
  rw [bne_iff_ne]
  rintro rfl
  exact hp hc

theorem takeWhile_eq_self_of_notMem {l : List UInt8} (h : 0 ∉ l) :
    l.takeWhile (· != 0) = l := by
  have hall := takeWhile_append_of_notMem h []
  rwa [List.append_nil, List.takeWhile_nil, List.append_nil] at hall

theorem length_takeWhile_lt {l : List UInt8} (h : 0 ∈ l) :
    (l.takeWhile (· != 0)).length < l.length := by
  have hpre := List.takeWhile_prefix (l := l) (· != 0)
  refine Nat.lt_of_le_of_ne hpre.length_le fun hlen => nul_notMem_takeWhile l ?_
  rwa [hpre.eq_of_length hlen]

end GrowBuffer.Bytes
