import GrowBuffer.Proofs.Blocks

/-! # Chains of resizes

The caller of a resize says how many bytes of the block it vouches for, which may be fewer
or more than there are. A byte is kept when it is vouched for, is there and has a place in the
new block; all others are zero. Over a chain of resizes this leaves the bytes that every one
of them has kept, and none comes back later.
-/

namespace GrowBuffer.Memory
open Bytes

/-- A request for another size of a block, in bytes or in elements. -/
inductive Resizing where
  | bytes (oldSize newSize : Nat)
  | elements (oldCount newCount elemSize : Nat)

namespace Resizing

def run (cfg : Config) (block : ByteArray) : Resizing → Action Ledger ByteArray
  | bytes oldSize newSize => Memory.resize cfg block oldSize newSize
  | elements oldCount newCount elemSize => resizeElements cfg block oldCount newCount elemSize

/-- The bytes that are vouched for. -/
def oldSize : Resizing → Nat
  | bytes oldSize _ => oldSize
  | elements oldCount _ elemSize => oldCount * elemSize

/-- The bytes that are asked for. -/
def newSize : Resizing → Nat
  | bytes _ newSize => newSize
  | elements _ newCount elemSize => newCount * elemSize

end Resizing

/-- From one block to another by resizes that were answered, whatever was done in between. -/
inductive Resized : ByteArray → List Resizing → ByteArray → Prop
  | none (block : ByteArray) : Resized block [] block
  | next {cfg : Config} {r : Resizing} {rs : List Resizing} {u v w : ByteArray} {l l' : Ledger}
      (h : r.run cfg u l = .ok v l') (hs : Resized v rs w) : Resized u (r :: rs) w

/-- The size of a block of `size` bytes after some resizes. -/
def lastSize (size : Nat) (rs : List Resizing) : Nat := (rs.getLast?.map (·.newSize)).getD size

/-- How many of `size` bytes all of these resizes keep. -/
def keptSize (size : Nat) (rs : List Resizing) : Nat :=
  (rs.flatMap fun r => [r.oldSize, r.newSize]).foldl min size

theorem keptSize_cons (size : Nat) (r : Resizing) (rs : List Resizing) :
    keptSize size (r :: rs) = keptSize (min (min size r.oldSize) r.newSize) rs := rfl

theorem keptSize_min (m n : Nat) (rs : List Resizing) :
    keptSize (min m n) rs = min m (keptSize n rs) := by
  induction rs generalizing n with
  | nil => rfl
  | cons r rs ih =>
    rw [keptSize_cons, keptSize_cons, Nat.min_assoc, Nat.min_assoc, ih, Nat.min_assoc]

theorem keptSize_le (size : Nat) (rs : List Resizing) : keptSize size rs ≤ size := by
  have hmin := keptSize_min size size rs
  rw [Nat.min_self] at hmin
  omega

theorem lastSize_cons (size : Nat) (r : Resizing) (rs : List Resizing) :
    lastSize size (r :: rs) = lastSize r.newSize rs := by
  cases rs with
  | nil => rfl
  | cons _ _ => rfl

section Step

variable {cfg : Config} {block w : ByteArray} {l l' : Ledger}

theorem resized_zero (block : ByteArray) (oldSize : Nat) : resized block oldSize 0 = .empty :=
  ext_toList (toList_nil_iff.mpr (size_resized block oldSize 0))

theorem resize_answered {oldSize newSize : Nat}
    (h : Memory.resize cfg block oldSize newSize l = .ok w l') :
    w = resized block oldSize newSize := by
  rw [resize_eq] at h
  split at h
  · rename_i hz
    cases h
    rw [hz, resized_zero]
  · split at h
    · unfold requested at h
      split at h
      · cases h
        rfl
      · cases h
    · cases h
      rfl

theorem resizeElements_answered {oldCount newCount elemSize : Nat}
    (h : resizeElements cfg block oldCount newCount elemSize l = .ok w l') :
    w = resized block (oldCount * elemSize) (newCount * elemSize) := by
  rcases resizeElements_cases cfg block oldCount newCount elemSize l with ⟨e, hrun⟩ | hrun
  · rw [hrun] at h
    cases h
  · rw [hrun] at h
    exact resize_answered h

theorem Resizing.answered {r : Resizing} (h : r.run cfg block l = .ok w l') :
    w = resized block r.oldSize r.newSize := by
  cases r with
  | bytes oldSize newSize => exact resize_answered h
  | elements oldCount newCount elemSize => exact resizeElements_answered h

end Step

theorem getElem?_resized {block : ByteArray} {oldSize newSize i : Nat} (hi : i < newSize) :
    (toList (resized block oldSize newSize))[i]? =
      if i < min (min block.size oldSize) newSize then (toList block)[i]? else some 0 := by
  have hsize : (Bytes.resize block newSize).size = newSize := size_resize block newSize
  unfold resized
  split
  · rw [getElem?_zeroFrom (hi.trans_eq hsize.symm), getElem?_resize hi]
    by_cases hold : i < oldSize
    · simp only [Nat.lt_min, hold, hi, and_true, if_true]
    · rw [if_neg hold, if_neg (by omega)]
  · have hold : i < oldSize := by omega
    rw [getElem?_resize hi]
    simp only [Nat.lt_min, hold, hi, and_true]

/-- Along a chain of resizes the bytes that each of them keeps stay what they were, all others
of the last block are zero, and the last block has the size that was last asked for. -/
theorem resized_chain {v w : ByteArray} {rs : List Resizing} (h : Resized v rs w) :
    w.size = lastSize v.size rs ∧ ∀ i, i < w.size →
      (toList w)[i]? = if i < keptSize v.size rs then (toList v)[i]? else some 0 := by
  -- on the chain from its front; what the first resize has made zero is kept as zero or made so
  induction h with
  | none block => exact ⟨rfl, fun i hi => (if_pos hi).symm⟩
  | @next cfg r rs u v w l l' h _ ih =>
    obtain rfl := Resizing.answered h
    rw [size_resized] at ih
    obtain ⟨hsize, hbytes⟩ := ih
    refine ⟨hsize.trans (lastSize_cons u.size r rs).symm, fun i hi => ?_⟩
    rw [hbytes i hi, keptSize_cons, keptSize_min]
    by_cases hk : i < keptSize r.newSize rs
    · have hnew : i < r.newSize := Nat.lt_of_lt_of_le hk (keptSize_le r.newSize rs)
      rw [if_pos hk, getElem?_resized hnew]
      simp only [Nat.lt_min, hnew, hk, and_true]
    · rw [if_neg hk, if_neg (by omega)]

/-- Of eight bytes six are vouched for, then four are left, and asking for seven with a claim
of twenty brings none of the others back. -/
theorem resized_chain_overclaimed :
    let v : ByteArray := ⟨#[1, 2, 3, 4, 5, 6, 7, 8]⟩
    let w : ByteArray := ⟨#[1, 2, 3, 4, 0, 0, 0]⟩
    let rs : List Resizing := [.bytes 6 10, .elements 2 1 4, .bytes 20 7]
    Resized v rs w ∧ w.size = lastSize v.size rs ∧ keptSize v.size rs = 4 ∧
      (toList w)[3]? = (toList v)[3]? ∧ (toList w)[5]? = some 0 := by
  intro v w rs
  have hlonger : resized v 6 10 = ⟨#[1, 2, 3, 4, 5, 6, 0, 0, 0, 0]⟩ := by decide +kernel
  have hshorter : resized ⟨#[1, 2, 3, 4, 5, 6, 0, 0, 0, 0]⟩ 8 4 = ⟨#[1, 2, 3, 4]⟩ := by
    decide +kernel
  have hlast : resized ⟨#[1, 2, 3, 4]⟩ 20 7 = w := by decide +kernel
  have hfirst : (Resizing.bytes 6 10).run {} v {} = .ok (resized v 6 10) _ := rfl
  have hsecond : (Resizing.elements 2 1 4).run {} ⟨#[1, 2, 3, 4, 5, 6, 0, 0, 0, 0]⟩ {} =
      .ok (resized _ 8 4) _ := rfl
  have hthird : (Resizing.bytes 20 7).run {} ⟨#[1, 2, 3, 4]⟩ {} = .ok (resized _ 20 7) _ := rfl
  rw [hlonger] at hfirst
  rw [hshorter] at hsecond
  rw [hlast] at hthird
  have hchain : Resized v rs w := .next hfirst (.next hsecond (.next hthird (.none w)))
  obtain ⟨hsize, hbytes⟩ := resized_chain hchain
  exact ⟨hchain, hsize, rfl, hbytes 3 (by decide), hbytes 5 (by decide)⟩

end GrowBuffer.Memory
