import GrowBuffer.Memory.Block
import GrowBuffer.Proofs.Bytes

/-! # Requests for blocks, run to their end

An action is followed step by step by `bind_ok` and `bind_error`. A request whose size is
known depends on `approve` alone: it is granted and entered, or it is refused for want of
memory and leaves the ledger as it was.
-/

namespace GrowBuffer.Memory
open Bytes

namespace Action

variable {σ α β : Type} {x y : Action σ α} {f : α → Action σ β} {s t : σ}

theorem bind_ok {a : α} (h : x s = .ok a t) : (x >>= f) s = f a t := by
  show EStateM.bind x f s = _
  rw [EStateM.bind, h]

theorem bind_error {e : Stop} (h : x s = .error e t) : (x >>= f) s = .error e t := by
  show EStateM.bind x f s = _
  rw [EStateM.bind, h]

theorem bind_congr (h : x s = y s) : (x >>= f) s = (y >>= f) s := by
  show EStateM.bind x f s = EStateM.bind y f s
  rw [EStateM.bind, EStateM.bind, h]

theorem exists_of_bind_answered {b : β} {u : σ} (h : (x >>= f) s = .ok b u) :
    ∃ a t, x s = .ok a t ∧ f a t = .ok b u := by
  cases hx : x s with
  | ok a t => exact ⟨a, t, rfl, (bind_ok hx).symm.trans h⟩
  | error e t => cases (bind_error hx).symm.trans h

end Action

/-- Whether the size of the request was the trouble, so that no memory was asked for. -/
def Refusal.isOverflow : Refusal → Bool
  | .freshOverflow _ _ => true
  | .resizeOverflow _ _ => true
  | _ => false

section Approval

variable {cfg : Config} {n : Nat} {why : Refusal}

theorem permits_iff : cfg.permits n = true ↔ ∀ c ∈ cfg.ceiling, n ≤ c := by
  obtain ⟨m, ceiling⟩ := cfg
  cases ceiling with
  | none => simp
  | some c => simp

theorem approve_eq_ok_iff {u : Unit} :
    approve cfg n = .ok u ↔ (∀ c ∈ cfg.ceiling, n ≤ c) ∧ n < addressable := by
  rw [← permits_iff, approve]
  split
  · next hp => split <;> simp [*]
  · next hp => simp [hp]

/-- The ceiling is named before the end of the memory. -/
theorem approve_eq_error_iff :
    approve cfg n = .error why ↔
      (∃ c ∈ cfg.ceiling, c < n ∧ .aboveCeiling n c = why) ∨
        (∀ c ∈ cfg.ceiling, n ≤ c) ∧ addressable ≤ n ∧ .exhausted n = why := by
  rw [← permits_iff, approve]
  by_cases hp : cfg.permits n = true
  · have hle := permits_iff.mp hp
    have hnone : ¬ ∃ c ∈ cfg.ceiling, c < n ∧ .aboveCeiling n c = why := fun ⟨c, hc, hlt, _⟩ =>
      absurd (hle c hc) (Nat.not_le.mpr hlt)
    rw [if_pos hp, or_iff_right hnone]
    split
    · next hn => simp [Nat.not_le.mpr hn]
    · next hn => simp [hp, Nat.not_lt.mp hn]
  · rw [if_neg hp]
    rw [permits_iff] at hp
    push Not at hp
    obtain ⟨c, hc, hlt⟩ := hp
    rw [Option.mem_def] at hc
    simp [hc, hlt, permits_iff, Nat.not_le.mpr hlt]

theorem lt_addressable_of_approve {u : Unit} (h : approve cfg n = .ok u) : n < addressable :=
  (approve_eq_ok_iff.mp h).2

theorem not_isOverflow_of_approve (h : approve cfg n = .error why) : why.isOverflow = false := by
  rcases approve_eq_error_iff.mp h with ⟨c, -, -, rfl⟩ | ⟨-, -, rfl⟩
  · rfl
  · rfl

end Approval

theorem addressable_lt_limit : addressable < Word.limit := by decide

/-- What becomes of a request for `bytes` bytes: `block`, entered as `l`, or a refusal. -/
def requested (cfg : Config) (bytes : Nat) (block : ByteArray) (l old : Ledger) :
    EStateM.Result Stop Ledger ByteArray :=
  match approve cfg bytes with
  | .ok _ => .ok block l
  | .error why => .error (.refused why) old

theorem requested_ok {cfg : Config} {bytes : Nat} {u : Unit} (h : approve cfg bytes = .ok u)
    (block : ByteArray) (l old : Ledger) : requested cfg bytes block l old = .ok block l := by
  rw [requested, h]

theorem requested_error {cfg : Config} {bytes : Nat} {why : Refusal}
    (h : approve cfg bytes = .error why) (block : ByteArray) (l old : Ledger) :
    requested cfg bytes block l old = .error (.refused why) old := by
  rw [requested, h]

variable {cfg : Config} {l : Ledger}

theorem allocate_eq (cfg : Config) (count elemSize : Nat) (l : Ledger) :
    allocate cfg count elemSize l =
      match Word.mul? count elemSize with
      | none => .error (.refused (.freshOverflow count elemSize)) l
      | some bytes =>
        if bytes = 0 then .ok .empty l
        else requested cfg bytes (zeroed bytes) (l.enterFresh bytes) l := by
  unfold allocate
  cases Word.mul? count elemSize with
  | none => rfl
  | some bytes =>
    cases bytes with
    | zero => rfl
    | succ n =>
      simp only [Nat.add_one_ne_zero, if_false]
      cases ha : approve cfg (n + 1) with
      | error why =>
        rw [requested_error ha]
        rfl
      | ok u =>
        rw [requested_ok ha]
        rfl

theorem allocate_run {bytes : Nat} (h₀ : 0 < bytes) (h : bytes < Word.limit) :
    allocate cfg bytes 1 l =
      requested cfg bytes (zeroed bytes) (l.enterFresh bytes) l := by
  rw [allocate_eq, Word.mul?_one h]
  exact if_neg (Nat.pos_iff_ne_zero.mp h₀)

/-- The bytes of `p`, and zeros up to a length of `n`. -/
def padded (p : List UInt8) (n : Nat) : ByteArray :=
  ofList (p ++ List.replicate (n - p.length) 0)

theorem toList_padded (p : List UInt8) (n : Nat) :
    toList (padded p n) = p ++ List.replicate (n - p.length) 0 := rfl

theorem size_padded {p : List UInt8} {n : Nat} (h : p.length ≤ n) : (padded p n).size = n := by
  rw [← length_toList, toList_padded, List.length_append, List.length_replicate]
  omega

theorem overwrite_zeroed {content : ByteArray} {n : Nat} :
    overwrite (zeroed n) 0 content = padded (toList content) n := by
  apply ext_toList
  rw [toList_padded, toList_overwrite, toList_zeroed]
  simp

theorem allocateCopy_run {content : ByteArray} {extent : Nat} (h₀ : 0 < extent)
    (hc : content.size ≤ extent) (h : extent < Word.limit) :
    allocateCopy cfg content extent l =
      requested cfg extent (padded (toList content) extent) (l.enterFresh extent) l := by
  unfold allocateCopy
  cases ha : approve cfg extent with
  | error why =>
    rw [Action.bind_error ((allocate_run h₀ h).trans (requested_error ha _ _ _)),
      requested_error ha]
  | ok u =>
    rw [Action.bind_ok ((allocate_run h₀ h).trans (requested_ok ha _ _ _)), requested_ok ha,
      if_pos (by rwa [size_zeroed]), overwrite_zeroed]
    rfl

theorem duplicateAtMost_eq (cfg : Config) (s : ByteArray) (n : Nat) (l : Ledger) :
    duplicateAtMost cfg s n l =
      match Word.add? (untilNul (s.extract 0 n)).size 1 with
      | none => .error (.refused (.freshOverflow (untilNul (s.extract 0 n)).size 1)) l
      | some extent =>
        requested cfg extent (padded (toList (untilNul (s.extract 0 n))) extent)
          (l.enterFresh extent) l := by
  unfold duplicateAtMost
  cases hextent : Word.add? (untilNul (s.extract 0 n)).size 1 with
  | none =>
    simp only
    rfl
  | some extent =>
    obtain ⟨hlt, rfl⟩ := Word.add?_eq_some_iff.mp hextent
    simp only
    exact allocateCopy_run (Nat.succ_pos _) (Nat.le_succ _) hlt

theorem size_resized (block : ByteArray) (oldSize newSize : Nat) :
    (resized block oldSize newSize).size = newSize := by
  unfold resized
  split
  · rw [zeroFrom, size_overwrite, size_resize]
    rw [size_zeroed, size_resize]
    omega
  · exact size_resize block newSize

theorem resized_eq_padded {block : ByteArray} {n : Nat} (h : block.size ≤ n) :
    resized block block.size n = padded (toList block) n := by
  have hr : toList (Bytes.resize block n) = toList block ++ List.replicate (n - block.size) 0 := by
    rw [toList_resize, List.take_of_length_le (by rwa [length_toList])]
  apply ext_toList
  unfold resized
  split
  · rw [toList_zeroFrom, hr, List.take_left' (length_toList block), size_resize, toList_padded,
      length_toList]
  · rw [hr, toList_padded, length_toList]

theorem resize_eq (cfg : Config) (block : ByteArray) (oldSize newSize : Nat) (l : Ledger) :
    Memory.resize cfg block oldSize newSize l =
      if newSize = 0 then .ok .empty (l.enterResize oldSize 0)
      else if block.size < newSize then
        requested cfg newSize (resized block oldSize newSize) (l.enterResize oldSize newSize) l
      else .ok (resized block oldSize newSize) (l.enterResize oldSize newSize) := by
  unfold Memory.resize
  by_cases hz : newSize = 0
  · rw [if_pos hz, if_pos hz]
    rfl
  rw [if_neg hz, if_neg hz]
  by_cases hsize : block.size < newSize
  · rw [if_pos hsize, if_pos hsize]
    cases ha : approve cfg newSize with
    | error why =>
      rw [requested_error ha]
      rfl
    | ok u =>
      rw [requested_ok ha]
      rfl
  · rw [if_neg hsize, if_neg hsize]
    rfl

theorem resizeElements_eq (cfg : Config) (block : ByteArray) (oldCount newCount elemSize : Nat)
    (l : Ledger) :
    resizeElements cfg block oldCount newCount elemSize l =
      if elemSize = 0 then .error (.faulted .emptyElements) l
      else match Word.mul? oldCount elemSize with
        | none => .error (.faulted .oldExtentOverflow) l
        | some oldSize =>
          match Word.mul? newCount elemSize with
          | none => .error (.refused (.resizeOverflow newCount elemSize)) l
          | some newSize => Memory.resize cfg block oldSize newSize l := by
  unfold resizeElements
  by_cases hz : elemSize = 0
  · rw [if_pos hz, if_pos hz]
    rfl
  rw [if_neg hz, if_neg hz]
  cases Word.mul? oldCount elemSize with
  | none => rfl
  | some oldSize =>
    cases Word.mul? newCount elemSize with
    | none => rfl
    | some newSize => rfl

/-- Sizes that are counted in elements are turned down before anything is asked for, or else the
block is resized to the bytes that they come to. -/
theorem resizeElements_cases (cfg : Config) (block : ByteArray)
    (oldCount newCount elemSize : Nat) (l : Ledger) :
    (∃ e, resizeElements cfg block oldCount newCount elemSize l = .error e l) ∨
      resizeElements cfg block oldCount newCount elemSize l =
        Memory.resize cfg block (oldCount * elemSize) (newCount * elemSize) l := by
  rw [resizeElements_eq]
  split
  · exact .inl ⟨_, rfl⟩
  split
  · exact .inl ⟨_, rfl⟩
  rename_i oldSize hold
  split
  · exact .inl ⟨_, rfl⟩
  rename_i newSize hnew
  obtain ⟨-, rfl⟩ := Word.mul?_eq_some_iff.mp hold
  obtain ⟨-, rfl⟩ := Word.mul?_eq_some_iff.mp hnew
  exact .inr rfl

theorem resizeElements_run {block : ByteArray} {n : Nat} (h : block.size < n)
    (hn : n < Word.limit) :
    resizeElements cfg block block.size n 1 l =
      requested cfg n (padded (toList block) n) (l.enterResize block.size n) l := by
  rw [resizeElements_eq, if_neg (by decide), Word.mul?_one (h.trans hn), Word.mul?_one hn]
  simp only
  rw [resize_eq, if_neg (by omega), if_pos h, resized_eq_padded (Nat.le_of_lt h)]

end GrowBuffer.Memory
