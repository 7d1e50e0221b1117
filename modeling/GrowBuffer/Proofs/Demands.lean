import GrowBuffer.Memory.Call
import GrowBuffer.Proofs.Copies

/-! # What is asked for and what is given

A call asks for a number of bytes that is known in exact arithmetic, whatever the factors are that
it comes in. This number alone decides the call: whether it is answered, how long its block is,
and which cause a refusal names. Of several causes the first one counts: that the number is no
size, that the ceiling is lower, that there is no memory left.
-/

namespace GrowBuffer.Memory
open Bytes

/-- What a call asks for: so many bytes, of which it holds some already, and what it is told if
their number is no size. -/
structure Demand where
  size : Nat
  held : Nat
  overflow : Refusal

namespace Demand

/-- The number of bytes is a size, and none of them is new or the ceiling and the memory allow
for all. -/
def Granted (cfg : Config) (d : Demand) : Prop :=
  d.size < Word.limit ∧
    (d.size = 0 ∨ d.size ≤ d.held ∨ (∀ c ∈ cfg.ceiling, d.size ≤ c) ∧ d.size < addressable)

/-- Why a demand is not granted, by the first cause that applies. -/
inductive Denied (cfg : Config) (d : Demand) : Refusal → Prop
  | uncountable (h : Word.limit ≤ d.size) : Denied cfg d d.overflow
  | aboveCeiling {c : Nat} (h : d.size < Word.limit) (hnew : d.held < d.size)
    (hc : cfg.ceiling = some c) (habove : c < d.size) : Denied cfg d (.aboveCeiling d.size c)
  | exhausted (h : d.size < Word.limit) (hnew : d.held < d.size)
    (hc : ∀ c ∈ cfg.ceiling, d.size ≤ c) (hall : addressable ≤ d.size) :
    Denied cfg d (.exhausted d.size)

variable {cfg : Config} {d : Demand} {why why' : Refusal}

theorem Denied.not_granted (h : d.Denied cfg why) : ¬ d.Granted cfg := by
  rintro ⟨hlt, hfree⟩
  cases h with
  | uncountable h => omega
  | @aboveCeiling c h hnew hc habove =>
    rcases hfree with hzero | hheld | ⟨hle, -⟩
    · omega
    · omega
    · exact absurd (hle c hc) (Nat.not_le.mpr habove)
  | exhausted h hnew hc hall =>
    rcases hfree with hzero | hheld | ⟨-, hlt'⟩ <;> omega

theorem Denied.unique (h : d.Denied cfg why) (h' : d.Denied cfg why') : why = why' := by
  cases h with
  | uncountable h =>
    cases h' with
    | uncountable _ => rfl
    | aboveCeiling hlt | exhausted hlt => omega
  | @aboveCeiling c hlt _ hc habove =>
    cases h' with
    | uncountable h => omega
    | aboveCeiling _ _ hc' =>
      cases hc.symm.trans hc'
      rfl
    | exhausted _ _ hle => exact absurd (hle c hc) (Nat.not_le.mpr habove)
  | exhausted hlt _ hle =>
    cases h' with
    | uncountable h => omega
    | @aboveCeiling c _ _ hc habove => exact absurd (hle c hc) (Nat.not_le.mpr habove)
    | exhausted => rfl

end Demand

inductive Decided (cfg : Config) (d : Demand) (l : Ledger) :
    EStateM.Result Stop Ledger ByteArray → Prop
  | granted {block : ByteArray} {l' : Ledger} (hsize : block.size = d.size)
    (h : d.Granted cfg) : Decided cfg d l (.ok block l')
  | denied {why : Refusal} (h : d.Denied cfg why) : Decided cfg d l (.error (.refused why) l)

namespace Decided

variable {cfg : Config} {l l' : Ledger} {block : ByteArray}

theorem requested {d : Demand} (hlt : d.size < Word.limit) (hnew : d.held < d.size)
    (hb : block.size = d.size) : Decided cfg d l (Memory.requested cfg d.size block l' l) := by
  cases ha : approve cfg d.size with
  | ok u =>
    rw [requested_ok ha]
    exact .granted hb ⟨hlt, .inr (.inr (approve_eq_ok_iff.mp ha))⟩
  | error why =>
    rw [requested_error ha]
    rcases approve_eq_error_iff.mp ha with ⟨c, hc, habove, rfl⟩ | ⟨hle, hall, rfl⟩
    · exact .denied (.aboveCeiling hlt hnew hc habove)
    · exact .denied (.exhausted hlt hnew hle hall)

theorem allocate (count elemSize : Nat) :
    Decided cfg ⟨count * elemSize, 0, .freshOverflow count elemSize⟩ l
      (Memory.allocate cfg count elemSize l) := by
  rw [allocate_eq]
  split
  · next h => exact .denied (.uncountable (Word.mul?_eq_none_iff.mp h))
  · next bytes h =>
    obtain ⟨hlt, rfl⟩ := Word.mul?_eq_some_iff.mp h
    split
    · next hz => exact .granted hz.symm ⟨hlt, .inl hz⟩
    · next hz =>
      exact requested (d := ⟨_, 0, .freshOverflow count elemSize⟩) hlt (Nat.pos_of_ne_zero hz)
        (size_zeroed _)

theorem duplicateAtMost (s : ByteArray) (n : Nat) :
    Decided cfg ⟨(textOf s n).length + 1, 0, .freshOverflow (textOf s n).length 1⟩ l
      (Memory.duplicateAtMost cfg s n l) := by
  rw [duplicateAtMost_eq, untilNul_extract_zero, size_ofList]
  split
  · next h => exact .denied (.uncountable (Word.add?_eq_none_iff.mp h))
  · next extent h =>
    obtain ⟨hlt, rfl⟩ := Word.add?_eq_some_iff.mp h
    exact requested (d := ⟨_, 0, .freshOverflow (textOf s n).length 1⟩) hlt (Nat.succ_pos _)
      (size_padded (Nat.le_succ _))

theorem resize (overflow : Refusal) (oldSize : Nat) {newSize : Nat} (hlt : newSize < Word.limit) :
    Decided cfg ⟨newSize, block.size, overflow⟩ l
      (Memory.resize cfg block oldSize newSize l) := by
  rw [resize_eq]
  split
  · next hz => exact .granted hz.symm ⟨hlt, .inl hz⟩
  · split
    · next hnew =>
      exact requested (d := ⟨newSize, block.size, overflow⟩) hlt hnew (size_resized _ _ _)
    · next hold =>
      exact .granted (size_resized _ _ _) ⟨hlt, .inr (.inl (Nat.not_lt.mp hold))⟩

theorem resizeElements {oldCount newCount elemSize : Nat} (hsize : 0 < elemSize)
    (hold : oldCount * elemSize < Word.limit) :
    Decided cfg ⟨newCount * elemSize, block.size, .resizeOverflow newCount elemSize⟩ l
      (Memory.resizeElements cfg block oldCount newCount elemSize l) := by
  have hextent : Word.mul? oldCount elemSize = some (oldCount * elemSize) :=
    Word.mul?_eq_some_iff.mpr ⟨hold, rfl⟩
  rw [resizeElements_eq, if_neg (Nat.pos_iff_ne_zero.mp hsize), hextent]
  simp only
  split
  · next h => exact .denied (.uncountable (Word.mul?_eq_none_iff.mp h))
  · next newSize h =>
    obtain ⟨hlt, rfl⟩ := Word.mul?_eq_some_iff.mp h
    exact resize _ _ hlt

end Decided

namespace Call

def demand : Call → Demand
  | allocate count elemSize => ⟨count * elemSize, 0, .freshOverflow count elemSize⟩
  | allocateBytes size => ⟨size, 0, .freshOverflow 1 size⟩
  | resize block _ newSize => ⟨newSize, block.size, .resizeOverflow newSize 1⟩
  | resizeElements block _ newCount elemSize =>
    ⟨newCount * elemSize, block.size, .resizeOverflow newCount elemSize⟩
  | duplicate s => ⟨(textOf s s.size).length + 1, 0, .freshOverflow (textOf s s.size).length 1⟩
  | duplicateAtMost s n => ⟨(textOf s n).length + 1, 0, .freshOverflow (textOf s n).length 1⟩

/-- What the caller of a resize has to see to: a size in bytes is given as one, and elements have
a size and came to one before. -/
def Sensible : Call → Prop
  | resize _ _ newSize => newSize < Word.limit
  | resizeElements _ oldCount _ elemSize => 0 < elemSize ∧ oldCount * elemSize < Word.limit
  | allocate _ _ | allocateBytes _ | duplicate _ | duplicateAtMost _ _ => True

theorem run_decided (cfg : Config) {c : Call} (h : c.Sensible) (l : Ledger) :
    Decided cfg c.demand l (c.run cfg l) := by
  cases c with
  | allocate count elemSize => exact .allocate count elemSize
  | allocateBytes size =>
    have hone : Decided cfg ⟨1 * size, 0, .freshOverflow 1 size⟩ l _ := .allocate 1 size
    rwa [Nat.one_mul] at hone
  | resize block oldSize newSize => exact .resize _ oldSize h
  | resizeElements block oldCount newCount elemSize => exact .resizeElements h.1 h.2
  | duplicate s => exact .duplicateAtMost s s.size
  | duplicateAtMost s n => exact .duplicateAtMost s n

/-- A sensible call is answered exactly if its demand is granted, with a block of exactly the size
that was asked for. It is stopped exactly if its demand is denied, by the refusal that names the
first cause, and the ledger stays as it was. -/
theorem run_decided_by_size (cfg : Config) {c : Call} (h : c.Sensible) (l : Ledger) :
    ((∃ block l', c.run cfg l = .ok block l') ↔ c.demand.Granted cfg) ∧
      (∀ block l', c.run cfg l = .ok block l' → block.size = c.demand.size) ∧
      ∀ e l', c.run cfg l = .error e l' ↔
        ∃ why, c.demand.Denied cfg why ∧ e = .refused why ∧ l' = l := by
  generalize hrun : c.run cfg l = r
  have hdecided : Decided cfg c.demand l r := hrun ▸ c.run_decided cfg h l
  cases hdecided with
  | @granted block l' hsize hgranted =>
    refine ⟨⟨fun _ => hgranted, fun _ => ⟨block, l', rfl⟩⟩, ?_, fun e l'' => ⟨?_, ?_⟩⟩
    · rintro _ _ ⟨⟩
      exact hsize
    · rintro ⟨⟩
    · rintro ⟨why, hdenied, -⟩
      exact absurd hgranted hdenied.not_granted
  | @denied why hdenied =>
    refine ⟨⟨?_, fun hgranted => absurd hgranted hdenied.not_granted⟩, ?_, fun e l' => ⟨?_, ?_⟩⟩
    · rintro ⟨_, _, ⟨⟩⟩
    · rintro _ _ ⟨⟩
    · rintro ⟨⟩
      exact ⟨why, hdenied, rfl, rfl⟩
    · rintro ⟨why', hdenied', rfl, rfl⟩
      rw [hdenied.unique hdenied']

/-- Six elements of two bytes for a block of three: a ceiling of twelve lets them pass, one of
eleven is named, and factors that leave the words are turned down for themselves. -/
theorem run_decided_by_size_ceiling :
    let c : Call := .resizeElements ⟨#[1, 2, 3]⟩ 1 6 2
    let large : Call := .resizeElements ⟨#[1, 2, 3]⟩ 1 0x8000000000000001 2
    c.Sensible ∧ large.Sensible ∧
      (∃ block l', c.run ⟨8192, some 12⟩ {} = .ok block l' ∧ block.size = 12) ∧
      c.run ⟨8192, some 11⟩ {} = .error (.refused (.aboveCeiling 12 11)) {} ∧
      large.run ⟨8192, some 11⟩ {} =
        .error (.refused (.resizeOverflow 0x8000000000000001 2)) {} := by
  intro c large
  have hc : c.Sensible := ⟨by decide, by decide⟩
  have hlarge : large.Sensible := ⟨by decide, by decide⟩
  obtain ⟨hiff, hsize, -⟩ := run_decided_by_size ⟨8192, some 12⟩ hc {}
  obtain ⟨block, l', hrun⟩ := hiff.mpr ⟨by decide, .inr (.inr ⟨by decide, by decide⟩)⟩
  have habove : c.demand.Denied ⟨8192, some 11⟩ (.aboveCeiling 12 11) :=
    .aboveCeiling (by decide) (by decide) rfl (by decide)
  have hover : large.demand.Denied ⟨8192, some 11⟩ (.resizeOverflow 0x8000000000000001 2) :=
    .uncountable (by decide)
  exact ⟨hc, hlarge, ⟨block, l', hrun, hsize block l' hrun⟩,
    ((run_decided_by_size ⟨8192, some 11⟩ hc {}).2.2 _ _).mpr ⟨_, habove, rfl, rfl⟩,
    ((run_decided_by_size ⟨8192, some 11⟩ hlarge {}).2.2 _ _).mpr ⟨_, hover, rfl, rfl⟩⟩

end Call
end GrowBuffer.Memory
