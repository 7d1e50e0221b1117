import GrowBuffer.Proofs.InPlace
import GrowBuffer.Proofs.Runs

/-! # Room that was reserved

A reservation is a promise to every addition that comes behind it. Each one takes its bytes from
the room, so what is left always covers what is still to come, and in whatever pieces the bytes
arrive none of them asks for memory or moves the buffer.
-/

namespace GrowBuffer.Buffer
open Bytes Format Memory

/-- The operations that only add bytes: one, many, a text, or what a formatter writes. -/
inductive Addition where
  | byte (c : UInt8)
  | bytes (w : ByteArray)
  | text (x : String)
  | stream (p : Pass)

namespace Addition

def op : Addition → Op
  | byte c => .appendByte c
  | bytes w => .append w
  | text x => .appendText x
  | stream p => .stream p

def brings : Addition → List UInt8
  | byte c => [c]
  | bytes w => toList w
  | text x => toList x.toUTF8
  | stream p => bytesOf p.writes

def answer : Addition → Answer
  | byte _ => .done
  | bytes w => .count w.size
  | text x => .count x.toUTF8.size
  | stream p => .streamed !p.givesUp

def total (as : List Addition) : List UInt8 := as.flatMap brings

@[simp] theorem total_cons (a : Addition) (as : List Addition) :
    total (a :: as) = a.brings ++ total as := List.flatMap_cons

variable {s : State}

theorem run_absorbs (cfg : Config) (h : s.buffer.WellFormed) (a : Addition)
    (hf : s.buffer.Fits a.brings) :
    ∃ c, a.op.run cfg s = .ok a.answer { s with buffer := c } ∧
      Absorbed s.buffer c a.brings := by
  cases a with
  | byte c => exact ⟨_, Action.bind_ok (appendByte_in_place h hf), .bytePlaced h hf⟩
  | bytes w =>
    obtain ⟨c, hrun, hc⟩ := append_absorbs cfg h hf
    exact ⟨c, Action.bind_ok hrun, hc⟩
  | text x =>
    obtain ⟨c, hrun, hc⟩ := append_absorbs cfg h hf
    exact ⟨c, Action.bind_ok hrun, hc⟩
  | stream p =>
    obtain ⟨c, hrun, hc⟩ := appendTexts_absorbs cfg h hf
    exact ⟨c, Action.bind_ok ((Action.bind_ok hrun).trans rfl), hc⟩

theorem runs_absorb (cfg : Config) (h : s.buffer.WellFormed) (as : List Addition)
    (hf : s.buffer.Fits (total as)) :
    ∃ c, runs cfg (as.map op) s = (as.map fun a => .ok a.answer, { s with buffer := c }) ∧
      Absorbed s.buffer c (total as) := by
  -- on the additions; what the first one leaves fits the rest
  induction as generalizing s with
  | nil => exact ⟨s.buffer, rfl, .refl h⟩
  | cons a as ih =>
    rw [total_cons] at hf ⊢
    obtain ⟨b, hrun, hb⟩ := a.run_absorbs cfg h hf.left
    obtain ⟨c, hruns, hc⟩ := ih (s := { s with buffer := b }) hb.wellFormed (hb.fits h hf)
    refine ⟨c, ?_, hb.trans hc⟩
    rw [List.map_cons, runs_ok hrun, hruns, List.map_cons]

end Addition

/-- From any state that operations lead to, a reservation of what there is room for does nothing.
Any other one that is answered has kept the content and made the room: the spare region holds as
many bytes, and additions that bring no more of them in all, and no NUL to an inline buffer, are
answered and taken in where the buffer is then, at no cost. -/
theorem reachable_reserve {b : Buffer} (h : Reachable b) (cfg : Config) (l : Ledger) (k : Nat) :
    (k ≤ b.room → reserve cfg k ⟨b, l⟩ = .ok () ⟨b, l⟩) ∧
    ∀ t, reserve cfg k ⟨b, l⟩ = .ok () t →
      t.buffer.content = b.content ∧ t.buffer.length = b.length ∧
      (∃ region, spare t = .ok region t ∧ k ≤ region.size) ∧
      ∀ cfg' (as : List Addition), (Addition.total as).length ≤ k →
        (t.buffer.isInline = true → 0 ∉ Addition.total as) →
        ∃ c, runs cfg' (as.map Addition.op) t =
            (as.map fun a => .ok a.answer, ⟨c, t.ledger⟩) ∧
          c.location = t.buffer.location ∧ c.capacity = t.buffer.capacity ∧
          toList c.content = toList b.content ++ Addition.total as := by
  have hw := h.sound.wellFormed
  refine ⟨fun hr => reserve_of_room hw hr, fun t hrun => ?_⟩
  have hends : Ends ⟨b, l⟩ _ (reserve cfg k ⟨b, l⟩) := reserve_ends hw k
  obtain ⟨hwide, hroom⟩ := hends.of_ok hrun
  have ht := hwide.wellFormed hw
  have hcontent : toList t.buffer.content = toList b.content := hwide.content hw
  refine ⟨ext_toList hcontent, hwide.length, ⟨_, spare_run ht, ?_⟩, fun cfg' as hlen hnul => ?_⟩
  · rwa [size_spare ht]
  · obtain ⟨c, hruns, hc⟩ := Addition.runs_absorb cfg' ht as ⟨hlen.trans hroom, hnul⟩
    exact ⟨c, hruns, hc.shape.location, hc.shape.capacity, hcontent ▸ hc.content⟩

/-- Lent memory with room for two bytes is left for five, which come in four pieces. -/
theorem reachable_reserve_pieces :
    let lent : Buffer := ⟨.lent 0, ⟨#[0, 7, 7]⟩⟩
    let t : State := ⟨⟨.heap (zeroed 8) 0, lent.loan⟩, ({} : Ledger).enterFresh 8⟩
    let as : List Addition := [.byte 0, .bytes ⟨#[97, 98]⟩, .text "c", .stream ⟨["d"], false⟩]
    reserve ⟨4, none⟩ 5 ⟨lent, {}⟩ = .ok () t ∧
      ∃ c, (runs {} (as.map Addition.op) t).2 = ⟨c, t.ledger⟩ ∧
        c.location = .heap ∧ c.capacity = 7 ∧ toList c.content = [0, 97, 98, 99, 100] := by
  intro lent t as
  have hlent : Reachable lent := .fresh (.lent ⟨#[7, 7, 7]⟩ (by decide) rfl)
  have hw : lent.WellFormed := hlent.sound.wellFormed
  have hrun : reserve ⟨4, none⟩ 5 ⟨lent, {}⟩ = .ok () t := by
    rw [reserve, Action.bind_ok (readRoom_run hw), if_pos (by decide),
      grow_run hw (Nat.succ_pos 4)]
    rfl
  obtain ⟨-, hanswered⟩ := reachable_reserve hlent ⟨4, none⟩ {} 5
  obtain ⟨-, -, -, hadd⟩ := hanswered t hrun
  obtain ⟨c, hruns, hlocation, hcapacity, hcontent⟩ :=
    hadd {} as (by decide +kernel) fun hi => absurd hi Bool.false_ne_true
  refine ⟨hrun, c, congrArg Prod.snd hruns, hlocation, hcapacity, ?_⟩
  rw [hcontent]
  decide +kernel

end GrowBuffer.Buffer
