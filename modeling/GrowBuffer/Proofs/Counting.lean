import GrowBuffer.Memory.Call
import GrowBuffer.Proofs.Blocks

/-! # What the ledger of a thread tells

A ledger is the sum of the calls that were completed: the fresh blocks that were given, empty
ones apart, and the resizes that were answered. A call that is stopped enters nothing, wherever
it was stopped. So a ledger that is read twice tells what was completed in between.
-/

namespace GrowBuffer.Memory
open Bytes

/-- The old and the new size, in bytes, of the block that a call resizes. -/
def Call.sizes? : Call → Option (Nat × Nat)
  | .resize _ oldSize newSize => some (oldSize, newSize)
  | .resizeElements _ oldCount newCount elemSize => some (oldCount * elemSize, newCount * elemSize)
  | .allocate _ _ | .allocateBytes _ | .duplicate _ | .duplicateAtMost _ _ => none

/-- Calls, each with what came of it. -/
abbrev History := List (Call × Except Stop ByteArray)

namespace History

/-- The size of the fresh block that a call has given; an empty block is none. -/
def freshSize? : Call × Except Stop ByteArray → Option Nat
  | (c, .ok block) => if c.sizes? = none ∧ 0 < block.size then some block.size else none
  | (_, .error _) => none

/-- The old and the new size of a resize that was answered. -/
def resize? : Call × Except Stop ByteArray → Option (Nat × Nat)
  | (c, .ok _) => c.sizes?
  | (_, .error _) => none

def freshSizes (h : History) : List Nat := h.filterMap freshSize?

def resizes (h : History) : List (Nat × Nat) := h.filterMap resize?

/-- What a ledger has to tell of these calls. -/
def figures (h : History) : Ledger where
  allocations := h.freshSizes.length
  resizes := h.resizes.length
  zeroed := h.freshSizes.sum + (h.resizes.map fun r => r.2 - r.1).sum
  peak := (h.freshSizes ++ h.resizes.map (·.2)).foldl max 0

end History

/-- Calls one after the other on one thread, each under the configuration of its time. The
ledger is carried on behind every stop. -/
def callAll : List (Config × Call) → Ledger → History × Ledger
  | [], l => ([], l)
  | (cfg, c) :: cs, l =>
    match c.run cfg l with
    | .ok block l' => ((callAll cs l').1.cons (c, .ok block), (callAll cs l').2)
    | .error e l' => ((callAll cs l').1.cons (c, .error e), (callAll cs l').2)

namespace Ledger

/-- The entries of two ledgers. -/
def plus (a b : Ledger) : Ledger where
  allocations := a.allocations + b.allocations
  resizes := a.resizes + b.resizes
  zeroed := a.zeroed + b.zeroed
  peak := max a.peak b.peak

theorem empty_plus (a : Ledger) : ({} : Ledger).plus a = a := by
  simp [plus]

theorem plus_empty (a : Ledger) : a.plus {} = a := by
  simp [plus]

theorem plus_enterFresh (a : Ledger) (n : Nat) :
    a.plus (({} : Ledger).enterFresh n) = a.enterFresh n := by
  simp [plus, enterFresh]

theorem plus_enterResize (a : Ledger) (m n : Nat) :
    a.plus (({} : Ledger).enterResize m n) = a.enterResize m n := by
  simp [plus, enterResize]

theorem plus_assoc (a b c : Ledger) : (a.plus b).plus c = a.plus (b.plus c) := by
  simp only [plus, Nat.add_assoc, Nat.max_assoc]

theorem plus_since (a b : Ledger) : (a.plus b).since a = { b with peak := (a.plus b).peak } := by
  simp only [since, plus, Nat.add_sub_cancel_left]

theorem since_plus_since (a b c : Ledger) :
    ((a.plus b).since a).plus (((a.plus b).plus c).since (a.plus b)) =
      ((a.plus b).plus c).since a := by
  have hpeak : max (a.plus b).peak ((a.plus b).plus c).peak = ((a.plus b).plus c).peak :=
    Nat.max_eq_right (Nat.le_max_left _ _)
  rw [plus_since, plus_since, plus_assoc, plus_since, ← plus_assoc]
  simp only [plus] at hpeak ⊢
  rw [hpeak]

end Ledger

theorem foldl_max_append (xs ys : List Nat) :
    (xs ++ ys).foldl max 0 = max (xs.foldl max 0) (ys.foldl max 0) := by
  have hmax : ys.foldl max (max (xs.foldl max 0) 0) = max (xs.foldl max 0) (ys.foldl max 0) :=
    List.foldl_assoc
  rw [List.foldl_append, ← hmax, Nat.max_zero]

namespace History

theorem freshSizes_append (g h : History) :
    (g ++ h).freshSizes = g.freshSizes ++ h.freshSizes := List.filterMap_append

theorem resizes_append (g h : History) : (g ++ h).resizes = g.resizes ++ h.resizes :=
  List.filterMap_append

theorem figures_append (g h : History) : (g ++ h).figures = g.figures.plus h.figures := by
  simp only [figures, Ledger.plus, freshSizes_append, resizes_append, List.length_append,
    List.map_append, List.sum_append, foldl_max_append, Ledger.mk.injEq, true_and]
  omega

theorem figures_cons (x : Call × Except Stop ByteArray) (h : History) :
    figures (x :: h) = (figures [x]).plus h.figures := figures_append [x] h

end History

section Entry

variable {cfg : Config} {c : Call} {block : ByteArray} {l : Ledger}

theorem figures_fresh (hc : c.sizes? = none) (hb : 0 < block.size) :
    History.figures [(c, .ok block)] = ({} : Ledger).enterFresh block.size := by
  have hfresh : History.freshSize? (c, .ok block) = some block.size := if_pos ⟨hc, hb⟩
  have hresize : History.resize? (c, .ok block) = none := hc
  simp [History.figures, History.freshSizes, History.resizes, Ledger.enterFresh, hfresh, hresize]

theorem figures_empty_block (hc : c.sizes? = none) :
    History.figures [(c, .ok .empty)] = {} := by
  have hfresh : History.freshSize? (c, .ok .empty) = none := if_neg fun h => Nat.lt_irrefl 0 h.2
  have hresize : History.resize? (c, .ok .empty) = none := hc
  simp [History.figures, History.freshSizes, History.resizes, hfresh, hresize]

theorem figures_resize {oldSize newSize : Nat} (hc : c.sizes? = some (oldSize, newSize)) :
    History.figures [(c, .ok block)] = ({} : Ledger).enterResize oldSize newSize := by
  have hfresh : History.freshSize? (c, .ok block) = none := if_neg fun h => by simp [hc] at h
  have hresize : History.resize? (c, .ok block) = some (oldSize, newSize) := hc
  simp [History.figures, History.freshSizes, History.resizes, Ledger.enterResize, hfresh, hresize]

theorem figures_stopped (c : Call) (e : Stop) : History.figures [(c, .error e)] = {} := rfl

/-- How a call ends on the ledger `l`: it has entered what it accounts for, or nothing. -/
inductive Entered (c : Call) (l : Ledger) : EStateM.Result Stop Ledger ByteArray → Prop
  | answered (block : ByteArray) :
    Entered c l (.ok block (l.plus (History.figures [(c, .ok block)])))
  | stopped (e : Stop) : Entered c l (.error e l)

namespace Entered

theorem fresh (hc : c.sizes? = none) (hb : 0 < block.size) :
    Entered c l (.ok block (l.enterFresh block.size)) := by
  have h : Entered c l _ := .answered block
  rwa [figures_fresh hc hb, Ledger.plus_enterFresh] at h

theorem empty_block (hc : c.sizes? = none) : Entered c l (.ok .empty l) := by
  have h : Entered c l _ := .answered .empty
  rwa [figures_empty_block hc, Ledger.plus_empty] at h

theorem resized {oldSize newSize : Nat} (hc : c.sizes? = some (oldSize, newSize)) :
    Entered c l (.ok block (l.enterResize oldSize newSize)) := by
  have h : Entered c l _ := .answered block
  rwa [figures_resize hc, Ledger.plus_enterResize] at h

theorem requested {bytes : Nat} {l' : Ledger} (h : Entered c l (.ok block l')) :
    Entered c l (Memory.requested cfg bytes block l' l) := by
  cases ha : approve cfg bytes with
  | error why =>
    rw [requested_error ha]
    exact .stopped _
  | ok u =>
    rw [requested_ok ha]
    exact h

theorem allocate (hc : c.sizes? = none) (count elemSize : Nat) :
    Entered c l (Memory.allocate cfg count elemSize l) := by
  rw [allocate_eq]
  split
  · exact .stopped _
  · rename_i bytes _
    split
    · exact empty_block hc
    · rename_i hb
      have hsize := size_zeroed bytes
      have h : Entered c l (.ok (zeroed bytes) _) := fresh hc (by omega)
      rw [hsize] at h
      exact h.requested

theorem duplicateAtMost (hc : c.sizes? = none) (text : ByteArray) (n : Nat) :
    Entered c l (Memory.duplicateAtMost cfg text n l) := by
  rw [duplicateAtMost_eq]
  split
  · exact .stopped _
  · rename_i extent hextent
    obtain ⟨-, rfl⟩ := Word.add?_eq_some_iff.mp hextent
    have hsize : (padded (toList (untilNul (text.extract 0 n))) _).size = _ :=
      size_padded ((length_toList _).trans_le (Nat.le_succ _))
    have h : Entered c l (.ok (padded _ _) _) := fresh hc (hsize.symm ▸ Nat.succ_pos _)
    rw [hsize] at h
    exact h.requested

theorem resize {oldSize newSize : Nat} (hc : c.sizes? = some (oldSize, newSize)) :
    Entered c l (Memory.resize cfg block oldSize newSize l) := by
  rw [resize_eq]
  split
  · rename_i hz
    subst hz
    exact resized hc
  · split
    · exact (resized hc).requested
    · exact resized hc

theorem resizeElements {oldCount newCount elemSize : Nat}
    (hc : c.sizes? = some (oldCount * elemSize, newCount * elemSize)) :
    Entered c l (Memory.resizeElements cfg block oldCount newCount elemSize l) := by
  rcases resizeElements_cases cfg block oldCount newCount elemSize l with ⟨e, hrun⟩ | hrun
  · rw [hrun]
    exact .stopped e
  · rw [hrun]
    exact resize hc

end Entered

theorem Call.run_entered (cfg : Config) (c : Call) (l : Ledger) : Entered c l (c.run cfg l) := by
  cases c with
  | allocate count elemSize => exact .allocate rfl count elemSize
  | allocateBytes size => exact .allocate rfl 1 size
  | resize block oldSize newSize => exact .resize rfl
  | resizeElements block oldCount newCount elemSize => exact .resizeElements rfl
  | duplicate s =>
    show Entered _ l (Memory.duplicateAtMost cfg s s.size l)
    exact .duplicateAtMost rfl s s.size
  | duplicateAtMost s n =>
    show Entered _ l (Memory.duplicateAtMost cfg s n l)
    exact .duplicateAtMost rfl s n

end Entry

section Run

variable {cfg : Config} {c : Call} {cs : List (Config × Call)} {l l' : Ledger}

theorem callAll_ok {block : ByteArray} (h : c.run cfg l = .ok block l') :
    callAll ((cfg, c) :: cs) l =
      ((c, .ok block) :: (callAll cs l').1, (callAll cs l').2) := by
  rw [callAll, h]

theorem callAll_error {e : Stop} (h : c.run cfg l = .error e l') :
    callAll ((cfg, c) :: cs) l =
      ((c, .error e) :: (callAll cs l').1, (callAll cs l').2) := by
  rw [callAll, h]

theorem Call.ledger_of_answered {block : ByteArray} (h : c.run cfg l = .ok block l') :
    l' = l.plus (History.figures [(c, .ok block)]) := by
  have hc := c.run_entered cfg l
  rw [h] at hc
  cases hc
  rfl

theorem Call.ledger_of_stopped {e : Stop} (h : c.run cfg l = .error e l') : l' = l := by
  have hc := c.run_entered cfg l
  rw [h] at hc
  cases hc
  rfl

theorem callAll_ledger (cs : List (Config × Call)) (l : Ledger) :
    (callAll cs l).2 = l.plus (callAll cs l).1.figures := by
  induction cs generalizing l with
  | nil => exact (Ledger.plus_empty l).symm
  | cons x cs ih =>
    obtain ⟨cfg, c⟩ := x
    cases hrun : c.run cfg l with
    | ok block l' =>
      simp only [callAll_ok hrun]
      rw [History.figures_cons, ← Ledger.plus_assoc, ← Call.ledger_of_answered hrun]
      exact ih l'
    | error e l' =>
      obtain rfl := Call.ledger_of_stopped hrun
      simp only [callAll_error hrun]
      rw [History.figures_cons, figures_stopped, Ledger.empty_plus]
      exact ih l'

end Run

/-- A call that is stopped leaves the ledger as it was. From a reset on the ledger tells how
many fresh blocks were given and resizes answered, how many bytes were zeroed for them and what
was the largest size. Two ledgers, the later carried on from the earlier, differ by what was
completed in between, with the peak of the later one, and such differences add up. -/
theorem callAll_accounts :
    (∀ (cfg : Config) (c : Call) (l l' : Ledger) (e : Stop),
        c.run cfg l = .error e l' → l' = l) ∧
      (∀ cs, (callAll cs {}).2 = (callAll cs {}).1.figures) ∧
      ∀ cs l, let between := (callAll cs l).1
        let m := (callAll cs l).2
        (l.allocations ≤ m.allocations ∧ l.resizes ≤ m.resizes ∧ l.zeroed ≤ m.zeroed) ∧
          m.since l = { between.figures with peak := m.peak } ∧
          m.peak = max l.peak between.figures.peak ∧
          (∀ n, (m.since l).calls? = some n ↔
            n < Word.limit ∧ n = between.freshSizes.length + between.resizes.length) ∧
          ∀ ds, let n := (callAll ds m).2
            n.since l = (m.since l).plus (n.since m) := by
  refine ⟨fun cfg c l l' e h => Call.ledger_of_stopped h, fun cs => ?_, fun cs l => ?_⟩
  · rw [callAll_ledger, Ledger.empty_plus]
  · have hm := callAll_ledger cs l
    simp only
    generalize (callAll cs l).2 = m at hm
    subst hm
    have hsince := Ledger.plus_since l (callAll cs l).1.figures
    refine ⟨⟨Nat.le_add_right _ _, Nat.le_add_right _ _, Nat.le_add_right _ _⟩, hsince, rfl, ?_, ?_⟩
    · intro n
      rw [hsince, Ledger.calls?_eq_some_iff]
      constructor
      · rintro ⟨hlt, rfl⟩
        exact ⟨hlt, rfl⟩
      · rintro ⟨hlt, rfl⟩
        exact ⟨hlt, rfl⟩
    · intro ds
      rw [callAll_ledger, Ledger.since_plus_since]

/-- Sixteen bytes, none, three bytes of which two are vouched for made ten, more than can be
counted, elements of no size, and a copy of two bytes under a ceiling that it just reaches. -/
theorem callAll_accounts_mixed :
    let overflow : Call := .allocate 0x4000000000000000 8
    let cs : List (Config × Call) := [({}, .allocate 4 4), ({}, .allocate 0 8),
      ({}, .resize ⟨#[1, 2, 3]⟩ 2 10), ({}, overflow), ({}, .resizeElements .empty 0 3 0),
      (⟨8192, some 3⟩, .duplicate ⟨#[97, 98, 0, 99]⟩)]
    (callAll cs {}).2 = ⟨2, 1, 27, 16⟩ ∧
      ∃ e l', overflow.run {} (callAll cs {}).2 = .error e l' ∧ l' = ⟨2, 1, 27, 16⟩ := by
  intro overflow cs
  have hfigures : (callAll cs {}).1.figures = ⟨2, 1, 27, 16⟩ := by decide +kernel
  have hledger := (callAll_accounts.2.1 cs).trans hfigures
  have hstop : overflow.run {} ⟨2, 1, 27, 16⟩ =
      .error (.refused (.freshOverflow 0x4000000000000000 8)) ⟨2, 1, 27, 16⟩ := rfl
  rw [hledger]
  exact ⟨rfl, _, _, hstop, callAll_accounts.1 {} overflow _ _ _ hstop⟩

end GrowBuffer.Memory
