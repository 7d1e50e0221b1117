import GrowBuffer.Proofs.Sinks

/-! # Two sinks for one text

The measure of a text says which windows it fits into: those of at least as many bytes. Neither
sink depends on the writes that the text comes in, except that a window which is too small is left
with the writes in front of the first that no longer fits. A refusal does not close a window.
Whatever is tried, it holds the writes that were taken, in their order, and its old bytes behind
them.
-/

namespace GrowBuffer.Format
open Bytes

theorem bytesOf_append (ss ts : List String) : bytesOf (ss ++ ts) = bytesOf ss ++ bytesOf ts :=
  List.flatMap_append

theorem toList_join (ss : List String) : toList (String.join ss).toUTF8 = bytesOf ss :=
  toList_text ⟨ss, false⟩

namespace Measure

theorem of?_eq (ss : List String) :
    of? ⟨ss, false⟩ = some ⟨(bytesOf ss).length, decide (0 ∈ bytesOf ss)⟩ := by
  have hnul : (ss.foldl write {}).hasNul = decide (0 ∈ bytesOf ss) := by
    rw [Bool.eq_iff_iff, hasNul_total, decide_eq_true_iff]
  rw [of?_completes, ← hnul, ← length_total]

end Measure

/-- The writes that were taken, of writes with their answers. -/
def taken (calls : List (String × Bool)) : List String := (calls.filter (·.2)).map (·.1)

theorem taken_append (cs ds : List (String × Bool)) : taken (cs ++ ds) = taken cs ++ taken ds := by
  simp [taken]

theorem taken_all (ss : List String) : taken (ss.map (·, true)) = ss := by
  induction ss with
  | nil => rfl
  | cons s ss ih => exact congrArg (s :: ·) ih

namespace Window

/-- A single write, and whether it was taken. -/
def write (w : Window) (s : String) : Window × Bool := w.run ⟨[s], false⟩

theorem write_of_fits {w : Window} {s : String} (h : w.fits s = true) :
    w.write s = (w.put s, true) := by
  simp [write, run, takeWrites, h]

theorem write_of_not_fits {w : Window} {s : String} (h : ¬ w.fits s = true) :
    w.write s = (w, false) := by
  simp [write, run, takeWrites, h]

/-- The writes that one pass tries on a window, with the answers to them. A pass ends with its
first refused write. -/
def passCalls (w : Window) : List String → List (String × Bool)
  | [] => []
  | s :: ss => (s, (w.write s).2) :: if (w.write s).2 then (w.write s).1.passCalls ss else []

/-- The same for passes one after the other, whether the earlier ones succeeded or not. -/
def calls (w : Window) : List Pass → List (String × Bool)
  | [] => []
  | p :: ps => w.passCalls p.writes ++ (w.run p).1.calls ps

section Calls

variable {w : Window} {s : String} {ss : List String}

theorem passCalls_of_fits (h : w.fits s = true) :
    w.passCalls (s :: ss) = (s, true) :: (w.put s).passCalls ss := by
  rw [passCalls, write_of_fits h, if_pos rfl]

theorem passCalls_of_not_fits (h : ¬ w.fits s = true) :
    w.passCalls (s :: ss) = [(s, false)] := by
  rw [passCalls, write_of_not_fits h, if_neg Bool.false_ne_true]

theorem passCalls_of_done (h : (w.takeWrites ss).2 = true) :
    w.passCalls ss = ss.map (·, true) := by
  induction ss generalizing w with
  | nil => rfl
  | cons s ss ih =>
    rw [takeWrites] at h
    split at h
    · next hfits => rw [passCalls_of_fits hfits, ih h, List.map_cons]
    · cases h

theorem exists_refused (h : (w.takeWrites ss).2 = false) :
    ∃ us s vs, ss = us ++ s :: vs ∧ w.passCalls ss = us.map (·, true) ++ [(s, false)] ∧
      ¬ (w.takeWrites ss).1.fits s = true := by
  induction ss generalizing w with
  | nil => cases h
  | cons x ss ih =>
    rw [takeWrites] at h ⊢
    split at h
    · next hfits =>
      obtain ⟨us, s, vs, rfl, hcalls, hs⟩ := ih h
      refine ⟨x :: us, s, vs, rfl, ?_, ?_⟩
      · rw [passCalls_of_fits hfits, hcalls, List.map_cons, List.cons_append]
      · rwa [if_pos hfits]
    · next hfits =>
      refine ⟨[], x, ss, rfl, passCalls_of_not_fits hfits, ?_⟩
      rwa [if_neg hfits]

end Calls

/-- A window over `d` has taken these writes: it holds their bytes, and behind them those of `d`. -/
structure HasTaken (d : ByteArray) (ss : List String) (w : Window) : Prop where
  bytes : toList w.bytes = bytesOf ss ++ (toList d).drop (bytesOf ss).length
  filled : w.filled = (bytesOf ss).length
  filled_le : w.filled ≤ d.size

namespace HasTaken

variable {d : ByteArray} {us : List String} {w : Window}

theorem nil (d : ByteArray) : HasTaken d [] ⟨d, 0⟩ := ⟨rfl, rfl, Nat.zero_le _⟩

theorem size (h : HasTaken d us w) : w.bytes.size = d.size := by
  have hle := h.filled_le
  rw [h.filled] at hle
  rw [← length_toList, h.bytes, List.length_append, List.length_drop, length_toList]
  omega

theorem put (h : HasTaken d us w) {s : String} (hs : w.fits s = true) :
    HasTaken d (us ++ [s]) (w.put s) := by
  have hone : bytesOf (us ++ [s]) = bytesOf us ++ toList s.toUTF8 := by
    rw [bytesOf_append, bytesOf_cons, bytesOf_nil, List.append_nil]
  obtain ⟨hput, hfilled⟩ := put_of_split h.bytes h.filled s
  rw [List.drop_drop, ← List.length_append, ← hone] at hput
  rw [← hone] at hfilled
  have hfits := fits_iff.mp hs
  rw [h.size] at hfits
  exact ⟨hput, hfilled, hfits⟩

theorem takeWrites (h : HasTaken d us w) (ss : List String) :
    HasTaken d (us ++ taken (w.passCalls ss)) (w.takeWrites ss).1 := by
  induction ss generalizing us w with
  | nil => exact (List.append_nil us).symm ▸ h
  | cons s ss ih =>
    rw [Window.takeWrites]
    split
    · next hs =>
      have hrest := ih (h.put hs)
      rw [List.append_assoc] at hrest
      rw [passCalls_of_fits hs]
      exact hrest
    · next hs =>
      rw [passCalls_of_not_fits hs]
      exact (List.append_nil us).symm ▸ h

theorem runs (h : HasTaken d us w) (ps : List Pass) :
    HasTaken d (us ++ taken (w.calls ps)) (w.runs ps).2 ∧ ∀ a ∈ (w.runs ps).1, a.2 ≤ d.size := by
  induction ps generalizing us w with
  | nil => exact ⟨(List.append_nil us).symm ▸ h, fun a ha => absurd ha List.not_mem_nil⟩
  | cons p ps ih =>
    have hpass : HasTaken d _ (w.run p).1 := h.takeWrites p.writes
    obtain ⟨hrest, hanswers⟩ := ih hpass
    rw [calls, taken_append, ← List.append_assoc]
    refine ⟨hrest, fun a ha => ?_⟩
    rcases List.mem_cons.mp ha with rfl | ha
    · exact hpass.filled_le
    · exact hanswers a ha

end HasTaken

theorem run_completes (w : Window) (ws : List String) :
    w.run ⟨ws, false⟩ = w.takeWrites ws := by
  rw [run_eq, Bool.not_false, Bool.and_true]

end Window

/-- The count of a text overflows only with more bytes than a size can tell; else it is the number
of its bytes, and a NUL is found if there is one, whatever writes the text comes in. A text is
written into a window exactly if the window is no shorter, and is then followed by the old bytes.
Otherwise it fails with the first write that brings the total above the length, and the window
holds what was written before. Behind failures passes go on in the same way: the window holds
exactly the writes that were taken, its old bytes behind them, and is never filled beyond its
end. -/
theorem sinks_agree (ws : List String) (d : ByteArray) :
    (Measure.overflow? {} ws = none ↔ (bytesOf ws).length < Word.limit) ∧
      Measure.of? ⟨ws, false⟩ = some ⟨(bytesOf ws).length, decide (0 ∈ bytesOf ws)⟩ ∧
      (∀ us, String.join us = String.join ws →
        Measure.of? ⟨us, false⟩ = Measure.of? ⟨ws, false⟩) ∧
      let w : Window := ⟨d, 0⟩
      ((w.run ⟨ws, false⟩).2 = true ↔ (bytesOf ws).length ≤ d.size) ∧
        ((w.run ⟨ws, false⟩).2 = true → Window.HasTaken d ws (w.run ⟨ws, false⟩).1) ∧
        ((w.run ⟨ws, false⟩).2 = false → ∃ us s vs, ws = us ++ s :: vs ∧
          w.passCalls ws = us.map (·, true) ++ [(s, false)] ∧
          d.size < (bytesOf (us ++ [s])).length ∧
          Window.HasTaken d us (w.run ⟨ws, false⟩).1) ∧
        ∀ ps, Window.HasTaken d (taken (w.calls ps)) (w.runs ps).2 ∧
          ∀ a ∈ (w.runs ps).1, a.2 ≤ d.size := by
  have hstart := Window.HasTaken.nil d
  have hpass := hstart.takeWrites ws
  refine ⟨?_, Measure.of?_eq ws, fun us hjoin => ?_, ?_⟩
  · rw [Measure.overflow?_eq_none_iff (by decide), Nat.zero_add]
  · rw [Measure.of?_eq, Measure.of?_eq, ← toList_join us, hjoin, toList_join]
  simp only [Window.run_completes]
  refine ⟨?_, fun hdone => ?_, fun hcut => ?_, hstart.runs⟩
  · rw [Window.takeWrites_done_iff hstart.filled_le, Nat.zero_add]
  · rwa [Window.passCalls_of_done hdone, taken_all, List.nil_append] at hpass
  · obtain ⟨us, s, vs, hws, hcalls, hs⟩ := Window.exists_refused hcut
    have hus : Window.HasTaken d us (Window.takeWrites ⟨d, 0⟩ ws).1 := by
      rwa [hcalls, taken_append, taken_all, List.nil_append, show taken [(s, false)] = [] from rfl,
        List.append_nil] at hpass
    refine ⟨us, s, vs, hws, hcalls, ?_, hus⟩
    rw [Window.fits_iff, hus.size, hus.filled] at hs
    rw [bytesOf_append, List.length_append, bytesOf_cons, bytesOf_nil, List.append_nil,
      length_toUTF8]
    omega

/-- Four bytes fill four, three behind two do not fit, and one tried after them does. -/
theorem sinks_agree_tight :
    let d : ByteArray := ⟨#[1, 2, 3, 4]⟩
    let w : Window := ⟨d, 0⟩
    let ps : List Pass := [⟨["ab", "cde"], false⟩, ⟨["f"], false⟩]
    Measure.of? ⟨["ab", "cde"], false⟩ = Measure.of? ⟨["abcd", "", "e"], false⟩ ∧
      Window.HasTaken d ["ab", "", "cd"] (w.run ⟨["ab", "", "cd"], false⟩).1 ∧
      (∃ us s vs, ["ab", "cde"] = us ++ s :: vs ∧
        Window.HasTaken d us (w.run ⟨["ab", "cde"], false⟩).1) ∧
      taken (w.calls ps) = ["ab", "f"] ∧ toList (w.runs ps).2.bytes = [97, 98, 102, 4] := by
  intro d w ps
  obtain ⟨-, -, hsplit, -, -, hcut, hgoes⟩ := sinks_agree ["ab", "cde"] d
  obtain ⟨-, -, -, -, hdone, -, -⟩ := sinks_agree ["ab", "", "cd"] d
  obtain ⟨us, s, vs, hws, -, -, hus⟩ := hcut (by decide +kernel)
  have htaken : taken (w.calls ps) = ["ab", "f"] := by decide +kernel
  have hbytes := (hgoes ps).1.bytes
  rw [htaken] at hbytes
  exact ⟨(hsplit ["abcd", "", "e"] (by decide +kernel)).symm, hdone (by decide +kernel),
    ⟨us, s, vs, hws, hus⟩, htaken, hbytes⟩

end GrowBuffer.Format
