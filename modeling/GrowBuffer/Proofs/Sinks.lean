import GrowBuffer.Format.Measure
import GrowBuffer.Format.Window
import GrowBuffer.Proofs.Bytes

/-! # What reaches a sink

A pass brings the bytes of its writes in order. Measuring counts them and looks for a NUL;
a window takes them as long as they fit, and never reaches behind its end.
-/

namespace GrowBuffer.Format
open Bytes

/-- The bytes of some writes, one after the other. -/
def bytesOf (ss : List String) : List UInt8 := ss.flatMap fun s => toList s.toUTF8

@[simp] theorem bytesOf_nil : bytesOf [] = [] := rfl

@[simp] theorem bytesOf_cons (s : String) (ss : List String) :
    bytesOf (s :: ss) = toList s.toUTF8 ++ bytesOf ss := rfl

theorem length_toUTF8 (s : String) : (toList s.toUTF8).length = s.utf8ByteSize :=
  length_toList _

theorem toList_text (p : Pass) : toList p.text.toUTF8 = bytesOf p.writes := by
  unfold Pass.text
  induction p.writes with
  | nil => rfl
  | cons s ss ih =>
    rw [bytesOf_cons, ← ih, String.join_cons, ← toList_append]
    exact congrArg toList String.toByteArray_append

namespace Measure

theorem length_writes (m : Measure) (ss : List String) :
    (ss.foldl write m).length = m.length + (bytesOf ss).length := by
  induction ss generalizing m with
  | nil => rfl
  | cons s ss ih =>
    rw [List.foldl_cons, ih, bytesOf_cons, List.length_append, length_toUTF8, ← Nat.add_assoc]
    rfl

theorem hasNul_writes (m : Measure) (ss : List String) :
    (ss.foldl write m).hasNul = true ↔ m.hasNul = true ∨ 0 ∈ bytesOf ss := by
  induction ss generalizing m with
  | nil => simp
  | cons s ss ih =>
    rw [List.foldl_cons, ih, bytesOf_cons, List.mem_append, ← or_assoc, ← hasNul_iff]
    simp [write]

theorem length_total (ss : List String) : (ss.foldl write {}).length = (bytesOf ss).length := by
  rw [length_writes]
  exact Nat.zero_add _

theorem hasNul_total (ss : List String) : (ss.foldl write {}).hasNul = true ↔ 0 ∈ bytesOf ss := by
  rw [hasNul_writes]
  simp

theorem overflow?_eq_none_iff {m : Measure} (hm : m.length < Word.limit) (ss : List String) :
    m.overflow? ss = none ↔ m.length + (bytesOf ss).length < Word.limit := by
  induction ss generalizing m with
  | nil => exact ⟨fun _ => hm, fun _ => rfl⟩
  | cons s ss ih =>
    rw [overflow?, bytesOf_cons, List.length_append, length_toUTF8, ← Nat.add_assoc]
    split
    · next n hn => exact ih (m := m.write s) (Word.add?_eq_some_iff.mp hn).1
    · next hn =>
      have hover := Word.add?_eq_none_iff.mp hn
      simp only [reduceCtorEq, false_iff]
      omega

end Measure

namespace Window

theorem fits_iff {w : Window} {s : String} :
    w.fits s = true ↔ w.filled + s.utf8ByteSize ≤ w.bytes.size :=
  decide_eq_true_iff

theorem size_put {w : Window} {s : String} (h : w.fits s = true) :
    (w.put s).bytes.size = w.bytes.size :=
  size_overwrite (fits_iff.mp h)

theorem put_of_split {w : Window} {p q : List UInt8} (hw : toList w.bytes = p ++ q)
    (hf : w.filled = p.length) (s : String) :
    toList (w.put s).bytes = (p ++ toList s.toUTF8) ++ q.drop (toList s.toUTF8).length ∧
      (w.put s).filled = (p ++ toList s.toUTF8).length := by
  constructor
  · rw [length_toList, ← toList_overwrite_of_split hw, ← hf]
    rfl
  · rw [List.length_append, length_toUTF8, ← hf]
    rfl

theorem takeWrites_bounds {w : Window} (h : w.filled ≤ w.bytes.size) (ss : List String) :
    (w.takeWrites ss).1.bytes.size = w.bytes.size ∧
      (w.takeWrites ss).1.filled ≤ w.bytes.size := by
  induction ss generalizing w with
  | nil => exact ⟨rfl, h⟩
  | cons s ss ih =>
    rw [takeWrites]
    split
    · rename_i hfits
      have hput := size_put hfits
      have := ih (w := w.put s) (by rw [hput]; exact fits_iff.mp hfits)
      rwa [hput] at this
    · exact ⟨rfl, h⟩

theorem takeWrites_done_iff {w : Window} (h : w.filled ≤ w.bytes.size) (ss : List String) :
    (w.takeWrites ss).2 = true ↔ w.filled + (bytesOf ss).length ≤ w.bytes.size := by
  induction ss generalizing w with
  | nil => simpa using h
  | cons s ss ih =>
    rw [takeWrites, bytesOf_cons, List.length_append, length_toUTF8]
    split
    · rename_i hfits
      have hput := size_put hfits
      rw [ih (by rw [hput]; exact fits_iff.mp hfits), hput, ← Nat.add_assoc]
      rfl
    · rename_i hfits
      rw [fits_iff] at hfits
      simp only [Bool.false_eq_true, false_iff]
      omega

theorem takeWrites_of_done {w : Window} {p q : List UInt8} (hw : toList w.bytes = p ++ q)
    (hf : w.filled = p.length) {ss : List String} (h : (w.takeWrites ss).2 = true) :
    toList (w.takeWrites ss).1.bytes = p ++ bytesOf ss ++ q.drop (bytesOf ss).length ∧
      (w.takeWrites ss).1.filled = p.length + (bytesOf ss).length := by
  induction ss generalizing w p q with
  | nil => simp [hw, hf]
  | cons s ss ih =>
    rw [takeWrites] at h ⊢
    split at h
    · rename_i hfits
      obtain ⟨hput, hfilled⟩ := put_of_split hw hf s
      obtain ⟨hb, hn⟩ := ih hput hfilled h
      rw [if_pos hfits, bytesOf_cons, hb, hn, List.drop_drop, List.length_append,
        List.length_append, List.append_assoc p, Nat.add_assoc]
      exact ⟨rfl, rfl⟩
    · cases h

theorem run_eq (w : Window) (p : Pass) :
    w.run p = ((w.takeWrites p.writes).1, (w.takeWrites p.writes).2 && !p.givesUp) := rfl

end Window
end GrowBuffer.Format
