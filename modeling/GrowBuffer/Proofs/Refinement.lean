import GrowBuffer.Proofs.InPlace
import GrowBuffer.Proofs.Runs

/-! # A buffer as a list of bytes

Seen from outside a buffer is the list of its bytes. Where they are stored, how their length
is kept and what is left behind them does not show, but for one thing: an inline buffer
drops a NUL that is appended on its own.
-/

namespace GrowBuffer

namespace Format

/-- Both passes come to their end, with the same text. -/
structure Formatted.Agrees (f : Formatted) : Prop where
  measured : f.measured.givesUp = false
  written : f.written.givesUp = false
  text : f.measured.text = f.written.text

end Format

namespace Buffer
open Bytes Format Memory

/-- The operations that a list of bytes has as well. -/
inductive ListOp where
  | appendByte (c : UInt8)
  | append (w : ByteArray)
  | appendText (x : String)
  | write (xs : List String)
  | print (f : Formatted) (h : f.Agrees)
  | pop
  | clear
  | reserve (extra : Nat)
  | terminate
  | rewind
  | detach

namespace ListOp

def op : ListOp → Op
  | appendByte c => .appendByte c
  | append w => .append w
  | appendText x => .appendText x
  | write xs => .stream ⟨xs, false⟩
  | print f _ => .print f
  | pop => .pop
  | clear => .clear
  | reserve extra => .reserve extra
  | terminate => .terminate
  | rewind => .rewind
  | detach => .detach

/-- What the operation answers on a list. -/
def answer (m : List UInt8) : ListOp → Answer
  | appendByte _ => .done
  | append w => .count (toList w).length
  | appendText x => .count (toList x.toUTF8).length
  | write _ => .streamed true
  | print f _ => .printed (some (toList f.written.text.toUTF8).length)
  | pop => .popped m.getLast?
  | clear => .done
  | reserve _ => .done
  | terminate => .bytes (ofList (m ++ [0]))
  | rewind => .bytes (ofList m)
  | detach => .detached ⟨ofList (m ++ [0])⟩

/-- What the operation makes of a list; `inline` is where the one difference shows. -/
def result (inline : Bool) (m : List UInt8) : ListOp → List UInt8
  | appendByte c => if inline && c == 0 then m else m ++ [c]
  | append w => m ++ toList w
  | appendText x => m ++ toList x.toUTF8
  | write xs => m ++ bytesOf xs
  | print f _ => m ++ toList f.written.text.toUTF8
  | pop => m.dropLast
  | clear => []
  | reserve _ => m
  | terminate => m
  | rewind => []
  | detach => []

/-- The operation needs no memory that the buffer does not have. -/
def InPlace (b : Buffer) : ListOp → Prop
  | appendByte c => (b.isInline && c == 0) = true ∨ b.Fits [c]
  | append w => b.Fits (toList w)
  | appendText x => b.Fits (toList x.toUTF8)
  | write xs => b.Fits (bytesOf xs)
  | print f _ => (toList f.written.text.toUTF8).length < b.room ∧
      b.Fits (toList f.written.text.toUTF8)
  | reserve extra => extra ≤ b.room
  | rewind => b.isInline = true → 0 < b.room
  | detach => b.location = .heap
  | pop | clear | terminate => True

end ListOp

/-- What an action gives, unless it is refused; and it is not refused if it is `sure`. -/
def Granted {α : Type} (sure : Prop) (done : α → State → Prop) :
    EStateM.Result Stop State α → Prop
  | .ok a t => done a t
  | .error (.refused _) _ => ¬ sure
  | .error (.faulted _) _ => False

namespace Granted

variable {α β : Type} {sure : Prop} {done : α → State → Prop} {done' : β → State → Prop}

theorem mono {done'' : α → State → Prop} {r : EStateM.Result Stop State α}
    (h : Granted sure done r) (hd : ∀ a t, done a t → done'' a t) : Granted sure done'' r := by
  rcases r with ⟨a, t⟩ | ⟨_ | _, t⟩
  · exact hd a t h
  · exact h
  · exact h

theorem of_sure {r : EStateM.Result Stop State α} (h : Granted False done r)
    (hs : sure → ∃ a t, r = .ok a t) : Granted sure done r := by
  rcases r with ⟨a, t⟩ | ⟨_ | _, t⟩
  · exact h
  · intro hsure
    obtain ⟨a, t, hr⟩ := hs hsure
    cases hr
  · exact h

theorem bind {s : State} {x : Work α} {f : α → Work β} (h : Granted False done (x s))
    (hf : ∀ a t, done a t → Granted False done' (f a t)) :
    Granted False done' ((x >>= f) s) := by
  generalize hr : x s = r at h
  rcases r with ⟨a, t⟩ | ⟨_ | _, t⟩
  · rw [Action.bind_ok hr]
    exact hf a t h
  · rw [Action.bind_error hr]
    exact h
  · exact h.elim

theorem and {done'' : α → State → Prop} {r : EStateM.Result Stop State α}
    (h : Granted sure done r) (k : Granted sure done'' r) :
    Granted sure (fun a t => done a t ∧ done'' a t) r := by
  rcases r with ⟨a, t⟩ | ⟨_ | _, t⟩
  · exact ⟨h, k⟩
  · exact h
  · exact h

theorem and_safe {r : EStateM.Result Stop State α} (h : Granted sure done r) (hs : Safe r) :
    Granted sure (fun a t => done a t ∧ t.buffer.Sound) r := by
  cases hs with
  | ok ht => exact ⟨h, ht⟩
  | refused _ => exact h

end Granted

theorem Ends.granted {s : State} {α : Type} {done : α → State → Prop}
    {r : EStateM.Result Stop State α} (h : Ends s done r) : Granted False done r := by
  cases h with
  | finished h => exact h
  | uncountable _ => exact id
  | unsupplied _ _ => exact id

/-- What the buffer shows of itself is the list `m`. -/
structure Shows (b : Buffer) (m : List UInt8) : Prop where
  content : toList b.content = m
  length : b.length = m.length
  length_le : b.length ≤ b.capacity

theorem Sound.shows {b : Buffer} (h : b.Sound) : b.Shows (toList b.content) :=
  ⟨rfl, h.wellFormed.length_content.symm, h.wellFormed.length_le⟩

/-- At every step the buffer shows the list, and the operation answers as it does on the list.
An operation that needs more memory may be refused, and this ends the run. -/
def Follows (cfg : Config) : List ListOp → State → List UInt8 → Prop
  | [], s, m => s.buffer.Shows m
  | o :: os, s, m => s.buffer.Shows m ∧
      Granted (o.InPlace s.buffer) (fun a t => a = o.answer m ∧
        Follows cfg os t (o.result s.buffer.isInline m)) (o.op.run cfg s)

section Step

variable {cfg : Config} {s : State}

theorem appendByte_content (h : s.buffer.WellFormed) (c : UInt8) :
    Ends s (fun _ t => toList t.buffer.content =
      if s.buffer.isInline && c == 0 then toList s.buffer.content
      else toList s.buffer.content ++ [c]) (appendByte cfg c s) := by
  by_cases hc : (s.buffer.isInline && c == 0) = true
  · rw [appendByte_dropped hc]
    exact .finished (by rw [if_pos hc])
  · apply (appendByte_ends h (by simpa using hc)).mono
    rintro _ t ⟨e, he, -, rfl⟩
    have hne : e.buffer.isInline = true → c ≠ 0 := by
      rintro hi rfl
      obtain rfl := he.eq_of_isInline hi
      exact hc (by rw [hi]; rfl)
    rw [if_neg hc, content_bytePlaced (he.wellFormed h) hne, he.content h]

theorem append_content (h : s.buffer.WellFormed) (w : ByteArray) :
    Ends s (fun n t => n = (toList w).length ∧
      toList t.buffer.content = toList s.buffer.content ++ toList w) (append cfg w s) := by
  by_cases hz : w.size = 0
  · rw [append_empty hz, toList_nil_iff.mpr hz]
    exact .finished ⟨rfl, (List.append_nil _).symm⟩
  · apply (append_ends h hz).mono
    rintro _ t ⟨rfl, e, he, -, hn, rfl⟩
    refine ⟨(length_toList w).symm, ?_⟩
    rw [content_placed (he.wellFormed h) hn, he.content h]

theorem appendTexts_content (h : s.buffer.Sound) (xs : List String) :
    Granted False (fun _ t => toList t.buffer.content = toList s.buffer.content ++ bytesOf xs)
      (appendTexts cfg xs s) := by
  induction xs generalizing s with
  | nil => exact (List.append_nil _).symm
  | cons x xs ih =>
    apply ((append_content h.wellFormed x.toUTF8).granted.and_safe (append_safe h _)).bind
    rintro n t ⟨⟨-, ht⟩, hsound⟩
    apply (ih hsound).mono
    intro _ u hu
    rw [hu, ht, List.append_assoc, bytesOf_cons]

theorem stream_content (h : s.buffer.Sound) (xs : List String) :
    Granted False (fun done t => done = true ∧
      toList t.buffer.content = toList s.buffer.content ++ bytesOf xs)
      (stream cfg ⟨xs, false⟩ s) :=
  (appendTexts_content h xs).bind fun _ _ hd => ⟨rfl, hd⟩

theorem print_content (h : s.buffer.Sound) {f : Formatted} (hf : f.Agrees) :
    Ends s (fun n t => n = some (toList f.written.text.toUTF8).length ∧
      toList t.buffer.content = toList s.buffer.content ++ toList f.written.text.toUTF8)
      (print cfg f s) := by
  have htext : bytesOf f.measured.writes = bytesOf f.written.writes := by
    rw [← toList_text, ← toList_text, hf.text]
  apply (print_ends h f).mono
  rintro n t (⟨hgiven, -, -⟩ | ⟨-, e, he, hr, hn, rfl, rfl⟩)
  · rw [hf.measured] at hgiven
    cases hgiven
  · rw [htext] at hr hn ⊢
    have hw := he.wellFormed h.wellFormed
    have hall := (windowAfter_complete_iff (p := f.written) hw hr).mpr ⟨Nat.le_refl _, hf.written⟩
    obtain ⟨-, hfilled⟩ := windowAfter_of_complete hall
    rw [if_pos hall, hfilled, toList_text, content_filled_of_complete hw hall hn,
      he.content h.wellFormed]
    exact ⟨rfl, rfl⟩

theorem pop_content (h : s.buffer.WellFormed) :
    Ends s (fun c t => c = (toList s.buffer.content).getLast? ∧
      toList t.buffer.content = (toList s.buffer.content).dropLast) (pop s) := by
  have hlen := h.length_content
  rw [pop_run h]
  refine .finished ⟨rfl, ?_⟩
  split
  · rename_i hz
    rw [h.content_eq_nil hz]
    rfl
  · rw [content_endedAt h (by omega), List.dropLast_eq_take, hlen]

theorem clear_content (h : s.buffer.WellFormed) :
    Ends s (fun _ t => toList t.buffer.content = []) (clear s) := by
  rw [clear_run h]
  exact .finished (content_endedAt h (Nat.zero_le _))

theorem reserve_content (h : s.buffer.WellFormed) (extra : Nat) :
    Ends s (fun _ t => toList t.buffer.content = toList s.buffer.content)
      (reserve cfg extra s) :=
  (reserve_ends h extra).mono fun _ _ hd => hd.1.content h

theorem terminate_content (h : s.buffer.WellFormed) :
    Ends s (fun shown t => shown = s.buffer.shown ∧
      toList t.buffer.content = toList s.buffer.content) (terminate s) := by
  rw [terminate_run h]
  exact .finished ⟨rfl, content_terminated h⟩

theorem rewind_content (h : s.buffer.WellFormed) :
    Ends s (fun shown t => shown = s.buffer.content ∧ toList t.buffer.content = [])
      (rewind cfg s) := by
  apply (rewind_ends h).mono
  rintro _ t ⟨rfl, e, he, hr, rfl⟩
  exact ⟨rfl, content_restarted (he.wellFormed h) hr⟩

theorem detach_content (h : s.buffer.Sound) :
    Ends s (fun d t => d = ⟨s.buffer.shown⟩ ∧ toList t.buffer.content = [])
      (detach cfg s) := by
  apply (detach_ends h.wellFormed h.length_lt).mono
  rintro d t ⟨rfl, ht, -⟩
  rw [ht]
  exact ⟨rfl, by rfl⟩

theorem ListOp.run_granted (h : s.buffer.Sound) (o : ListOp) :
    Granted False (fun a t => a = o.answer (toList s.buffer.content) ∧
      toList t.buffer.content = o.result s.buffer.isInline (toList s.buffer.content))
      (o.op.run cfg s) := by
  have hw := h.wellFormed
  cases o with
  | appendByte c => exact ((appendByte_content hw c).map fun _ _ hd => ⟨rfl, hd⟩).granted
  | append w =>
    exact ((append_content hw w).map fun _ _ hd => ⟨congrArg Answer.count hd.1, hd.2⟩).granted
  | appendText x =>
    exact ((append_content hw x.toUTF8).map fun _ _ hd =>
      ⟨congrArg Answer.count hd.1, hd.2⟩).granted
  | write xs =>
    exact (stream_content h xs).bind fun _ _ hd => ⟨congrArg Answer.streamed hd.1, hd.2⟩
  | print f hf =>
    exact ((print_content h hf).map fun _ _ hd => ⟨congrArg Answer.printed hd.1, hd.2⟩).granted
  | pop => exact ((pop_content hw).map fun _ _ hd => ⟨congrArg Answer.popped hd.1, hd.2⟩).granted
  | clear => exact ((clear_content hw).map fun _ _ hd => ⟨rfl, hd⟩).granted
  | reserve extra => exact ((reserve_content hw extra).map fun _ _ hd => ⟨rfl, hd⟩).granted
  | terminate =>
    exact ((terminate_content hw).map fun _ _ hd => ⟨congrArg Answer.bytes hd.1, hd.2⟩).granted
  | rewind =>
    refine ((rewind_content hw).map fun shown _ hd => ⟨?_, hd.2⟩).granted
    rw [hd.1]
    exact congrArg Answer.bytes (ext_toList rfl)
  | detach =>
    exact ((detach_content h).map fun _ _ hd => ⟨congrArg Answer.detached hd.1, hd.2⟩).granted

theorem ListOp.run_in_place (cfg : Config) (h : s.buffer.Sound) {o : ListOp}
    (ho : o.InPlace s.buffer) : ∃ a t, o.op.run cfg s = .ok a t := by
  have hw := h.wellFormed
  cases o with
  | appendByte c =>
    rcases ho with hc | hf
    · exact ⟨_, _, Action.bind_ok (appendByte_dropped hc)⟩
    · exact ⟨_, _, Action.bind_ok (appendByte_in_place hw hf)⟩
  | append w =>
    obtain ⟨c, hrun, -⟩ := append_absorbs cfg hw ho
    exact ⟨_, _, Action.bind_ok hrun⟩
  | appendText x =>
    obtain ⟨c, hrun, -⟩ := append_absorbs cfg hw ho
    exact ⟨_, _, Action.bind_ok hrun⟩
  | write xs =>
    obtain ⟨c, hrun, -⟩ := appendTexts_absorbs cfg hw ho
    exact ⟨_, _, Action.bind_ok ((Action.bind_ok hrun).trans rfl)⟩
  | print f hf =>
    have htext : toList f.written.text.toUTF8 = bytesOf f.measured.writes := by
      rw [← hf.text, toList_text]
    rw [InPlace, htext] at ho
    exact ⟨_, _, Action.bind_ok (print_in_place h hf.measured ho.1 ho.2.2)⟩
  | pop => exact ⟨_, _, Action.bind_ok (pop_run hw)⟩
  | clear => exact ⟨_, _, Action.bind_ok (clear_run hw)⟩
  | reserve extra => exact ⟨_, _, Action.bind_ok (reserve_of_room hw ho)⟩
  | terminate => exact ⟨_, _, Action.bind_ok (terminate_run hw)⟩
  | rewind => exact ⟨_, _, Action.bind_ok (rewind_in_place hw ho)⟩
  | detach =>
    have hrun : Buffer.detach cfg s = _ := detach_run hw h.length_lt
    have hheap : s.buffer.location = .heap := ho
    rw [if_pos hheap] at hrun
    exact ⟨_, _, Action.bind_ok hrun⟩

end Step

theorem Sound.follows {cfg : Config} {s : State} (h : s.buffer.Sound) (os : List ListOp) :
    Follows cfg os s (toList s.buffer.content) := by
  -- on the operations; that the buffer stays sound carries the induction
  induction os generalizing s with
  | nil => exact h.shows
  | cons o os ih =>
    have hsafe : Safe (o.op.run cfg s) := by
      apply Op.run_safe h
      intro n hn
      cases o <;> cases hn
    have hgranted := (ListOp.run_granted h o).of_sure (ListOp.run_in_place cfg h)
    refine ⟨h.shows, (hgranted.and_safe hsafe).mono ?_⟩
    rintro a t ⟨⟨ha, hcontent⟩, ht⟩
    exact ⟨ha, hcontent ▸ ih ht⟩

/-- Wherever it begins, a buffer follows the list that begins empty, operation by operation,
up to one that asks for memory and is refused. -/
theorem fresh_follows {cfg : Config} {b : Buffer} (h : Fresh b) (l : Ledger) (os : List ListOp) :
    Follows cfg os ⟨b, l⟩ [] := by
  have hfollows : Follows cfg os ⟨b, l⟩ (toList b.content) := h.sound.follows os
  rwa [h.content] at hfollows

/-- Lent memory with room for two bytes is left by the print, which needs a third one. Nothing is
refused, and every answer is that of the list. -/
theorem fresh_follows_scratch :
    let os : List ListOp := [.append ⟨#[97]⟩, .print (.steady ⟨["b"], false⟩) ⟨rfl, rfl, rfl⟩,
      .appendByte 0, .pop, .terminate, .rewind, .write ["c", "d"], .detach]
    let s : State := ⟨⟨.lent 0, ⟨#[0, 7, 7]⟩⟩, {}⟩
    Follows ⟨8, none⟩ os s [] ∧
      (runs ⟨8, none⟩ (os.map ListOp.op) s).1 = [.ok (.count 1), .ok (.printed (some 1)), .ok .done,
        .ok (.popped (some 0)), .ok (.bytes ⟨#[97, 98, 0]⟩), .ok (.bytes ⟨#[97, 98]⟩),
        .ok (.streamed true), .ok (.detached ⟨⟨#[99, 100, 0]⟩⟩)] ∧
      toList (runs ⟨8, none⟩ ((os.take 3).map ListOp.op) s).2.buffer.content = [97, 98, 0] := by
  refine ⟨fresh_follows (.lent ⟨#[7, 7, 7]⟩ (by decide) rfl) {} _, ?_, ?_⟩
  · decide +kernel
  · decide +kernel

example : (runs {} [.append ⟨#[97]⟩, .appendByte 0, .pop, .detach] {}).1 =
    [.ok (.count 1), .ok .done, .ok (.popped (some 97)), .ok (.detached ⟨⟨#[0]⟩⟩)] := by
  decide +kernel

end Buffer
end GrowBuffer
