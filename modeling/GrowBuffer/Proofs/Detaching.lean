import GrowBuffer.Proofs.Failure
import GrowBuffer.Proofs.Streaming

/-! # What detached bytes are

A content is given away in one form, the bytes and a terminator, whatever it was stored in and
whatever stood behind it. So detached bytes tell nothing but the content, and two of them are
equal if their contents are. The buffer that is left tells nothing of it either.
-/

namespace GrowBuffer

open Bytes

/-- All views of the detached bytes are views of the list `m`. -/
structure Detached.Views (d : Detached) (m : List UInt8) : Prop where
  content : toList d.content = m
  terminated : toList d.terminated = m ++ [0]
  unterminated : (toList d.terminated).dropLast = m
  length : d.length = m.length
  isEmpty : d.isEmpty = m.isEmpty
  cString? : d.cString? = if 0 ∈ m then none else some (ofList m)

namespace Detached

variable {d d' : Detached} {m m' : List UInt8}

theorem views_of_terminated (h : toList d.terminated = m ++ [0]) : d.Views m := by
  have hlength : d.length = m.length := by
    rw [length, ← length_toList, h, List.length_append]
    rfl
  have hcontent : toList d.content = m := by
    rw [content, toList_extract, h, List.drop_zero, hlength, List.take_left]
  refine ⟨hcontent, h, ?_, hlength, ?_, ?_⟩
  · rw [h, List.dropLast_concat]
  · rw [Detached.isEmpty, hlength]
    cases m <;> rfl
  · have hwhole : d.content = ofList m := eq_ofList_iff.mpr hcontent
    rw [Detached.cString?, hwhole]
    simp only [hasNul_iff, toList_ofList]

theorem Views.eq_iff (h : d.Views m) (h' : d'.Views m') : d = d' ↔ m = m' := by
  constructor
  · rintro rfl
    exact h.content.symm.trans h'.content
  · rintro rfl
    have hbytes : d.terminated = d'.terminated :=
      ext_toList (h.terminated.trans h'.terminated.symm)
    exact congrArg Detached.mk hbytes

end Detached

namespace Buffer
open Memory

theorem views_shown (b : Buffer) : (⟨b.shown⟩ : Detached).Views (toList b.content) :=
  Detached.views_of_terminated rfl

/-- From any state that operations lead to, a detachment that is not refused gives the content and
nothing else, for no request from the heap and for one of its size and a terminator from any other
place. What is left goes on as a new buffer does. Detached bytes are equal, and then of one hash,
exactly if the contents were equal, wherever they came from. -/
theorem reachable_detached {b : Buffer} (h : Reachable b) (cfg : Config) (l : Ledger)
    (hp : ¬ Refused (detach cfg ⟨b, l⟩)) :
    ∃ d t, detach cfg ⟨b, l⟩ = .ok d t ∧ d.Views (toList b.content) ∧
      t.ledger = (if b.location = .heap then l else l.enterFresh (b.length + 1)) ∧
      t.buffer.storage = ({} : Buffer).storage ∧ t.buffer.loan = b.loan ∧
      (∀ cfg', GoesOnAs cfg' t ⟨{}, t.ledger⟩) ∧
      ∀ b', Reachable b' → ∀ cfg' l' d' t', detach cfg' ⟨b', l'⟩ = .ok d' t' →
        (d = d' ∧ hash d = hash d' ↔ b.content = b'.content) := by
  have hends : Ends ⟨b, l⟩ _ (detach cfg ⟨b, l⟩) :=
    detach_ends h.sound.wellFormed h.sound.length_lt
  obtain ⟨_, ⟨_, l₁⟩, hrun, rfl, rfl, hledger⟩ := hends.granted.answered hp
  refine ⟨_, _, hrun, b.views_shown, hledger, rfl, rfl,
    fun cfg' => goesOnAs_new cfg' b.loan l₁, ?_⟩
  intro b' h' cfg' l' d' t' hrun'
  have hends' : Ends ⟨b', l'⟩ _ (detach cfg' ⟨b', l'⟩) :=
    detach_ends h'.sound.wellFormed h'.sound.length_lt
  obtain ⟨rfl, -⟩ := hends'.of_ok hrun'
  have hiff := b.views_shown.eq_iff b'.views_shown
  constructor
  · rintro ⟨heq, -⟩
    exact ext_toList (hiff.mp heq)
  · intro heq
    rw [hiff.mpr (congrArg toList heq)]
    exact ⟨rfl, rfl⟩

/-- Two letters twice: in lent memory, from where they are copied, and on the heap in front of a NUL
that was popped. -/
theorem reachable_detached_popped :
    let lent := ((Op.append ⟨#[97, 98]⟩).after {} ⟨⟨.lent 0, ⟨#[0, 7, 7]⟩⟩, {}⟩).buffer
    let filled := ((Op.append ⟨#[97, 98, 0]⟩).after ⟨4, none⟩ {}).buffer
    let heap := (Op.pop.after {} ⟨filled, {}⟩).buffer
    heap.location = .heap ∧ ∃ d t, detach ⟨8192, some 3⟩ ⟨lent, {}⟩ = .ok d t ∧
      d.Views [97, 98] ∧ t.ledger = ({} : Ledger).enterFresh 3 ∧ GoesOnAs {} t ⟨{}, t.ledger⟩ ∧
      ∀ d' t', detach {} ⟨heap, {}⟩ = .ok d' t' → d = d' ∧ hash d = hash d' := by
  intro lent filled heap
  have hlent : Reachable lent :=
    .step (.fresh (.lent ⟨#[7, 7, 7]⟩ (by decide) rfl)) {} {} (.append ⟨#[97, 98]⟩)
  have hheap : Reachable heap :=
    .step (.step (.fresh .new) ⟨4, none⟩ {} (.append ⟨#[97, 98, 0]⟩)) {} {} .pop
  obtain ⟨d, t, hrun, hviews, hledger, -, -, hgoes, hequal⟩ :=
    reachable_detached hlent ⟨8192, some 3⟩ {} (by decide +kernel)
  have hcontent : toList lent.content = [97, 98] := by decide +kernel
  rw [hcontent] at hviews
  refine ⟨by decide +kernel, d, t, hrun, hviews, ?_, hgoes {}, fun d' t' hrun' => ?_⟩
  · rw [hledger]
    decide +kernel
  · exact (hequal heap hheap {} {} d' t' hrun').mpr (by decide +kernel)

end Buffer
end GrowBuffer
