import GrowBuffer.Proofs.Refinement

/-! # Terminators

An operation that ends its work with a terminator leaves a NUL at the place where the content
ends, whatever stood there before. In an inline store there is a NUL at that place anyway; in
any other store it is the one that was written behind the new bytes.
-/

namespace GrowBuffer.Buffer
open Bytes Format Memory

/-- The byte at the end of the content is in the store and is a NUL. -/
def NulTerminated (b : Buffer) : Prop := (toList b.store)[b.length]? = some 0

instance (b : Buffer) : Decidable b.NulTerminated :=
  inferInstanceAs (Decidable ((toList b.store)[b.length]? = some 0))

/-- The store begins with these bytes and a NUL. -/
def Holds (b : Buffer) (m : List UInt8) : Prop := ∃ rest, toList b.store = m ++ 0 :: rest

section Ended

variable {b : Buffer} {m : List UInt8}

theorem Holds.getElem? (h : b.Holds m) : (toList b.store)[m.length]? = some 0 := by
  obtain ⟨rest, hstore⟩ := h
  rw [hstore, List.getElem?_append_right (Nat.le_refl _), Nat.sub_self]
  rfl

theorem nulTerminated_of_isInline (h : b.WellFormed) (hi : b.isInline = true) :
    b.NulTerminated := by
  obtain ⟨rest, hstore, -⟩ := h.inline_split hi
  have hend : (toList b.store)[(toList b.content).length]? = some 0 :=
    Holds.getElem? ⟨rest, hstore⟩
  rwa [h.length_content] at hend

theorem Holds.nulTerminated (h : b.Holds m) (hw : b.WellFormed)
    (hl : b.isInline = false → b.length = m.length) : b.NulTerminated := by
  by_cases hi : b.isInline = true
  · exact nulTerminated_of_isInline hw hi
  · have hend := h.getElem?
    rwa [← hl (by simpa using hi)] at hend

theorem NulTerminated.holds (h : b.NulTerminated) (hw : b.WellFormed) :
    b.Holds (toList b.content) := by
  obtain ⟨rest, hstore, hrest, -⟩ := hw.split
  rw [NulTerminated, hstore, ← hw.length_content, List.getElem?_append_right (Nat.le_refl _),
    Nat.sub_self] at h
  cases rest with
  | nil => cases h
  | cons c rest =>
    obtain rfl : c = 0 := Option.some.inj h
    exact ⟨rest, hstore⟩

end Ended

section Edits

variable {b : Buffer} (h : b.WellFormed)
include h

theorem nulTerminated_placed {w : ByteArray} (hw : w.size ≤ b.room) :
    (b.placed w).NulTerminated := by
  apply Holds.nulTerminated (store_placed h) (wellFormed_placed h hw)
  intro hi
  rw [placed, isInline_setLength] at hi
  rw [placed, length_setLength hi, List.length_append, h.length_content, length_toList]

theorem nulTerminated_terminated : b.terminated.NulTerminated := by
  have hshape := sameShape_terminated h
  have hholds : b.terminated.Holds (toList b.content) := by
    obtain ⟨rest, hstore⟩ := store_terminated h
    exact ⟨rest, by rw [hstore, List.append_assoc]; rfl⟩
  apply hholds.nulTerminated (wellFormed_terminated h)
  intro _
  rw [← (wellFormed_terminated h).length_content, content_terminated h]

/-- Also where a pass writes a NUL that was not measured, its bytes and the terminator are in
the store. -/
theorem nulTerminated_filled {p : Pass} {n : Nat} (hn : n < b.room)
    (hp : (b.windowAfter p n).2 = true) : (b.filled p n).NulTerminated := by
  apply Holds.nulTerminated (store_filled_of_complete h hp) (wellFormed_filled h hn)
  intro hi
  rw [filled, hp, if_pos rfl] at hi ⊢
  simp only [isInline_setLength] at hi
  simp only
  rw [length_setLength hi, stop_of_complete h hp]

end Edits

section Step

variable {cfg : Config} {s : State}

theorem append_terminates (h : s.buffer.WellFormed) {w : ByteArray} (hw : w.size ≠ 0) :
    Ends s (fun _ t => t.buffer.NulTerminated) (append cfg w s) := by
  apply (append_ends h hw).mono
  rintro _ t ⟨-, e, he, hr, -, rfl⟩
  exact nulTerminated_placed (he.wellFormed h) hr

theorem appendTexts_terminates (h : s.buffer.Sound) (xs : List String) :
    Granted False (fun _ t => s.buffer.NulTerminated ∨ bytesOf xs ≠ [] →
      t.buffer.NulTerminated) (appendTexts cfg xs s) := by
  -- on the texts; the last one that has bytes decides
  induction xs generalizing s with
  | nil => exact fun ht => ht.resolve_right fun hne => hne rfl
  | cons x xs ih =>
    by_cases hx : x.toUTF8.size = 0
    · rw [appendTexts, appendText, Action.bind_ok (append_empty hx), bytesOf_cons,
        toList_nil_iff.mpr hx, List.nil_append]
      exact ih h
    · have hone : Granted False (fun _ t => t.buffer.NulTerminated) (append cfg x.toUTF8 s) :=
        (append_terminates h.wellFormed hx).granted
      apply (hone.and_safe (append_safe h _)).bind
      rintro _ t ⟨ht, hsound⟩
      apply (ih hsound).mono
      intro _ u hu _
      exact hu (.inl ht)

theorem print_terminates (h : s.buffer.Sound) (f : Formatted) :
    Ends s (fun n t => n.isSome → t.buffer.NulTerminated ∧
      t.buffer.Holds (toList s.buffer.content ++ bytesOf f.written.writes)) (print cfg f s) := by
  apply (print_ends h f).mono
  rintro n t (⟨-, rfl, -⟩ | ⟨-, e, he, hr, -, rfl, rfl⟩) hsome
  · cases hsome
  · have hw := he.wellFormed h.wellFormed
    by_cases hp : (e.buffer.windowAfter f.written (bytesOf f.measured.writes).length).2 = true
    · refine ⟨nulTerminated_filled hw hr hp, ?_⟩
      rw [← he.content h.wellFormed]
      exact store_filled_of_complete hw hp
    · rw [if_neg hp] at hsome
      cases hsome

theorem rewind_terminates (h : s.buffer.WellFormed) :
    Ends s (fun shown t => shown = s.buffer.content ∧ t.buffer.length = 0 ∧
      ∃ rest, toList t.buffer.store =
        (if t.buffer.isInline then [0] else []) ++ toList s.buffer.content ++ 0 :: rest)
      (rewind cfg s) := by
  apply (rewind_ends h).mono
  rintro _ t ⟨rfl, e, he, hr, rfl⟩
  have hw := he.wellFormed h
  obtain ⟨rest, hstore⟩ := store_restarted hw hr
  refine ⟨rfl, ?_, rest, ?_⟩
  · rw [← (wellFormed_restarted hw hr).length_content, content_restarted hw hr]
    rfl
  · rw [(sameShape_restarted hw hr).isInline, ← he.content h, hstore]
    simp

end Step

theorem Granted.terminated {s : State} {α : Type} {x : Work α} {w : List UInt8}
    (h : Granted False (fun _ t => t.buffer.NulTerminated) (x s))
    (hc : Granted False (fun _ t => toList t.buffer.content = toList s.buffer.content ++ w) (x s))
    (hs : Safe (x s)) :
    Granted False (fun _ t => t.buffer.NulTerminated ∧
      t.buffer.Holds (toList s.buffer.content ++ w)) (x s) := by
  apply ((h.and hc).and_safe hs).mono
  rintro _ t ⟨⟨hend, hcontent⟩, hsound⟩
  exact ⟨hend, hcontent ▸ hend.holds hsound.wellFormed⟩

section Terminated

variable {cfg : Config} {s : State} (h : s.buffer.Sound)
include h

theorem append_terminated {w : ByteArray} (hw : w.size ≠ 0) :
    Granted False (fun _ t => t.buffer.NulTerminated ∧
      t.buffer.Holds (toList s.buffer.content ++ toList w)) (append cfg w s) :=
  (append_terminates h.wellFormed hw).granted.terminated
    ((append_content h.wellFormed w).mono fun _ _ hd => hd.2).granted (append_safe h w)

theorem stream_terminated {p : Pass} (hp : bytesOf p.writes ≠ []) :
    Granted False (fun _ t => t.buffer.NulTerminated ∧
      t.buffer.Holds (toList s.buffer.content ++ bytesOf p.writes)) (stream cfg p s) := by
  have hend : Granted False (fun _ t => t.buffer.NulTerminated) (appendTexts cfg p.writes s) :=
    (appendTexts_terminates h p.writes).mono fun _ _ hd => hd (.inr hp)
  have hall := hend.terminated (appendTexts_content h p.writes) (appendTexts_safe h p.writes)
  exact hall.bind fun _ _ hd => hd

theorem terminate_terminated :
    Granted False (fun _ t => t.buffer.NulTerminated ∧
      t.buffer.Holds (toList s.buffer.content)) (terminate s) := by
  have hw := h.wellFormed
  have hend := nulTerminated_terminated hw
  have hholds := hend.holds (wellFormed_terminated hw)
  rw [content_terminated hw] at hholds
  rw [terminate_run hw]
  exact ⟨hend, hholds⟩

end Terminated

/-- The operations that terminate the content, with the bytes that they put behind it. -/
inductive Op.Terminates : Op → List UInt8 → Prop
  | append {w : ByteArray} (hw : w.size ≠ 0) : Terminates (.append w) (toList w)
  | appendText {x : String} (hx : x.toUTF8.size ≠ 0) :
    Terminates (.appendText x) (toList x.toUTF8)
  | stream {p : Pass} (hp : bytesOf p.writes ≠ []) : Terminates (.stream p) (bytesOf p.writes)
  | print (f : Formatted) : Terminates (.print f) (bytesOf f.written.writes)
  | terminate : Terminates .terminate []

theorem Op.Terminates.run_granted {cfg : Config} {s : State} (h : s.buffer.Sound) {op : Op}
    {w : List UInt8} (hop : op.Terminates w) :
    Granted False (fun a t => a ≠ .printed none → t.buffer.NulTerminated ∧
      t.buffer.Holds (toList s.buffer.content ++ w)) (op.run cfg s) := by
  cases hop with
  | append hw => exact (append_terminated h hw).bind fun _ _ hd _ => hd
  | appendText hx => exact (append_terminated h hx).bind fun _ _ hd _ => hd
  | stream hp => exact (stream_terminated h hp).bind fun _ _ hd _ => hd
  | print f =>
    apply (print_terminates h f).granted.bind
    rintro (_ | n) t hd hne
    · exact absurd rfl hne
    · exact hd rfl
  | terminate =>
    rw [List.append_nil]
    exact (terminate_terminated h).bind fun _ _ hd _ => hd

theorem Op.run_ne_outOfRange {cfg : Config} {s t : State} (h : s.buffer.Sound) (op : Op) :
    op.run cfg s ≠ .error (.faulted .outOfRange) t := by
  intro hrun
  by_cases hcommit : ∀ n, op = .commit n → n ≤ s.buffer.room
  · have hsafe : Safe (op.run cfg s) := run_safe h hcommit
    rw [hrun] at hsafe
    cases hsafe
  · push Not at hcommit
    obtain ⟨n, rfl, hn⟩ := hcommit
    rw [run_commit_excess h hn] at hrun
    cases hrun

/-- Of every reachable buffer: an append of at least one byte, a print that succeeds and a
termination leave a NUL in the store where the content ends, behind all that was there and all
that was added. Starting over shows the whole content, leaves the buffer empty and a NUL in the
store behind what is shown. None of them writes outside of the store. -/
theorem reachable_terminated {b : Buffer} (h : Reachable b) (cfg : Config) (l : Ledger) :
    (∀ (op : Op) (w : List UInt8) a t, op.Terminates w → op.run cfg ⟨b, l⟩ = .ok a t →
      a ≠ .printed none → t.buffer.NulTerminated ∧ t.buffer.Holds (toList b.content ++ w)) ∧
    (∀ a t, Op.rewind.run cfg ⟨b, l⟩ = .ok a t → a = .bytes b.content ∧ t.buffer.length = 0 ∧
      ∃ rest, toList t.buffer.store =
        (if t.buffer.isInline then [0] else []) ++ toList b.content ++ 0 :: rest) ∧
    ∀ (op : Op) t, op.run cfg ⟨b, l⟩ ≠ .error (.faulted .outOfRange) t := by
  refine ⟨fun op w a t hop hrun => ?_, fun a t hrun => ?_, fun op t => op.run_ne_outOfRange h.sound⟩
  · have hgranted : Granted False _ (op.run cfg ⟨b, l⟩) := hop.run_granted h.sound
    rw [hrun] at hgranted
    exact hgranted
  · have hends : Ends ⟨b, l⟩ _ (rewind cfg ⟨b, l⟩) := rewind_terminates h.sound.wellFormed
    have hgranted : Granted False (fun a t => a = .bytes b.content ∧ t.buffer.length = 0 ∧
        ∃ rest, toList t.buffer.store =
          (if t.buffer.isInline then [0] else []) ++ toList b.content ++ 0 :: rest)
        (Op.rewind.run cfg ⟨b, l⟩) :=
      hends.granted.bind fun _ _ hd => ⟨congrArg Answer.bytes hd.1, hd.2⟩
    rw [hrun] at hgranted
    exact hgranted

/-- Lent memory that is full with two bytes, one of which is popped: the terminator takes the
place of the byte that was left behind. Starting over in the full store finds its own place. -/
theorem reachable_terminated_popped :
    let full := ((Op.append ⟨#[97, 98]⟩).after {} ⟨⟨.lent 0, ⟨#[0, 7, 7]⟩⟩, {}⟩).buffer
    let popped := (Op.pop.after {} ⟨full, {}⟩).buffer
    (popped.store = ⟨#[97, 98, 0]⟩ ∧ popped.terminated.store = ⟨#[97, 0, 0]⟩ ∧
      popped.terminated.NulTerminated ∧ popped.terminated.Holds [97]) ∧
      ∃ rest, toList full.restarted.store = [97, 98] ++ 0 :: rest := by
  intro full popped
  have hfull : Reachable full :=
    .step (.fresh (.lent ⟨#[7, 7, 7]⟩ (by decide) rfl)) {} {} (.append ⟨#[97, 98]⟩)
  have hpopped : Reachable popped := hfull.step {} {} .pop
  have hterminate : Op.terminate.run {} ⟨popped, {}⟩ =
      .ok (.bytes popped.shown) ⟨popped.terminated, {}⟩ :=
    Action.bind_ok (terminate_run hpopped.sound.wellFormed)
  have hrewind : Op.rewind.run {} ⟨full, {}⟩ = .ok (.bytes full.content) ⟨full.restarted, {}⟩ :=
    Action.bind_ok (rewind_in_place hfull.sound.wellFormed (by decide +kernel))
  have hend := (reachable_terminated hpopped {} {}).1 .terminate [] _ _ .terminate hterminate
    Answer.noConfusion
  have hstart := ((reachable_terminated hfull {} {}).2.1 _ _ hrewind).2.2
  have hcontent : toList popped.content ++ [] = [97] := by decide +kernel
  have hshown : toList full.content = [97, 98] := by decide +kernel
  have houtside : full.restarted.isInline = false := by decide +kernel
  rw [hcontent] at hend
  rw [hshown, houtside] at hstart
  exact ⟨⟨by decide +kernel, by decide +kernel, hend⟩, hstart⟩

end GrowBuffer.Buffer
