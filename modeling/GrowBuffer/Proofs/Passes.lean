import GrowBuffer.Proofs.Requests

/-! # Prints whose passes differ

Nothing forces the writing pass of a print to bring what the measuring pass has announced. The
window keeps it from bringing more; what it brings less is no trouble. A NUL that was not
announced finds an inline buffer where it is, and cuts the text there. A pass that fails leaves
the content, as whatever it has written stands behind a terminator.
-/

namespace GrowBuffer.Buffer
open Bytes Format Memory

/-- The writing pass brings a NUL into an inline store that the measured text did not leave. -/
def Cuts (b : Buffer) (measured written : List UInt8) : Prop :=
  b.isInline = true ∧ ¬ b.Outgrows measured ∧ 0 ∈ written

instance (b : Buffer) (measured written : List UInt8) : Decidable (b.Cuts measured written) :=
  inferInstanceAs (Decidable (_ ∧ _))

section Filled

variable {b : Buffer} {p : Pass} {n : Nat} (h : b.WellFormed)
include h

theorem content_filled (hp : (b.windowAfter p n).2 = true) :
    toList (b.filled p n).content = toList b.content ++
      if b.isInline then (bytesOf p.writes).takeWhile (· != 0) else bytesOf p.writes := by
  cases hi : b.isInline with
  | false =>
    have hnone : b.isInline = true → 0 ∉ bytesOf p.writes := by
      rw [hi]
      exact nofun
    exact content_filled_of_complete h hp hnone
  | true =>
    obtain ⟨rest, -, -, hfree⟩ := h.split
    obtain ⟨r, hstore⟩ := store_filled_of_complete h hp
    obtain ⟨q, hq⟩ := exists_append_nul_eq (bytesOf p.writes) r
    rw [List.append_assoc, hq, ← List.append_assoc] at hstore
    have hi' : (b.filled p n).isInline = true := by
      rw [filled, hp, if_pos rfl]
      simpa [windowWritten] using hi
    have hnul : 0 ∉ toList b.content ++ (bytesOf p.writes).takeWhile (· != 0) := by
      rw [List.mem_append, not_or]
      exact ⟨(hfree hi).1, nul_notMem_takeWhile _⟩
    exact content_of_split hstore (length_of_split hi' hstore hnul)

theorem fill_passes (hn : n < b.room) {answer : Option Nat}
    (ha : answer = if (b.windowAfter p n).2 then some (b.windowAfter p n).1.filled else none) :
    (answer = none ↔ p.givesUp = true ∨ n < (bytesOf p.writes).length) ∧
      (answer = none → toList (b.filled p n).content = toList b.content) ∧
      ∀ k, answer = some k → k = (bytesOf p.writes).length ∧
        toList (b.filled p n).content = toList b.content ++
          if b.isInline then (bytesOf p.writes).takeWhile (· != 0) else bytesOf p.writes := by
  have hcomplete := windowAfter_complete_iff (p := p) h hn
  cases hp : (b.windowAfter p n).2 with
  | true =>
    obtain ⟨hfits, hgives⟩ := hcomplete.mp hp
    have hsome : answer = some (bytesOf p.writes).length := by
      rw [ha, if_pos hp, (windowAfter_of_complete hp).2]
    refine ⟨?_, fun hnone => ?_, fun k hk => ⟨?_, content_filled h hp⟩⟩
    · rw [hsome, hgives]
      simpa using hfits
    · rw [hsome] at hnone
      cases hnone
    · exact (Option.some.inj (hsome.symm.trans hk)).symm
  | false =>
    have hnone : answer = none := by
      rw [ha, hp, if_neg Bool.false_ne_true]
    refine ⟨?_, fun _ => content_filled_of_incomplete h hp, fun k hk => ?_⟩
    · rw [hp] at hcomplete
      have hfails : ¬ ((bytesOf p.writes).length ≤ n ∧ p.givesUp = false) := by
        rw [← hcomplete]
        exact Bool.false_ne_true
      simp only [hnone, true_iff]
      by_contra hnot
      push Not at hnot
      exact hfails ⟨hnot.2, by simpa using hnot.1⟩
    · rw [hnone] at hk
      cases hk

end Filled

section Print

variable {cfg : Config} {s : State}

theorem not_outgrows_iff {b : Buffer} {w : List UInt8} :
    ¬ b.Outgrows w ↔ w.length < b.room ∧ (b.isInline = true → 0 ∉ w) := by
  rw [Outgrows, not_or, not_and, Nat.not_lt, Nat.succ_le_iff]

theorem print_fills (h : s.buffer.Sound) {f : Formatted} (hf : f.measured.givesUp = false) :
    Ends s (fun n t => ∃ e, Widened cfg s e ∧
      (bytesOf f.measured.writes).length < e.buffer.room ∧
      (e.buffer.isInline = true ↔
        s.buffer.isInline = true ∧ ¬ s.buffer.Outgrows (bytesOf f.measured.writes)) ∧
      n = (if (e.buffer.windowAfter f.written (bytesOf f.measured.writes).length).2 then
          some (e.buffer.windowAfter f.written (bytesOf f.measured.writes).length).1.filled
        else none) ∧
      t = { e with buffer := e.buffer.filled f.written (bytesOf f.measured.writes).length })
      (print cfg f s) := by
  by_cases hout : s.buffer.Outgrows (bytesOf f.measured.writes)
  · apply (print_ends h f).mono
    rintro n t (⟨hgiven, -, -⟩ | ⟨-, e, he, hr, hin, hn, ht⟩)
    · rw [hf] at hgiven
      cases hgiven
    · refine ⟨e, he, hr, ⟨fun hi => ?_, fun hi => absurd hout hi.2⟩, hn, ht⟩
      obtain rfl := he.eq_of_isInline hi
      exact absurd hout (not_outgrows_iff.mpr ⟨hr, hin⟩)
  · obtain ⟨hr, hin⟩ := not_outgrows_iff.mp hout
    rw [print_in_place h hf hr hin]
    exact .finished ⟨s, .refl, hr, by simp [hout], rfl, rfl⟩

theorem print_given_up {f : Formatted} (hf : f.measured.givesUp = true)
    (hp : ¬ Refused (print cfg f s)) : print cfg f s = .ok none s := by
  rcases f with ⟨⟨ws, _ | _⟩, p⟩
  · cases hf
  · rw [print] at hp ⊢
    rcases measure_run ⟨ws, true⟩ s with ⟨count, hm⟩ | ⟨-, hm⟩
    · exact absurd ⟨_, _, Action.bind_error hm⟩ hp
    · rw [Action.bind_ok hm]
      rfl

theorem print_passes (h : s.buffer.Sound) {f : Formatted} (hf : f.measured.givesUp = false) :
    Granted False (fun n t =>
      (n = none ↔ f.written.givesUp = true ∨
        (bytesOf f.measured.writes).length < (bytesOf f.written.writes).length) ∧
      (n = none → toList t.buffer.content = toList s.buffer.content) ∧
      (∀ k, n = some k → k = (bytesOf f.written.writes).length ∧
        toList t.buffer.content = toList s.buffer.content ++
          if s.buffer.Cuts (bytesOf f.measured.writes) (bytesOf f.written.writes) then
            (bytesOf f.written.writes).takeWhile (· != 0)
          else bytesOf f.written.writes) ∧
      Kept s.buffer t.buffer)
      (print cfg f s) := by
  apply (print_fills h hf).granted.mono
  rintro n t ⟨e, he, hr, hin, hn, rfl⟩
  have hw := he.wellFormed h.wellFormed
  obtain ⟨hnone, hfails, hsome⟩ := fill_passes hw hr hn
  rw [he.content h.wellFormed] at hfails hsome
  refine ⟨hnone, hfails, fun k hk => ?_, ?_⟩
  · obtain ⟨hlen, hcontent⟩ := hsome k hk
    refine ⟨hlen, hcontent.trans ?_⟩
    by_cases hz : 0 ∈ bytesOf f.written.writes
    · simp only [Cuts, hz, and_true, hin]
    · simp only [takeWhile_eq_self_of_notMem hz, ite_self]
  · exact (Worked.put he (sameShape_filled hw hr) (wellFormed_filled hw hr)).kept

end Print

/-- From any state that operations lead to, a print of which nothing is refused answers the length
of its writing pass exactly if that is no longer than the measured text. The buffer has its whole
text then, unless the pass cuts it at a NUL. -/
theorem reachable_print_differing {b : Buffer} (h : Reachable b) (cfg : Config) (l : Ledger)
    (ms ws : List String) (hp : ¬ Refused (print cfg ⟨⟨ms, false⟩, ⟨ws, false⟩⟩ ⟨b, l⟩)) :
    let m := bytesOf ms
    let w := bytesOf ws
    ∃ n t, print cfg ⟨⟨ms, false⟩, ⟨ws, false⟩⟩ ⟨b, l⟩ = .ok n t ∧
      (∀ k, n = some k ↔ w.length ≤ m.length ∧ k = w.length) ∧
      (w.length ≤ m.length → ¬ b.Cuts m w → toList t.buffer.content = toList b.content ++ w ∧
        t.buffer.length = b.length + w.length) ∧
      (w.length ≤ m.length → b.Cuts m w →
        toList t.buffer.content = toList b.content ++ w.takeWhile (· != 0) ∧
        t.buffer.length < b.length + w.length) := by
  intro m w
  obtain ⟨n, t, hrun, ⟨hnone, -, hsome, -⟩, ht⟩ :=
    ((print_passes (s := ⟨b, l⟩) h.sound rfl).and_safe (print_safe h.sound _)).answered hp
  have hanswer : ∀ k, n = some k ↔ w.length ≤ m.length ∧ k = w.length := by
    intro k
    constructor
    · intro hk
      refine ⟨?_, (hsome k hk).1⟩
      have hne : ¬ n = none := by simp [hk]
      rw [hnone, not_or, Nat.not_lt] at hne
      exact hne.2
    · rintro ⟨hle, rfl⟩
      have hne : n ≠ none := by
        rw [Ne, hnone]
        rintro (hgiven | hlt)
        · cases hgiven
        · exact Nat.not_lt.mpr hle hlt
      obtain ⟨k, rfl⟩ := Option.ne_none_iff_exists'.mp hne
      rw [(hsome k rfl).1]
  have hlength : t.buffer.length = (toList t.buffer.content).length :=
    ht.wellFormed.length_content.symm
  refine ⟨n, t, hrun, hanswer, fun hle hcuts => ?_, fun hle hcuts => ?_⟩
  · have hcontent := (hsome _ ((hanswer _).mpr ⟨hle, rfl⟩)).2
    rw [if_neg hcuts] at hcontent
    refine ⟨hcontent, ?_⟩
    rw [hlength, hcontent, List.length_append, h.sound.wellFormed.length_content]
  · have hcontent := (hsome _ ((hanswer _).mpr ⟨hle, rfl⟩)).2
    rw [if_pos hcuts] at hcontent
    refine ⟨hcontent, ?_⟩
    rw [hlength, hcontent, List.length_append, h.sound.wellFormed.length_content]
    exact Nat.add_lt_add_left (length_takeWhile_lt hcuts.2.2) _

theorem reachable_print_differing_nul :
    let lent : Buffer := ⟨.lent 0, ⟨#[0, 7, 7, 7]⟩⟩
    (∃ n t, print {} ⟨⟨["abc"], false⟩, ⟨["a", "\x00c"], false⟩⟩ ⟨{}, {}⟩ = .ok n t ∧
      n = some 3 ∧ toList t.buffer.content = [97] ∧ t.buffer.length < 3) ∧
    ∃ n t, print {} ⟨⟨["ab"], false⟩, ⟨["a", "\x00"], false⟩⟩ ⟨lent, {}⟩ = .ok n t ∧
      n = some 2 ∧ toList t.buffer.content = [97, 0] ∧ t.buffer.length = 2 := by
  intro lent
  have hlent : Reachable lent := .fresh (.lent ⟨#[7, 7, 7, 7]⟩ (by decide) rfl)
  constructor
  · obtain ⟨n, t, hrun, hanswer, -, hcut⟩ := reachable_print_differing (.fresh .new) {} {}
      ["abc"] ["a", "\x00c"] (by decide +kernel)
    have hcontent := hcut (by decide) (by decide +kernel)
    exact ⟨n, t, hrun, (hanswer 3).mpr (by decide), hcontent⟩
  · obtain ⟨n, t, hrun, hanswer, hwhole, -⟩ := reachable_print_differing hlent {} {}
      ["ab"] ["a", "\x00"] (by decide +kernel)
    have hcontent := hwhole (by decide) (by decide +kernel)
    exact ⟨n, t, hrun, (hanswer 2).mpr (by decide), hcontent⟩

/-- So a print does not always append the bytes that it answers to have written. -/
theorem print_answers_more :
    ¬ ∀ (cfg : Config) (b : Buffer), Reachable b → ∀ (l : Ledger) (ms ws : List String),
      ¬ Refused (print cfg ⟨⟨ms, false⟩, ⟨ws, false⟩⟩ ⟨b, l⟩) →
      ∃ n t, print cfg ⟨⟨ms, false⟩, ⟨ws, false⟩⟩ ⟨b, l⟩ = .ok n t ∧
        (∀ k, n = some k ↔
          (bytesOf ws).length ≤ (bytesOf ms).length ∧ k = (bytesOf ws).length) ∧
        ∀ k, n = some k → toList t.buffer.content = toList b.content ++ bytesOf ws ∧
          t.buffer.length = b.length + k := by
  intro hall
  obtain ⟨n, t, hrun, hanswer, hwhole⟩ :=
    hall {} {} (.fresh .new) {} ["abc"] ["a", "\x00c"] (by decide +kernel)
  have hlength := (hwhole 3 ((hanswer 3).mpr (by decide))).2
  have ht : t = stateOf (print {} ⟨⟨["abc"], false⟩, ⟨["a", "\x00c"], false⟩⟩ ⟨{}, {}⟩) := by
    rw [hrun]
    rfl
  rw [ht] at hlength
  exact absurd hlength (by decide +kernel)

/-- From any state that operations lead to, a print of which nothing is refused fails exactly if
one of its passes gives up or the second one is longer than the first. It leaves the content then,
in the same place or on the heap, and any operations go on from there. When the measuring pass has
given up it leaves everything. -/
theorem reachable_print_failed {b : Buffer} (h : Reachable b) (cfg : Config) (l : Ledger)
    (f : Formatted) (hp : ¬ Refused (print cfg f ⟨b, l⟩)) :
    ∃ n t, print cfg f ⟨b, l⟩ = .ok n t ∧
      (n = none ↔ f.measured.givesUp = true ∨ f.written.givesUp = true ∨
        (bytesOf f.measured.writes).length < (bytesOf f.written.writes).length) ∧
      (f.measured.givesUp = true → t = ⟨b, l⟩) ∧
      (n = none → t.buffer.content = b.content ∧ t.buffer.length = b.length ∧ Kept b t.buffer ∧
        ∀ cfg' os, Follows cfg' os t (toList b.content)) := by
  cases hm : f.measured.givesUp with
  | true =>
    refine ⟨none, ⟨b, l⟩, print_given_up hm hp, by simp, fun _ => rfl, fun _ => ?_⟩
    exact ⟨rfl, rfl, .inr (.refl b), fun cfg' os => Sound.follows (s := ⟨b, l⟩) h.sound os⟩
  | false =>
    obtain ⟨n, t, hrun, ⟨hnone, hfails, -, hkept⟩, ht⟩ :=
      ((print_passes (s := ⟨b, l⟩) h.sound hm).and_safe (print_safe h.sound f)).answered hp
    refine ⟨n, t, hrun, by simpa using hnone, by simp, fun hn => ?_⟩
    have hcontent := hfails hn
    refine ⟨ext_toList hcontent, ?_, hkept, fun cfg' os => hcontent ▸ ht.follows os⟩
    rw [← ht.wellFormed.length_content, hcontent, h.sound.wellFormed.length_content]

theorem reachable_print_failed_longer :
    let b := ((Op.append ⟨#[97]⟩).after {} ⟨⟨.lent 0, ⟨#[0, 7, 7]⟩⟩, {}⟩).buffer
    let f : Formatted := ⟨⟨["bc"], false⟩, ⟨["b", "cd"], false⟩⟩
    ∃ n t, print ⟨8, none⟩ f ⟨b, {}⟩ = .ok n t ∧ n = none ∧ t.buffer.content = ⟨#[97]⟩ ∧
      t.buffer.location = .heap ∧ Follows ⟨8, none⟩ [.append ⟨#[98]⟩] t [97] := by
  intro b f
  have hb : Reachable b :=
    .step (.fresh (.lent ⟨#[7, 7, 7]⟩ (by decide) rfl)) {} {} (.append ⟨#[97]⟩)
  obtain ⟨n, t, hrun, hfails, -, hrest⟩ :=
    reachable_print_failed hb ⟨8, none⟩ {} f (by decide +kernel)
  have hn : n = none := hfails.mpr (.inr (.inr (by decide)))
  obtain ⟨hcontent, -, -, hfollows⟩ := hrest hn
  have hbytes : b.content = ⟨#[97]⟩ := by decide +kernel
  have ht : t = stateOf (print ⟨8, none⟩ f ⟨b, {}⟩) := by
    rw [hrun]
    rfl
  refine ⟨n, t, hrun, hn, hcontent.trans hbytes, ?_, ?_⟩
  · rw [ht]
    decide +kernel
  · have hgoes := hfollows ⟨8, none⟩ [.append ⟨#[98]⟩]
    rwa [hbytes] at hgoes

end GrowBuffer.Buffer
