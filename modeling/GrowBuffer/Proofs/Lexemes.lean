import GrowBuffer.Json.Text
import GrowBuffer.Proofs.Numerals

/-! # Lexemes with blanks between them

A JSON text is a row of lexemes, and blanks may stand in front of each of them and behind the
last. A reader that skips blanks finds the next lexeme where they end, and leaves a text of the
same kind behind it.
-/

namespace GrowBuffer.Json

/-- A text of these lexemes, with blanks in front of each and behind the last. -/
inductive Spaced : List String → Source → Prop
  | nil : Spaced [] []
  | blank (c : Char) (hc : isBlank c = true) {ls : List String} {s : Source} (h : Spaced ls s) :
      Spaced ls (c :: s)
  | lexeme (l : String) {ls : List String} {s : Source} (h : Spaced ls s) :
      Spaced (l :: ls) (l.toList ++ s)

theorem spaced_join (ls : List String) : Spaced ls (String.join ls).toList := by
  induction ls with
  | nil => exact .nil
  | cons l ls ih =>
    rw [String.join_cons, String.toList_append]
    exact .lexeme l ih

/-- The comma in front of what is not the first. -/
def comma (first : Bool) : List String := if first then [] else [","]

theorem skipBlank_blank {c : Char} (hc : isBlank c = true) (s : Source) :
    skipBlank (c :: s) = skipBlank s :=
  List.dropWhile_cons_of_pos hc

theorem skipBlank_cons {c : Char} (hc : isBlank c = false) (s : Source) :
    skipBlank (c :: s) = c :: s :=
  List.dropWhile_cons_of_neg (Bool.eq_false_iff.mp hc)

theorem isBlank_of_isDigit {c : Char} (h : c.isDigit = true) : isBlank c = false := by
  by_contra hb
  simp only [isBlank, Bool.not_eq_false, Bool.or_eq_true, beq_iff_eq] at hb
  rcases hb with ((rfl | rfl) | rfl) | rfl <;> cases h

theorem not_continuesNumeral_of_isBlank {c : Char} (h : isBlank c = true) :
    continuesNumeral c = false := by
  simp only [isBlank, Bool.or_eq_true, beq_iff_eq] at h
  rcases h with ((rfl | rfl) | rfl) | rfl <;> rfl

theorem toList_toString (n : Nat) : (toString n).toList = Nat.toDigits 10 n := by
  rw [Nat.toString_eq_repr, Nat.toList_repr]

namespace Spaced

variable {l : String} {ls : List String} {c : Char} {cs s : List Char}

theorem skipBlank (h : Spaced (l :: ls) s) (hl : l.toList = c :: cs) (hc : isBlank c = false) :
    ∃ rest, Json.skipBlank s = c :: (cs ++ rest) ∧ Spaced ls rest := by
  -- on the text, blank by blank; the row of lexemes stays as it is until the first is met
  generalize hall : l :: ls = all at h
  induction h with
  | nil => cases hall
  | blank c hb h ih =>
    rw [skipBlank_blank hb]
    exact ih hall
  | lexeme l' h =>
    cases hall
    rw [hl, List.cons_append, skipBlank_cons hc]
    exact ⟨_, rfl, h⟩

theorem skipBlank_mark (h : Spaced (l :: ls) s) (hl : l.toList = [c]) (hc : isBlank c = false) :
    ∃ rest, Json.skipBlank s = c :: rest ∧ Spaced ls rest :=
  h.skipBlank hl hc

theorem skipBlank_nil (h : Spaced [] s) : Json.skipBlank s = [] := by
  generalize hall : [] = all at h
  induction h with
  | nil => rfl
  | blank c hb h ih =>
    rw [skipBlank_blank hb]
    exact ih hall
  | lexeme l h => cases hall

theorem head? (h : Spaced (l :: ls) s) (hl : l.toList = c :: cs) :
    ∀ d ∈ s.head?, isBlank d = true ∨ d = c := by
  intro d hd
  cases h with
  | blank d hb h =>
    cases hd
    exact .inl hb
  | lexeme l h =>
    rw [hl] at hd
    cases hd
    exact .inr rfl

/-- A numeral in front ends where the blanks begin, or else at the lexeme. -/
theorem endsNumeral (h : Spaced (l :: ls) s) (hl : l.toList = c :: cs)
    (hc : continuesNumeral c = false) : EndsNumeral s := by
  intro d hd
  rcases h.head? hl d hd with hb | rfl
  · exact not_continuesNumeral_of_isBlank hb
  · exact hc

theorem skipBlank_toString {n : Nat} (h : Spaced (toString n :: ls) s) :
    ∃ rest, Json.skipBlank s = Nat.toDigits 10 n ++ rest ∧ Spaced ls rest := by
  obtain ⟨d, ds, hds, hd⟩ := toDigits_eq_cons n
  rw [hds]
  exact h.skipBlank ((toList_toString n).trans hds) (isBlank_of_isDigit hd)

theorem colon (h : Spaced (":" :: ls) s) : ∃ rest, Json.colon s = .ok rest ∧ Spaced ls rest := by
  obtain ⟨rest, hs, hrest⟩ := h.skipBlank_mark (c := ':') rfl rfl
  refine ⟨rest, ?_, hrest⟩
  simp [Json.colon, hs]

end Spaced

/-- No text of these lexemes goes on with a numeral in front of it. -/
def Closes (ls : List String) : Prop := ∀ s, Spaced ls s → EndsNumeral s

theorem closes_mark {l : String} {ls : List String} {c : Char} {cs : List Char}
    (hl : l.toList = c :: cs) (hc : continuesNumeral c = false) : Closes (l :: ls) :=
  fun _ h => h.endsNumeral hl hc

/-- Whether a character stands for itself in a text. -/
def isPlain (c : Char) : Bool := c != '"' && c != '\\' && !decide (c < ' ')

theorem isPlain_iff {c : Char} : isPlain c = true ↔ c ≠ '"' ∧ c ≠ '\\' ∧ ¬ c < ' ' := by
  simp [isPlain, and_assoc]

theorem text_cons_plain {c : Char} (h : isPlain c = true) (s : Source) :
    text (c :: s) = (text s).map fun (cs, rest) => (c :: cs, rest) := by
  obtain ⟨hquote, hbackslash, hvisible⟩ := isPlain_iff.mp h
  rw [text, if_neg hvisible]
  · exact hquote
  · exact hbackslash

theorem text_plain {cs : List Char} (h : cs.all isPlain = true) (rest : Source) :
    text (cs ++ '"' :: rest) = .ok (cs, rest) := by
  induction cs with
  | nil => rw [List.nil_append, text]
  | cons c cs ih =>
    rw [List.all_cons, Bool.and_eq_true] at h
    rw [List.cons_append, text_cons_plain h.1, ih h.2]
    rfl

end GrowBuffer.Json
