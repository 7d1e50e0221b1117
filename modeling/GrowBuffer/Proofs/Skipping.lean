import GrowBuffer.Proofs.Grammar

/-! # One value is skipped

The skipper passes over exactly one value, whatever it is and however deep it nests, and goes on
with what is open around it. That is an induction on the value: behind its last lexeme the text is
one of the lexemes that follow.
-/

namespace GrowBuffer.Json

variable {s t rest : Source} {ls : List String} {around : List Bracket} {c : Char}

section Steps

theorem skipFrom_list_end (hs : skipBlank s = '[' :: t) (ht : skipBlank t = ']' :: rest) :
    skipFrom s around = skipOut rest around := by
  rw [skipFrom]
  grind

theorem skipFrom_list {cs : Source} (hs : skipBlank s = '[' :: t) (ht : skipBlank t = c :: cs)
    (hc : c ≠ ']') : skipFrom s around = skipFrom t (.list :: around) := by
  rw [skipFrom]
  grind

theorem skipFrom_object_end (hs : skipBlank s = '\x7b' :: t) (ht : skipBlank t = '\x7d' :: rest) :
    skipFrom s around = skipOut rest around := by
  rw [skipFrom]
  grind

theorem skipFrom_object {cs : Source} (hs : skipBlank s = '\x7b' :: t)
    (ht : skipBlank t = c :: cs) (hc : c ≠ '\x7d') (hk : skipKey t = .ok rest) :
    skipFrom s around = skipFrom rest (.object :: around) := by
  rw [skipFrom]
  grind

theorem skipFrom_scalar (h : skipScalar (skipBlank s) = .ok rest) :
    skipFrom s around = skipOut rest around := by
  rw [skipFrom]
  -- a bracket is no scalar
  split
  · next hs =>
    rw [hs] at h
    cases h
  · next hs =>
    rw [hs] at h
    cases h
  · next hs =>
    rw [hs] at h
    cases h
  · grind

theorem skipOut_nil : skipOut s [] = .ok s := by
  rw [skipOut]

theorem skipValue_scalar (h : skipScalar (skipBlank s) = .ok rest) : skipValue s = .ok rest :=
  (skipFrom_scalar h).trans skipOut_nil

theorem skipOut_list_next (hs : skipBlank s = ',' :: rest) :
    skipOut s (.list :: around) = skipFrom rest (.list :: around) := by
  rw [skipOut]
  grind

theorem skipOut_list_end (hs : skipBlank s = ']' :: rest) :
    skipOut s (.list :: around) = skipOut rest around := by
  rw [skipOut]
  grind

theorem skipOut_object_next (hs : skipBlank s = ',' :: t) (hk : skipKey t = .ok rest) :
    skipOut s (.object :: around) = skipFrom rest (.object :: around) := by
  rw [skipOut]
  grind

theorem skipOut_object_end (hs : skipBlank s = '\x7d' :: rest) :
    skipOut s (.object :: around) = skipOut rest around := by
  rw [skipOut]
  grind

end Steps

theorem skipScalar_of_startsNumber (h : startsNumber s = true) :
    skipScalar s = (numeral .badNumber s).map (·.2) := by
  unfold skipScalar
  -- words and texts begin otherwise
  split
  · cases h
  · cases h
  · cases h
  · cases h
  · cases h
  · rw [if_pos h]

theorem skipScalar_figure (f : Figure) (h : EndsNumeral rest) :
    skipScalar (f.chars ++ rest) = .ok rest := by
  rw [skipScalar_of_startsNumber (f.startsNumber_chars rest), f.read h]
  rfl

theorem skipKey_spaced {key : List Glyph} (h : Spaced (textLexeme key :: ":" :: ls) s) :
    ∃ rest, skipKey s = .ok rest ∧ Spaced ls rest := by
  obtain ⟨t, hs, ht⟩ := h.skipBlank (toList_textLexeme key) rfl
  obtain ⟨rest, hcolon, hrest⟩ := ht.colon
  refine ⟨rest, ?_, hrest⟩
  simp only [skipKey, hs, skipText_glyphChars, hcolon]

theorem closes_elementLexemes (vs : List Value) : Closes (elementLexemes false vs ++ ls) := by
  cases vs with
  | nil => exact closes_mark (c := ']') rfl rfl
  | cons v vs => exact closes_mark (l := ",") (c := ',') rfl rfl

theorem closes_memberLexemes (ms : List (List Glyph × Value)) :
    Closes (memberLexemes false ms ++ ls) := by
  cases ms with
  | nil => exact closes_mark (c := '\x7d') rfl rfl
  | cons m ms => exact closes_mark (l := ",") (c := ',') rfl rfl

theorem skipFrom_lexeme {l : String} {cs : List Char} (h : Spaced (l :: ls) s)
    (hl : l.toList = c :: cs) (hb : isBlank c = false)
    (hskip : ∀ rest, Spaced ls rest → skipScalar (c :: (cs ++ rest)) = .ok rest) :
    ∃ rest, skipFrom s around = skipOut rest around ∧ Spaced ls rest := by
  obtain ⟨rest, hs, hrest⟩ := h.skipBlank hl hb
  refine ⟨rest, skipFrom_scalar ?_, hrest⟩
  rw [hs]
  exact hskip rest hrest

mutual

/-- By induction on the value. What the text is behind a value of a list or an object is what the
skipper goes on with there. -/
theorem skipFrom_value (v : Value) {ls : List String} {s : Source} (hls : Closes ls)
    (h : Spaced (v.lexemes ++ ls) s) (around : List Bracket) :
    ∃ rest, skipFrom s around = skipOut rest around ∧ Spaced ls rest := by
  match v with
  | .null =>
    exact skipFrom_lexeme (l := "null") h rfl rfl fun _ _ => rfl
  | .boolean true =>
    exact skipFrom_lexeme (l := "true") h rfl rfl fun _ _ => rfl
  | .boolean false =>
    exact skipFrom_lexeme (l := "false") h rfl rfl fun _ _ => rfl
  | .number f =>
    obtain ⟨c, cs, hcs, hc⟩ := f.chars_eq_cons
    refine skipFrom_lexeme h (String.toList_ofList.trans hcs) (isBlank_of_startsNumber hc)
      fun rest hrest => ?_
    have hskip := skipScalar_figure f (hls rest hrest)
    rwa [hcs] at hskip
  | .text gs =>
    exact skipFrom_lexeme h (toList_textLexeme gs) rfl fun _ _ => skipText_glyphChars gs _
  | .list [] =>
    obtain ⟨t, hs, ht⟩ := Spaced.skipBlank_mark (l := "[") (c := '[') h rfl rfl
    obtain ⟨rest, ht', hrest⟩ := Spaced.skipBlank_mark (l := "]") (c := ']') ht rfl rfl
    exact ⟨rest, skipFrom_list_end hs ht', hrest⟩
  | .list (v :: vs) =>
    obtain ⟨t, hs, ht⟩ := Spaced.skipBlank_mark (l := "[") (c := '[') h rfl rfl
    replace ht : Spaced (elementLexemes true (v :: vs) ++ ls) t := ht
    rw [elementLexemes_cons_append] at ht
    -- the first value is told from the end of the list by its first character
    obtain ⟨l, ls', c, cs, hl, hc, hb, hne⟩ := v.lexemes_eq_cons
    obtain ⟨t', ht', -⟩ := Spaced.skipBlank (l := l) (hl ▸ ht) hc hb
    obtain ⟨u, hv, hu⟩ := skipFrom_value v (closes_elementLexemes vs) ht (.list :: around)
    obtain ⟨rest, hvs, hrest⟩ := skipOut_elements vs hu around
    exact ⟨rest, (skipFrom_list hs ht' hne).trans (hv.trans hvs), hrest⟩
  | .object [] =>
    obtain ⟨t, hs, ht⟩ := Spaced.skipBlank_mark (l := "\x7b") (c := '\x7b') h rfl rfl
    obtain ⟨rest, ht', hrest⟩ := Spaced.skipBlank_mark (l := "\x7d") (c := '\x7d') ht rfl rfl
    exact ⟨rest, skipFrom_object_end hs ht', hrest⟩
  | .object ((key, v) :: ms) =>
    obtain ⟨t, hs, ht⟩ := Spaced.skipBlank_mark (l := "\x7b") (c := '\x7b') h rfl rfl
    replace ht : Spaced (memberLexemes true ((key, v) :: ms) ++ ls) t := ht
    rw [memberLexemes_cons_append] at ht
    obtain ⟨t', ht', -⟩ := Spaced.skipBlank (c := '"') ht (toList_textLexeme key) rfl
    obtain ⟨w, hk, hw⟩ := skipKey_spaced ht
    obtain ⟨u, hv, hu⟩ := skipFrom_value v (closes_memberLexemes ms) hw (.object :: around)
    obtain ⟨rest, hms, hrest⟩ := skipOut_members ms hu around
    exact ⟨rest, (skipFrom_object hs ht' (by decide) hk).trans (hv.trans hms), hrest⟩

theorem skipOut_elements (vs : List Value) {ls : List String} {s : Source}
    (h : Spaced (elementLexemes false vs ++ ls) s) (around : List Bracket) :
    ∃ rest, skipOut s (.list :: around) = skipOut rest around ∧ Spaced ls rest := by
  match vs with
  | [] =>
    obtain ⟨rest, hs, hrest⟩ := h.skipBlank_mark (c := ']') rfl rfl
    exact ⟨rest, skipOut_list_end hs, hrest⟩
  | v :: vs =>
    rw [elementLexemes_cons_append] at h
    obtain ⟨t, hs, ht⟩ := Spaced.skipBlank_mark (l := ",") (c := ',') h rfl rfl
    obtain ⟨u, hv, hu⟩ := skipFrom_value v (closes_elementLexemes vs) ht (.list :: around)
    obtain ⟨rest, hvs, hrest⟩ := skipOut_elements vs hu around
    exact ⟨rest, (skipOut_list_next hs).trans (hv.trans hvs), hrest⟩

theorem skipOut_members (ms : List (List Glyph × Value)) {ls : List String} {s : Source}
    (h : Spaced (memberLexemes false ms ++ ls) s) (around : List Bracket) :
    ∃ rest, skipOut s (.object :: around) = skipOut rest around ∧ Spaced ls rest := by
  match ms with
  | [] =>
    obtain ⟨rest, hs, hrest⟩ := h.skipBlank_mark (c := '\x7d') rfl rfl
    exact ⟨rest, skipOut_object_end hs, hrest⟩
  | (key, v) :: ms =>
    rw [memberLexemes_cons_append] at h
    obtain ⟨t, hs, ht⟩ := Spaced.skipBlank_mark (l := ",") (c := ',') h rfl rfl
    obtain ⟨w, hk, hw⟩ := skipKey_spaced ht
    obtain ⟨u, hv, hu⟩ := skipFrom_value v (closes_memberLexemes ms) hw (.object :: around)
    obtain ⟨rest, hms, hrest⟩ := skipOut_members ms hu around
    exact ⟨rest, (skipOut_object_next hs hk).trans (hv.trans hms), hrest⟩

end

theorem skipValue_spaced (v : Value) (hls : Closes ls) (h : Spaced (v.lexemes ++ ls) s) :
    ∃ rest, skipValue s = .ok rest ∧ Spaced ls rest := by
  obtain ⟨rest, hskip, hrest⟩ := skipFrom_value v hls h []
  exact ⟨rest, hskip.trans skipOut_nil, hrest⟩

section Numerals

variable {atEnd : Problem}

/-! What is said at the end of the text makes no difference to a number that does not end there. -/

theorem digits_of_ok {ds : List Char} (h : digits atEnd s = .ok (ds, rest)) (atEnd' : Problem) :
    digits atEnd' s = .ok (ds, rest) := by
  cases s with
  | nil => cases h
  | cons c s => exact h

theorem whole_of_ok {ds : List Char} (h : whole atEnd s = .ok (ds, rest)) (atEnd' : Problem) :
    whole atEnd' s = .ok (ds, rest) := by
  unfold whole at h
  cases hd : digits atEnd s with
  | error p =>
    rw [hd] at h
    cases h
  | ok read =>
    rw [hd] at h
    rw [whole, digits_of_ok hd]
    exact h

theorem fraction_of_ok {ds : Option (List Char)} (h : fraction atEnd s = .ok (ds, rest))
    (atEnd' : Problem) : fraction atEnd' s = .ok (ds, rest) := by
  unfold fraction at h ⊢
  split at h
  · obtain ⟨read, hd, hread⟩ := exists_of_map_ok h
    rw [digits_of_ok hd]
    exact congrArg Except.ok hread
  · exact h

theorem exponent_of_ok {e : Option Exponent} (h : exponent atEnd s = .ok (e, rest))
    (atEnd' : Problem) : exponent atEnd' s = .ok (e, rest) := by
  unfold exponent at h ⊢
  split at h
  · split at h
    · next hc =>
      rw [if_pos hc]
      simp only at h ⊢
      obtain ⟨read, hd, hread⟩ := exists_of_map_ok h
      rw [digits_of_ok hd]
      exact congrArg Except.ok hread
    · next hc =>
      rw [if_neg hc]
      exact h
  · exact h

theorem numeral_of_ok {l : Numeral} (h : numeral atEnd s = .ok (l, rest)) (atEnd' : Problem) :
    numeral atEnd' s = .ok (l, rest) := by
  obtain ⟨⟨ds, t⟩, hw, h⟩ := exists_of_bind_ok h
  obtain ⟨⟨f, t'⟩, hf, h⟩ := exists_of_bind_ok h
  obtain ⟨⟨e, t''⟩, he, h⟩ := exists_of_bind_ok h
  have hw' : whole atEnd' (sign s).2 = .ok (ds, t) := whole_of_ok hw atEnd'
  simp only [numeral, hw', fraction_of_ok hf atEnd', exponent_of_ok he atEnd', bind, Except.bind]
  exact h

end Numerals

end GrowBuffer.Json
