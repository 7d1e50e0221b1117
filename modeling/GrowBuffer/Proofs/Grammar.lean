import GrowBuffer.Json.Skip
import GrowBuffer.Proofs.Lexemes

/-! # Texts and values as they are written

The characters of a text stand for themselves or are escaped, and the values of lists and objects
nest at will. A text is read as the characters that it stands for, and skipped even if a half of a
pair in it stands for none. A value is the row of its lexemes.
-/

namespace GrowBuffer.Json

/-- A hexadecimal digit, with its letter in either case. -/
structure Hex where
  value : Fin 16
  capital : Bool

namespace Hex

def char (h : Hex) : Char :=
  if h.capital then (Nat.digitChar h.value).toUpper else Nat.digitChar h.value

theorem read (h : Hex) : hexDigit? h.char = some h.value.val := by
  obtain ⟨value, capital⟩ := h
  revert value capital
  decide

end Hex

/-- Four hexadecimal digits. -/
structure CodeUnit where
  a : Hex
  b : Hex
  c : Hex
  d : Hex

namespace CodeUnit

def chars (u : CodeUnit) : List Char := [u.a.char, u.b.char, u.c.char, u.d.char]

def value (u : CodeUnit) : Nat :=
  ((u.a.value * 16 + u.b.value) * 16 + u.c.value) * 16 + u.d.value

theorem read (u : CodeUnit) (rest : Source) :
    codeUnit (u.chars ++ rest) = .ok (u.value, rest) := by
  have hnear : nearEnd (u.chars ++ rest) = false := by
    have ha := u.a.char.utf8Size_pos
    have hb := u.b.char.utf8Size_pos
    have hc := u.c.char.utf8Size_pos
    have hd := u.d.char.utf8Size_pos
    refine decide_eq_false (Nat.not_lt.mpr ?_)
    simp only [chars, List.cons_append, List.nil_append, List.take_succ_cons, List.take_zero,
      List.foldl_cons, List.foldl_nil]
    omega
  unfold codeUnit
  rw [hnear]
  simp [chars, u.a.read, u.b.read, u.c.read, u.d.read, value]

end CodeUnit

/-- The characters that have a letter of their own to stand behind a backslash. -/
inductive Escape where
  | quote
  | backslash
  | slash
  | backspace
  | formFeed
  | lineFeed
  | carriageReturn
  | tab

namespace Escape

def letter : Escape → Char
  | quote => '"'
  | backslash => '\\'
  | slash => '/'
  | backspace => 'b'
  | formFeed => 'f'
  | lineFeed => 'n'
  | carriageReturn => 'r'
  | tab => 't'

def char : Escape → Char
  | quote => '"'
  | backslash => '\\'
  | slash => '/'
  | backspace => '\x08'
  | formFeed => '\x0c'
  | lineFeed => '\n'
  | carriageReturn => '\r'
  | tab => '\t'

theorem read (e : Escape) (s : Source) : escaped (e.letter :: s) = .ok (e.char, s) := by
  cases e <;> rfl

theorem skip (e : Escape) (s : Source) : skipEscape (e.letter :: s) = .ok s := by
  cases e <;> rfl

end Escape

/-- What stands in a text: a character for itself, or behind a backslash a letter or a code unit
for another one. -/
inductive Glyph where
  | plain (c : Char) (h : isPlain c = true)
  | short (e : Escape)
  | unit (u : CodeUnit)

def Glyph.chars : Glyph → List Char
  | plain c _ => [c]
  | short e => ['\\', e.letter]
  | unit u => '\\' :: 'u' :: u.chars

/-- A text behind its opening quote. -/
def glyphChars (gs : List Glyph) : List Char := gs.flatMap Glyph.chars ++ ['"']

theorem glyphChars_cons_append (g : Glyph) (gs : List Glyph) (s : Source) :
    glyphChars (g :: gs) ++ s = g.chars ++ (glyphChars gs ++ s) := by
  simp [glyphChars]

/-- The characters that a text stands for. A code unit that is the leading half of a pair stands
for one together with the trailing half behind it, and neither half stands for one alone. -/
def meaning? : List Glyph → Option (List Char)
  | [] => some []
  | .plain c _ :: gs => (meaning? gs).map (c :: ·)
  | .short e :: gs => (meaning? gs).map (e.char :: ·)
  | .unit u :: gs =>
    if isTrail u.value then none
    else if isLead u.value then
      match gs with
      | .unit v :: gs =>
        if isTrail v.value then (meaning? gs).map (pair u.value v.value :: ·) else none
      | _ => none
    else (meaning? gs).map (Char.ofNat u.value :: ·)

section Texts

variable {c : Char} {s rest : Source}

theorem text_escape (h : escaped s = .ok (c, rest)) :
    text ('\\' :: s) = (text rest).map fun (cs, rest) => (c :: cs, rest) := by
  rw [text]
  split
  · next he => cases h.symm.trans he
  · next he =>
    cases h.symm.trans he
    rfl

theorem escaped_unit (u : CodeUnit) (hlead : isLead u.value = false)
    (htrail : isTrail u.value = false) (s : Source) :
    escaped ('u' :: (u.chars ++ s)) = .ok (Char.ofNat u.value, s) := by
  simp [escaped, u.read, hlead, htrail]

theorem escaped_pair (u v : CodeUnit) (hlead : isLead u.value = true)
    (htrail : isTrail v.value = true) (s : Source) :
    escaped ('u' :: (u.chars ++ '\\' :: 'u' :: (v.chars ++ s))) =
      .ok (pair u.value v.value, s) := by
  have hnot : isTrail u.value = false := by
    simp only [isLead, isTrail, decide_eq_true_eq, decide_eq_false_iff_not] at hlead ⊢
    omega
  simp [escaped, trailing, u.read, v.read, hlead, htrail, hnot]

theorem text_glyphChars {gs : List Glyph} {cs : List Char} (h : meaning? gs = some cs)
    (rest : Source) : text (glyphChars gs ++ rest) = .ok (cs, rest) := by
  fun_induction meaning? gs generalizing cs with
  | case1 =>
    cases h
    rw [glyphChars, List.flatMap_nil, List.nil_append, List.cons_append, text]
    rfl
  | case2 c hc gs ih =>
    obtain ⟨cs, hcs, rfl⟩ := Option.map_eq_some_iff.mp h
    rw [glyphChars_cons_append, Glyph.chars, List.cons_append, text_cons_plain hc,
      List.nil_append, ih hcs]
    rfl
  | case3 e gs ih =>
    obtain ⟨cs, hcs, rfl⟩ := Option.map_eq_some_iff.mp h
    rw [glyphChars_cons_append, Glyph.chars, List.cons_append, List.cons_append, List.nil_append,
      text_escape (e.read _), ih hcs]
    rfl
  | case4 => cases h
  | case5 u htrail hlead v gs htrail' ih =>
    -- a leading half takes the unit behind it along
    obtain ⟨cs, hcs, rfl⟩ := Option.map_eq_some_iff.mp h
    rw [glyphChars_cons_append, glyphChars_cons_append, Glyph.chars, Glyph.chars,
      List.cons_append, List.cons_append, List.cons_append, List.cons_append,
      text_escape (escaped_pair u v hlead htrail' _), ih hcs]
    rfl
  | case6 => cases h
  | case7 => cases h
  | case8 u gs htrail hlead ih =>
    obtain ⟨cs, hcs, rfl⟩ := Option.map_eq_some_iff.mp h
    rw [glyphChars_cons_append, Glyph.chars, List.cons_append, List.cons_append,
      text_escape (escaped_unit u (Bool.eq_false_iff.mpr hlead) (Bool.eq_false_iff.mpr htrail) _),
      ih hcs]
    rfl

theorem skipText_cons_plain (h : isPlain c = true) (s : Source) :
    skipText (c :: s) = skipText s := by
  obtain ⟨hquote, hbackslash, hvisible⟩ := isPlain_iff.mp h
  rw [skipText, if_neg hvisible]
  · exact hquote
  · exact hbackslash

theorem skipText_escape (h : skipEscape s = .ok rest) : skipText ('\\' :: s) = skipText rest := by
  rw [skipText]
  split
  · next he => cases h.symm.trans he
  · next he =>
    cases h.symm.trans he
    rfl

theorem skipText_glyphChars (gs : List Glyph) (rest : Source) :
    skipText (glyphChars gs ++ rest) = .ok rest := by
  induction gs with
  | nil =>
    rw [glyphChars, List.flatMap_nil, List.nil_append, List.cons_append, skipText]
    rfl
  | cons g gs ih =>
    rw [glyphChars_cons_append]
    cases g with
    | plain c hc => exact (skipText_cons_plain hc _).trans ih
    | short e => exact (skipText_escape (e.skip _)).trans ih
    | unit u =>
      have hu : skipEscape ('u' :: (u.chars ++ (glyphChars gs ++ rest))) =
          .ok (glyphChars gs ++ rest) := by
        rw [skipEscape, u.read]
        rfl
      exact (skipText_escape hu).trans ih

end Texts

/-- A value of any depth. The keys of an object are texts, alike or not. -/
inductive Value where
  | null
  | boolean (b : Bool)
  | number (f : Figure)
  | text (gs : List Glyph)
  | list (vs : List Value)
  | object (ms : List (List Glyph × Value))

def Figure.lexeme (f : Figure) : String := String.ofList f.chars

def textLexeme (gs : List Glyph) : String := String.ofList ('"' :: glyphChars gs)

mutual

def Value.lexemes : Value → List String
  | .null => ["null"]
  | .boolean b => [if b then "true" else "false"]
  | .number f => [f.lexeme]
  | .text gs => [textLexeme gs]
  | .list vs => "[" :: elementLexemes true vs
  | .object ms => "\x7b" :: memberLexemes true ms

/-- From here to the end of a list. -/
def elementLexemes (first : Bool) : List Value → List String
  | [] => ["]"]
  | v :: vs => comma first ++ (v.lexemes ++ elementLexemes false vs)

/-- From here to the end of an object. -/
def memberLexemes (first : Bool) : List (List Glyph × Value) → List String
  | [] => ["\x7d"]
  | (key, v) :: ms =>
    comma first ++ textLexeme key :: ":" :: (v.lexemes ++ memberLexemes false ms)

end

theorem elementLexemes_cons_append (first : Bool) (v : Value) (vs : List Value)
    (ls : List String) :
    elementLexemes first (v :: vs) ++ ls =
      comma first ++ (v.lexemes ++ (elementLexemes false vs ++ ls)) := by
  simp only [elementLexemes, List.append_assoc]

theorem memberLexemes_cons_append (first : Bool) (key : List Glyph) (v : Value)
    (ms : List (List Glyph × Value)) (ls : List String) :
    memberLexemes first ((key, v) :: ms) ++ ls =
      comma first ++ textLexeme key :: ":" :: (v.lexemes ++ (memberLexemes false ms ++ ls)) := by
  simp only [memberLexemes, List.append_assoc, List.cons_append]

theorem toList_textLexeme (gs : List Glyph) : (textLexeme gs).toList = '"' :: glyphChars gs :=
  String.toList_ofList

theorem isBlank_of_startsNumber {c : Char} {s : Source} (h : startsNumber (c :: s) = true) :
    isBlank c = false := by
  simp only [startsNumber, Bool.or_eq_true, beq_iff_eq] at h
  rcases h with rfl | hd
  · rfl
  · exact isBlank_of_isDigit hd

/-- A value begins neither with a blank nor with the end of a list. -/
theorem Value.lexemes_eq_cons (v : Value) :
    ∃ l ls c cs, v.lexemes = l :: ls ∧ l.toList = c :: cs ∧ isBlank c = false ∧ c ≠ ']' := by
  match v with
  | .null => exact ⟨_, _, _, _, rfl, rfl, rfl, by decide⟩
  | .boolean true => exact ⟨_, _, _, _, rfl, rfl, rfl, by decide⟩
  | .boolean false => exact ⟨_, _, _, _, rfl, rfl, rfl, by decide⟩
  | .number f =>
    obtain ⟨c, cs, hcs, hc⟩ := f.chars_eq_cons
    refine ⟨_, _, c, cs, rfl, String.toList_ofList.trans hcs, isBlank_of_startsNumber hc, ?_⟩
    rintro rfl
    cases hc
  | .text gs => exact ⟨_, _, _, _, rfl, toList_textLexeme gs, rfl, by decide⟩
  | .list vs => exact ⟨_, _, _, _, rfl, rfl, rfl, by decide⟩
  | .object ms => exact ⟨_, _, _, _, rfl, rfl, rfl, by decide⟩

/-- A number of bytes. -/
def Value.ofSize (n : Nat) : Value := .number (.ofNat n)

def Value.ofOptionalSize : Option Nat → Value
  | none => .null
  | some n => .ofSize n

theorem Value.lexemes_ofSize (n : Nat) : (ofSize n).lexemes = [toString n] := by
  rw [ofSize, lexemes, Figure.lexeme, Figure.chars_ofNat, ← toList_toString, String.ofList_toList]

theorem Value.lexemes_ofOptionalSize (m : Option Nat) :
    (ofOptionalSize m).lexemes = [(m.map toString).getD "null"] := by
  cases m with
  | none => rfl
  | some n => exact lexemes_ofSize n

end GrowBuffer.Json
