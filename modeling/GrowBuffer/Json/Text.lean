import GrowBuffer.Json.Source

/-! # Texts in quotes

A text is read character by character behind its opening quote; escapes stand for one
character each. Where the content does not matter a text is skipped: then an escape has
to be well formed but need not stand for a character.
-/

namespace GrowBuffer.Json

/-- The character that a letter behind a backslash stands for. -/
def shortEscape? : Char → Option Char
  | '"' => some '"'
  | '\\' => some '\\'
  | '/' => some '/'
  | 'b' => some '\x08'
  | 'f' => some '\x0c'
  | 'n' => some '\n'
  | 'r' => some '\r'
  | 't' => some '\t'
  | _ => none

def hexDigit? (c : Char) : Option Nat :=
  if c.isDigit then some (c.toNat - '0'.toNat)
  else if 'a' ≤ c ∧ c ≤ 'f' then some (c.toNat - 'a'.toNat + 10)
  else if 'A' ≤ c ∧ c ≤ 'F' then some (c.toNat - 'A'.toNat + 10)
  else none

/-- Whether less than four bytes of text are left. -/
def nearEnd (s : Source) : Bool := decide ((s.take 4).foldl (fun n c => n + c.utf8Size) 0 < 4)

/-- Four hexadecimal digits. -/
def codeUnit (s : Source) : Except Problem (Nat × Source) :=
  if nearEnd s then .error .endInText
  else match s with
    | a :: b :: c :: d :: rest =>
      match hexDigit? a, hexDigit? b, hexDigit? c, hexDigit? d with
      | some a, some b, some c, some d => .ok (((a * 16 + b) * 16 + c) * 16 + d, rest)
      | _, _, _, _ => .error .badEscape
    | _ => .error .badEscape

theorem length_codeUnit {s rest : Source} {n : Nat} (h : codeUnit s = .ok (n, rest)) :
    rest.length + 4 = s.length := by
  unfold codeUnit at h
  split at h
  · simp at h
  · split at h
    · split at h <;> simp_all
    · simp at h

def isLead (n : Nat) : Bool := decide (0xD800 ≤ n ∧ n < 0xDC00)

def isTrail (n : Nat) : Bool := decide (0xDC00 ≤ n ∧ n < 0xE000)

/-- The character of a surrogate pair. -/
def pair (lead trail : Nat) : Char :=
  Char.ofNat (0x10000 + (lead - 0xD800) * 0x400 + (trail - 0xDC00))

/-- The trailing half that has to follow a leading one. -/
def trailing (lead : Nat) (s : Source) : Except Problem (Char × Source) :=
  match s with
  | [] => .error .endInText
  | '\\' :: [] => .error .endInText
  | '\\' :: 'u' :: rest =>
    match codeUnit rest with
    | .error p => .error p
    | .ok (n, rest) =>
      if isTrail n then .ok (pair lead n, rest) else .error .loneSurrogate
  | _ => .error .brokenPair

/-- The character that an escape stands for, behind its backslash. -/
def escaped : Source → Except Problem (Char × Source)
  | [] => .error .endInText
  | 'u' :: s =>
    match codeUnit s with
    | .error p => .error p
    | .ok (n, rest) =>
      if isTrail n then .error .loneSurrogate
      else if isLead n then trailing n rest
      else .ok (Char.ofNat n, rest)
  | c :: s =>
    match shortEscape? c with
    | some d => .ok (d, s)
    | none => .error .badEscape

theorem length_lt_of_trailing {lead : Nat} {s rest : Source} {c : Char}
    (h : trailing lead s = .ok (c, rest)) : rest.length < s.length := by
  unfold trailing at h
  split at h
  · simp at h
  · simp at h
  · split at h
    · simp at h
    · next hu =>
      have := length_codeUnit hu
      split at h <;> simp_all
      omega
  · simp at h

theorem length_lt_of_escaped {s rest : Source} {c : Char} (h : escaped s = .ok (c, rest)) :
    rest.length < s.length := by
  unfold escaped at h
  split at h
  · simp at h
  · split at h
    · simp at h
    · next hu =>
      have := length_codeUnit hu
      split at h
      · simp at h
      · split at h
        · have := length_lt_of_trailing h
          simp
          omega
        · simp_all
          omega
  · split at h <;> simp_all

/-- The characters up to the closing quote. -/
def text (s : Source) : Except Problem (List Char × Source) :=
  match s with
  | [] => .error .endInText
  | '"' :: rest => .ok ([], rest)
  | '\\' :: rest =>
    match h : escaped rest with
    | .error p => .error p
    | .ok (c, rest') =>
      have := length_lt_of_escaped h
      (text rest').map fun (cs, rest'') => (c :: cs, rest'')
  | c :: rest =>
    if c < ' ' then .error .controlCharacter
    else (text rest).map fun (cs, rest') => (c :: cs, rest')
termination_by s.length

theorem length_lt_of_text {s rest : Source} {cs : List Char} (h : text s = .ok (cs, rest)) :
    rest.length < s.length := by
  fun_induction text s generalizing cs rest with
  | case1 => simp at h
  | case2 => simp_all
  | case3 => simp at h
  | case4 s c rest' he hlt ih =>
    cases ht : text rest' with
    | error p => simp [ht, Except.map] at h
    | ok r =>
      have := ih ht
      simp only [ht, Except.map, Except.ok.injEq, Prod.mk.injEq] at h
      obtain ⟨-, rfl⟩ := h
      simp
      omega
  | case5 => simp at h
  | case6 c s hq hb hc ih =>
    cases ht : text s with
    | error p => simp [ht, Except.map] at h
    | ok r =>
      have := ih ht
      simp only [ht, Except.map, Except.ok.injEq, Prod.mk.injEq] at h
      obtain ⟨-, rfl⟩ := h
      simp
      omega

/-- Behind an escape whose meaning does not matter. -/
def skipEscape : Source → Except Problem Source
  | [] => .error .endInText
  | 'u' :: s => (codeUnit s).map (·.2)
  | c :: s => if (shortEscape? c).isSome then .ok s else .error .badEscape

theorem length_lt_of_skipEscape {s rest : Source} (h : skipEscape s = .ok rest) :
    rest.length < s.length := by
  unfold skipEscape at h
  split at h
  · simp at h
  · next s =>
    cases hu : codeUnit s with
    | error p => simp [hu, Except.map] at h
    | ok r =>
      have := length_codeUnit hu
      simp only [hu, Except.map, Except.ok.injEq] at h
      subst h
      simp
      omega
  · split at h <;> simp_all

/-- Behind the closing quote. -/
def skipText (s : Source) : Except Problem Source :=
  match s with
  | [] => .error .endInText
  | '"' :: rest => .ok rest
  | '\\' :: rest =>
    match h : skipEscape rest with
    | .error p => .error p
    | .ok rest' =>
      have := length_lt_of_skipEscape h
      skipText rest'
  | c :: rest => if c < ' ' then .error .controlCharacter else skipText rest
termination_by s.length

theorem length_lt_of_skipText {s rest : Source} (h : skipText s = .ok rest) :
    rest.length < s.length := by
  fun_induction skipText s with
  | case1 => simp at h
  | case2 => simp_all
  | case3 => simp at h
  | case4 s rest' he hlt ih =>
    have := ih h
    simp
    omega
  | case5 => simp at h
  | case6 c s hq hb hc ih =>
    have := ih h
    simp
    omega

end GrowBuffer.Json
