import GrowBuffer.Json.Source

/-! # The form of numbers

A numeral has a whole part without needless zeros and may have a fraction and an
exponent. Reading its form takes as many characters as can belong to it; what it is
worth is another question.
-/

namespace GrowBuffer.Json

structure Exponent where
  negative : Bool
  digits : List Char

structure Numeral where
  negative : Bool
  whole : List Char
  fraction : Option (List Char)
  exponent : Option Exponent

/-- Some digits, at least one; `atEnd` is the complaint when the text ends before it. -/
def digits (atEnd : Problem) (s : Source) : Except Problem (List Char × Source) :=
  match s with
  | [] => .error atEnd
  | c :: _ =>
    if c.isDigit then .ok (s.takeWhile Char.isDigit, s.dropWhile Char.isDigit)
    else .error .badNumber

theorem length_lt_of_digits {atEnd : Problem} {s rest : Source} {ds : List Char}
    (h : digits atEnd s = .ok (ds, rest)) : rest.length < s.length := by
  cases s with
  | nil => simp [digits] at h
  | cons c s =>
    simp only [digits] at h
    split at h
    · next hc =>
      have := (List.dropWhile_suffix Char.isDigit (l := s)).length_le
      simp only [Except.ok.injEq, Prod.mk.injEq, List.dropWhile_cons, hc, if_true] at h
      rw [← h.2, List.length_cons]
      omega
    · simp at h

/-- The whole part. A zero in front of other digits is one too many. -/
def whole (atEnd : Problem) (s : Source) : Except Problem (List Char × Source) :=
  match digits atEnd s with
  | .ok ('0' :: _ :: _, _) => .error .badNumber
  | read => read

/-- The digits behind the point, if there is one. -/
def fraction (atEnd : Problem) (s : Source) : Except Problem (Option (List Char) × Source) :=
  match s with
  | '.' :: rest => (digits atEnd rest).map fun (ds, rest) => (some ds, rest)
  | _ => .ok (none, s)

def exponentSign (s : Source) : Bool × Source :=
  match s with
  | '+' :: rest => (false, rest)
  | '-' :: rest => (true, rest)
  | _ => (false, s)

/-- The exponent, if there is one. -/
def exponent (atEnd : Problem) (s : Source) : Except Problem (Option Exponent × Source) :=
  match s with
  | c :: rest =>
    if c = 'e' ∨ c = 'E' then
      let (negative, rest) := exponentSign rest
      (digits atEnd rest).map fun (ds, rest) => (some ⟨negative, ds⟩, rest)
    else .ok (none, s)
  | [] => .ok (none, s)

def sign (s : Source) : Bool × Source :=
  match s with
  | '-' :: rest => (true, rest)
  | _ => (false, s)

/-- Read a numeral; `atEnd` is the complaint when the text ends where a digit is due. -/
def numeral (atEnd : Problem) (s : Source) : Except Problem (Numeral × Source) := do
  let (negative, s) := sign s
  let (whole, s) ← whole atEnd s
  let (fraction, s) ← fraction atEnd s
  let (exponent, s) ← exponent atEnd s
  return (⟨negative, whole, fraction, exponent⟩, s)

theorem length_lt_of_whole {atEnd : Problem} {s rest : Source} {ds : List Char}
    (h : whole atEnd s = .ok (ds, rest)) : rest.length < s.length := by
  unfold whole at h
  split at h
  · simp at h
  · exact length_lt_of_digits h

theorem length_le_of_fraction {atEnd : Problem} {s rest : Source} {ds : Option (List Char)}
    (h : fraction atEnd s = .ok (ds, rest)) : rest.length ≤ s.length := by
  unfold fraction at h
  split at h
  · next s =>
    cases hd : digits atEnd s with
    | error p => simp [hd, Except.map] at h
    | ok r =>
      have := length_lt_of_digits hd
      simp only [hd, Except.map, Except.ok.injEq, Prod.mk.injEq] at h
      rw [← h.2, List.length_cons]
      omega
  · simp_all

theorem length_exponentSign_le (s : Source) : (exponentSign s).2.length ≤ s.length := by
  unfold exponentSign
  split <;> simp

theorem length_sign_le (s : Source) : (sign s).2.length ≤ s.length := by
  unfold sign
  split <;> simp

theorem length_le_of_exponent {atEnd : Problem} {s rest : Source} {e : Option Exponent}
    (h : exponent atEnd s = .ok (e, rest)) : rest.length ≤ s.length := by
  unfold exponent at h
  split at h
  · next c s =>
    split at h
    · have hs := length_exponentSign_le s
      cases hd : digits atEnd (exponentSign s).2 with
      | error p => simp [hd, Except.map] at h
      | ok r =>
        have := length_lt_of_digits hd
        simp only [hd, Except.map, Except.ok.injEq, Prod.mk.injEq] at h
        rw [← h.2, List.length_cons]
        omega
    · simp_all
  · simp_all

theorem length_lt_of_numeral {atEnd : Problem} {s rest : Source} {n : Numeral}
    (h : numeral atEnd s = .ok (n, rest)) : rest.length < s.length := by
  have h₀ := length_sign_le s
  simp only [numeral, bind, Except.bind, pure, Except.pure] at h
  split at h
  · simp at h
  · next hw =>
    have h₁ := length_lt_of_whole hw
    split at h
    · simp at h
    · next hf =>
      have h₂ := length_le_of_fraction hf
      split at h
      · simp at h
      · next he =>
        have h₃ := length_le_of_exponent he
        simp only [Except.ok.injEq, Prod.mk.injEq] at h
        rw [← h.2]
        omega

end GrowBuffer.Json
