import GrowBuffer.Json.Problem

/-! # The text still to be read

Readers take the characters that are left and answer with those behind what they have
read. Each reader has a lemma that says that it makes progress.
-/

namespace GrowBuffer.Json

abbrev Source := List Char

def isBlank (c : Char) : Bool := c == ' ' || c == '\t' || c == '\n' || c == '\r'

def skipBlank (s : Source) : Source := s.dropWhile isBlank

theorem length_skipBlank_le (s : Source) : (skipBlank s).length ≤ s.length :=
  (List.dropWhile_suffix _).length_le

/-- What is left after blanks is part of what was left before. -/
theorem length_lt_of_skipBlank {s rest : Source} {c : Char} (h : skipBlank s = c :: rest) :
    rest.length < s.length := by
  have := length_skipBlank_le s
  rw [h, List.length_cons] at this
  omega

/-- The letters of a word whose first letter announced it. -/
def word : List Char → Source → Except Problem Source
  | [], s => .ok s
  | _ :: _, [] => .error .endInValue
  | c :: cs, d :: s => if d = c then word cs s else .error .unknownWord

theorem length_word {letters : List Char} {s rest : Source} (h : word letters s = .ok rest) :
    rest.length + letters.length = s.length := by
  induction letters generalizing s with
  | nil => simp_all [word]
  | cons c cs ih =>
    cases s with
    | nil => simp [word] at h
    | cons d s =>
      simp only [word] at h
      split at h
      · have := ih h
        simp
        omega
      · simp at h

/-- Behind the colon that follows a key. -/
def colon (s : Source) : Except Problem Source :=
  match skipBlank s with
  | ':' :: rest => .ok rest
  | _ :: _ => .error .colonDue
  | [] => .error .endInObject

theorem length_lt_of_colon {s rest : Source} (h : colon s = .ok rest) :
    rest.length < s.length := by
  unfold colon at h
  split at h
  · next hs =>
    simp only [Except.ok.injEq] at h
    exact h ▸ length_lt_of_skipBlank hs
  · simp at h
  · simp at h

/-- Whether a number begins here. -/
def startsNumber : Source → Bool
  | [] => false
  | c :: _ => c == '-' || c.isDigit

end GrowBuffer.Json
