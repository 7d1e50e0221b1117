import GrowBuffer.Json.Numeral
import GrowBuffer.Json.Text

/-! # Skipping a value

A value whose content does not matter is passed over, however deep it is nested. The
brackets that are open around the place are kept in a list, the innermost first.
-/

namespace GrowBuffer.Json

inductive Bracket where
  | list
  | object
  deriving DecidableEq, Repr

/-- Behind a word, a number or a text that begins here. -/
def skipScalar (s : Source) : Except Problem Source :=
  match s with
  | 'n' :: rest => word ['u', 'l', 'l'] rest
  | 't' :: rest => word ['r', 'u', 'e'] rest
  | 'f' :: rest => word ['a', 'l', 's', 'e'] rest
  | '"' :: rest => skipText rest
  | [] => .error .endInValue
  | _ => if startsNumber s then (numeral .badNumber s).map (·.2) else .error .valueDue

/-- Behind a key and its colon. -/
def skipKey (s : Source) : Except Problem Source :=
  match skipBlank s with
  | '"' :: rest =>
    match skipText rest with
    | .error p => .error p
    | .ok rest => colon rest
  | _ :: _ => .error .keyDue
  | [] => .error .endInObject

theorem length_lt_of_skipScalar {s rest : Source} (h : skipScalar s = .ok rest) :
    rest.length < s.length := by
  unfold skipScalar at h
  split at h
  · have := length_word h
    simp at *
    omega
  · have := length_word h
    simp at *
    omega
  · have := length_word h
    simp at *
    omega
  · have := length_lt_of_skipText h
    simp
    omega
  · simp at h
  · split at h
    · cases hn : numeral .badNumber s with
      | error p => simp [hn, Except.map] at h
      | ok r =>
        have := length_lt_of_numeral hn
        simp only [hn, Except.map, Except.ok.injEq] at h
        rwa [← h]
    · simp at h

theorem length_lt_of_skipKey {s rest : Source} (h : skipKey s = .ok rest) :
    rest.length < s.length := by
  unfold skipKey at h
  split at h
  · next hs =>
    have h₁ := length_lt_of_skipBlank hs
    split at h
    · simp at h
    · next ht =>
      have h₂ := length_lt_of_skipText ht
      have h₃ := length_lt_of_colon h
      omega
  · simp at h
  · simp at h

mutual

/-- Behind the value that is due here, and behind what is open around it. -/
def skipFrom (s : Source) (around : List Bracket) : Except Problem Source :=
  match hs : skipBlank s with
  | [] => .error .endInValue
  | '[' :: rest =>
    have := length_lt_of_skipBlank hs
    match hr : skipBlank rest with
    | [] => .error .endInList
    | ']' :: rest' =>
      have := length_lt_of_skipBlank hr
      skipOut rest' around
    | _ :: _ => skipFrom rest (.list :: around)
  | '\x7b' :: rest =>
    have := length_lt_of_skipBlank hs
    match hr : skipBlank rest with
    | [] => .error .endInObject
    | '\x7d' :: rest' =>
      have := length_lt_of_skipBlank hr
      skipOut rest' around
    | _ :: _ =>
      match hk : skipKey rest with
      | .error p => .error p
      | .ok rest' =>
        have := length_lt_of_skipKey hk
        skipFrom rest' (.object :: around)
  | _ :: _ =>
    match hc : skipScalar (skipBlank s) with
    | .error p => .error p
    | .ok rest =>
      have := length_lt_of_skipScalar hc
      have := length_skipBlank_le s
      skipOut rest around
termination_by s.length

/-- Behind what is open around a value that ends here. -/
def skipOut (s : Source) (around : List Bracket) : Except Problem Source :=
  match around with
  | [] => .ok s
  | .list :: outer =>
    match hs : skipBlank s with
    | ',' :: rest =>
      have := length_lt_of_skipBlank hs
      skipFrom rest (.list :: outer)
    | ']' :: rest =>
      have := length_lt_of_skipBlank hs
      skipOut rest outer
    | _ :: _ => .error .listCommaDue
    | [] => .error .endInList
  | .object :: outer =>
    match hs : skipBlank s with
    | ',' :: rest =>
      match hk : skipKey rest with
      | .error p => .error p
      | .ok rest' =>
        have := length_lt_of_skipBlank hs
        have := length_lt_of_skipKey hk
        skipFrom rest' (.object :: outer)
    | '\x7d' :: rest =>
      have := length_lt_of_skipBlank hs
      skipOut rest outer
    | _ :: _ => .error .objectCommaDue
    | [] => .error .endInObject
termination_by s.length

end

/-- Behind one value. -/
def skipValue (s : Source) : Except Problem Source := skipFrom s []

theorem length_of_skip (n : Nat) :
    (∀ s around rest, s.length ≤ n → skipFrom s around = .ok rest →
        rest.length < s.length) ∧
      ∀ s around rest, s.length ≤ n → skipOut s around = .ok rest →
        rest.length ≤ s.length := by
  induction n with
  | zero =>
    refine ⟨fun s around rest hn h => ?_, fun s around rest hn h => ?_⟩
    · have hs : s = [] := List.eq_nil_of_length_eq_zero (by omega)
      subst hs
      simp [skipFrom, skipBlank] at h
    · have hs : s = [] := List.eq_nil_of_length_eq_zero (by omega)
      subst hs
      unfold skipOut at h
      split at h <;> simp_all [skipBlank]
  | succ n ih =>
    obtain ⟨ihFrom, ihOut⟩ := ih
    refine ⟨fun s around rest hn h => ?_, fun s around rest hn h => ?_⟩
    · unfold skipFrom at h
      split at h
      · simp at h
      · next s₁ hs =>
        have h₁ := length_lt_of_skipBlank hs
        split at h
        · simp at h
        · next s₂ hr =>
          have h₂ := length_lt_of_skipBlank hr
          have := ihOut _ _ _ (by omega) h
          omega
        · have := ihFrom _ _ _ (by omega) h
          omega
      · next s₁ hs =>
        have h₁ := length_lt_of_skipBlank hs
        split at h
        · simp at h
        · next s₂ hr =>
          have h₂ := length_lt_of_skipBlank hr
          have := ihOut _ _ _ (by omega) h
          omega
        · split at h
          · simp at h
          · next s₂ hk =>
            have h₂ := length_lt_of_skipKey hk
            have := ihFrom _ _ _ (by omega) h
            omega
      · split at h
        · simp at h
        · next s₁ hc =>
          have h₁ := length_lt_of_skipScalar hc
          have h₂ := length_skipBlank_le s
          have := ihOut _ _ _ (by omega) h
          omega
    · unfold skipOut at h
      split at h
      · simp_all
      · split at h
        · next s₁ hs =>
          have h₁ := length_lt_of_skipBlank hs
          have := ihFrom _ _ _ (by omega) h
          omega
        · next s₁ hs =>
          have h₁ := length_lt_of_skipBlank hs
          have := ihOut _ _ _ (by omega) h
          omega
        · simp at h
        · simp at h
      · split at h
        · next s₁ hs =>
          have h₁ := length_lt_of_skipBlank hs
          split at h
          · simp at h
          · next s₂ hk =>
            have h₂ := length_lt_of_skipKey hk
            have := ihFrom _ _ _ (by omega) h
            omega
        · next s₁ hs =>
          have h₁ := length_lt_of_skipBlank hs
          have := ihOut _ _ _ (by omega) h
          omega
        · simp at h
        · simp at h

theorem length_lt_of_skipValue {s rest : Source} (h : skipValue s = .ok rest) :
    rest.length < s.length :=
  (length_of_skip s.length).1 s [] rest (Nat.le_refl _) h

end GrowBuffer.Json
