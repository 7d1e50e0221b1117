import GrowBuffer.Json.Number
import Mathlib.Tactic

/-! # Numbers as they are written

A number has a whole part and may have a sign, a fraction and an exponent. It is read in each of
these forms if what stands behind it does not go on with it. The digits of a natural number are
one of them, and the number that is read is what they are worth as long as that is a size.
Whatever the digits are, a natural number that is read is a size.
-/

namespace GrowBuffer.Json

section Answers

variable {ε α β : Type} {x : Except ε α} {b : β}

theorem exists_of_map_ok {f : α → β} (h : x.map f = .ok b) : ∃ a, x = .ok a ∧ f a = b := by
  cases x with
  | error e => cases h
  | ok a => exact ⟨a, rfl, Except.ok.inj h⟩

theorem exists_of_bind_ok {f : α → Except ε β} (h : x >>= f = .ok b) :
    ∃ a, x = .ok a ∧ f a = .ok b := by
  cases x with
  | error e => cases h
  | ok a => exact ⟨a, rfl, h⟩

theorem of_ite_eq_ok {p : Prop} [Decidable p] {e : ε} {c : β}
    (h : (if p then .ok b else .error e : Except ε β) = .ok c) : p ∧ b = c := by
  split at h
  · next hp => exact ⟨hp, Except.ok.inj h⟩
  · cases h

end Answers

/-- Whether a numeral may go on with this behind a digit. -/
def continuesNumeral (c : Char) : Bool := c.isDigit || c == '.' || c == 'e' || c == 'E'

/-- What stands here does not go on with digits in front of it. -/
def EndsNumeral (s : Source) : Prop := ∀ c ∈ s.head?, continuesNumeral c = false

/-- No digit stands here. -/
def NoDigit (s : Source) : Prop := ∀ c ∈ s.head?, c.isDigit = false

theorem EndsNumeral.head?_ne {s : Source} {c : Char} (h : EndsNumeral s)
    (hc : continuesNumeral c = true) : s.head? ≠ some c := fun hs =>
  Bool.eq_false_iff.mp (h c hs) hc

theorem EndsNumeral.noDigit {s : Source} (h : EndsNumeral s) : NoDigit s := by
  intro c hc
  have hcont := h c hc
  simp only [continuesNumeral, Bool.or_eq_false_iff] at hcont
  exact hcont.1.1.1

/-- Decimal digits, at least one. -/
structure Digits where
  chars : List Char
  ne_nil : chars ≠ []
  isDigit : ∀ c ∈ chars, c.isDigit = true

section Digits

variable {s rest : Source} {atEnd : Problem}

theorem takeWhile_of_noDigit (h : NoDigit s) :
    s.takeWhile Char.isDigit = [] ∧ s.dropWhile Char.isDigit = s := by
  cases s with
  | nil => exact ⟨rfl, rfl⟩
  | cons c s =>
    have hc : ¬ c.isDigit = true := Bool.eq_false_iff.mp (h c rfl)
    exact ⟨List.takeWhile_cons_of_neg hc, List.dropWhile_cons_of_neg hc⟩

theorem Digits.chars_eq_cons (d : Digits) :
    ∃ c cs, d.chars = c :: cs ∧ c.isDigit = true := by
  obtain ⟨c, cs, hcs⟩ := List.exists_cons_of_ne_nil d.ne_nil
  exact ⟨c, cs, hcs, d.isDigit c (hcs ▸ List.mem_cons_self)⟩

theorem Digits.read (d : Digits) (h : NoDigit rest) :
    digits atEnd (d.chars ++ rest) = .ok (d.chars, rest) := by
  obtain ⟨htake, hdrop⟩ := takeWhile_of_noDigit h
  have hread : (d.chars ++ rest).takeWhile Char.isDigit = d.chars ∧
      (d.chars ++ rest).dropWhile Char.isDigit = rest := by
    rw [List.takeWhile_append_of_pos d.isDigit, List.dropWhile_append_of_pos d.isDigit, htake,
      hdrop, List.append_nil]
    exact ⟨rfl, rfl⟩
  obtain ⟨c, cs, hcs, hc⟩ := d.chars_eq_cons
  rw [hcs, List.cons_append] at hread ⊢
  simp only [digits]
  rw [if_pos hc, hread.1, hread.2]

theorem Digits.read_whole (d : Digits) (hzero : d.chars.head? = some '0' → d.chars = ['0'])
    (h : NoDigit rest) : whole atEnd (d.chars ++ rest) = .ok (d.chars, rest) := by
  rw [whole, d.read h]
  split
  -- more than one digit and a zero in front
  · next c cs rest' heq =>
    have hlong : d.chars = '0' :: c :: cs := congrArg Prod.fst (Except.ok.inj heq)
    cases hlong.symm.trans (hzero (hlong ▸ rfl))
  · rfl

theorem fraction_eq_none (h : s.head? ≠ some '.') : fraction atEnd s = .ok (none, s) := by
  unfold fraction
  split
  · exact absurd rfl h
  · rfl

theorem exponent_eq_none (h : EndsNumeral s) : exponent atEnd s = .ok (none, s) := by
  unfold exponent
  split
  · next c rest =>
    rw [if_neg]
    rintro (rfl | rfl) <;> cases h _ rfl
  · rfl

end Digits

/-- An exponent with either letter, and with or without a sign. -/
structure Power where
  capital : Bool
  negative? : Option Bool
  digits : Digits

namespace Power

def letter (p : Power) : Char := if p.capital then 'E' else 'e'

def mark (p : Power) : List Char :=
  p.negative?.elim [] fun negative => [if negative then '-' else '+']

def chars (p : Power) : List Char := p.letter :: (p.mark ++ p.digits.chars)

def exponent (p : Power) : Exponent := ⟨p.negative? == some true, p.digits.chars⟩

end Power

/-- A number. The only whole part that begins with a zero is zero. -/
structure Figure where
  negative : Bool
  whole : Digits
  whole_zero : whole.chars.head? = some '0' → whole.chars = ['0']
  fraction : Option Digits
  power : Option Power

namespace Figure

def signChars (f : Figure) : List Char := if f.negative then ['-'] else []

def fractionChars (f : Figure) : List Char := f.fraction.elim [] fun ds => '.' :: ds.chars

def powerChars (f : Figure) : List Char := f.power.elim [] Power.chars

def chars (f : Figure) : List Char :=
  f.signChars ++ (f.whole.chars ++ (f.fractionChars ++ f.powerChars))

/-- The form that is read from it. -/
def numeral (f : Figure) : Numeral :=
  ⟨f.negative, f.whole.chars, f.fraction.map Digits.chars, f.power.map Power.exponent⟩

end Figure

section Numbers

variable {atEnd : Problem} {rest : Source}

theorem exponentSign_mark (p : Power) (rest : Source) :
    exponentSign (p.mark ++ (p.digits.chars ++ rest)) =
      (p.negative? == some true, p.digits.chars ++ rest) := by
  obtain ⟨capital, negative?, d⟩ := p
  match negative? with
  | some true => rfl
  | some false => rfl
  | none =>
    obtain ⟨c, cs, hcs, hc⟩ := d.chars_eq_cons
    simp only [Power.mark, Option.elim_none, List.nil_append, hcs, List.cons_append, exponentSign]
    split
    · next heq =>
      cases heq
      cases hc
    · next heq =>
      cases heq
      cases hc
    · rfl

theorem Power.read (p : Power) (h : NoDigit rest) :
    Json.exponent atEnd (p.chars ++ rest) = .ok (some p.exponent, rest) := by
  have hletter : p.letter = 'e' ∨ p.letter = 'E' := by
    rw [letter]
    split <;> simp
  rw [chars, List.cons_append, List.append_assoc, Json.exponent]
  simp only [if_pos hletter, exponentSign_mark, p.digits.read h]
  rfl

namespace Figure

variable (f : Figure)

theorem exponent_powerChars (h : EndsNumeral rest) :
    Json.exponent atEnd (f.powerChars ++ rest) = .ok (f.power.map Power.exponent, rest) := by
  cases hp : f.power with
  | none =>
    rw [powerChars, hp]
    exact exponent_eq_none h
  | some p =>
    rw [powerChars, hp]
    exact p.read h.noDigit

/-- An exponent is told from digits and from a fraction by its letter. -/
theorem head?_powerChars (h : EndsNumeral rest) :
    ∀ c ∈ (f.powerChars ++ rest).head?, c.isDigit = false ∧ c ≠ '.' := by
  cases hp : f.power with
  | none =>
    intro c hc
    rw [powerChars, hp] at hc
    refine ⟨h.noDigit c hc, ?_⟩
    rintro rfl
    exact h.head?_ne rfl hc
  | some p =>
    intro c hc
    rw [powerChars, hp] at hc
    cases hc
    rw [Power.letter]
    split
    · exact ⟨rfl, by decide⟩
    · exact ⟨rfl, by decide⟩

theorem fraction_fractionChars (h : EndsNumeral rest) :
    Json.fraction atEnd (f.fractionChars ++ (f.powerChars ++ rest)) =
      .ok (f.fraction.map Digits.chars, f.powerChars ++ rest) := by
  have hhead := f.head?_powerChars h
  cases hf : f.fraction with
  | none =>
    rw [fractionChars, hf]
    exact fraction_eq_none fun hp => (hhead _ hp).2 rfl
  | some d =>
    rw [fractionChars, hf, Option.elim_some, List.cons_append, Json.fraction,
      d.read fun c hc => (hhead c hc).1]
    rfl

theorem whole_chars (h : EndsNumeral rest) :
    Json.whole atEnd (f.whole.chars ++ (f.fractionChars ++ (f.powerChars ++ rest))) =
      .ok (f.whole.chars, f.fractionChars ++ (f.powerChars ++ rest)) := by
  refine f.whole.read_whole f.whole_zero ?_
  cases hf : f.fraction with
  | none =>
    rw [fractionChars, hf]
    exact fun c hc => (f.head?_powerChars h c hc).1
  | some d =>
    rw [fractionChars, hf]
    rintro c ⟨⟩
    rfl

theorem sign_chars (rest : Source) :
    sign (f.signChars ++ (f.whole.chars ++ rest)) = (f.negative, f.whole.chars ++ rest) := by
  obtain ⟨c, cs, hcs, hc⟩ := f.whole.chars_eq_cons
  cases hn : f.negative with
  | true =>
    rw [signChars, hn]
    rfl
  | false =>
    rw [signChars, hn, if_neg Bool.false_ne_true, List.nil_append, hcs, List.cons_append, sign]
    rintro rest' heq
    cases heq
    cases hc

theorem read (h : EndsNumeral rest) :
    Json.numeral atEnd (f.chars ++ rest) = .ok (f.numeral, rest) := by
  simp only [Json.numeral, chars, List.append_assoc, sign_chars, whole_chars f h,
    fraction_fractionChars f h, exponent_powerChars f h, bind, Except.bind, pure, Except.pure]
  rfl

theorem chars_eq_cons : ∃ c cs, f.chars = c :: cs ∧ startsNumber (c :: cs) = true := by
  obtain ⟨c, cs, hcs, hc⟩ := f.whole.chars_eq_cons
  rw [chars, signChars]
  split
  · exact ⟨'-', _, rfl, rfl⟩
  · rw [hcs]
    exact ⟨c, _, rfl, by rw [startsNumber, hc, Bool.or_true]⟩

theorem startsNumber_chars (rest : Source) : startsNumber (f.chars ++ rest) = true := by
  obtain ⟨c, cs, hcs, hc⟩ := f.chars_eq_cons
  rw [hcs]
  exact hc

end Figure

end Numbers

section Naturals

variable {n : Nat} {rest : Source} {atEnd : Problem}

/-- Only zero is written with a zero in front. -/
theorem head?_toDigits_ne_zero (hn : 0 < n) : (Nat.toDigits 10 n).head? ≠ some '0' := by
  induction n using Nat.strong_induction_on with
  | _ n ih =>
    by_cases h : n < 10
    · rw [Nat.toDigits_of_lt_base h, List.head?_singleton, Ne, Option.some.injEq,
        Nat.digitChar_eq_zero]
      omega
    · rw [Nat.toDigits_of_base_le (by omega) (by omega),
        List.head?_append_of_ne_nil _ Nat.toDigits_ne_nil]
      exact ih (n / 10) (by omega) (by omega)

/-- The decimal digits of a natural number. -/
def Figure.ofNat (n : Nat) : Figure where
  negative := false
  whole := ⟨Nat.toDigits 10 n, Nat.toDigits_ne_nil,
    fun _ hc => Nat.isDigit_of_mem_toDigits (by omega) (by omega) hc⟩
  whole_zero := by
    intro hzero
    rcases Nat.eq_zero_or_pos n with rfl | hn
    · rfl
    · exact absurd hzero (head?_toDigits_ne_zero hn)
  fraction := none
  power := none

theorem Figure.chars_ofNat (n : Nat) : (ofNat n).chars = Nat.toDigits 10 n := by
  simp [chars, signChars, fractionChars, powerChars, ofNat]

theorem numeral_toDigits (h : EndsNumeral rest) :
    numeral atEnd (Nat.toDigits 10 n ++ rest) =
      .ok (⟨false, Nat.toDigits 10 n, none, none⟩, rest) := by
  have hread : numeral atEnd ((Figure.ofNat n).chars ++ rest) = .ok (_, rest) :=
    (Figure.ofNat n).read h
  rwa [Figure.chars_ofNat] at hread

theorem toDigits_eq_cons (n : Nat) : ∃ d ds, Nat.toDigits 10 n = d :: ds ∧ d.isDigit = true :=
  (Figure.ofNat n).whole.chars_eq_cons

theorem decimalFrom_toDigits : decimalFrom 0 (Nat.toDigits 10 n) = n :=
  (Nat.ofDigitChars_eq_foldl).symm.trans Nat.ofDigitChars_ten_toDigits

theorem number_toDigits (hn : n < Word.limit) (h : EndsNumeral rest) :
    number (Nat.toDigits 10 n ++ rest) = .ok (.natural n, rest) := by
  have htake : takeUp 0 (Nat.toDigits 10 n) = (n, (Nat.toDigits 10 n).length) := by
    rw [takeUp_of_lt (by rwa [decimalFrom_toDigits]), decimalFrom_toDigits]
  rw [number, numeral_toDigits h]
  simp [Numeral.number, htake, takeUp, Except.map]

theorem startsNumber_toDigits : startsNumber (Nat.toDigits 10 n ++ rest) = true := by
  rw [← Figure.chars_ofNat]
  exact (Figure.ofNat n).startsNumber_chars rest

end Naturals

theorem takeUp_lt {n : Nat} (hn : n < Word.limit) (ds : List Char) :
    (takeUp n ds).1 < Word.limit := by
  induction ds generalizing n with
  | nil => exact hn
  | cons c cs ih =>
    rw [takeUp]
    split
    · next h => exact ih h
    · exact hn

theorem Numeral.lt_limit (l : Numeral) {n : Nat} (h : l.number = .ok (.natural n)) :
    n < Word.limit := by
  unfold Numeral.number at h
  have hlt := takeUp_lt (takeUp_lt (show 0 < Word.limit by decide) l.whole) (l.fraction.getD [])
  simp only at h
  split at h
  · split at h
    · cases h
      exact hlt
    · split at h <;> cases h
  · obtain ⟨f, -, hf⟩ := exists_of_map_ok h
    cases hf

theorem lt_limit_of_number {s rest : Source} {n : Nat} (h : number s = .ok (.natural n, rest)) :
    n < Word.limit := by
  unfold number at h
  split at h
  · cases h
  · next l r hl =>
    obtain ⟨m, hm, heq⟩ := exists_of_map_ok h
    cases heq
    exact l.lt_limit hm

end GrowBuffer.Json
