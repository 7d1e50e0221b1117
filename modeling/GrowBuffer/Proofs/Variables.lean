import GrowBuffer.Config.Environment
import GrowBuffer.Proofs.Documents

/-! # Configurations from variables

A variable tells a size when its value is decimal digits, at least one, with or without a plus
sign, and their number is a size. With any other bytes it might as well not be set. Each of the
two variables decides its own field, so every configuration that is of use is read back from its
numbers in decimal.
-/

namespace GrowBuffer.Config
open Bytes Json

/-- A number as a variable may tell it. -/
structure NumberText where
  plus : Bool
  digits : Digits

namespace NumberText

def chars (t : NumberText) : List Char := (if t.plus then ['+'] else []) ++ t.digits.chars

def bytes (t : NumberText) : ByteArray := (String.ofList t.chars).toUTF8

/-- What the digits are worth. -/
def worth (t : NumberText) : Nat := Nat.ofDigitChars 10 t.digits.chars 0

end NumberText

section Digits

theorem isDigit_iff {c : Char} : c.isDigit = true ↔ 48 ≤ c.toNat ∧ c.toNat ≤ 57 := by
  rw [Char.isDigit, Bool.and_eq_true, decide_eq_true_iff, decide_eq_true_iff, ge_iff_le,
    UInt32.le_iff_toNat_le, UInt32.le_iff_toNat_le]
  rfl

theorem digit?_eq_some_iff {b : UInt8} {n : Nat} :
    digit? b = some n ↔ (48 ≤ b.toNat ∧ b.toNat ≤ 57) ∧ b.toNat - 48 = n := by
  rw [digit?, Option.ite_none_right_eq_some, UInt8.le_iff_toNat_le, UInt8.le_iff_toNat_le,
    Option.some.injEq]
  rfl

theorem toUInt8_ofUInt8 (b : UInt8) : (Char.ofUInt8 b).toUInt8 = b :=
  UInt8.toUInt8_toUInt32 b

theorem toList_toUTF8_ofList {cs : List Char} (h : ∀ c ∈ cs, c.toNat ≤ 127) :
    toList (String.ofList cs).toUTF8 = cs.map Char.toUInt8 := by
  rw [String.toUTF8, String.toByteArray_ofList, List.utf8Encode, toList,
    List.toList_data_toByteArray]
  induction cs with
  | nil => rfl
  | cons c cs ih =>
    obtain ⟨hc, hcs⟩ := List.forall_mem_cons.mp h
    have hsize : c.utf8Size = 1 := by
      rw [Char.utf8Size_eq_one_iff, UInt32.le_iff_toNat_le]
      exact hc
    rw [List.flatMap_cons, String.utf8EncodeChar_eq_singleton hsize, ih hcs]
    rfl

theorem digit?_toUInt8 {c : Char} (h : c.isDigit = true) :
    digit? c.toUInt8 = some (c.toNat - '0'.toNat) := by
  obtain ⟨hlow, hhigh⟩ := isDigit_iff.mp h
  have hnat : c.toUInt8.toNat = c.toNat := by
    rw [Char.toUInt8, UInt32.toNat_toUInt8]
    exact Nat.mod_eq_of_lt (show c.toNat < 256 by omega)
  rw [digit?_eq_some_iff, hnat]
  exact ⟨⟨hlow, hhigh⟩, rfl⟩

theorem isDigit_of_digit? {b : UInt8} {n : Nat} (h : digit? b = some n) :
    (Char.ofUInt8 b).isDigit = true :=
  isDigit_iff.mpr (digit?_eq_some_iff.mp h).1

theorem foldlM_digits {cs : List Char} (h : ∀ c ∈ cs, c.isDigit = true) (n : Nat) :
    (cs.map Char.toUInt8).foldlM (fun n b => (digit? b).map (10 * n + ·)) n =
      some (Nat.ofDigitChars 10 cs n) := by
  induction cs generalizing n with
  | nil => rfl
  | cons c cs ih =>
    obtain ⟨hc, hcs⟩ := List.forall_mem_cons.mp h
    rw [List.map_cons, List.foldlM_cons, digit?_toUInt8 hc, Nat.ofDigitChars_cons]
    exact ih hcs _

theorem isDigit_of_foldlM {bs : List UInt8} {n m : Nat}
    (h : bs.foldlM (fun n b => (digit? b).map (10 * n + ·)) n = some m) :
    ∀ b ∈ bs, (Char.ofUInt8 b).isDigit = true := by
  induction bs generalizing n with
  | nil => exact fun b hb => absurd hb List.not_mem_nil
  | cons b bs ih =>
    rw [List.foldlM_cons] at h
    obtain ⟨k, hk, hrest⟩ := Option.bind_eq_some_iff.mp h
    obtain ⟨d, hd, -⟩ := Option.map_eq_some_iff.mp hk
    exact List.forall_mem_cons.mpr ⟨isDigit_of_digit? hd, ih hrest⟩

theorem decimal?_digits (d : Digits) :
    decimal? (d.chars.map Char.toUInt8) = some (Nat.ofDigitChars 10 d.chars 0) := by
  rw [decimal?, if_neg (by simpa using d.ne_nil), foldlM_digits d.isDigit]

theorem exists_digits_of_decimal? {bs : List UInt8} {n : Nat} (h : decimal? bs = some n) :
    ∃ d : Digits, bs = d.chars.map Char.toUInt8 := by
  unfold decimal? at h
  split at h
  · cases h
  · next hne =>
    have hdigits := isDigit_of_foldlM h
    have hback : Char.toUInt8 ∘ Char.ofUInt8 = id := funext toUInt8_ofUInt8
    refine ⟨⟨bs.map Char.ofUInt8, by simpa using hne, by simpa using hdigits⟩, ?_⟩
    rw [List.map_map, hback, List.map_id]

end Digits

section Values

variable {value : ByteArray} {n : Nat}

theorem NumberText.toList_bytes (t : NumberText) :
    toList t.bytes = (if t.plus then [0x2B] else []) ++ t.digits.chars.map Char.toUInt8 := by
  have hdigits : ∀ c ∈ t.digits.chars, c.toNat ≤ 127 := fun c hc =>
    (isDigit_iff.mp (t.digits.isDigit c hc)).2.trans (by decide)
  have hchars : ∀ c ∈ t.chars, c.toNat ≤ 127 := by
    intro c hc
    rcases List.mem_append.mp hc with hc | hc
    · split at hc
      · rw [List.mem_singleton.mp hc]
        decide
      · exact absurd hc List.not_mem_nil
    · exact hdigits c hc
  rw [bytes, toList_toUTF8_ofList hchars, chars, List.map_append]
  cases t.plus <;> rfl

theorem NumberText.size?_bytes (t : NumberText) :
    size? t.bytes = (some t.worth).filter (· < Word.limit) := by
  rw [size?, t.toList_bytes, worth, ← decimal?_digits]
  cases t.plus with
  | true => rfl
  | false =>
    rw [if_neg Bool.false_ne_true, List.nil_append]
    split
    -- a digit would have to be a plus sign
    · next rest heq =>
      obtain ⟨c, cs, hcs, hc⟩ := t.digits.chars_eq_cons
      have hdigit := digit?_toUInt8 hc
      rw [hcs, List.map_cons] at heq
      rw [(List.cons.inj heq).1] at hdigit
      cases hdigit
    · rfl

theorem exists_text_of_size? (h : size? value = some n) : ∃ t : NumberText, value = t.bytes := by
  unfold size? at h
  have hdecimal := (Option.filter_eq_some_iff.mp h).1
  split at hdecimal
  · next rest heq =>
    obtain ⟨d, rfl⟩ := exists_digits_of_decimal? hdecimal
    refine ⟨⟨true, d⟩, ext_toList ?_⟩
    rw [heq, NumberText.toList_bytes]
    rfl
  · obtain ⟨d, hd⟩ := exists_digits_of_decimal? hdecimal
    refine ⟨⟨false, d⟩, ext_toList ?_⟩
    rw [hd, NumberText.toList_bytes]
    rfl

theorem size?_eq_some_iff :
    size? value = some n ↔ n < Word.limit ∧ ∃ t : NumberText, value = t.bytes ∧ t.worth = n := by
  constructor
  · intro h
    obtain ⟨t, rfl⟩ := exists_text_of_size? h
    rw [t.size?_bytes, Option.filter_eq_some_iff, Option.some.injEq, decide_eq_true_iff] at h
    exact ⟨h.2, t, rfl, h.1⟩
  · rintro ⟨hn, t, rfl, rfl⟩
    rw [t.size?_bytes, Option.filter_eq_some_iff]
    exact ⟨rfl, decide_eq_true hn⟩

end Values

/-- The variable is set, to the text of this size. -/
def Tells (value : Option ByteArray) (n : Nat) : Prop :=
  n < Word.limit ∧ ∃ t : NumberText, value = some t.bytes ∧ t.worth = n

section Fields

variable {value : Option ByteArray} {n : Nat} {env : Environment}

theorem bind_size?_eq_some_iff : value.bind size? = some n ↔ Tells value n := by
  cases value with
  | none => simp [Tells]
  | some b => simp only [Option.bind_some, size?_eq_some_iff, Tells, Option.some.injEq]

theorem ceiling_ofEnvironment :
    (ofEnvironment env).ceiling = some n ↔ Tells (env ceilingVariable) n :=
  bind_size?_eq_some_iff

theorem minGrowth_ofEnvironment (h : Tells (env minGrowthVariable) n) (hn : 0 < n) :
    (ofEnvironment env).minGrowth = n := by
  rw [ofEnvironment, bind_size?_eq_some_iff.mpr h, Option.filter_some, if_pos (by simpa using hn)]
  rfl

theorem minGrowth_ofEnvironment_of_untold (h : ∀ n, Tells (env minGrowthVariable) n → n = 0) :
    (ofEnvironment env).minGrowth = ({} : Config).minGrowth := by
  have hnone : ((env minGrowthVariable).bind size?).filter (0 < ·) = none := by
    rw [Option.filter_eq_none_iff]
    intro n hn
    rw [h n (bind_size?_eq_some_iff.mp hn)]
    decide
  rw [ofEnvironment, hnone, Option.getD_none]

theorem tells_toString (hn : n < Word.limit) : Tells (some (toString n).toUTF8) n := by
  refine ⟨hn, ⟨false, (Figure.ofNat n).whole⟩, ?_, Nat.ofDigitChars_ten_toDigits⟩
  rw [NumberText.bytes, NumberText.chars, if_neg Bool.false_ne_true, List.nil_append,
    Nat.toString_eq_repr, Nat.repr_eq_ofList_toDigits]
  rfl

end Fields

/-- Whatever the variables are set to, the configuration is valid, and each field is told by its
own variable: the minimum as long as that tells more than zero, the ceiling in any case. A
configuration is read from the decimal texts of its numbers, the ceiling unset if there is
none. -/
theorem ofEnvironment_told (env : Environment) :
    let cfg := ofEnvironment env
    cfg.validate = .ok () ∧
      (∀ n, Tells (env minGrowthVariable) n → 0 < n → cfg.minGrowth = n) ∧
      ((∀ n, Tells (env minGrowthVariable) n → n = 0) →
        cfg.minGrowth = ({} : Config).minGrowth) ∧
      (∀ n, cfg.ceiling = some n ↔ Tells (env ceilingVariable) n) ∧
      (∀ env', env' minGrowthVariable = env minGrowthVariable →
        (ofEnvironment env').minGrowth = cfg.minGrowth) ∧
      (∀ env', env' ceilingVariable = env ceilingVariable →
        (ofEnvironment env').ceiling = cfg.ceiling) ∧
      ∀ given : Config, given.validate = .ok () → given.Sized →
        env minGrowthVariable = some (toString given.minGrowth).toUTF8 →
        env ceilingVariable = given.ceiling.map (fun c => (toString c).toUTF8) →
        cfg = given := by
  intro cfg
  refine ⟨validate_eq_ok_iff.mpr (zero_lt_minGrowth_ofEnvironment env),
    fun n => minGrowth_ofEnvironment, minGrowth_ofEnvironment_of_untold,
    fun n => ceiling_ofEnvironment, fun env' henv => ?_, fun env' henv => ?_, ?_⟩
  · simp only [cfg, ofEnvironment, henv]
  · simp only [cfg, ofEnvironment, henv]
  · intro given hvalid hsized hmin hceil
    have hgrowth : cfg.minGrowth = given.minGrowth :=
      minGrowth_ofEnvironment (hmin ▸ tells_toString hsized.minGrowth)
        (validate_eq_ok_iff.mp hvalid)
    have hceiling : cfg.ceiling = given.ceiling := by
      cases hc : given.ceiling with
      | none =>
        rw [hc] at hceil
        simp only [cfg, ofEnvironment, hceil]
        rfl
      | some c =>
        rw [hc] at hceil
        exact ceiling_ofEnvironment.mpr (hceil ▸ tells_toString (hsized.ceiling c hc))
    obtain ⟨minGrowth, ceiling⟩ := given
    exact congrArg₂ Config.mk hgrowth hceiling

/-- A plus sign and a zero in front change nothing, a plus sign alone tells nothing, and a
configuration without a ceiling is read back. -/
theorem ofEnvironment_told_signed :
    let text : NumberText := ⟨true, ⟨['0', '6', '4'], by decide, by simp⟩⟩
    let both (growth : ByteArray) (ceiling : Option ByteArray) : Environment := fun name =>
      if name = minGrowthVariable then some growth else ceiling
    text.bytes = ⟨#[0x2B, 0x30, 0x36, 0x34]⟩ ∧
      (ofEnvironment (both text.bytes none)).minGrowth = 64 ∧
      (ofEnvironment (both "+".toUTF8 (some text.bytes))).minGrowth = 8192 ∧
      (ofEnvironment (both "+".toUTF8 (some text.bytes))).ceiling = some 64 ∧
      ofEnvironment (both (toString 64).toUTF8 none) = ⟨64, none⟩ := by
  intro text both
  have htext : Tells (some text.bytes) 64 := ⟨by decide, text, rfl, by decide⟩
  have hplus : ∀ n, Tells (some "+".toUTF8) n → n = 0 := by
    intro n hn
    have hnone : size? "+".toUTF8 = none := by decide +kernel
    rw [← bind_size?_eq_some_iff, Option.bind_some, hnone] at hn
    cases hn
  have hsized : Sized ⟨64, none⟩ :=
    ⟨by decide, fun c hc => absurd hc (Option.not_mem_none c)⟩
  obtain ⟨-, hmin, -⟩ := ofEnvironment_told (both text.bytes none)
  obtain ⟨-, -, hunset, hceil, -⟩ := ofEnvironment_told (both "+".toUTF8 (some text.bytes))
  obtain ⟨-, -, -, -, -, -, hback⟩ := ofEnvironment_told (both (toString 64).toUTF8 none)
  exact ⟨by decide +kernel, hmin 64 htext (by decide), hunset hplus, (hceil 64).mpr htext,
    hback ⟨64, none⟩ rfl hsized rfl rfl⟩

end GrowBuffer.Config
