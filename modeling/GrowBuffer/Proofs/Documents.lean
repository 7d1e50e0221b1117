import GrowBuffer.Config.Display
import GrowBuffer.Config.Document
import GrowBuffer.Proofs.Lexemes
import Mathlib.Data.List.DropRight

/-! # Configurations and their documents

A configuration whose numbers are sizes is read back from its document, wherever blanks stand in
it, and from a list of its numbers. What is read from any document has numbers that are sizes, so
it can be written and read again.
-/

namespace GrowBuffer.Config
open Json

/-- The lexemes of a configuration as a list of its numbers. -/
def listLexemes (cfg : Config) : List String :=
  ["[", toString cfg.minGrowth, ",", (cfg.ceiling.map toString).getD "null", "]"]

/-- The numbers are sizes. -/
structure Sized (cfg : Config) : Prop where
  minGrowth : cfg.minGrowth < Word.limit
  ceiling : ∀ c ∈ cfg.ceiling, c < Word.limit

/-- The key of a member, in its quotes. -/
def Field.lexeme (field : Field) : String := "\"" ++ field.name ++ "\""

theorem Field.toList_lexeme (field : Field) :
    field.lexeme.toList = '"' :: (field.name.toList ++ ['"']) := by
  cases field <;> rfl

theorem Field.text_name (field : Field) (rest : Source) :
    text (field.name.toList ++ ['"'] ++ rest) = .ok (field.name.toList, rest) := by
  have hplain : field.name.toList.all isPlain = true := by
    cases field <;> rfl
  rw [List.append_assoc]
  exact text_plain hplain rest

theorem Field.named?_name (field : Field) : Field.named? field.name = some field := by
  cases field <;> rfl

namespace Document

section Read

variable {g : Given} {field : Field} {first : Bool} {n : Nat} {c : Char} {l : String}
  {ls : List String} {cs s t rest : Source}

theorem size_skipBlank (s : Source) : size (skipBlank s) = size s := by
  have hskip : skipBlank (skipBlank s) = skipBlank s := List.dropWhile_idempotent isBlank s
  simp only [size, hskip]

theorem size_spaced (hn : n < Word.limit) (hls : Closes ls) (h : Spaced (toString n :: ls) s) :
    ∃ rest, size s = .ok (n, rest) ∧ Spaced ls rest := by
  obtain ⟨rest, hs, hrest⟩ := h.skipBlank_toString
  refine ⟨rest, ?_, hrest⟩
  simp only [size, hs, startsNumber_toDigits, number_toDigits hn (hls rest hrest)]
  rfl

theorem optionalSize_spaced {m : Option Nat} (hm : ∀ n ∈ m, n < Word.limit) (hls : Closes ls)
    (h : Spaced ((m.map toString).getD "null" :: ls) s) :
    ∃ rest, optionalSize s = .ok (m, rest) ∧ Spaced ls rest := by
  cases m with
  | none =>
    obtain ⟨rest, hs, hrest⟩ := h.skipBlank rfl rfl
    refine ⟨rest, ?_, hrest⟩
    simp only [optionalSize, hs]
    rfl
  | some n =>
    obtain ⟨rest, hsize, hrest⟩ := size_spaced (hm n rfl) hls h
    refine ⟨rest, ?_, hrest⟩
    -- the reader looks for the word first, so the digit has to tell itself from its letter
    obtain ⟨t, hs, -⟩ := h.skipBlank_toString
    obtain ⟨d, ds, hds, hd⟩ := toDigits_eq_cons n
    rw [hds, List.cons_append] at hs
    have hne : d ≠ 'n' := by
      rintro rfl
      cases hd
    have hagain : size (d :: (ds ++ t)) = .ok (n, rest) := by
      rw [← hs, size_skipBlank, hsize]
    simp [optionalSize, hs, hagain, hne, bind, Except.bind]

theorem another_key (hl : l.toList = '"' :: cs) (h : Spaced (comma first ++ l :: ls) s) :
    ∃ rest, another first s = .ok (true, cs ++ rest) ∧ Spaced ls rest := by
  cases first with
  | true =>
    obtain ⟨rest, hs, hrest⟩ := h.skipBlank hl rfl
    refine ⟨rest, ?_, hrest⟩
    rw [another, hs]
    rfl
  | false =>
    obtain ⟨rest, hs, hrest⟩ := h.skipBlank_mark (c := ',') rfl rfl
    obtain ⟨rest', hs', hrest'⟩ := hrest.skipBlank hl rfl
    refine ⟨rest', ?_, hrest'⟩
    simp [another, hs, hs']

theorem another_end (first : Bool) (h : Spaced ("\x7d" :: ls) s) :
    ∃ rest, another first s = .ok (false, rest) ∧ Spaced ls rest := by
  obtain ⟨rest, hs, hrest⟩ := h.skipBlank_mark (c := '\x7d') rfl rfl
  refine ⟨rest, ?_, hrest⟩
  simp [another, hs]

theorem member_field (htext : text t = .ok (field.name.toList, s)) (hg : g.has field = false)
    (h : Spaced (":" :: ls) s) :
    ∃ rest, member g t = value g field rest ∧ Spaced ls rest := by
  obtain ⟨rest, hs, hrest⟩ := h.colon
  refine ⟨rest, ?_, hrest⟩
  simp [member, htext, checked, Field.named?_name, hg, hs, bind, Except.bind]

theorem members_end (ha : another first s = .ok (false, rest)) :
    members g first s = .ok (g, rest) := by
  rw [members]
  split <;> simp_all

theorem members_more (ha : another first s = .ok (true, rest)) :
    members g first s = member g rest >>= fun read => members read.1 false read.2 := by
  rw [members]
  split
  · simp_all
  · simp_all
  · next h =>
    cases ha.symm.trans h
    split
    · next hm =>
      rw [hm]
      rfl
    · next g' rest' hm =>
      change members g' false rest' = _
      rw [hm]
      rfl

theorem members_field (field : Field) (first : Bool) (hl : l.toList = '"' :: cs)
    (htext : ∀ rest, text (cs ++ rest) = .ok (field.name.toList, rest)) (hg : g.has field = false)
    (h : Spaced (comma first ++ l :: ":" :: ls) s) :
    ∃ rest, Spaced ls rest ∧
      members g first s = value g field rest >>= fun read => members read.1 false read.2 := by
  obtain ⟨t, ha, ht⟩ := another_key hl h
  obtain ⟨rest, hm, hrest⟩ := member_field (htext t) hg ht
  exact ⟨rest, hrest, by rw [members_more ha, hm]⟩

theorem value_minGrowth (h : size s = .ok (n, rest)) :
    value g .minGrowth s = .ok ({ g with minGrowth := some n }, rest) := by
  simp [value, h, bind, Except.bind]

theorem value_ceiling {m : Option Nat} (h : optionalSize s = .ok (m, rest)) :
    value g .ceiling s = .ok ({ g with ceiling := some m }, rest) := by
  simp [value, h, bind, Except.bind]

theorem given_object {cfg : Config} (hcfg : cfg.Sized) (h : Spaced cfg.lexemes s) :
    given s = .ok ⟨some cfg.minGrowth, some cfg.ceiling⟩ := by
  obtain ⟨t, hopen, ht⟩ := h.skipBlank_mark (c := '\x7b') rfl rfl
  obtain ⟨t₁, h₁, hmin⟩ := members_field (g := {}) .minGrowth true (Field.toList_lexeme _)
    (Field.text_name _) rfl ht
  obtain ⟨t₂, hsize, h₂⟩ := size_spaced hcfg.minGrowth (closes_mark (c := ',') rfl rfl) h₁
  obtain ⟨t₃, h₃, hceil⟩ := members_field (g := ⟨some cfg.minGrowth, none⟩) .ceiling false
    (Field.toList_lexeme _) (Field.text_name _) rfl h₂
  obtain ⟨t₄, hopt, h₄⟩ := optionalSize_spaced hcfg.ceiling (closes_mark (c := '\x7d') rfl rfl) h₃
  obtain ⟨t₅, hend, h₅⟩ := another_end false h₄
  have hmembers : members {} true t = .ok (⟨some cfg.minGrowth, some cfg.ceiling⟩, t₅) := by
    rw [hmin, value_minGrowth hsize]
    refine hceil.trans ?_
    rw [value_ceiling hopt]
    exact members_end hend
  simp [given, hopen, hmembers, h₅.skipBlank_nil, bind, Except.bind]

theorem nextElement_spaced (first : Bool) (hl : l.toList = c :: cs) (hb : isBlank c = false)
    (hc : c ≠ ']') (h : Spaced (comma first ++ l :: ls) s) :
    ∃ rest, nextElement first s = .ok (some rest) ∧ Spaced (l :: ls) rest := by
  cases first with
  | true =>
    obtain ⟨rest, hs, -⟩ := h.skipBlank hl hb
    refine ⟨s, ?_, h⟩
    simp [nextElement, hs]
  | false =>
    obtain ⟨rest, hs, hrest⟩ := h.skipBlank_mark (c := ',') rfl rfl
    obtain ⟨rest', hs', -⟩ := hrest.skipBlank hl hb
    refine ⟨rest, ?_, hrest⟩
    simp [nextElement, hs, hs']

theorem endOfList_spaced (h : Spaced ("]" :: ls) s) :
    ∃ rest, endOfList s = .ok rest ∧ Spaced ls rest := by
  obtain ⟨rest, hs, hrest⟩ := h.skipBlank_mark (c := ']') rfl rfl
  refine ⟨rest, ?_, hrest⟩
  simp [endOfList, hs]

/-- A number is not taken for blanks, nor for the end of a list. -/
theorem toList_toString_eq_cons (n : Nat) :
    ∃ d ds, (toString n).toList = d :: ds ∧ isBlank d = false ∧ d ≠ ']' := by
  obtain ⟨d, ds, hds, hd⟩ := toDigits_eq_cons n
  refine ⟨d, ds, (toList_toString n).trans hds, isBlank_of_isDigit hd, ?_⟩
  rintro rfl
  cases hd

theorem toList_ceiling_eq_cons (m : Option Nat) :
    ∃ d ds, ((m.map toString).getD "null").toList = d :: ds ∧ isBlank d = false ∧ d ≠ ']' := by
  cases m with
  | none => exact ⟨'n', ['u', 'l', 'l'], rfl, rfl, by decide⟩
  | some n => exact toList_toString_eq_cons n

theorem given_list {cfg : Config} (hcfg : cfg.Sized) (h : Spaced cfg.listLexemes s) :
    given s = .ok ⟨some cfg.minGrowth, some cfg.ceiling⟩ := by
  obtain ⟨t, hopen, ht⟩ := h.skipBlank_mark (c := '[') rfl rfl
  obtain ⟨d, ds, hds, hd, hd'⟩ := toList_toString_eq_cons cfg.minGrowth
  obtain ⟨e, es, hes, he, he'⟩ := toList_ceiling_eq_cons cfg.ceiling
  obtain ⟨t₁, hfirst, h₁⟩ := nextElement_spaced true hds hd hd' ht
  obtain ⟨t₂, hsize, h₂⟩ := size_spaced hcfg.minGrowth (closes_mark (c := ',') rfl rfl) h₁
  obtain ⟨t₃, hnext, h₃⟩ := nextElement_spaced false hes he he' h₂
  obtain ⟨t₄, hopt, h₄⟩ := optionalSize_spaced hcfg.ceiling (closes_mark (c := ']') rfl rfl) h₃
  obtain ⟨t₅, hend, h₅⟩ := endOfList_spaced h₄
  have helements : elements t = .ok (⟨some cfg.minGrowth, some cfg.ceiling⟩, t₅) := by
    simp [elements, element, hfirst, hsize, hnext, hopt, hend, checked, bind, Except.bind]
  simp [given, hopen, helements, h₅.skipBlank_nil, bind, Except.bind]

end Read

section Sizes

variable {g g' : Given} {s rest : Source}

theorem lt_limit_of_size {n : Nat} (h : size s = .ok (n, rest)) : n < Word.limit := by
  simp only [size] at h
  split at h
  · obtain ⟨⟨m, t⟩, hm, ht⟩ := exists_of_bind_ok h
    cases m with
    | natural m =>
      cases ht
      exact lt_limit_of_number (checked_eq_ok hm)
    | negative m => cases ht
    | floating f => cases ht
  · cases h

theorem lt_limit_of_optionalSize {m : Option Nat} (h : optionalSize s = .ok (m, rest)) :
    ∀ n ∈ m, n < Word.limit := by
  rintro n rfl
  simp only [optionalSize] at h
  split at h
  · obtain ⟨t, -, ht⟩ := exists_of_bind_ok h
    cases ht
  · obtain ⟨⟨k, t⟩, hk, ht⟩ := exists_of_bind_ok h
    cases ht
    exact lt_limit_of_size hk

/-- All numbers that are given are sizes. -/
structure SizesOnly (g : Given) : Prop where
  minGrowth : ∀ n ∈ g.minGrowth, n < Word.limit
  ceiling : ∀ m ∈ g.ceiling, ∀ n ∈ m, n < Word.limit

theorem SizesOnly.value {field : Field} (hg : SizesOnly g)
    (h : Document.value g field s = .ok (g', rest)) : SizesOnly g' := by
  cases field with
  | minGrowth =>
    obtain ⟨⟨n, t⟩, hn, ht⟩ := exists_of_bind_ok h
    cases ht
    refine ⟨fun k hk => ?_, hg.ceiling⟩
    cases hk
    exact lt_limit_of_size hn
  | ceiling =>
    obtain ⟨⟨m, t⟩, hm, ht⟩ := exists_of_bind_ok h
    cases ht
    refine ⟨hg.minGrowth, fun k hk => ?_⟩
    cases hk
    exact lt_limit_of_optionalSize hm

theorem SizesOnly.member (hg : SizesOnly g) (h : Document.member g s = .ok (g', rest)) :
    SizesOnly g' := by
  obtain ⟨⟨key, t⟩, -, ht⟩ := exists_of_bind_ok h
  simp only at ht
  split at ht
  · obtain ⟨u, -, hu⟩ := exists_of_bind_ok ht
    cases hu
    exact hg
  · split at ht
    · cases ht
    · obtain ⟨u, -, hu⟩ := exists_of_bind_ok ht
      exact hg.value hu

theorem SizesOnly.members {first : Bool} (hg : SizesOnly g)
    (h : Document.members g first s = .ok (g', rest)) : SizesOnly g' := by
  -- along the members; what is given before one of them is given behind it, too
  fun_induction Document.members g first s with
  | case1 => cases h
  | case2 =>
    cases h
    exact hg
  | case3 => cases h
  | case4 g first s t ha g₁ t₁ hm _ _ ih => exact ih (hg.member hm) h

theorem exists_read_of_element {α : Type} {read : Source → Except Rejection (α × Source)}
    {first : Bool} {a : Option α} (h : element read first s = .ok (a, rest)) :
    ∀ x ∈ a, ∃ t, read t = .ok (x, rest) := by
  obtain ⟨t?, -, ht⟩ := exists_of_bind_ok h
  cases t? with
  | none =>
    cases ht
    intro x hx
    cases hx
  | some t =>
    obtain ⟨⟨b, u⟩, hu, hb⟩ := exists_of_bind_ok ht
    cases hb
    intro x hx
    cases hx
    exact ⟨t, hu⟩

theorem sizesOnly_elements (h : elements s = .ok (g, rest)) : SizesOnly g := by
  obtain ⟨⟨n, t⟩, hn, h⟩ := exists_of_bind_ok h
  obtain ⟨⟨m, u⟩, hm, h⟩ := exists_of_bind_ok h
  obtain ⟨v, -, h⟩ := exists_of_bind_ok h
  cases h
  constructor
  · intro k hk
    obtain ⟨t', ht'⟩ := exists_read_of_element hn k hk
    exact lt_limit_of_size ht'
  · intro k hk
    obtain ⟨u', hu'⟩ := exists_read_of_element hm k hk
    exact lt_limit_of_optionalSize hu'

theorem exists_read_of_given (h : given s = .ok g) :
    ∃ t rest, members {} true t = .ok (g, rest) ∨ elements t = .ok (g, rest) := by
  simp only [given] at h
  split at h
  · obtain ⟨⟨g', rest⟩, hread, h⟩ := exists_of_bind_ok h
    obtain ⟨-, rfl⟩ := of_ite_eq_ok h
    exact ⟨_, rest, .inl hread⟩
  · obtain ⟨⟨g', rest⟩, hread, h⟩ := exists_of_bind_ok h
    obtain ⟨-, rfl⟩ := of_ite_eq_ok h
    exact ⟨_, rest, .inr hread⟩
  · cases h

theorem sizesOnly_given (h : given s = .ok g) : SizesOnly g := by
  obtain ⟨t, rest, hread | hread⟩ := exists_read_of_given h
  · exact SizesOnly.members ⟨by simp, by simp⟩ hread
  · exact sizesOnly_elements hread

end Sizes

end Document

theorem Document.SizesOnly.sized {g : Given} (h : SizesOnly g) : g.config.Sized := by
  obtain ⟨n?, m?⟩ := g
  constructor
  · cases n? with
    | none => exact (by decide : 8192 < Word.limit)
    | some n => exact h.minGrowth n rfl
  · cases m? with
    | none => exact nofun
    | some m => exact h.ceiling m rfl

theorem ofDocument_of_given {doc : String} {g : Given}
    (h : Document.given doc.toList = .ok g) :
    (0 < g.config.minGrowth → ofDocument doc = .ok g.config) ∧
      (g.config.minGrowth = 0 → ofDocument doc = .error (.flawed .zeroMinGrowth)) := by
  constructor
  · intro hn
    simp [ofDocument, h, validate_eq_ok_iff.mpr hn, bind, Except.bind]
  · intro hn
    have hv : g.config.validate = .error .zeroMinGrowth := if_pos hn
    simp [ofDocument, h, hv, bind, Except.bind]

theorem ofDocument_of_not_given {doc : String} {r : Rejection}
    (h : Document.given doc.toList = .error r) : ofDocument doc = .error r := by
  rw [ofDocument, h]
  rfl

theorem sized_of_ofDocument {doc : String} {cfg : Config} (h : ofDocument doc = .ok cfg) :
    cfg.Sized ∧ cfg.validate = .ok () := by
  obtain ⟨g, hg, h⟩ := exists_of_bind_ok h
  simp only at h
  split at h
  · next hv =>
    cases h
    exact ⟨(Document.sizesOnly_given hg).sized, hv⟩
  · cases h

/-- A configuration whose numbers are sizes is read back from every text of its lexemes as an
object or as a list, whatever blanks stand between them, unless its smallest growth is zero: then
it is turned down for that. The document is such a text. Whatever is read from any document is
valid, and is read again from its own document. -/
theorem ofDocument_spaced (cfg : Config) :
    (cfg.Sized → ∀ doc : String, Spaced cfg.lexemes doc.toList ∨ Spaced cfg.listLexemes doc.toList →
      (0 < cfg.minGrowth → ofDocument doc = .ok cfg) ∧
        (cfg.minGrowth = 0 → cfg.validate = .error .zeroMinGrowth ∧
          ofDocument doc = .error (.flawed .zeroMinGrowth))) ∧
      Spaced cfg.lexemes cfg.document.toList ∧
      Spaced cfg.listLexemes (String.join cfg.listLexemes).toList ∧
      ∀ doc : String, ofDocument doc = .ok cfg →
        cfg.validate = .ok () ∧ ofDocument cfg.document = .ok cfg := by
  have hread (hcfg : cfg.Sized) (doc : String)
      (h : Spaced cfg.lexemes doc.toList ∨ Spaced cfg.listLexemes doc.toList) :
      Document.given doc.toList = .ok ⟨some cfg.minGrowth, some cfg.ceiling⟩ := by
    rcases h with h | h
    · exact Document.given_object hcfg h
    · exact Document.given_list hcfg h
  refine ⟨fun hcfg doc h => ?_, spaced_join _, spaced_join _, fun doc h => ?_⟩
  · obtain ⟨hvalid, hzero⟩ := ofDocument_of_given (hread hcfg doc h)
    exact ⟨hvalid, fun hn => ⟨if_pos hn, hzero hn⟩⟩
  · obtain ⟨hcfg, hvalid⟩ := sized_of_ofDocument h
    exact ⟨hvalid, (ofDocument_of_given (hread hcfg cfg.document (.inl (spaced_join _)))).1
      (validate_eq_ok_iff.mp hvalid)⟩

/-- The largest size and a ceiling of zero, with blanks of all four kinds between them. A list
that begins with zero is turned down. -/
theorem ofDocument_spaced_largest :
    let cfg : Config := ⟨18446744073709551615, some 0⟩
    let doc := "\t\x7b\"min_growth\" :18446744073709551615,\n\"max_alloc_bytes\": 0\r\x7d "
    ofDocument doc = .ok cfg ∧ ofDocument cfg.document = .ok cfg ∧
      ofDocument "[ 0,null]" = .error (.flawed .zeroMinGrowth) := by
  intro cfg doc
  have hcfg : cfg.Sized := ⟨by decide, by decide⟩
  have hdoc : Spaced cfg.lexemes doc.toList := by
    dsimp only [cfg, doc]
    exact .blank '\t' rfl <| .lexeme _ <| .lexeme _ <| .blank ' ' rfl <| .lexeme _ <| .lexeme _ <|
      .lexeme _ <| .blank '\n' rfl <| .lexeme _ <| .lexeme _ <| .blank ' ' rfl <| .lexeme _ <|
      .blank '\r' rfl <| .lexeme _ <| .blank ' ' rfl .nil
  have hlist : Spaced (listLexemes ⟨0, none⟩) "[ 0,null]".toList :=
    .lexeme _ <| .blank ' ' rfl <| .lexeme _ <| .lexeme _ <| .lexeme _ <| .lexeme _ .nil
  have hread : ofDocument doc = .ok cfg :=
    ((ofDocument_spaced cfg).1 hcfg doc (.inl hdoc)).1 (by decide)
  exact ⟨hread, ((ofDocument_spaced cfg).2.2.2 doc hread).2,
    (((ofDocument_spaced ⟨0, none⟩).1 ⟨by decide, nofun⟩ _ (.inr hlist)).2 rfl).2⟩

end GrowBuffer.Config
