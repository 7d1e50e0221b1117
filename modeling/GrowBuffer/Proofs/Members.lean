import GrowBuffer.Proofs.Documents
import GrowBuffer.Proofs.Skipping

/-! # Only named members count

What an object document gives depends on the values of its two named members, not on its members
of other names and not on the order of the members. Along the members a field waits for its value
until a member of its name comes. When a second one comes the document is turned down.
-/

namespace GrowBuffer.Config
open Json

/-- A member with a key that stands for a name. -/
structure Member where
  key : List Glyph
  name : String
  named : meaning? key = some name.toList
  value : Value

def Member.entry (m : Member) : List Glyph × Value := (m.key, m.value)

def objectOf (ms : List Member) : Value := .object (ms.map Member.entry)

theorem Field.name_injective : Function.Injective Field.name := by
  intro field field' h
  cases field <;> cases field' <;> first | rfl | exact absurd h (by decide)

theorem Field.named?_eq_some_iff {field : Field} {name : String} :
    Field.named? name = some field ↔ name = field.name := by
  constructor
  · intro h
    have hname := List.find?_some h
    exact (beq_iff_eq.mp hname).symm
  · rintro rfl
    exact field.named?_name

theorem Field.ne_name_of_named?_eq_none {name : String} (h : Field.named? name = none)
    (field : Field) : name ≠ field.name := by
  rintro rfl
  cases h.symm.trans field.named?_name

/-- The values that the members give to a field, in their order. -/
def valuesOf (field : Field) (ms : List Member) : List Value :=
  (ms.filter (·.name == field.name)).map Member.value

section Values

variable {field : Field} {m : Member} {ms ms' : List Member}

theorem valuesOf_cons_of_name (h : m.name = field.name) :
    valuesOf field (m :: ms) = m.value :: valuesOf field ms := by
  simp [valuesOf, h]

theorem valuesOf_cons_of_ne (h : m.name ≠ field.name) :
    valuesOf field (m :: ms) = valuesOf field ms := by
  simp [valuesOf, h]

theorem valuesOf_perm (h : ms'.Perm ms) : (valuesOf field ms').Perm (valuesOf field ms) :=
  (h.filter _).map _

theorem valuesOf_append_others {others : List Member} (h : ∀ o ∈ others, o.name ≠ field.name) :
    valuesOf field (ms ++ others) = valuesOf field ms := by
  have hnone : others.filter (·.name == field.name) = [] :=
    List.filter_eq_nil_iff.mpr fun o ho => mt beq_iff_eq.mp (h o ho)
  rw [valuesOf, List.filter_append, hnone, List.append_nil, valuesOf]

end Values

/-- The members give a field at most one value, and that is a size or, for the ceiling, null. -/
structure Gives (ms : List Member) (g : Given) : Prop where
  minGrowth : valuesOf .minGrowth ms = (g.minGrowth.map Value.ofSize).toList
  ceiling : valuesOf .ceiling ms = (g.ceiling.map Value.ofOptionalSize).toList
  sizes : Document.SizesOnly g

theorem eq_toList_of_perm {α : Type} {l : List α} {a : Option α} (h : l.Perm a.toList) :
    l = a.toList := by
  cases a with
  | none => exact h.eq_nil
  | some a => exact List.perm_singleton.mp h

theorem Gives.of_perm {ms ms' others : List Member} {g : Given} (h : Gives ms g)
    (hothers : ∀ o ∈ others, ∀ field : Field, o.name ≠ field.name)
    (hperm : ms'.Perm (ms ++ others)) : Gives ms' g := by
  have hvalues (field : Field) : (valuesOf field ms').Perm (valuesOf field ms) := by
    have hsame : valuesOf field (ms ++ others) = valuesOf field ms :=
      valuesOf_append_others fun o ho => hothers o ho field
    exact hsame ▸ valuesOf_perm hperm
  refine ⟨?_, ?_, h.sizes⟩
  · exact eq_toList_of_perm (h.minGrowth ▸ hvalues .minGrowth)
  · exact eq_toList_of_perm (h.ceiling ▸ hvalues .ceiling)

/-- What a field holds in the end it holds already and no value comes, or it holds nothing yet and
at most this value comes. -/
def Awaits {α : Type} (form : α → Value) (vs : List Value) (now later : Option α) : Prop :=
  now = none ∧ vs = (later.map form).toList ∨ now = later ∧ vs = []

theorem Awaits.nil {α : Type} {form : α → Value} {now later : Option α}
    (h : Awaits form [] now later) : now = later := by
  rcases h with ⟨rfl, hvs⟩ | ⟨rfl, -⟩
  · cases later with
    | none => rfl
    | some a => cases hvs
  · rfl

theorem Awaits.cons {α : Type} {form : α → Value} {v : Value} {vs : List Value}
    {now later : Option α} (h : Awaits form (v :: vs) now later) :
    ∃ a, now = none ∧ later = some a ∧ v = form a ∧ vs = [] := by
  rcases h with ⟨rfl, hvs⟩ | ⟨-, hvs⟩
  · cases later with
    | none => cases hvs
    | some a =>
      cases hvs
      exact ⟨a, rfl, rfl, rfl, rfl⟩
  · cases hvs

/-- In the end everything is given that these members have to give. -/
structure Document.Awaited (ms : List Member) (now later : Given) : Prop where
  minGrowth : Awaits Value.ofSize (valuesOf .minGrowth ms) now.minGrowth later.minGrowth
  ceiling : Awaits Value.ofOptionalSize (valuesOf .ceiling ms) now.ceiling later.ceiling
  sizes : SizesOnly later

theorem Gives.awaited {ms : List Member} {g : Given} (h : Gives ms g) : Document.Awaited ms {} g :=
  ⟨.inl ⟨rfl, h.minGrowth⟩, .inl ⟨rfl, h.ceiling⟩, h.sizes⟩

namespace Document

section Steps

variable {m : Member} {field : Field} {g g' : Given} {first : Bool} {n : Nat} {ls : List String}
  {s t rest : Source}

theorem skipValue_of_size (h : size s = .ok (n, rest)) : skipValue s = .ok rest := by
  simp only [size] at h
  split at h
  · next hstarts =>
    obtain ⟨⟨x, t⟩, hx, ht⟩ := exists_of_bind_ok h
    have hrest : t = rest := by
      cases x <;> cases ht
      rfl
    subst hrest
    have hnumber := checked_eq_ok hx
    unfold number at hnumber
    split at hnumber
    · cases hnumber
    · next l t' hl =>
      obtain ⟨y, -, hy⟩ := exists_of_map_ok hnumber
      cases hy
      apply skipValue_scalar
      rw [skipScalar_of_startsNumber hstarts, numeral_of_ok hl]
      rfl
  · cases h

theorem skipValue_of_optionalSize {m : Option Nat} (h : optionalSize s = .ok (m, rest)) :
    skipValue s = .ok rest := by
  simp only [optionalSize] at h
  split at h
  · next t hs =>
    obtain ⟨t', hword, ht'⟩ := exists_of_bind_ok h
    cases ht'
    apply skipValue_scalar
    rw [hs]
    exact checked_eq_ok hword
  · obtain ⟨⟨k, t⟩, hk, ht⟩ := exists_of_bind_ok h
    cases ht
    exact skipValue_of_size (size_skipBlank s ▸ hk)

/-- What is read as the value of a field is one value. -/
theorem skipValue_of_value (h : value g field s = .ok (g', rest)) : skipValue s = .ok rest := by
  cases field with
  | minGrowth =>
    obtain ⟨⟨k, t⟩, hk, ht⟩ := exists_of_bind_ok h
    cases ht
    exact skipValue_of_size hk
  | ceiling =>
    obtain ⟨⟨k, t⟩, hk, ht⟩ := exists_of_bind_ok h
    cases ht
    exact skipValue_of_optionalSize hk

theorem spaced_of_value {v : Value} (hls : Closes ls) (h : Spaced (v.lexemes ++ ls) s)
    (hv : value g field s = .ok (g', rest)) : Spaced ls rest := by
  obtain ⟨t, hskip, ht⟩ := skipValue_spaced v hls h
  cases hskip.symm.trans (skipValue_of_value hv)
  exact ht

theorem has_of_value {field' : Field} (h : value g field' s = .ok (g', rest)) (field : Field) :
    g'.has field = (g.has field || field == field') := by
  cases field' with
  | minGrowth =>
    obtain ⟨⟨k, t⟩, -, ht⟩ := exists_of_bind_ok h
    cases ht
    cases field <;> simp [Given.has]
  | ceiling =>
    obtain ⟨⟨k, t⟩, -, ht⟩ := exists_of_bind_ok h
    cases ht
    cases field <;> simp [Given.has]

theorem members_other (hm : Field.named? m.name = none) (hls : Closes ls)
    (h : Spaced (comma first ++ textLexeme m.key :: ":" :: (m.value.lexemes ++ ls)) s) :
    ∃ rest, members g first s = members g false rest ∧ Spaced ls rest := by
  obtain ⟨t, ha, ht⟩ := another_key (toList_textLexeme m.key) h
  obtain ⟨u, hcolon, hu⟩ := ht.colon
  obtain ⟨rest, hskip, hrest⟩ := skipValue_spaced m.value hls hu
  refine ⟨rest, ?_, hrest⟩
  have hmember : member g (glyphChars m.key ++ t) = .ok (g, rest) := by
    simp [member, text_glyphChars m.named, checked, hm, hcolon, hskip, bind, Except.bind]
  rw [members_more ha, hmember]
  rfl

theorem members_repeated (hm : m.name = field.name) (hg : g.has field = true)
    (h : Spaced (comma first ++ textLexeme m.key :: ":" :: ls) s) :
    members g first s = .error (.duplicate field) := by
  obtain ⟨t, ha, ht⟩ := another_key (toList_textLexeme m.key) h
  have hmember : member g (glyphChars m.key ++ t) = .error (.duplicate field) := by
    simp [member, text_glyphChars m.named, checked, hm, Field.named?_name, hg, bind, Except.bind]
  rw [members_more ha, hmember]
  rfl

theorem members_named (hm : m.name = field.name) (hg : g.has field = false)
    (h : Spaced (comma first ++ textLexeme m.key :: ":" :: ls) s) :
    ∃ rest, Spaced ls rest ∧
      members g first s = value g field rest >>= fun read => members read.1 false read.2 :=
  members_field field first (toList_textLexeme m.key)
    (fun rest => hm ▸ text_glyphChars m.named rest) hg h

end Steps

section Runs

variable {m : Member} {ms : List Member} {field : Field} {g g' : Given} {first : Bool}
  {ls : List String} {s : Source}

theorem Awaited.nil (h : Awaited [] g g') : g = g' := by
  obtain ⟨n?, c?⟩ := g
  obtain rfl := h.minGrowth.nil
  obtain rfl := h.ceiling.nil
  rfl

theorem Awaited.other (h : Awaited (m :: ms) g g') (hm : ∀ field : Field, m.name ≠ field.name) :
    Awaited ms g g' := by
  obtain ⟨hmin, hceil, hsizes⟩ := h
  rw [valuesOf_cons_of_ne (hm _)] at hmin hceil
  exact ⟨hmin, hceil, hsizes⟩

theorem Awaited.named (h : Awaited (m :: ms) g g') (hm : m.name = field.name) (hls : Closes ls)
    (hs : Spaced (m.value.lexemes ++ ls) s) :
    ∃ g₁ rest, value g field s = .ok (g₁, rest) ∧ Spaced ls rest ∧ Awaited ms g₁ g' := by
  obtain ⟨hmin, hceil, hsizes⟩ := h
  cases field with
  | minGrowth =>
    have hne : m.name ≠ Field.ceiling.name := by
      rw [hm]
      decide
    rw [valuesOf_cons_of_name hm] at hmin
    rw [valuesOf_cons_of_ne hne] at hceil
    obtain ⟨n, -, hlater, hv, hvs⟩ := hmin.cons
    rw [hv, Value.lexemes_ofSize] at hs
    obtain ⟨rest, hsize, hrest⟩ := size_spaced (hsizes.minGrowth n hlater) hls hs
    exact ⟨_, rest, value_minGrowth hsize, hrest, .inr ⟨hlater.symm, hvs⟩, hceil, hsizes⟩
  | ceiling =>
    have hne : m.name ≠ Field.minGrowth.name := by
      rw [hm]
      decide
    rw [valuesOf_cons_of_ne hne] at hmin
    rw [valuesOf_cons_of_name hm] at hceil
    obtain ⟨c, -, hlater, hv, hvs⟩ := hceil.cons
    rw [hv, Value.lexemes_ofOptionalSize] at hs
    obtain ⟨rest, hopt, hrest⟩ := optionalSize_spaced (hsizes.ceiling c hlater) hls hs
    exact ⟨_, rest, value_ceiling hopt, hrest, hmin, .inr ⟨hlater.symm, hvs⟩, hsizes⟩

theorem Awaited.has_eq_false (h : Awaited (m :: ms) g g') (hm : m.name = field.name) :
    g.has field = false := by
  obtain ⟨hmin, hceil, -⟩ := h
  cases field with
  | minGrowth =>
    rw [valuesOf_cons_of_name hm] at hmin
    obtain ⟨n, hnow, -⟩ := hmin.cons
    simp [Given.has, hnow]
  | ceiling =>
    rw [valuesOf_cons_of_name hm] at hceil
    obtain ⟨c, hnow, -⟩ := hceil.cons
    simp [Given.has, hnow]

/-- Members that give the fields what they wait for are read, up to those that stand behind
them. -/
theorem members_awaited {more : List Member} (ha : Awaited ms g g')
    (h : Spaced (memberLexemes first ((ms ++ more).map Member.entry) ++ ls) s) :
    ∃ first' rest, members g first s = members g' first' rest ∧
      Spaced (memberLexemes first' (more.map Member.entry) ++ ls) rest := by
  induction ms generalizing g first s with
  | nil =>
    obtain rfl := ha.nil
    exact ⟨first, s, rfl, h⟩
  | cons m ms ih =>
    rw [List.cons_append, List.map_cons, Member.entry, memberLexemes_cons_append] at h
    have hls : Closes (memberLexemes false ((ms ++ more).map Member.entry) ++ ls) :=
      closes_memberLexemes _
    cases hm : Field.named? m.name with
    | none =>
      obtain ⟨t, hstep, ht⟩ := members_other hm hls h
      obtain ⟨first', rest, hrest, hmore⟩ := ih (ha.other (Field.ne_name_of_named?_eq_none hm)) ht
      exact ⟨first', rest, hstep.trans hrest, hmore⟩
    | some field =>
      rw [Field.named?_eq_some_iff] at hm
      obtain ⟨t, ht, hstep⟩ := members_named hm (ha.has_eq_false hm) h
      obtain ⟨g₁, u, hv, hu, ha₁⟩ := ha.named hm hls ht
      rw [hv] at hstep
      obtain ⟨first', rest, hrest, hmore⟩ := ih ha₁ hu
      exact ⟨first', rest, hstep.trans hrest, hmore⟩

theorem members_twice (htwice : 2 ≤ (g.has field).toNat + (valuesOf field ms).length)
    (h : Spaced (memberLexemes first (ms.map Member.entry) ++ ls) s) :
    ∃ r, members g first s = .error r := by
  -- along the members; a field that is given counts as one of the two from then on
  induction ms generalizing g first s with
  | nil =>
    have hle := (g.has field).toNat_le
    simp only [valuesOf, List.filter_nil, List.map_nil, List.length_nil] at htwice
    omega
  | cons m ms ih =>
    rw [List.map_cons, Member.entry, memberLexemes_cons_append] at h
    have hls : Closes (memberLexemes false (ms.map Member.entry) ++ ls) :=
      closes_memberLexemes _
    cases hm : Field.named? m.name with
    | none =>
      rw [valuesOf_cons_of_ne (Field.ne_name_of_named?_eq_none hm field)] at htwice
      obtain ⟨t, hstep, ht⟩ := members_other hm hls h
      obtain ⟨r, hr⟩ := ih htwice ht
      exact ⟨r, hstep.trans hr⟩
    | some field' =>
      rw [Field.named?_eq_some_iff] at hm
      cases hg : g.has field' with
      | true => exact ⟨_, members_repeated hm hg h⟩
      | false =>
        obtain ⟨t, ht, hstep⟩ := members_named hm hg h
        cases hv : value g field' t with
        | error r =>
          rw [hv] at hstep
          exact ⟨r, hstep⟩
        | ok read =>
          obtain ⟨g₁, u⟩ := read
          rw [hv] at hstep
          have hcount : 2 ≤ (g₁.has field).toNat + (valuesOf field ms).length := by
            rw [has_of_value hv field]
            by_cases hf : field = field'
            · subst hf
              rw [valuesOf_cons_of_name hm, hg] at htwice
              simp only [Bool.toNat_false, List.length_cons, beq_self_eq_true, Bool.or_true,
                Bool.toNat_true] at htwice ⊢
              omega
            · rw [valuesOf_cons_of_ne fun hname =>
                hf (Field.name_injective (hname.symm.trans hm))] at htwice
              rwa [beq_false_of_ne hf, Bool.or_false]
          obtain ⟨r, hr⟩ := ih hcount (spaced_of_value hls ht hv)
          exact ⟨r, hstep.trans hr⟩

end Runs

section Objects

variable {ms : List Member} {g : Given} {field : Field} {s : Source}

theorem opening_spaced (h : Spaced (objectOf ms).lexemes s) :
    ∃ t, skipBlank s = '\x7b' :: t ∧ Spaced (memberLexemes true (ms.map Member.entry) ++ []) t := by
  rw [List.append_nil]
  exact h.skipBlank_mark rfl rfl

theorem given_members (hg : Gives ms g) (h : Spaced (objectOf ms).lexemes s) :
    given s = .ok g := by
  rw [← List.append_nil ms] at h
  obtain ⟨t, hopen, ht⟩ := opening_spaced h
  obtain ⟨first, u, hread, hu⟩ := members_awaited hg.awaited ht
  obtain ⟨rest, hend, hrest⟩ := another_end first hu
  simp [given, hopen, hread, members_end hend, hrest.skipBlank_nil, bind, Except.bind]

theorem given_repeated {m : Member} {more : List Member} (hg : Gives ms g)
    (hhas : g.has field = true) (hm : m.name = field.name)
    (h : Spaced (objectOf (ms ++ m :: more)).lexemes s) :
    given s = .error (.duplicate field) := by
  obtain ⟨t, hopen, ht⟩ := opening_spaced h
  obtain ⟨first, u, hread, hu⟩ := members_awaited hg.awaited ht
  rw [List.map_cons, Member.entry, memberLexemes_cons_append] at hu
  simp [given, hopen, hread, members_repeated hm hhas hu, bind, Except.bind]

theorem given_twice (htwice : 2 ≤ (valuesOf field ms).length)
    (h : Spaced (objectOf ms).lexemes s) : ∃ r, given s = .error r := by
  obtain ⟨t, hopen, ht⟩ := opening_spaced h
  obtain ⟨r, hr⟩ := members_twice (g := {}) (Nat.le_add_left_of_le htwice) ht
  exact ⟨r, by simp [given, hopen, hr, bind, Except.bind]⟩

end Objects

end Document

theorem ofDocument_gives {ms : List Member} {g : Given} (hg : Gives ms g) {doc : String}
    (h : Spaced (objectOf ms).lexemes doc.toList) :
    ofDocument doc = if g.minGrowth = some 0 then .error (.flawed .zeroMinGrowth)
      else .ok ⟨g.minGrowth.getD 8192, g.ceiling.getD none⟩ := by
  obtain ⟨hvalid, hzero⟩ := ofDocument_of_given (Document.given_members hg h)
  split
  · next hn => exact hzero (by simp [Given.config, hn])
  · next hn =>
    refine hvalid (Nat.pos_of_ne_zero fun heq => hn ?_)
    cases hmin : g.minGrowth with
    | none => simp [Given.config, hmin] at heq
    | some n => simpa [Given.config, hmin] using heq

/-- An object document that gives each field at most once, and by a value of its kind, is read as
the configuration of these values and the defaults, or turned down for a smallest growth of zero.
Members of other names, whatever their values are and how they are written, and another order of
the members make no difference. A document that gives a field twice is turned down, and for that
if all in front of the second time is of its kind. -/
theorem ofDocument_members (ms : List Member) (doc : String)
    (hdoc : Spaced (objectOf ms).lexemes doc.toList) :
    (∀ g, Gives ms g →
      (g.minGrowth ≠ some 0 →
        ofDocument doc = .ok ⟨g.minGrowth.getD 8192, g.ceiling.getD none⟩) ∧
      (g.minGrowth = some 0 → ofDocument doc = .error (.flawed .zeroMinGrowth)) ∧
      ∀ ms' others : List Member, (∀ o ∈ others, ∀ field : Field, o.name ≠ field.name) →
        ms'.Perm (ms ++ others) → ∀ doc' : String,
        Spaced (objectOf ms').lexemes doc'.toList → ofDocument doc' = ofDocument doc) ∧
    ∀ field : Field,
      (2 ≤ (valuesOf field ms).length → ∃ r, ofDocument doc = .error r) ∧
      ∀ before m more g, ms = before ++ m :: more → Gives before g → g.has field = true →
        m.name = field.name → ofDocument doc = .error (.duplicate field) := by
  refine ⟨fun g hg => ⟨fun hn => ?_, fun hn => ?_, fun ms' others ho hperm doc' hdoc' => ?_⟩,
    fun field => ⟨fun htwice => ?_, ?_⟩⟩
  · rw [ofDocument_gives hg hdoc, if_neg hn]
  · rw [ofDocument_gives hg hdoc, if_pos hn]
  · rw [ofDocument_gives hg hdoc, ofDocument_gives (hg.of_perm ho hperm) hdoc']
  · obtain ⟨r, hr⟩ := Document.given_twice htwice hdoc
    exact ⟨r, ofDocument_of_not_given hr⟩
  · rintro before m more g rfl hg hhas hm
    exact ofDocument_of_not_given (Document.given_repeated hg hhas hm hdoc)

/-- `1e999`, which no double reaches. -/
def outOfReach : Figure where
  negative := false
  whole := ⟨['1'], by simp, by simp⟩
  whole_zero := by simp
  fraction := none
  power := some ⟨false, none, ⟨['9', '9', '9'], by simp, by simp⟩⟩

/-- Half of a surrogate pair. -/
def loneHalf : Glyph :=
  .unit ⟨⟨13, false⟩, ⟨8, false⟩, ⟨0, false⟩, ⟨0, false⟩⟩

/-- A member of another name with a value that could not be read, only skipped. -/
def skippedMember : Member where
  key := [.plain 'x' rfl]
  name := "x"
  named := rfl
  value := .list [.number outOfReach, .object [([loneHalf], .list [])]]

/-- A smallest growth whose key is written with an escape for its underscore. -/
def escapedMember (n : Nat) : Member where
  key := [.plain 'm' rfl, .plain 'i' rfl, .plain 'n' rfl,
    .unit ⟨⟨0, false⟩, ⟨0, false⟩, ⟨5, false⟩, ⟨15, false⟩⟩, .plain 'g' rfl,
    .plain 'r' rfl, .plain 'o' rfl, .plain 'w' rfl, .plain 't' rfl, .plain 'h' rfl]
  name := Field.minGrowth.name
  named := rfl
  value := .ofSize n

/-- The escaped key counts, the value in front of it does not, and a second such key is one too
many. -/
theorem ofDocument_members_escaped :
    ofDocument "\x7b\"x\":[1e999,\x7b\"\\ud800\":[]\x7d] ,\"min\\u005fgrowth\": 5\x7d" =
        .ok ⟨5, none⟩ ∧
      ofDocument "\x7b\"min\\u005fgrowth\":5,\"min\\u005fgrowth\":0\x7d" =
        .error (.duplicate .minGrowth) := by
  have hread : (objectOf [skippedMember, escapedMember 5]).lexemes =
      ["\x7b", "\"x\"", ":", "[", "1e999", ",", "\x7b", "\"\\ud800\"", ":", "[", "]", "\x7d", "]",
        ",", "\"min\\u005fgrowth\"", ":", "5", "\x7d"] := rfl
  have htwice : (objectOf [escapedMember 5, escapedMember 0]).lexemes =
      ["\x7b", "\"min\\u005fgrowth\"", ":", "5", ",", "\"min\\u005fgrowth\"", ":", "0", "\x7d"] :=
    rfl
  constructor
  · refine ((ofDocument_members [skippedMember, escapedMember 5] _ ?_).1 ⟨some 5, none⟩ ?_).1 ?_
    · rw [hread]
      exact .lexeme _ <| .lexeme _ <| .lexeme _ <| .lexeme _ <| .lexeme _ <| .lexeme _ <|
        .lexeme _ <| .lexeme _ <| .lexeme _ <| .lexeme _ <| .lexeme _ <| .lexeme _ <|
        .lexeme _ <| .blank ' ' rfl <| .lexeme _ <| .lexeme _ <| .lexeme _ <| .blank ' ' rfl <|
        .lexeme _ <| .lexeme _ .nil
    · exact ⟨rfl, rfl, ⟨by simp; decide, by simp⟩⟩
    · simp
  · refine ((ofDocument_members [escapedMember 5, escapedMember 0] _ ?_).2 .minGrowth).2
      [escapedMember 5] (escapedMember 0) [] ⟨some 5, none⟩ rfl ?_ rfl rfl
    · rw [htwice]
      exact .lexeme _ <| .lexeme _ <| .lexeme _ <| .lexeme _ <| .lexeme _ <| .lexeme _ <|
        .lexeme _ <| .lexeme _ <| .lexeme _ .nil
    · exact ⟨rfl, rfl, ⟨by simp; decide, by simp⟩⟩

end GrowBuffer.Config
