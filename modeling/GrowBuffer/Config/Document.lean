import GrowBuffer.Config
import GrowBuffer.Json.Found
import GrowBuffer.Json.Skip

/-! # Configuration documents

A configuration is read from a JSON object by the names of its members, or from a JSON
array by their order. Members that are not given take their defaults, members of other
names are skipped. What is read has to be valid.
-/

namespace GrowBuffer.Config
open Json

inductive Field where
  | minGrowth
  | ceiling
  deriving DecidableEq, Repr

def Field.name : Field → String
  | minGrowth => "min_growth"
  | ceiling => "max_alloc_bytes"

def Field.named? (name : String) : Option Field :=
  [minGrowth, ceiling].find? (·.name == name)

/-- What a place in a document is for. -/
inductive Due where
  | config
  | size
  deriving DecidableEq, Repr

def Due.describe : Due → String
  | config => "struct XbufConfig"
  | size => "usize"

/-- Why a document was rejected. -/
inductive Rejection where
  | malformed (problem : Problem)
  | wrongType (found : Found) (due : Due)
  | wrongValue (found : Found) (due : Due)
  | duplicate (field : Field)
  | flawed (flaw : Flaw)

namespace Rejection

def reason : Rejection → String
  | malformed problem => problem.message
  | wrongType found due => "invalid type: " ++ found.describe ++ ", expected " ++ due.describe
  | wrongValue found due => "invalid value: " ++ found.describe ++ ", expected " ++ due.describe
  | duplicate field => "duplicate field `" ++ field.name ++ "`"
  | flawed flaw => flaw.reason

def message (r : Rejection) : String := complaint r.reason

/-- Rejected for what begins here. -/
def ofFound (due : Due) (s : Source) : Rejection :=
  match found s with
  | .error problem => malformed problem
  | .ok found => wrongType found due

end Rejection

/-- The fields that a document gives. -/
structure Given where
  minGrowth : Option Nat := none
  ceiling : Option (Option Nat) := none
  deriving DecidableEq, Repr

namespace Given

def has (g : Given) : Field → Bool
  | .minGrowth => g.minGrowth.isSome
  | .ceiling => g.ceiling.isSome

/-- Fields that are not given take their defaults. -/
def config (g : Given) : Config where
  minGrowth := g.minGrowth.getD ({} : Config).minGrowth
  ceiling := g.ceiling.getD ({} : Config).ceiling

end Given

namespace Document

def checked {α : Type} : Except Problem α → Except Rejection α
  | .ok a => .ok a
  | .error problem => .error (.malformed problem)

def size (s : Source) : Except Rejection (Nat × Source) := do
  let s := skipBlank s
  if startsNumber s then
    match ← checked (number s) with
    | (.natural n, rest) => .ok (n, rest)
    | (.negative n, _) => .error (.wrongValue (.number (.negative n)) .size)
    | (.floating f, _) => .error (.wrongType (.number (.floating f)) .size)
  else .error (.ofFound .size s)

/-- A size or `null`. -/
def optionalSize (s : Source) : Except Rejection (Option Nat × Source) := do
  match skipBlank s with
  | 'n' :: rest => .ok (none, ← checked (word ['u', 'l', 'l'] rest))
  | s =>
    let (n, rest) ← size s
    .ok (some n, rest)

/-- Whether there is another member. Behind a yes stands its key, behind a no the text
that follows the object. -/
def another (first : Bool) (s : Source) : Except Problem (Bool × Source) :=
  match skipBlank s with
  | [] => .error .endInObject
  | '\x7d' :: rest => .ok (false, rest)
  | c :: rest =>
    if first then
      if c = '"' then .ok (true, rest) else .error .keyDue
    else if c = ',' then
      match skipBlank rest with
      | '"' :: rest => .ok (true, rest)
      | '\x7d' :: _ => .error .trailingComma
      | _ :: _ => .error .keyDue
      | [] => .error .endInValue
    else .error .objectCommaDue

/-- The value of a field that was not given before. -/
def value (g : Given) (field : Field) (s : Source) : Except Rejection (Given × Source) := do
  match field with
  | .minGrowth =>
    let (n, rest) ← size s
    .ok ({ g with minGrowth := some n }, rest)
  | .ceiling =>
    let (c, rest) ← optionalSize s
    .ok ({ g with ceiling := some c }, rest)

/-- One member, behind the quote that opens its key. -/
def member (g : Given) (s : Source) : Except Rejection (Given × Source) := do
  let (key, rest) ← checked (text s)
  match Field.named? (String.ofList key) with
  | none => .ok (g, ← checked (colon rest >>= skipValue))
  | some field =>
    if g.has field then .error (.duplicate field)
    else value g field (← checked (colon rest))

theorem checked_eq_ok {α : Type} {r : Except Problem α} {a : α} (h : checked r = .ok a) :
    r = .ok a := by
  cases r <;> simp_all [checked]

theorem length_lt_of_another {first yes : Bool} {s rest : Source}
    (h : another first s = .ok (yes, rest)) : rest.length < s.length := by
  unfold another at h
  split at h
  · simp at h
  · next hs =>
    have := length_lt_of_skipBlank hs
    simp_all
  · next hs =>
    have h₁ := length_lt_of_skipBlank hs
    split at h
    · split at h <;> simp_all
    · split at h
      · split at h
        · next hc =>
          have h₂ := length_lt_of_skipBlank hc
          simp only [Except.ok.injEq, Prod.mk.injEq] at h
          rw [← h.2]
          omega
        · simp at h
        · simp at h
        · simp at h
      · simp at h

theorem length_lt_of_size {s rest : Source} {n : Nat} (h : size s = .ok (n, rest)) :
    rest.length < s.length := by
  have hb := length_skipBlank_le s
  simp only [size] at h
  split at h
  · cases hn : checked (number (skipBlank s)) with
    | error r => simp [hn, bind, Except.bind] at h
    | ok r =>
      have := length_lt_of_number (checked_eq_ok hn)
      simp only [hn, bind, Except.bind] at h
      split at h <;> simp_all
      omega
  · simp at h

theorem length_lt_of_optionalSize {s rest : Source} {c : Option Nat}
    (h : optionalSize s = .ok (c, rest)) : rest.length < s.length := by
  have hb := length_skipBlank_le s
  simp only [optionalSize] at h
  split at h
  · next r hs =>
    have h₁ := length_lt_of_skipBlank hs
    cases hw : checked (word ['u', 'l', 'l'] r) with
    | error e => simp [hw, bind, Except.bind] at h
    | ok r' =>
      have := length_word (checked_eq_ok hw)
      simp only [hw, bind, Except.bind, Except.ok.injEq, Prod.mk.injEq] at h
      rw [← h.2]
      omega
  · cases hz : size (skipBlank s) with
    | error e => simp [hz, bind, Except.bind] at h
    | ok r =>
      have := length_lt_of_size hz
      simp only [hz, bind, Except.bind, Except.ok.injEq, Prod.mk.injEq] at h
      rw [← h.2]
      omega

theorem length_lt_of_value {g g' : Given} {field : Field} {s rest : Source}
    (h : value g field s = .ok (g', rest)) : rest.length < s.length := by
  cases field with
  | minGrowth =>
    cases hz : size s with
    | error e => simp [value, hz, bind, Except.bind] at h
    | ok r =>
      have := length_lt_of_size hz
      simp only [value, hz, bind, Except.bind, Except.ok.injEq, Prod.mk.injEq] at h
      rwa [← h.2]
  | ceiling =>
    cases hz : optionalSize s with
    | error e => simp [value, hz, bind, Except.bind] at h
    | ok r =>
      have := length_lt_of_optionalSize hz
      simp only [value, hz, bind, Except.bind, Except.ok.injEq, Prod.mk.injEq] at h
      rwa [← h.2]

theorem length_lt_of_member {g g' : Given} {s rest : Source}
    (h : member g s = .ok (g', rest)) : rest.length < s.length := by
  simp only [member] at h
  cases ht : checked (text s) with
  | error e => simp [ht, bind, Except.bind] at h
  | ok r =>
    have h₁ := length_lt_of_text (checked_eq_ok ht)
    simp only [ht, bind, Except.bind] at h
    cases hc : colon r.2 with
    | error p =>
      split at h
      · simp [hc, checked] at h
      · split at h <;> simp [hc, checked] at h
    | ok s₂ =>
      have h₂ := length_lt_of_colon hc
      split at h
      · cases hv : skipValue s₂ with
        | error p => simp [hc, hv, checked] at h
        | ok s₃ =>
          have h₃ := length_lt_of_skipValue hv
          simp only [hc, hv, checked, Except.ok.injEq, Prod.mk.injEq] at h
          rw [← h.2]
          omega
      · split at h
        · simp at h
        · simp only [hc, checked] at h
          have h₃ := length_lt_of_value h
          omega

/-- The members of an object up to its closing bracket. -/
def members (g : Given) (first : Bool) (s : Source) : Except Rejection (Given × Source) :=
  match ha : another first s with
  | .error problem => .error (.malformed problem)
  | .ok (false, rest) => .ok (g, rest)
  | .ok (true, rest) =>
    match hm : member g rest with
    | .error r => .error r
    | .ok (g', rest') =>
      have := length_lt_of_another ha
      have := length_lt_of_member hm
      members g' false rest'
termination_by s.length

/-- Where the next element of an array begins, if there is one. -/
def nextElement (first : Bool) (s : Source) : Except Problem (Option Source) :=
  match skipBlank s with
  | [] => .error .endInList
  | ']' :: _ => .ok none
  | c :: rest =>
    if first then .ok (some s)
    else if c = ',' then
      match skipBlank rest with
      | ']' :: _ => .error .trailingComma
      | _ :: _ => .ok (some rest)
      | [] => .error .endInValue
    else .error .listCommaDue

def element {α : Type} (read : Source → Except Rejection (α × Source)) (first : Bool) (s : Source) :
    Except Rejection (Option α × Source) := do
  match ← checked (nextElement first s) with
  | none => .ok (none, s)
  | some s =>
    let (a, rest) ← read s
    .ok (some a, rest)

/-- The end of an array that has all its elements. -/
def endOfList (s : Source) : Except Problem Source :=
  match skipBlank s with
  | [] => .error .endInList
  | ']' :: rest => .ok rest
  | ',' :: rest =>
    match skipBlank rest with
    | ']' :: _ => .error .trailingComma
    | _ => .error .trailingCharacters
  | _ => .error .trailingCharacters

/-- The elements of an array, in the order of the fields. -/
def elements (s : Source) : Except Rejection (Given × Source) := do
  let (minGrowth, s) ← element size true s
  let (ceiling, s) ← element optionalSize minGrowth.isNone s
  let rest ← checked (endOfList s)
  .ok (⟨minGrowth, ceiling⟩, rest)

/-- The fields that a whole document gives. -/
def given (s : Source) : Except Rejection Given := do
  let (g, rest) ← match skipBlank s with
    | '\x7b' :: s => members {} true s
    | '[' :: s => elements s
    | s => .error (.ofFound .config s)
  if (skipBlank rest).isEmpty then .ok g else .error (.malformed .trailingCharacters)

end Document

/-- The configuration that a document describes. -/
def ofDocument (doc : String) : Except Rejection Config := do
  let cfg := (← Document.given doc.toList).config
  match cfg.validate with
  | .ok () => .ok cfg
  | .error flaw => .error (.flawed flaw)

end GrowBuffer.Config
