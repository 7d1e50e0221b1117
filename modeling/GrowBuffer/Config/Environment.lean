import GrowBuffer.Bytes
import GrowBuffer.Config
import GrowBuffer.Word

/-! # Configuration from the environment

Each of two variables sets one field when its value is the decimal text of a size. Any
other value counts as if the variable were not set.
-/

namespace GrowBuffer.Config

/-- The values of the variables that are set. -/
abbrev Environment := String → Option ByteArray

def digit? (b : UInt8) : Option Nat :=
  if 0x30 ≤ b ∧ b ≤ 0x39 then some (b.toNat - 0x30) else none

/-- The number written by digits alone, at least one of them. -/
def decimal? (digits : List UInt8) : Option Nat :=
  if digits.isEmpty then none
  else digits.foldlM (fun n b => (digit? b).map (10 * n + ·)) 0

/-- A size in decimal, with or without a plus sign. -/
def size? (value : ByteArray) : Option Nat :=
  let digits := match Bytes.toList value with
    | 0x2B :: rest => rest
    | all => all
  (decimal? digits).filter (· < Word.limit)

def minGrowthVariable : String := "GVBUF_MIN_GROWTH"

def ceilingVariable : String := "GVBUF_MAX_ALLOC_BYTES"

/-- A minimum of zero is no minimum; a ceiling of zero is one. -/
def ofEnvironment (env : Environment) : Config where
  minGrowth := (((env minGrowthVariable).bind size?).filter (0 < ·)).getD ({} : Config).minGrowth
  ceiling := (env ceilingVariable).bind size?

theorem zero_lt_minGrowth_ofEnvironment (env : Environment) :
    0 < (ofEnvironment env).minGrowth := by
  simp only [ofEnvironment]
  cases h : ((env minGrowthVariable).bind size?).filter (0 < ·) with
  | none => decide
  | some n => simpa using (Option.filter_eq_some_iff.1 h).2

end GrowBuffer.Config
