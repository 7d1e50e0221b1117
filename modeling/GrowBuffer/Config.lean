/-! # Growth configuration

Two numbers tune all growth: the smallest capacity a growing buffer is given, and an
optional ceiling on a single request for memory.
-/

namespace GrowBuffer

structure Config where
  minGrowth : Nat := 8192
  ceiling : Option Nat := none
  deriving DecidableEq, Repr

namespace Config

/-- Whether a request of this many bytes stays within the ceiling. -/
def permits (cfg : Config) (bytes : Nat) : Bool :=
  match cfg.ceiling with
  | none => true
  | some c => decide (bytes ≤ c)

@[simp] theorem permits_none {n bytes : Nat} : permits ⟨n, none⟩ bytes = true := rfl

@[simp] theorem permits_some {n c bytes : Nat} : permits ⟨n, some c⟩ bytes = true ↔ bytes ≤ c := by
  simp [permits]

/-- Why a configuration is no good. -/
inductive Flaw where
  | zeroMinGrowth
  deriving DecidableEq, Repr

def Flaw.reason : Flaw → String
  | .zeroMinGrowth => "min_growth must be non-zero"

/-- What is said about a configuration that cannot be used, whatever the reason. -/
def complaint (reason : String) : String := "Invalid configuration: " ++ reason

def validate (cfg : Config) : Except Flaw Unit :=
  if cfg.minGrowth = 0 then .error .zeroMinGrowth else .ok ()

theorem validate_eq_ok_iff {cfg : Config} : cfg.validate = .ok () ↔ 0 < cfg.minGrowth := by
  unfold validate
  split <;> simp <;> omega

end Config
end GrowBuffer
