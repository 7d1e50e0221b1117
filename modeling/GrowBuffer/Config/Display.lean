import GrowBuffer.Config
import GrowBuffer.Text.Record

/-! # Configurations as text

A configuration is written as a JSON document without blanks, and shown with its labels
for logs.
-/

namespace GrowBuffer.Config

/-- The lexemes of the document, between which blanks would make no difference. -/
def lexemes (cfg : Config) : List String :=
  ["\x7b", "\"min_growth\"", ":", toString cfg.minGrowth, ",",
    "\"max_alloc_bytes\"", ":", (cfg.ceiling.map toString).getD "null", "\x7d"]

def document (cfg : Config) : String := String.join cfg.lexemes

def record (cfg : Config) : Text.Record where
  name := "XbufConfig"
  fields :=
    [("min_growth", toString cfg.minGrowth),
      ("max_alloc_bytes", match cfg.ceiling with
        | none => "None"
        | some c => s!"Some({c})")]

def details (cfg : Config) : String := cfg.record.oneLine

end GrowBuffer.Config
