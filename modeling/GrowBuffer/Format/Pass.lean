/-! # Formatting passes

Formatted text reaches a sink as a sequence of writes, after which the formatter may
give up. Text that is measured before it is stored is formatted twice, and nothing
forces the second pass to agree with the first.
-/

namespace GrowBuffer.Format

/-- The texts one pass writes, in order, and whether it ends by giving up. A pass whose write is
refused by the sink passes this on and writes no more; it does not unwind. -/
structure Pass where
  writes : List String
  givesUp : Bool := false
  deriving DecidableEq, Repr

namespace Pass

/-- The whole text of a pass. -/
def text (p : Pass) : String := String.join p.writes

/-- What `p` writes and, unless it gives up, what `q` writes after it. -/
def append (p q : Pass) : Pass :=
  if p.givesUp then p else ⟨p.writes ++ q.writes, q.givesUp⟩

end Pass

/-- A formatter that may be run twice: to measure its text, then to write it. It makes no request
for memory of its own and does not touch the buffer that it is written to. -/
structure Formatted where
  measured : Pass
  written : Pass
  deriving DecidableEq, Repr

/-- A formatter whose passes are alike. -/
def Formatted.steady (p : Pass) : Formatted := ⟨p, p⟩

end GrowBuffer.Format
