import GrowBuffer.Bytes
import GrowBuffer.Format.Pass
import GrowBuffer.Word

/-! # Measuring text

The measuring sink stores nothing. It counts the bytes that reach it and notes whether
a NUL was among them. A count that leaves the range of sizes has to be told apart, by the
total before the write that takes it there.
-/

namespace GrowBuffer.Format

structure Measure where
  length : Nat := 0
  hasNul : Bool := false
  deriving DecidableEq, Repr

namespace Measure

def isEmpty (m : Measure) : Bool := m.length == 0

def write (m : Measure) (s : String) : Measure :=
  ⟨m.length + s.utf8ByteSize, m.hasNul || Bytes.hasNul s.toUTF8⟩

/-- The measure after a pass, also of one that gives up. -/
def run (m : Measure) (p : Pass) : Measure := p.writes.foldl write m

/-- The measures after each of several passes. -/
def runs (m : Measure) : List Pass → List Measure
  | [] => []
  | p :: ps => m.run p :: (m.run p).runs ps

/-- The total before the first write that makes it larger than any size. -/
def overflow? (m : Measure) : List String → Option Nat
  | [] => none
  | s :: ss =>
    match Word.add? m.length s.utf8ByteSize with
    | some _ => (m.write s).overflow? ss
    | none => some m.length

/-- The measure of a pass that does not give up. -/
def of? (p : Pass) : Option Measure :=
  if p.givesUp then none else some (run {} p)

@[simp] theorem of?_completes (ws : List String) :
    of? ⟨ws, false⟩ = some (ws.foldl write {}) := rfl

end Measure
end GrowBuffer.Format
