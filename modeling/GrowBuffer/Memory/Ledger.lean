import GrowBuffer.Text.Record
import GrowBuffer.Word

/-! # The ledger of one thread

Every completed request for memory is entered: how many fresh blocks and how many
resizes there were, how many bytes had to be zeroed for them, and the largest size
among them.
-/

namespace GrowBuffer.Memory

/-- The figures are natural numbers. They stand for counters of 64 bits as long as they stay
below two to the power of 64, which takes that many requests or zeroed bytes to pass. -/
structure Ledger where
  allocations : Nat := 0
  resizes : Nat := 0
  zeroed : Nat := 0
  peak : Nat := 0
  deriving DecidableEq, Repr

namespace Ledger

def enterFresh (l : Ledger) (bytes : Nat) : Ledger :=
  { l with
    allocations := l.allocations + 1
    zeroed := l.zeroed + bytes
    peak := max l.peak bytes }

/-- Only the bytes by which a block grows count as zeroed. -/
def enterResize (l : Ledger) (oldSize newSize : Nat) : Ledger :=
  { l with
    resizes := l.resizes + 1
    zeroed := l.zeroed + (newSize - oldSize)
    peak := max l.peak newSize }

/-- The figures between an earlier ledger and this one; the peak is the one of the later. -/
def since (l earlier : Ledger) : Ledger where
  allocations := l.allocations - earlier.allocations
  resizes := l.resizes - earlier.resizes
  zeroed := l.zeroed - earlier.zeroed
  peak := l.peak

/-- How many requests of both kinds were entered. -/
def calls (l : Ledger) : Nat := l.allocations + l.resizes

/-- The same, as long as it is a number of 64 bits. -/
def calls? (l : Ledger) : Option Nat := Word.add? l.allocations l.resizes

theorem calls?_eq_some_iff {l : Ledger} {n : Nat} :
    l.calls? = some n ↔ l.calls < Word.limit ∧ l.calls = n :=
  Word.add?_eq_some_iff

@[simp] theorem calls_enterFresh (l : Ledger) (n : Nat) :
    (l.enterFresh n).calls = l.calls + 1 := by
  simp [calls, enterFresh]
  omega

@[simp] theorem calls_enterResize (l : Ledger) (m n : Nat) :
    (l.enterResize m n).calls = l.calls + 1 := by
  simp [calls, enterResize]
  omega

def record (l : Ledger) : Text.Record :=
  ⟨"AllocStats",
    [("allocations", toString l.allocations), ("reallocations", toString l.resizes),
      ("bytes_zeroed", toString l.zeroed), ("peak_request", toString l.peak)]⟩

/-- The figures with their labels, for logs. -/
def details (l : Ledger) : String := l.record.oneLine

end Ledger
end GrowBuffer.Memory
