import GrowBuffer.Bytes
import GrowBuffer.Format.Pass

/-! # Writing into a window of fixed size

A window takes writes one behind the other. A write that does not fit is refused whole
and leaves the window as it is, so a later and shorter one may still be taken.
-/

namespace GrowBuffer.Format

structure Window where
  bytes : ByteArray
  filled : Nat := 0

namespace Window

def fits (w : Window) (s : String) : Bool := decide (w.filled + s.utf8ByteSize ≤ w.bytes.size)

/-- The window after a write that fits. -/
def put : Window → String → Window
  | ⟨bytes, filled⟩, s => ⟨Bytes.overwrite bytes filled s.toUTF8, filled + s.utf8ByteSize⟩

/-- Take writes up to the first one that is refused; whether all were taken comes second. -/
def takeWrites (w : Window) : List String → Window × Bool
  | [] => (w, true)
  | s :: ss => if w.fits s then (w.put s).takeWrites ss else (w, false)

/-- Run a pass on the window. It succeeds when every write fits and it does not give up. -/
def run (w : Window) (p : Pass) : Window × Bool :=
  let (w', all) := w.takeWrites p.writes
  (w', all && !p.givesUp)

/-- Run passes one after the other; for each, whether it succeeded and how much is filled
after it. -/
def runs (w : Window) : List Pass → List (Bool × Nat) × Window
  | [] => ([], w)
  | p :: ps =>
    let (w', ok) := w.run p
    let (rest, last) := w'.runs ps
    ((ok, w'.filled) :: rest, last)

@[simp] theorem takeWrites_nil (w : Window) : w.takeWrites [] = (w, true) := rfl

end Window
end GrowBuffer.Format
