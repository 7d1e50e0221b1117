import GrowBuffer.Buffer.Detached
import GrowBuffer.Buffer.Storage
import GrowBuffer.Text.Quoted
import GrowBuffer.Text.Record
import GrowBuffer.Text.Utf8

/-! # Buffers in logs

A buffer is shown as a record of its location, its figures and its content as quoted
text; detached content is shown as quoted text alone.
-/

namespace GrowBuffer

/-- Bytes as quoted text, whatever they are. -/
def quotedBytes (b : ByteArray) : String := Text.quoted (Text.Utf8.decodeLossy b)

def Buffer.record (b : Buffer) : Text.Record :=
  ⟨"XBuf",
    [("located", b.location.label), ("len", toString b.length),
      ("capacity", toString b.capacity), ("content", quotedBytes b.content)]⟩

def Detached.details (d : Detached) : String := quotedBytes d.content

end GrowBuffer
