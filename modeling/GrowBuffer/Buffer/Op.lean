import GrowBuffer.Buffer.Print
import GrowBuffer.Buffer.Release
import GrowBuffer.Buffer.Spare

/-! # Operations as data

Every operation on a buffer under one name, with one type of answers, so that runs of
operations are lists.
-/

namespace GrowBuffer.Buffer
open Format Memory

inductive Op where
  | appendByte (c : UInt8)
  | append (w : ByteArray)
  | appendText (s : String)
  | print (f : Formatted)
  | stream (p : Pass)
  | pop
  | clear
  | reserve (extra : Nat)
  | spare
  | writeSpare (start : Nat) (w : ByteArray)
  | commit (n : Nat)
  | terminate
  | rewind
  | detach

inductive Answer where
  | done
  | count (n : Nat)
  | printed (n : Option Nat)
  | streamed (completed : Bool)
  | popped (c : Option UInt8)
  | bytes (b : ByteArray)
  | detached (d : Detached)
  deriving DecidableEq

namespace Op

def run (cfg : Config) : Op → Work Answer
  | appendByte c => do
    Buffer.appendByte cfg c
    pure .done
  | append w => do pure (.count (← Buffer.append cfg w))
  | appendText s => do pure (.count (← Buffer.appendText cfg s))
  | print f => do pure (.printed (← Buffer.print cfg f))
  | stream p => do pure (.streamed (← Buffer.stream cfg p))
  | pop => do pure (.popped (← Buffer.pop))
  | clear => do
    Buffer.clear
    pure .done
  | reserve extra => do
    Buffer.reserve cfg extra
    pure .done
  | spare => do pure (.bytes (← Buffer.spare))
  | writeSpare start w => do
    Buffer.writeSpare start w
    pure .done
  | commit n => do
    Buffer.commit n
    pure .done
  | terminate => do pure (.bytes (← Buffer.terminate))
  | rewind => do pure (.bytes (← Buffer.rewind cfg))
  | detach => do pure (.detached (← Buffer.detach cfg))

end Op
end GrowBuffer.Buffer
