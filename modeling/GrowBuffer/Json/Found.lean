import GrowBuffer.Json.Number
import GrowBuffer.Json.Text
import GrowBuffer.Text.Quoted

/-! # What stands where something else is due

Words, numbers and texts are read to their end before anything is said about them; of a
list or an object only the opening bracket is.
-/

namespace GrowBuffer.Json

inductive Found where
  | null
  | boolean (b : Bool)
  | number (n : Number)
  | text (s : String)
  | list
  | object

def Number.describe : Number → String
  | natural n => s!"integer `{n}`"
  | negative n => s!"integer `-{n}`"
  | floating f => s!"floating point `{Decimal.ofFloat f}`"

def Found.describe : Found → String
  | null => "null"
  | boolean b => s!"boolean `{b}`"
  | number n => n.describe
  | text s => "string " ++ Text.quoted s
  | list => "sequence"
  | object => "map"

/-- What begins here. -/
def found (s : Source) : Except Problem Found :=
  match s with
  | 'n' :: rest => (word ['u', 'l', 'l'] rest).map fun _ => .null
  | 't' :: rest => (word ['r', 'u', 'e'] rest).map fun _ => .boolean true
  | 'f' :: rest => (word ['a', 'l', 's', 'e'] rest).map fun _ => .boolean false
  | '"' :: rest => (text rest).map fun (cs, _) => .text (String.ofList cs)
  | '[' :: _ => .ok .list
  | '\x7b' :: _ => .ok .object
  | [] => .error .endInValue
  | _ => if startsNumber s then (number s).map fun (n, _) => .number n else .error .valueDue

end GrowBuffer.Json
