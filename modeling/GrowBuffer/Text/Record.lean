/-! # Records as text

A record is shown by its name and its labelled fields, on one line or with a field a
line. The texts of the fields are given and stand as they are.
-/

namespace GrowBuffer.Text

structure Record where
  name : String
  fields : List (String × String)

namespace Record

private def field : String × String → String
  | (label, text) => label ++ ": " ++ text

/-- All on one line, fields separated by commas. -/
def oneLine (r : Record) : String :=
  r.name ++ " \x7b " ++ ", ".intercalate (r.fields.map field) ++ " \x7d"

/-- A field a line, each indented by four spaces and followed by a comma. -/
def manyLines (r : Record) : String :=
  r.name ++ " \x7b\n" ++ String.join (r.fields.map fun f => "    " ++ field f ++ ",\n") ++ "\x7d"

end Record
end GrowBuffer.Text
