import GrowBuffer.Text.Obscure

/-! # Quoted text

Text in double quotes on one line. The quote, the backslash and what would not be seen
for what it is are written as escapes, all else as it stands.
-/

namespace GrowBuffer.Text

/-- The code point in hexadecimal, in braces. -/
def codePointEscape (c : Char) : String :=
  "\\u\x7b" ++ String.ofList (Nat.toDigits 16 c.toNat) ++ "\x7d"

def escape (c : Char) : String :=
  match c with
  | '\x00' => "\\0"
  | '\t' => "\\t"
  | '\n' => "\\n"
  | '\r' => "\\r"
  | '"' => "\\\""
  | '\\' => "\\\\"
  | c => if isObscure c then codePointEscape c else String.singleton c

def quoted (s : String) : String := "\"" ++ String.join (s.toList.map escape) ++ "\""

end GrowBuffer.Text
