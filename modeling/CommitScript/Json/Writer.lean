import CommitScript.Text.Quoted

/-! # Writing JSON strings

A string between double quotes. Only quotes, backslashes and control characters are escaped;
the common control characters have escapes of one letter.
-/

namespace CommitScript.JsonText

/-- The character as it stands inside a string. -/
def escape (c : Char) : String :=
  if c == '"' then "\\\""
  else if c == '\\' then "\\\\"
  else if c == '\x08' then "\\b"
  else if c == '\x0c' then "\\f"
  else if c == '\n' then "\\n"
  else if c == '\r' then "\\r"
  else if c == '\t' then "\\t"
  else if c.toNat < 0x20 then
    "\\u" ++ String.ofList ((Text.hexDigits c.toNat).toList.leftpad 4 '0')
  else c.toString

def quote (s : String) : String :=
  "\"" ++ String.join (s.toList.map escape) ++ "\""

/-- The members of an object whose values are strings, on one line. -/
def objectOfStrings (members : List (String × String)) : String :=
  let written := members.map fun (name, value) => quote name ++ ":" ++ quote value
  "\x7b" ++ ",".intercalate written ++ "\x7d"

end CommitScript.JsonText
