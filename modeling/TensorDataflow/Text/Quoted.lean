import TensorDataflow.Text.Invisible
/-!
# Quoted texts

A text between double quotes in which the quote, the backslash and the usual control characters are
escaped by a letter, and every other character that would not be seen on its own by its number.
-/

namespace TensorDataflow

/-- A character inside quotes. -/
def escaped (c : Char) : String :=
  if c = '\x00' then "\\0"
  else if c = '\t' then "\\t"
  else if c = '\n' then "\\n"
  else if c = '\r' then "\\r"
  else if c = '\\' then "\\\\"
  else if c = '"' then "\\\""
  else if isInvisible c then "\\u\x7b" ++ String.ofList (Nat.toDigits 16 c.toNat) ++ "\x7d"
  else c.toString

/-- The text in quotes. -/
def quoted (text : String) : String := "\"" ++ String.join (text.toList.map escaped) ++ "\""

end TensorDataflow
