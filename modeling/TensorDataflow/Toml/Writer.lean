import TensorDataflow.Toml.Reader
/-!
# Writing TOML

A table of texts, whole numbers and truth values is written with one line for each entry. What would
need quotes around its key, an escape in its text or more than 64 bits for its number is not
written.
-/

namespace TensorDataflow

namespace TomlValue

/-- A character that stands for itself in double quotes. -/
def isQuotable (c : Char) : Bool := isPlain c && c ≠ '"' && c ≠ '\\'

/-- What is written for a value behind its key. -/
def spelled? : TomlValue → Option (List Char)
  | text s => if s.toList.all isQuotable then some ('"' :: s.toList ++ ['"']) else none
  | integer n =>
      if -0x8000000000000000 ≤ n ∧ n < 0x8000000000000000 then some (toString n).toList else none
  | boolean b => some (if b then "true" else "false").toList
  | _ => none

/-- The characters of a line that assigns a value to a key. -/
def assignmentLine (key value : List Char) : List Char := key ++ ' ' :: '=' :: ' ' :: value

/-- Lines one below the other, each with its end. -/
def document (lines : List (List Char)) : List Char := lines.flatMap fun line => line ++ ['\n']

/-- The line of an entry. -/
def line? (key : String) (value : TomlValue) : Option (List Char) :=
  if key ≠ "" && key.toList.all isBareKeyChar then value.spelled?.map (assignmentLine key.toList)
  else none

end TomlValue

/-- The document of a table. -/
def TomlTable.write? (t : TomlTable) : Option String :=
  (t.mapM fun entry => TomlValue.line? entry.1 entry.2).map fun lines =>
    String.ofList (TomlValue.document lines)

/-- A writer of tables and a reader of documents. -/
structure TomlFormat where
  write? : TomlTable → Option String
  read? : String → Option TomlTable

def TomlFormat.standard : TomlFormat := ⟨TomlTable.write?, TomlTable.read?⟩

end TensorDataflow
