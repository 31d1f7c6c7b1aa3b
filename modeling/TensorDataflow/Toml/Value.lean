/-!
# TOML tables

The values of a configuration text, with floats and dates left without content because no setting
takes them. A table remembers how it came about, since that decides what may be added to it later: a
table under its own header is open only to headers below it, one that is only implied by such a
header may still get its own, one that dotted keys made may get more dotted keys, and an inline
table is closed.
-/

namespace TensorDataflow

/-- How a table came about. -/
inductive TableForm where
  | header | implied | dotted | closed
  deriving DecidableEq, Repr

/-- A TOML value; `tables` is a list of tables that repeated headers made, the latest last. -/
inductive TomlValue where
  | text (value : String)
  | integer (value : Int)
  | boolean (value : Bool)
  | other
  | array (items : List TomlValue)
  | table (form : TableForm) (entries : List (String × TomlValue))
  | tables (items : List (List (String × TomlValue)))
  deriving Repr, Inhabited

/-- Keys with their values in the order of their first mention. -/
abbrev TomlTable := List (String × TomlValue)

namespace TomlTable

/-- Puts a value at a key, in place of the one that is there. -/
def put (key : String) (value : TomlValue) : TomlTable → TomlTable
  | [] => [(key, value)]
  | (k, v) :: rest => if k = key then (key, value) :: rest else (k, v) :: put key value rest

/-- Adds a value under a dotted key; `mayAdd` says whether the table at hand takes entries from
dotted keys. -/
def assign (mayAdd : Bool) (key : String) (value : TomlValue) :
    (path : List String) → TomlTable → Option TomlTable
  | [], t => if mayAdd && (t.lookup key).isNone then some (t ++ [(key, value)]) else none
  | k :: path, t =>
      match t.lookup k with
      | none => do return put k (.table .dotted (← assign true key value path [])) t
      | some (.table .dotted inner) =>
          do return put k (.table .dotted (← assign true key value path inner)) t
      | some (.table .implied inner) =>
          do return put k (.table .implied (← assign false key value path inner)) t
      | some (.tables items) => do
          let last ← items.getLast?
          return put k (.tables (items.dropLast ++ [← assign false key value path last])) t
      | some _ => none

/-- Changes the table that a path of headers leads to, making implied tables on the way. -/
def descend (change : TomlTable → Option TomlTable) :
    (path : List String) → TomlTable → Option TomlTable
  | [], t => change t
  | k :: path, t =>
      match t.lookup k with
      | none => do return put k (.table .implied (← descend change path [])) t
      | some (.table .closed _) => none
      | some (.table form inner) => do return put k (.table form (← descend change path inner)) t
      | some (.tables items) => do
          let last ← items.getLast?
          return put k (.tables (items.dropLast ++ [← descend change path last])) t
      | some _ => none

/-- Opens the table of a header. -/
def openTable (key : String) (t : TomlTable) : Option TomlTable :=
  match t.lookup key with
  | none => some (put key (.table .header []) t)
  | some (.table .implied inner) => some (put key (.table .header inner) t)
  | some _ => none

/-- Opens a further table of a repeated header. -/
def openFurther (key : String) (t : TomlTable) : Option TomlTable :=
  match t.lookup key with
  | none => some (put key (.tables [[]]) t)
  | some (.tables items) => some (put key (.tables (items ++ [[]])) t)
  | some _ => none

end TomlTable

/-- One line of a document; a path has the parts of a dotted key before the last. -/
inductive TomlStatement where
  | header (path : List String) (key : String)
  | furtherHeader (path : List String) (key : String)
  | assignment (path : List String) (key : String) (value : TomlValue)
  deriving Repr

/-- The table that the statements build, `current` being the path of the last header. -/
def TomlTable.build (current : List String) (t : TomlTable) : List TomlStatement → Option TomlTable
  | [] => some t
  | .header path key :: rest => do build (path ++ [key]) (← descend (openTable key) path t) rest
  | .furtherHeader path key :: rest =>
      do build (path ++ [key]) (← descend (openFurther key) path t) rest
  | .assignment path key value :: rest =>
      do build current (← descend (assign true key value path) current t) rest

/-- The table of an inline table's assignments. -/
def TomlTable.ofAssignments (pairs : List (List String × String × TomlValue)) : Option TomlTable :=
  pairs.foldlM (fun t (path, key, value) => assign true key value path t) []

/-- The name of one of several alternatives without content: a text, or a table whose one entry is
empty. -/
def TomlValue.alternative : TomlValue → Option String
  | .text name => some name
  | .table _ [(name, .array [])] => some name
  | .table _ [(name, .table _ [])] => some name
  | _ => none

end TensorDataflow
