/-!
# JSON values

The values of the JSON interchange format as far as this library tells them apart: a number is
either written as an integer or it is not, and a string has a text only if its escapes pair up to
characters. Objects keep their fields in the order in which they were written, repeated keys
included.
-/

namespace TensorDataflow

/-- A JSON value. -/
inductive JsonValue where
  | null
  | bool (value : Bool)
  | integer (value : Int)
  | fraction
  | text (value : Option String)
  | array (items : List JsonValue)
  | object (fields : List (Option String × JsonValue))
  deriving Repr, Inhabited

namespace JsonValue

mutual

/-- How many arrays and objects enclose the innermost value. -/
def depth : JsonValue → Nat
  | array items => listDepth items + 1
  | object fields => fieldsDepth fields + 1
  | _ => 0

def listDepth : List JsonValue → Nat
  | [] => 0
  | v :: rest => max v.depth (listDepth rest)

def fieldsDepth : List (Option String × JsonValue) → Nat
  | [] => 0
  | (_, v) :: rest => max v.depth (fieldsDepth rest)

end

/-- A string value with the given text. -/
def ofText (s : String) : JsonValue := text (some s)

/-- The value of the field with the given name; nothing if there is none, and no reading at all if
there are two. -/
def field (fields : List (Option String × JsonValue)) (name : String) : Option (Option JsonValue) :=
  match fields.filter fun f => f.1 == some name with
  | [] => some none
  | [f] => some (some f.2)
  | _ => none

/-- The fields that a record of named fields is read from: an object gives them by name and its
other fields are passed over, an array gives the first of them by position. -/
def record (names : List String) : JsonValue → Option (List (Option JsonValue))
  | object fields => if fields.all fun f => f.1.isSome then names.mapM (field fields) else none
  | array items =>
      if items.length ≤ names.length
        then some (items.map some ++ List.replicate (names.length - items.length) none) else none
  | _ => none

/-- The name of one of several alternatives without content: a string, or an object whose one field
is null. -/
def alternative : JsonValue → Option String
  | text name => name
  | object [(name, null)] => name
  | _ => none

def integer? : JsonValue → Option Int
  | integer n => some n
  | _ => none

def bool? : JsonValue → Option Bool
  | bool b => some b
  | _ => none

/-- The alternative with the given tag. -/
def choose {α : Type} (all : List α) (tag : α → String) (value : JsonValue) : Option α :=
  value.alternative.bind fun name => all.find? fun a => tag a == name

end JsonValue

end TensorDataflow
