import TensorDataflow.Dim.Axes
import TensorDataflow.Json.Reader
/-!
# Dimensions as JSON

A dimension is an object with exactly one field, which names its form: `constant` with a word,
`variable` with a name, or `binary` with an operator and two dimensions. A sequence is an array of
dimensions. What `toJson` writes, `ofJson?` reads back as the same tree. From a text a dimension is
read only down to a limit; fields that are passed over may nest deeper, so the limit is set on the
depth of what was read.
-/

namespace TensorDataflow

namespace DimOp

def all : List DimOp := [add, sub, mul, div, mod, min, max]

/-- The spelling in the interchange form. -/
def tag : DimOp → String
  | add => "add"
  | sub => "sub"
  | mul => "mul"
  | div => "div"
  | mod => "mod"
  | min => "min"
  | max => "max"

def ofJson? (value : JsonValue) : Option DimOp := value.choose all tag

end DimOp

/-- The signed 64-bit word that an integer is, if it is in range. -/
def wordOfInt? (n : Int) : Option Int64 :=
  if -0x8000000000000000 ≤ n ∧ n < 0x8000000000000000 then some (Int64.ofInt n) else none

/-- The deepest nesting of arrays and objects at which a dimension is read from a text. -/
def JsonValue.nestingLimit : Nat := 127

namespace Dim

def toJson : Dim → JsonValue
  | const v => .object [(some "constant", .integer v.toInt)]
  | var name => .object [(some "variable", .ofText name)]
  | node op lhs rhs =>
      .object [(some "binary",
        .object [(some "op", .ofText op.tag), (some "lhs", lhs.toJson), (some "rhs", rhs.toJson)])]

/-- Reads a dimension from a value nested at most `fuel` deep. -/
def ofJsonWithin : Nat → JsonValue → Option Dim
  | 0, _ => none
  | fuel + 1, .object [(some form, content)] =>
      match form, content with
      | "constant", .integer n => (wordOfInt? n).map const
      | "variable", .text name => name.map var
      | "binary", content =>
          match content.record ["op", "lhs", "rhs"] with
          | some [some op, some lhs, some rhs] =>
            do
              return node (← DimOp.ofJson? op) (← ofJsonWithin fuel lhs) (← ofJsonWithin fuel rhs)
          | _ => none
      | _, _ => none
  | _ + 1, _ => none

def ofJson? (value : JsonValue) : Option Dim := ofJsonWithin value.depth value

/-- The dimension that a text encodes. -/
def read? (source : String) : Option Dim := do
  let d ← (JsonValue.read? source).bind ofJson?
  if d.toJson.depth ≤ JsonValue.nestingLimit then some d else none

end Dim

namespace Axes

variable {role : AxisRole}

def toJson (axes : Axes role) : JsonValue := .array (axes.dims.map Dim.toJson)

def ofJson? : JsonValue → Option (Axes role)
  | .array items => (items.mapM Dim.ofJson?).map Axes.mk
  | _ => none

/-- The sequence that a text encodes. -/
def read? (source : String) : Option (Axes role) := do
  let axes ← (JsonValue.read? source).bind ofJson?
  if axes.toJson.depth ≤ JsonValue.nestingLimit then some axes else none

end Axes

end TensorDataflow
