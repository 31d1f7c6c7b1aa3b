/-!
# Symbolic dimensions

A dimension is a tree of constants, named variables and seven binary operators over signed 64-bit
words. The rest of the library may rely on three readings of a tree: `evaluate` gives its value
under an assignment, `simplify` folds what needs no assignment, and `substitute` folds what one
assignment settles, and the last two build their nodes through the same constructor `Dim.fold`, so
their results are always in folded form.
-/

namespace TensorDataflow

/-- The operators a dimension may be built with. -/
inductive DimOp where
  | add | sub | mul | div | mod | min | max
  deriving DecidableEq, Repr, Inhabited

namespace DimOp

/-- Arithmetic wraps at 64 bits, division and remainder go toward zero, and a zero divisor has no
value. -/
def apply : DimOp → Int64 → Int64 → Option Int64
  | add, a, b => some (a + b)
  | sub, a, b => some (a - b)
  | mul, a, b => some (a * b)
  | div, a, b => if b = 0 then none else some (a / b)
  | mod, a, b => if b = 0 then none else some (a % b)
  | min, a, b => some (if a ≤ b then a else b)
  | max, a, b => some (if a ≤ b then b else a)

def symbol : DimOp → String
  | add => "+"
  | sub => "-"
  | mul => "*"
  | div => "/"
  | mod => "%"
  | min => "min"
  | max => "max"

/-- Whether the operator is written before its operands, as a call. -/
def isCall : DimOp → Bool
  | min | max => true
  | _ => false

/-- The name of a node headed by the operator. -/
def label : DimOp → String
  | add => "Add"
  | sub => "Sub"
  | mul => "Mul"
  | div => "Div"
  | mod => "Mod"
  | min => "Min"
  | max => "Max"

end DimOp

/-- A symbolic integer dimension. -/
inductive Dim where
  | const (value : Int64)
  | var (name : String)
  | node (op : DimOp) (lhs rhs : Dim)
  deriving DecidableEq, Repr

instance : Inhabited Dim := ⟨.const 0⟩

/-- An assignment of values to some of the variable names. -/
abbrev Bindings := String → Option Int64

namespace Bindings

def empty : Bindings := fun _ => none

def ofList (pairs : List (String × Int64)) : Bindings := fun name => pairs.lookup name

/-- The assignment of both, in which the first wins on a name that both bind. -/
def extend (first second : Bindings) : Bindings := fun name => (first name).or (second name)

end Bindings

namespace Dim

/-- The value of a constant, and nothing for any other tree, whether or not it could be folded to
one. -/
def constant? : Dim → Option Int64
  | const v => some v
  | _ => none

def isConstant (d : Dim) : Bool := d.constant?.isSome

def isOne (d : Dim) : Bool := d.constant? == some 1

/-- The value under an assignment; there is none when a name is unbound or a divisor is zero. -/
def evaluate (bindings : Bindings) : Dim → Option Int64
  | const v => some v
  | var name => bindings name
  | node op lhs rhs => do
      let a ← lhs.evaluate bindings
      let b ← rhs.evaluate bindings
      op.apply a b

/-- A node over two folded trees: a constant when both are constants and the operator has a value
there. -/
def fold (op : DimOp) (lhs rhs : Dim) : Dim :=
  match lhs, rhs with
  | const a, const b => (op.apply a b).elim (node op (const a) (const b)) const
  | l, r => node op l r

/-- Folds every node whose operands fold to constants; a division by a constant zero stays as it
is. -/
def simplify : Dim → Dim
  | const v => const v
  | var name => var name
  | node op lhs rhs => fold op lhs.simplify rhs.simplify

/-- Replaces the bound variables by their values and folds; the other variables stay. -/
def substitute (bindings : Bindings) : Dim → Dim
  | const v => const v
  | var name => (bindings name).elim (var name) const
  | node op lhs rhs => fold op (lhs.substitute bindings) (rhs.substitute bindings)

/-- The variable names at the leaves, from left to right. -/
def leafNames : Dim → List String
  | const _ => []
  | var name => [name]
  | node _ lhs rhs => lhs.leafNames ++ rhs.leafNames

/-- Puts a name at its place in an ascending list that holds each name once. -/
def insertName (name : String) : List String → List String
  | [] => [name]
  | head :: tail =>
      if name < head then name :: head :: tail else if name = head then head :: tail
      else head :: insertName name tail

/-- An ascending list with the given names, each once. -/
def sortNames (names : List String) : List String := names.foldr insertName []

/-- The variable names of the tree in ascending order, each once. -/
def variableNames (d : Dim) : List String := sortNames d.leafNames

/-- The written form: infix operators in parentheses, `min` and `max` as calls. -/
def text : Dim → String
  | const v => toString v.toInt
  | var name => name
  | node op lhs rhs =>
      if op.isCall then op.symbol ++ "(" ++ lhs.text ++ "," ++ rhs.text ++ ")"
      else "(" ++ lhs.text ++ " " ++ op.symbol ++ " " ++ rhs.text ++ ")"

/-- The name of what stands at the root. -/
def rootLabel : Dim → String
  | const _ => "Constant"
  | var _ => "Variable"
  | node op _ _ => op.label

end Dim

end TensorDataflow
