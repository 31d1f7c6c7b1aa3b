import TensorDataflow.Dim.Basic
/-!
# One dimension per axis

A shape and a stride are both a list of dimensions, kept apart by the role of their axes: an extent
has a value only where it is not negative, a step at every word. Everything that reads an axis by
position says which positions exist in its error.
-/

namespace TensorDataflow

/-- What the entries of a sequence stand for. -/
inductive AxisRole where
  | extent | step
  deriving DecidableEq, Repr

namespace AxisRole

/-- The type of a concrete entry. -/
abbrev Value : AxisRole → Type
  | extent => Nat
  | step => Int

/-- The entry that a word stands for, if any. -/
def ofWord : (role : AxisRole) → Int64 → Option role.Value
  | extent, v => if 0 ≤ v.toInt then some v.toInt.toNat else none
  | step, v => some v.toInt

/-- Where a word stands for an extent the two are the same number. -/
theorem ofWord_extent_eq_some_iff {v : Int64} {n : Nat} :
    ofWord extent v = some n ↔ v.toInt = n := by
  rw [ofWord]
  split
  · rw [Option.some_inj]
    change v.toInt.toNat = n ↔ _
    omega
  · simp only [false_iff, reduceCtorEq]
    omega

def name : AxisRole → String
  | extent => "shape"
  | step => "stride"

end AxisRole

/-- A list of dimensions, one per axis. -/
@[ext] structure Axes (role : AxisRole) where
  dims : List Dim
  deriving DecidableEq, Repr

/-- The extents of a tensor. -/
abbrev Shape := Axes .extent

/-- The element steps of a tensor. -/
abbrev Stride := Axes .step

/-- What can go wrong when shapes and strides are read or combined. -/
inductive ShapeError where
  | indexOutOfRange (index rank : Nat)
  | insertOutOfRange (position rank : Nat)
  | notConcrete (role : AxisRole) (value : String)
  | broadcastMismatch (lhs rhs : String) (axis : Nat)
  | rankMismatch (shapeRank strideRank : Nat)
  deriving DecidableEq, Repr

def ShapeError.message : ShapeError → String
  | indexOutOfRange index rank => s!"axis index {index} out of range for rank {rank}"
  | insertOutOfRange position rank => s!"insert position {position} out of range for rank {rank}"
  | notConcrete role value => role.name ++ " " ++ value ++ " is not concrete"
  | broadcastMismatch lhs rhs axis =>
      s!"cannot broadcast {lhs} with {rhs}: axis {axis} differs and neither side is 1"
  | rankMismatch shapeRank strideRank =>
      s!"shape rank {shapeRank} does not match stride rank {strideRank}"

/-- The spelling of the cause in the interchange form. -/
def ShapeError.tag : ShapeError → String
  | indexOutOfRange .. => "IndexOutOfRange"
  | insertOutOfRange .. => "InsertOutOfRange"
  | notConcrete .. => "NotConcrete"
  | broadcastMismatch .. => "BroadcastMismatch"
  | rankMismatch .. => "RankMismatch"

namespace Axes

variable {role : AxisRole}

instance : Inhabited (Axes role) := ⟨⟨[]⟩⟩

/-- The sequence without axes. -/
def scalar : Axes role := ⟨[]⟩

/-- The constant sequence of the given words. -/
def ofWords (words : List Int64) : Axes role := ⟨words.map .const⟩

def rank (axes : Axes role) : Nat := axes.dims.length

def get (axes : Axes role) (index : Nat) : Except ShapeError Dim :=
  match axes.dims[index]? with
  | some d => .ok d
  | none => .error (.indexOutOfRange index axes.rank)

def set (axes : Axes role) (index : Nat) (d : Dim) : Except ShapeError (Axes role) :=
  if index < axes.rank then .ok ⟨axes.dims.set index d⟩
  else .error (.indexOutOfRange index axes.rank)

/-- Puts an axis in front of the given position; the position after the last appends. -/
def insert (axes : Axes role) (position : Nat) (d : Dim) : Except ShapeError (Axes role) :=
  if position ≤ axes.rank then .ok ⟨axes.dims.insertIdx position d⟩
  else .error (.insertOutOfRange position axes.rank)

def push (axes : Axes role) (d : Dim) : Axes role := ⟨axes.dims ++ [d]⟩

/-- Every axis is a constant. -/
def isConcrete (axes : Axes role) : Bool := axes.dims.all Dim.isConstant

def simplify (axes : Axes role) : Axes role := ⟨axes.dims.map Dim.simplify⟩

def substitute (bindings : Bindings) (axes : Axes role) : Axes role :=
  ⟨axes.dims.map (Dim.substitute bindings)⟩

/-- The entries under an assignment, if every axis has one. -/
def evaluate (bindings : Bindings) (axes : Axes role) : Option (List role.Value) :=
  axes.dims.mapM fun d => (d.evaluate bindings).bind role.ofWord

/-- The entries of a sequence of constants. -/
def values? (axes : Axes role) : Option (List role.Value) :=
  axes.dims.mapM fun d => d.constant?.bind role.ofWord

def variableNames (axes : Axes role) : List String :=
  Dim.sortNames (axes.dims.flatMap Dim.leafNames)

def text (axes : Axes role) : String := "[" ++ ", ".intercalate (axes.dims.map Dim.text) ++ "]"

/-- The entries of a sequence of constants, or the sequence as it is written. -/
def values (axes : Axes role) : Except ShapeError (List role.Value) :=
  match axes.values? with
  | some vs => .ok vs
  | none => .error (.notConcrete role axes.text)

end Axes

end TensorDataflow
