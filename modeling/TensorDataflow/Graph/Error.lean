import TensorDataflow.Device.Error
import TensorDataflow.Dim.Axes
/-!
# What can go wrong with a graph

Every failure of building, transforming, checking or filling a graph as a cause with the values that
its text names. The texts are given here once, in `GraphError.message`.
-/

namespace TensorDataflow

/-- The number of a tensor. -/
abbrev TensorId := Nat

/-- The number of an operator. -/
abbrev OpId := Nat

/-- The type of an operator, under which kernels are registered. -/
inductive OpType where
  | add | gemm | mul | sub | rmsNorm
  deriving DecidableEq, Repr

namespace OpType

def all : List OpType := [add, gemm, mul, sub, rmsNorm]

def name : OpType → String
  | add => "Add"
  | gemm => "Gemm"
  | mul => "Mul"
  | sub => "Sub"
  | rmsNorm => "RMSNorm"

def ofName? (text : String) : Option OpType := all.find? fun type => type.name == text

end OpType

/-- Why the shapes of an operator's inputs do not fit together. -/
inductive ShapeConflict where
  | broadcast (cause : ShapeError)
  | operandRank (tensor : TensorId) (rank : Nat)
  | batch (left right : Dim)
  | contraction (left right : Dim)
  | bias (bias output : Shape)
  | weight (weight input : Shape)
  deriving DecidableEq, Repr

def ShapeConflict.message : ShapeConflict → String
  | broadcast cause => cause.message
  | operandRank tensor rank => s!"operand {tensor} has rank {rank}, expected 2 or 3"
  | batch left right => "batch " ++ left.text ++ " vs " ++ right.text
  | contraction left right => "contraction " ++ left.text ++ " vs " ++ right.text
  | bias given output => "bias " ++ given.text ++ " vs output " ++ output.text
  | weight given input =>
      "weight " ++ given.text ++ " does not match the last axis of " ++ input.text

/-- What an operator has too many or too few of. -/
inductive ArityPart where
  | inputs | outputs | inferredShapes | inferredKinds
  deriving DecidableEq, Repr

def ArityPart.name : ArityPart → String
  | inputs => "inputs"
  | outputs => "outputs"
  | inferredShapes => "inferred shapes"
  | inferredKinds => "inferred dtypes"

/-- A structural fault of a graph. -/
inductive GraphFlaw where
  | tensorTwice (tensor : TensorId)
  | operatorTwice (op : OpId)
  | isolated (tensor : TensorId)
  | missingSource (tensor : TensorId) (source : OpId)
  | notOutputOfSource (tensor : TensorId) (source : OpId)
  | missingTarget (tensor : TensorId) (target : OpId)
  | notInputOfTarget (tensor : TensorId) (target : OpId)
  | missingInput (op : OpId) (input : TensorId)
  | inputWithoutTarget (op : OpId) (input : TensorId)
  | missingOutput (op : OpId) (output : TensorId)
  | outputWithOtherSource (op : OpId) (output : TensorId)
  | missingPredecessor (op pred : OpId)
  | predecessorWithoutSuccessor (op pred : OpId)
  | missingSuccessor (op succ : OpId)
  | successorWithoutPredecessor (op succ : OpId)
  | unsorted
  | missingOperands (op : OpId)
  deriving DecidableEq, Repr

def GraphFlaw.message : GraphFlaw → String
  | tensorTwice tensor => s!"tensor {tensor} registered twice"
  | operatorTwice op => s!"operator {op} registered twice"
  | isolated tensor => s!"tensor {tensor} has neither a source nor a target"
  | missingSource tensor source => s!"tensor {tensor} has missing source operator {source}"
  | notOutputOfSource tensor source =>
      s!"tensor {tensor} names {source} as source but is not its output"
  | missingTarget tensor target => s!"tensor {tensor} has missing target operator {target}"
  | notInputOfTarget tensor target =>
      s!"tensor {tensor} names {target} as target but is not its input"
  | missingInput op input => s!"operator {op} has missing input tensor {input}"
  | inputWithoutTarget op input => s!"input {input} of operator {op} does not list it as target"
  | missingOutput op output => s!"operator {op} has missing output tensor {output}"
  | outputWithOtherSource op output => s!"output {output} of operator {op} has a different source"
  | missingPredecessor op pred => s!"operator {op} has missing predecessor {pred}"
  | predecessorWithoutSuccessor op pred =>
      s!"predecessor {pred} of operator {op} does not list it as successor"
  | missingSuccessor op succ => s!"operator {op} has missing successor {succ}"
  | successorWithoutPredecessor op succ =>
      s!"successor {succ} of operator {op} does not list it as predecessor"
  | unsorted => "operators are not topologically sorted"
  | missingOperands op => s!"gemm operator {op} is missing operands"

/-- Where a tensor's data, or the active device, should have been. -/
inductive ExpectedPlace where
  | device | host | accelerator
  deriving DecidableEq, Repr

def ExpectedPlace.name : ExpectedPlace → String
  | device => "a device"
  | host => "the host"
  | accelerator => "an accelerator as the active device"

/-- Why data do not fit a tensor. -/
inductive DataConflict where
  | count (expected actual : Nat)
  | hostKind (host tensor : ElementKind)
  | biasSpan (bias output : Nat)
  deriving DecidableEq, Repr

def DataConflict.message : DataConflict → String
  | count expected actual => s!"expected {expected} elements, got {actual}"
  | hostKind host tensor => "host type " ++ host.label ++ " does not match dtype " ++ tensor.label
  | biasSpan bias output => s!"bias spans {bias} bytes, output {output}"

/-- Why an operation on a graph failed. -/
inductive GraphError where
  | shape (cause : ShapeError)
  | device (cause : DeviceError)
  | invalidDimension (axis : Nat) (value : Int64) (shape : Shape)
  | rankMismatch (shape : Shape) (stride : Stride)
  | notConcrete (tensor : TensorId) (role : AxisRole) (value : String)
  | kindMismatch (op : OpType) (lhs rhs : ElementKind)
  | shapeMismatch (op : OpType) (conflict : ShapeConflict)
  | unsupportedOp (op : OpType)
  | arity (op : OpType) (part : ArityPart) (least most actual : Nat)
  | outputShapeMismatch (op : OpType) (index : Nat) (actual inferred : Shape)
  | tensorNotFound (tensor : TensorId)
  | operatorNotFound (op : OpId)
  | duplicateTensor (tensor : TensorId)
  | cycle (sorted total : Nat)
  | unsettled
  | invalidGraph (flaw : GraphFlaw)
  | notAllocated (tensor : TensorId)
  | wrongLocation (tensor : TensorId) (device : DeviceKind) (expected : ExpectedPlace)
  | dataMismatch (tensor : TensorId) (conflict : DataConflict)
  deriving DecidableEq, Repr

def GraphError.message : GraphError → String
  | shape cause => cause.message
  | device cause => cause.message
  | invalidDimension axis value extents =>
      s!"invalid dimension {value.toInt} at axis {axis} of shape " ++ extents.text
  | rankMismatch extents steps =>
      "shape " ++ extents.text ++ " and stride " ++ steps.text ++ " have different ranks"
  | notConcrete tensor role value => role.name ++ s!" of tensor {tensor} is not concrete: " ++ value
  | kindMismatch op lhs rhs => op.name ++ ": dtype mismatch, " ++ lhs.label ++ " vs " ++ rhs.label
  | shapeMismatch op conflict => op.name ++ ": incompatible shapes, " ++ conflict.message
  | unsupportedOp op => "unsupported operator kind " ++ op.name
  | arity op part least most actual =>
      let expected := if least = most then toString least else s!"{least}..={most}"
      op.name ++ ": expected " ++ expected ++ " " ++ part.name ++ s!", got {actual}"
  | outputShapeMismatch op index actual inferred =>
      op.name ++ s!": output {index} has shape " ++ actual.text ++ ", inferred " ++ inferred.text
  | tensorNotFound tensor => s!"tensor {tensor} not found in graph"
  | operatorNotFound op => s!"operator {op} not found in graph"
  | duplicateTensor tensor => s!"tensor {tensor} is already registered"
  | cycle sorted total => s!"graph contains a cycle: sorted {sorted} of {total} operators"
  | unsettled => "the operator order does not settle"
  | invalidGraph flaw => "invalid graph: " ++ flaw.message
  | notAllocated tensor => s!"tensor {tensor} has no data"
  | wrongLocation tensor place expected =>
      s!"tensor {tensor} is on " ++ place.label ++ ", expected " ++ expected.name
  | dataMismatch tensor conflict => s!"tensor {tensor}: " ++ conflict.message

/-- The spelling of the cause in the interchange form, with a cause behind it after a point. -/
def GraphError.tag : GraphError → String
  | shape cause => "Shape." ++ cause.tag
  | device cause => "Device." ++ cause.tag
  | invalidDimension .. => "InvalidDimension"
  | rankMismatch .. => "RankMismatch"
  | notConcrete .. => "NotConcrete"
  | kindMismatch .. => "DTypeMismatch"
  | shapeMismatch .. => "ShapeMismatch"
  | unsupportedOp .. => "UnsupportedOp"
  | arity .. => "Arity"
  | outputShapeMismatch .. => "OutputShapeMismatch"
  | tensorNotFound .. => "TensorNotFound"
  | operatorNotFound .. => "OperatorNotFound"
  | duplicateTensor .. => "DuplicateTensor"
  | cycle .. => "Cycle"
  | unsettled => "Unsettled"
  | invalidGraph .. => "InvalidGraph"
  | notAllocated .. => "NotAllocated"
  | wrongLocation .. => "WrongLocation"
  | dataMismatch .. => "DataMismatch"

end TensorDataflow
