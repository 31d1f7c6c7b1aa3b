import TensorDataflow.Decimal.Fixed
import TensorDataflow.Device.Kind
import TensorDataflow.Graph.Error
import TensorDataflow.Json.Value
/-!
# Metrics of a run

What a run has dispatched, with durations as natural numbers of nanoseconds. They are summed and
compared exactly; only the summary turns them into milliseconds, in double precision and with three
decimal places.
-/

namespace TensorDataflow

/-- A span of time in nanoseconds. -/
structure Duration where
  nanos : Nat
  deriving DecidableEq, Repr, Inhabited

namespace Duration

def zero : Duration := ⟨0⟩

/-- Nanoseconds in a second. -/
def second : Nat := 1000000000

/-- The nanoseconds as a counter of one word shows them, which starts again at zero when it is
full. -/
def counter (d : Duration) : UInt64 := .ofNat d.nanos

/-- The seconds and the rest are turned into doubles separately and put together again before they
are scaled. -/
def milliseconds (d : Duration) : Float :=
  ((d.nanos / second).toFloat + (d.nanos % second).toFloat / second.toFloat) * 1000.0

def text (d : Duration) : String :=
  (FloatFormat.double.decode d.milliseconds.toBits.toNat).fixed 3 ++ "ms"

def toJson (d : Duration) : JsonValue :=
  .object [(some "secs", .integer (d.nanos / second : Nat)),
      (some "nanos", .integer (d.nanos % second : Nat))]

end Duration

/-- One dispatched operator with the kernel that ran it. -/
structure OpMetrics where
  op : OpId
  type : OpType
  kernel : String
  duration : Duration
  deriving DecidableEq, Repr

def OpMetrics.toJson (m : OpMetrics) : JsonValue :=
  .object [(some "op", .integer m.op), (some "op_type", .ofText m.type.name),
    (some "kernel", .ofText m.kernel), (some "duration", m.duration.toJson)]

/-- What a run has done. -/
structure RunMetrics where
  device : DeviceKind
  total : Duration := .zero
  operatorsRun : Nat := 0
  ops : List OpMetrics := []
  deriving DecidableEq, Repr

namespace RunMetrics

def empty (device : DeviceKind) : RunMetrics := { device }

def recordDispatch (m : RunMetrics) : RunMetrics := { m with operatorsRun := m.operatorsRun + 1 }

def recordOp (m : RunMetrics) (op : OpMetrics) : RunMetrics := { m with ops := m.ops ++ [op] }

def finalise (m : RunMetrics) (total : Duration) : RunMetrics := { m with total }

/-- The time spent in the recorded operators. -/
def opTotal (m : RunMetrics) : Duration :=
  ⟨m.ops.foldr (fun op total => op.duration.nanos + total) 0⟩

/-- The slower of two operators, the later one if they took the same time. -/
def slower (a b : OpMetrics) : OpMetrics := if b.duration.nanos < a.duration.nanos then a else b

/-- The slowest recorded operator. -/
def slowest? (m : RunMetrics) : Option OpMetrics :=
  match m.ops with
  | [] => none
  | first :: rest => some (rest.foldl slower first)

def summary (m : RunMetrics) : String :=
  let slowest := match m.slowest? with
    | some op => ", slowest " ++ op.type.name ++ s!"[{op.op}] " ++ op.duration.text
    | none => ""
  "Run on " ++ m.device.label ++ ": " ++ m.total.text ++ s!" total, {m.operatorsRun} operators, " ++
    m.opTotal.text ++ " in kernels" ++ slowest

def toJson (m : RunMetrics) : JsonValue :=
  .object [(some "device", .ofText m.device.tag), (some "total_duration", m.total.toJson),
    (some "operators_run", .integer m.operatorsRun),
    (some "op_metrics", .array (m.ops.map OpMetrics.toJson))]

end RunMetrics

end TensorDataflow
