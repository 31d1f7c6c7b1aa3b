import TensorDataflow.Engine.Basic
import TensorDataflow.Engine.Metrics
import TensorDataflow.Graph.Descriptor
import TensorDataflow.Graph.Inference
import TensorDataflow.Graph.Validity
/-!
# Running graphs

A run checks the graph, then dispatches its operators in order to the kernels registered for the
context's device. A kernel brings the operator's descriptor up to date, asks how much workspace it
needs, and launches it on the buffers of the operator's tensors; the first failure ends the run and
what was computed before it stays. There is no clock, so durations are zero.
-/

namespace TensorDataflow

namespace Engine

/-- A failure of a graph as one of an engine. -/
def onGraphOf {α : Type} (act : GraphAct GraphError α) : GraphAct EngineError α :=
  act.mapError .graph

/-- What the graph itself says. -/
def askGraph {α : Type} (question : Graph → Except GraphError α) : GraphAct EngineError α := do
  Act.ofExcept ((question (← get).2).mapError .graph)

/-- An action on the machine alone, for a graph. -/
def machineOf {α : Type} (act : Act Machine EngineError α) : GraphAct EngineError α :=
  Graph.onMachine act

/-- Where the data of a tensor lie. -/
def dataAddress (g : Graph) (id : TensorId) : Except GraphError Address := do
  let t ← g.tensor id
  match t.data with
  | some b => return b.address
  | none => throw (.notAllocated id)

/-- Launches the descriptor of an operator on the buffers of its outputs and of the given inputs. -/
def launch (e : Engine) (c : Context) (op : Operator) (inputs : List TensorId) (args : LaunchArgs) :
    GraphAct EngineError Unit := do
  let desc ← onGraphOf (Graph.createDescriptor op.id e.library c.device c.deviceId)
  let size ← machineOf (native (NativeAct.workspaceSize e.library desc))
  let workspace ← Act.ofExcept (e.workspaceFor size)
  let outputs ← askGraph fun g => op.outputs.mapM (dataAddress g)
  let inputs ← askGraph fun g => inputs.mapM (dataAddress g)
  machineOf (native (NativeAct.launch e.library desc workspace size outputs inputs args))

/-- Copies the bias of a product into its output, whose span it must have. -/
def copyBias (e : Engine) (bias output : TensorId) : GraphAct EngineError Unit := do
  let (c, y, size) ← askGraph fun g => do
    let c ← g.tensor bias
    let y ← g.tensor output
    let size ← y.totalBytes
    let span ← c.totalBytes
    if span = size then return (c, y, size) else throw (.dataMismatch bias (.biasSpan span size))
  let target ← askGraph fun g => dataAddress g output
  let source ← askGraph fun g => dataAddress g bias
  machineOf (native (NativeAct.memcpy e.backend target source size
    (.between c.device.isCpu y.device.isCpu)))

/-- Computes a product; without a bias nothing of the old output is kept. -/
def runGemm (e : Engine) (c : Context) (op : Operator) (attributes : Gemm) :
    GraphAct EngineError Unit :=
  match op.inputs, op.outputs with
  | a :: b :: rest, y :: _ => do
      let beta ← match rest with
        | bias :: _ => do
            e.copyBias bias y
            pure attributes.beta
        | [] => pure 0#_
      e.launch c op [a, b] (.scale attributes.alpha beta)
  | _, _ => throw (.graph (.invalidGraph (.missingOperands op.id)))

/-- Runs an operator with a kernel. -/
def compute (e : Engine) (c : Context) (kernel : KernelKind) (op : Operator) :
    GraphAct EngineError Unit :=
  match kernel, op.kind with
  | .idle, _ => pure ()
  | .elementwise, _ => e.launch c op op.inputs .plain
  | .gemm, .gemm attributes => e.runGemm c op attributes
  | .rmsNorm, .rmsNorm _ => e.launch c op op.inputs .plain
  | kernel, _ => throw (.kernelMismatch kernel op.type)

/-- Dispatches one operator and records it. -/
def dispatch (e : Engine) (c : Context) (metrics : RunMetrics) (op : Operator) :
    GraphAct EngineError RunMetrics := do
  let (record, _) ← Act.ofExcept (e.kernels.get c.device op.type)
  e.compute c record.kernel op
  let metrics := metrics.recordDispatch
  return if e.config.profiling
    then metrics.recordOp ⟨op.id, op.type, record.name, .zero⟩ else metrics

/-- Runs all operators of a graph in a context. -/
def runIn (e : Engine) (c : Context) : GraphAct EngineError RunMetrics := do
  askGraph Graph.checkBeforeRun
  (← get).2.ops.foldlM (e.dispatch c) (.empty c.device)

/-- Runs all operators of a graph in the context of the running thread. -/
def run (e : Engine) : GraphAct EngineError RunMetrics := do e.runIn (← machineOf e.currentContext)

/-- Gives every tensor of a graph a buffer on the device of the running thread. -/
def realiseData (e : Engine) : GraphAct EngineError Unit :=
  Graph.eachTensor (Tensor.realise e.memory)

/-- Releases the buffers of all tensors. -/
def releaseData (e : Engine) : GraphAct EngineError Unit :=
  Graph.eachTensor (Tensor.releaseData e.memory)

/-- Sorts a graph, binds its variables, gives its tensors buffers and runs it. -/
def execute (e : Engine) (bindings : Bindings) : GraphAct EngineError RunMetrics := do
  onGraphOf Graph.sort
  let _ ← onGraphOf (Graph.onGraph (Graph.resolve bindings))
  e.realiseData
  e.run

end Engine

end TensorDataflow
