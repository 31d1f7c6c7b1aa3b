import TensorDataflow.Session.Graphs
/-!
# Engines of a session

Engines are made on the client's own backend, or each on a fresh one that emulates every device
kind. A tensor takes its data from the client's own backend directly, or from an engine.
-/

namespace TensorDataflow

namespace Session

variable {α : Type}

def engineAt (n : Nat) : SessionAct Engine := slot .engine engines n

def addEngine (e : Engine) : SessionAct Nat := do
  let s ← get
  let (n, engines) := s.engines.add e
  set { s with engines }
  return n

/-! ### Contexts at hand -/

/-- Whether a number stands for an engine. -/
def alive (s : Session) (n : Nat) : Bool := (s.engines.get? n).isSome

/-- What the running thread has at hand for an engine; a thread that has nothing drops what it has
for engines that are gone. -/
def cachedContext (n : Nat) : SessionAct (Option Context) := do
  let s ← get
  match s.cache.find? s.machine.thread n with
  | some c => return some c
  | none =>
      set { s with cache := s.cache.prune s.machine.thread s.alive }
      return none

/-- Puts a context at hand for the running thread. -/
def cacheContext (n : Nat) (c : Context) : SessionAct Unit :=
  modify fun s => { s with cache := s.cache.keep s.machine.thread s.alive n c }

/-- The context of the running thread on an engine, from what the thread has at hand or else from
the engine. -/
def currentContext (n : Nat) : SessionAct Context := do
  let e ← engineAt n
  match ← cachedContext n with
  | some c => return c
  | none =>
      let c ← onMachine .engine e.currentContext
      cacheContext n c
      return c

/-! ### Coming and going -/

/-- Takes in an engine that has come up, with the context of the running thread at hand. -/
def takeIn (create : Act Machine EngineError Engine) : SessionAct Nat := do
  let n ← addEngine (← onMachine .engine create)
  let _ ← currentContext n
  return n

/-- An engine on the client's own backend. -/
def openEngine (kernels : KernelRegistry) (config : Config) : SessionAct Nat :=
  takeIn (Engine.create ownBackend kernels config)

/-- An engine with the built-in kernels on a backend of its own. -/
def openHostEngine (config : Config) : SessionAct Nat := do
  let s ← get
  let id := s.machine.backends.length
  let emulated := DeviceKind.all.filter fun kind => !kind.isCpu
  set { s with
    machine := { s.machine with
      backends := s.machine.backends ++ [Backend.fresh emulated (originOf id)] } }
  takeIn (Engine.create id .builtin config)

/-- Gives an engine up, with what the running thread has at hand for it. -/
def dropEngine (n : Nat) : SessionAct Unit := do
  let e ← engineAt n
  onMachine (fun e : SessionError => e) e.close
  modify fun s =>
    { s with engines := s.engines.erase n, cache := s.cache.forget s.machine.thread n }

/-- Runs an action on an engine and the machine. -/
def onEngine (n : Nat) (act : EngineAct α) : SessionAct α := do
  let e ← engineAt n
  let s ← get
  let (result, machine, e) := act (s.machine, e)
  set { s with machine, engines := s.engines.set n e }
  Act.ofExcept (result.mapError .engine)

/-- Asks something of an engine that leaves it as it is. -/
def useEngine (n : Nat) (act : Engine → Act Machine EngineError α) : SessionAct α := do
  onMachine .engine (act (← engineAt n))

/-- Gives a context a number. -/
def keepContext (c : Context) : SessionAct (Nat × Context) := do
  let s ← get
  let (n, contexts) := s.contexts.add c
  set { s with contexts }
  return (n, c)

/-- Binds the running thread to a device of an engine; a thread that has a context at hand keeps
it. -/
def openContext (n : Nat) (device : DeviceKind) (deviceId : Nat) : SessionAct (Nat × Context) := do
  let _ ← engineAt n
  match ← cachedContext n with
  | some c => keepContext c
  | none =>
      let c ← onEngine n (Engine.enter device deviceId)
      cacheContext n c
      keepContext c

/-- Binds the running thread, which must have a context, to a device of an engine; on the device
that it is bound to it keeps its context. -/
def switchContext (n : Nat) (device : DeviceKind) (deviceId : Nat) :
    SessionAct (Nat × Context) := do
  let old ← currentContext n
  if old.device = device ∧ old.deviceId = deviceId then keepContext old
  else
    let c ← onEngine n (Engine.replaceContext old device deviceId)
    cacheContext n c
    keepContext c

/-- The number of the workspace's address, if the workspace is large enough. -/
def workspace (n : Nat) (size : Nat) : SessionAct Nat := do
  let e ← engineAt n
  numberOf (← Act.ofExcept ((e.workspaceFor size).mapError .engine))

/-- Runs an action of an engine on a graph. -/
def onEngineGraph (n : Nat) (g : Nat) (act : Engine → GraphAct EngineError α) : SessionAct α := do
  let e ← engineAt n
  onGraph g .engine (act e)

def runIn (n : Nat) (context : Nat) (g : Nat) : SessionAct RunMetrics := do
  let e ← engineAt n
  let c ← slot .context contexts context
  onGraph g .engine (e.runIn c)

/-- Runs an action on a tensor with the memory of the client's own backend, or of an engine. -/
def onTensorData (memory : Option Nat) (ref : TensorRef)
    (act : {ε : Type} → TensorMemory ε → TensorAct ε α) : SessionAct α := do
  match memory with
  | none => onTensor ref .graph (act (directMemory ownBackend))
  | some n =>
      let e ← engineAt n
      onTensor ref .engine (act e.memory)

end Session

end TensorDataflow
