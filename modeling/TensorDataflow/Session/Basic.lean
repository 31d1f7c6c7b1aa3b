import TensorDataflow.Engine.Cache
import TensorDataflow.Engine.Run
import TensorDataflow.Session.Slots
/-!
# Sessions

A session is what a client of the library works with: one machine, whose first backend is the
client's own, and the graphs, engines, loose tensors, removed operators, contexts and addresses that
the client refers to by number. Every operation of a session resolves the numbers first and then
acts on what they stand for; a failure leaves what was done before it in place.
-/

namespace TensorDataflow

/-- What a number can stand for. -/
inductive HandleKind where
  | engine | graph | looseTensor | pointer | removedOperator | context
  deriving DecidableEq, Repr

def HandleKind.name : HandleKind → String
  | engine => "runtime"
  | graph => "graph"
  | looseTensor => "loose tensor"
  | pointer => "pointer"
  | removedOperator => "removed operator"
  | context => "context"

/-- Why an operation of a session failed. -/
inductive SessionError where
  | status (cause : Status)
  | graph (cause : GraphError)
  | engine (cause : EngineError)
  | unknownName (cause : DeviceError)
  | noHandle (kind : HandleKind)
  | pointerOverflow
  deriving DecidableEq, Repr

def SessionError.message : SessionError → String
  | status cause => cause.message
  | graph cause => cause.message
  | engine cause => cause.message
  | unknownName cause => cause.message
  | noHandle kind => kind.name
  | pointerOverflow => "offset overflows"

/-- The spelling of the cause in the interchange form, with a cause behind it after a point. -/
def SessionError.tag : SessionError → String
  | status cause => cause.tag
  | graph cause => cause.tag
  | engine cause => cause.tag
  | unknownName cause => cause.tag
  | noHandle _ => "no_handle"
  | pointerOverflow => "PointerOverflow"

/-- The state of a session. -/
structure Session where
  machine : Machine
  ids : IdSupply := {}
  graphs : Slots Graph := {}
  engines : Slots Engine := {}
  loose : Slots Tensor := {}
  removed : Slots Operator := {}
  contexts : Slots Context := {}
  cache : ContextCache := {}
  addresses : List Address := []
  lastThread : ThreadId := 0

/-- An action of a session. -/
abbrev SessionAct := Act Session SessionError

namespace Session

/-- The number of the client's own backend. -/
def ownBackend : BackendId := 0

/-- The client's own library, through its outside. -/
def ownLibrary : LibraryRef := ⟨ownBackend, true⟩

/-- Where a backend places its first block; the address ranges of backends lie far apart. -/
def originOf (id : BackendId) : Nat := (id + 6) * 0x100000000000

/-- A session with one empty graph. -/
def start (emulated : List DeviceKind) (rooms : List Nat := []) : Session :=
  { machine := ⟨[.fresh emulated (originOf ownBackend) rooms], 0⟩, graphs := ⟨[some .empty]⟩ }

/-- What a slot holds, or the failure of a number that stands for nothing. -/
def slot {α : Type} (kind : HandleKind) (slots : Session → Slots α) (n : Nat) : SessionAct α := do
  match (slots (← get)).get? n with
  | some a => return a
  | none => throw (.noHandle kind)

/-- Runs on a thread that has not run before, and returns to the present one. -/
def inFreshThread {α : Type} (act : StateM Session α) : StateM Session α := do
  let present := (← get).machine.thread
  modify fun s =>
    { s with
      lastThread := s.lastThread + 1
      machine := { s.machine with thread := s.lastThread + 1 } }
  let result ← act
  modify fun s => { s with machine := { s.machine with thread := present } }
  return result

/-! ### Names -/

def deviceNamed (name : String) : SessionAct DeviceKind :=
  Act.ofExcept ((DeviceKind.parse name).mapError .unknownName)

def elementNamed (name : String) : SessionAct ElementKind :=
  Act.ofExcept ((ElementKind.parse name).mapError .unknownName)

/-! ### Addresses -/

/-- How a client names an address: by number, by number and distance, or as it is. -/
inductive PointerRef where
  | number (n : Nat)
  | shifted (n : Nat) (bytes : Nat)
  | raw (address : Nat)
  deriving DecidableEq, Repr

/-- The address with a number; the first has the number one. -/
def numbered (n : Nat) : SessionAct Address := do
  match n, (← get).addresses[n - 1]? with
  | _ + 1, some a => return a
  | _, _ => throw (.noHandle .pointer)

def address : PointerRef → SessionAct Address
  | .number n => numbered n
  | .shifted n bytes => do
      match (← numbered n).offset? bytes with
      | some a => return a
      | none => throw .pointerOverflow
  | .raw n =>
      match Address.ofNat? n with
      | some a => pure a
      | none => throw (.noHandle .pointer)

/-- Gives an address a new number. -/
def newNumber (a : Address) : SessionAct Nat := do
  let s ← get
  set { s with addresses := s.addresses ++ [a] }
  return s.addresses.length + 1

/-- The latest number of an address, or a new one. -/
def numberOf (a : Address) : SessionAct Nat := do
  let s ← get
  match (s.addresses.zipIdx 1).reverse.find? fun e => e.1 = a with
  | some (_, n) => return n
  | none => newNumber a

/-- A buffer as the client sees it. -/
def numberedBuffer : Option Buffer → SessionAct (Option (Nat × Nat))
  | none => pure none
  | some b => do return some (← numberOf b.address, b.size)

/-! ### The machine -/

/-- An action on the machine. -/
def onMachine {ε α : Type} (wrap : ε → SessionError) (act : Act Machine ε α) : SessionAct α :=
  Act.on machine (fun machine s => { s with machine }) (act.mapError wrap)

/-- A native call, whose failures are shown as they are. -/
def native {α : Type} (call : NativeAct α) : SessionAct α := onMachine .status call

/-- The client's own backend. -/
def own (s : Session) : Backend := s.machine.backend ownBackend

/-- A native call that makes a block, whose address gets a new number. -/
def allocate (call : NativeAct Address) : SessionAct Nat := do newNumber (← native call)

def modifyOwn (f : Backend → Backend) : SessionAct Unit :=
  modify fun s => { s with machine := s.machine.setBackend ownBackend (f s.own) }

/-- Plans a fault on the client's own backend. -/
def inject (fault : Fault) : SessionAct Unit :=
  modifyOwn fun b => { b with faults := b.faults ++ [fault] }

/-- Takes what the client's own library has logged. -/
def takeLog : SessionAct (List LogEntry) := do
  let log := (← get).own.log
  modifyOwn fun b => { b with log := [] }
  return log

def locate (p : PointerRef) : SessionAct (Option Location) := do
  let a ← address p
  return (← get).own.device.location? a

def checkRange (p : PointerRef) (length : Nat) : SessionAct Location := do
  let a ← address p
  Act.ofExcept (((← get).own.device.checkRange a length).mapError .status)

end Session

end TensorDataflow
