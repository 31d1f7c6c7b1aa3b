import TensorDataflow.Graph.Descriptor
import TensorDataflow.Proofs.Machine.Act
/-!
# Native calls on a calm backend

On a backend for which no faults are planned a native call does what its body says and nothing else,
so a sequence of library calls leaves the machine as it was with another library. A descriptor is
then built exactly when the device is there, every operand's layout is accepted and the operator
compiles; whatever was in the library before stays in it.
-/

namespace TensorDataflow

namespace Machine

/-- A backend that is there and has no faults planned. -/
structure Calm (id : BackendId) (m : Machine) : Prop where
  there : id < m.backends.length
  faults : (m.backend id).faults = []

def library (m : Machine) (id : BackendId) : OpLibrary := (m.backend id).library

def device (m : Machine) (id : BackendId) : HostDevice := (m.backend id).device

def withLibrary (m : Machine) (id : BackendId) (l : OpLibrary) : Machine :=
  m.setBackend id { m.backend id with library := l }

theorem setBackend_backend (m : Machine) (id : BackendId) : m.setBackend id (m.backend id) = m := by
  obtain ⟨backends, thread⟩ := m
  rw [setBackend, backend, Machine.mk.injEq]
  refine ⟨?_, rfl⟩
  by_cases hthere : id < backends.length
  · simp [List.getD_eq_getElem?_getD, List.getElem?_eq_getElem hthere]
  · exact List.set_eq_of_length_le (Nat.le_of_not_lt hthere)

theorem withLibrary_library (m : Machine) (id : BackendId) : m.withLibrary id (m.library id) = m :=
  m.setBackend_backend id

theorem backend_setBackend {m : Machine} {id : BackendId} (hthere : id < m.backends.length)
    (b : Backend) : (m.setBackend id b).backend id = b := by
  rw [setBackend, backend, List.getD_eq_getElem?_getD, List.getElem?_set_self hthere,
    Option.getD_some]

theorem backend_setBackend_of_ne (m : Machine) {id other : BackendId} (h : other ≠ id)
    (b : Backend) : (m.setBackend other b).backend id = m.backend id := by
  rw [setBackend, backend, backend, List.getD_eq_getElem?_getD, List.getD_eq_getElem?_getD,
    List.getElem?_set_ne h]

section Calm

variable {m : Machine} {id : BackendId} (hcalm : m.Calm id)

include hcalm

theorem Calm.backend_setBackend (b : Backend) : (m.setBackend id b).backend id = b :=
  Machine.backend_setBackend hcalm.there b

theorem Calm.setBackend {b : Backend} (hfaults : b.faults = []) : (m.setBackend id b).Calm id where
  there := by
    rw [Machine.setBackend, List.length_set]
    exact hcalm.there
  faults := by rw [hcalm.backend_setBackend, hfaults]

theorem Calm.withLibrary (l : OpLibrary) : (m.withLibrary id l).Calm id :=
  hcalm.setBackend hcalm.faults

theorem Calm.library_withLibrary (l : OpLibrary) : (m.withLibrary id l).library id = l := by
  rw [library, Machine.withLibrary, hcalm.backend_setBackend]

theorem Calm.device_withLibrary (l : OpLibrary) : (m.withLibrary id l).device id = m.device id := by
  rw [device, Machine.withLibrary, hcalm.backend_setBackend, device]

theorem Calm.withLibrary_withLibrary (l l' : OpLibrary) :
    (m.withLibrary id l).withLibrary id l' = m.withLibrary id l' := by
  rw [Machine.withLibrary, Machine.withLibrary, hcalm.backend_setBackend]
  simp [Machine.withLibrary, Machine.setBackend]

/-- What a call leaves that changes nothing of a backend but its device and its log. -/
structure Renewed (id : BackendId) (d : HostDevice) (m m' : Machine) : Prop where
  thread : m'.thread = m.thread
  calm : m'.Calm id
  library : m'.library id = m.library id
  device : m'.device id = d

theorem Calm.renewed {b : Backend} (hlibrary : b.library = m.library id) (hfaults : b.faults = []) :
    m.Renewed id b.device (m.setBackend id b) where
  thread := rfl
  calm := hcalm.setBackend hfaults
  library := by rw [Machine.library, hcalm.backend_setBackend, hlibrary]
  device := by rw [Machine.device, hcalm.backend_setBackend]

end Calm

theorem Renewed.trans {id : BackendId} {d d' : HostDevice} {m m' m'' : Machine}
    (h : m.Renewed id d m') (h' : m'.Renewed id d' m'') : m.Renewed id d' m'' :=
  ⟨h'.thread.trans h.thread, h'.calm, h'.library.trans h.library, h'.device⟩

end Machine

namespace NativeAct

/-- A call goes through exactly if no fault strikes it and its body succeeds. -/
theorem invoke_eq_ok_iff {α : Type} {lib : LibraryRef} {call : NativeCall}
    {body : ThreadId → Backend → Except Status (α × Backend)} {m m' : Machine} {a : α} :
    invoke lib call body m = (.ok a, m') ↔ ∃ faults b,
      (if lib.guarded then Fault.strike call (m.backend lib.backend).faults
          else (none, (m.backend lib.backend).faults)) = (none, faults) ∧
        body m.thread { m.backend lib.backend with faults } = .ok (a, b) ∧
        m.setBackend lib.backend b = m' := by
  rw [invoke]
  rcases (if lib.guarded then Fault.strike call (m.backend lib.backend).faults
        else (none, (m.backend lib.backend).faults)) with ⟨_ | status, faults⟩
  · dsimp only
    cases hbody : body m.thread { m.backend lib.backend with faults } with
    | error status =>
        refine ⟨(nomatch ·), ?_⟩
        rintro ⟨_, b, hfaults, hok, _⟩
        cases hfaults
        rw [hbody] at hok
        cases hok
    | ok result =>
        obtain ⟨a', b⟩ := result
        constructor
        · intro h
          cases h
          exact ⟨faults, b, rfl, hbody, rfl⟩
        · rintro ⟨_, b', hfaults, hok, rfl⟩
          cases hfaults
          rw [hbody] at hok
          cases hok
          rfl
  · refine ⟨(nomatch ·), ?_⟩
    rintro ⟨_, b, hfaults, _⟩
    cases hfaults

theorem changeDevice_eq_ok_iff {id : BackendId} {call : NativeCall}
    {change : ThreadId → HostDevice → Except Status HostDevice} {m m' : Machine} :
    changeDevice id call change m = (.ok (), m') ↔
    ∃ faults d, Fault.strike call (m.backend id).faults = (none, faults) ∧
    change m.thread (m.device id) = .ok d ∧
      m.setBackend id { m.backend id with device := d, faults } = m' := by
  rw [changeDevice, invoke_eq_ok_iff]
  simp only [if_true]
  refine exists_congr fun faults => ?_
  rw [Machine.device]
  cases change m.thread (m.backend id).device with
  | error status => simp [bind, Except.bind]
  | ok d => simp [bind, Except.bind, pure, Except.pure]

theorem useDevice_eq_ok_iff {α : Type} {id : BackendId} {call : NativeCall}
    {use : ThreadId → HostDevice → Except Status (α × HostDevice)} {m m' : Machine} {a : α} :
    useDevice id call use m = (.ok a, m') ↔ ∃ faults d, Fault.strike call (m.backend id).faults =
      (none, faults) ∧ use m.thread (m.device id) = .ok (a, d) ∧
      m.setBackend id { m.backend id with device := d, faults } = m' := by
  rw [useDevice, invoke_eq_ok_iff]
  simp only [if_true]
  refine exists_congr fun faults => ?_
  rw [Machine.device]
  cases use m.thread (m.backend id).device with
  | error status => simp [bind, Except.bind]
  | ok result => simp [bind, Except.bind, pure, Except.pure, Prod.ext_iff, and_assoc]

variable {α : Type} {m : Machine} {lib : LibraryRef} (hcalm : m.Calm lib.backend)

include hcalm

/-- Where no fault strikes, the body decides. -/
theorem invoke_apply (call : NativeCall) (body : ThreadId → Backend → Except Status (α × Backend)) :
    invoke lib call body m = match body m.thread (m.backend lib.backend) with
      | .ok (a, b) => (.ok a, m.setBackend lib.backend b)
      | .error status => (.error status, m) := by
  have hsame : { m.backend lib.backend with faults := [] } = m.backend lib.backend := by
    rw [← hcalm.faults]
  rw [invoke, hcalm.faults]
  cases hguard : lib.guarded with
  | true =>
      simp only [if_true, Fault.strike, hsame]
      cases body m.thread (m.backend lib.backend) with
      | ok result => rfl
      | error status => simp only [m.setBackend_backend]
  | false =>
      simp only [Bool.false_eq_true, if_false, hsame]
      cases body m.thread (m.backend lib.backend) with
      | ok result => rfl
      | error status => simp only [m.setBackend_backend]

theorem makeDescriptor_apply (call : NativeCall)
    (make : Backend → Except Status (Nat × OpLibrary)) :
    makeDescriptor lib call make m = match make (m.backend lib.backend) with
      | .ok (id, l) => (.ok id, m.withLibrary lib.backend l)
      | .error status => (.error status, m) := by
  rw [makeDescriptor, invoke_apply hcalm]
  cases make (m.backend lib.backend) <;> rfl

theorem changeLibrary_apply (call : NativeCall) (change : OpLibrary → Except Status OpLibrary) :
    changeLibrary lib call change m = match change (m.library lib.backend) with
      | .ok l => (.ok (), m.withLibrary lib.backend l)
      | .error status => (.error status, m) := by
  rw [changeLibrary, invoke_apply hcalm, Machine.library]
  cases change (m.backend lib.backend).library <;> rfl

theorem logged_renewed (entry : LogEntry) :
    (logged lib entry (m.backend lib.backend)).library = m.library lib.backend ∧
    (logged lib entry (m.backend lib.backend)).faults = [] ∧
    (logged lib entry (m.backend lib.backend)).device = m.device lib.backend := by
  unfold logged
  split
  · exact ⟨rfl, hcalm.faults, rfl⟩
  · exact ⟨rfl, hcalm.faults, rfl⟩

theorem workspaceSize_apply {desc : Nat} {c : CompiledOp}
    (h : (m.library lib.backend).ops.lookup desc = some c) :
    ∃ m', workspaceSize lib desc m = (.ok c.workspaceSize, m') ∧
    m.Renewed lib.backend (m.device lib.backend) m' := by
  have hsize : (m.backend lib.backend).library.workspaceSize desc = .ok c.workspaceSize := by
    rw [OpLibrary.workspaceSize, OpLibrary.compiled,
      show (m.backend lib.backend).library.ops.lookup desc = some c from h]
    rfl
  obtain ⟨hlibrary, hfaults, hdevice⟩ :=
    logged_renewed hcalm ⟨.workspaceSize, desc, c.workspaceSize⟩
  refine ⟨_, ?_, hdevice ▸ hcalm.renewed hlibrary hfaults⟩
  rw [workspaceSize, invoke_apply hcalm, hsize]
  rfl

theorem launch_apply {desc : Nat} {workspace : Address} {size : Nat} {outputs inputs : List Address}
    {args : LaunchArgs} {result : Except Status HostDevice}
    (h : (m.library lib.backend).launch (m.device lib.backend)
      desc workspace size outputs inputs args = result) :
    ∃ m', launch lib desc workspace size outputs inputs args m = (result.map fun _ => (), m') ∧
    ∀ d, result = .ok d → m.Renewed lib.backend d m' := by
  obtain ⟨hlibrary, hfaults, hdevice⟩ := logged_renewed hcalm ⟨.launch, desc, size⟩
  have hlogged := hcalm.renewed hlibrary hfaults
  have hfirst : (invoke lib .launch fun _ b =>
        .ok ((), logged lib ⟨.launch, desc, size⟩ b) : NativeAct Unit) m =
      (.ok (),
        m.setBackend lib.backend (logged lib ⟨.launch, desc, size⟩ (m.backend lib.backend))) := by
    rw [invoke_apply hcalm]
  rw [launch, Act.bind_of_ok hfirst, @invoke_apply _ _ ⟨lib.backend, false⟩ hlogged.calm,
    hcalm.backend_setBackend, hlibrary, hdevice, h]
  cases result with
  | error status => exact ⟨_, rfl, fun d hd => by cases hd⟩
  | ok d =>
      refine ⟨_, rfl, fun d' hd' => ?_⟩
      obtain rfl := Except.ok.inj hd'
      exact hlogged.trans
        (@Machine.Calm.renewed _ _ hlogged.calm ⟨d, _, _, _⟩ hlogged.library.symm hfaults)

omit hcalm in
theorem changeDevice_apply {id : BackendId} (hcalm : m.Calm id) (call : NativeCall)
    {change : ThreadId → HostDevice → Except Status HostDevice} {result : Except Status HostDevice}
    (h : change m.thread (m.device id) = result) : ∃ m', changeDevice id call change m =
      (result.map fun _ => (), m') ∧ ∀ d, result = .ok d → m.Renewed id d m' := by
  rw [changeDevice, @invoke_apply _ _ ⟨id, true⟩ hcalm]
  dsimp only [Machine.device] at h ⊢
  rw [h]
  cases result with
  | error status => exact ⟨_, rfl, fun d hd => by cases hd⟩
  | ok d =>
      refine ⟨_, rfl, fun d' hd' => ?_⟩
      obtain rfl := Except.ok.inj hd'
      exact @Machine.Calm.renewed _ _ hcalm ⟨d, _, _, _⟩ rfl hcalm.faults

omit hcalm in
theorem useDevice_apply {id : BackendId} (hcalm : m.Calm id) (call : NativeCall)
    {use : ThreadId → HostDevice → Except Status (α × HostDevice)} {a : α} {d : HostDevice}
    (h : use m.thread (m.device id) = .ok (a, d)) :
    ∃ m', useDevice id call use m = (.ok a, m') ∧ m.Renewed id d m' := by
  rw [useDevice, @invoke_apply _ _ ⟨id, true⟩ hcalm]
  dsimp only [Machine.device] at h ⊢
  rw [h]
  exact ⟨_, rfl, @Machine.Calm.renewed _ _ hcalm ⟨d, _, _, _⟩ rfl hcalm.faults⟩

omit hcalm in
theorem changeDevice_renewed {id : BackendId} (hcalm : m.Calm id) {call : NativeCall}
    {change : ThreadId → HostDevice → Except Status HostDevice} {m' : Machine}
    (h : changeDevice id call change m = (.ok (), m')) :
    ∃ d, change m.thread (m.device id) = .ok d ∧ m.Renewed id d m' := by
  obtain ⟨faults, d, hstrike, hchange, rfl⟩ := changeDevice_eq_ok_iff.1 h
  rw [hcalm.faults] at hstrike
  cases hstrike
  exact ⟨d, hchange,
    @Machine.Calm.renewed _ _ hcalm { m.backend id with device := d, faults := [] } rfl rfl⟩

omit hcalm in
theorem useDevice_renewed {id : BackendId} (hcalm : m.Calm id) {call : NativeCall}
    {use : ThreadId → HostDevice → Except Status (α × HostDevice)} {m' : Machine} {a : α}
    (h : useDevice id call use m = (.ok a, m')) :
    ∃ d, use m.thread (m.device id) = .ok (a, d) ∧ m.Renewed id d m' := by
  obtain ⟨faults, d, hstrike, huse, rfl⟩ := useDevice_eq_ok_iff.1 h
  rw [hcalm.faults] at hstrike
  cases hstrike
  exact ⟨d, huse,
    @Machine.Calm.renewed _ _ hcalm { m.backend id with device := d, faults := [] } rfl rfl⟩

end NativeAct

/-- A layout that the library takes as an operand's. -/
def OperandLayout.Accepted (l : OperandLayout) : Prop :=
  l.shape.length = l.strides.length ∧ ∀ step ∈ l.strides, 0 ≤ step

namespace OpLibrary

/-- A library that has handed out more numbers and still knows every operator under its old one. -/
structure Extends (l l' : OpLibrary) : Prop where
  lastId : l.lastId ≤ l'.lastId
  ops : ∀ n ≤ l.lastId, l'.ops.lookup n = l.ops.lookup n

theorem Extends.trans {l l' l'' : OpLibrary} (h : l.Extends l') (h' : l'.Extends l'') :
    l.Extends l'' :=
  ⟨Nat.le_trans h.lastId h'.lastId,
    fun n hn => (h'.ops n (Nat.le_trans hn h.lastId)).trans (h.ops n hn)⟩

theorem lookup_cons_of_le {β : Type} (table : List (Nat × β)) (b : β) {n last : Nat}
    (h : n ≤ last) : ((last + 1, b) :: table).lookup n = table.lookup n := by
  rw [List.lookup_cons, beq_eq_false_iff_ne.2 (by omega)]

theorem createTensor_of_accepted (l : OpLibrary) {layout : OperandLayout} (h : layout.Accepted) :
    l.createTensor layout = .ok (l.lastId + 1,
      { l with lastId := l.lastId + 1, tensors := (l.lastId + 1, layout) :: l.tensors }) := by
  rw [createTensor, if_neg (not_not.2 h.1), if_neg]
  simpa using h.2

theorem accepted_of_createTensor {l l' : OpLibrary} {layout : OperandLayout} {id : Nat}
    (h : l.createTensor layout = .ok (id, l')) : layout.Accepted := by
  rw [createTensor] at h
  split at h
  · cases h
  · next hrank =>
      split at h
      · cases h
      · next hsteps => exact ⟨not_not.1 hrank, by simpa using hsteps⟩

theorem createHandle_eq_ok_iff {l : OpLibrary} {d : HostDevice} {kind : DeviceKind} {id : Nat}
    {result : Nat × OpLibrary} :
    l.createHandle d kind id = .ok result ↔
      id < d.deviceCount kind ∧ (l.lastId + 1,
        { l with lastId := l.lastId + 1, handles := (l.lastId + 1, kind, id) :: l.handles }) =
        result := by
  rw [createHandle]
  split
  · next hnone => simp [hnone]
  · split
    · next hle => simp [Nat.not_lt.2 hle]
    · next hlt => simp [Nat.lt_of_not_le hlt]

theorem checkOperands_eq_ok_iff {d : HostDevice} {operands : List (OperandLayout × Address)} :
    checkOperands d operands = .ok () ↔ ∀ operand ∈ operands, ∃ location,
    d.checkRange operand.2 operand.1.spanBytes = .ok location := by
  induction operands with
  | nil => exact ⟨fun _ _ hmem => absurd hmem List.not_mem_nil, fun _ => rfl⟩
  | cons operand operands ih =>
      rw [checkOperands, except_bind_eq_ok, exists_and_right, ih, List.forall_mem_cons]

theorem compiled_eq_ok_iff {l : OpLibrary} {desc : Nat} {c : CompiledOp} :
    l.compiled desc = .ok c ↔ l.ops.lookup desc = some c := by
  rw [compiled]
  cases l.ops.lookup desc <;> simp

theorem launch_eq_ok_iff {l : OpLibrary} {d d' : HostDevice} {desc : Nat} {c : CompiledOp}
    (hlookup : l.ops.lookup desc = some c) {workspace : Address} {size : Nat}
    {outputs inputs : List Address} {args : LaunchArgs} :
    l.launch d desc workspace size outputs inputs args = .ok d' ↔
      (outputs.length = 1 ∧ inputs.length = 2) ∧ c.workspaceSize ≤ size ∧
      (∃ location, d.checkRange workspace c.workspaceSize = .ok location) ∧
      checkOperands d (c.operands.zip (outputs ++ inputs)) = .ok () ∧
      { d with memory := c.run (outputs ++ inputs) workspace args d.memory } = d' := by
  have harity : outputs.length = 1 ∧ inputs.length = 2 ↔
      ¬ (outputs.length, inputs.length) ≠ c.op.arity := by
    rw [show c.op.arity = (1, 2) from rfl]
    simp
  rw [launch, compiled, hlookup, harity]
  simp only [bind, Except.bind]
  by_cases hcount : (outputs.length, inputs.length) ≠ c.op.arity
  · simp [hcount, throw, throwThe, MonadExceptOf.throw]
  · by_cases hsize : size < c.workspaceSize
    · simp [hcount, hsize, Nat.not_le.2 hsize, throw, throwThe, MonadExceptOf.throw]
    · simp only [hcount, hsize, if_false, not_false_eq_true, Nat.le_of_not_lt hsize, true_and]
      cases d.checkRange workspace c.workspaceSize with
      | error status => simp
      | ok location =>
          cases checkOperands d (c.operands.zip (outputs ++ inputs)) <;> simp [pure, Except.pure]

theorem createOp_eq {l : OpLibrary} {handle : Nat} (hhandle : (l.handles.lookup handle).isSome)
    (op : NativeOp) {descs : List Nat} {layouts : List OperandLayout}
    (hdescs : List.Forall₂ (fun desc layout => l.tensors.lookup desc = some layout) descs layouts) :
    l.createOp handle op descs = (CompiledOp.compile op layouts).map fun c =>
      (l.lastId + 1, { l with lastId := l.lastId + 1, ops := (l.lastId + 1, c) :: l.ops }) := by
  have hlayouts : ∀ f : Nat → Except Status OperandLayout,
      (∀ desc layout, l.tensors.lookup desc = some layout → f desc = .ok layout) →
      descs.mapM f = .ok layouts := by
    intro f hf
    exact mapM_eq_ok_iff.2 (hdescs.imp fun desc layout => hf desc layout)
  have hthere : (l.handles.lookup handle).isNone = false := by
    simpa [Option.isSome_iff_ne_none] using hhandle
  rw [createOp, hthere]
  simp only [Bool.false_eq_true, if_false]
  rw [hlayouts _ fun desc layout hlookup => by rw [hlookup]; rfl]
  simp only [bind, Except.bind]
  cases CompiledOp.compile op layouts <;> rfl

end OpLibrary

namespace Graph

theorem onMachine_of_ok {ε α : Type} {act : Act Machine ε α} {m m' : Machine} {a : α}
    (h : act m = (.ok a, m')) (g : Graph) : onMachine act (m, g) = (.ok a, m', g) :=
  Act.on_of_ok h

theorem onMachine_eq_ok {ε α : Type} {act : Act Machine ε α} {m : Machine} {g : Graph}
    {s' : Machine × Graph} {a : α} (h : onMachine act (m, g) = (.ok a, s')) :
    ∃ m', act m = (.ok a, m') ∧ s' = (m', g) :=
  Act.on_eq_ok h

section Descriptors

variable {m : Machine} {lib : LibraryRef} (hcalm : m.Calm lib.backend)

include hcalm

/-- Tensor descriptors are all made exactly when all layouts are accepted, and each then stands for
its layout. -/
theorem createTensors_apply (layouts : List OperandLayout) : ∃ result descs l',
    createTensors lib layouts m = ((result, descs), m.withLibrary lib.backend l') ∧
    l'.handles = (m.library lib.backend).handles ∧ l'.ops = (m.library lib.backend).ops ∧
    (m.library lib.backend).lastId ≤ l'.lastId ∧
    (∀ n ≤ (m.library lib.backend).lastId,
      l'.tensors.lookup n = (m.library lib.backend).tensors.lookup n) ∧
    (result = .ok () ↔ ∀ layout ∈ layouts, layout.Accepted) ∧
    (result = .ok () → List.Forall₂ (fun desc layout => desc ≤ l'.lastId ∧
        l'.tensors.lookup desc = some layout) descs layouts) := by
  induction layouts generalizing m with
  | nil =>
      refine ⟨.ok (), [], m.library lib.backend, ?_, rfl, rfl, Nat.le_refl _,
        fun _ _ => rfl, by simp, fun _ => .nil⟩
      rw [m.withLibrary_library]
      rfl
  | cons layout layouts ih =>
      rw [createTensors, NativeAct.createTensor]
      dsimp only
      rw [NativeAct.makeDescriptor_apply hcalm]
      cases hmade : (m.backend lib.backend).library.createTensor layout with
      | error status =>
          have hrefused : ¬ layout.Accepted := by
            intro haccepted
            rw [OpLibrary.createTensor_of_accepted _ haccepted] at hmade
            cases hmade
          refine ⟨.error status, [], m.library lib.backend, ?_, rfl, rfl, Nat.le_refl _,
            fun _ _ => rfl, by simp [hrefused], fun h => by cases h⟩
          rw [m.withLibrary_library]
      | ok made =>
          obtain ⟨desc, l⟩ := made
          have haccepted := OpLibrary.accepted_of_createTensor hmade
          rw [OpLibrary.createTensor_of_accepted _ haccepted] at hmade
          cases hmade
          obtain ⟨result, descs, l', hrest, hhandles, hops, hlast, htensors, hresult, hdescs⟩ :=
            ih (hcalm.withLibrary
              { m.library lib.backend with
                lastId := (m.library lib.backend).lastId + 1
                tensors :=
                  ((m.library lib.backend).lastId + 1, layout) :: (m.library lib.backend).tensors })
          rw [hcalm.library_withLibrary] at hhandles hops hlast htensors
          dsimp only at hhandles hops hlast htensors
          refine ⟨result, ((m.library lib.backend).lastId + 1) :: descs, l', ?_, hhandles,
            hops, by omega, ?_, by simp [hresult, haccepted], ?_⟩
          · simp only [Machine.library] at hrest ⊢
            rw [hrest, hcalm.withLibrary_withLibrary]
          · intro n hn
            rw [htensors n (by omega), OpLibrary.lookup_cons_of_le _ _ hn]
          · intro hok
            refine .cons ⟨hlast, ?_⟩ (hdescs hok)
            rw [htensors _ (Nat.le_refl _), List.lookup_cons_self]

theorem destroyTensors_apply (descs : List Nat) :
    ∃ l', (descs.forM fun d => (NativeAct.destroyTensor lib d).attempt : NativeAct Unit) m =
      (.ok (), m.withLibrary lib.backend l') ∧
    l'.lastId = (m.library lib.backend).lastId ∧ l'.ops = (m.library lib.backend).ops := by
  induction descs generalizing m with
  | nil => exact ⟨m.library lib.backend, by rw [m.withLibrary_library]; rfl, rfl, rfl⟩
  | cons d descs ih =>
      obtain ⟨l, hfirst, hlast, hops⟩ : ∃ l,
          ((NativeAct.destroyTensor lib d).attempt : NativeAct Unit) m =
          (.ok (), m.withLibrary lib.backend l) ∧
          l.lastId = (m.library lib.backend).lastId ∧ l.ops = (m.library lib.backend).ops := by
        rw [Act.attempt_apply, NativeAct.destroyTensor, NativeAct.changeLibrary_apply hcalm,
          OpLibrary.destroyTensor]
        cases OpLibrary.without d (m.library lib.backend).tensors with
        | error status =>
            exact ⟨m.library lib.backend, by rw [m.withLibrary_library]; rfl, rfl, rfl⟩
        | ok tensors => exact ⟨_, rfl, rfl, rfl⟩
      obtain ⟨l', hrest, hlast', hops'⟩ := ih (hcalm.withLibrary l)
      rw [hcalm.library_withLibrary] at hlast' hops'
      refine ⟨l', ?_, hlast'.trans hlast, hops'.trans hops⟩
      rw [List.forM, Act.bind_of_ok hfirst, hrest, hcalm.withLibrary_withLibrary]

theorem compileOperator_apply {handle : Nat}
    (hhandle : ((m.library lib.backend).handles.lookup handle).isSome) {op : NativeOp}
    {layouts : List OperandLayout} {c : CompiledOp}
    (haccepted : ∀ layout ∈ layouts, layout.Accepted)
    (hcompile : CompiledOp.compile op layouts = .ok c) :
    ∃ desc l', compileOperator lib handle op layouts m = (.ok desc, m.withLibrary lib.backend l') ∧
      (m.library lib.backend).Extends l' ∧ desc ≤ l'.lastId ∧ l'.ops.lookup desc = some c := by
  obtain ⟨result, descs, l, hcreated, hhandles, hops, hlast, _, hresult, hdescs⟩ :=
    createTensors_apply hcalm layouts
  obtain rfl := hresult.2 haccepted
  have hcalm' := hcalm.withLibrary l
  have hlookups : List.Forall₂ (fun desc layout => l.tensors.lookup desc = some layout) descs
      layouts := (hdescs rfl).imp fun _ _ h => h.2
  have hmade := OpLibrary.createOp_eq (hhandles ▸ hhandle) op hlookups
  rw [hcompile, Except.map] at hmade
  have hcall : NativeAct.createOp lib handle op descs (m.withLibrary lib.backend l) =
      (.ok (l.lastId + 1), m.withLibrary lib.backend
          { l with lastId := l.lastId + 1, ops := (l.lastId + 1, c) :: l.ops }) := by
    rw [NativeAct.createOp, NativeAct.makeDescriptor_apply hcalm',
      show ((m.withLibrary lib.backend l).backend lib.backend).library =
      l from hcalm.library_withLibrary l, hmade]
    dsimp only
    rw [hcalm.withLibrary_withLibrary]
  obtain ⟨l', hdestroyed, hlast', hops'⟩ := destroyTensors_apply
    (hcalm.withLibrary { l with lastId := l.lastId + 1, ops := (l.lastId + 1, c) :: l.ops }) descs
  rw [hcalm.library_withLibrary] at hlast' hops'
  rw [hcalm.withLibrary_withLibrary] at hdestroyed
  refine ⟨l.lastId + 1, l', ?_, ⟨by rw [hlast']; exact Nat.le_succ_of_le hlast, ?_⟩,
    Nat.le_of_eq hlast'.symm, by rw [hops', List.lookup_cons_self]⟩
  · rw [compileOperator, hcreated]
    dsimp only
    rw [Act.bind_of_ok (Act.ofExcept_apply _ _), hcall]
    dsimp only
    rw [hdestroyed]
  · intro n hn
    rw [hops', OpLibrary.lookup_cons_of_le _ _ (Nat.le_trans hn hlast), hops]

theorem compiles_of_compileOperator {handle : Nat}
    (hhandle : ((m.library lib.backend).handles.lookup handle).isSome) {op : NativeOp}
    {layouts : List OperandLayout}
    {desc : Nat} {m' : Machine} (h : compileOperator lib handle op layouts m = (.ok desc, m')) :
    (∀ layout ∈ layouts, layout.Accepted) ∧ ∃ c, CompiledOp.compile op layouts = .ok c := by
  obtain ⟨result, descs, l, hcreated, hhandles, hops, hlast, _, hresult, hdescs⟩ :=
    createTensors_apply hcalm layouts
  rw [compileOperator, hcreated] at h
  have hmade : ((do Act.ofExcept result; NativeAct.createOp lib handle op descs : NativeAct Nat)
        (m.withLibrary lib.backend l)).1 = .ok desc := (Prod.mk.inj h).1
  obtain ⟨_, s', hok, hcall⟩ := Act.bind_eq_ok (Prod.ext hmade rfl)
  rw [Act.ofExcept_apply, Prod.mk.injEq] at hok
  obtain ⟨rfl, rfl⟩ := hok
  have hlookups : List.Forall₂ (fun desc layout => l.tensors.lookup desc = some layout) descs
      layouts := (hdescs rfl).imp fun _ _ h => h.2
  refine ⟨hresult.1 rfl, ?_⟩
  rw [NativeAct.createOp, NativeAct.makeDescriptor_apply (hcalm.withLibrary l),
    show ((m.withLibrary lib.backend l).backend lib.backend).library =
    l from hcalm.library_withLibrary l,
    OpLibrary.createOp_eq (hhandles ▸ hhandle) op hlookups] at hcall
  cases hcompile : CompiledOp.compile op layouts with
  | error status =>
      rw [hcompile] at hcall
      cases (Prod.mk.inj hcall).1
  | ok c => exact ⟨c, rfl⟩

/-- Building a descriptor adds to the library and touches nothing else. -/
theorem buildDescriptor_apply {device : DeviceKind} {deviceId : Nat} {op : NativeOp}
    {layouts : List OperandLayout} {c : CompiledOp}
    (hdevice : deviceId < (m.device lib.backend).deviceCount device)
    (haccepted : ∀ layout ∈ layouts, layout.Accepted)
    (hcompile : CompiledOp.compile op layouts = .ok c) :
    ∃ d l',
    buildDescriptor lib device deviceId op layouts m = (.ok d, m.withLibrary lib.backend l') ∧
    d.library = lib ∧ d.device = device ∧ d.deviceId = deviceId ∧
      (m.library lib.backend).Extends l' ∧ d.desc ≤ l'.lastId ∧ l'.ops.lookup d.desc = some c := by
  obtain ⟨l, hl⟩ : ∃ l : OpLibrary, l = { m.library lib.backend with
      lastId := (m.library lib.backend).lastId + 1, handles :=
        ((m.library lib.backend).lastId + 1, device, deviceId) ::
        (m.library lib.backend).handles } := ⟨_, rfl⟩
  have hhandle : NativeAct.createHandle lib device deviceId m =
      (.ok ((m.library lib.backend).lastId + 1), m.withLibrary lib.backend l) := by
    rw [NativeAct.createHandle, NativeAct.makeDescriptor_apply hcalm]
    rw [show (m.backend lib.backend).library.createHandle (m.backend lib.backend).device device
      deviceId = .ok ((m.library lib.backend).lastId + 1, l) from
      OpLibrary.createHandle_eq_ok_iff.2 ⟨hdevice, by rw [hl]; rfl⟩]
  have hthere : (((m.withLibrary lib.backend l).library lib.backend).handles.lookup
        ((m.library lib.backend).lastId + 1)).isSome := by
    rw [hcalm.library_withLibrary, hl, List.lookup_cons_self]
    rfl
  obtain ⟨desc, l', hcompiled, hextends, hdesc, hlookup⟩ :=
    compileOperator_apply (hcalm.withLibrary l) hthere haccepted hcompile
  rw [hcalm.library_withLibrary] at hextends
  rw [hcalm.withLibrary_withLibrary] at hcompiled
  have hfirst : (m.library lib.backend).Extends l := by
    rw [hl]
    exact ⟨Nat.le_succ _, fun _ _ => rfl⟩
  refine ⟨⟨lib, (m.library lib.backend).lastId + 1, desc, device, deviceId⟩, l', ?_, rfl, rfl, rfl,
    hfirst.trans hextends, hdesc, hlookup⟩
  rw [buildDescriptor, Act.bind_of_ok hhandle, Act.bind_of_ok (Act.tryCatch_of_ok hcompiled _),
    Act.pure_apply]

theorem compiles_of_buildDescriptor {device : DeviceKind} {deviceId : Nat} {op : NativeOp}
    {layouts : List OperandLayout} {d : Descriptor} {m' : Machine}
    (h : buildDescriptor lib device deviceId op layouts m = (.ok d, m')) :
    deviceId < (m.device lib.backend).deviceCount device ∧ (∀ layout ∈ layouts, layout.Accepted) ∧
    ∃ c, CompiledOp.compile op layouts = .ok c := by
  obtain ⟨handle, m₁, hhandle, h⟩ := Act.bind_eq_ok h
  obtain ⟨desc, m₂, htried, _⟩ := Act.bind_eq_ok h
  have hcompiled := Act.eq_ok_of_tryCatch htried fun e s s' a hcaught => by
    obtain ⟨_, _, _, hthrow⟩ := Act.bind_eq_ok hcaught
    cases hthrow
  rw [NativeAct.createHandle, NativeAct.makeDescriptor_apply hcalm] at hhandle
  cases hmade :
    (m.backend lib.backend).library.createHandle (m.backend lib.backend).device device deviceId with
  | error status =>
      rw [hmade] at hhandle
      cases (Prod.mk.inj hhandle).1
  | ok made =>
      obtain ⟨hdevice, rfl⟩ := OpLibrary.createHandle_eq_ok_iff.1 hmade
      rw [hmade, Prod.mk.injEq, Except.ok.injEq] at hhandle
      obtain ⟨rfl, rfl⟩ := hhandle
      refine ⟨hdevice, compiles_of_compileOperator (hcalm.withLibrary _) ?_ hcompiled⟩
      rw [hcalm.library_withLibrary, List.lookup_cons_self]
      rfl

end Descriptors

end Graph

end TensorDataflow
