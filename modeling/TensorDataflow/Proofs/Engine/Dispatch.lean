import TensorDataflow.Engine.Run
import TensorDataflow.Proofs.Device.Blocks
import TensorDataflow.Proofs.Graph.Descriptors
import TensorDataflow.Proofs.Graph.Soundness
/-!
# What a dispatch does

Whether an operator can be dispatched is decided before anything runs: by the kernel registered for
it, by the layouts and buffers of its tensors and by the blocks of the device, none of which a run
changes. A dispatch of an operator that passes these checks has one effect on memory, the same
wherever in a run it stands. `Engine.dispatch_apply` and `Engine.serves_of_dispatch` say so for one
operator, `Engine.foldlM_dispatch_apply` and `Engine.serves_of_foldlM_dispatch` for a run.
-/

namespace TensorDataflow

theorem OpLibrary.checkOperands_congr {d d' : HostDevice}
    (h : d'.blocks = d.blocks) (operands : List (OperandLayout × Address)) :
    checkOperands d' operands = checkOperands d operands := by
  induction operands with
  | nil => rfl
  | cons operand operands ih => rw [checkOperands, checkOperands, HostDevice.checkRange_congr h, ih]

/-- What is left of a machine by calls that change the memory of a backend and neither its blocks
nor its devices. -/
structure Machine.Advances (id : BackendId) (effect : Memory → Memory) (m m' : Machine) : Prop where
  thread : m'.thread = m.thread
  blocks : (m'.device id).blocks = (m.device id).blocks
  emulated : (m'.device id).emulated = (m.device id).emulated
  memory : (m'.device id).memory = effect (m.device id).memory

theorem Machine.Advances.trans {id : BackendId} {first second : Memory → Memory}
    {m m' m'' : Machine} (h : m.Advances id first m') (h' : m'.Advances id second m'') :
    m.Advances id (fun memory => second (first memory)) m'' :=
  ⟨h'.thread.trans h.thread, h'.blocks.trans h.blocks,
    h'.emulated.trans h.emulated, by rw [h'.memory, h.memory]⟩

theorem Machine.advances_of_device {id : BackendId} {effect : Memory → Memory} {m m' : Machine}
    {d : HostDevice} (hthread : m'.thread = m.thread) (h : m'.device id = d)
    (hblocks : d.blocks = (m.device id).blocks) (hemulated : d.emulated = (m.device id).emulated)
    (hmemory : d.memory = effect (m.device id).memory) : m.Advances id effect m' :=
  ⟨hthread, h ▸ hblocks, h ▸ hemulated, h ▸ hmemory⟩

theorem Graph.Ready.renew {lib : LibraryRef} {device : DeviceKind} {deviceId : Nat} {m m' : Machine}
    {g : Graph} {d : HostDevice} (h : g.Ready lib device deviceId m)
    (hrenewed : m.Renewed lib.backend d m')
    (hemulated : d.emulated = (m.device lib.backend).emulated) :
    g.Ready lib device deviceId m' := by
  refine ⟨hrenewed.calm, h.opIds, fun op hop d hd => ?_⟩
  obtain ⟨hlib, hdevice, hid, hdesc, c, hcompiles, hlookup⟩ := h.current op hop d hd
  rw [hrenewed.library, hrenewed.device]
  exact ⟨hlib, hdevice, hid, hdesc, c, hcompiles.congr (.refl g) hemulated rfl, hlookup⟩

namespace Engine

/-! ### Plans -/

/-- What a kernel makes of an operator: the inputs and scalars of the launch, and the bias that is
copied into the output before it. -/
structure Plan where
  inputs : List TensorId
  args : LaunchArgs
  bias : Option (TensorId × TensorId) := none

def plan? (kernel : KernelKind) (op : Operator) : Option Plan :=
  match kernel, op.kind with
  | .elementwise, _ => some { inputs := op.inputs, args := .plain }
  | .rmsNorm, .rmsNorm _ => some { inputs := op.inputs, args := .plain }
  | .gemm, .gemm attributes =>
      match op.inputs, op.outputs with
      | [a, b], _ :: _ => some { inputs := [a, b], args := .scale attributes.alpha 0#_ }
      | a :: b :: bias :: _, y :: _ =>
          some {
            inputs := [a, b]
            args := .scale attributes.alpha attributes.beta
            bias := some (bias, y) }
      | _, _ => none
  | _, _ => none

def carryOut (e : Engine) (c : Context) (op : Operator) (p : Plan) : GraphAct EngineError Unit := do
  if let some (bias, output) := p.bias then e.copyBias bias output
  e.launch c op p.inputs p.args

theorem compute_of_plan (e : Engine) (c : Context) {kernel : KernelKind} {op : Operator} {p : Plan}
    (h : plan? kernel op = some p) : e.compute c kernel op = e.carryOut c op p := by
  unfold plan? at h
  unfold compute
  split at h
  · cases h
    rfl
  · next hkind =>
      cases h
      rw [hkind]
      rfl
  · next attributes hkind =>
      rw [hkind]
      dsimp only [runGemm]
      split at h
      · next hinputs houtputs =>
          cases h
          rw [hinputs, houtputs]
          rfl
      · next hinputs houtputs =>
          cases h
          rw [hinputs, houtputs]
          rfl
      · cases h
  · cases h

/-- A kernel that computes anything succeeds only according to a plan. -/
theorem plan_of_compute {e : Engine} {c : Context} {kernel : KernelKind} {op : Operator}
    {s s' : Machine × Graph} (h : e.compute c kernel op s = (.ok (), s')) (hidle : kernel ≠ .idle) :
    ∃ p, plan? kernel op = some p := by
  cases kernel with
  | idle => exact absurd rfl hidle
  | elementwise => exact ⟨_, rfl⟩
  | rmsNorm =>
      cases hkind : op.kind with
      | rmsNorm epsilon =>
          unfold plan?
          rw [hkind]
          exact ⟨_, rfl⟩
      | pointwise | gemm | declared =>
          unfold compute at h
          rw [hkind] at h
          cases h
  | gemm =>
      cases hkind : op.kind with
      | gemm attributes =>
          unfold compute at h
          unfold plan?
          rw [hkind] at h ⊢
          match hinputs : op.inputs, houtputs : op.outputs with
          | a :: b :: [], y :: _ => exact ⟨_, rfl⟩
          | a :: b :: bias :: _, y :: _ => exact ⟨_, rfl⟩
          | [], _ | [_], _ | _ :: _ :: _, [] =>
              simp only [runGemm, hinputs, houtputs] at h
              cases h
      | pointwise | rmsNorm | declared =>
          unfold compute at h
          rw [hkind] at h
          cases h

/-! ### One launch -/

/-- What has to hold for an operator to be launched with given inputs. -/
structure Launches (e : Engine) (c : Context) (d : HostDevice) (g : Graph) (op : Operator)
    (inputs : List TensorId) (compiled : CompiledOp) (y a b : Address) : Prop where
  compiles : g.Compiles d c.device c.deviceId op compiled
  workspace : compiled.workspaceSize ≤ e.workspace.size
  outputs : op.outputs.mapM (dataAddress g) = .ok [y]
  inputs : inputs.mapM (dataAddress g) = .ok [a, b]
  scratch : ∃ location, d.checkRange e.workspace.address compiled.workspaceSize = .ok location
  operands : OpLibrary.checkOperands d (compiled.operands.zip [y, a, b]) = .ok ()

theorem dataAddress_congr {g g' : Graph} (h : g.SameBare g') : dataAddress g' = dataAddress g := by
  funext id
  rw [dataAddress, dataAddress, h.tensor]

theorem Launches.congr {e : Engine} {c : Context} {d d' : HostDevice} {g g' : Graph}
    {op op' : Operator} {inputs : List TensorId} {compiled : CompiledOp} {y a b : Address}
    (h : e.Launches c d g op inputs compiled y a b) (hgraph : g.SameBare g')
    (hblocks : d'.blocks = d.blocks) (hemulated : d'.emulated = d.emulated)
    (hop : op'.bare = op.bare) :
    e.Launches c d' g' op' inputs compiled y a b where
  compiles := h.compiles.congr hgraph hemulated hop
  workspace := h.workspace
  outputs := by
    rw [dataAddress_congr hgraph, show op'.outputs = op.outputs from (Operator.mk.inj hop).2.2.2.1]
    exact h.outputs
  inputs := by
    rw [dataAddress_congr hgraph]
    exact h.inputs
  scratch := by
    rw [HostDevice.checkRange_congr hblocks]
    exact h.scratch
  operands := by
    rw [OpLibrary.checkOperands_congr hblocks]
    exact h.operands

theorem askGraph_of_ok {α : Type} {question : Graph → Except GraphError α} {m : Machine} {g : Graph}
    {a : α} (h : question g = .ok a) :
    askGraph question (m, g) = (.ok a, m, g) := by
  rw [askGraph, Act.bind_of_ok (Act.get_apply _), Act.ofExcept_apply, h]
  rfl

theorem askGraph_eq_ok {α : Type} {question : Graph → Except GraphError α} {m : Machine} {g : Graph}
    {s' : Machine × Graph} {a : α}
    (h : askGraph question (m, g) = (.ok a, s')) : question g = .ok a ∧ s' = (m, g) := by
  rw [askGraph, Act.bind_of_ok (Act.get_apply _)] at h
  obtain ⟨hok, hstate⟩ := Act.ofExcept_eq_ok h
  refine ⟨?_, hstate⟩
  dsimp only at hok
  cases hanswer : question g with
  | error cause =>
      rw [hanswer] at hok
      cases hok
  | ok answer =>
      rw [hanswer] at hok
      cases hok
      rfl

theorem nativeCall_of_ok {α : Type} {act : NativeAct α} {m m' : Machine} {a : α}
    (h : act m = (.ok a, m')) (g : Graph) : machineOf (native act) (m, g) = (.ok a, m', g) :=
  Graph.onMachine_of_ok (Act.mapError_eq_ok.2 h) g

theorem nativeCall_eq_ok {α : Type} {act : NativeAct α} {m : Machine} {g : Graph}
    {s' : Machine × Graph} {a : α} (h : machineOf (native act) (m, g) = (.ok a, s')) :
    ∃ m', act m = (.ok a, m') ∧ s' = (m', g) := by
  obtain ⟨m', hact, hstate⟩ := Graph.onMachine_eq_ok h
  exact ⟨m', Act.mapError_eq_ok.1 hact, hstate⟩

theorem workspaceFor_eq_ok_iff {e : Engine} {size : Nat} {a : Address} :
    e.workspaceFor size = .ok a ↔ size ≤ e.workspace.size ∧ e.workspace.address = a := by
  rw [workspaceFor]
  split
  · next hlarge => simp [Nat.not_le.2 hlarge]
  · next hfits => simp [Nat.le_of_not_lt hfits]

section Launch

variable {e : Engine} {c : Context} {m : Machine} {g : Graph}
  (hready : g.Ready e.library c.device c.deviceId m) {op op' : Operator}
  (hop : g.operator? op.id = some op')
  (hbare : op'.bare = op.bare)

include hready hop hbare

theorem launch_apply {inputs : List TensorId} {compiled : CompiledOp} {y a b : Address}
    (h : e.Launches c (m.device e.backend) g op inputs compiled y a b) (args : LaunchArgs) :
    ∃ m' g', e.launch c op inputs args (m, g) = (.ok (), m', g') ∧ g.SameBare g' ∧
    m.Advances e.backend (compiled.run [y, a, b] e.workspace.address args) m' ∧
      g'.Ready e.library c.device c.deviceId m' := by
  have hid := Graph.id_of_operator? hop
  obtain ⟨desc, m₁, g₁, hcreate, hgraph, hthread, hdevice, hlookup, hready₁⟩ :=
    Graph.createDescriptor_apply hready (hid ▸ hop) (h.compiles.congr (.refl g) rfl hbare)
  rw [hid] at hcreate
  obtain ⟨m₂, hsize, hrenewed⟩ := NativeAct.workspaceSize_apply hready₁.calm hlookup
  have hdevice₂ : m₂.device e.library.backend = m.device e.backend := hrenewed.device.trans hdevice
  have hlaunch : (m₂.library e.library.backend).launch (m₂.device e.library.backend) desc
      e.workspace.address compiled.workspaceSize [y] [a, b] args =
      .ok { m.device e.backend with
        memory :=
          compiled.run [y, a, b] e.workspace.address args (m.device e.backend).memory } := by
    rw [hdevice₂]
    exact (OpLibrary.launch_eq_ok_iff (hrenewed.library ▸ hlookup)).2
      ⟨⟨rfl, rfl⟩, Nat.le_refl _, h.scratch, h.operands, rfl⟩
  obtain ⟨m₃, hcall, hrenewed₃⟩ := NativeAct.launch_apply hrenewed.calm hlaunch
  have hrun := hrenewed₃ _ rfl
  refine ⟨m₃, g₁, ?_, hgraph, Machine.advances_of_device
    (hrun.thread.trans (hrenewed.thread.trans hthread)) hrun.device rfl rfl rfl,
    (hready₁.renew hrenewed rfl).renew hrun (congrArg HostDevice.emulated hdevice₂).symm⟩
  rw [launch, Act.bind_of_ok (show onGraphOf _ _ = _ from Act.mapError_eq_ok.2 hcreate),
    Act.bind_of_ok (nativeCall_of_ok hsize g₁),
    Act.bind_ofExcept (workspaceFor_eq_ok_iff.2 ⟨h.workspace, rfl⟩),
    Act.bind_of_ok (askGraph_of_ok (dataAddress_congr hgraph ▸ h.outputs)),
    Act.bind_of_ok (askGraph_of_ok (dataAddress_congr hgraph ▸ h.inputs))]
  exact nativeCall_of_ok hcall g₁

theorem launches_of_launch {inputs : List TensorId} {args : LaunchArgs} {s' : Machine × Graph}
    (h : e.launch c op inputs args (m, g) = (.ok (), s')) :
    ∃ compiled y a b, e.Launches c (m.device e.backend) g op inputs compiled y a b := by
  have hid := Graph.id_of_operator? hop
  obtain ⟨desc, s₁, hcreate, h⟩ := Act.bind_eq_ok h
  rw [onGraphOf, Act.mapError_eq_ok, ← hid] at hcreate
  obtain ⟨compiled, hcompiles⟩ := Graph.compiles_of_createDescriptor hready (hid ▸ hop) hcreate
  obtain ⟨desc', m₁, g₁, hcreate', hgraph, hthread, hdevice, hlookup, hready₁⟩ :=
    Graph.createDescriptor_apply hready (hid ▸ hop) hcompiles
  obtain ⟨hdesc, rfl⟩ := Prod.mk.inj (hcreate.symm.trans hcreate')
  obtain rfl := Except.ok.inj hdesc
  obtain ⟨m₂, hsize, hrenewed⟩ := NativeAct.workspaceSize_apply hready₁.calm hlookup
  rw [Act.bind_of_ok (nativeCall_of_ok hsize g₁)] at h
  obtain ⟨workspace, _, hworkspace, h⟩ := Act.bind_eq_ok h
  obtain ⟨hfor, rfl⟩ := Act.ofExcept_eq_ok hworkspace
  obtain ⟨hroom, rfl⟩ := workspaceFor_eq_ok_iff.1 hfor
  obtain ⟨outs, _, houtputs, h⟩ := Act.bind_eq_ok h
  obtain ⟨houts, rfl⟩ := askGraph_eq_ok houtputs
  obtain ⟨ins, _, hinputs, h⟩ := Act.bind_eq_ok h
  obtain ⟨hins, rfl⟩ := askGraph_eq_ok hinputs
  obtain ⟨m₃, hcall, _⟩ := nativeCall_eq_ok h
  cases hresult : (m₂.library e.library.backend).launch (m₂.device e.library.backend) desc
    e.workspace.address compiled.workspaceSize outs ins args with
  | error status =>
      obtain ⟨_, hfailed, _⟩ := NativeAct.launch_apply hrenewed.calm hresult
      rw [hcall] at hfailed
      cases (Prod.mk.inj hfailed).1
  | ok d =>
      obtain ⟨⟨hone, htwo⟩, _, hscratch, hoperands, _⟩ :=
        (OpLibrary.launch_eq_ok_iff (hrenewed.library ▸ hlookup)).1 hresult
      obtain ⟨y, rfl⟩ := List.length_eq_one_iff.1 hone
      obtain ⟨a, b, rfl⟩ := List.length_eq_two.1 htwo
      have hdevice₂ : m₂.device e.library.backend = m.device e.backend :=
        hrenewed.device.trans hdevice
      rw [hdevice₂] at hscratch hoperands
      rw [dataAddress_congr hgraph] at houts hins
      exact ⟨compiled, y, a, b, hcompiles.congr (.refl g) rfl hbare.symm, hroom, houts, hins,
        hscratch, hoperands⟩

end Launch

/-! ### One copy -/

/-- What has to hold for a bias to be copied. -/
structure Copies (d : HostDevice) (g : Graph) (bias output : TensorId) (target source : Address)
    (size : Nat) : Prop where
  spans : ∃ t u, g.tensor bias = .ok t ∧ g.tensor output = .ok u ∧ t.totalBytes = .ok size ∧
    u.totalBytes = .ok size ∧
    d.Copyable target source size (.between t.device.isCpu u.device.isCpu)
  target : dataAddress g output = .ok target
  source : dataAddress g bias = .ok source

theorem Copies.congr {d d' : HostDevice} {g g' : Graph} {bias output : TensorId}
    {target source : Address} {size : Nat} (h : Copies d g bias output target source size)
    (hgraph : g.SameBare g') (hblocks : d'.blocks = d.blocks) :
    Copies d' g' bias output target source size := by
  refine ⟨?_, ?_, ?_⟩
  · simpa only [hgraph.tensor, HostDevice.Copyable, HostDevice.checkRange_congr hblocks]
      using h.spans
  · rw [dataAddress_congr hgraph, h.target]
  · rw [dataAddress_congr hgraph, h.source]

/-- A bias is copied exactly if this holds and no fault strikes the copy, which changes the bytes of
the output and how much was copied. -/
theorem copyBias_eq_ok_iff {e : Engine} {m : Machine} {g : Graph} {bias output : TensorId}
    {s' : Machine × Graph} :
    e.copyBias bias output (m, g) = (.ok (), s') ↔
    ∃ target source size faults, Copies (m.device e.backend) g bias output target source size ∧
      Fault.strike .memcpy (m.backend e.backend).faults = (none, faults) ∧
      (m.setBackend e.backend { m.backend e.backend with
        device := { m.device e.backend with
          memory := (m.device e.backend).memory.copy target.val source.val size
          usage := (m.device e.backend).usage.recordCopy size },
        faults }, g) = s' := by
  constructor
  · intro h
    obtain ⟨⟨t, u, size⟩, _, hquestion, h⟩ := Act.bind_eq_ok h
    obtain ⟨hanswer, rfl⟩ := askGraph_eq_ok hquestion
    obtain ⟨t', ht, hanswer⟩ := except_bind_eq_ok.1 hanswer
    obtain ⟨u', hu, hanswer⟩ := except_bind_eq_ok.1 hanswer
    obtain ⟨size', hsize, hanswer⟩ := except_bind_eq_ok.1 hanswer
    obtain ⟨span', hspan, hanswer⟩ := except_bind_eq_ok.1 hanswer
    split at hanswer
    · next hsame =>
        cases hanswer
        obtain ⟨target, _, htarget, h⟩ := Act.bind_eq_ok h
        obtain ⟨htargetAddress, rfl⟩ := askGraph_eq_ok htarget
        obtain ⟨source, _, hsource, h⟩ := Act.bind_eq_ok h
        obtain ⟨hsourceAddress, rfl⟩ := askGraph_eq_ok hsource
        obtain ⟨m', hcall, rfl⟩ := nativeCall_eq_ok h
        obtain ⟨faults, d, hstrike, hcopy, rfl⟩ := NativeAct.changeDevice_eq_ok_iff.1 hcall
        obtain ⟨hcopyable, rfl⟩ := HostDevice.memcpy_eq_ok_iff.1 hcopy
        exact ⟨target, source, size, faults, ⟨⟨t, u, ht, hu, hsame ▸ hspan, hsize, hcopyable⟩,
            htargetAddress, hsourceAddress⟩, hstrike, rfl⟩
    · cases hanswer
  · rintro ⟨target, source, size, faults, hcopies, hstrike, rfl⟩
    obtain ⟨t, u, ht, hu, hspan, hsize, hcopyable⟩ := hcopies.spans
    have hquestion : (do
        let t ← g.tensor bias
        let u ← g.tensor output
        let size ← u.totalBytes
        let span ← t.totalBytes
        if span = size then return (t, u, size)
        else throw (.dataMismatch bias (.biasSpan span size)) :
          Except GraphError (Tensor × Tensor × Nat)) = .ok (t, u, size) := by
      simp only [ht, hu, hspan, hsize, bind, Except.bind, if_true]
      rfl
    rw [copyBias, Act.bind_of_ok (askGraph_of_ok hquestion)]
    dsimp only
    rw [Act.bind_of_ok (askGraph_of_ok hcopies.target),
      Act.bind_of_ok (askGraph_of_ok hcopies.source)]
    exact nativeCall_of_ok (NativeAct.changeDevice_eq_ok_iff.2
        ⟨faults, _, hstrike, HostDevice.memcpy_eq_ok_iff.2 ⟨hcopyable, rfl⟩, rfl⟩) g

theorem copyBias_apply {e : Engine} {c : Context} {m : Machine} {g : Graph}
    (hready : g.Ready e.library c.device c.deviceId m) {bias output : TensorId}
    {target source : Address} {size : Nat}
    (h : Copies (m.device e.backend) g bias output target source size) :
    ∃ m', e.copyBias bias output (m, g) = (.ok (), m', g) ∧
    m.Advances e.backend (fun memory => memory.copy target.val source.val size) m' ∧
      g.Ready e.library c.device c.deviceId m' := by
  have hcalm : m.Calm e.backend := hready.calm
  have hstrike : Fault.strike .memcpy (m.backend e.backend).faults = (none, []) := by
    rw [hcalm.faults]
    rfl
  have hrun := fun d =>
    @Machine.Calm.renewed _ _ hcalm { m.backend e.backend with device := d, faults := [] } rfl rfl
  exact ⟨_, copyBias_eq_ok_iff.2 ⟨target, source, size, [], h, hstrike, rfl⟩,
    Machine.advances_of_device (hrun _).thread (hrun _).device rfl rfl rfl,
    hready.renew (hrun _) rfl⟩

/-! ### One dispatch -/

/-- What a dispatch does to memory: a copy into the output, if there is one, and a launch. -/
structure Task where
  compiled : CompiledOp
  y : Address
  a : Address
  b : Address
  args : LaunchArgs
  copy : Option (Address × Nat) := none

/-- The memory that the launch finds. -/
def Task.prepare (t : Task) (m : Memory) : Memory :=
  match t.copy with
  | some (source, size) => m.copy t.y.val source.val size
  | none => m

def Task.effect (workspace : Address) (t : Task) (m : Memory) : Memory :=
  t.compiled.run [t.y, t.a, t.b] workspace t.args (t.prepare m)

/-- The task that a plan comes to. -/
structure Carries (e : Engine) (c : Context) (d : HostDevice) (g : Graph) (op : Operator) (p : Plan)
    (t : Task) : Prop where
  launches : e.Launches c d g op p.inputs t.compiled t.y t.a t.b
  args : t.args = p.args
  copy : match p.bias with
    | none => t.copy = none
    | some (bias, output) =>
        ∃ source size, t.copy = some (source, size) ∧ Copies d g bias output t.y source size

/-- An operator that the engine can dispatch, with the task that this comes to. -/
def Serves (e : Engine) (c : Context) (d : HostDevice) (g : Graph) (op : Operator)
    (t : Task) : Prop :=
  ∃ record n p, e.kernels.get c.device op.type = .ok (record, n) ∧ plan? record.kernel op = some p ∧
    e.Carries c d g op p t

theorem Carries.congr {e : Engine} {c : Context} {d d' : HostDevice} {g g' : Graph} {op : Operator}
    {p : Plan} {t : Task} (h : e.Carries c d g op p t)
    (hgraph : g.SameBare g') (hblocks : d'.blocks = d.blocks)
    (hemulated : d'.emulated = d.emulated) : e.Carries c d' g' op p t := by
  refine ⟨h.launches.congr hgraph hblocks hemulated rfl, h.args, ?_⟩
  have hcopy := h.copy
  cases hbias : p.bias with
  | none =>
      rw [hbias] at hcopy
      exact hcopy
  | some pair =>
      rw [hbias] at hcopy
      obtain ⟨source, size, hsome, hcopies⟩ := hcopy
      exact ⟨source, size, hsome, hcopies.congr hgraph hblocks⟩

theorem Serves.congr {e : Engine} {c : Context} {d d' : HostDevice} {g g' : Graph} {op : Operator}
    {t : Task} (h : e.Serves c d g op t)
    (hgraph : g.SameBare g') (hblocks : d'.blocks = d.blocks)
    (hemulated : d'.emulated = d.emulated) : e.Serves c d' g' op t := by
  obtain ⟨record, n, p, hrecord, hplan, hcarries⟩ := h
  exact ⟨record, n, p, hrecord, hplan, hcarries.congr hgraph hblocks hemulated⟩

theorem mem_of_get {r : KernelRegistry} {device : DeviceKind} {op : OpType} {record : KernelRecord}
    {n : Nat} (h : r.get device op = .ok (record, n)) : record ∈ r.records := by
  rw [KernelRegistry.get] at h
  split at h
  · next found hfound =>
      cases h
      obtain ⟨_, _, hmem⟩ := List.mem_zipIdx (List.mem_of_find?_eq_some hfound)
      rw [hmem]
      exact List.getElem_mem _
  · cases h

theorem head_of_plan {kernel : KernelKind} {op : Operator} {p : Plan} (h : plan? kernel op = some p)
    {bias output : TensorId} (hbias : p.bias = some (bias, output)) :
    op.outputs.head? = some output := by
  unfold plan? at h
  split at h
  · cases h
    cases hbias
  · cases h
    cases hbias
  · split at h
    · cases h
      cases hbias
    · next houtputs =>
        cases h
        cases hbias
        rw [houtputs]
        rfl
    · cases h
  · cases h

section Dispatch

variable {e : Engine} {c : Context} {m : Machine} {g : Graph}
  (hready : g.Ready e.library c.device c.deviceId m) {op op' : Operator}
  (hop : g.operator? op.id = some op')
  (hbare : op'.bare = op.bare)

include hready hop hbare

theorem carryOut_apply {p : Plan} {t : Task} (h : e.Carries c (m.device e.backend) g op p t) :
    ∃ m' g', e.carryOut c op p (m, g) = (.ok (), m', g') ∧ g.SameBare g' ∧ m.Advances e.backend
      (t.effect e.workspace.address) m' ∧ g'.Ready e.library c.device c.deviceId m' := by
  have hcopy := h.copy
  cases hbias : p.bias with
  | none =>
      rw [hbias] at hcopy
      obtain ⟨m', g', hlaunch, hgraph, hadvances, hready'⟩ :=
        launch_apply hready hop hbare h.launches t.args
      refine ⟨m', g', ?_, hgraph, ?_, hready'⟩
      · rw [carryOut, hbias, ← h.args]
        exact hlaunch
      · have heffect : t.effect e.workspace.address =
            t.compiled.run [t.y, t.a, t.b] e.workspace.address t.args := by
          funext memory
          rw [Task.effect, Task.prepare, hcopy]
        rw [heffect]
        exact hadvances
  | some pair =>
      obtain ⟨bias, output⟩ := pair
      rw [hbias] at hcopy
      obtain ⟨source, size, hsome, hcopies⟩ := hcopy
      obtain ⟨m₁, hcopied, hadvances₁, hready₁⟩ := copyBias_apply hready hcopies
      obtain ⟨m', g', hlaunch, hgraph, hadvances, hready'⟩ := launch_apply hready₁ hop hbare
        (h.launches.congr (.refl g) hadvances₁.blocks hadvances₁.emulated rfl) t.args
      refine ⟨m', g', ?_, hgraph, ?_, hready'⟩
      · rw [carryOut, hbias, ← h.args]
        dsimp only
        rw [Act.bind_of_ok hcopied]
        exact hlaunch
      · have heffect : t.effect e.workspace.address = fun memory => t.compiled.run [t.y, t.a, t.b]
            e.workspace.address t.args (memory.copy t.y.val source.val size) := by
          funext memory
          rw [Task.effect, Task.prepare, hsome]
        rw [heffect]
        exact hadvances₁.trans hadvances

theorem carries_of_carryOut {kernel : KernelKind} {p : Plan} (hplan : plan? kernel op = some p)
    {s' : Machine × Graph} (h : e.carryOut c op p (m, g) = (.ok (), s')) :
    ∃ t, e.Carries c (m.device e.backend) g op p t := by
  cases hbias : p.bias with
  | none =>
      rw [carryOut, hbias] at h
      obtain ⟨compiled, y, a, b, hlaunches⟩ := launches_of_launch hready hop hbare h
      refine ⟨⟨compiled, y, a, b, p.args, none⟩, hlaunches, rfl, ?_⟩
      rw [hbias]
  | some pair =>
      obtain ⟨bias, output⟩ := pair
      rw [carryOut, hbias] at h
      obtain ⟨_, _, hcopied, h⟩ := Act.bind_eq_ok h
      obtain ⟨target, source, size, _, hcopies, _⟩ := copyBias_eq_ok_iff.1 hcopied
      obtain ⟨m₁, hcopied', hadvances₁, hready₁⟩ := copyBias_apply hready hcopies
      obtain ⟨_, rfl⟩ := Prod.mk.inj (hcopied.symm.trans hcopied')
      obtain ⟨compiled, y, a, b, hlaunches⟩ := launches_of_launch hready₁ hop hbare h
      have hlaunches' :=
        hlaunches.congr (.refl g) hadvances₁.blocks.symm hadvances₁.emulated.symm rfl
      -- the only output is the one that the bias went to
      obtain ⟨rest, houtputs⟩ := List.head?_eq_some_iff.1 (head_of_plan hplan hbias)
      have haddress := mapM_eq_ok_iff.1 (houtputs ▸ hlaunches'.outputs)
      rw [List.forall₂_cons_left_iff] at haddress
      obtain ⟨_, _, hy, _, hcons⟩ := haddress
      obtain ⟨rfl, _⟩ := List.cons.inj hcons
      obtain rfl := Except.ok.inj (hy.symm.trans hcopies.target)
      refine ⟨⟨compiled, y, a, b, p.args, some (source, size)⟩, hlaunches', rfl, ?_⟩
      rw [hbias]
      exact ⟨source, size, rfl, hcopies⟩

theorem dispatch_apply {t : Task} (h : e.Serves c (m.device e.backend) g op t)
    (metrics : RunMetrics) :
    ∃ metrics' m' g', e.dispatch c metrics op (m, g) = (.ok metrics', m', g') ∧
    metrics'.operatorsRun = metrics.operatorsRun + 1 ∧ g.SameBare g' ∧
      m.Advances e.backend (t.effect e.workspace.address) m' ∧
      g'.Ready e.library c.device c.deviceId m' := by
  obtain ⟨record, n, p, hrecord, hplan, hcarries⟩ := h
  obtain ⟨m', g', hcarried, hgraph, hadvances, hready'⟩ := carryOut_apply hready hop hbare hcarries
  rw [← e.compute_of_plan c hplan] at hcarried
  refine ⟨if e.config.profiling
    then metrics.recordDispatch.recordOp ⟨op.id, op.type, record.name, .zero⟩
    else metrics.recordDispatch, m', g', ?_, ?_, hgraph, hadvances, hready'⟩
  · rw [dispatch, Act.bind_ofExcept hrecord]
    dsimp only
    rw [Act.bind_of_ok hcarried]
    rfl
  · split <;> rfl

theorem serves_of_dispatch {metrics metrics' : RunMetrics} {s' : Machine × Graph}
    (h : e.dispatch c metrics op (m, g) = (.ok metrics', s'))
    (hidle : ∀ record ∈ e.kernels.records, record.kernel ≠ .idle) :
    ∃ t, e.Serves c (m.device e.backend) g op t := by
  obtain ⟨⟨record, n⟩, _, hrecord, h⟩ := Act.bind_eq_ok h
  obtain ⟨hget, rfl⟩ := Act.ofExcept_eq_ok hrecord
  obtain ⟨_, _, hcompute, _⟩ := Act.bind_eq_ok h
  obtain ⟨p, hplan⟩ := plan_of_compute hcompute (hidle record (mem_of_get hget))
  rw [e.compute_of_plan c hplan] at hcompute
  obtain ⟨t, hcarries⟩ := carries_of_carryOut hready hop hbare hplan hcompute
  exact ⟨t, record, n, p, hget, hplan, hcarries⟩

end Dispatch

/-! ### A run -/

section Run

variable {e : Engine} {c : Context} {d : HostDevice} {g₀ : Graph} {ops : List Operator}
  (hops : ∀ op ∈ ops, op ∈ g₀.ops)

include hops

/-- Operators that can each be dispatched are dispatched one after the other, and their effects add
up. -/
theorem foldlM_dispatch_apply {task : Operator → Task}
    (hserves : ∀ op ∈ ops, e.Serves c d g₀ op (task op)) {m : Machine} {g : Graph}
    (hready : g.Ready e.library c.device c.deviceId m) (hgraph : g₀.SameBare g)
    (hblocks : (m.device e.backend).blocks = d.blocks)
    (hemulated : (m.device e.backend).emulated = d.emulated) (metrics : RunMetrics) :
    ∃ metrics' m' g', ops.foldlM (e.dispatch c) metrics (m, g) = (.ok metrics', m', g') ∧
    metrics'.operatorsRun = metrics.operatorsRun + ops.length ∧ g₀.SameBare g' ∧
      m.Advances e.backend (fun memory =>
        ops.foldl (fun memory op => (task op).effect e.workspace.address memory) memory) m' ∧
      g'.Ready e.library c.device c.deviceId m' := by
  induction ops generalizing m g metrics with
  | nil => exact ⟨metrics, m, g, rfl, rfl, hgraph, ⟨rfl, rfl, rfl, rfl⟩, hready⟩
  | cons op ops ih =>
      obtain ⟨op', hop', hbare⟩ := hgraph.mem (hops op List.mem_cons_self)
      have hfound : g.operator? op.id = some op' :=
        Operator.id_of_bare hbare ▸ Graph.operator?_of_mem hready.opIds hop'
      obtain ⟨metrics₁, m₁, g₁, hfirst, hcount, hgraph₁, hadvances₁, hready₁⟩ :=
        dispatch_apply hready hfound hbare
          ((hserves op List.mem_cons_self).congr hgraph hblocks hemulated) metrics
      obtain ⟨metrics', m', g', hrest, hcount', hgraph', hadvances', hready'⟩ :=
        ih (fun op' hop' => hops op' (List.mem_cons_of_mem _ hop'))
        (fun op' hop' => hserves op' (List.mem_cons_of_mem _ hop')) hready₁ (hgraph.trans hgraph₁)
        (hadvances₁.blocks.trans hblocks) (hadvances₁.emulated.trans hemulated) metrics₁
      refine ⟨metrics', m', g', ?_, ?_, hgraph', hadvances₁.trans hadvances', hready'⟩
      · rw [List.foldlM_cons, Act.bind_of_ok hfirst, hrest]
      · rw [hcount', hcount, List.length_cons]
        omega

theorem serves_of_foldlM_dispatch (hidle : ∀ record ∈ e.kernels.records, record.kernel ≠ .idle)
    {m : Machine} {g : Graph}
    (hready : g.Ready e.library c.device c.deviceId m) (hgraph : g₀.SameBare g)
    (hblocks : (m.device e.backend).blocks = d.blocks)
    (hemulated : (m.device e.backend).emulated = d.emulated) {metrics metrics' : RunMetrics}
    {s' : Machine × Graph}
    (h : ops.foldlM (e.dispatch c) metrics (m, g) = (.ok metrics', s')) :
    ∀ op ∈ ops, ∃ t, e.Serves c d g₀ op t := by
  induction ops generalizing m g metrics with
  | nil => exact fun op hop => absurd hop List.not_mem_nil
  | cons op ops ih =>
      obtain ⟨op', hop', hbare⟩ := hgraph.mem (hops op List.mem_cons_self)
      have hfound : g.operator? op.id = some op' :=
        Operator.id_of_bare hbare ▸ Graph.operator?_of_mem hready.opIds hop'
      rw [List.foldlM_cons] at h
      obtain ⟨metrics₁, s₁, hfirst, h⟩ := Act.bind_eq_ok h
      obtain ⟨t, hserves⟩ := serves_of_dispatch hready hfound hbare hfirst hidle
      obtain ⟨metrics₁', m₁, g₁, hfirst', _, hgraph₁, hadvances₁, hready₁⟩ :=
        dispatch_apply hready hfound hbare hserves metrics
      obtain ⟨_, rfl⟩ := Prod.mk.inj (hfirst.symm.trans hfirst')
      intro op'' hop''
      rcases List.mem_cons.1 hop'' with rfl | hop''
      · exact ⟨t, hserves.congr hgraph.symm hblocks.symm hemulated.symm⟩
      · exact ih (fun op' hop' => hops op' (List.mem_cons_of_mem _ hop'))
          hready₁ (hgraph.trans hgraph₁) (hadvances₁.blocks.trans hblocks)
          (hadvances₁.emulated.trans hemulated) h op'' hop''

end Run

end Engine

end TensorDataflow
