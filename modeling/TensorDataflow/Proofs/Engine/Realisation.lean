import TensorDataflow.Engine.Run
import TensorDataflow.Proofs.Device.Blocks
import TensorDataflow.Proofs.Machine.Calls
/-!
# Buffers for all tensors

Giving every tensor of a graph a buffer on the thread's device leaves each of them, and all that was
there, in a block that holds it.
-/

namespace TensorDataflow

/-- What more blocks leave of a machine. -/
structure Machine.Grown (id : BackendId) (m m' : Machine) : Prop where
  thread : m'.thread = m.thread
  calm : m'.Calm id
  emulated : (m'.device id).emulated = (m.device id).emulated
  selected : (m'.device id).selected = (m.device id).selected
  next : (m.device id).nextAddress ≤ (m'.device id).nextAddress
  ranges : ∀ (a : Address) (length : Nat) (location : Location),
    a.val < (m.device id).nextAddress → (m.device id).checkRange a length = .ok location →
      ∃ location', (m'.device id).checkRange a length = .ok location' ∧
        (0 < length → location' = location)

theorem Machine.Calm.grown {id : BackendId} {m : Machine} (h : m.Calm id) : m.Grown id m :=
  ⟨rfl, h, rfl, rfl, Nat.le_refl _, fun _ _ location _ hlive => ⟨location, hlive, fun _ => rfl⟩⟩

theorem Machine.Grown.trans {id : BackendId} {m m' m'' : Machine} (h : m.Grown id m')
    (h' : m'.Grown id m'') : m.Grown id m'' where
  thread := h'.thread.trans h.thread
  calm := h'.calm
  emulated := h'.emulated.trans h.emulated
  selected := h'.selected.trans h.selected
  next := Nat.le_trans h.next h'.next
  ranges a length location ha hlive := by
    obtain ⟨location', hlive', hsame⟩ := h.ranges a length location ha hlive
    obtain ⟨location'', hlive'', hsame'⟩ :=
      h'.ranges a length location' (Nat.lt_of_lt_of_le ha h.next) hlive'
    exact ⟨location'', hlive'', fun hpos => (hsame' hpos).trans (hsame hpos)⟩

theorem NativeAct.malloc_apply {m : Machine} {id : BackendId}
    (hcalm : m.Calm id) {device : DeviceKind} {deviceId : Nat}
    (hselected : (m.device id).selection m.thread = (device, deviceId))
    {size : Nat} (hsize : size < HostDevice.capacity) :
    ∃ m', malloc id size m = (.ok ⟨(m.device id).room size⟩, m') ∧
      m.Renewed id ((m.device id).extended size (.device device deviceId)) m' := by
  have hmalloc : (m.backend id).device.malloc m.thread size =
      .ok (⟨(m.device id).room size⟩, (m.device id).extended size (.device device deviceId)) := by
    rw [HostDevice.malloc, show (m.backend id).device.selection m.thread = _ from hselected]
    exact HostDevice.allocate_of_lt _ hsize _
  exact useDevice_apply hcalm .malloc hmalloc

theorem NativeAct.setDevice_apply {m : Machine} {id : BackendId} (hcalm : m.Calm id)
    {device : DeviceKind} {deviceId : Nat} (hdevice : deviceId < (m.device id).deviceCount device) :
    ∃ m', setDevice id device deviceId m = (.ok (), m') ∧
    m.Renewed id ((m.device id).choosing m.thread device deviceId) m' ∧
    (m'.device id).selection m'.thread = (device, deviceId) := by
  obtain ⟨m', hset, hrenewed⟩ := @changeDevice_apply m id hcalm .setDevice
    (fun thread d => d.select thread device deviceId) _ (HostDevice.select_of_lt hdevice m.thread)
  refine ⟨m', hset, hrenewed _ rfl, ?_⟩
  rw [(hrenewed _ rfl).device, (hrenewed _ rfl).thread, HostDevice.selection_choosing]

theorem NativeAct.init_apply {m : Machine} {id : BackendId} (hcalm : m.Calm id) :
    init id m = (.ok (), m) := by
  rw [init, inspectDevice, @invoke_apply _ _ ⟨id, true⟩ hcalm]
  exact Prod.ext rfl (m.setBackend_backend id)

theorem Tensor.ask_apply {ε α : Type} (mem : TensorMemory ε)
    (question : Tensor → Except GraphError α) (m : Machine) (t : Tensor) :
    ask mem question (m, t) = ((question t).mapError mem.ofGraph, m, t) := by
  rw [ask, Act.bind_of_ok (Act.get_apply _), Act.ofExcept_apply]

namespace Engine

theorem activeDevice_apply (e : Engine) (m : Machine) (t : Tensor) :
    Tensor.onMachine e.memory.activeDevice (m, t) =
      ((e.contextOf m.thread).map Context.device, m, t) := by
  have hcurrent : e.currentContext m = (e.contextOf m.thread, m) := by
    rw [currentContext, Act.bind_of_ok (Act.get_apply _), Act.ofExcept_apply]
  have hdevice : e.memory.activeDevice m = ((e.contextOf m.thread).map Context.device, m) := by
    show (do return (← e.currentContext).device : Act Machine EngineError DeviceKind) m = _
    rw [Act.bind_apply, hcurrent]
    cases e.contextOf m.thread <;> rfl
  rw [Tensor.onMachine, Act.on_apply, hdevice]

section Realise

variable {e : Engine} {c : Context}

/-- A tensor that has been given a buffer of at least one byte on the thread's device. -/
def Realised (c : Context) (d : HostDevice) (t t' : Tensor) : Prop :=
  ∃ b, t' = { t with device := c.device, data := some b } ∧ t.totalBytes = .ok b.size ∧
    d.checkRange b.address (max b.size 1) = .ok (.device c.device c.deviceId)

theorem realise_apply {m : Machine} (hcalm : m.Calm e.backend)
    (hcontext : e.contextOf m.thread = .ok c)
    (hselected : (m.device e.backend).selection m.thread = (c.device, c.deviceId))
    {t : Tensor} (hnone : t.data = none) {n : Nat} (hbytes : t.totalBytes = .ok n)
    (hsize : n < HostDevice.capacity) :
    ∃ m' t', Tensor.realise e.memory (m, t) = (.ok (), m', t') ∧ m.Grown e.backend m' ∧
    Realised c (m'.device e.backend) t t' ∧
      ∀ b, t'.data = some b → b.address.val < (m'.device e.backend).nextAddress := by
  obtain ⟨m', hmalloc, hrenewed⟩ := NativeAct.malloc_apply hcalm hselected hsize
  refine ⟨m', { t with device := c.device, data := some ⟨⟨(m.device e.backend).room n⟩, n⟩ }, ?_,
    ⟨hrenewed.thread, hrenewed.calm, ?_, ?_, ?_, fun a length location ha hlive => ?_⟩,
    ⟨_, rfl, hbytes, ?_⟩, ?_⟩
  · have hactive : Tensor.onMachine e.memory.activeDevice (m, t) = (.ok c.device, m, t) := by
      rw [activeDevice_apply, hcontext]
      rfl
    have hask : Tensor.ask e.memory Tensor.totalBytes (m, t) = (.ok n, m, t) := by
      rw [Tensor.ask_apply, hbytes]
      rfl
    have hnative : Tensor.native e.memory (NativeAct.malloc e.memory.backend n) (m, t) =
        (.ok ⟨(m.device e.backend).room n⟩, m', t) := by
      rw [Tensor.native, Tensor.onMachine]
      exact Act.on_of_ok (Act.mapError_eq_ok.2 hmalloc)
    rw [Tensor.realise, Act.bind_of_ok hactive, Act.bind_of_ok hask,
      Act.bind_of_ok (Act.get_apply _)]
    simp only [hnone]
    rw [Act.bind_of_ok hnative]
    rfl
  · rw [hrenewed.device]
    rfl
  · rw [hrenewed.device]
    rfl
  · rw [hrenewed.device]
    exact HostDevice.nextAddress_le_extended _ n _
  · rw [hrenewed.device]
    exact HostDevice.exists_checkRange_extended hlive ha n _
  · rw [hrenewed.device]
    exact HostDevice.checkRange_extended _ n _
  · intro b hb
    obtain rfl := Option.some.inj hb
    rw [hrenewed.device]
    exact HostDevice.room_lt_extended _ n _

theorem eachTensorOf_realise {m : Machine} (hcalm : m.Calm e.backend)
    (hcontext : e.contextOf m.thread = .ok c)
    (hselected : (m.device e.backend).selection m.thread = (c.device, c.deviceId))
    {tensors : List Tensor}
    (hfree : ∀ t ∈ tensors, t.data = none ∧ ∃ n, t.totalBytes = .ok n ∧ n < HostDevice.capacity) :
    ∃ m' tensors', Graph.eachTensorOf (Tensor.realise e.memory) m tensors = (.ok (), m', tensors') ∧
    m.Grown e.backend m' ∧
      List.Forall₂ (Realised c (m'.device e.backend)) tensors tensors' := by
  induction tensors generalizing m with
  | nil => exact ⟨m, [], rfl, hcalm.grown, .nil⟩
  | cons t tensors ih =>
      obtain ⟨hnone, n, hbytes, hsize⟩ := hfree t List.mem_cons_self
      obtain ⟨m₁, t', hfirst, hgrown₁, ⟨b, ht', hsame, hrange⟩, hbelow⟩ :=
        realise_apply hcalm hcontext hselected hnone hbytes hsize
      have hselected₁ : (m₁.device e.backend).selection m₁.thread = (c.device, c.deviceId) := by
        rw [HostDevice.selection, hgrown₁.selected, hgrown₁.thread]
        exact hselected
      obtain ⟨m', tensors', hrest, hgrown, hall⟩ :=
        ih hgrown₁.calm (hgrown₁.thread.symm ▸ hcontext) hselected₁ fun u hu =>
          hfree u (List.mem_cons_of_mem _ hu)
      refine ⟨m', t' :: tensors', ?_, hgrown₁.trans hgrown, .cons ⟨b, ht', hsame, ?_⟩ hall⟩
      · rw [Graph.eachTensorOf, hfirst]
        dsimp only
        rw [hrest]
      · -- the blocks that come later are clear of this one
        have hpos : 0 < max b.size 1 := Nat.lt_of_lt_of_le Nat.one_pos (Nat.le_max_right _ _)
        obtain ⟨location, hlive, hsame⟩ := hgrown.ranges _ _ _ (hbelow b (by rw [ht'])) hrange
        rw [hlive, hsame hpos]

theorem realiseData_apply {m : Machine} (hcalm : m.Calm e.backend)
    (hcontext : e.contextOf m.thread = .ok c)
    (hselected : (m.device e.backend).selection m.thread = (c.device, c.deviceId)) {g : Graph}
    (hfree : ∀ t ∈ g.tensors, t.data = none ∧ ∃ n, t.totalBytes = .ok n ∧ n < HostDevice.capacity) :
    ∃ m' tensors', e.realiseData (m, g) = (.ok (), m', { g with tensors := tensors' }) ∧
    m.Grown e.backend m' ∧ List.Forall₂ (Realised c (m'.device e.backend)) g.tensors tensors' := by
  obtain ⟨m', tensors', hall, hgrown, hrealised⟩ :=
    eachTensorOf_realise hcalm hcontext hselected hfree
  refine ⟨m', tensors', ?_, hgrown, hrealised⟩
  rw [realiseData, Graph.eachTensor, hall]

end Realise

/-! ### Coming up -/

/-- An engine whose running thread is bound: it has a context, its device is selected and there, and
the workspace lies in a block. -/
structure Bound (e : Engine) (c : Context) (m : Machine) : Prop where
  context : e.contextOf m.thread = .ok c
  calm : m.Calm e.backend
  selected : (m.device e.backend).selection m.thread = (c.device, c.deviceId)
  device : c.deviceId < (m.device e.backend).deviceCount c.device
  workspace : ∃ location,
    (m.device e.backend).checkRange e.workspace.address e.workspace.size = .ok location
  below : e.workspace.address.val < (m.device e.backend).nextAddress

theorem native_of_ok {α : Type} {act : NativeAct α} {m m' : Machine} {a : α}
    (h : act m = (.ok a, m')) : native act m = (.ok a, m') :=
  Act.mapError_eq_ok.2 h

theorem onMachine_native {α : Type} {act : NativeAct α} {m m' : Machine} {a : α}
    (h : act m = (.ok a, m')) (e : Engine) : onMachine (native act) (m, e) = (.ok a, m', e) :=
  Act.on_of_ok (native_of_ok h)

/-- A thread without a context is bound to a device that is there, and no block comes or goes. -/
theorem openContext_apply {m : Machine} {e : Engine} (hcalm : m.Calm e.backend)
    (hnone : e.contexts.lookup m.thread = none) {device : DeviceKind} {deviceId : Nat}
    (hdevice : deviceId < (m.device e.backend).deviceCount device) :
    ∃ c m', openContext device deviceId (m, e) = (.ok c, m', e.bindThread m.thread c) ∧
    c.device = device ∧ c.deviceId = deviceId ∧ m'.thread = m.thread ∧ m'.Calm e.backend ∧
      (m'.device e.backend).selection m'.thread = (device, deviceId) ∧
      ∃ streams lastStream selected,
      m'.device e.backend = { m.device e.backend with streams, lastStream, selected } := by
  obtain ⟨m₁, hset, hrenewed₁, hselected⟩ := NativeAct.setDevice_apply hcalm hdevice
  obtain ⟨m', hstream, hrenewed⟩ := @NativeAct.useDevice_apply _ m₁ e.backend hrenewed₁.calm
    .streamCreate (fun _ d => .ok d.createStream) _ _ rfl
  have hthread : m'.thread = m.thread := hrenewed.thread.trans hrenewed₁.thread
  refine ⟨⟨device, deviceId, (m₁.device e.backend).lastStream + 1⟩, m', ?_, rfl, rfl, hthread,
    hrenewed.calm, ?_, ?_⟩
  · rw [openContext, Act.bind_of_ok (Act.get_apply _)]
    dsimp only
    rw [hnone]
    dsimp only
    rw [enter, Act.bind_of_ok (Act.get_apply _)]
    dsimp only
    rw [Act.bind_of_ok (onMachine_native hset e), NativeAct.streamCreate,
      Act.bind_of_ok (onMachine_native hstream e), publish,
      Act.bind_of_ok (Act.modify_apply _ _), ← hthread]
    rfl
  · rw [hrenewed.device, hrenewed.thread]
    exact hselected
  · rw [hrenewed.device, hrenewed₁.device]
    exact ⟨_, _, _, rfl⟩

/-- On a device that is there, with room for the workspace, an engine comes up and its thread is
bound. -/
theorem create_bound {m : Machine} {backend : BackendId} (hcalm : m.Calm backend)
    (kernels : KernelRegistry) {config : Config}
    (hdevice : config.deviceId < (m.device backend).deviceCount config.device)
    (hsize : config.workspace.bytes < HostDevice.capacity) :
    ∃ e c m', create backend kernels config m = (.ok e, m') ∧ e.kernels = kernels ∧
    e.workspace.size = config.workspace.bytes ∧ e.Bound c m' := by
  obtain ⟨m₁, hset, hrenewed₁, hselected⟩ := NativeAct.setDevice_apply hcalm hdevice
  obtain ⟨m₂, hmalloc, hrenewed₂⟩ := NativeAct.malloc_apply hrenewed₁.calm hselected hsize
  have hcount : (m₂.device backend).deviceCount config.device =
      (m.device backend).deviceCount config.device := by
    rw [hrenewed₂.device, hrenewed₁.device]
    rfl
  let e : Engine :=
    { backend
      kernels
      config
      workspace := ⟨⟨(m₁.device backend).room config.workspace.bytes⟩, config.workspace.bytes⟩ }
  obtain ⟨c, m', hopen, hkind, hid, hthread, hcalm', hselected', streams, lastStream, selected,
        hsame⟩ := @openContext_apply m₂ e hrenewed₂.calm rfl _ _ (hcount.symm ▸ hdevice)
  have hdevice' : m'.device (e.bindThread m₂.thread c).backend =
      { m₂.device backend with streams, lastStream, selected } := hsame
  refine ⟨e.bindThread m₂.thread c, c, m', ?_, rfl, rfl, ⟨?_, hcalm', ?_, ?_, ?_, ?_⟩⟩
  · rw [create, Act.bind_of_ok (native_of_ok (NativeAct.init_apply hcalm)),
      Act.bind_of_ok (native_of_ok hset), Act.bind_of_ok (native_of_ok hmalloc),
      Act.bind_of_ok (Act.get_apply _)]
    rw [hopen]
    rfl
  · rw [contextOf, bindThread, hthread, List.lookup_cons_self]
  · rw [hkind, hid]
    exact hselected'
  · rw [hkind, hid, hdevice']
    exact hcount.symm ▸ hdevice
  · refine ⟨.device config.device config.deviceId, ?_⟩
    rw [hdevice', hrenewed₂.device]
    exact HostDevice.checkRange_mono (HostDevice.checkRange_extended _ _ _) (Nat.le_max_left _ _)
  · rw [hdevice', hrenewed₂.device]
    exact HostDevice.room_lt_extended _ config.workspace.bytes
      (.device config.device config.deviceId)

end Engine

end TensorDataflow
