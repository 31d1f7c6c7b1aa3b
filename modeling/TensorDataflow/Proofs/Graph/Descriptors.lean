import TensorDataflow.Proofs.Graph.Takings
import TensorDataflow.Proofs.Graph.Links
import TensorDataflow.Proofs.Machine.Calls
/-!
# Descriptors of a graph's operators

A descriptor that an operator holds was compiled from the layouts that its tensors still have, or so
it is as long as nothing but runs happens to the graph. Asking for a descriptor then succeeds
exactly when the operator compiles for the device, and leaves everything as it was but for the
library and the descriptors.
-/

namespace TensorDataflow

/-- An operator without what it has compiled. -/
def Operator.bare (op : Operator) : Operator := { op with descriptor := none }

theorem Operator.id_of_bare {a b : Operator} (h : a.bare = b.bare) : a.id = b.id :=
  (Operator.mk.inj h).1

namespace Graph

/-- Two graphs that differ at most in what their operators have compiled. -/
structure SameBare (g g' : Graph) : Prop where
  tensors : g'.tensors = g.tensors
  ops : g'.ops.map Operator.bare = g.ops.map Operator.bare
  sorted : g'.sorted = g.sorted

namespace SameBare

theorem refl (g : Graph) : SameBare g g := ⟨rfl, rfl, rfl⟩

theorem trans {g g' g'' : Graph} (h : SameBare g g') (h' : SameBare g' g'') : SameBare g g'' :=
  ⟨h'.tensors.trans h.tensors, h'.ops.trans h.ops, h'.sorted.trans h.sorted⟩

theorem symm {g g' : Graph} (h : SameBare g g') : SameBare g' g :=
  ⟨h.tensors.symm, h.ops.symm, h.sorted.symm⟩

theorem ids {g g' : Graph} (h : SameBare g g') :
    g'.ops.map Operator.id = g.ops.map Operator.id := by
  have hbare : ∀ ops : List Operator,
      ops.map Operator.id = (ops.map Operator.bare).map Operator.id := by
    intro ops
    rw [List.map_map]
    rfl
  rw [hbare, hbare g.ops, h.ops]

theorem tensor {g g' : Graph} (h : SameBare g g') (id : TensorId) : g'.tensor id = g.tensor id := by
  rw [Graph.tensor, Graph.tensor, tensor?, tensor?, h.tensors]

theorem mem {g g' : Graph} (h : SameBare g g') {op : Operator} (hop : op ∈ g.ops) :
    ∃ op' ∈ g'.ops, op'.bare = op.bare := by
  have hmem : op.bare ∈ g'.ops.map Operator.bare := h.ops ▸ List.mem_map_of_mem hop
  exact List.mem_map.1 hmem

end SameBare

/-- The operator compiles for a device, from the layouts of its tensors. -/
structure Compiles (g : Graph) (d : HostDevice) (device : DeviceKind) (deviceId : Nat)
    (op : Operator) (c : CompiledOp) : Prop where
  layouts : ∃ inputs outputs layouts, g.tensorsOf op.inputs = .ok inputs ∧
    g.tensorsOf op.outputs = .ok outputs ∧
    op.kind.nativeOperands inputs outputs = .ok layouts ∧ (∀ layout ∈ layouts, layout.Accepted) ∧
    CompiledOp.compile op.kind.nativeOp layouts = .ok c
  device : deviceId < d.deviceCount device

theorem Compiles.unique {g : Graph} {d d' : HostDevice} {device device' : DeviceKind}
    {deviceId deviceId' : Nat} {op : Operator} {c c' : CompiledOp}
    (h : g.Compiles d device deviceId op c)
    (h' : g.Compiles d' device' deviceId' op c') : c = c' := by
  obtain ⟨inputs, outputs, layouts, hinputs, houtputs, hlayouts, _, hc⟩ := h.layouts
  obtain ⟨inputs', outputs', layouts', hinputs', houtputs', hlayouts', _, hc'⟩ := h'.layouts
  obtain rfl := Except.ok.inj (hinputs.symm.trans hinputs')
  obtain rfl := Except.ok.inj (houtputs.symm.trans houtputs')
  obtain rfl := Except.ok.inj (hlayouts.symm.trans hlayouts')
  exact Except.ok.inj (hc.symm.trans hc')

theorem Compiles.congr {g g' : Graph} {d d' : HostDevice} {device : DeviceKind} {deviceId : Nat}
    {op op' : Operator} {c : CompiledOp}
    (h : g.Compiles d device deviceId op c) (hgraph : SameBare g g')
    (hdevice : d'.emulated = d.emulated) (hop : op'.bare = op.bare) :
    g'.Compiles d' device deviceId op' c := by
  obtain ⟨_, hkind, hinputs, houtputs, _⟩ := Operator.mk.inj hop
  have htensors : ∀ ids, g'.tensorsOf ids = g.tensorsOf ids :=
    fun ids => by rw [tensorsOf, tensorsOf, funext hgraph.tensor]
  obtain ⟨ins, outs, layouts, hins, houts, hlayouts, hrest⟩ := h.layouts
  refine ⟨⟨ins, outs, layouts, ?_, ?_, ?_, ?_⟩, ?_⟩
  · rw [htensors, show op'.inputs = op.inputs from hinputs, hins]
  · rw [htensors, show op'.outputs = op.outputs from houtputs, houts]
  · rw [show op'.kind = op.kind from hkind, hlayouts]
  · rwa [show op'.kind = op.kind from hkind]
  · have hcount := h.device
    rwa [HostDevice.deviceCount, HostDevice.supports, ← hdevice] at hcount

/-- A graph whose descriptors, if it has any, are those that would be compiled for the device
now. -/
structure Ready (lib : LibraryRef) (device : DeviceKind) (deviceId : Nat) (m : Machine)
    (g : Graph) : Prop where
  calm : m.Calm lib.backend
  opIds : (g.ops.map Operator.id).Nodup
  current : ∀ op ∈ g.ops, ∀ d, op.descriptor = some d →
    d.library = lib ∧ d.device = device ∧ d.deviceId = deviceId ∧
    d.desc ≤ (m.library lib.backend).lastId ∧ ∃ c, g.Compiles (m.device lib.backend) device deviceId
      op c ∧ (m.library lib.backend).ops.lookup d.desc = some c

theorem sameBare_modifyOperator (g : Graph) (id : OpId) (d : Option Descriptor) :
    SameBare g (g.modifyOperator id fun op => { op with descriptor := d }) := by
  refine ⟨rfl, ?_, rfl⟩
  rw [modifyOperator, List.map_map]
  apply List.map_congr_left
  intro op _
  rw [Function.comp_apply]
  split <;> rfl

section Current

variable {lib : LibraryRef} {device : DeviceKind} {deviceId : Nat} {m : Machine} {g : Graph}
  (hready : g.Ready lib device deviceId m) {op : Operator}
  (hop : g.operator? op.id = some op)

include hready hop

/-- An operator that compiles gets a descriptor, and everything but the library and the descriptors
stays. -/
theorem createDescriptor_apply {c : CompiledOp}
    (hcompiles : g.Compiles (m.device lib.backend) device deviceId op c) :
    ∃ desc m' g', createDescriptor op.id lib device deviceId (m, g) = (.ok desc, m', g') ∧
    SameBare g g' ∧ m'.thread = m.thread ∧
      m'.device lib.backend = m.device lib.backend ∧
      (m'.library lib.backend).ops.lookup desc = some c ∧ g'.Ready lib device deviceId m' := by
  have hmem := mem_of_operator? hop
  have hfind : g.operator op.id = .ok op := by rw [operator, hop]
  rw [createDescriptor, Act.bind_of_ok (Act.get_apply _), Act.bind_ofExcept hfind]
  cases hdescriptor : op.descriptor with
  | some d =>
      obtain ⟨hlib, hdevice, hid, hdesc, c', hcompiles', hlookup⟩ :=
        hready.current op hmem d hdescriptor
      obtain rfl := hcompiles.unique hcompiles'
      refine ⟨d.desc, m, g, ?_, .refl g, rfl, rfl, hlookup, hready⟩
      simp only [hdevice, hid, hlib, and_self, if_true]
      rfl
  | none =>
      obtain ⟨inputs, outputs, layouts, hinputs, houtputs, hlayouts, haccepted, hcompile⟩ :=
        hcompiles.layouts
      obtain ⟨d, l', hbuilt, hlib, hdevice, hid, hextends, hdesc, hlookup⟩ :=
        buildDescriptor_apply hready.calm hcompiles.device haccepted hcompile
      have hrelease : releaseDescriptor (ε := GraphError) op.id (m, g) = (.ok (), m, g) := by
        rw [releaseDescriptor, Act.bind_of_ok (Act.get_apply _)]
        simp only [hop, Option.bind_some, hdescriptor]
        rfl
      have hnative : native (buildDescriptor lib device deviceId op.kind.nativeOp layouts) (m, g) =
          (.ok d, m.withLibrary lib.backend l', g) :=
        onMachine_of_ok (Act.mapError_eq_ok.2 hbuilt) g
      have hbare := g.sameBare_modifyOperator op.id (some d)
      refine ⟨d.desc, m.withLibrary lib.backend l', g.modifyOperator op.id fun op =>
        { op with descriptor := some d }, ?_, hbare, rfl, hready.calm.device_withLibrary l',
        by rw [hready.calm.library_withLibrary,
          hlookup], hready.calm.withLibrary l', hbare.ids ▸ hready.opIds, ?_⟩
      · dsimp only
        rw [rebuildDescriptor, Act.bind_of_ok hrelease, Act.bind_of_ok (Act.get_apply _)]
        dsimp only
        rw [Act.bind_ofExcept hinputs, Act.bind_ofExcept houtputs, Act.bind_ofExcept hlayouts,
          Act.bind_of_ok hnative]
        rfl
      · intro op' hop' d' hd'
        obtain ⟨op₀, hop₀, rfl⟩ := List.mem_map.1 hop'
        rw [hready.calm.library_withLibrary, hready.calm.device_withLibrary]
        by_cases hid₀ : op₀.id = op.id
        · obtain rfl := List.inj_on_of_nodup_map hready.opIds hop₀ hmem hid₀
          rw [if_pos rfl] at hd' ⊢
          obtain rfl := Option.some.inj hd'
          exact ⟨hlib, hdevice, hid, hdesc, c, hcompiles.congr hbare rfl rfl, hlookup⟩
        · rw [if_neg hid₀] at hd' ⊢
          obtain ⟨hlib', hdevice', hid', hdesc', c', hcompiles', hlookup'⟩ :=
            hready.current op₀ hop₀ d' hd'
          exact ⟨hlib', hdevice', hid', Nat.le_trans hdesc' hextends.lastId, c',
            hcompiles'.congr hbare rfl rfl, (hextends.ops _ hdesc').trans hlookup'⟩

theorem compiles_of_createDescriptor {desc : Nat} {s' : Machine × Graph}
    (h : createDescriptor op.id lib device deviceId (m, g) = (.ok desc, s')) :
    ∃ c, g.Compiles (m.device lib.backend) device deviceId op c := by
  have hmem := mem_of_operator? hop
  have hfind : g.operator op.id = .ok op := by rw [operator, hop]
  rw [createDescriptor, Act.bind_of_ok (Act.get_apply _), Act.bind_ofExcept hfind] at h
  cases hdescriptor : op.descriptor with
  | some d =>
      obtain ⟨_, _, _, _, c, hcompiles, _⟩ := hready.current op hmem d hdescriptor
      exact ⟨c, hcompiles⟩
  | none =>
      have hrelease : releaseDescriptor (ε := GraphError) op.id (m, g) = (.ok (), m, g) := by
        rw [releaseDescriptor, Act.bind_of_ok (Act.get_apply _)]
        simp only [hop, Option.bind_some, hdescriptor]
        rfl
      rw [hdescriptor] at h
      dsimp only at h
      rw [rebuildDescriptor, Act.bind_of_ok hrelease, Act.bind_of_ok (Act.get_apply _)] at h
      obtain ⟨inputs, _, hinputs, h⟩ := Act.bind_eq_ok h
      obtain ⟨outputs, _, houtputs, h⟩ := Act.bind_eq_ok h
      obtain ⟨layouts, _, hlayouts, h⟩ := Act.bind_eq_ok h
      obtain ⟨d, _, hnative, _⟩ := Act.bind_eq_ok h
      obtain ⟨hins, rfl⟩ := Act.ofExcept_eq_ok hinputs
      obtain ⟨houts, rfl⟩ := Act.ofExcept_eq_ok houtputs
      obtain ⟨hoperands, rfl⟩ := Act.ofExcept_eq_ok hlayouts
      obtain ⟨_, hbuilt, _⟩ := onMachine_eq_ok hnative
      obtain ⟨hdevice, haccepted, c, hcompile⟩ :=
        compiles_of_buildDescriptor hready.calm (Act.mapError_eq_ok.1 hbuilt)
      exact ⟨c, ⟨inputs, outputs, layouts, hins, houts, hoperands, haccepted, hcompile⟩, hdevice⟩

end Current

end Graph

end TensorDataflow
