import Mathlib.Logic.Relation
import TensorDataflow.Proofs.Engine.Outcomes
import TensorDataflow.Proofs.Graph.Descriptors
/-!
# What a run cannot disturb

A run touches the machine and its graph in four ways only: it brings descriptors up to date, asks
for workspace, launches, and copies a bias. A relation that these keep is kept by every run, however
it ends. Two such relations are that nothing happens to a graph but for its descriptors, and that no
block is placed or given up, nothing is selected, and the tensors stay as they are.
-/

namespace TensorDataflow

namespace Engine

/-- A relation that everything keeps which a run does to the machine and the graph. -/
structure Upholds (e : Engine) (R : Machine × Graph → Machine × Graph → Prop) : Prop where
  descriptor : ∀ id device deviceId, (Graph.createDescriptor id e.library device deviceId).Keeps R
  size : ∀ desc, (machineOf (native (NativeAct.workspaceSize e.library desc))).Keeps R
  launch : ∀ desc workspace size outputs inputs args, (machineOf
      (native (NativeAct.launch e.library desc workspace size outputs inputs args))).Keeps R
  copy : ∀ target source size direction,
    (machineOf (native (NativeAct.memcpy e.backend target source size direction))).Keeps R

section Run

variable {R : Machine × Graph → Machine × Graph → Prop}
  [IsPreorder (Machine × Graph) R] {e : Engine}

theorem askGraph_keeps {α : Type} (question : Graph → Except GraphError α) :
    (askGraph question).Keeps R :=
  Act.keeps_get.bind fun _ => Act.keeps_ofExcept _

variable (h : e.Upholds R)

include h

theorem launch_keeps (c : Context) (op : Operator) (inputs : List TensorId) (args : LaunchArgs) :
    (e.launch c op inputs args).Keeps R := by
  refine ((h.descriptor _ _ _).mapError _).bind fun desc => (h.size desc).bind fun size =>
    (Act.keeps_ofExcept _).bind fun workspace => ?_
  exact (askGraph_keeps _).bind fun outputs => (askGraph_keeps _).bind fun inputs =>
    h.launch _ _ _ _ _ _

theorem copyBias_keeps (bias output : TensorId) : (e.copyBias bias output).Keeps R :=
  (askGraph_keeps _).bind fun _ => (askGraph_keeps _).bind fun _ =>
    (askGraph_keeps _).bind fun _ => h.copy _ _ _ _

theorem runGemm_keeps (c : Context) (op : Operator) (attributes : Gemm) :
    (e.runGemm c op attributes).Keeps R := by
  rw [runGemm]
  split
  · next rest _ _ _ _ =>
      cases rest with
      | nil => exact (Act.keeps_pure _).bind fun beta => launch_keeps h c op _ _
      | cons bias _ =>
          exact (copyBias_keeps h _ _).bind fun _ => (Act.keeps_pure _).bind fun beta =>
            launch_keeps h c op _ _
  · exact Act.keeps_throw _

theorem compute_keeps (c : Context) (kernel : KernelKind) (op : Operator) :
    (e.compute c kernel op).Keeps R := by
  unfold compute
  split
  · exact Act.keeps_pure _
  · exact launch_keeps h c op _ _
  · exact runGemm_keeps h c op _
  · exact launch_keeps h c op _ _
  · exact Act.keeps_throw _

theorem dispatch_keeps (c : Context) (metrics : RunMetrics) (op : Operator) :
    (e.dispatch c metrics op).Keeps R :=
  (Act.keeps_ofExcept _).bind fun _ => (compute_keeps h c _ op).bind fun _ => Act.keeps_pure _

theorem run_keeps : e.run.Keeps R := by
  have hcurrent : (machineOf e.currentContext).Keeps R := by
    rintro ⟨m, g⟩
    have hsame : e.currentContext m = (e.contextOf m.thread, m) := by
      rw [currentContext, Act.bind_of_ok (Act.get_apply _), Act.ofExcept_apply]
    rw [machineOf, Graph.onMachine, Act.on_apply, hsame]
    exact refl_of R _
  refine hcurrent.bind fun c => (askGraph_keeps _).bind fun _ => Act.keeps_get.bind fun s => ?_
  exact Act.Keeps.foldlM (dispatch_keeps h c) _ _

end Run

/-- What a run does at a time. -/
inductive Calls (e : Engine) (s : Machine × Graph) : Machine × Graph → Prop
  | descriptor (id : OpId) (device : DeviceKind) (deviceId : Nat) :
      Calls e s (Graph.createDescriptor id e.library device deviceId s).2
  | size (desc : Nat) : Calls e s (machineOf (native (NativeAct.workspaceSize e.library desc)) s).2
  | launch (desc : Nat) (workspace : Address) (size : Nat) (outputs inputs : List Address)
      (args : LaunchArgs) :
      Calls e s (machineOf
          (native (NativeAct.launch e.library desc workspace size outputs inputs args)) s).2
  | copy (target source : Address) (size : Nat) (direction : CopyDirection) :
      Calls e s (machineOf (native (NativeAct.memcpy e.backend target source size direction)) s).2

/-- A run that starts in one state can be in another before its next call. -/
def Passes (e : Engine) : Machine × Graph → Machine × Graph → Prop := Relation.ReflTransGen e.Calls

section Passes

variable {e : Engine}

instance : IsPreorder (Machine × Graph) e.Passes where
  refl _ := Relation.ReflTransGen.refl
  trans _ _ _ := Relation.ReflTransGen.trans

theorem upholds_passes (e : Engine) : e.Upholds e.Passes where
  descriptor id device deviceId _ := .single (.descriptor id device deviceId)
  size desc _ := .single (.size desc)
  launch desc workspace size outputs inputs args _ :=
    .single (.launch desc workspace size outputs inputs args)
  copy target source size direction _ := .single (.copy target source size direction)

theorem run_passes (e : Engine) : e.run.Keeps e.Passes := run_keeps e.upholds_passes

theorem Upholds.passes {R : Machine × Graph → Machine × Graph → Prop}
    [IsPreorder (Machine × Graph) R] (h : e.Upholds R) {s s' : Machine × Graph}
    (hpasses : e.Passes s s') : R s s' := by
  induction hpasses with
  | refl => exact refl_of R s
  | tail _ hcall ih =>
      refine IsTrans.trans _ _ _ ih ?_
      cases hcall with
      | descriptor id device deviceId => exact h.descriptor id device deviceId _
      | size desc => exact h.size desc _
      | launch desc workspace size outputs inputs args =>
          exact h.launch desc workspace size outputs inputs args _
      | copy target source size direction => exact h.copy target source size direction _

/-- What every call upholds, a whole run keeps. -/
theorem Upholds.run {R : Machine × Graph → Machine × Graph → Prop}
    [IsPreorder (Machine × Graph) R] (h : e.Upholds R) : e.run.Keeps R :=
  fun s => h.passes (e.run_passes s)

end Passes

end Engine

/-! ### Descriptors and nothing else -/

namespace Graph

/-- A relation that everything keeps which is done to a machine and a graph for the sake of one
descriptor. -/
structure Tolerates (lib : LibraryRef) (R : Machine × Graph → Machine × Graph → Prop) : Prop where
  set : ∀ {ε : Type} (op : OpId) (d : Option Descriptor),
      (setDescriptor op d : GraphAct ε Unit).Keeps R
  destroy : ∀ {ε : Type} (d : Descriptor), (onMachine d.destroy : GraphAct ε Unit).Keeps R
  build : ∀ device deviceId op operands,
    (native (buildDescriptor lib device deviceId op operands)).Keeps R

namespace Tolerates

variable {lib : LibraryRef} {R : Machine × Graph → Machine × Graph → Prop}
  [IsPreorder (Machine × Graph) R] (h : Tolerates lib R)

include h

theorem releaseDescriptor {ε : Type} (op : OpId) :
    (releaseDescriptor op : GraphAct ε Unit).Keeps R := by
  refine Act.keeps_get.bind fun s => ?_
  split
  · exact Act.keeps_pure _
  · exact (h.set op none).bind fun _ => h.destroy _

theorem rebuildDescriptor (op : Operator) (device : DeviceKind) (deviceId : Nat) :
    (rebuildDescriptor op lib device deviceId).Keeps R := by
  refine (h.releaseDescriptor op.id).bind fun _ => Act.keeps_get.bind fun s =>
    (Act.keeps_ofExcept _).bind fun inputs => (Act.keeps_ofExcept _).bind fun outputs => ?_
  exact (Act.keeps_ofExcept _).bind fun operands => (h.build _ _ _ _).bind fun d =>
    (h.set op.id _).bind fun _ => Act.keeps_pure _

theorem createDescriptor (op : OpId) (device : DeviceKind) (deviceId : Nat) :
    (createDescriptor op lib device deviceId).Keeps R := by
  refine Act.keeps_get.bind fun s => (Act.keeps_ofExcept _).bind fun o => ?_
  split
  · split
    · exact Act.keeps_pure _
    · exact h.rebuildDescriptor o device deviceId
  · exact h.rebuildDescriptor o device deviceId

end Tolerates

/-- Nothing happens to a graph but for what its operators have compiled. -/
def KeepsBare (s s' : Machine × Graph) : Prop := s.2.SameBare s'.2

instance : IsPreorder (Machine × Graph) KeepsBare where
  refl s := .refl s.2
  trans _ _ _ := .trans

theorem onMachine_keepsBare {ε α : Type} (act : Act Machine ε α) :
    (onMachine act).Keeps KeepsBare :=
  fun s => .refl s.2

theorem tolerates_bare (lib : LibraryRef) : Tolerates lib KeepsBare where
  set op d s := s.2.sameBare_modifyOperator op d
  destroy _ := onMachine_keepsBare _
  build _ _ _ _ := onMachine_keepsBare _

end Graph

theorem Engine.upholds_bare (e : Engine) : e.Upholds Graph.KeepsBare where
  descriptor := (Graph.tolerates_bare e.library).createDescriptor
  size _ := Graph.onMachine_keepsBare _
  launch _ _ _ _ _ _ := Graph.onMachine_keepsBare _
  copy _ _ _ _ := Graph.onMachine_keepsBare _

/-- A run leaves a graph as it is but for what its operators have compiled, however it ends. -/
theorem Engine.run_bare (e : Engine) : e.run.Keeps Graph.KeepsBare := e.upholds_bare.run

/-! ### Blocks, selections and tensors -/

theorem HostDevice.Undisturbed.refl (d : HostDevice) : d.Undisturbed d := ⟨rfl, rfl, rfl⟩

theorem OpLibrary.undisturbed_launch {l : OpLibrary} {d d' : HostDevice} {desc : Nat}
    {workspace : Address} {size : Nat} {outputs inputs : List Address} {args : LaunchArgs}
    (h : l.launch d desc workspace size outputs inputs args = .ok d') : d.Undisturbed d' := by
  cases hlookup : l.ops.lookup desc with
  | none =>
      rw [launch, compiled, hlookup] at h
      cases h
  | some c =>
      obtain ⟨_, _, _, _, rfl⟩ := (launch_eq_ok_iff hlookup).1 h
      exact ⟨rfl, rfl, rfl⟩

namespace Machine

/-- No block of a calm backend is placed or given up, and nothing is selected. -/
def Quiet (id : BackendId) (m m' : Machine) : Prop :=
  m.Calm id → m'.Calm id ∧ m'.thread = m.thread ∧ (m.device id).Undisturbed (m'.device id)

instance (id : BackendId) : IsPreorder Machine (Quiet id) where
  refl m hcalm := ⟨hcalm, rfl, .refl _⟩
  trans m m' m'' h h' hcalm := by
    obtain ⟨hcalm', hthread, hundisturbed⟩ := h hcalm
    obtain ⟨hcalm'', hthread', hundisturbed'⟩ := h' hcalm'
    exact ⟨hcalm'', hthread'.trans hthread, hundisturbed.trans hundisturbed'⟩

theorem quiet_setBackend {id other : BackendId} {m : Machine} {b : Backend}
    (hb : other = id → m.Calm id → b.faults = [] ∧ (m.device id).Undisturbed b.device) :
    m.Quiet id (m.setBackend other b) := by
  intro hcalm
  by_cases hother : other = id
  · subst hother
    obtain ⟨hfaults, hundisturbed⟩ := hb rfl hcalm
    refine ⟨hcalm.setBackend hfaults, rfl, ?_⟩
    have hsame := hcalm.backend_setBackend b
    rw [device, device, hsame]
    exact hundisturbed
  · have hsame := m.backend_setBackend_of_ne hother b
    refine ⟨⟨?_, by rw [hsame, hcalm.faults]⟩, rfl, ?_⟩
    · rw [setBackend, List.length_set]
      exact hcalm.there
    · rw [device, device, hsame]
      exact .refl _

end Machine

namespace NativeAct

open Machine (Quiet)

variable {id : BackendId} {lib : LibraryRef}

theorem invoke_quiet {α : Type} {call : NativeCall}
    {body : ThreadId → Backend → Except Status (α × Backend)}
    (hbody : ∀ thread b a b', body thread b = .ok (a, b') → b'.faults = b.faults ∧
      b.device.Undisturbed b'.device) : (invoke lib call body).Keeps (Quiet id) := by
  intro m
  rw [invoke]
  dsimp only
  -- on a calm backend the faults are empty before and after they are consulted
  have hkept : lib.backend = id → m.Calm id →
      (if lib.guarded then Fault.strike call (m.backend lib.backend).faults
        else (none, (m.backend lib.backend).faults)).2 = [] := by
    rintro rfl hcalm
    rw [hcalm.faults]
    split <;> rfl
  generalize (if lib.guarded then Fault.strike call (m.backend lib.backend).faults
      else (none, (m.backend lib.backend).faults)) = struck at hkept
  have hfailed :
      m.Quiet id (m.setBackend lib.backend { m.backend lib.backend with faults := struck.2 }) := by
    refine Machine.quiet_setBackend fun hid hcalm => ⟨hkept hid hcalm, ?_⟩
    rw [Machine.device, ← hid]
    exact .refl _
  split
  · exact hfailed
  · split
    · next a b hok =>
        obtain ⟨hfaults, hundisturbed⟩ := hbody _ _ _ _ hok
        refine Machine.quiet_setBackend fun hid hcalm => ⟨hfaults.trans (hkept hid hcalm), ?_⟩
        rw [Machine.device, ← hid]
        exact hundisturbed
    · exact hfailed

theorem changeDevice_quiet {call : NativeCall}
    {change : ThreadId → HostDevice → Except Status HostDevice}
    (hchange : ∀ thread d d', change thread d = .ok d' → d.Undisturbed d') :
    (changeDevice id call change).Keeps (Quiet id) := by
  refine invoke_quiet fun thread b a b' hok => ?_
  obtain ⟨d, hd, hb'⟩ := except_bind_eq_ok.1 hok
  cases hb'
  exact ⟨rfl, hchange thread b.device d hd⟩

theorem makeDescriptor_quiet {call : NativeCall}
    {make : Backend → Except Status (Nat × OpLibrary)} :
    (makeDescriptor lib call make).Keeps (Quiet id) := by
  refine invoke_quiet fun thread b a b' hok => ?_
  obtain ⟨made, _, hb'⟩ := except_bind_eq_ok.1 hok
  cases hb'
  exact ⟨rfl, .refl _⟩

theorem changeLibrary_quiet {call : NativeCall} {change : OpLibrary → Except Status OpLibrary} :
    (changeLibrary lib call change).Keeps (Quiet id) := by
  refine invoke_quiet fun thread b a b' hok => ?_
  obtain ⟨l, _, hb'⟩ := except_bind_eq_ok.1 hok
  cases hb'
  exact ⟨rfl, .refl _⟩

theorem logged_undisturbed (entry : LogEntry) (b : Backend) :
    (logged lib entry b).faults = b.faults ∧ b.device.Undisturbed (logged lib entry b).device := by
  rw [logged]
  split
  · exact ⟨rfl, .refl _⟩
  · exact ⟨rfl, .refl _⟩

theorem workspaceSize_quiet (desc : Nat) : (workspaceSize lib desc).Keeps (Quiet id) := by
  refine invoke_quiet fun thread b a b' hok => ?_
  obtain ⟨size, _, hb'⟩ := except_bind_eq_ok.1 hok
  cases hb'
  exact logged_undisturbed _ b

theorem launch_quiet (desc : Nat) (workspace : Address) (size : Nat)
    (outputs inputs : List Address) (args : LaunchArgs) :
    (launch lib desc workspace size outputs inputs args).Keeps (Quiet id) := by
  refine (invoke_quiet fun thread b a b' hok => ?_).bind fun _ =>
    invoke_quiet fun thread b a b' hok => ?_
  · cases hok
    exact logged_undisturbed _ b
  · obtain ⟨d, hd, hb'⟩ := except_bind_eq_ok.1 hok
    cases hb'
    exact ⟨rfl, OpLibrary.undisturbed_launch hd⟩

end NativeAct

namespace Graph

open Machine (Quiet)

variable {id : BackendId} {lib : LibraryRef}

theorem createTensors_quiet (layouts : List OperandLayout) (m : Machine) :
    m.Quiet id (createTensors lib layouts m).2 := by
  induction layouts generalizing m with
  | nil => exact refl_of (Quiet id) m
  | cons layout rest ih =>
      have hfirst : m.Quiet id (NativeAct.createTensor lib layout m).2 :=
        NativeAct.makeDescriptor_quiet m
      rw [createTensors]
      dsimp only
      rcases hcreate : NativeAct.createTensor lib layout m with ⟨status | desc, m'⟩
      · rw [hcreate] at hfirst
        exact hfirst
      · rw [hcreate] at hfirst
        exact IsTrans.trans _ _ _ hfirst (ih m')

theorem compileOperator_quiet (handle : Nat) (op : NativeOp) (operands : List OperandLayout) :
    (compileOperator lib handle op operands).Keeps (Quiet id) := by
  intro m
  have hcreated := @createTensors_quiet id lib operands m
  rw [compileOperator]
  generalize createTensors lib operands m = created at hcreated
  obtain ⟨⟨result, descs⟩, m₁⟩ := created
  have hcompiled :
      (do
        Act.ofExcept result
        NativeAct.createOp lib handle op descs : NativeAct Nat).Keeps (Quiet id) :=
    (Act.keeps_ofExcept _).bind fun _ => NativeAct.makeDescriptor_quiet
  have hdestroyed : (descs.forM fun d =>
        (NativeAct.destroyTensor lib d).attempt : NativeAct Unit).Keeps (Quiet id) :=
    Act.Keeps.forM (fun d => NativeAct.changeLibrary_quiet.attempt) descs
  exact IsTrans.trans _ _ _ hcreated (IsTrans.trans _ _ _ (hcompiled m₁) (hdestroyed _))

theorem buildDescriptor_quiet (device : DeviceKind) (deviceId : Nat)
    (op : NativeOp) (operands : List OperandLayout) :
    (buildDescriptor lib device deviceId op operands).Keeps (Quiet id) := by
  refine NativeAct.makeDescriptor_quiet.bind fun handle => Act.Keeps.bind ?_ fun desc =>
    Act.keeps_pure _
  exact (compileOperator_quiet handle op operands).tryCatch fun status =>
    NativeAct.changeLibrary_quiet.attempt.bind fun _ => Act.keeps_throw _

/-- Nothing happens to the blocks of a backend and to the tensors of a graph. -/
def Quiet (id : BackendId) (s s' : Machine × Graph) : Prop :=
  s.1.Quiet id s'.1 ∧ s'.2.tensors = s.2.tensors

instance (id : BackendId) : IsPreorder (Machine × Graph) (Graph.Quiet id) where
  refl s := ⟨refl_of (Machine.Quiet id) s.1, rfl⟩
  trans _ _ _ h h' := ⟨IsTrans.trans _ _ _ h.1 h'.1, h'.2.trans h.2⟩

theorem onMachine_quiet {ε α : Type} {act : Act Machine ε α} (h : act.Keeps (Machine.Quiet id)) :
    (onMachine act).Keeps (Graph.Quiet id) :=
  h.on fun _ _ hquiet => ⟨hquiet, rfl⟩

theorem setDescriptor_quiet {ε : Type} (op : OpId) (d : Option Descriptor) :
    (setDescriptor op d : GraphAct ε Unit).Keeps (Graph.Quiet id) :=
  fun s => ⟨refl_of (Machine.Quiet id) s.1, rfl⟩

theorem tolerates_quiet (id : BackendId) (lib : LibraryRef) : Tolerates lib (Graph.Quiet id) where
  set := setDescriptor_quiet
  destroy _ := onMachine_quiet
    (NativeAct.changeLibrary_quiet.attempt.bind fun _ => NativeAct.changeLibrary_quiet.attempt)
  build device deviceId op operands :=
    onMachine_quiet ((buildDescriptor_quiet device deviceId op operands).mapError _)

end Graph

theorem Engine.upholds_quiet (e : Engine) (id : BackendId) (hid : e.backend = id) :
    e.Upholds (Graph.Quiet id) where
  descriptor := (Graph.tolerates_quiet id e.library).createDescriptor
  size desc := Graph.onMachine_quiet ((NativeAct.workspaceSize_quiet desc).mapError _)
  launch desc workspace size outputs inputs args := Graph.onMachine_quiet
    ((NativeAct.launch_quiet desc workspace size outputs inputs args).mapError _)
  copy target source size direction := by
    subst hid
    exact Graph.onMachine_quiet ((NativeAct.changeDevice_quiet fun _ _ _ hcopy =>
          HostDevice.undisturbed_memcpy hcopy).mapError _)

/-- A run leaves the blocks of its backend and the tensors of its graph as they are, however it
ends. -/
theorem Engine.run_quiet (e : Engine) : e.run.Keeps (Graph.Quiet e.backend) :=
  (e.upholds_quiet e.backend rfl).run

end TensorDataflow
