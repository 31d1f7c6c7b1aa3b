import TensorDataflow.Proofs.Engine.Keeping
import TensorDataflow.Proofs.Graph.Accounts
/-!
# What engines leave in stock

Engines come and go, threads are bound to them and tensors get buffers without any call to the
operator library, so all of this leaves in stock what is there. A run does call the library, but
through the descriptors of its operators only: after it, however it ends, what operators hold is in
stock again.
-/

namespace TensorDataflow

/-- A run leaves accounts that balance, on the backend of its engine. -/
theorem Engine.upholds_balances (e : Engine) {floor : Nat} {Q : Entry → Prop} :
    e.Upholds (Graph.Balances e.backend floor Q) where
  descriptor id device deviceId := Graph.createDescriptor_balances id e.library device deviceId
  size desc := Graph.onMachine_balances ((NativeAct.workspaceSize_keepsStock desc).mapError _)
  launch desc workspace size outputs inputs args := Graph.onMachine_balances
    ((NativeAct.launch_keepsStock desc workspace size outputs inputs args).mapError _)
  copy _ _ _ _ := Graph.onMachine_balances (NativeAct.changeDevice_keepsStock.mapError _)

theorem Engine.run_balances (e : Engine) {floor : Nat} {Q : Entry → Prop} :
    e.run.Keeps (Graph.Balances e.backend floor Q) :=
  e.upholds_balances.run

open Machine (KeepsStock)

variable {id : BackendId}

/-! ### Buffers -/

namespace Tensor

/-- What is in stock stays, and so do the links of a tensor. -/
def KeepsStock (id : BackendId) (s s' : Machine × Tensor) : Prop :=
  s.1.KeepsStock id s'.1 ∧ s'.2.links = s.2.links

instance (id : BackendId) : IsPreorder (Machine × Tensor) (Tensor.KeepsStock id) where
  refl s := ⟨refl_of (Machine.KeepsStock id) s.1, rfl⟩
  trans _ _ _ h h' := ⟨IsTrans.trans _ _ _ h.1 h'.1, h'.2.trans h.2⟩

variable {ε α : Type} {mem : TensorMemory ε}

theorem onMachine_keepsStock {act : Act Machine ε α} (h : act.Keeps (Machine.KeepsStock id)) :
    (onMachine act).Keeps (Tensor.KeepsStock id) :=
  h.on fun _ _ hkeeps => ⟨hkeeps, rfl⟩

theorem native_keepsStock {act : NativeAct α} (h : act.Keeps (Machine.KeepsStock id)) :
    (native mem act).Keeps (Tensor.KeepsStock id) :=
  onMachine_keepsStock (h.mapError _)

theorem ask_keepsStock (question : Tensor → Except GraphError α) :
    (ask mem question).Keeps (Tensor.KeepsStock id) :=
  Act.keeps_get.bind fun _ => Act.keeps_ofExcept _

theorem moveTo_keepsStock (device : DeviceKind) (buffer : Buffer) :
    (moveTo device buffer : TensorAct ε Unit).Keeps (Tensor.KeepsStock id) :=
  fun s => ⟨refl_of (Machine.KeepsStock id) s.1, rfl⟩

theorem releaseBuffer_keepsStock (onHost : Bool) (a : Address) :
    (releaseBuffer mem onHost a).Keeps (Tensor.KeepsStock id) := by
  refine native_keepsStock ?_
  split
  · exact NativeAct.changeDevice_keepsStock
  · exact NativeAct.changeDevice_keepsStock

theorem migrate_keepsStock (old : Address) (target : DeviceKind) :
    (migrate mem old target).Keeps (Tensor.KeepsStock id) := by
  refine (ask_keepsStock _).bind fun bytes => Act.Keeps.bind (native_keepsStock ?_) fun fresh => ?_
  · split
    · exact NativeAct.useDevice_keepsStock
    · exact NativeAct.useDevice_keepsStock
  · refine Act.Keeps.bind ?_ fun _ => Act.keeps_get.bind fun s =>
      (moveTo_keepsStock _ _).bind fun _ => releaseBuffer_keepsStock _ _
    exact (native_keepsStock NativeAct.changeDevice_keepsStock).tryCatch fun e =>
      (releaseBuffer_keepsStock _ _).attempt.bind fun _ => Act.keeps_throw _

theorem realise_keepsStock (hactive : mem.activeDevice.Keeps (Machine.KeepsStock id)) :
    (realise mem).Keeps (Tensor.KeepsStock id) := by
  refine (onMachine_keepsStock hactive).bind fun active => (ask_keepsStock _).bind fun bytes =>
    Act.keeps_get.bind fun s => ?_
  dsimp only
  split
  · exact (native_keepsStock NativeAct.useDevice_keepsStock).bind fun a => moveTo_keepsStock _ _
  · split
    · exact migrate_keepsStock _ _
    · exact Act.keeps_pure _

end Tensor

namespace Graph

/-- What is in stock stays, and all but the layouts and buffers of a graph. -/
def KeepsStock (id : BackendId) (s s' : Machine × Graph) : Prop :=
  s.1.KeepsStock id s'.1 ∧ SameWiring s.2 s'.2

variable {ε : Type}

theorem eachTensorOf_keepsStock {act : TensorAct ε Unit} (h : act.Keeps (Tensor.KeepsStock id))
    (m : Machine) (tensors : List Tensor) :
    m.KeepsStock id (eachTensorOf act m tensors).2.1 ∧
    (eachTensorOf act m tensors).2.2.map Tensor.links = tensors.map Tensor.links := by
  induction tensors generalizing m with
  | nil => exact ⟨refl_of (Machine.KeepsStock id) m, rfl⟩
  | cons t rest ih =>
      obtain ⟨hstock, hlinks⟩ := h (m, t)
      rw [eachTensorOf]
      rcases hfirst : act (m, t) with ⟨cause | ⟨⟩, m₁, t₁⟩
      · rw [hfirst] at hstock hlinks
        exact ⟨hstock, congrArg (· :: rest.map Tensor.links) hlinks⟩
      · rw [hfirst] at hstock hlinks
        obtain ⟨hstock', hlinks'⟩ := ih m₁
        exact ⟨IsTrans.trans _ _ _ hstock hstock', List.cons_eq_cons.2 ⟨hlinks, hlinks'⟩⟩

theorem eachTensor_keepsStock {act : TensorAct ε Unit} (h : act.Keeps (Tensor.KeepsStock id)) :
    (eachTensor act).Keeps (Graph.KeepsStock id) := by
  rintro ⟨m, g⟩
  obtain ⟨hstock, hlinks⟩ := eachTensorOf_keepsStock h m g.tensors
  exact ⟨hstock, rfl, rfl, hlinks⟩

end Graph

namespace Engine

variable {backend : BackendId} {α : Type}

theorem currentContext_keepsStock (e : Engine) : e.currentContext.Keeps (KeepsStock id) :=
  Act.keeps_get.bind fun _ => Act.keeps_ofExcept _

theorem realiseData_keepsStock (e : Engine) : e.realiseData.Keeps (Graph.KeepsStock id) :=
  Graph.eachTensor_keepsStock
    (Tensor.realise_keepsStock (e.currentContext_keepsStock.bind fun _ => Act.keeps_pure _))

/-! ### Contexts -/

/-- What is in stock stays, and an engine stays on its backend. -/
def Retains (id : BackendId) (s s' : Machine × Engine) : Prop :=
  s.1.KeepsStock id s'.1 ∧ s'.2.backend = s.2.backend

instance (id : BackendId) : IsPreorder (Machine × Engine) (Retains id) where
  refl s := ⟨refl_of (KeepsStock id) s.1, rfl⟩
  trans _ _ _ h h' := ⟨IsTrans.trans _ _ _ h.1 h'.1, h'.2.trans h.2⟩

theorem onMachine_retains {act : NativeAct α} (h : act.Keeps (KeepsStock id)) :
    (onMachine (native act)).Keeps (Retains id) :=
  (h.mapError _).on fun _ _ hkeeps => ⟨hkeeps, rfl⟩

theorem publish_retains (c : Context) : (publish c).Keeps (Retains id) :=
  Act.Keeps.bind (fun s => ⟨refl_of (KeepsStock id) s.1, rfl⟩) fun _ => Act.keeps_pure c

theorem enter_retains (device : DeviceKind) (deviceId : Nat) :
    (enter device deviceId).Keeps (Retains id) := by
  refine Act.keeps_get.bind fun s =>
    (onMachine_retains NativeAct.changeDevice_keepsStock).bind fun _ => ?_
  exact (onMachine_retains NativeAct.useDevice_keepsStock).bind fun stream => publish_retains _

theorem openContext_retains (device : DeviceKind) (deviceId : Nat) :
    (openContext device deviceId).Keeps (Retains id) := by
  refine Act.keeps_get.bind fun s => ?_
  dsimp only
  split
  · exact Act.keeps_pure _
  · exact enter_retains device deviceId

theorem replaceContext_retains (old : Context) (device : DeviceKind) (deviceId : Nat) :
    (replaceContext old device deviceId).Keeps (Retains id) := by
  refine Act.keeps_get.bind fun s =>
    (onMachine_retains NativeAct.changeDevice_keepsStock).bind fun _ => ?_
  refine (onMachine_retains NativeAct.useDevice_keepsStock).bind fun stream => ?_
  exact (onMachine_retains NativeAct.changeDevice_keepsStock).bind fun _ => publish_retains _

/-! ### Coming and going -/

theorem close_keepsStock {ε : Type} (e : Engine) :
    (e.close : Act Machine ε Unit).Keeps (KeepsStock id) :=
  NativeAct.changeDevice_keepsStock.attempt.bind fun _ =>
    Act.Keeps.forM (fun _ => NativeAct.changeDevice_keepsStock.attempt) e.contexts

theorem create_keepsStock (kernels : KernelRegistry) (config : Config) :
    (create backend kernels config).Keeps (KeepsStock id) := by
  refine (NativeAct.inspectDevice_keepsStock.mapError _).bind fun _ =>
    (NativeAct.changeDevice_keepsStock.mapError _).bind fun _ => ?_
  refine (NativeAct.useDevice_keepsStock.mapError _).bind fun address =>
    Act.keeps_get.bind_of fun m m' m'' hget => ?_
  cases hget
  have hopen := @openContext_retains id config.device config.deviceId
    (m, { backend, kernels, config, workspace := ⟨address, config.workspace.bytes⟩ })
  generalize openContext config.device config.deviceId _ = opened at hopen
  obtain ⟨result, m₁, e⟩ := opened
  dsimp only
  rw [Act.bind_of_ok (Act.set_apply _ _)]
  cases result with
  | ok _ => exact hopen.1
  | error cause =>
      exact IsTrans.trans _ _ _ hopen.1
        ((e.close_keepsStock.bind fun _ => Act.keeps_throw cause) m₁)

theorem backend_of_create {kernels : KernelRegistry} {config : Config} {m m' : Machine} {e : Engine}
    (h : create backend kernels config m = (.ok e, m')) : e.backend = backend := by
  obtain ⟨_, _, -, h⟩ := Act.bind_eq_ok h
  obtain ⟨_, _, -, h⟩ := Act.bind_eq_ok h
  obtain ⟨address, m₁, -, h⟩ := Act.bind_eq_ok h
  obtain ⟨_, _, hget, h⟩ := Act.bind_eq_ok h
  cases hget
  have hopen := @openContext_retains backend config.device config.deviceId
    (m₁, { backend, kernels, config, workspace := ⟨address, config.workspace.bytes⟩ })
  generalize openContext config.device config.deviceId _ = opened at hopen h
  obtain ⟨result, m₂, e'⟩ := opened
  dsimp only at h
  rw [Act.bind_of_ok (Act.set_apply _ _)] at h
  cases result with
  | ok _ =>
      cases h
      exact hopen.2
  | error cause =>
      obtain ⟨_, _, -, hthrow⟩ := Act.bind_eq_ok h
      cases hthrow

end Engine

end TensorDataflow
