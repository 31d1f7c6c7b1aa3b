import TensorDataflow.Proofs.Engine.Realisation
/-!
# What calls of an engine leave

Each call of an engine is taken apart once: what it can leave of the machine, the engine and the
tensor if no native call fails in it. Binding a thread either changes nothing or gives the thread a
new context and selects its device; giving a tensor a buffer either changes nothing or places one
new block on the device that is selected for the thread, whichever engine has selected it, and gives
up the tensor's old block.
-/

namespace TensorDataflow

def EngineError.isNative : EngineError → Bool
  | .device _ => true
  | _ => false

/-- The state that a call leaves, unless a native call has failed in it. -/
def settled {σ α : Type} : Except EngineError α × σ → Option σ
  | (.ok _, s) => some s
  | (.error cause, s) => if cause.isNative then none else some s

theorem eq_of_settled {σ α : Type} {result : Except EngineError α} {s s' : σ}
    (h : settled (result, s) = some s') : s' = s := by
  cases result with
  | ok a => exact (Option.some.inj h).symm
  | error cause =>
      rw [settled] at h
      split at h
      · cases h
      · exact (Option.some.inj h).symm

theorem settled_of_settled {σ τ α : Type} {result : Except EngineError α} {s s' : σ}
    (h : settled (result, s) = some s') (t : τ) : settled (result, t) = some t := by
  cases result with
  | ok a => rfl
  | error cause =>
      rw [settled] at h
      split at h
      · cases h
      · next hnative => rw [settled, if_neg hnative]

/-- An action in which nothing but native calls can fail. -/
def OnlyNative {σ α : Type} (x : Act σ EngineError α) : Prop :=
  ∀ s cause s', x s = (.error cause, s') → cause.isNative = true

namespace OnlyNative

variable {σ α β : Type} {x : Act σ EngineError α}

theorem ok_of_settled (hx : OnlyNative x) {s s' : σ} (h : settled (x s) = some s') :
    ∃ a, x s = (.ok a, s') := by
  rcases hresult : x s with ⟨cause | a, s₁⟩
  · rw [hresult, settled, hx s cause s₁ hresult] at h
    cases h
  · rw [hresult] at h
    obtain rfl := eq_of_settled h
    exact ⟨a, rfl⟩

theorem settled_bind (hx : OnlyNative x) {f : α → Act σ EngineError β} {s s'' : σ}
    (h : settled ((x >>= f) s) = some s'') :
    ∃ a s', x s = (.ok a, s') ∧ settled (f a s') = some s'' := by
  rcases hresult : x s with ⟨cause | a, s₁⟩
  · rw [Act.bind_of_error hresult, settled, hx s cause s₁ hresult] at h
    cases h
  · rw [Act.bind_of_ok hresult] at h
    exact ⟨a, s₁, rfl, h⟩

theorem tryCatch (hx : OnlyNative x) {f : EngineError → Act σ EngineError α}
    (hf : ∀ cause s, (f cause s).1 = .error cause) : OnlyNative (tryCatch x f) := by
  intro s cause s' h
  simp only [MonadExcept.tryCatch, tryCatchThe, MonadExceptOf.tryCatch, ExceptT.tryCatch,
    ExceptT.mk, bind, StateT.bind] at h
  rcases hresult : x s with ⟨cause₁ | a, s₁⟩
  · -- the handler passes on the failure that it was given
    rw [hresult] at h
    have hcause := hf cause₁ s₁
    rw [show f cause₁ s₁ = _ from h] at hcause
    obtain rfl := Except.error.inj hcause
    exact hx s cause s₁ hresult
  · rw [hresult] at h
    cases h

end OnlyNative

theorem onlyNative_on {σ α : Type} (get : σ → Machine) (set : Machine → σ → σ) (act : NativeAct α) :
    OnlyNative (Act.on get set (Engine.native act)) := by
  intro s cause s' h
  rw [Act.on_apply, Prod.mk.injEq, Engine.native, Act.mapError_apply] at h
  cases hresult : (act (get s)).1 with
  | ok a =>
      rw [hresult] at h
      cases h.1
  | error status =>
      rw [hresult] at h
      obtain rfl := Except.error.inj h.1
      rfl

namespace HostDevice

/-- What calls leave of a device that neither place blocks nor give them up, and select nothing. -/
structure Undisturbed (d d' : HostDevice) : Prop where
  blocks : d'.blocks = d.blocks
  next : d'.nextAddress = d.nextAddress
  selected : d'.selected = d.selected

theorem Undisturbed.trans {d d' d'' : HostDevice} (h : d.Undisturbed d') (h' : d'.Undisturbed d'') :
    d.Undisturbed d'' :=
  ⟨h'.blocks.trans h.blocks, h'.next.trans h.next, h'.selected.trans h.selected⟩

theorem undisturbed_createStream {d d' : HostDevice} {stream : Nat}
    (h : d.createStream = (stream, d')) : d.Undisturbed d' := by
  cases h
  exact ⟨rfl, rfl, rfl⟩

theorem undisturbed_destroyStream {d d' : HostDevice} {stream : Nat}
    (h : d.destroyStream stream = .ok d') : d.Undisturbed d' := by
  rw [destroyStream] at h
  split at h
  · cases h
    exact ⟨rfl, rfl, rfl⟩
  · cases h

theorem undisturbed_memcpy {d d' : HostDevice} {target source : Address} {size : Nat}
    {direction : CopyDirection} (h : d.memcpy target source size direction = .ok d') :
    d.Undisturbed d' := by
  obtain ⟨_, rfl⟩ := memcpy_eq_ok_iff.1 h
  exact ⟨rfl, rfl, rfl⟩

theorem undisturbed_upload {d d' : HostDevice} {target : Address} {bytes : List UInt8}
    (h : d.upload target bytes = .ok d') : d.Undisturbed d' := by
  obtain ⟨_, _, h⟩ := except_bind_eq_ok.1 h
  cases h
  exact ⟨rfl, rfl, rfl⟩

def landing (d : HostDevice) (thread : ThreadId) : Location :=
  .device (d.selection thread).1 (d.selection thread).2

/-- What is left of a device on which a block was placed and the one at another address, if any,
given up. -/
structure Replaced (gone : Option Address) (size : Nat) (location : Location)
    (d d' : HostDevice) : Prop where
  blocks : d'.blocks.Sublist (d.extended size location).blocks
  next : d'.nextAddress = (d.extended size location).nextAddress
  selected : d'.selected = d.selected
  kept : ∀ a, gone ≠ some a → d'.blockAt? a = (d.extended size location).blockAt? a

/-- The blocks without the one at an address, if there is an address. -/
def blocksBut (d : HostDevice) (gone : Option Address) : List Block :=
  d.blocks.filter fun c => gone ≠ some ⟨c.start⟩

theorem blocksBut_none (d : HostDevice) : d.blocksBut none = d.blocks :=
  List.filter_eq_self.2 fun c _ => by simp

theorem blocksBut_some (d : HostDevice) (a : Address) :
    d.blocksBut (some a) = d.blocks.filter fun c => c.start ≠ a.val :=
  List.filter_congr fun c _ => by
    obtain ⟨a⟩ := a
    simp [eq_comm]

/-- What is left of a device on which a block was placed and that has given up just the one at
another address, if any. -/
structure Swapped (gone : Option Address) (size : Nat) (location : Location)
    (d d' : HostDevice) : Prop where
  blocks : d'.blocks = (d.extended size location).blocksBut gone
  next : d'.nextAddress = (d.extended size location).nextAddress
  selected : d'.selected = d.selected

theorem Swapped.replaced {gone : Option Address} {size : Nat} {location : Location}
    {d d' : HostDevice} (h : d.Swapped gone size location d') :
    d.Replaced gone size location d' where
  blocks := h.blocks ▸ List.filter_sublist
  next := h.next
  selected := h.selected
  kept a ha := by
    cases gone with
    | none => rw [blockAt?, h.blocks, blocksBut_none, blockAt?]
    | some b =>
        exact blockAt?_filter (h.blocks.trans (blocksBut_some _ b)) fun hsame =>
          ha (congrArg some (congrArg Address.mk hsame.symm))

/-- What is left of a device that has given up the block at an address. -/
structure Rid (gone : Address) (d d' : HostDevice) : Prop where
  blocks : d'.blocks = d.blocksBut (some gone)
  next : d'.nextAddress = d.nextAddress
  selected : d'.selected = d.selected

theorem rid_of_release {d d' : HostDevice} {a : Address} {accepts : Location → Bool}
    (h : d.release a accepts = .ok d') : d.Rid a d' := by
  obtain ⟨_, _, _, rfl⟩ := release_eq_ok_iff.1 h
  exact ⟨(blocksBut_some d a).symm, rfl, rfl⟩

theorem swapped_extended (d : HostDevice) (size : Nat) (location : Location) :
    d.Swapped none size location (d.extended size location) :=
  ⟨(blocksBut_none _).symm, rfl, rfl⟩

end HostDevice

namespace Engine

/-! ### Contexts -/

theorem native_settled {α β : Type} {act : NativeAct α} {f : α → EngineAct β} {m : Machine}
    {e : Engine} {s' : Machine × Engine}
    (h : settled ((onMachine (native act) >>= f) (m, e)) = some s') :
    ∃ a m', act m = (.ok a, m') ∧ settled (f a (m', e)) = some s' := by
  obtain ⟨a, s₁, hcall, hrest⟩ := (onlyNative_on _ _ act).settled_bind h
  obtain ⟨m', hact, rfl⟩ := Act.on_eq_ok hcall
  exact ⟨a, m', Act.mapError_eq_ok.1 hact, hrest⟩

section Bind

variable {m m' : Machine} {e e' : Engine} (hcalm : m.Calm e.backend) {device : DeviceKind}
  {deviceId : Nat}

include hcalm

theorem openContext_of_none (hnone : e.contexts.lookup m.thread = none)
    (h : settled (openContext device deviceId (m, e)) = some (m', e')) :
    ∃ c d, e' = e.bindThread m.thread c ∧ m.Renewed e.backend d m' ∧
    ((m.device e.backend).choosing m.thread c.device c.deviceId).Undisturbed d := by
  rw [openContext, Act.bind_of_ok (Act.get_apply _)] at h
  dsimp only at h
  rw [hnone] at h
  dsimp only at h
  rw [enter, Act.bind_of_ok (Act.get_apply _)] at h
  obtain ⟨_, m₁, hset, h⟩ := native_settled h
  obtain ⟨stream, m₂, hstream, h⟩ := native_settled h
  obtain ⟨d₁, hselect, hrenewed₁⟩ := NativeAct.changeDevice_renewed hcalm hset
  obtain rfl := HostDevice.select_eq_ok hselect
  obtain ⟨d₂, hcreated, hrenewed₂⟩ := NativeAct.useDevice_renewed hrenewed₁.calm hstream
  obtain ⟨rfl, rfl⟩ := Prod.mk.inj (eq_of_settled h)
  rw [hrenewed₁.device] at hcreated
  refine ⟨⟨device, deviceId, stream⟩, d₂, ?_, hrenewed₁.trans hrenewed₂,
    HostDevice.undisturbed_createStream (Except.ok.inj hcreated)⟩
  rw [hrenewed₂.thread, hrenewed₁.thread]

/-- Binding a thread leaves all as it is, or gives the thread a new context. -/
theorem openContext_settled (h : settled (openContext device deviceId (m, e)) = some (m', e')) :
    (m' = m ∧ e' = e) ∨ ∃ c d, e' = e.bindThread m.thread c ∧ m.Renewed e.backend d m' ∧
    ((m.device e.backend).choosing m.thread c.device c.deviceId).Undisturbed d := by
  cases hlookup : e.contexts.lookup m.thread with
  | none => exact .inr (openContext_of_none hcalm hlookup h)
  | some c =>
      rw [openContext, Act.bind_of_ok (Act.get_apply _)] at h
      dsimp only at h
      rw [hlookup] at h
      exact .inl (Prod.mk.inj (eq_of_settled h))

theorem switchContext_settled (h : settled (switchContext device deviceId (m, e)) = some (m', e')) :
    (m' = m ∧ e' = e) ∨ ∃ c d, e' = e.bindThread m.thread c ∧ m.Renewed e.backend d m' ∧
    ((m.device e.backend).choosing m.thread c.device c.deviceId).Undisturbed d := by
  rw [switchContext, Act.bind_of_ok (Act.get_apply _)] at h
  dsimp only at h
  cases hold : e.contextOf m.thread with
  | error cause =>
      rw [hold, Act.bind_of_error (Act.ofExcept_apply _ _)] at h
      exact .inl (Prod.mk.inj (eq_of_settled h))
  | ok old =>
      rw [hold, Act.bind_of_ok (Act.ofExcept_apply _ _)] at h
      split at h
      · -- the context is on this device already, and the device is not selected again
        exact .inl (Prod.mk.inj (eq_of_settled h))
      · rw [replaceContext, Act.bind_of_ok (Act.get_apply _)] at h
        obtain ⟨_, m₁, hset, h⟩ := native_settled h
        obtain ⟨stream, m₂, hstream, h⟩ := native_settled h
        obtain ⟨_, m₃, hdestroy, h⟩ := native_settled h
        obtain ⟨d₁, hselect, hrenewed₁⟩ := NativeAct.changeDevice_renewed hcalm hset
        obtain rfl := HostDevice.select_eq_ok hselect
        obtain ⟨d₂, hcreated, hrenewed₂⟩ := NativeAct.useDevice_renewed hrenewed₁.calm hstream
        obtain ⟨d₃, hdestroyed, hrenewed₃⟩ := NativeAct.changeDevice_renewed hrenewed₂.calm hdestroy
        obtain ⟨rfl, rfl⟩ := Prod.mk.inj (eq_of_settled h)
        rw [hrenewed₁.device] at hcreated
        rw [hrenewed₂.device] at hdestroyed
        refine .inr ⟨⟨device, deviceId, stream⟩, d₃, ?_,
          (hrenewed₁.trans hrenewed₂).trans hrenewed₃,
          (HostDevice.undisturbed_createStream (Except.ok.inj hcreated)).trans
            (HostDevice.undisturbed_destroyStream hdestroyed)⟩
        rw [hrenewed₃.thread, hrenewed₂.thread, hrenewed₁.thread]

end Bind

/-- An engine that comes up has placed its workspace and bound its thread. -/
theorem create_settled {m m' : Machine} {backend : BackendId} (hcalm : m.Calm backend)
    {kernels : KernelRegistry} {config : Config} {e : Engine}
    (h : create backend kernels config m = (.ok e, m')) :
    ∃ c d, e.backend = backend ∧
    e.workspace = ⟨⟨(m.device backend).room config.workspace.bytes⟩, config.workspace.bytes⟩ ∧
      e.contexts = [(m.thread, c)] ∧ m.Renewed backend d m' ∧
      ((((m.device backend).choosing m.thread config.device config.deviceId).extended
          config.workspace.bytes (.device config.device config.deviceId)).choosing
        m.thread c.device c.deviceId).Undisturbed d := by
  rw [create, Act.bind_of_ok (native_of_ok (NativeAct.init_apply hcalm))] at h
  obtain ⟨_, m₁, hset, h⟩ := Act.bind_eq_ok h
  obtain ⟨a, m₂, hmalloc, h⟩ := Act.bind_eq_ok h
  obtain ⟨d₁, hselect, hrenewed₁⟩ :=
    NativeAct.changeDevice_renewed hcalm (Act.mapError_eq_ok.1 hset)
  obtain rfl := HostDevice.select_eq_ok hselect
  obtain ⟨d₂, hallocate, hrenewed₂⟩ :=
    NativeAct.useDevice_renewed hrenewed₁.calm (Act.mapError_eq_ok.1 hmalloc)
  rw [hrenewed₁.device, hrenewed₁.thread, HostDevice.malloc,
    HostDevice.selection_choosing] at hallocate
  obtain ⟨rfl, rfl⟩ := HostDevice.allocate_eq_ok hallocate
  rw [HostDevice.room_choosing] at h
  rw [Act.bind_of_ok (Act.get_apply _)] at h
  rcases hopen : openContext config.device config.deviceId
      (m₂, { backend, kernels, config, workspace := ⟨_, config.workspace.bytes⟩ })
      with ⟨cause | c, m₃, e₃⟩
  · -- an engine whose thread cannot be bound is given up
    rw [hopen] at h
    obtain ⟨_, s₁, _, h⟩ := Act.bind_eq_ok h
    obtain ⟨_, s₂, _, h⟩ := Act.bind_eq_ok h
    cases h
  · have hbound := openContext_of_none hrenewed₂.calm rfl (congrArg settled hopen)
    rw [hopen] at h
    cases h
    obtain ⟨c, d, rfl, hrenewed₃, hundisturbed⟩ := hbound
    rw [hrenewed₂.device, hrenewed₂.thread, hrenewed₁.thread] at hundisturbed
    refine ⟨c, d, rfl, rfl, ?_, (hrenewed₁.trans hrenewed₂).trans hrenewed₃, hundisturbed⟩
    rw [← hrenewed₁.thread, ← hrenewed₂.thread]
    rfl

/-! ### Buffers -/

section Realise

variable {e : Engine} {m m' : Machine} {t t' : Tensor}

theorem tensorNative_eq (e : Engine) {α : Type} (act : NativeAct α) :
    Tensor.native e.memory act = Act.on Prod.fst (fun m s => (m, s.2)) (native act) :=
  rfl

theorem onlyNative_tensor (e : Engine) {α : Type} (act : NativeAct α) :
    OnlyNative (Tensor.native e.memory act) := by
  rw [tensorNative_eq]
  exact onlyNative_on _ _ act

theorem tensorNative_eq_ok {α : Type} {act : NativeAct α} {a : α} {s' : Machine × Tensor}
    (h : Tensor.native e.memory act (m, t) = (.ok a, s')) :
    ∃ m', act m = (.ok a, m') ∧ s' = (m', t) := by
  rw [tensorNative_eq] at h
  obtain ⟨m', hact, hstate⟩ := Act.on_eq_ok h
  exact ⟨m', Act.mapError_eq_ok.1 hact, hstate⟩

theorem ask_settled {α : Type} {question : Tensor → Except GraphError α}
    {f : α → TensorAct EngineError Unit} {s' : Machine × Tensor}
    (h : settled ((Tensor.ask e.memory question >>= f) (m, t)) = some s') :
    s' = (m, t) ∨ ∃ a, question t = .ok a ∧ settled (f a (m, t)) = some s' := by
  have hask := Tensor.ask_apply e.memory question m t
  cases hquestion : question t with
  | error cause =>
      rw [hquestion] at hask
      rw [Act.bind_of_error hask] at h
      exact .inl (eq_of_settled h)
  | ok a =>
      rw [hquestion] at hask
      rw [Act.bind_of_ok hask] at h
      exact .inr ⟨a, rfl, h⟩

theorem activeDevice_settled {f : DeviceKind → TensorAct EngineError Unit} {s' : Machine × Tensor}
    (h : settled ((Tensor.onMachine e.memory.activeDevice >>= f) (m, t)) = some s') :
    s' = (m, t) ∨ ∃ c, e.contextOf m.thread = .ok c ∧ settled (f c.device (m, t)) = some s' := by
  have hactive := activeDevice_apply e m t
  cases hcontext : e.contextOf m.thread with
  | error cause =>
      rw [hcontext] at hactive
      rw [Act.bind_of_error hactive] at h
      exact .inl (eq_of_settled h)
  | ok c =>
      rw [hcontext] at hactive
      rw [Act.bind_of_ok hactive] at h
      exact .inr ⟨c, rfl, h⟩

/-- Where a buffer for a device is placed: the host's memory is asked for as such, any other comes
from the device that is selected for the thread. -/
def placing (d : HostDevice) (thread : ThreadId) (onHost : Bool) : Location :=
  if onHost then .host else d.landing thread

theorem malloc_settled (hcalm : m.Calm e.backend) {onHost : Bool} {size : Nat} {a : Address}
    (h : (if onHost then NativeAct.mallocHost e.backend size else NativeAct.malloc e.backend size)
      m = (.ok a, m')) :
    a = ⟨(m.device e.backend).room size⟩ ∧
      m.Renewed e.backend
        ((m.device e.backend).extended size (placing (m.device e.backend) m.thread onHost)) m' := by
  cases onHost with
  | true =>
      rw [if_pos rfl] at h
      obtain ⟨d, hallocate, hrenewed⟩ := NativeAct.useDevice_renewed hcalm h
      obtain ⟨haddress, rfl⟩ := HostDevice.allocate_eq_ok hallocate
      exact ⟨haddress, hrenewed⟩
  | false =>
      rw [if_neg Bool.false_ne_true] at h
      obtain ⟨d, hallocate, hrenewed⟩ := NativeAct.useDevice_renewed hcalm h
      obtain ⟨haddress, rfl⟩ := HostDevice.allocate_eq_ok hallocate
      exact ⟨haddress, hrenewed⟩

theorem releaseBuffer_settled (hcalm : m.Calm e.backend) {onHost : Bool} {a : Address}
    (h : settled (Tensor.releaseBuffer e.memory onHost a (m, t)) = some (m', t')) :
    ∃ d, t' = t ∧ m.Renewed e.backend d m' ∧ (m.device e.backend).Rid a d := by
  rw [Tensor.releaseBuffer] at h
  obtain ⟨_, hfree⟩ := (onlyNative_tensor e _).ok_of_settled h
  obtain ⟨_, hfreed, hstate⟩ := tensorNative_eq_ok hfree
  obtain ⟨rfl, rfl⟩ := Prod.mk.inj hstate
  cases onHost with
  | true =>
      rw [if_pos rfl] at hfreed
      obtain ⟨d, hrelease, hrenewed⟩ := NativeAct.changeDevice_renewed hcalm hfreed
      exact ⟨d, rfl, hrenewed, HostDevice.rid_of_release hrelease⟩
  | false =>
      rw [if_neg Bool.false_ne_true] at hfreed
      obtain ⟨d, hrelease, hrenewed⟩ := NativeAct.changeDevice_renewed hcalm hfreed
      exact ⟨d, rfl, hrenewed, HostDevice.rid_of_release hrelease⟩

theorem migrate_settled (hcalm : m.Calm e.backend) {old : Address} {target : DeviceKind}
    (h : settled (Tensor.migrate e.memory old target (m, t)) = some (m', t')) :
    (m', t') = (m, t) ∨ ∃ n d,
      t' = { t with device := target, data := some ⟨⟨(m.device e.backend).room n⟩, n⟩ } ∧
      m.Renewed e.backend d m' ∧
      (m.device e.backend).Swapped (some old) n
        (placing (m.device e.backend) m.thread target.isCpu) d := by
  rw [Tensor.migrate] at h
  obtain hidle | ⟨n, -, h⟩ := ask_settled h
  · exact .inl hidle
  · dsimp only at h
    obtain ⟨fresh, _, hcall, h⟩ := (onlyNative_tensor e _).settled_bind h
    obtain ⟨m₁, hmalloc, rfl⟩ := tensorNative_eq_ok hcall
    obtain ⟨rfl, hrenewed₁⟩ := malloc_settled hcalm hmalloc
    obtain ⟨_, _, hcopy, h⟩ := ((onlyNative_tensor e _).tryCatch fun cause s => rfl).settled_bind h
    obtain ⟨m₂, hcopied, rfl⟩ :=
      tensorNative_eq_ok (Act.eq_ok_of_tryCatch hcopy (by intro cause s s' a hok; cases hok))
    obtain ⟨d₂, hmemcpy, hrenewed₂⟩ := NativeAct.changeDevice_renewed hrenewed₁.calm hcopied
    have hundisturbed := HostDevice.undisturbed_memcpy (hrenewed₁.device ▸ hmemcpy)
    rw [Act.bind_of_ok (Act.get_apply _), Tensor.moveTo, Act.bind_of_ok (Act.modify_apply _ _)] at h
    obtain ⟨d₃, rfl, hrenewed₃, hrid⟩ := releaseBuffer_settled hrenewed₂.calm h
    rw [hrenewed₂.device] at hrid
    refine .inr ⟨n, d₃, rfl, (hrenewed₁.trans hrenewed₂).trans hrenewed₃, ?_,
      hrid.next.trans hundisturbed.next, hrid.selected.trans hundisturbed.selected⟩
    rw [hrid.blocks, HostDevice.blocksBut, HostDevice.blocksBut, hundisturbed.blocks]

theorem realise_settled (hcalm : m.Calm e.backend)
    (h : settled (Tensor.realise e.memory (m, t)) = some (m', t')) :
    (m', t') = (m, t) ∨ ∃ c n d, e.contextOf m.thread = .ok c ∧
      (∀ b, t.data = some b → t.device.isCpu = true ∧ c.device.isCpu = false) ∧
      t' = { t with device := c.device, data := some ⟨⟨(m.device e.backend).room n⟩, n⟩ } ∧
      m.Renewed e.backend d m' ∧
      (m.device e.backend).Swapped (t.data.map Buffer.address) n
        ((m.device e.backend).landing m.thread) d := by
  rw [Tensor.realise] at h
  obtain hidle | ⟨c, hcontext, h⟩ := activeDevice_settled h
  · exact .inl hidle
  obtain hidle | ⟨n, -, h⟩ := ask_settled h
  · exact .inl hidle
  rw [Act.bind_of_ok (Act.get_apply _)] at h
  dsimp only at h
  cases hdata : t.data with
  | none =>
      rw [hdata] at h
      obtain ⟨a, _, hcall, h⟩ := (onlyNative_tensor e _).settled_bind h
      obtain ⟨m₁, hmalloc, rfl⟩ := tensorNative_eq_ok hcall
      obtain ⟨rfl, hrenewed⟩ := @malloc_settled _ _ _ hcalm false n a hmalloc
      obtain ⟨rfl, rfl⟩ := Prod.mk.inj (eq_of_settled h)
      exact .inr ⟨c, n, _, hcontext, fun _ hb => absurd hb.symm (Option.some_ne_none _), rfl,
          hrenewed, HostDevice.swapped_extended _ _ _⟩
  | some b =>
      rw [hdata] at h
      dsimp only at h
      split at h
      · next hmoves =>
          -- only data on the host are moved, and only to an accelerator
          obtain ⟨hhost, htarget⟩ : t.device.isCpu = true ∧ c.device.isCpu = false := by
            simpa using hmoves
          obtain hidle | ⟨n, d, ht', hrenewed, hswapped⟩ := migrate_settled hcalm h
          · exact .inl hidle
          · rw [htarget] at hswapped
            exact .inr ⟨c, n, d, hcontext, fun _ _ => ⟨hhost, htarget⟩, ht', hrenewed, hswapped⟩
      · exact .inl (eq_of_settled h)

theorem releaseData_settled (hcalm : m.Calm e.backend)
    (h : settled (Tensor.releaseData e.memory (m, t)) = some (m', t')) :
    (t.data = none ∧ (m', t') = (m, t)) ∨ ∃ b d, t.data = some b ∧ t' = { t with data := none } ∧
    m.Renewed e.backend d m' ∧ (m.device e.backend).Rid b.address d := by
  rw [Tensor.releaseData, Act.bind_of_ok (Act.get_apply _)] at h
  dsimp only at h
  cases hdata : t.data with
  | none =>
      rw [hdata] at h
      exact .inl ⟨rfl, eq_of_settled h⟩
  | some b =>
      rw [hdata] at h
      dsimp only at h
      rw [Tensor.setData, Act.bind_of_ok (Act.modify_apply _ _)] at h
      obtain ⟨d, ht', hrenewed, hrid⟩ := releaseBuffer_settled hcalm h
      exact .inr ⟨b, d, rfl, ht', hrenewed, hrid⟩

theorem buffer_settled {f : Buffer → TensorAct EngineError Unit} {s' : Machine × Tensor}
    (h : settled ((Tensor.buffer e.memory >>= f) (m, t)) = some s') :
    s' = (m, t) ∨ ∃ b, t.data = some b ∧ settled (f b (m, t)) = some s' := by
  obtain hidle | ⟨b, hbuffer, h⟩ := ask_settled h
  · exact .inl hidle
  · cases hdata : t.data with
    | none =>
        rw [hdata] at hbuffer
        cases hbuffer
    | some b' =>
        rw [hdata] at hbuffer
        cases hbuffer
        exact .inr ⟨b, rfl, h⟩

theorem copyToHost_settled (hcalm : m.Calm e.backend)
    (h : settled (Tensor.copyToHost e.memory (m, t)) = some (m', t')) :
    (m', t') = (m, t) ∨
    ∃ n d, t' = { t with device := .cpu, data := some ⟨⟨(m.device e.backend).room n⟩, n⟩ } ∧
    m.Renewed e.backend d m' ∧
      (m.device e.backend).Swapped (t.data.map Buffer.address) n .host d := by
  rw [Tensor.copyToHost] at h
  obtain hidle | ⟨_, -, h⟩ := ask_settled h
  · exact .inl hidle
  obtain hidle | ⟨b, hdata, h⟩ := buffer_settled h
  · exact .inl hidle
  rw [hdata]
  exact migrate_settled hcalm h

theorem copyToDevice_settled (hcalm : m.Calm e.backend)
    (h : settled (Tensor.copyToDevice e.memory (m, t)) = some (m', t')) :
    (m', t') = (m, t) ∨ ∃ c n d, e.contextOf m.thread = .ok c ∧
    t' = { t with device := c.device, data := some ⟨⟨(m.device e.backend).room n⟩, n⟩ } ∧
    m.Renewed e.backend d m' ∧
      (m.device e.backend).Swapped (t.data.map Buffer.address) n
        ((m.device e.backend).landing m.thread) d := by
  rw [Tensor.copyToDevice] at h
  obtain hidle | ⟨_, -, h⟩ := ask_settled h
  · exact .inl hidle
  obtain hidle | ⟨c, hcontext, h⟩ := activeDevice_settled h
  · exact .inl hidle
  obtain hidle | ⟨_, haccelerator, h⟩ := ask_settled h
  · exact .inl hidle
  obtain hidle | ⟨b, hdata, h⟩ := buffer_settled h
  · exact .inl hidle
  have htarget : c.device.isCpu = false := by
    cases hcpu : c.device.isCpu with
    | false => rfl
    | true =>
        rw [hcpu] at haccelerator
        cases haccelerator
  obtain hidle | ⟨n, d, ht', hrenewed, hswapped⟩ := migrate_settled hcalm h
  · exact .inl hidle
  · rw [htarget] at hswapped
    rw [hdata]
    exact .inr ⟨c, n, d, hcontext, ht', hrenewed, hswapped⟩

theorem write_settled (hcalm : m.Calm e.backend)
    {host : ElementKind} {values : List (Word host.size)}
    (h : settled (Tensor.write e.memory host values (m, t)) = some (m', t')) :
    (m', t') = (m, t) ∨ ∃ d, t' = t ∧ m.Renewed e.backend d m' ∧
    (m.device e.backend).Undisturbed d := by
  rw [Tensor.write] at h
  obtain hidle | ⟨_, -, h⟩ := ask_settled h
  · exact .inl hidle
  obtain hidle | ⟨b, -, h⟩ := buffer_settled h
  · exact .inl hidle
  obtain hidle | ⟨expected, -, h⟩ := ask_settled h
  · exact .inl hidle
  obtain hidle | ⟨_, -, h⟩ := ask_settled h
  · exact .inl hidle
  obtain ⟨_, hupload⟩ := (onlyNative_tensor e _).ok_of_settled h
  obtain ⟨_, huploaded, hstate⟩ := tensorNative_eq_ok hupload
  obtain ⟨rfl, rfl⟩ := Prod.mk.inj hstate
  obtain ⟨d, hd, hrenewed⟩ := NativeAct.changeDevice_renewed hcalm huploaded
  exact .inr ⟨d, rfl, hrenewed, HostDevice.undisturbed_upload hd⟩

theorem tensorNative_changeDevice (hcalm : m.Calm e.backend) {call : NativeCall}
    {change : ThreadId → HostDevice → Except Status HostDevice} :
    (Tensor.native e.memory (NativeAct.changeDevice e.backend call change) (m, t)).1 = .ok () ↔
    ∃ d, change m.thread (m.device e.backend) = .ok d := by
  obtain ⟨m', happly, -⟩ := @NativeAct.changeDevice_apply m e.backend hcalm call change _ rfl
  rw [tensorNative_eq, Act.on_apply, native, Act.mapError_apply, happly]
  cases change m.thread (m.device e.backend) with
  | error status => simp [Except.map, Except.mapError]
  | ok d => simp [Except.map, Except.mapError]

/-- A tensor's buffer is released exactly where the tag and the location of its block fit. -/
theorem releaseData_eq_ok_iff (hcalm : m.Calm e.backend) {b : Buffer} (hdata : t.data = some b)
    {block : Block} (hblock : (m.device e.backend).blockAt? b.address = some block) :
    (Tensor.releaseData e.memory (m, t)).1 = .ok () ↔
    (if t.device.isCpu then block.location.hostAccessible else block.location.deviceResident) =
      true := by
  have hreleased : ∀ accepts, (∃ d, (m.device e.backend).release b.address accepts = .ok d) ↔
      accepts block.location = true := by
    intro accepts
    simp [HostDevice.release_eq_ok_iff, hblock]
  rw [Tensor.releaseData, Act.bind_of_ok (Act.get_apply _)]
  simp only [hdata]
  rw [Tensor.setData, Act.bind_of_ok (Act.modify_apply _ _), Tensor.releaseBuffer]
  split
  · exact (tensorNative_changeDevice hcalm).trans (hreleased _)
  · exact (tensorNative_changeDevice hcalm).trans (hreleased _)

end Realise

end Engine

/-! ### One tensor after the other -/

namespace Graph

section EachTensor

variable {act : TensorAct EngineError Unit} {P : Machine → List Tensor → Prop}
  (hstep : ∀ m pre t rest m' t', P m (pre ++ t :: rest) → settled (act (m, t)) = some (m', t') →
    P m' (pre ++ t' :: rest))

include hstep

theorem eachTensorOf_induct {pre rest rest' : List Tensor} {m m' : Machine}
    (hstart : P m (pre ++ rest)) (h : settled (eachTensorOf act m rest) = some (m', rest')) :
    P m' (pre ++ rest') := by
  induction rest generalizing m pre rest' with
  | nil =>
      obtain ⟨rfl, rfl⟩ := Prod.mk.inj (eq_of_settled h)
      exact hstart
  | cons t rest ih =>
      -- `pre` are the tensors that have had their turn
      rw [eachTensorOf] at h
      rcases hfirst : act (m, t) with ⟨cause | a, m₁, t₁⟩
      · rw [hfirst] at h
        obtain ⟨rfl, rfl⟩ := Prod.mk.inj (eq_of_settled h)
        exact hstep m pre t rest m' t₁ hstart (hfirst ▸ settled_of_settled h (m', t₁))
      · have hnext := hstep m pre t rest m₁ t₁ hstart (congrArg settled hfirst)
        rw [hfirst] at h
        dsimp only at h
        rcases hrest : eachTensorOf act m₁ rest with ⟨result, m₂, rest₂⟩
        rw [hrest] at h
        obtain ⟨rfl, rfl⟩ := Prod.mk.inj (eq_of_settled h)
        have hlater :=
          @ih (pre ++ [t₁]) rest₂ m₁ (by rwa [List.append_assoc, List.singleton_append])
            (hrest ▸ settled_of_settled h (m', rest₂))
        rwa [List.append_assoc, List.singleton_append] at hlater

theorem eachTensor_induct {m m' : Machine} {g g' : Graph} (hstart : P m g.tensors)
    (h : settled (eachTensor act (m, g)) = some (m', g')) :
    ∃ tensors, g' = { g with tensors } ∧ P m' tensors := by
  rw [eachTensor] at h
  rcases hall : eachTensorOf act m g.tensors with ⟨result, m₁, tensors⟩
  rw [hall] at h
  obtain ⟨rfl, rfl⟩ := Prod.mk.inj (eq_of_settled h)
  exact ⟨tensors, rfl, @eachTensorOf_induct act P hstep [] g.tensors tensors m m' hstart
    (hall ▸ settled_of_settled h (m', tensors))⟩

end EachTensor

end Graph

end TensorDataflow
