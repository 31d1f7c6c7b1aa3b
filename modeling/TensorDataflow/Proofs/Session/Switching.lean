import TensorDataflow.Proofs.Session.Contexts
import TensorDataflow.Proofs.Session.Custody
/-!
# Switches that fail

A switch selects the device, takes a new stream and gives the old one back, and only then gives the
thread its new context; nothing is undone when one of these calls fails. The context then stays as
it was, but the thread goes on with the new device selected, and a stream that was taken stays live
for nobody: `Session.switch_failed` says what a failed switch leaves, call by call.
-/

namespace TensorDataflow

namespace HostDevice

/-- How far a switch has come when a call fails: the device is not selected, it is selected, or it
is selected and the new stream is there. -/
inductive Halt where
  | unselected | selected | streamed
  deriving DecidableEq

/-- What a switch leaves of a device that comes so far. -/
def Halt.leaves (d : HostDevice) (thread : ThreadId) (kind : DeviceKind) (id : Nat) :
    Halt → HostDevice
  | unselected => d
  | selected => d.choosing thread kind id
  | streamed => (d.choosing thread kind id).createStream.2

variable (d : HostDevice) (thread : ThreadId) (kind : DeviceKind) (id : Nat)

theorem Halt.selection_leaves {halt : Halt} (h : halt ≠ .unselected) :
    (halt.leaves d thread kind id).selection thread = (kind, id) := by
  cases halt with
  | unselected => exact absurd rfl h
  | selected => exact d.selection_choosing thread kind id
  | streamed => exact d.selection_choosing thread kind id

theorem Halt.streams_leaves (halt : Halt) : (halt.leaves d thread kind id).streams =
      if halt = .streamed then (d.lastStream + 1) :: d.streams else d.streams := by
  cases halt <;> rfl

/-- Memory that the thread asks for lies on the device that it has selected. -/
theorem location?_of_malloc {d d' : HostDevice} {thread : ThreadId} {size : Nat} {a : Address}
    (h : d.malloc thread size = .ok (a, d')) :
    d'.location? a = some (.device (d.selection thread).1 (d.selection thread).2) := by
  obtain ⟨rfl, rfl⟩ := allocate_eq_ok h
  rw [location?, checkRange_mono (d.checkRange_extended size _) (Nat.zero_le _)]
  rfl

end HostDevice

open HostDevice (Halt)

namespace Engine

/-! ### The calls of a switch -/

/-- A call of a switch fails after so many have gone through. -/
inductive Fails (m : Machine) (id : BackendId) (old : Context) (device : DeviceKind)
    (deviceId : Nat) : Halt → Machine → Prop
  | select {status : Status} {m' : Machine} (hset : NativeAct.setDevice id device deviceId m =
        (.error status, m')) : Fails m id old device deviceId .unselected m'
  | create {status : Status} {m₁ m' : Machine} (hset : NativeAct.setDevice id device deviceId m =
        (.ok (), m₁)) (hcreate : NativeAct.streamCreate id m₁ = (.error status, m')) :
      Fails m id old device deviceId .selected m'
  | destroy {status : Status} {stream : Nat} {m₁ m₂ m' : Machine}
      (hset : NativeAct.setDevice id device deviceId m = (.ok (), m₁))
      (hcreate : NativeAct.streamCreate id m₁ = (.ok stream, m₂))
      (hdestroy : NativeAct.streamDestroy id old.stream m₂ = (.error status, m')) :
      Fails m id old device deviceId .streamed m'

variable {m m' : Machine} {e e' : Engine} {old : Context} {device : DeviceKind} {deviceId : Nat}

/-- The calls that have gone through leave what they have done; the one that fails does nothing, and
nothing is undone. -/
theorem replaceContext_failed {cause : EngineError} (hthere : e.backend < m.backends.length)
    (hfailed : replaceContext old device deviceId (m, e) = (.error cause, m', e')) :
    e' = e ∧ ∃ halt, Fails m e.backend old device deviceId halt m' ∧
    m'.device e.backend = halt.leaves (m.device e.backend) m.thread device deviceId := by
  have hspares : m.Spares e.backend [] := ⟨hthere, fun _ _ => List.not_mem_nil⟩
  rw [replaceContext, Act.bind_of_ok (Act.get_apply _)] at hfailed
  dsimp only at hfailed
  obtain ⟨status, m₁, hset, -, hleaves₁⟩ | ⟨d, m₁, hset, hselect, hleaves₁⟩ :=
    NativeAct.changeDevice_spares hspares .setDevice fun thread d => d.select thread device deviceId
  · rw [Act.bind_of_error (onMachine_native_error
        (show NativeAct.setDevice e.backend device deviceId m = _ from hset) e)] at hfailed
    cases hfailed
    exact ⟨rfl, _, .select hset, hleaves₁.device⟩
  obtain rfl := HostDevice.select_eq_ok hselect
  rw [Act.bind_of_ok (onMachine_native
      (show NativeAct.setDevice e.backend device deviceId m = _ from hset) e)] at hfailed
  obtain ⟨status, m₂, hcreate, -, hleaves₂⟩ | ⟨stream, d, m₂, hcreate, hcreated, hleaves₂⟩ :=
    NativeAct.useDevice_spares hleaves₁.spares .streamCreate fun _ d => .ok d.createStream
  · rw [Act.bind_of_error (onMachine_native_error
        (show NativeAct.streamCreate e.backend m₁ = _ from hcreate) e)] at hfailed
    cases hfailed
    exact ⟨rfl, _, .create hset hcreate, hleaves₂.device.trans hleaves₁.device⟩
  rw [hleaves₁.device] at hcreated
  cases hcreated
  rw [Act.bind_of_ok
    (onMachine_native (show NativeAct.streamCreate e.backend m₁ = _ from hcreate) e)] at hfailed
  obtain ⟨status, m₃, hdestroy, -, hleaves₃⟩ | ⟨d, m₃, hdestroy, -, -⟩ :=
    NativeAct.changeDevice_spares hleaves₂.spares .streamDestroy fun _ d =>
      d.destroyStream old.stream
  · rw [Act.bind_of_error (onMachine_native_error
        (show NativeAct.streamDestroy e.backend old.stream m₂ = _ from hdestroy) e)] at hfailed
    cases hfailed
    exact ⟨rfl, _, .destroy hset hcreate hdestroy, hleaves₃.device.trans hleaves₂.device⟩
  · rw [Act.bind_of_ok (onMachine_native
        (show NativeAct.streamDestroy e.backend old.stream m₂ = _ from hdestroy) e)] at hfailed
    cases hfailed

end Engine

namespace Session

variable {s s' : Session} {n : Nat} {e : Engine} {thread : ThreadId} {kind : DeviceKind} {id : Nat}
  {cause : SessionError}

/-! ### The context of a thread -/

/-- What a thread is answered, from what it has at hand or else from the engine. -/
theorem contextFor_eq (s : Session) (n : Nat) (t : ThreadId) :
    s.contextFor n t = match s.engines.get? n with
    | none => .error (.noHandle .engine)
    | some e => match (s.cache.find? t n).or (e.contexts.lookup t) with
      | some c => .ok c
      | none => .error (.engine .noContext) := by
  rw [contextFor]
  cases hengine : s.engines.get? n with
  | none => rw [currentContext, Act.bind_of_error (engineAt_of_none (s := s.onThread t) hengine)]
  | some e =>
      rw [currentContext_eq (s := s.onThread t) hengine]
      dsimp only [onThread]
      cases s.cache.find? t n <;> cases e.contexts.lookup t <;> rfl

/-- What is at hand after a thread has asked for its context tells everyone what was told before. -/
theorem currentContext_recalls (hengine : s.engines.get? n = some e) :
    ∃ cache, (currentContext n s).2 = { s with cache } ∧
    ∀ k e' t, s.engines.get? k = some e' → (cache.find? t k).or (e'.contexts.lookup t) =
      (s.cache.find? t k).or (e'.contexts.lookup t) := by
  rw [currentContext_eq hengine]
  have hpruned : ∀ k e' t, s.engines.get? k = some e' →
      (s.cache.prune s.machine.thread s.alive).find? t k = s.cache.find? t k :=
    fun k e' t hget => by
    rw [ContextCache.find?_prune, if_pos (.inr (s.alive_of_get? k e' hget))]
  cases hfound : s.cache.find? s.machine.thread n with
  | some c => exact ⟨s.cache, rfl, fun _ _ _ _ => rfl⟩
  | none =>
      cases hlookup : e.contexts.lookup s.machine.thread with
      | none => exact ⟨_, rfl, fun k e' t hget => by rw [hpruned k e' t hget]⟩
      | some c =>
          refine ⟨_, rfl, fun k e' t hget => ?_⟩
          rw [ContextCache.find?_keep]
          split
          · next hsame =>
              obtain ⟨rfl, rfl⟩ := hsame
              cases hengine.symm.trans hget
              rw [hfound, hlookup]
              rfl
          · rw [if_pos (.inr (s.alive_of_get? k e' hget)), hpruned k e' t hget]

/-! ### Switches of a session -/

/-- How far the switch of a thread comes that fails; a thread without a context does not start. -/
inductive Stops (s : Session) (n : Nat) (e : Engine) (thread : ThreadId) (kind : DeviceKind)
    (id : Nat) : Halt → Prop
  | unbound {cause : SessionError} (hcontext : s.contextFor n thread = .error cause) :
      Stops s n e thread kind id .unselected
  | failed {old : Context} {halt : Halt} {m : Machine} (hcontext : s.contextFor n thread = .ok old)
      (hother : ¬ (old.device = kind ∧ old.deviceId = id))
      (hfails : Engine.Fails (s.onThread thread).machine e.backend old kind id halt m) :
      Stops s n e thread kind id halt

/-- A thread is on a backend as it was: its contexts, the device that it has selected and the live
streams are the same. -/
structure AsBefore (id : BackendId) (thread : ThreadId) (s s' : Session) : Prop where
  context : ∀ n, s'.contextFor n thread = s.contextFor n thread
  selection : (s'.machine.device id).selection thread = (s.machine.device id).selection thread
  streams : (s'.machine.device id).streams = (s.machine.device id).streams

theorem switchContext_failed (hengine : s.engines.get? n = some e)
    (hthere : e.backend < s.machine.backends.length)
    (hfailed : switchContext n kind id (s.onThread thread) = (.error cause, s')) :
    (∀ k t, s'.contextFor k t = s.contextFor k t) ∧ ∃ halt, s.Stops n e thread kind id halt ∧
    s'.machine.device e.backend = halt.leaves (s.machine.device e.backend) thread kind id := by
  obtain ⟨cache, hstate, hrecalls⟩ := currentContext_recalls (s := s.onThread thread) hengine
  have hcontexts : ∀ {m : Machine} (k : Nat) (t : ThreadId),
      ({ s.onThread thread with machine := m, cache } : Session).contextFor k t =
      s.contextFor k t := by
    intro m k t
    rw [contextFor_eq, contextFor_eq]
    dsimp only [onThread]
    cases hget : s.engines.get? k with
    | none => rfl
    | some e' => simp only [hrecalls k e' t hget, onThread]
  rw [switchContext] at hfailed
  rcases hresult : currentContext n (s.onThread thread) with ⟨cause' | old, s₁⟩
  · rw [Act.bind_of_error hresult] at hfailed
    rw [hresult] at hstate
    cases hfailed
    obtain rfl := hstate
    exact ⟨hcontexts, _, .unbound (congrArg Prod.fst hresult), rfl⟩
  · rw [Act.bind_of_ok hresult] at hfailed
    rw [hresult] at hstate
    obtain rfl := hstate
    split at hfailed
    · cases hfailed
    · next hother =>
        rcases hreplace : Engine.replaceContext old kind id ((s.onThread thread).machine, e)
            with ⟨cause' | c, m', e'⟩
        · obtain ⟨rfl, halt, hfails, hdevice⟩ :=
            Engine.replaceContext_failed (m := (s.onThread thread).machine) hthere hreplace
          obtain ⟨-, rfl⟩ := Prod.mk.inj
            ((install_of_error (s := s.onThread thread) hengine cache hreplace).symm.trans hfailed)
          exact ⟨hcontexts, halt, .failed (congrArg Prod.fst hresult) hother hfails, hdevice⟩
        · -- nothing can fail any more once the calls have gone through
          rw [Act.bind_apply, onEngine_apply (s := { s.onThread thread with cache }) hengine,
            hreplace] at hfailed
          cases hfailed

/-- A switch that fails leaves all contexts as they were. It leaves the thread as it was exactly if
the device was not selected, or was selected already and no stream was taken; otherwise the context
names another device than the one on which the thread is given memory from then on. -/
theorem switch_failed (hengine : s.engines.get? n = some e)
    (hthere : e.backend < s.machine.backends.length)
    (hfailed : switchContext n kind id (s.onThread thread) = (.error cause, s')) :
    (∀ k t, s'.contextFor k t = s.contextFor k t) ∧ ∃ halt, s.Stops n e thread kind id halt ∧
    s'.machine.device e.backend = halt.leaves (s.machine.device e.backend) thread kind id ∧
      (s.AsBefore e.backend thread s' ↔ halt = .unselected ∨
        halt = .selected ∧ (s.machine.device e.backend).selection thread = (kind, id)) ∧
      (halt ≠ .unselected →
        (∃ old, s'.contextFor n thread = .ok old ∧ ¬ (old.device = kind ∧ old.deviceId = id)) ∧
        ∀ size a d, (s'.machine.device e.backend).malloc thread size = .ok (a, d) →
        d.location? a = some (.device kind id)) := by
  obtain ⟨hcontexts, halt, hstops, hdevice⟩ := switchContext_failed hengine hthere hfailed
  refine ⟨hcontexts, halt, hstops, hdevice, ⟨fun hbefore => ?_, fun hhalt => ?_⟩,
    fun hselected => ⟨?_, fun size a d hmalloc => ?_⟩⟩
  · have hselection := hbefore.selection
    have hstreams := hbefore.streams
    rw [hdevice] at hselection hstreams
    cases halt with
    | unselected => exact .inl rfl
    | selected =>
        exact .inr ⟨rfl, hselection.symm.trans (Halt.selection_leaves _ _ _ _ (by decide))⟩
    | streamed => exact absurd hstreams (List.cons_ne_self _ _)
  · refine ⟨fun k => hcontexts k thread, ?_, ?_⟩
    · rw [hdevice]
      rcases hhalt with rfl | ⟨rfl, hselection⟩
      · rfl
      · exact (Halt.selection_leaves _ _ _ _ (by decide)).trans hselection.symm
    · rw [hdevice, Halt.streams_leaves, if_neg]
      rintro rfl
      simp at hhalt
  · cases hstops with
    | unbound _ => exact absurd rfl hselected
    | failed hcontext hother _ => exact ⟨_, (hcontexts n thread).trans hcontext, hother⟩
  · rw [HostDevice.location?_of_malloc hmalloc, hdevice, Halt.selection_leaves _ _ _ _ hselected]

/-- Whatever a session has been through, the backends of its engines are there. -/
theorem there_played (emulated : List DeviceKind) (rooms : List Nat) (moves : List Move)
    (hengine : (played emulated rooms moves).engines.get? n = some e) :
    e.backend < (played emulated rooms moves).machine.backends.length := by
  have hbalanced := balanced_played emulated rooms moves
  obtain ⟨_, _, hstocked, _⟩ := hbalanced.accounts
  rw [hbalanced.home n e hengine]
  exact hstocked.spares.there

/-- An engine on the processor, and a fault that is due for a call. -/
def due (call : { call : NativeCall // call ∉ NativeCall.destroys }) : Session :=
  played [.nvidia] [] [.act 0 (.serve (.create .builtin ⟨.cpu, 0, ⟨64⟩, false⟩)),
      .plan ⟨⟨call.1, .internalError, 0, 1⟩, call.2⟩]

/-- The thread goes to the accelerator, and the call that is due fails. -/
def thwartedBy (call : { call : NativeCall // call ∉ NativeCall.destroys }) : Session :=
  (switchContext 0 .nvidia 0 ((due call).onThread 0)).2

/-- Where the new stream cannot be had, the context still names the processor, and the thread is
given memory on the accelerator. -/
theorem switch_failed_streamless :
    ∃ e, (due ⟨.streamCreate, by decide⟩).engines.get? 0 = some e ∧
    e.backend < (due ⟨.streamCreate, by decide⟩).machine.backends.length ∧
      switchContext 0 .nvidia 0 ((due ⟨.streamCreate, by decide⟩).onThread 0) =
        (.error (.engine (.device (.native .internalError))),
        thwartedBy ⟨.streamCreate, by decide⟩) ∧
      (thwartedBy ⟨.streamCreate, by decide⟩).contextFor 0 0 = .ok ⟨.cpu, 0, 1⟩ ∧
      ¬ (due ⟨.streamCreate, by decide⟩).AsBefore e.backend 0
        (thwartedBy ⟨.streamCreate, by decide⟩) ∧
      ∀ size a d, ((thwartedBy ⟨.streamCreate, by decide⟩).machine.device e.backend).malloc 0 size =
        .ok (a, d) → d.location? a = some (.device .nvidia 0) := by
  obtain ⟨e, hengine⟩ := Option.isSome_iff_exists.1
    (show ((due ⟨.streamCreate, by decide⟩).engines.get? 0).isSome = true by decide +kernel)
  have hhome : e.backend = ownBackend := (balanced_played _ _ _).home 0 e hengine
  have hthere := there_played _ _ _ hengine
  have hresult : (switchContext 0 .nvidia 0 ((due ⟨.streamCreate, by decide⟩).onThread 0)).1 =
      .error (.engine (.device (.native .internalError))) := by
    decide +kernel
  have hcontext : (due ⟨.streamCreate, by decide⟩).contextFor 0 0 = .ok ⟨.cpu, 0, 1⟩ := by
    decide +kernel
  have hselection : ((due ⟨.streamCreate, by decide⟩).machine.device ownBackend).selection 0 =
      (.cpu, 0) := by
    decide +kernel
  have hmoved : ((thwartedBy ⟨.streamCreate, by decide⟩).machine.device ownBackend).selection 0 =
      (.nvidia, 0) := by
    decide +kernel
  obtain ⟨hcontexts, halt, -, hdevice, -, hlater⟩ :=
    switch_failed hengine hthere (Prod.ext hresult rfl)
  refine ⟨e, hengine, hthere, Prod.ext hresult rfl, (hcontexts 0 0).trans hcontext,
    fun hbefore => ?_, (hlater ?_).2⟩
  · have hsame := hbefore.selection
    rw [hhome, hselection] at hsame
    cases hmoved.symm.trans hsame
  · rintro rfl
    rw [hhome] at hdevice
    cases hmoved.symm.trans ((congrArg (HostDevice.selection · 0) hdevice).trans hselection)

/-- Where the old stream cannot be given back, the new one stays live besides it, and the device
stays selected. -/
theorem switch_failed_leaks :
    (switchContext 0 .nvidia 0 ((due ⟨.streamDestroy, by decide⟩).onThread 0)).1 =
      .error (.engine (.device (.native .internalError))) ∧
      (thwartedBy ⟨.streamDestroy, by decide⟩).contextFor 0 0 = .ok ⟨.cpu, 0, 1⟩ ∧
      ((due ⟨.streamDestroy, by decide⟩).own.device.selection 0,
        (due ⟨.streamDestroy, by decide⟩).own.device.streams) = ((.cpu, 0), [1]) ∧
      ((thwartedBy ⟨.streamDestroy, by decide⟩).own.device.selection 0,
        (thwartedBy ⟨.streamDestroy, by decide⟩).own.device.streams) = ((.nvidia, 0), [2, 1]) := by
  decide +kernel

end Session

end TensorDataflow
