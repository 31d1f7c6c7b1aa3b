import TensorDataflow.Proofs.Engine.Outcomes
import TensorDataflow.Proofs.Machine.Faults
/-!
# What engines take and give back

Engines take streams and blocks from a device on which calls may fail, all but those that give a
stream or a block back. Each call of an engine either fails and leaves the streams and the blocks as
they were, or takes exactly what its success stands for; an engine that is closed, or that does not
come up, gives back all that it has taken.
-/

namespace TensorDataflow

namespace HostDevice

/-- What is left of a device with the given streams and blocks; the numbers of streams and the
places above all blocks only go up, and places that were offered are used up. -/
structure Becomes (streams : List Nat) (blocks : List Block) (d d' : HostDevice) : Prop where
  streams : d'.streams = streams
  blocks : d'.blocks = blocks
  last : d.lastStream ≤ d'.lastStream
  next : d.nextAddress ≤ d'.nextAddress
  rooms : d'.rooms <:+ d.rooms

def Steady (d d' : HostDevice) : Prop := d.Becomes d.streams d.blocks d'

variable {d d' d'' : HostDevice} {streams streams' : List Nat} {blocks blocks' : List Block}

theorem Becomes.trans (h : d.Becomes streams blocks d') (h' : d'.Becomes streams' blocks' d'') :
    d.Becomes streams' blocks' d'' :=
  ⟨h'.streams, h'.blocks, Nat.le_trans h.last h'.last, Nat.le_trans h.next h'.next,
    h'.rooms.trans h.rooms⟩

theorem steady_choosing (d : HostDevice) (thread : ThreadId) (kind : DeviceKind) (id : Nat) :
    d.Steady (d.choosing thread kind id) :=
  ⟨rfl, rfl, Nat.le_refl _, Nat.le_refl _, List.suffix_refl _⟩

theorem becomes_destroyStream {stream : Nat} (h : d.destroyStream stream = .ok d') :
    d.Becomes (d.streams.filter (· ≠ stream)) d.blocks d' := by
  rw [destroyStream] at h
  split at h
  · cases h
    exact ⟨rfl, rfl, Nat.le_refl _, Nat.le_refl _, List.suffix_refl _⟩
  · cases h

theorem exists_destroyStream {stream : Nat} (h : stream ∈ d.streams) :
    ∃ d', d.destroyStream stream = .ok d' := by
  rw [destroyStream, if_pos (List.elem_eq_true_of_mem h)]
  exact ⟨_, rfl⟩

theorem filter_of_destroyStream_eq_error {stream : Nat} {status : Status}
    (h : d.destroyStream stream = .error status) : d.streams.filter (· ≠ stream) = d.streams := by
  rw [destroyStream] at h
  split at h
  · cases h
  · next hmissing =>
      rw [List.filter_eq_self]
      intro x hx
      have hne : x ≠ stream := by
        rintro rfl
        exact hmissing (by simpa using hx)
      simpa using hne

end HostDevice

namespace Engine

theorem onMachine_native_error {α : Type} {act : NativeAct α} {m m' : Machine} {status : Status}
    (h : act m = (.error status, m')) (e : Engine) :
    onMachine (native act) (m, e) = (.error (.device (.native status)), m', e) := by
  rw [onMachine, Act.on_apply, native, Act.mapError_apply, h]
  rfl

theorem native_error {α : Type} {act : NativeAct α} {m m' : Machine} {status : Status}
    (h : act m = (.error status, m')) : native act m = (.error (.device (.native status)), m') := by
  rw [native, Act.mapError_apply, h]
  rfl

section Contexts

variable {m : Machine} {e : Engine} {spared : List NativeCall} (hspares : m.Spares e.backend spared)
  (device : DeviceKind) (deviceId : Nat)

include hspares

/-- The device is selected and a stream is there, or the device is as it was but for the
selection. -/
theorem setDevice_streamCreate {β : Type} (next : Nat → EngineAct β) :
    (∃ cause m' d,
      (do
        onMachine (native (NativeAct.setDevice e.backend device deviceId))
        next (← onMachine (native (NativeAct.streamCreate e.backend)))) (m, e) =
          (.error cause, m', e) ∧
        m.Leaves e.backend spared d (m.library e.backend) m' ∧ (m.device e.backend).Steady d) ∨
      ∃ m',
      (do
        onMachine (native (NativeAct.setDevice e.backend device deviceId))
        next (← onMachine (native (NativeAct.streamCreate e.backend)))) (m, e) =
          next ((m.device e.backend).lastStream + 1) (m', e) ∧
        m.Leaves e.backend spared
          ((m.device e.backend).choosing m.thread device deviceId).createStream.2
          (m.library e.backend) m' := by
  obtain ⟨status, m₁, hset, -, hleaves₁⟩ | ⟨d, m₁, hset, hselect, hleaves₁⟩ :=
    NativeAct.changeDevice_spares hspares .setDevice fun thread d => d.select thread device deviceId
  · exact .inl ⟨_, m₁, _, Act.bind_of_error (onMachine_native_error hset e) _, hleaves₁, rfl, rfl,
        Nat.le_refl _, Nat.le_refl _, List.suffix_refl _⟩
  · obtain rfl := HostDevice.select_eq_ok hselect
    rw [Act.bind_of_ok
      (onMachine_native (show NativeAct.setDevice e.backend device deviceId m = _ from hset) e)]
    obtain ⟨status, m₂, hcreate, -, hleaves₂⟩ | ⟨stream, d, m₂, hcreate, hstream, hleaves₂⟩ :=
      NativeAct.useDevice_spares hleaves₁.spares .streamCreate fun _ d => .ok d.createStream
    · rw [hleaves₁.device, hleaves₁.library] at hleaves₂
      exact .inl ⟨_, m₂, _, Act.bind_of_error (onMachine_native_error hcreate e) _,
          hleaves₁.trans hleaves₂, HostDevice.steady_choosing _ _ _ _⟩
    · rw [hleaves₁.device] at hstream
      rw [hleaves₁.library] at hleaves₂
      cases hstream
      exact .inr ⟨m₂, Act.bind_of_ok (onMachine_native hcreate e) _, hleaves₁.trans hleaves₂⟩

/-- A thread is bound on a new stream, or nothing is taken. -/
theorem enter_outcome :
    (∃ cause m' d, enter device deviceId (m, e) = (.error cause, m', e) ∧
      m.Leaves e.backend spared d (m.library e.backend) m' ∧ (m.device e.backend).Steady d) ∨
      ∃ c m' d, enter device deviceId (m, e) = (.ok c, m', e.bindThread m.thread c) ∧
      c = ⟨device, deviceId, (m.device e.backend).lastStream + 1⟩ ∧
      m.Leaves e.backend spared d (m.library e.backend) m' ∧
        (m.device e.backend).Becomes (c.stream :: (m.device e.backend).streams)
        (m.device e.backend).blocks d ∧ c.stream ≤ d.lastStream := by
  rw [enter, Act.bind_of_ok (Act.get_apply _)]
  obtain hfailed | ⟨m', hentered, hleaves⟩ :=
    setDevice_streamCreate hspares device deviceId fun stream => publish ⟨device, deviceId, stream⟩
  · exact .inl hfailed
  · refine .inr ⟨⟨device, deviceId, (m.device e.backend).lastStream + 1⟩, m', _, ?_, rfl, hleaves,
        ⟨rfl, rfl, Nat.le_succ _, Nat.le_refl _, List.suffix_refl _⟩,
      Nat.le_refl _⟩
    rw [← hleaves.thread]
    exact hentered

/-- A thread is bound on a new stream in place of its old one, or nothing is taken. -/
theorem replaceContext_outcome (hspared : .streamDestroy ∈ spared) {old : Context}
    (hold : old.stream ∈ (m.device e.backend).streams) :
    (∃ cause m' d, replaceContext old device deviceId (m, e) = (.error cause, m', e) ∧
      m.Leaves e.backend spared d (m.library e.backend) m' ∧ (m.device e.backend).Steady d) ∨
      ∃ c m' d, replaceContext old device deviceId (m, e) = (.ok c, m', e.bindThread m.thread c) ∧
      c = ⟨device, deviceId, (m.device e.backend).lastStream + 1⟩ ∧
      m.Leaves e.backend spared d (m.library e.backend) m' ∧
        (m.device e.backend).Becomes
          ((c.stream :: (m.device e.backend).streams).filter (· ≠ old.stream))
          (m.device e.backend).blocks d ∧ c.stream ≤ d.lastStream := by
  rw [replaceContext, Act.bind_of_ok (Act.get_apply _)]
  obtain hfailed | ⟨m₁, hentered, hleaves₁⟩ :=
    setDevice_streamCreate hspares device deviceId fun stream => do
    onMachine (native (NativeAct.streamDestroy e.backend old.stream))
    publish ⟨device, deviceId, stream⟩
  · exact .inl hfailed
  · have hthere : ∃ d, (m₁.device e.backend).destroyStream old.stream = .ok d := by
      rw [hleaves₁.device]
      exact HostDevice.exists_destroyStream (List.mem_cons_of_mem _ hold)
    obtain ⟨status, m₂, -, hrefused, -⟩ | ⟨d, m₂, hdestroy, hgone, hleaves₂⟩ :=
      NativeAct.changeDevice_spares hleaves₁.spares .streamDestroy fun _ d =>
        d.destroyStream old.stream
    · obtain ⟨d, hd⟩ := hthere
      cases hd.symm.trans (hrefused hspared)
    · rw [hleaves₁.library] at hleaves₂
      have hbecomes := HostDevice.becomes_destroyStream hgone
      rw [hleaves₁.device] at hbecomes
      refine .inr ⟨⟨device, deviceId, (m.device e.backend).lastStream + 1⟩, m₂, d, ?_, rfl,
          hleaves₁.trans hleaves₂, ?_, hbecomes.last⟩
      · rw [← hleaves₁.thread, ← hleaves₂.thread]
        exact hentered.trans (Act.bind_of_ok (onMachine_native hdestroy e) _)
      · exact ⟨hbecomes.streams, hbecomes.blocks, Nat.le_trans (Nat.le_succ _) hbecomes.last,
          hbecomes.next, hbecomes.rooms⟩

end Contexts

section Close

variable {ε : Type} {m : Machine} {id : BackendId} {spared : List NativeCall}

theorem destroyStreams_leaves (hspared : .streamDestroy ∈ spared)
    (contexts : List (ThreadId × Context)) (hspares : m.Spares id spared) :
    ∃ m' d, (contexts.forM fun (_, c) => (NativeAct.streamDestroy id c.stream).attempt :
      Act Machine ε Unit) m = (.ok (), m') ∧ m.Leaves id spared d (m.library id) m' ∧
      (m.device id).Becomes ((m.device id).streams.filter fun x => ∀ b ∈ contexts, x ≠ b.2.stream)
      (m.device id).blocks d := by
  induction contexts generalizing m with
  | nil =>
      exact ⟨m, _, rfl, hspares.refl, by simp, rfl, Nat.le_refl _, Nat.le_refl _,
        List.suffix_refl _⟩
  | cons b contexts ih =>
      obtain ⟨m₁, d₁, hattempt, hleaves₁, hbecomes₁⟩ : ∃ m₁ d₁,
          ((NativeAct.streamDestroy id b.2.stream).attempt : Act Machine ε Unit) m = (.ok (), m₁) ∧
          m.Leaves id spared d₁ (m.library id) m₁ ∧ (m.device id).Becomes
            ((m.device id).streams.filter (· ≠ b.2.stream)) (m.device id).blocks d₁ := by
        rw [Act.attempt_apply, NativeAct.streamDestroy]
        obtain ⟨status, m₁, hdestroy, hrefused, hleaves₁⟩ | ⟨d₁, m₁, hdestroy, hgone, hleaves₁⟩ :=
          NativeAct.changeDevice_spares hspares .streamDestroy fun _ d => d.destroyStream b.2.stream
        · -- a stream that cannot be destroyed is not there
          rw [hdestroy]
          exact ⟨m₁, _, rfl, hleaves₁,
            (HostDevice.filter_of_destroyStream_eq_error (hrefused hspared)).symm, rfl,
            Nat.le_refl _, Nat.le_refl _, List.suffix_refl _⟩
        · rw [hdestroy]
          exact ⟨m₁, d₁, rfl, hleaves₁, HostDevice.becomes_destroyStream hgone⟩
      obtain ⟨m₂, d₂, hrest, hleaves₂, hbecomes₂⟩ := ih hleaves₁.spares
      rw [hleaves₁.library] at hleaves₂
      rw [hleaves₁.device, hbecomes₁.streams, hbecomes₁.blocks, List.filter_filter] at hbecomes₂
      refine ⟨m₂, d₂, ?_, hleaves₁.trans hleaves₂, ?_⟩
      · exact (Act.bind_of_ok hattempt _).trans hrest
      · have hall :
            (fun x => (decide (∀ b' ∈ contexts, x ≠ b'.2.stream) && decide (x ≠ b.2.stream))) =
            fun x => decide (∀ b' ∈ b :: contexts, x ≠ b'.2.stream) := by
          funext x
          simp only [List.forall_mem_cons, Bool.decide_and, Bool.and_comm]
        rw [← hall]
        exact hbecomes₁.trans hbecomes₂

/-- An engine that is closed gives back its workspace and the streams of all its contexts. -/
theorem close_leaves {e : Engine} (hspares : m.Spares e.backend spared) (hfree : .free ∈ spared)
    (hdestroy : .streamDestroy ∈ spared) {block : Block}
    (hblock : (m.device e.backend).blockAt? e.workspace.address = some block)
    (hresident : block.location.deviceResident = true) :
    ∃ m' d, (e.close : Act Machine ε Unit) m = (.ok (), m') ∧
    m.Leaves e.backend spared d (m.library e.backend) m' ∧
      (m.device e.backend).Becomes
        ((m.device e.backend).streams.filter fun x => ∀ b ∈ e.contexts, x ≠ b.2.stream)
        ((m.device e.backend).blocks.filter fun b => b.start ≠ e.workspace.address.val) d := by
  have hreleased := HostDevice.release_eq_ok_iff.2 ⟨block, hblock, hresident, rfl⟩
  obtain ⟨status, m₁, -, hrefused, -⟩ | ⟨d₁, m₁, hfreed, hgone, hleaves₁⟩ :=
    NativeAct.changeDevice_spares hspares .free fun _ d => d.free e.workspace.address
  · cases hreleased.symm.trans (hrefused hfree)
  · cases hreleased.symm.trans hgone
    obtain ⟨m₂, d₂, hrest, hleaves₂, hbecomes⟩ :=
      @destroyStreams_leaves ε _ _ _ hdestroy e.contexts hleaves₁.spares
    rw [hleaves₁.library] at hleaves₂
    rw [hleaves₁.device] at hbecomes
    refine ⟨m₂, d₂, ?_, hleaves₁.trans hleaves₂, hbecomes.streams, hbecomes.blocks, hbecomes.last,
      hbecomes.next, hbecomes.rooms⟩
    rw [close, Act.bind_of_ok (show (NativeAct.free e.backend e.workspace.address).attempt m =
        (.ok (), m₁) by rw [Act.attempt_apply, NativeAct.free, hfreed])]
    exact hrest

end Close

section Create

variable {m : Machine} {backend : BackendId} {spared : List NativeCall}
  (hspares : m.Spares backend spared)

include hspares

theorem place_workspace {β : Type} (device : DeviceKind) (deviceId size : Nat)
    {act : Act Machine EngineError β} {next : Address → Act Machine EngineError β}
    (hact : act = do
      native (NativeAct.init backend)
      native (NativeAct.setDevice backend device deviceId)
      next (← native (NativeAct.malloc backend size))) :
    (∃ cause m' d, act m = (.error cause, m') ∧ m.Leaves backend spared d (m.library backend) m' ∧
      (m.device backend).Steady d) ∨
      ∃ m', act m = next ⟨(m.device backend).room size⟩ m' ∧
        m.Leaves backend spared
          (((m.device backend).extended size (.device device deviceId)).choosing m.thread
              device deviceId)
          (m.library backend) m' := by
  subst hact
  rw [NativeAct.init, NativeAct.inspectDevice_eq_useDevice, NativeAct.setDevice]
  obtain ⟨status, m₀, hinit, -, hleaves₀⟩ | ⟨_, d, m₀, hinit, hlook, hleaves₀⟩ :=
    NativeAct.useDevice_spares hspares .init fun _ d => (Except.ok ()).map fun a => (a, d)
  · exact .inl ⟨_, m₀, _, Act.bind_of_error (native_error hinit) _, hleaves₀, rfl, rfl,
        Nat.le_refl _, Nat.le_refl _, List.suffix_refl _⟩
  cases hlook
  rw [Act.bind_of_ok (native_of_ok hinit)]
  obtain ⟨status, m₁, hset, -, hleaves₁⟩ | ⟨d, m₁, hset, hselect, hleaves₁⟩ :=
    NativeAct.changeDevice_spares hleaves₀.spares .setDevice fun thread d =>
      d.select thread device deviceId
  · rw [hleaves₀.device, hleaves₀.library] at hleaves₁
    exact .inl ⟨_, m₁, _, Act.bind_of_error (native_error hset) _, hleaves₀.trans hleaves₁, rfl,
        rfl, Nat.le_refl _, Nat.le_refl _, List.suffix_refl _⟩
  obtain rfl := HostDevice.select_eq_ok hselect
  rw [hleaves₀.device, hleaves₀.library, hleaves₀.thread] at hleaves₁
  rw [Act.bind_of_ok (native_of_ok hset)]
  obtain ⟨status, m₂, hmalloc, -, hleaves₂⟩ | ⟨a, d, m₂, hmalloc, hallocate, hleaves₂⟩ :=
    NativeAct.useDevice_spares hleaves₁.spares .malloc fun thread d => d.malloc thread size
  · rw [hleaves₁.device, hleaves₁.library] at hleaves₂
    exact .inl ⟨_, m₂, _, Act.bind_of_error (native_error hmalloc) _,
        (hleaves₀.trans hleaves₁).trans hleaves₂, HostDevice.steady_choosing _ _ _ _⟩
  rw [hleaves₁.device, hleaves₁.thread, hleaves₀.thread, HostDevice.malloc,
    HostDevice.selection_choosing] at hallocate
  obtain ⟨rfl, rfl⟩ := HostDevice.allocate_eq_ok hallocate
  rw [HostDevice.room_choosing] at hmalloc
  rw [hleaves₁.library, HostDevice.extended_choosing] at hleaves₂
  exact .inr ⟨m₂, Act.bind_of_ok (native_of_ok hmalloc) _, (hleaves₀.trans hleaves₁).trans hleaves₂⟩

/-- An engine comes up with a new workspace and its thread bound on a new stream, or nothing is
taken. -/
theorem create_outcome (hfree : .free ∈ spared) (hdestroy : .streamDestroy ∈ spared)
    (hlaid : (m.device backend).Laid) (kernels : KernelRegistry) (config : Config) :
    (∃ cause m' d, create backend kernels config m = (.error cause, m') ∧
        m.Leaves backend spared d (m.library backend) m' ∧ (m.device backend).Steady d) ∨
      ∃ e c m' d, create backend kernels config m = (.ok e, m') ∧
        c = ⟨config.device, config.deviceId, (m.device backend).lastStream + 1⟩ ∧
        e = { backend, kernels, config, contexts := [(m.thread, c)], workspace :=
          ⟨⟨(m.device backend).room config.workspace.bytes⟩, config.workspace.bytes⟩ } ∧
        m.Leaves backend spared d (m.library backend) m' ∧
        ((m.device backend).extended config.workspace.bytes
          (.device config.device config.deviceId)).Becomes
            (c.stream :: (m.device backend).streams) ((m.device backend).extended
              config.workspace.bytes (.device config.device config.deviceId)).blocks d ∧
        c.stream ≤ d.lastStream := by
  obtain hfailed | ⟨m₁, hplaced, hleaves₁⟩ := place_workspace hspares config.device config.deviceId
    config.workspace.bytes (show create backend kernels config = _ from rfl)
  · exact .inl hfailed
  rw [Act.bind_of_ok (Act.get_apply _)] at hplaced
  obtain ⟨e, he⟩ : ∃ e : Engine, e = { backend, kernels, config, workspace :=
      ⟨⟨(m.device backend).room config.workspace.bytes⟩, config.workspace.bytes⟩ } := ⟨_, rfl⟩
  have hbackend : e.backend = backend := by rw [he]
  have hopen : openContext config.device config.deviceId (m₁, e) =
      enter config.device config.deviceId (m₁, e) := by
    rw [he]
    rfl
  rw [← he, hopen] at hplaced
  obtain ⟨cause, m₂, d, hfailed, hleaves₂, hsteady⟩ |
      ⟨c, m₂, d, hbound, hc, hleaves₂, hbecomes, hlast⟩ :=
    enter_outcome (hbackend.symm ▸ hleaves₁.spares) config.device config.deviceId
  · rw [hbackend, hleaves₁.library] at hleaves₂
    rw [hbackend, hleaves₁.device] at hsteady
    rw [hfailed] at hplaced
    have hdevice : m₂.device e.backend = d := by rw [hbackend, hleaves₂.device]
    have hblock : (m₂.device e.backend).blockAt? e.workspace.address =
        some ⟨(m.device backend).room config.workspace.bytes, max config.workspace.bytes 1,
          .device config.device config.deviceId⟩ := by
      rw [hdevice, HostDevice.blockAt?, hsteady.blocks, he]
      exact HostDevice.blockAt?_extended _ _ _
    obtain ⟨m₃, d', hclose, hleaves₃, hclosed⟩ :=
      @close_leaves EngineError m₂ spared e (hbackend.symm ▸ hleaves₂.spares) hfree
        hdestroy _ hblock rfl
    rw [hbackend, hleaves₂.library] at hleaves₃
    rw [hdevice, hsteady.streams, hsteady.blocks] at hclosed
    have hnext := (m.device backend).nextAddress_le_extended config.workspace.bytes
      (.device config.device config.deviceId)
    have hrooms := (m.device backend).rooms_extended config.workspace.bytes
      (.device config.device config.deviceId)
    refine .inl ⟨cause, m₃, d', hplaced.trans ?_, (hleaves₁.trans hleaves₂).trans hleaves₃, ?_, ?_,
      Nat.le_trans hsteady.last hclosed.last,
      Nat.le_trans hnext (Nat.le_trans hsteady.next hclosed.next),
      hclosed.rooms.trans (hsteady.rooms.trans hrooms)⟩
    · exact (Act.bind_of_ok (Act.set_apply _ _) _).trans (Act.bind_of_ok hclose _)
    · rw [hclosed.streams, he]
      exact List.filter_eq_self.2 fun _ _ => by simp
    · -- only the block of the workspace goes
      rw [hclosed.blocks, he]
      exact hlaid.filter_blocks_extended config.workspace.bytes _
  · rw [hbound] at hplaced
    rw [hbackend, hleaves₁.library] at hleaves₂
    rw [hbackend, hleaves₁.device] at hbecomes hc
    refine .inr ⟨e.bindThread m₁.thread c, c, m₂, d, hplaced, hc, ?_, hleaves₁.trans hleaves₂,
      ⟨hbecomes.streams, hbecomes.blocks, hbecomes.last, hbecomes.next, hbecomes.rooms⟩, hlast⟩
    rw [he, hleaves₁.thread]
    rfl

end Create

end Engine

end TensorDataflow
