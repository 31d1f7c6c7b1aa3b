import TensorDataflow.Proofs.Machine.Calls
/-!
# Native calls that faults may strike

Faults can be planned for any call but some that are spared. A call for which a fault may be planned
either fails and leaves the device and the library as they were, or does what its body says; a call
that is spared does what its body says. No call plans a fault, so what is spared stays spared.
-/

namespace TensorDataflow

theorem Fault.strike_spares {spared : List NativeCall} (call : NativeCall) {faults : List Fault}
    (h : ∀ f ∈ faults, f.call ∉ spared) :
    (∀ f ∈ (strike call faults).2, f.call ∉ spared) ∧
    (call ∈ spared → (strike call faults).1 = none) := by
  induction faults with
  | nil => exact ⟨h, fun _ => rfl⟩
  | cons f rest ih =>
      obtain ⟨hf, hrest⟩ := List.forall_mem_cons.1 h
      rw [strike]
      split
      · next hcall =>
          have hunspared : call ∉ spared := hcall.1 ▸ hf
          split
          · exact ⟨List.forall_mem_cons.2 ⟨hf, hrest⟩, fun _ => rfl⟩
          · exact ⟨List.forall_mem_cons.2 ⟨hf, hrest⟩, fun hspared => absurd hspared hunspared⟩
      · obtain ⟨hkept, hnone⟩ := ih hrest
        exact ⟨List.forall_mem_cons.2 ⟨hf, hkept⟩, hnone⟩

namespace Machine

/-- A backend that is there, with no fault planned for the calls that are spared. -/
structure Spares (id : BackendId) (spared : List NativeCall) (m : Machine) : Prop where
  there : id < m.backends.length
  faults : ∀ f ∈ (m.backend id).faults, f.call ∉ spared

/-- What a call leaves of a backend: its device, its library, and the calls that are spared on
it. -/
structure Leaves (id : BackendId) (spared : List NativeCall) (d : HostDevice) (l : OpLibrary)
    (m m' : Machine) : Prop where
  thread : m'.thread = m.thread
  spares : m'.Spares id spared
  device : m'.device id = d
  library : m'.library id = l

variable {id : BackendId} {spared : List NativeCall} {m : Machine} (hspares : m.Spares id spared)

include hspares

theorem Spares.leaves {d : HostDevice} {l : OpLibrary} {faults : List Fault} {log : List LogEntry}
    (hfaults : ∀ f ∈ faults, f.call ∉ spared) :
    m.Leaves id spared d l (m.setBackend id ⟨d, l, faults, log⟩) where
  thread := rfl
  spares := by
    refine ⟨?_, ?_⟩
    · rw [setBackend, List.length_set]
      exact hspares.there
    · rw [backend_setBackend hspares.there]
      exact hfaults
  device := by rw [device, backend_setBackend hspares.there]
  library := by rw [library, backend_setBackend hspares.there]

theorem Spares.refl : m.Leaves id spared (m.device id) (m.library id) m := ⟨rfl, hspares, rfl, rfl⟩

omit hspares in
theorem Leaves.trans {d d' : HostDevice} {l l' : OpLibrary} {m' m'' : Machine}
    (h : m.Leaves id spared d l m') (h' : m'.Leaves id spared d' l' m'') :
    m.Leaves id spared d' l' m'' :=
  ⟨h'.thread.trans h.thread, h'.spares, h'.device, h'.library⟩

end Machine

namespace NativeAct

section Invoke

variable {α : Type} {m : Machine} {lib : LibraryRef} {spared : List NativeCall}
  (hspares : m.Spares lib.backend spared)

include hspares

theorem invoke_spares (call : NativeCall)
    (body : ThreadId → Backend → Except Status (α × Backend)) :
    ∃ faults, (∀ f ∈ faults, f.call ∉ spared) ∧
      ((∃ status, call ∉ spared ∧ invoke lib call body m =
          (.error status, m.setBackend lib.backend { m.backend lib.backend with faults })) ∨
        invoke lib call body m = match body m.thread { m.backend lib.backend with faults } with
          | .ok (a, b) => (.ok a, m.setBackend lib.backend b)
          | .error status =>
              (.error status, m.setBackend lib.backend { m.backend lib.backend with faults })) := by
  obtain ⟨hkept, hnone⟩ := Fault.strike_spares call hspares.faults
  rw [invoke]
  cases lib.guarded with
  | false => exact ⟨(m.backend lib.backend).faults, hspares.faults, .inr rfl⟩
  | true =>
      simp only [if_true]
      generalize Fault.strike call (m.backend lib.backend).faults = struck at hkept hnone
      obtain ⟨_ | status, faults⟩ := struck
      · exact ⟨faults, hkept, .inr rfl⟩
      · refine ⟨faults, hkept, .inl ⟨status, fun hspared => ?_, rfl⟩⟩
        cases hnone hspared

theorem makeDescriptor_spares (call : NativeCall) (make : Backend → Except Status (Nat × OpLibrary))
    (hmake : ∀ b faults, make { b with faults } = make b) :
    (∃ status m', makeDescriptor lib call make m = (.error status, m') ∧
      m.Leaves lib.backend spared (m.device lib.backend) (m.library lib.backend) m') ∨
      ∃ id l m', makeDescriptor lib call make m = (.ok id, m') ∧ make (m.backend lib.backend) =
        .ok (id, l) ∧ m.Leaves lib.backend spared (m.device lib.backend) l m' := by
  obtain ⟨faults, hfaults, ⟨status, -, hstruck⟩ | hbody⟩ := invoke_spares hspares call fun _ b => do
    let made ← make b
    return (made.1, { b with library := made.2 })
  · exact .inl ⟨status, _, hstruck, hspares.leaves hfaults⟩
  · rw [hmake] at hbody
    cases hmade : make (m.backend lib.backend) with
    | error status =>
        rw [hmade] at hbody
        exact .inl ⟨status, _, hbody, hspares.leaves hfaults⟩
    | ok made =>
        rw [hmade] at hbody
        exact .inr ⟨made.1, made.2, _, hbody, rfl, hspares.leaves hfaults⟩

theorem changeLibrary_spares {call : NativeCall} (hcall : call ∈ spared)
    {change : OpLibrary → Except Status OpLibrary} {l : OpLibrary}
    (hchange : change (m.library lib.backend) = .ok l) :
    ∃ m', changeLibrary lib call change m = (.ok (), m') ∧
    m.Leaves lib.backend spared (m.device lib.backend) l m' := by
  obtain ⟨faults, hfaults, ⟨status, hunspared, -⟩ | hbody⟩ :=
    invoke_spares hspares call fun _ b => do return ((), { b with library := ← change b.library })
  · exact absurd hcall hunspared
  · rw [show change ({ m.backend lib.backend with faults } : Backend).library =
      .ok l from hchange] at hbody
    exact ⟨_, hbody, hspares.leaves hfaults⟩

/-- A launch fails and leaves the device as it was, or does what the library says. -/
theorem launch_spares (desc : Nat) (workspace : Address) (size : Nat)
    (outputs inputs : List Address) (args : LaunchArgs) :
    (∃ status m', launch lib desc workspace size outputs inputs args m = (.error status, m') ∧
      m.Leaves lib.backend spared (m.device lib.backend) (m.library lib.backend) m') ∨
      ∃ d m', launch lib desc workspace size outputs inputs args m = (.ok (), m') ∧
        (m.library lib.backend).launch (m.device lib.backend) desc workspace size outputs inputs
          args = .ok d ∧ m.Leaves lib.backend spared d (m.library lib.backend) m' := by
  obtain ⟨faults, hfaults, ⟨status, -, hstruck⟩ | hlogged⟩ :=
    invoke_spares hspares .launch fun _ b => .ok ((), logged lib ⟨.launch, desc, size⟩ b)
  · exact .inl ⟨status, _, Act.bind_of_error hstruck _, hspares.leaves hfaults⟩
  · dsimp only at hlogged
    have hleaves : m.Leaves lib.backend spared (m.device lib.backend) (m.library lib.backend)
        (m.setBackend lib.backend
            (logged lib ⟨.launch, desc, size⟩ { m.backend lib.backend with faults })) := by
      rw [logged]
      split <;> exact hspares.leaves hfaults
    generalize m.setBackend lib.backend (logged lib ⟨.launch, desc, size⟩
        { m.backend lib.backend with faults }) = between at hlogged hleaves
    rw [launch, Act.bind_of_ok hlogged]
    obtain ⟨faults', hfaults', ⟨status, -, hstruck⟩ | hbody⟩ := @invoke_spares _ between
      { lib with guarded := false } spared hleaves.spares .launch fun _ b => do
        return ((), { b with
          device := ← b.library.launch b.device desc workspace size outputs inputs args })
    · exact .inl ⟨status, _, hstruck,
          hleaves.trans (hleaves.device ▸ hleaves.library ▸ hleaves.spares.leaves hfaults')⟩
    · rw [hbody]
      have hdevice : (between.backend lib.backend).device = m.device lib.backend := hleaves.device
      have hlibrary : (between.backend lib.backend).library = m.library lib.backend :=
        hleaves.library
      dsimp only
      rw [hdevice, hlibrary]
      cases hlaunch : (m.library lib.backend).launch (m.device lib.backend) desc workspace size
        outputs inputs args with
      | error status => exact .inl ⟨status, _, rfl, hleaves.trans (hleaves.spares.leaves hfaults')⟩
      | ok d => exact .inr ⟨d, _, rfl, rfl, hleaves.trans (hleaves.spares.leaves hfaults')⟩

end Invoke

section Device

variable {α : Type} {m : Machine} {id : BackendId} {spared : List NativeCall}

/-- A call on the device fails and leaves it as it was, or does what its body says. -/
theorem useDevice_spares (hspares : m.Spares id spared) (call : NativeCall)
    (use : ThreadId → HostDevice → Except Status (α × HostDevice)) :
    (∃ status m', useDevice id call use m = (.error status, m') ∧
      (call ∈ spared → use m.thread (m.device id) = .error status) ∧
        m.Leaves id spared (m.device id) (m.library id) m') ∨
      ∃ a d m', useDevice id call use m = (.ok a, m') ∧ use m.thread (m.device id) = .ok (a, d) ∧
      m.Leaves id spared d (m.library id) m' := by
  obtain ⟨faults, hfaults, ⟨status, hunspared, hstruck⟩ | hbody⟩ :=
    @invoke_spares _ m ⟨id, true⟩ spared hspares call fun thread b => do
    let used ← use thread b.device
    return (used.1, { b with device := used.2 })
  · exact .inl ⟨status, _, hstruck, fun hcall => absurd hcall hunspared, hspares.leaves hfaults⟩
  · cases hused : use m.thread (m.device id) with
    | error status =>
        rw [show use m.thread ({ m.backend id with faults } : Backend).device =
          .error status from hused] at hbody
        exact .inl ⟨status, _, hbody, fun _ => rfl, hspares.leaves hfaults⟩
    | ok result =>
        rw [show use m.thread ({ m.backend id with faults } : Backend).device =
          .ok result from hused] at hbody
        exact .inr ⟨result.1, result.2, _, hbody, rfl, hspares.leaves hfaults⟩

theorem changeDevice_eq_useDevice (call : NativeCall)
    (change : ThreadId → HostDevice → Except Status HostDevice) :
    changeDevice id call change =
      useDevice id call fun thread d => (change thread d).map fun d => ((), d) := by
  rw [changeDevice, useDevice]
  congr 1
  funext thread b
  cases change thread b.device <;> rfl

theorem inspectDevice_eq_useDevice (call : NativeCall)
    (look : ThreadId → HostDevice → Except Status α) :
    inspectDevice id call look =
      useDevice id call fun thread d => (look thread d).map fun a => (a, d) := by
  rw [inspectDevice, useDevice]
  congr 1
  funext thread b
  cases look thread b.device <;> rfl

theorem changeDevice_spares (hspares : m.Spares id spared) (call : NativeCall)
    (change : ThreadId → HostDevice → Except Status HostDevice) :
    (∃ status m', changeDevice id call change m = (.error status, m') ∧
      (call ∈ spared → change m.thread (m.device id) = .error status) ∧
        m.Leaves id spared (m.device id) (m.library id) m') ∨
      ∃ d m', changeDevice id call change m = (.ok (), m') ∧ change m.thread (m.device id) = .ok d ∧
      m.Leaves id spared d (m.library id) m' := by
  rw [changeDevice_eq_useDevice]
  obtain ⟨status, m', hfailed, hspared, hleaves⟩ | ⟨_, d, m', hdone, hchange, hleaves⟩ :=
    useDevice_spares hspares call fun thread d => (change thread d).map fun d => ((), d)
  · refine .inl ⟨status, m', hfailed, fun hcall => ?_, hleaves⟩
    have herror := hspared hcall
    cases hchange : change m.thread (m.device id) with
    | error cause =>
        rw [hchange] at herror
        exact congrArg Except.error (Except.error.inj herror)
    | ok d =>
        rw [hchange] at herror
        cases herror
  · cases hresult : change m.thread (m.device id) with
    | error cause =>
        rw [hresult] at hchange
        cases hchange
    | ok d' =>
        rw [hresult] at hchange
        cases hchange
        exact .inr ⟨d, m', hdone, rfl, hleaves⟩

/-- A call on the device that fails leaves it as it was. -/
theorem useDevice_of_error (hspares : m.Spares id spared) {call : NativeCall}
    {use : ThreadId → HostDevice → Except Status (α × HostDevice)} {status : Status} {m' : Machine}
    (hfailed : useDevice id call use m = (.error status, m')) :
    m.Leaves id spared (m.device id) (m.library id) m' := by
  obtain ⟨_, _, hrefused, -, hleaves⟩ | ⟨_, _, _, hdone, -, -⟩ := useDevice_spares hspares call use
  · cases hrefused.symm.trans hfailed
    exact hleaves
  · cases hdone.symm.trans hfailed

/-- A call on the device that goes through does what its body says. -/
theorem useDevice_of_ok (hspares : m.Spares id spared) {call : NativeCall}
    {use : ThreadId → HostDevice → Except Status (α × HostDevice)} {a : α} {m' : Machine}
    (hdone : useDevice id call use m = (.ok a, m')) :
    ∃ d, use m.thread (m.device id) = .ok (a, d) ∧ m.Leaves id spared d (m.library id) m' := by
  obtain ⟨_, _, hrefused, -, -⟩ | ⟨_, d, _, hwent, huse, hleaves⟩ :=
    useDevice_spares hspares call use
  · cases hrefused.symm.trans hdone
  · cases hwent.symm.trans hdone
    exact ⟨d, huse, hleaves⟩

theorem changeDevice_of_error (hspares : m.Spares id spared) {call : NativeCall}
    {change : ThreadId → HostDevice → Except Status HostDevice} {status : Status} {m' : Machine}
    (hfailed : changeDevice id call change m = (.error status, m')) :
    m.Leaves id spared (m.device id) (m.library id) m' := by
  rw [changeDevice_eq_useDevice] at hfailed
  exact useDevice_of_error hspares hfailed

theorem changeDevice_of_ok (hspares : m.Spares id spared) {call : NativeCall}
    {change : ThreadId → HostDevice → Except Status HostDevice} {m' : Machine}
    (hdone : changeDevice id call change m = (.ok (), m')) :
    ∃ d, change m.thread (m.device id) = .ok d ∧ m.Leaves id spared d (m.library id) m' := by
  obtain ⟨_, _, hrefused, -, -⟩ | ⟨d, _, hwent, hchange, hleaves⟩ :=
    changeDevice_spares hspares call change
  · cases hrefused.symm.trans hdone
  · cases hwent.symm.trans hdone
    exact ⟨d, hchange, hleaves⟩

end Device

end NativeAct

end TensorDataflow
