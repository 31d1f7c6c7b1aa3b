import TensorDataflow.Proofs.Graph.Migration
import TensorDataflow.Proofs.Graph.Rendering
import TensorDataflow.Proofs.Library.Filling
/-!
# What is written is read

Values are written as their bytes, one after the other, and bytes are cut into words of the same
width when they are read. In between, the data of the tensor may be moved any number of times, by
any memory service of the backend: a backend without faults stays one, its device goes on by
operations only, and the tensor holds the bytes in one live buffer after every movement that goes
through. So a tensor reads the values that were written to it, bit for bit, wherever it has been
moved to; and writing them has changed no byte outside its buffer: `Tensor.write_exact`.
-/

namespace TensorDataflow

/-! ### Values and their bytes -/

namespace Tensor

/-- The bytes of some values, one after the other. -/
def bytesOf {width : Nat} (values : List (Word width)) : List UInt8 :=
  values.flatMap fun w => toBytes width w.toNat

theorem bytesOf_cons {width : Nat} (w : Word width) (values : List (Word width)) :
    bytesOf (w :: values) = toBytes width w.toNat ++ bytesOf values :=
  List.flatMap_cons

theorem length_bytesOf {width : Nat} (values : List (Word width)) :
    (bytesOf values).length = values.length * width := by
  induction values with
  | nil => exact (Nat.zero_mul width).symm
  | cons w values ih =>
      rw [bytesOf_cons, List.length_append, Memory.length_toBytes, ih, List.length_cons,
        Nat.succ_mul, Nat.add_comm]

/-- The bytes of some values are cut into the values. -/
theorem wordsOf_bytesOf {width : Nat} (values : List (Word width)) :
    wordsOf width values.length (bytesOf values) = values := by
  induction values with
  | nil => rfl
  | cons w values ih =>
      have hlength : (toBytes width w.toNat).length = width := Memory.length_toBytes width w.toNat
      have hword : BitVec.ofNat (8 * width) (ofBytes (toBytes width w.toNat)) = w := by
        apply BitVec.eq_of_toNat_eq
        rw [BitVec.toNat_ofNat, ofBytes_toBytes]
        exact (Nat.mod_mod _ _).trans (Nat.mod_eq_of_lt w.isLt)
      rw [bytesOf_cons, List.length_cons, wordsOf, List.take_left' hlength,
        List.drop_left' hlength, ih, hword]

end Tensor

/-! ### A device that goes on by operations -/

namespace Machine

/-- A backend without faults stays one, and its device goes on by operations that go through. -/
def Progresses (id : BackendId) (m m' : Machine) : Prop :=
  m.Calm id → m'.Calm id ∧ Relation.ReflTransGen HostDevice.Step (m.device id) (m'.device id)

instance (id : BackendId) : IsPreorder Machine (Progresses id) where
  refl _ hcalm := ⟨hcalm, .refl⟩
  trans _ _ _ h h' hcalm := by
    obtain ⟨hcalm', hsteps⟩ := h hcalm
    obtain ⟨hcalm'', hsteps'⟩ := h' hcalm'
    exact ⟨hcalm'', hsteps.trans hsteps'⟩

theorem Calm.spares {id : BackendId} {m : Machine} (h : m.Calm id) (spared : List NativeCall) :
    m.Spares id spared :=
  ⟨h.there, fun f hf => by rw [h.faults] at hf; exact absurd hf List.not_mem_nil⟩

/-- No fault is left to plan where all calls are spared. -/
theorem Spares.calm {id : BackendId} {m : Machine} (h : m.Spares id NativeCall.all) :
    m.Calm id where
  there := h.there
  faults := by
    have hall : ∀ call : NativeCall, call ∈ NativeCall.all := fun call => by cases call <;> decide
    exact List.eq_nil_iff_forall_not_mem.2 fun f hf => h.faults f hf (hall f.call)

end Machine

theorem HostDevice.upload_of_checkRange {d : HostDevice} {target : Address} {bytes : List UInt8}
    {location : Location} (h : d.checkRange target bytes.length = .ok location) :
    d.upload target bytes = .ok { d with
      memory := d.memory.write target.val bytes
      usage := d.usage.recordCopy bytes.length } := by
  rw [upload, h]
  rfl

theorem HostDevice.Reached.steps {d d' : HostDevice} (h : d.Reached)
    (hsteps : Relation.ReflTransGen Step d d') : d'.Reached := by
  obtain ⟨emulated, origin, rooms, hbefore⟩ := h
  exact ⟨emulated, origin, rooms, hbefore.trans hsteps⟩

namespace NativeAct

open Machine (Progresses)

variable {id : BackendId}

theorem useDevice_progresses {α : Type} {call : NativeCall}
    {use : ThreadId → HostDevice → Except Status (α × HostDevice)}
    (huse : ∀ thread d a d', use thread d = .ok (a, d') →
      Relation.ReflTransGen HostDevice.Step d d') :
    (useDevice id call use).Keeps (Progresses id) := by
  intro m hcalm
  obtain ⟨_, _, hresult, -, hleaves⟩ | ⟨_, _, _, hresult, hused, hleaves⟩ :=
    useDevice_spares (hcalm.spares NativeCall.all) call use
  · rw [hresult, hleaves.device]
    exact ⟨hleaves.spares.calm, .refl⟩
  · rw [hresult, hleaves.device]
    exact ⟨hleaves.spares.calm, huse _ _ _ _ hused⟩

theorem changeDevice_progresses {call : NativeCall}
    {change : ThreadId → HostDevice → Except Status HostDevice}
    (hchange : ∀ thread d d', change thread d = .ok d' → HostDevice.Step d d') :
    (changeDevice id call change).Keeps (Progresses id) := by
  rw [changeDevice_eq_useDevice]
  refine useDevice_progresses fun thread d a d' hused => ?_
  cases hchanged : change thread d with
  | error status =>
      rw [hchanged] at hused
      cases hused
  | ok d'' =>
      rw [hchanged] at hused
      cases hused
      exact .single (hchange thread d d' hchanged)

theorem inspectDevice_progresses {α : Type} {call : NativeCall}
    (look : ThreadId → HostDevice → Except Status α) :
    (inspectDevice id call look).Keeps (Progresses id) := by
  rw [inspectDevice_eq_useDevice]
  refine useDevice_progresses fun thread d a d' hused => ?_
  cases hlook : look thread d with
  | error status =>
      rw [hlook] at hused
      cases hused
  | ok a' =>
      rw [hlook] at hused
      cases hused
      exact .refl

theorem malloc_progresses (size : Nat) : (malloc id size).Keeps (Progresses id) :=
  useDevice_progresses fun _ _ _ _ h => .single (.malloc h)

theorem mallocHost_progresses (size : Nat) : (mallocHost id size).Keeps (Progresses id) :=
  useDevice_progresses fun _ _ _ _ h => .single (.mallocHost h)

theorem free_progresses (a : Address) : (free id a).Keeps (Progresses id) :=
  changeDevice_progresses fun _ _ _ h => .free h

theorem freeHost_progresses (a : Address) : (freeHost id a).Keeps (Progresses id) :=
  changeDevice_progresses fun _ _ _ h => .freeHost h

theorem memcpy_progresses (target source : Address) (size : Nat) (direction : CopyDirection) :
    (memcpy id target source size direction).Keeps (Progresses id) :=
  changeDevice_progresses fun _ _ _ h => .memcpy h

theorem setDevice_progresses (kind : DeviceKind) (deviceId : Nat) :
    (setDevice id kind deviceId).Keeps (Progresses id) :=
  changeDevice_progresses fun _ _ _ h => .select h

end NativeAct

/-- The memory service looks at the device when it is asked which one is active, and does nothing
else. -/
structure TensorMemory.Attends {ε : Type} (mem : TensorMemory ε) : Prop where
  observes : mem.Observes
  progresses : mem.activeDevice.Keeps (Machine.Progresses mem.backend)

theorem attends_directMemory (backend : BackendId) : (directMemory backend).Attends where
  observes := observes_directMemory backend
  progresses := Act.Keeps.mapError
    (Act.Keeps.bind (NativeAct.inspectDevice_progresses _) fun _ => Act.keeps_pure _) _

theorem Engine.attends_memory (e : Engine) : e.memory.Attends where
  observes := e.observes_memory
  progresses := by
    intro m
    have hlooked : (e.memory.activeDevice m).2 = m :=
      congrArg (fun answer => answer.2.1) (e.activeDevice_apply m default)
    rw [hlooked]
    exact refl_of _ m

namespace Tensor

/-! ### A tensor that is moved -/

/-- The machine progresses, and of the tensor nothing changes but where its data are. -/
def Conveys (id : BackendId) (s s' : Machine × Tensor) : Prop :=
  s.1.Progresses id s'.1 ∧ ∃ device data, s'.2 = { s.2 with device, data }

instance (id : BackendId) : IsPreorder (Machine × Tensor) (Conveys id) where
  refl s := ⟨refl_of _ s.1, s.2.device, s.2.data, rfl⟩
  trans := by
    rintro s s' s'' ⟨hmachine, _, _, htensor⟩ ⟨hmachine', device, data, htensor'⟩
    refine ⟨trans_of _ hmachine hmachine', device, data, ?_⟩
    rw [htensor', htensor]

section Conveys

variable {ε : Type} {mem : TensorMemory ε} {id : BackendId}

theorem onMachine_conveys {α : Type} {act : Act Machine ε α}
    (h : act.Keeps (Machine.Progresses id)) : (onMachine act).Keeps (Conveys id) :=
  h.on fun s _ hmachine => ⟨hmachine, s.2.device, s.2.data, rfl⟩

theorem native_conveys {α : Type} {act : NativeAct α} (h : act.Keeps (Machine.Progresses id)) :
    (native mem act).Keeps (Conveys id) :=
  onMachine_conveys (h.mapError mem.ofStatus)

theorem ask_conveys {α : Type} (question : Tensor → Except GraphError α) :
    (ask mem question).Keeps (Conveys id) :=
  Act.keeps_get.bind fun _ => Act.keeps_ofExcept _

theorem moveTo_conveys (device : DeviceKind) (b : Buffer) :
    (moveTo device b : TensorAct ε Unit).Keeps (Conveys id) :=
  fun s => ⟨refl_of _ s.1, device, some b, rfl⟩

theorem releaseBuffer_conveys (onHost : Bool) (a : Address) :
    (releaseBuffer mem onHost a).Keeps (Conveys mem.backend) := by
  cases onHost with
  | true => exact native_conveys (NativeAct.freeHost_progresses a)
  | false => exact native_conveys (NativeAct.free_progresses a)

theorem migrate_conveys (old : Address) (target : DeviceKind) :
    (migrate mem old target).Keeps (Conveys mem.backend) := by
  have hplace : ∀ bytes, (native mem
      (if target.isCpu then NativeAct.mallocHost mem.backend bytes
        else NativeAct.malloc mem.backend bytes)).Keeps (Conveys mem.backend) := by
    intro bytes
    split
    · exact native_conveys (NativeAct.mallocHost_progresses bytes)
    · exact native_conveys (NativeAct.malloc_progresses bytes)
  refine (ask_conveys _).bind fun bytes => (hplace bytes).bind fun fresh => ?_
  refine Act.Keeps.bind (Act.Keeps.tryCatch (native_conveys (NativeAct.memcpy_progresses _ _ _ _))
      fun e => ?_) fun _ => ?_
  · exact (releaseBuffer_conveys _ fresh).attempt.bind fun _ => Act.keeps_throw e
  · exact Act.keeps_get.bind fun s => (moveTo_conveys target _).bind fun _ =>
      releaseBuffer_conveys _ old

theorem buffer_conveys : (buffer mem).Keeps (Conveys id) := ask_conveys _

theorem movement_conveys (hattends : mem.Attends) (move : Movement) :
    (move.act mem).Keeps (Conveys mem.backend) := by
  have hactive := onMachine_conveys hattends.progresses
  cases move with
  | toHost =>
      exact (ask_conveys _).bind fun _ => buffer_conveys.bind fun b =>
        migrate_conveys b.address .cpu
  | toDevice =>
      exact (ask_conveys _).bind fun _ => hactive.bind fun active => (ask_conveys _).bind fun _ =>
        buffer_conveys.bind fun b => migrate_conveys b.address active
  | realise =>
      refine hactive.bind fun active => (ask_conveys _).bind fun bytes =>
        Act.keeps_get.bind fun s => ?_
      dsimp only
      split
      · exact (native_conveys (NativeAct.malloc_progresses bytes)).bind fun a =>
          moveTo_conveys active _
      · split
        · exact migrate_conveys _ active
        · exact Act.keeps_pure _

end Conveys

/-- The data of a tensor are moved by some memory service of the backend, or a thread selects a
device, which is then the active one; either goes through. -/
inductive Relocation (id : BackendId) : Machine × Tensor → Machine × Tensor → Prop
  | moves {ε : Type} {mem : TensorMemory ε} (hbackend : mem.backend = id) (hattends : mem.Attends)
      (move : Movement) {s s' : Machine × Tensor} (h : move.act mem s = (.ok (), s')) :
      Relocation id s s'
  | selects {m m' : Machine} (thread : ThreadId) {kind : DeviceKind} {deviceId : Nat}
      (h : NativeAct.setDevice id kind deviceId { m with thread } = (.ok (), m')) (t : Tensor) :
      Relocation id (m, t) (m', t)

/-- The tensor holds some bytes in a live buffer on a backend without faults. -/
structure Stores (id : BackendId) (bytes : List UInt8) (s : Machine × Tensor) : Prop where
  calm : s.1.Calm id
  reached : (s.1.device id).Reached
  sized : s.2.totalBytes = .ok bytes.length
  held : ∃ b location, s.2.data = some b ∧ (s.1.device id).checkRange b.address bytes.length =
    .ok location ∧ (s.1.device id).memory.read b.address.val bytes.length = bytes

section Stores

variable {id : BackendId} {bytes : List UInt8} {s s' : Machine × Tensor}

/-- However the data are moved, the tensor holds them. -/
theorem Stores.relocation (h : Stores id bytes s) (hstep : Relocation id s s') :
    Stores id bytes s' ∧ s'.2.kind = s.2.kind := by
  obtain ⟨b, location, hdata, hlive, hread⟩ := h.held
  cases hstep with
  | @moves ε mem hbackend hattends move _ _ hmoved =>
      subst hbackend
      obtain ⟨m, t⟩ := s
      obtain ⟨released, result, m', t', hrun, -, hpreserved⟩ :=
        movement_preserves hattends.observes h.calm.there h.reached hdata h.sized hlive move
      cases hrun.symm.trans hmoved
      obtain ⟨hmachine, device, data, htensor⟩ := movement_conveys hattends move (m, t)
      rw [hmoved] at hmachine htensor
      dsimp only at hmachine htensor
      obtain ⟨hcalm, hsteps⟩ := hmachine h.calm
      obtain ⟨b', location', hdata', hlive', hsame, -⟩ := hpreserved.held
      have hsized : t'.totalBytes = t.totalBytes := by rw [htensor]; rfl
      exact ⟨⟨hcalm, h.reached.steps hsteps, hsized.trans h.sized, b', location', hdata', hlive',
        hsame.trans hread⟩, by rw [htensor]⟩
  | @selects m m' thread kind deviceId hselected t =>
      have hcalm : ({ m with thread } : Machine).Calm id := ⟨h.calm.there, h.calm.faults⟩
      have hprogress := NativeAct.setDevice_progresses kind deviceId { m with thread } hcalm
      rw [hselected] at hprogress
      obtain ⟨d, hchosen, hleaves⟩ := NativeAct.changeDevice_of_ok (hcalm.spares []) hselected
      obtain rfl := HostDevice.select_eq_ok hchosen
      refine ⟨⟨hprogress.1, h.reached.steps hprogress.2, h.sized, b, location, hdata, ?_, ?_⟩, rfl⟩
      · rw [hleaves.device]
        exact (HostDevice.checkRange_congr rfl _ _).trans hlive
      · rw [hleaves.device]
        exact hread

/-- A tensor that is moved from place to place holds its bytes all the way. -/
theorem Stores.relocations (h : Stores id bytes s)
    (hsteps : Relation.ReflTransGen (Relocation id) s s') :
    Stores id bytes s' ∧ s'.2.kind = s.2.kind := by
  induction hsteps with
  | refl => exact ⟨h, rfl⟩
  | tail _ hstep ih =>
      obtain ⟨hstores, hkind⟩ := ih.1.relocation hstep
      exact ⟨hstores, hkind.trans ih.2⟩

/-- The values whose bytes a tensor holds are read. -/
theorem Stores.read {ε : Type} {mem : TensorMemory ε} {host : ElementKind}
    {values : List (Word host.size)} (h : Stores mem.backend (bytesOf values) s)
    (hkind : s.2.kind = host) : ∃ s', Tensor.read mem host s = (.ok values, s') := by
  obtain ⟨m, t⟩ := s
  obtain ⟨b, location, hdata, hlive, hbytes⟩ := h.held
  obtain ⟨m', hdownload⟩ := NativeAct.download_apply (h.calm.spares _) hlive
  have hcheck : checkKind mem host (m, t) = (.ok (), m, t) := by
    have hsame : host = t.kind := hkind.symm
    exact ask_of_ok (if_pos hsame)
  have hsize : 0 < host.size := by cases host <;> decide
  refine ⟨(m', t), ?_⟩
  rw [Tensor.read, Act.bind_of_ok hcheck, Act.bind_of_ok (buffer_apply hdata),
    Act.bind_of_ok (ask_of_ok h.sized), Act.bind_of_ok (native_of_ok hdownload t)]
  have hcount : (bytesOf values).length / host.size = values.length := by
    rw [length_bytesOf, Nat.mul_div_cancel _ hsize]
  have hwords : wordsOf host.size ((bytesOf values).length / host.size)
      ((m.device mem.backend).memory.read b.address.val (bytesOf values).length) = values := by
    rw [hbytes, hcount, wordsOf_bytesOf]
  exact congrArg (fun words => (Except.ok words, m', t)) hwords

end Stores

/-! ### A tensor that is written -/

section Write

variable {ε : Type} {mem : TensorMemory ε} {m : Machine} {t : Tensor} {n : Nat} {b : Buffer}
  {location : Location} {host : ElementKind} (hcalm : m.Calm mem.backend) (hkind : t.kind = host)
  (hsize : t.storageSize = .ok n) (hdata : t.data = some b)
  (hlive : (m.device mem.backend).checkRange b.address (n * host.size) = .ok location)
  (values : List (Word host.size))

include hkind hsize

theorem totalBytes_of_storageSize : t.totalBytes = .ok (n * host.size) := by
  rw [totalBytes, hsize, ← hkind]
  rfl

include hdata

/-- A write of too many values or too few is refused before anything is done. -/
theorem write_of_length_ne (hlength : values.length ≠ n) : write mem host values (m, t) =
      (.error (mem.ofGraph (.dataMismatch t.id (.count n values.length))), m, t) := by
  have hcheck : checkKind mem host (m, t) = (.ok (), m, t) := ask_of_ok (if_pos hkind.symm)
  have hcount : ask mem (fun t => if values.length = n then .ok ()
        else .error (.dataMismatch t.id (.count n values.length))) (m, t) =
      (.error (mem.ofGraph (.dataMismatch t.id (.count n values.length))), m, t) := by
    rw [ask_apply, if_neg hlength]
    rfl
  rw [write, Act.bind_of_ok hcheck, Act.bind_of_ok (buffer_apply hdata),
    Act.bind_of_ok (ask_of_ok hsize), Act.bind_of_error hcount]

include hcalm hlive

/-- A write of as many values as the tensor stores puts their bytes into its buffer. -/
theorem write_of_length_eq (hlength : values.length = n) :
    ∃ d m', (m.device mem.backend).upload b.address (bytesOf values) = .ok d ∧
    write mem host values (m, t) = (.ok (), m', t) ∧ m.Renewed mem.backend d m' := by
  have hcheck : checkKind mem host (m, t) = (.ok (), m, t) := ask_of_ok (if_pos hkind.symm)
  have hcount : ask mem (fun t => if values.length = n then .ok ()
        else .error (.dataMismatch t.id (.count n values.length))) (m, t) = (.ok (), m, t) :=
    ask_of_ok (if_pos hlength)
  have hroom : (m.device mem.backend).checkRange b.address (bytesOf values).length =
      .ok location := by
    rw [length_bytesOf, hlength]
    exact hlive
  have hupload := HostDevice.upload_of_checkRange hroom
  obtain ⟨m', hdone, hrenewed⟩ := @NativeAct.changeDevice_apply _ _ hcalm .upload
    (fun _ d => d.upload b.address (bytesOf values)) _ hupload
  refine ⟨_, m', hupload, ?_, hrenewed _ rfl⟩
  rw [write, Act.bind_of_ok hcheck, Act.bind_of_ok (buffer_apply hdata),
    Act.bind_of_ok (ask_of_ok hsize), Act.bind_of_ok hcount]
  exact native_of_ok hdone t

/-- After that the tensor holds the bytes, and nothing but its storage has changed. -/
theorem stores_of_write (hreached : (m.device mem.backend).Reached) (hlength : values.length = n) :
    ∃ m', write mem host values (m, t) = (.ok (), m', t) ∧
    Stores mem.backend (bytesOf values) (m', t) ∧
    (m'.device mem.backend).blocks = (m.device mem.backend).blocks ∧
    ∀ a, a ∉ span b.address.val (n * host.size) →
    (m'.device mem.backend).memory.byte a = (m.device mem.backend).memory.byte a := by
  obtain ⟨d, m', hupload, hdone, hrenewed⟩ :=
    write_of_length_eq hcalm hkind hsize hdata hlive values hlength
  have hbytes : (bytesOf values).length = n * host.size := by rw [length_bytesOf, hlength]
  have hdevice := HostDevice.upload_of_checkRange (hbytes ▸ hlive)
  rw [hupload] at hdevice
  refine ⟨m', hdone,
    ⟨hrenewed.calm, ?_, hbytes ▸ totalBytes_of_storageSize hkind hsize, b, location, hdata, ?_, ?_⟩,
    ?_, fun a ha => ?_⟩
  · rw [hrenewed.device]
    exact hreached.steps (.single (.upload hupload))
  all_goals
    cases hdevice
    rw [hrenewed.device]
  · rw [hbytes]
    exact (HostDevice.checkRange_congr rfl _ _).trans hlive
  · exact Memory.read_write _ _ _
  · rw [Memory.byte_write, hbytes]
    exact if_neg ha

end Write

/-- On a backend without faults, a tensor of the host's kind with a live buffer for its storage
takes exactly the lists of as many values as it stores. A list that is refused leaves everything as
it was. A list that is taken changes no byte outside the tensor's storage, so none of another block,
and it is what the tensor reads, bit for bit, with any memory service of the backend and however
often its data are moved before that. -/
theorem write_exact {ε : Type} {mem : TensorMemory ε} {m : Machine} {t : Tensor} {n : Nat}
    {b : Buffer} {location : Location} {host : ElementKind} (hcalm : m.Calm mem.backend)
    (hreached : (m.device mem.backend).Reached) (hkind : t.kind = host)
    (hsize : t.storageSize = .ok n) (hdata : t.data = some b)
    (hlive : (m.device mem.backend).checkRange b.address (n * host.size) = .ok location)
    (values : List (Word host.size)) :
    t.totalBytes = .ok (n * host.size) ∧
    ((write mem host values (m, t)).1 = .ok () ↔ values.length = n) ∧
      (∀ e s, write mem host values (m, t) = (.error e, s) → s = (m, t)) ∧
      ∀ s, write mem host values (m, t) = (.ok (), s) →
        s.2 = t ∧ (s.1.device mem.backend).blocks = (m.device mem.backend).blocks ∧
        (∀ a, a ∉ span b.address.val (n * host.size) →
          (s.1.device mem.backend).memory.byte a = (m.device mem.backend).memory.byte a) ∧
        (∀ c ∈ (m.device mem.backend).blocks,
          (m.device mem.backend).nearest? b.address.val ≠ some c →
          (s.1.device mem.backend).memory.read c.start c.size =
            (m.device mem.backend).memory.read c.start c.size) ∧
        ∀ s', Relation.ReflTransGen (Relocation mem.backend) s s' →
        ∀ {ε' : Type} (mem' : TensorMemory ε'), mem'.backend = mem.backend →
        ∃ s'', read mem' host s' = (.ok values, s'') := by
  have htotal := totalBytes_of_storageSize hkind hsize
  by_cases hlength : values.length = n
  · obtain ⟨m', hdone, hstores, hblocks, hkept⟩ :=
      stores_of_write hcalm hkind hsize hdata hlive values hreached hlength
    refine ⟨htotal, ⟨fun _ => hlength, fun _ => congrArg Prod.fst hdone⟩, fun e s hfailed => ?_,
      fun s hwritten => ?_⟩
    · cases hdone.symm.trans hfailed
    cases hdone.symm.trans hwritten
    refine ⟨rfl, hblocks, hkept, fun c hc hother => ?_, fun s' hsteps ε' mem' hbackend => ?_⟩
    · apply Memory.read_congr
      intro a ha
      apply hkept
      have hapart := hreached.spaced.block_apart hlive hc hother
      rw [mem_span] at ha ⊢
      rw [Block.finish] at hapart
      omega
    · obtain ⟨hstores', hkind'⟩ := hstores.relocations hsteps
      rw [← hbackend] at hstores'
      exact hstores'.read (hkind'.trans hkind)
  · have hrefused : write mem host values (m, t) = _ :=
      write_of_length_ne hkind hsize hdata values hlength
    refine ⟨htotal, ⟨fun haccepted => ?_, fun hsame => absurd hsame hlength⟩, fun e s hfailed => ?_,
      fun s hwritten => ?_⟩
    · rw [hrefused] at haccepted
      cases haccepted
    · cases hrefused.symm.trans hfailed
      rfl
    · cases hrefused.symm.trans hwritten

/-- A machine without faults, and a tensor with room for four singles on the processor. -/
def stocked : Machine × Tensor := (⟨[{ device := laden }], 0⟩, quartet)

/-- One, a value that is no number, the negative zero and the smallest value. -/
def singles : List (Word 4) := [0x3f800000#_, 0x7fc00001#_, 0x80000000#_, 0x00000001#_]

/-- Four singles are written, moved to the accelerator and back, and read. -/
theorem write_exact_moved :
    ∃ s s₁ s₂ s₃, write (directMemory 0) .f32 singles stocked = (.ok (), s) ∧
    copyToDevice (directMemory 0) s = (.ok (), s₁) ∧ s₁.2.device = .nvidia ∧
    copyToHost (directMemory 0) s₁ = (.ok (), s₂) ∧
      read (directMemory 0) .f32 s₂ = (.ok singles, s₃) := by
  have hmoves : ∀ {act : TensorAct GraphError Unit} {s}, (act s).1 = .ok () →
      act s = (.ok (), (act s).2) := fun h => Prod.ext h rfl
  obtain ⟨-, hiff, -, hwritten⟩ :=
    @write_exact _ (directMemory 0) stocked.1 stocked.2 4 ⟨⟨0x10000⟩, 16⟩ (.device .cpu 0) .f32
      ⟨by decide, rfl⟩ reached_laden rfl (by decide +kernel) rfl (by decide +kernel) singles
  have hdone : write (directMemory 0) .f32 singles stocked = _ := hmoves (hiff.2 rfl)
  obtain ⟨-, -, -, -, hreads⟩ := hwritten _ hdone
  have hdevice : (copyToDevice (directMemory 0) (write (directMemory 0) .f32 singles stocked).2).1 =
      .ok () := by
    decide +kernel
  have haccelerator :
      (copyToDevice (directMemory 0) (write (directMemory 0) .f32 singles stocked).2).2.2.device =
      .nvidia := by
    decide +kernel
  have hhost : (copyToHost (directMemory 0) (copyToDevice (directMemory 0)
          (write (directMemory 0) .f32 singles stocked).2).2).1 = .ok () := by
    decide +kernel
  generalize (write (directMemory 0) .f32 singles stocked).2 =
    s at hdone hreads hdevice haccelerator hhost
  have hto : Relocation 0 s (copyToDevice (directMemory 0) s).2 :=
    .moves rfl (attends_directMemory 0) .toDevice (hmoves hdevice)
  have hfro : Relocation 0 (copyToDevice (directMemory 0) s).2
      (copyToHost (directMemory 0) (copyToDevice (directMemory 0) s).2).2 :=
    .moves rfl (attends_directMemory 0) .toHost (hmoves hhost)
  obtain ⟨s₃, hread⟩ := hreads _ (.tail (.single hto) hfro) (directMemory 0) rfl
  exact ⟨s, _, _, s₃, hdone, hmoves hdevice, haccelerator, hmoves hhost, hread⟩

end Tensor

end TensorDataflow
