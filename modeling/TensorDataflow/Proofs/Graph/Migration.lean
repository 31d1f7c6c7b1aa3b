import TensorDataflow.Proofs.Device.Spacing
import TensorDataflow.Proofs.Engine.Bias
import TensorDataflow.Proofs.Engine.Streams
/-!
# Moving the data of a tensor

A tensor's bytes are moved by placing a fresh buffer, copying, taking the fresh buffer and giving
the old one up, and any of the calls may fail. Whichever does, the tensor is left with a live buffer
that holds the bytes, its own or the fresh one, and nobody else's memory is touched; a block is left
over only where a call failed that was to give one back: `Tensor.movement_preserves`.
-/

namespace TensorDataflow

namespace NativeAct

/-- A fresh block on the host, or on the device that the thread has selected. -/
def place (id : BackendId) (onHost : Bool) (size : Nat) : NativeAct Address :=
  if onHost then mallocHost id size else malloc id size

/-- Gives back a block of the host, or of a device. -/
def giveBack (id : BackendId) (onHost : Bool) (a : Address) : NativeAct Unit :=
  if onHost then freeHost id a else free id a

variable {m m' : Machine} {id : BackendId} {spared : List NativeCall} {onHost : Bool} {size : Nat}
  {a : Address} {status : Status}

theorem place_eq (id : BackendId) (onHost : Bool) (size : Nat) : place id onHost size =
    useDevice id (if onHost then .mallocHost else .malloc) fun thread d => d.allocate size
      (if onHost then .host else .device (d.selection thread).1 (d.selection thread).2) := by
  cases onHost <;> rfl

theorem giveBack_eq (id : BackendId) (onHost : Bool) (a : Address) : giveBack id onHost a =
    changeDevice id (if onHost then .freeHost else .free) fun _ d =>
      d.release a (if onHost then Location.hostAccessible else Location.deviceResident) := by
  cases onHost <;> rfl

section Calls

variable (hspares : m.Spares id spared)

include hspares

theorem place_of_error (hfailed : place id onHost size m = (.error status, m')) :
    m.Leaves id spared (m.device id) (m.library id) m' := by
  rw [place_eq] at hfailed
  exact useDevice_of_error hspares hfailed

theorem place_of_ok (hdone : place id onHost size m = (.ok a, m')) :
    a = ⟨(m.device id).room size⟩ ∧
    ∃ location, m.Leaves id spared ((m.device id).extended size location) (m.library id) m' := by
  rw [place_eq] at hdone
  obtain ⟨d, hplaced, hleaves⟩ := useDevice_of_ok hspares hdone
  obtain ⟨rfl, rfl⟩ := HostDevice.allocate_eq_ok hplaced
  exact ⟨rfl, _, hleaves⟩

theorem giveBack_of_error (hfailed : giveBack id onHost a m = (.error status, m')) :
    m.Leaves id spared (m.device id) (m.library id) m' := by
  rw [giveBack_eq] at hfailed
  exact changeDevice_of_error hspares hfailed

theorem giveBack_of_ok (hdone : giveBack id onHost a m = (.ok (), m')) :
    ∃ b usage, (m.device id).blockAt? a = some b ∧
    m.Leaves id spared ((m.device id).without a usage) (m.library id) m' := by
  rw [giveBack_eq] at hdone
  obtain ⟨d, hreleased, hleaves⟩ := changeDevice_of_ok hspares hdone
  obtain ⟨b, hblock, -, rfl⟩ := HostDevice.release_eq_ok_iff.1 hreleased
  exact ⟨b, _, hblock, hleaves⟩

theorem memcpy_of_error {target source : Address} {direction : CopyDirection}
    (hfailed : memcpy id target source size direction m = (.error status, m')) :
    m.Leaves id spared (m.device id) (m.library id) m' := changeDevice_of_error hspares hfailed

theorem memcpy_of_ok {target source : Address} {direction : CopyDirection}
    (hdone : memcpy id target source size direction m = (.ok (), m')) :
    ∃ usage, m.Leaves id spared
      { m.device id with memory := (m.device id).memory.copy target.val source.val size, usage }
    (m.library id) m' := by
  obtain ⟨d, hcopied, hleaves⟩ := changeDevice_of_ok hspares (show changeDevice id .memcpy
      (fun _ d => d.memcpy target source size direction) m = _ from hdone)
  obtain ⟨-, rfl⟩ := HostDevice.memcpy_eq_ok_iff.1 hcopied
  exact ⟨_, hleaves⟩

end Calls

end NativeAct

namespace Tensor

variable {ε : Type}

/-! ### The calls of a migration -/

/-- How a migration goes, with what the calls answer that are to give a block back: the fresh one if
it could not be filled, or else the old one. -/
inductive Migration (mem : TensorMemory ε) (old : Address) (target : DeviceKind) (m : Machine)
    (t : Tensor) : List (Except Status Unit) → Except ε Unit → Machine → Tensor → Prop
  | unsized {cause : GraphError} (hbytes : t.totalBytes = .error cause) :
      Migration mem old target m t [] (.error (mem.ofGraph cause)) m t
  | unplaced {bytes : Nat} {status : Status} {m' : Machine} (hbytes : t.totalBytes = .ok bytes)
      (hplace : NativeAct.place mem.backend target.isCpu bytes m = (.error status, m')) :
      Migration mem old target m t [] (.error (mem.ofStatus status)) m' t
  | uncopied {bytes : Nat} {fresh : Address} {status : Status} {released : Except Status Unit}
      {m₁ m₂ m' : Machine} (hbytes : t.totalBytes = .ok bytes)
      (hplace : NativeAct.place mem.backend target.isCpu bytes m = (.ok fresh, m₁))
      (hcopy : NativeAct.memcpy mem.backend fresh old bytes
        (if target.isCpu then .deviceToHost else .hostToDevice) m₁ = (.error status, m₂))
      (hrelease : NativeAct.giveBack mem.backend target.isCpu fresh m₂ = (released, m')) :
      Migration mem old target m t [released] (.error (mem.ofStatus status)) m' t
  | rebound {bytes : Nat} {fresh : Address} {released : Except Status Unit} {m₁ m₂ m' : Machine}
      (hbytes : t.totalBytes = .ok bytes)
      (hplace : NativeAct.place mem.backend target.isCpu bytes m = (.ok fresh, m₁))
      (hcopy : NativeAct.memcpy mem.backend fresh old bytes
        (if target.isCpu then .deviceToHost else .hostToDevice) m₁ = (.ok (), m₂))
      (hrelease : NativeAct.giveBack mem.backend t.device.isCpu old m₂ = (released, m')) :
      Migration mem old target m t [released] (released.mapError mem.ofStatus) m'
        { t with device := target, data := some ⟨fresh, bytes⟩ }

theorem native_of_error {mem : TensorMemory ε} {α : Type} {act : NativeAct α} {m m' : Machine}
    {status : Status} (h : act m = (.error status, m')) (t : Tensor) :
    native mem act (m, t) = (.error (mem.ofStatus status), m', t) := by
  rw [native, onMachine, Act.on_apply, Act.mapError_apply, h]
  rfl

theorem native_of_ok {mem : TensorMemory ε} {α : Type} {act : NativeAct α} {m m' : Machine} {a : α}
    (h : act m = (.ok a, m')) (t : Tensor) : native mem act (m, t) = (.ok a, m', t) := by
  rw [native, onMachine, Act.on_apply, Act.mapError_apply, h]
  rfl

theorem releaseBuffer_apply {mem : TensorMemory ε} {onHost : Bool} {a : Address} {m m' : Machine}
    {released : Except Status Unit} (h : NativeAct.giveBack mem.backend onHost a m = (released, m'))
    (t : Tensor) :
    releaseBuffer mem onHost a (m, t) = (released.mapError mem.ofStatus, m', t) := by
  rw [releaseBuffer, native, onMachine, Act.on_apply, Act.mapError_apply]
  exact congrArg
    (fun answer : Except Status Unit × Machine => (answer.1.mapError mem.ofStatus, answer.2, t)) h

/-- Every migration goes one of these ways. -/
theorem migrate_migration (mem : TensorMemory ε) (old : Address) (target : DeviceKind) (m : Machine)
    (t : Tensor) :
    ∃ released result m' t', migrate mem old target (m, t) = (result, m', t') ∧
    Migration mem old target m t released result m' t' := by
  have hask : ask mem totalBytes (m, t) = (t.totalBytes.mapError mem.ofGraph, m, t) := rfl
  cases hbytes : t.totalBytes with
  | error cause =>
      rw [hbytes] at hask
      exact ⟨_, _, _, _, Act.bind_of_error hask _, .unsized hbytes⟩
  | ok bytes =>
      rw [hbytes] at hask
      rw [migrate, Act.bind_of_ok hask]
      dsimp only
      rcases hplace : NativeAct.place mem.backend target.isCpu bytes m with ⟨status | fresh, m₁⟩
      · exact ⟨_, _, _, _, Act.bind_of_error (native_of_error hplace t) _, .unplaced hbytes hplace⟩
      rw [show (if target.isCpu = true then NativeAct.mallocHost mem.backend bytes
          else NativeAct.malloc mem.backend bytes) =
        NativeAct.place mem.backend target.isCpu bytes from rfl,
        Act.bind_of_ok (native_of_ok hplace t)]
      rcases hcopy : NativeAct.memcpy mem.backend fresh old bytes
          (if target.isCpu then .deviceToHost else .hostToDevice) m₁ with ⟨status | _, m₂⟩
      · -- the failure that is answered is that of the copy,
        -- whatever comes of giving the fresh block back
        rcases hrelease : NativeAct.giveBack mem.backend target.isCpu fresh m₂ with ⟨released, m₃⟩
        have hcaught : (tryCatch (native mem (NativeAct.memcpy mem.backend fresh old bytes
                (if target.isCpu then .deviceToHost else .hostToDevice))) fun e => do
            (releaseBuffer mem target.isCpu fresh).attempt
            throw e : TensorAct ε Unit) (m₁, t) = (.error (mem.ofStatus status), m₃, t) := by
          rw [Act.tryCatch_of_error (native_of_error hcopy t),
            Act.bind_of_ok (Act.attempt_apply _ _), releaseBuffer_apply hrelease]
          rfl
        exact ⟨_, _, _, _, Act.bind_of_error hcaught _, .uncopied hbytes hplace hcopy hrelease⟩
      · rcases hrelease : NativeAct.giveBack mem.backend t.device.isCpu old m₂ with ⟨released, m₃⟩
        rw [Act.bind_of_ok (Act.tryCatch_of_ok (native_of_ok hcopy t) _),
          Act.bind_of_ok (Act.get_apply _)]
        exact ⟨_, _, _, _,
          (Act.bind_of_ok (Act.modify_apply _ _) _).trans (releaseBuffer_apply hrelease _),
          .rebound hbytes hplace hcopy hrelease⟩

/-! ### What a migration leaves -/

/-- What is left of a tensor that held its bytes in a buffer, and of the device: the bytes are held,
in the old buffer or in a fresh one that shares no byte with a live block; no block is left over
unless one could not be given back, and the ranges of other blocks stay as they are. A range without
bytes at a place that the host has offered may come to belong to the fresh block. -/
structure Preserved (target : Except ε DeviceKind) (bytes : Nat) (b : Buffer) (t : Tensor)
    (d : HostDevice) (released : List (Except Status Unit)) (result : Except ε Unit) (t' : Tensor)
    (d' : HostDevice) : Prop where
  held : ∃ b' location, t'.data = some b' ∧ d'.checkRange b'.address bytes = .ok location ∧
    d'.memory.read b'.address.val bytes = d.memory.read b.address.val bytes ∧
    (b' = b ∧ t'.device = t.device ∨
      (∀ c ∈ d.blocks, b'.address.val + bytes ≤ c.start ∨ c.finish ≤ b'.address.val) ∧
        (b'.address.val ∉ d.rooms → d.location? b'.address = none) ∧ target = .ok t'.device)
  count : (result = .ok () ∨ ∀ r ∈ released, r = .ok ()) → d'.blocks.length = d.blocks.length
  others : ∀ a length location, d.checkRange a length = .ok location →
    d.nearest? a.val ≠ d.nearest? b.address.val → (a.val ∈ d.rooms → 0 < length) →
    d.Keeps a length d'

section Preserved

variable {d d' : HostDevice} {b : Buffer} {bytes : Nat} {location : Location}
  {target : Except ε DeviceKind} {released : List (Except Status Unit)}
  {result : Except ε Unit} {t : Tensor}

/-- Where the ranges of all blocks stay as they are, the tensor keeps its buffer. -/
theorem preserved_of_keeps (hdata : t.data = some b)
    (hlive : ∃ location, d'.checkRange b.address bytes = .ok location)
    (hbytes : d'.memory.read b.address.val bytes = d.memory.read b.address.val bytes)
    (hkeeps : ∀ a length location, d.checkRange a length = .ok location →
      (a.val ∈ d.rooms → 0 < length) → d.Keeps a length d')
    (hcount : (result = .ok () ∨ ∀ r ∈ released, r = .ok ()) →
      d'.blocks.length = d.blocks.length) :
    Preserved target bytes b t d released result t d' where
  held := by
    obtain ⟨location, hlive⟩ := hlive
    exact ⟨b, location, hdata, hlive, hbytes, .inl ⟨rfl, rfl⟩⟩
  count := hcount
  others a length location hrange _ := hkeeps a length location hrange

theorem preserved_refl (hdata : t.data = some b)
    (hlive : d.checkRange b.address bytes = .ok location) :
    Preserved target bytes b t d released result t d :=
  preserved_of_keeps hdata ⟨location, hlive⟩ rfl (fun a length _ _ _ => .refl a length d) fun _ =>
    rfl

/-- A tensor that has taken the fresh buffer finds its bytes there. -/
theorem preserved_of_refilled (hspaced : d.Spaced) {device : DeviceKind}
    (hthere : ∃ location, d'.checkRange ⟨d.room bytes⟩ bytes = .ok location)
    (hfilled : d'.memory.read (d.room bytes) bytes = d.memory.read b.address.val bytes)
    (hcount : (result = .ok () ∨ ∀ r ∈ released, r = .ok ()) →
      d'.blocks.length = d.blocks.length)
    (hothers : ∀ a length location, d.checkRange a length = .ok location →
      d.nearest? a.val ≠ d.nearest? b.address.val → (a.val ∈ d.rooms → 0 < length) →
      d.Keeps a length d') :
    Preserved (.ok device) bytes b t d released result
      { t with device, data := some ⟨⟨d.room bytes⟩, bytes⟩ } d' where
  held := by
    obtain ⟨location, hthere⟩ := hthere
    refine ⟨_, location, rfl, hthere, hfilled, .inr ⟨fun c hc => ?_, hspaced.location?_room, rfl⟩⟩
    have hclear := hspaced.clear_room hc bytes
    dsimp only
    omega
  count := hcount
  others := hothers

end Preserved

variable {mem : TensorMemory ε} {m m' : Machine} {t t' : Tensor} {b : Buffer} {bytes : Nat}
  {location : Location} {target : DeviceKind} {released : List (Except Status Unit)}
  {result : Except ε Unit}

section Rebound

variable {d : HostDevice} (hspaced : d.Spaced) (hdata : t.data = some b)
  (hlive : d.checkRange b.address bytes = .ok location) (location' : Location) (usage : Usage)

include hspaced hlive

/-- The old buffer could not be given up, and the tensor has the fresh one. -/
theorem preserved_of_kept {status : Status} (cause : ε) :
    Preserved (.ok target) bytes b t d [.error status] (.error cause)
      { t with device := target, data := some ⟨⟨d.room bytes⟩, bytes⟩ }
      (d.refilled b.address bytes location' usage) := by
  obtain ⟨hthere, hfilled⟩ := hspaced.refilled_holds location' usage hlive
  refine preserved_of_refilled hspaced ⟨_, hthere⟩ hfilled (fun hgiven => ?_)
    fun a length _ hrange _ hoffered =>
      hspaced.keeps_refilled location' usage hrange (hspaced.ne_room hrange hoffered bytes)
  simp at hgiven

/-- The tensor has the fresh buffer in place of the old one. -/
theorem preserved_of_moved {old : Block}
    (hold : (d.refilled b.address bytes location' usage).blockAt? b.address = some old)
    (usage' : Usage) :
    Preserved (.ok target : Except ε DeviceKind) bytes b t d released result
      { t with device := target, data := some ⟨⟨d.room bytes⟩, bytes⟩ }
      ((d.refilled b.address bytes location' usage).without b.address usage') := by
  have hlaid : (d.refilled b.address bytes location' usage).Laid :=
    (hspaced.laid.extended bytes location').sublist (List.Sublist.refl _) (Nat.le_refl _)
  have hlength : (d.refilled b.address bytes location' usage).blocks.length = d.blocks.length + 1 :=
    (d.perm_blocks_placed (d.room bytes) (max bytes 1) location').length_eq
  have hcount :
      ((d.refilled b.address bytes location' usage).without b.address usage').blocks.length =
      d.blocks.length := Nat.succ.inj ((hlaid.length_without hold usage').trans hlength)
  by_cases hsame : b.address.val = d.room bytes
  · -- the old buffer was a range without bytes at the end of a block, and is so again
    have hempty : bytes = 0 := by
      have hdisjoint := hspaced.disjoint_room hlive bytes
      omega
    have hkeeps : ∀ {a length location}, d.checkRange a length = .ok location →
        d.Keeps a length ((d.refilled b.address bytes location' usage).without b.address usage') :=
      fun hrange => hspaced.keeps_exchanged location' usage hrange hsame hempty usage'
    refine preserved_of_refilled hspaced ⟨location, ?_⟩ ?_ (fun _ => hcount)
      fun a length _ hrange _ _ => hkeeps hrange
    · rw [← hsame]
      exact (hkeeps hlive).range.trans hlive
    · rw [← hsame]
      exact (hkeeps hlive).bytes
  · obtain ⟨hthere, hfilled⟩ := hspaced.refilled_holds location' usage hlive
    have hstays := hspaced.refilled_moved location' usage hsame usage'
    exact preserved_of_refilled hspaced ⟨_, hstays.range.trans hthere⟩ (hstays.bytes.trans hfilled)
      (fun _ => hcount) fun a length _ hrange hother hoffered =>
        hspaced.keeps_moved location' usage hrange
          (hspaced.ne_room hrange hoffered bytes) hother usage'

include hdata

/-- The fresh block was filled by nothing and could not be given back. -/
theorem preserved_of_extended {status : Status} (cause : ε) :
    Preserved (.ok target) bytes b t d [.error status] (.error cause) t
      (d.extended bytes location') := by
  have hbelow := Nat.lt_of_le_of_lt (Nat.le_add_right _ _) (hspaced.lt_of_checkRange hlive)
  obtain ⟨location'', hthere, -⟩ :=
    HostDevice.exists_checkRange_extended hlive hbelow bytes location'
  refine preserved_of_keeps hdata ⟨_, hthere⟩
    (d.memory.read_clear_of_disjoint (hspaced.disjoint_room hlive bytes))
    (fun a length _ hrange hoffered =>
      hspaced.keeps_extended hrange (hspaced.ne_room hrange hoffered bytes) location')
    fun hgiven => ?_
  simp at hgiven

/-- The fresh block was given back. -/
theorem preserved_of_returned :
    Preserved (.ok target : Except ε DeviceKind) bytes b t d released result t
      ((d.extended bytes location').without ⟨d.room bytes⟩ usage) := by
  have hkeeps : ∀ {a length location}, d.checkRange a length = .ok location →
      d.Keeps a length ((d.extended bytes location').without ⟨d.room bytes⟩ usage) :=
    fun hrange => hspaced.keeps_returned hrange bytes location' usage
  refine preserved_of_keeps hdata ⟨location, (hkeeps hlive).range.trans hlive⟩ (hkeeps hlive).bytes
    (fun a length _ hrange _ => hkeeps hrange) fun _ => ?_
  exact congrArg List.length (hspaced.laid.filter_blocks_extended bytes location')

end Rebound

/-- Whichever call of a migration fails, the bytes are held. -/
theorem Migration.preserved (hspaced : (m.device mem.backend).Spaced)
    (hspares : m.Spares mem.backend []) (hdata : t.data = some b)
    (hbytes : t.totalBytes = .ok bytes)
    (hlive : (m.device mem.backend).checkRange b.address bytes = .ok location)
    (h : Migration mem b.address target m t released result m' t') :
    Preserved (.ok target : Except ε DeviceKind) bytes b t (m.device mem.backend) released result t'
      (m'.device mem.backend) := by
  cases h with
  | unsized _ => exact preserved_refl hdata hlive
  | unplaced _ hplace =>
      rw [(NativeAct.place_of_error hspares hplace).device]
      exact preserved_refl hdata hlive
  | @uncopied _ fresh status released m₁ m₂ _ hbytes' hplace hcopy hrelease =>
      cases hbytes.symm.trans hbytes'
      obtain ⟨rfl, location', hleaves₁⟩ := NativeAct.place_of_ok hspares hplace
      have hleaves₂ := NativeAct.memcpy_of_error hleaves₁.spares hcopy
      have hdevice₂ := hleaves₂.device.trans hleaves₁.device
      rcases released with status' | _
      · rw [(NativeAct.giveBack_of_error hleaves₂.spares hrelease).device, hdevice₂]
        exact preserved_of_extended hspaced hdata hlive location' _
      · obtain ⟨_, usage, -, hleaves₃⟩ := NativeAct.giveBack_of_ok hleaves₂.spares hrelease
        rw [hleaves₃.device, hdevice₂]
        exact preserved_of_returned hspaced hdata hlive location' usage
  | @rebound _ fresh released m₁ m₂ _ hbytes' hplace hcopy hrelease =>
      cases hbytes.symm.trans hbytes'
      obtain ⟨rfl, location', hleaves₁⟩ := NativeAct.place_of_ok hspares hplace
      obtain ⟨usage, hleaves₂⟩ := NativeAct.memcpy_of_ok hleaves₁.spares hcopy
      have hdevice₂ : m₂.device mem.backend =
          (m.device mem.backend).refilled b.address bytes location' usage := by
        rw [hleaves₂.device, hleaves₁.device]
        rfl
      rcases released with status' | _
      · rw [(NativeAct.giveBack_of_error hleaves₂.spares hrelease).device, hdevice₂]
        exact preserved_of_kept hspaced hlive location' usage _
      · obtain ⟨old, usage', hold, hleaves₃⟩ :=
          NativeAct.giveBack_of_ok hleaves₂.spares hrelease
        rw [hdevice₂] at hleaves₃ hold
        rw [hleaves₃.device]
        exact preserved_of_moved hspaced hlive location' usage hold usage'

/-! ### The ways to move a tensor -/

end Tensor

/-- The memory service only looks at the device when it is asked which one is active. -/
def TensorMemory.Observes {ε : Type} (mem : TensorMemory ε) : Prop :=
  ∀ m : Machine, m.Spares mem.backend [] →
    m.Leaves mem.backend [] (m.device mem.backend) (m.library mem.backend) (mem.activeDevice m).2

theorem observes_directMemory (backend : BackendId) : (directMemory backend).Observes := by
  intro m hspares
  have hthere : m.Spares backend [] := hspares
  have hlooked : ((directMemory backend).activeDevice m).2 =
      (NativeAct.currentDevice backend m).2 := by
    show ((do return (← NativeAct.currentDevice backend).1 : NativeAct DeviceKind) m).2 = _
    rw [Act.bind_apply]
    rcases NativeAct.currentDevice backend m with ⟨_ | _, _⟩ <;> rfl
  rw [hlooked, NativeAct.currentDevice, NativeAct.inspectDevice_eq_useDevice]
  obtain ⟨_, _, hresult, -, hleaves⟩ | ⟨_, _, _, hresult, hlook, hleaves⟩ :=
    NativeAct.useDevice_spares hthere .currentDevice fun thread d =>
      (Except.ok (d.selection thread)).map fun a => (a, d)
  · rw [hresult]
    exact hleaves
  · cases hlook
    rw [hresult]
    exact hleaves

theorem Engine.observes_memory (e : Engine) : e.memory.Observes := by
  intro m hspares
  have hlooked : (e.memory.activeDevice m).2 = m :=
    congrArg (fun answer => answer.2.1) (e.activeDevice_apply m default)
  rw [hlooked]
  exact hspares.refl

namespace Tensor

/-- A way to move the data of a tensor. -/
inductive Movement where
  | realise | toHost | toDevice

namespace Movement

def act {ε : Type} (mem : TensorMemory ε) : Movement → TensorAct ε Unit
  | realise => Tensor.realise mem
  | toHost => copyToHost mem
  | toDevice => copyToDevice mem

/-- Where the data are to go. -/
def target {ε : Type} (mem : TensorMemory ε) (m : Machine) : Movement → Except ε DeviceKind
  | toHost => .ok .cpu
  | _ => (mem.activeDevice m).1

end Movement

variable {ε : Type} {mem : TensorMemory ε} {m m' : Machine} {t t' : Tensor} {b : Buffer}
  {bytes : Nat} {location : Location} {target : DeviceKind} {released : List (Except Status Unit)}
  {result : Except ε Unit}

/-- How a movement goes: it is refused, it has nothing to do, or it is a migration. -/
inductive Movement.Goes (mem : TensorMemory ε) (m : Machine) (t : Tensor) (move : Movement) :
    List (Except Status Unit) → Except ε Unit → Machine → Tensor → Prop
  | refused {cause : ε} {m' : Machine} (hsame : m'.device mem.backend = m.device mem.backend) :
      Goes mem m t move [] (.error cause) m' t
  | idle {active : DeviceKind} {m' : Machine} (hmove : move = .realise) (hactive :
        mem.activeDevice m = (.ok active, m')) (hstays : (t.device.isCpu && !active.isCpu) = false)
      (hsame : m'.device mem.backend = m.device mem.backend) : Goes mem m t move [] (.ok ()) m' t
  | migrates {b : Buffer} {target : DeviceKind} {m₁ m' : Machine} {t' : Tensor}
      {released : List (Except Status Unit)} {result : Except ε Unit} (hdata : t.data = some b)
      (htarget : move.target mem m = .ok target)
      (hsame : m.Leaves mem.backend [] (m.device mem.backend) (m.library mem.backend) m₁)
      (hmigration : Migration mem b.address target m₁ t released result m' t') :
      Goes mem m t move released result m' t'

section Movement

variable (hobserves : mem.Observes) (hspares : m.Spares mem.backend []) (hdata : t.data = some b)
  (hbytes : t.totalBytes = .ok bytes) (move : Movement)

include hdata

theorem buffer_apply : buffer mem (m, t) = (.ok b, m, t) := by
  cases t
  cases hdata
  rfl

include hobserves hspares hbytes

/-- Every movement of a tensor with data goes one of these ways. -/
theorem movement_goes : ∃ released result m' t', move.act mem (m, t) = (result, m', t') ∧
    move.Goes mem m t released result m' t' := by
  have hactive := hobserves m hspares
  have hcheck : ∀ {m : Machine} (question : Tensor → Except GraphError Unit),
      ask mem question (m, t) = ((question t).mapError mem.ofGraph, m, t) := fun _ => rfl
  have hask : ∀ {answer : Except ε DeviceKind} {m₁ : Machine}, mem.activeDevice m = (answer, m₁) →
      onMachine mem.activeDevice (m, t) = (answer, m₁, t) := fun hanswer => by
    rw [onMachine, Act.on_apply, hanswer]
  cases move with
  | toHost =>
      rw [Movement.act, copyToHost]
      by_cases hcpu : t.device.isCpu = true
      · exact ⟨_, _, _, _,
          Act.bind_of_error ((hcheck _).trans (by rw [if_pos hcpu]; rfl)) _, .refused rfl⟩
      · rw [Act.bind_of_ok ((hcheck _).trans (by rw [if_neg hcpu]; rfl)),
          Act.bind_of_ok (buffer_apply hdata)]
        obtain ⟨released, result, m', t', hrun, hmigration⟩ :=
          migrate_migration mem b.address .cpu m t
        exact ⟨released, result, m', t', hrun, .migrates hdata rfl hspares.refl hmigration⟩
  | toDevice =>
      rw [Movement.act, copyToDevice]
      by_cases hcpu : t.device.isCpu = true
      · rw [Act.bind_of_ok ((hcheck _).trans (by rw [if_pos hcpu]; rfl))]
        rcases hanswer : mem.activeDevice m with ⟨cause | active, m₁⟩
        · rw [hanswer] at hactive
          exact ⟨_, _, _, _, Act.bind_of_error (hask hanswer) _, .refused hactive.device⟩
        rw [hanswer] at hactive
        rw [Act.bind_of_ok (hask hanswer)]
        by_cases hhost : active.isCpu = true
        · exact ⟨_, _, _, _, Act.bind_of_error ((hcheck _).trans (by rw [if_pos hhost]; rfl)) _,
            .refused hactive.device⟩
        · rw [Act.bind_of_ok ((hcheck _).trans (by rw [if_neg hhost]; rfl)),
            Act.bind_of_ok (buffer_apply hdata)]
          obtain ⟨released, result, m', t', hrun, hmigration⟩ :=
            migrate_migration mem b.address active m₁ t
          exact ⟨released, result, m', t', hrun,
            .migrates hdata (congrArg Prod.fst hanswer) hactive hmigration⟩
      · exact ⟨_, _, _, _,
          Act.bind_of_error ((hcheck _).trans (by rw [if_neg hcpu]; rfl)) _, .refused rfl⟩
  | realise =>
      rw [Movement.act, realise]
      rcases hanswer : mem.activeDevice m with ⟨cause | active, m₁⟩
      · rw [hanswer] at hactive
        exact ⟨_, _, _, _, Act.bind_of_error (hask hanswer) _, .refused hactive.device⟩
      rw [hanswer] at hactive
      have hsize : ask mem totalBytes (m₁, t) = (.ok bytes, m₁, t) := by
        rw [show ask mem totalBytes (m₁, t) =
          (t.totalBytes.mapError mem.ofGraph, m₁, t) from rfl, hbytes]
        rfl
      rw [Act.bind_of_ok (hask hanswer), Act.bind_of_ok hsize, Act.bind_of_ok (Act.get_apply _)]
      dsimp only
      rw [hdata]
      by_cases hpromotes : (t.device.isCpu && !active.isCpu) = true
      · dsimp only
        rw [if_pos hpromotes]
        obtain ⟨released, result, m', t', hrun, hmigration⟩ :=
          migrate_migration mem b.address active m₁ t
        exact ⟨released, result, m', t', hrun,
          .migrates hdata (congrArg Prod.fst hanswer) hactive hmigration⟩
      · dsimp only
        rw [if_neg hpromotes]
        exact ⟨_, _, _, _, rfl, .idle rfl hanswer (Bool.eq_false_iff.2 hpromotes) hactive.device⟩

end Movement

theorem Movement.Goes.preserved {move : Movement} (hspaced : (m.device mem.backend).Spaced)
    (hdata : t.data = some b) (hbytes : t.totalBytes = .ok bytes)
    (hlive : (m.device mem.backend).checkRange b.address bytes = .ok location)
    (hgoes : move.Goes mem m t released result m' t') :
    Preserved (move.target mem m) bytes b t (m.device mem.backend) released result t'
      (m'.device mem.backend) := by
  cases hgoes with
  | refused hsame =>
      rw [hsame]
      exact preserved_refl hdata hlive
  | idle _ _ _ hsame =>
      rw [hsame]
      exact preserved_refl hdata hlive
  | migrates hheld htarget hsame hmigration =>
      cases hdata.symm.trans hheld
      have hdevice := hsame.device
      rw [htarget, ← hdevice]
      exact hmigration.preserved (hdevice ▸ hspaced) hsame.spares hdata hbytes (hdevice ▸ hlive)

/-- However the data of a tensor are to be moved, and whichever call fails, the tensor holds its
bytes in one live buffer, the old one or a fresh one on the target, and nothing else on the device
is changed or left over. -/
theorem movement_preserves (hobserves : mem.Observes) (hthere : mem.backend < m.backends.length)
    (hreached : (m.device mem.backend).Reached) (hdata : t.data = some b)
    (hbytes : t.totalBytes = .ok bytes)
    (hlive : (m.device mem.backend).checkRange b.address bytes = .ok location) (move : Movement) :
    ∃ released result m' t', move.act mem (m, t) = (result, m', t') ∧
    move.Goes mem m t released result m' t' ∧
      Preserved (move.target mem m) bytes b t (m.device mem.backend) released result t'
        (m'.device mem.backend) := by
  obtain ⟨released, result, m', t', hrun, hgoes⟩ :=
    movement_goes hobserves ⟨hthere, fun _ _ => List.not_mem_nil⟩ hdata hbytes move
  exact ⟨released, result, m', t', hrun, hgoes, hgoes.preserved hreached.spaced hdata hbytes hlive⟩

/-- Four singles on the processor, and a thread on the accelerator. -/
def laden : HostDevice :=
  let placed := (HostDevice.fresh [.nvidia] 0x10000).extended 16 (.device .cpu 0)
  ({ placed with
    memory := placed.memory.write 0x10000 [1, 2, 3, 4]
    usage := placed.usage.recordCopy 4 } :
    HostDevice).choosing 0 .nvidia 0

theorem reached_laden : laden.Reached := by
  have hplaced : (HostDevice.fresh [.nvidia] 0x10000).malloc 0 16 = .ok (⟨0x10000⟩, _) :=
    HostDevice.allocate_of_lt _ (by decide) _
  have hwritten : ((HostDevice.fresh [.nvidia] 0x10000).extended 16 (.device .cpu 0)).upload
      ⟨0x10000⟩ [1, 2, 3, 4] = .ok _ := rfl
  exact ⟨[.nvidia], 0x10000, [], ((Relation.ReflTransGen.single (.malloc hplaced)).tail
    (.upload hwritten)).tail (.select (HostDevice.select_of_lt (by decide) 0))⟩

def quartet : Tensor :=
  { id := 1
    kind := .f32
    shape := ⟨[.const 4]⟩
    stride := ⟨[.const 1]⟩
    data := some ⟨⟨0x10000⟩, 16⟩ }

/-- The copy to the accelerator fails: the tensor keeps its buffer on the processor, and the fresh
one is given back. -/
theorem movement_preserves_uncopied :
    let m : Machine := ⟨[{ device := laden, faults := [⟨.memcpy, .internalError, 0, 1⟩] }], 0⟩
    (directMemory 0).Observes ∧ laden.Reached ∧
    laden.checkRange ⟨0x10000⟩ 16 = .ok (.device .cpu 0) ∧
      ∃ released m' t', Tensor.realise (directMemory 0) (m, quartet) =
        (.error (.device (.native .internalError)), m', t') ∧ t'.data = some ⟨⟨0x10000⟩, 16⟩ ∧
        Preserved (Movement.realise.target (directMemory 0) m) 16 ⟨⟨0x10000⟩, 16⟩ quartet laden
          released (.error (.device (.native .internalError))) t' (m'.device 0) := by
  intro m
  have hresult : (Tensor.realise (directMemory 0) (m, quartet)).1 =
      .error (.device (.native .internalError)) := by
    decide +kernel
  have hheld : (Tensor.realise (directMemory 0) (m, quartet)).2.2.data = some ⟨⟨0x10000⟩, 16⟩ := by
    decide +kernel
  obtain ⟨released, result, m', t', hrun, -, hpreserved⟩ := movement_preserves
    (observes_directMemory 0) (show 0 < m.backends.length by decide) reached_laden
    (show quartet.data = some ⟨⟨0x10000⟩, 16⟩ from rfl) (show quartet.totalBytes =
        .ok 16 by decide +kernel) (show laden.checkRange ⟨0x10000⟩ 16 =
        .ok (.device .cpu 0) by decide +kernel) .realise
  have hrun : Tensor.realise (directMemory 0) (m, quartet) = (result, m', t') := hrun
  rw [hrun] at hresult hheld
  obtain rfl : result = _ := hresult
  exact ⟨observes_directMemory 0, reached_laden, by decide +kernel, released, m', t', hrun,
    hheld, hpreserved⟩

end Tensor

end TensorDataflow
