import Mathlib.Data.List.Nodup
import TensorDataflow.Proofs.Machine.Faults
/-!
# What a library has in stock

Each of a library's tables holds what was made and has not been destroyed, under numbers of which
none is given out twice. So what is in stock is known up to its order from what was made and what
was destroyed, call by call: a call that makes something adds it or fails without a trace, and a
call that destroys something that is in stock, if no fault can strike it, takes away just that.
Building a descriptor adds a handle and a kernel or nothing, whichever of its calls fails.
-/

namespace TensorDataflow

/-- A table of certain entries, in any order, each under a number of its own that has been given
out. -/
structure Lists {α : Type} (lastId : Nat) (entries table : List (Nat × α)) : Prop where
  perm : table.Perm entries
  nodup : (entries.map Prod.fst).Nodup
  known : ∀ entry ∈ entries, entry.1 ≤ lastId

namespace Lists

variable {α : Type} {lastId : Nat} {entries table : List (Nat × α)}

theorem mono (h : Lists lastId entries table) {lastId' : Nat} (hle : lastId ≤ lastId') :
    Lists lastId' entries table :=
  ⟨h.perm, h.nodup, fun entry hentry => Nat.le_trans (h.known entry hentry) hle⟩

theorem congr (h : Lists lastId entries table) {entries' : List (Nat × α)}
    (hperm : entries.Perm entries') : Lists lastId entries' table :=
  ⟨h.perm.trans hperm, (hperm.map Prod.fst).nodup_iff.1 h.nodup,
    fun entry hentry => h.known entry (hperm.mem_iff.2 hentry)⟩

theorem add (h : Lists lastId entries table) (a : α) :
    Lists (lastId + 1) ((lastId + 1, a) :: entries) ((lastId + 1, a) :: table) where
  perm := h.perm.cons _
  nodup := by
    refine List.nodup_cons.2 ⟨fun hmem => ?_, h.nodup⟩
    obtain ⟨entry, hentry, hsame⟩ := List.mem_map.1 hmem
    exact absurd (hsame ▸ h.known entry hentry) (Nat.not_succ_le_self _)
  known := List.forall_mem_cons.2
    ⟨Nat.le_refl _, fun entry hentry => Nat.le_succ_of_le (h.known entry hentry)⟩

theorem lookup (h : Lists lastId entries table) {n : Nat} {a : α} (ha : (n, a) ∈ entries) :
    table.lookup n = some a := by
  have hnodup : (table.map Prod.fst).Nodup := (h.perm.map Prod.fst).nodup_iff.2 h.nodup
  have hmem : (n, a) ∈ table := h.perm.mem_iff.2 ha
  clear h ha
  induction table with
  | nil => cases hmem
  | cons entry table ih =>
      obtain ⟨hnew, hnodup⟩ := List.nodup_cons.1 hnodup
      rcases List.mem_cons.1 hmem with rfl | hmem
      · exact List.lookup_cons_self
      · have hne : n ≠ entry.1 := fun hsame => hnew (hsame ▸ List.mem_map_of_mem hmem)
        rw [List.lookup_cons, beq_eq_false_iff_ne.2 hne]
        exact ih hnodup hmem

theorem without {n : Nat} {a : α} (h : Lists lastId ((n, a) :: entries) table) :
    ∃ table', OpLibrary.without n table = .ok table' ∧ Lists lastId entries table' := by
  obtain ⟨hnew, hnodup⟩ := List.nodup_cons.1 h.nodup
  refine ⟨table.filter fun entry => entry.1 ≠ n, ?_, ?_, hnodup, (List.forall_mem_cons.1 h.known).2⟩
  · rw [OpLibrary.without, h.lookup List.mem_cons_self]
    rfl
  · have hperm := h.perm.filter fun entry => entry.1 ≠ n
    rw [List.filter_cons_of_neg (by simp)] at hperm
    have hothers : entries.filter (fun entry => entry.1 ≠ n) = entries := by
      refine List.filter_eq_self.2 fun entry hentry => decide_eq_true fun hsame => hnew ?_
      exact List.mem_map.2 ⟨entry, hentry, hsame⟩
    rwa [hothers] at hperm

end Lists

namespace OpLibrary

/-- What is in stock of each of the three sorts, when the numbers up to some number at least have
been given out. -/
structure Stocks (l : OpLibrary) (floor : Nat) (handles : List (Nat × DeviceKind × Nat))
    (tensors : List (Nat × OperandLayout)) (ops : List (Nat × CompiledOp)) : Prop where
  handles : Lists l.lastId handles l.handles
  tensors : Lists l.lastId tensors l.tensors
  ops : Lists l.lastId ops l.ops
  floor : floor ≤ l.lastId

namespace Stocks

variable {l l' : OpLibrary} {floor : Nat} {handles : List (Nat × DeviceKind × Nat)}
  {tensors : List (Nat × OperandLayout)} {ops : List (Nat × CompiledOp)}

theorem empty : ({} : OpLibrary).Stocks 0 [] [] [] :=
  ⟨⟨.nil, List.nodup_nil, nofun⟩, ⟨.nil, List.nodup_nil, nofun⟩, ⟨.nil, List.nodup_nil, nofun⟩,
    Nat.le_refl _⟩

section Create

variable (h : l.Stocks floor handles tensors ops)

include h

theorem createHandle {d : HostDevice} {kind : DeviceKind}
    {id handle : Nat} (hok : l.createHandle d kind id = .ok (handle, l')) :
    l'.Stocks floor ((handle, kind, id) :: handles) tensors ops := by
  obtain ⟨_, hmade⟩ := createHandle_eq_ok_iff.1 hok
  cases hmade
  exact ⟨h.handles.add _, h.tensors.mono (Nat.le_succ _), h.ops.mono (Nat.le_succ _),
    Nat.le_succ_of_le h.floor⟩

theorem createTensor {layout : OperandLayout} {desc : Nat}
    (hok : l.createTensor layout = .ok (desc, l')) :
    l'.Stocks floor handles ((desc, layout) :: tensors) ops := by
  rw [createTensor_of_accepted l (accepted_of_createTensor hok)] at hok
  cases hok
  exact ⟨h.handles.mono (Nat.le_succ _), h.tensors.add _, h.ops.mono (Nat.le_succ _),
    Nat.le_succ_of_le h.floor⟩

/-- An operator is compiled from the layouts of its tensor descriptors. -/
theorem createOp {handle desc : Nat} {op : NativeOp} {made : List (Nat × OperandLayout)}
    (hmade : ∀ entry ∈ made, entry ∈ tensors)
    (hok : l.createOp handle op (made.map Prod.fst) = .ok (desc, l')) :
    ∃ c, CompiledOp.compile op (made.map Prod.snd) = .ok c ∧ floor < desc ∧
    l'.Stocks floor handles tensors ((desc, c) :: ops) := by
  have hlookups : List.Forall₂ (fun desc layout => l.tensors.lookup desc = some layout)
      (made.map Prod.fst) (made.map Prod.snd) := by
    rw [List.forall₂_map_left_iff, List.forall₂_map_right_iff]
    exact List.forall₂_same.2 fun entry hentry => h.tensors.lookup (hmade entry hentry)
  have hhandle : (l.handles.lookup handle).isSome := by
    rw [OpLibrary.createOp] at hok
    cases hlookup : l.handles.lookup handle with
    | some _ => rfl
    | none =>
        rw [hlookup] at hok
        cases hok
  rw [createOp_eq hhandle op hlookups] at hok
  cases hcompile : CompiledOp.compile op (made.map Prod.snd) with
  | error status =>
      rw [hcompile] at hok
      cases hok
  | ok c =>
      rw [hcompile] at hok
      cases hok
      exact ⟨c, rfl, Nat.lt_succ_of_le h.floor, h.handles.mono (Nat.le_succ _),
        h.tensors.mono (Nat.le_succ _), h.ops.add c, Nat.le_succ_of_le h.floor⟩

end Create

theorem destroyHandle {handle : Nat} {a : DeviceKind × Nat}
    (h : l.Stocks floor ((handle, a) :: handles) tensors ops) :
    ∃ l', l.destroyHandle handle = .ok l' ∧ l'.Stocks floor handles tensors ops := by
  obtain ⟨table, htable, hlists⟩ := h.handles.without
  exact ⟨{ l with handles := table }, except_bind_eq_ok.2 ⟨table, htable, rfl⟩, hlists, h.tensors,
    h.ops, h.floor⟩

theorem destroyTensor {desc : Nat} {layout : OperandLayout}
    (h : l.Stocks floor handles ((desc, layout) :: tensors) ops) :
    ∃ l', l.destroyTensor desc = .ok l' ∧ l'.Stocks floor handles tensors ops := by
  obtain ⟨table, htable, hlists⟩ := h.tensors.without
  exact ⟨{ l with tensors := table }, except_bind_eq_ok.2 ⟨table, htable, rfl⟩, h.handles, hlists,
    h.ops, h.floor⟩

theorem destroyOp {desc : Nat} {c : CompiledOp}
    (h : l.Stocks floor handles tensors ((desc, c) :: ops)) :
    ∃ l', l.destroyOp desc = .ok l' ∧ l'.Stocks floor handles tensors ops := by
  obtain ⟨table, htable, hlists⟩ := h.ops.without
  exact ⟨{ l with ops := table }, except_bind_eq_ok.2 ⟨table, htable, rfl⟩, h.handles, h.tensors,
    hlists, h.floor⟩

theorem live (h : l.Stocks floor handles tensors ops) :
    l.live = (handles.length, tensors.length, ops.length) := by
  rw [OpLibrary.live, h.handles.perm.length_eq, h.tensors.perm.length_eq, h.ops.perm.length_eq]

end Stocks

end OpLibrary

/-! ### Calls on a machine -/

/-- The calls by which descriptors go. -/
def NativeCall.destroys : List NativeCall := [.destroyHandle, .destroyTensor, .destroyOp]

namespace Machine

/-- What the library of a backend has in stock, where no fault is planned for the calls that destroy
it. -/
structure Stocked (id : BackendId) (floor : Nat) (handles : List (Nat × DeviceKind × Nat))
    (tensors : List (Nat × OperandLayout)) (ops : List (Nat × CompiledOp))
    (m : Machine) : Prop where
  spares : m.Spares id NativeCall.destroys
  stocks : (m.library id).Stocks floor handles tensors ops

end Machine

variable {lib : LibraryRef} {floor : Nat} {handles : List (Nat × DeviceKind × Nat)}
  {tensors : List (Nat × OperandLayout)} {ops : List (Nat × CompiledOp)} {m : Machine}

theorem Machine.Leaves.stocked {id : BackendId} {d : HostDevice} {l : OpLibrary}
    {m' : Machine} (hleaves : m.Leaves id NativeCall.destroys d l m')
    (hstocks : l.Stocks floor handles tensors ops) :
    m'.Stocked id floor handles tensors ops := ⟨hleaves.spares, hleaves.library ▸ hstocks⟩

namespace NativeAct

/-- A call that makes something fails without a trace or adds it to the stock. -/
theorem makeDescriptor_stocked (h : m.Stocked lib.backend floor handles tensors ops)
    (call : NativeCall) {make : Backend → Except Status (Nat × OpLibrary)}
    (hmake : ∀ b faults, make { b with faults } = make b)
    {P : Nat → OpLibrary → Prop}
    (hok : ∀ id l, make (m.backend lib.backend) = .ok (id, l) → P id l) :
    (∃ status m', makeDescriptor lib call make m = (.error status, m') ∧
      m'.Stocked lib.backend floor handles tensors ops) ∨
      ∃ id m', makeDescriptor lib call make m = (.ok id, m') ∧
      m'.Spares lib.backend NativeCall.destroys ∧ P id (m'.library lib.backend) := by
  obtain ⟨status, m', hfailed, hleaves⟩ | ⟨id, l, m', hdone, hmade, hleaves⟩ :=
    makeDescriptor_spares h.spares call make hmake
  · exact .inl ⟨status, m', hfailed, hleaves.stocked h.stocks⟩
  · exact .inr ⟨id, m', hdone, hleaves.spares, hleaves.library ▸ hok id l hmade⟩

theorem createHandle_stocked (h : m.Stocked lib.backend floor handles tensors ops)
    (kind : DeviceKind) (deviceId : Nat) :
    (∃ status m', createHandle lib kind deviceId m = (.error status, m') ∧
      m'.Stocked lib.backend floor handles tensors ops) ∨
      ∃ handle m', createHandle lib kind deviceId m = (.ok handle, m') ∧
      m'.Stocked lib.backend floor ((handle, kind, deviceId) :: handles) tensors ops := by
  refine (makeDescriptor_stocked h .createHandle (fun _ _ => rfl) fun handle l hok =>
    h.stocks.createHandle hok).imp_right ?_
  rintro ⟨handle, m', hdone, hspares, hstocks⟩
  exact ⟨handle, m', hdone, hspares, hstocks⟩

theorem createTensor_stocked (h : m.Stocked lib.backend floor handles tensors ops)
    (layout : OperandLayout) :
    (∃ status m', createTensor lib layout m = (.error status, m') ∧
      m'.Stocked lib.backend floor handles tensors ops) ∨
      ∃ desc m', createTensor lib layout m = (.ok desc, m') ∧
      m'.Stocked lib.backend floor handles ((desc, layout) :: tensors) ops := by
  refine (makeDescriptor_stocked h .createTensor (fun _ _ => rfl) fun desc l hok =>
      h.stocks.createTensor hok).imp_right ?_
  rintro ⟨desc, m', hdone, hspares, hstocks⟩
  exact ⟨desc, m', hdone, hspares, hstocks⟩

theorem createOp_stocked (h : m.Stocked lib.backend floor handles tensors ops) (handle : Nat)
    (op : NativeOp) {made : List (Nat × OperandLayout)} (hmade : ∀ entry ∈ made, entry ∈ tensors) :
    (∃ status m', createOp lib handle op (made.map Prod.fst) m = (.error status, m') ∧
      m'.Stocked lib.backend floor handles tensors ops) ∨
      ∃ desc c m', createOp lib handle op (made.map Prod.fst) m = (.ok desc, m') ∧
      CompiledOp.compile op (made.map Prod.snd) = .ok c ∧ floor < desc ∧
        m'.Stocked lib.backend floor handles tensors ((desc, c) :: ops) := by
  refine (makeDescriptor_stocked h .createOp (fun _ _ => rfl) fun desc l hok =>
      h.stocks.createOp hmade hok).imp_right ?_
  rintro ⟨desc, m', hdone, hspares, c, hcompile, hnew, hstocks⟩
  exact ⟨desc, c, m', hdone, hcompile, hnew, hspares, hstocks⟩

/-- A call that destroys what is in stock goes through. -/
theorem changeLibrary_stocked {handles' : List (Nat × DeviceKind × Nat)}
    {tensors' : List (Nat × OperandLayout)} {ops' : List (Nat × CompiledOp)}
    (h : m.Stocked lib.backend floor handles tensors ops) {call : NativeCall}
    (hcall : call ∈ NativeCall.destroys) {change : OpLibrary → Except Status OpLibrary}
    (hchange : ∃ l, change (m.library lib.backend) = .ok l ∧
      l.Stocks floor handles' tensors' ops') :
    ∃ m', changeLibrary lib call change m = (.ok (), m') ∧
    m'.Stocked lib.backend floor handles' tensors' ops' := by
  obtain ⟨l, hl, hstocks⟩ := hchange
  obtain ⟨m', hdone, hleaves⟩ := changeLibrary_spares h.spares hcall hl
  exact ⟨m', hdone, hleaves.stocked hstocks⟩

theorem destroyHandle_stocked {handle : Nat} {a : DeviceKind × Nat}
    (h : m.Stocked lib.backend floor ((handle, a) :: handles) tensors ops) :
    ∃ m', destroyHandle lib handle m = (.ok (), m') ∧
    m'.Stocked lib.backend floor handles tensors ops :=
  changeLibrary_stocked h (by decide) h.stocks.destroyHandle

theorem destroyTensor_stocked {desc : Nat} {layout : OperandLayout}
    (h : m.Stocked lib.backend floor handles ((desc, layout) :: tensors) ops) :
    ∃ m', destroyTensor lib desc m = (.ok (), m') ∧
    m'.Stocked lib.backend floor handles tensors ops :=
  changeLibrary_stocked h (by decide) h.stocks.destroyTensor

theorem destroyOp_stocked {desc : Nat} {c : CompiledOp}
    (h : m.Stocked lib.backend floor handles tensors ((desc, c) :: ops)) :
    ∃ m', destroyOp lib desc m = (.ok (), m') ∧ m'.Stocked lib.backend floor handles tensors ops :=
  changeLibrary_stocked h (by decide) h.stocks.destroyOp

end NativeAct

theorem Machine.Stocked.congr {id : BackendId} (h : m.Stocked id floor handles tensors ops)
    {handles' : List (Nat × DeviceKind × Nat)} {tensors' : List (Nat × OperandLayout)}
    {ops' : List (Nat × CompiledOp)}
    (hhandles : handles.Perm handles') (htensors : tensors.Perm tensors') (hops : ops.Perm ops') :
    m.Stocked id floor handles' tensors' ops' :=
  ⟨h.spares, h.stocks.handles.congr hhandles, h.stocks.tensors.congr htensors,
    h.stocks.ops.congr hops, h.stocks.floor⟩

theorem Machine.Stocked.elsewhere {id other : BackendId}
    (h : m.Stocked id floor handles tensors ops) (hother : other ≠ id) (b : Backend) :
    (m.setBackend other b).Stocked id floor handles tensors ops := by
  have hsame := m.backend_setBackend_of_ne hother b
  refine ⟨⟨?_, hsame ▸ h.spares.faults⟩, ?_⟩
  · rw [setBackend, List.length_set]
    exact h.spares.there
  · rw [library, hsame]
    exact h.stocks

/-! ### Building a descriptor -/

namespace Graph

/-- The tensor descriptors that were made are in stock besides all else, whether all of them could
be made or not. -/
theorem createTensors_stocked (h : m.Stocked lib.backend floor handles tensors ops)
    (layouts : List OperandLayout) :
    ∃ result made m', createTensors lib layouts m = ((result, made.map Prod.fst), m') ∧
    m'.Stocked lib.backend floor handles (made ++ tensors) ops ∧
    (result = .ok () → made.map Prod.snd = layouts) := by
  induction layouts generalizing m tensors with
  | nil => exact ⟨.ok (), [], m, rfl, h, fun _ => rfl⟩
  | cons layout rest ih =>
      rw [createTensors]
      dsimp only
      obtain ⟨status, m₁, hfailed, hstocked⟩ | ⟨desc, m₁, hdone, hstocked⟩ :=
        NativeAct.createTensor_stocked h layout
      · rw [hfailed]
        refine ⟨.error status, [], m₁, rfl, hstocked, fun hok => ?_⟩
        cases hok
      · obtain ⟨result, made, m', hrest, hstocked', hlayouts⟩ := ih hstocked
        rw [hdone]
        dsimp only
        rw [hrest]
        exact ⟨result, (desc, layout) :: made, m', rfl,
          hstocked'.congr (.refl _) List.perm_middle (.refl _),
          fun hok => congrArg (layout :: ·) (hlayouts hok)⟩

theorem destroyTensors_stocked {made : List (Nat × OperandLayout)}
    (h : m.Stocked lib.backend floor handles (made ++ tensors) ops) :
    ∃ m',
    ((made.map Prod.fst).forM fun d => (NativeAct.destroyTensor lib d).attempt : NativeAct Unit) m =
      (.ok (), m') ∧ m'.Stocked lib.backend floor handles tensors ops := by
  induction made generalizing m with
  | nil => exact ⟨m, rfl, h⟩
  | cons entry made ih =>
      obtain ⟨m₁, hfirst, hstocked⟩ := NativeAct.destroyTensor_stocked h
      obtain ⟨m', hrest, hstocked'⟩ := ih hstocked
      refine ⟨m', ?_, hstocked'⟩
      rw [List.map_cons, List.forM_eq_forM, List.forM_cons, ← List.forM_eq_forM]
      rw [Act.bind_of_ok (show (NativeAct.destroyTensor lib entry.1).attempt m =
          (.ok (), m₁) by rw [Act.attempt_apply, hfirst])]
      exact hrest

theorem compileOperator_stocked (h : m.Stocked lib.backend floor handles tensors ops) (handle : Nat)
    (op : NativeOp) (operands : List OperandLayout) :
    (∃ status m', compileOperator lib handle op operands m = (.error status, m') ∧
      m'.Stocked lib.backend floor handles tensors ops) ∨
      ∃ desc c m', compileOperator lib handle op operands m = (.ok desc, m') ∧
      CompiledOp.compile op operands = .ok c ∧ floor < desc ∧
        m'.Stocked lib.backend floor handles tensors ((desc, c) :: ops) := by
  obtain ⟨result, made, m₁, hcreated, hstocked₁, hlayouts⟩ := createTensors_stocked h operands
  rw [compileOperator, hcreated]
  dsimp only
  -- on each of the three ways out the tensor descriptors that were made are destroyed
  cases result with
  | error status =>
      obtain ⟨m', hdestroyed, hstocked'⟩ := destroyTensors_stocked hstocked₁
      rw [Act.bind_of_error (Act.ofExcept_apply _ _)]
      dsimp only
      rw [hdestroyed]
      exact .inl ⟨status, m', rfl, hstocked'⟩
  | ok _ =>
      rw [Act.bind_of_ok (Act.ofExcept_apply _ _)]
      obtain ⟨status, m₂, hfailed, hstocked₂⟩ | ⟨desc, c, m₂, hdone, hcompile, hnew, hstocked₂⟩ :=
        NativeAct.createOp_stocked hstocked₁ handle op fun entry hentry =>
          List.mem_append_left tensors hentry
      · obtain ⟨m', hdestroyed, hstocked'⟩ := destroyTensors_stocked hstocked₂
        rw [hfailed]
        dsimp only
        rw [hdestroyed]
        exact .inl ⟨status, m', rfl, hstocked'⟩
      · obtain ⟨m', hdestroyed, hstocked'⟩ := destroyTensors_stocked hstocked₂
        rw [hdone]
        dsimp only
        rw [hdestroyed]
        rw [hlayouts rfl] at hcompile
        exact .inr ⟨desc, c, m', rfl, hcompile, hnew, hstocked'⟩

/-- Whichever call fails, nothing is left of a descriptor that could not be built. -/
theorem buildDescriptor_stocked (h : m.Stocked lib.backend floor handles tensors ops)
    (device : DeviceKind) (deviceId : Nat) (op : NativeOp) (operands : List OperandLayout) :
    (∃ status m', buildDescriptor lib device deviceId op operands m = (.error status, m') ∧
      m'.Stocked lib.backend floor handles tensors ops) ∨
      ∃ handle desc c m', buildDescriptor lib device deviceId op operands m =
        (.ok ⟨lib, handle, desc, device, deviceId⟩, m') ∧ CompiledOp.compile op operands = .ok c ∧
      floor < desc ∧
        m'.Stocked lib.backend floor ((handle, device, deviceId) :: handles) tensors
          ((desc, c) :: ops) := by
  rw [buildDescriptor]
  obtain ⟨status, m₁, hfailed, hstocked₁⟩ | ⟨handle, m₁, hhandle, hstocked₁⟩ :=
    NativeAct.createHandle_stocked h device deviceId
  · rw [Act.bind_of_error hfailed]
    exact .inl ⟨status, m₁, rfl, hstocked₁⟩
  · rw [Act.bind_of_ok hhandle]
    obtain ⟨status, m₂, hfailed, hstocked₂⟩ | ⟨desc, c, m₂, hdone, hcompile, hnew, hstocked₂⟩ :=
      compileOperator_stocked hstocked₁ handle op operands
    · obtain ⟨m', hdestroyed, hstocked'⟩ := NativeAct.destroyHandle_stocked hstocked₂
      refine .inl ⟨status, m', ?_, hstocked'⟩
      have hcaught : (tryCatch (compileOperator lib handle op operands) fun status => do
          (NativeAct.destroyHandle lib handle).attempt
          throw status) m₁ = (.error status, m') := by
        rw [Act.tryCatch_of_error hfailed, Act.bind_of_ok (Act.attempt_apply _ _), hdestroyed]
        rfl
      exact Act.bind_of_error hcaught _
    · rw [Act.bind_of_ok (Act.tryCatch_of_ok hdone _)]
      exact .inr ⟨handle, desc, c, m₂, rfl, hcompile, hnew, hstocked₂⟩

end Graph

theorem Descriptor.destroy_stocked {ε : Type} {d : Descriptor} {a : DeviceKind × Nat}
    {c : CompiledOp} (h : m.Stocked d.library.backend floor ((d.handle, a) :: handles)
      tensors ((d.desc, c) :: ops)) :
    ∃ m', (d.destroy : Act Machine ε Unit) m = (.ok (), m') ∧
    m'.Stocked d.library.backend floor handles tensors ops := by
  obtain ⟨m₁, hop, hstocked₁⟩ := NativeAct.destroyOp_stocked h
  obtain ⟨m', hhandle, hstocked'⟩ := NativeAct.destroyHandle_stocked hstocked₁
  refine ⟨m', ?_, hstocked'⟩
  rw [destroy, Act.bind_of_ok (show (NativeAct.destroyOp d.library d.desc).attempt m =
      (.ok (), m₁) by rw [Act.attempt_apply, hop]), Act.attempt_apply, hhandle]

/-! ### Calls that leave the library alone -/

/-- Whatever a library has in stock, it still has. -/
def Machine.KeepsStock (id : BackendId) (m m' : Machine) : Prop :=
  ∀ floor handles tensors ops, m.Stocked id floor handles tensors ops →
    m'.Stocked id floor handles tensors ops

instance (id : BackendId) : IsPreorder Machine (Machine.KeepsStock id) where
  refl _ _ _ _ _ h := h
  trans _ _ _ h h' floor handles tensors ops hm :=
    h' floor handles tensors ops (h floor handles tensors ops hm)

namespace NativeAct

open Machine (KeepsStock)

variable {id : BackendId}

/-- A call to any backend that leaves its library and its faults alone. -/
theorem invoke_keepsStock {α : Type} {call : NativeCall}
    {body : ThreadId → Backend → Except Status (α × Backend)}
    (hbody : ∀ thread b a b', body thread b = .ok (a, b') → b'.library = b.library ∧
      b'.faults = b.faults) : (invoke lib call body).Keeps (KeepsStock id) := by
  intro m floor handles tensors ops h
  by_cases hid : lib.backend = id
  · subst hid
    have hfailed : ∀ faults, (∀ f ∈ faults, f.call ∉ NativeCall.destroys) →
        (m.setBackend lib.backend { m.backend lib.backend with faults }).Stocked lib.backend floor
        handles tensors ops :=
      fun faults hfaults => (h.spares.leaves hfaults).stocked h.stocks
    obtain ⟨faults, hfaults, ⟨status, -, hstruck⟩ | hdone⟩ := invoke_spares h.spares call body
    · rw [hstruck]
      exact hfailed faults hfaults
    · rw [hdone]
      split
      · next a b hok =>
          obtain ⟨hlibrary, hsame⟩ := hbody _ _ _ _ hok
          refine (h.spares.leaves (hsame ▸ hfaults)).stocked ?_
          rw [hlibrary]
          exact h.stocks
      · exact hfailed faults hfaults
  · rw [invoke]
    dsimp only
    split
    · exact h.elsewhere hid _
    · split
      · exact h.elsewhere hid _
      · exact h.elsewhere hid _

theorem useDevice_keepsStock {α : Type} {backend : BackendId} {call : NativeCall}
    {use : ThreadId → HostDevice → Except Status (α × HostDevice)} :
    (useDevice backend call use).Keeps (KeepsStock id) := by
  refine invoke_keepsStock fun thread b a b' hok => ?_
  obtain ⟨result, _, hb'⟩ := except_bind_eq_ok.1 hok
  cases hb'
  exact ⟨rfl, rfl⟩

theorem changeDevice_keepsStock {backend : BackendId} {call : NativeCall}
    {change : ThreadId → HostDevice → Except Status HostDevice} :
    (changeDevice backend call change).Keeps (KeepsStock id) := by
  rw [changeDevice_eq_useDevice]
  exact useDevice_keepsStock

theorem inspectDevice_keepsStock {α : Type} {backend : BackendId} {call : NativeCall}
    {look : ThreadId → HostDevice → Except Status α} :
    (inspectDevice backend call look).Keeps (KeepsStock id) := by
  rw [inspectDevice_eq_useDevice]
  exact useDevice_keepsStock

theorem logged_library (entry : LogEntry) (b : Backend) :
    (logged lib entry b).library = b.library ∧ (logged lib entry b).faults = b.faults := by
  rw [logged]
  split
  · exact ⟨rfl, rfl⟩
  · exact ⟨rfl, rfl⟩

theorem workspaceSize_keepsStock (desc : Nat) : (workspaceSize lib desc).Keeps (KeepsStock id) := by
  refine invoke_keepsStock fun thread b a b' hok => ?_
  obtain ⟨size, _, hb'⟩ := except_bind_eq_ok.1 hok
  cases hb'
  exact logged_library _ b

theorem launch_keepsStock (desc : Nat) (workspace : Address) (size : Nat)
    (outputs inputs : List Address) (args : LaunchArgs) :
    (launch lib desc workspace size outputs inputs args).Keeps (KeepsStock id) := by
  refine (invoke_keepsStock fun thread b a b' hok => ?_).bind fun _ =>
    invoke_keepsStock fun thread b a b' hok => ?_
  · cases hok
    exact logged_library _ b
  · obtain ⟨d, _, hb'⟩ := except_bind_eq_ok.1 hok
    cases hb'
    exact ⟨rfl, rfl⟩

end NativeAct

end TensorDataflow
