import TensorDataflow.Proofs.Graph.Furnishing
import TensorDataflow.Proofs.Graph.Retention
import TensorDataflow.Proofs.Library.Stock
/-!
# Accounts of descriptors

An operator that has a descriptor holds its handle and its kernel in the library, and nobody else
does. So as long as what is in stock is what operators hold, a descriptor that is released or given
up takes just its own out, and one that is built adds just its own, under a new number; a kernel
stays as it was compiled for as long as it is held. What an entry of the accounts says of its kernel
is a parameter here, which every kernel that a graph compiles has to satisfy.
-/

namespace TensorDataflow

theorem perm_cons_of_map_perm {α β : Type} {f : α → β} {xs : List α}
    {y : β} {ys : List β} (h : (xs.map f).Perm (y :: ys)) :
    ∃ x rest, xs.Perm (x :: rest) ∧ f x = y ∧ (rest.map f).Perm ys := by
  obtain ⟨x, hx, rfl⟩ := List.mem_map.1 (h.symm.subset List.mem_cons_self)
  obtain ⟨before, after, rfl⟩ := List.mem_iff_append.1 hx
  refine ⟨x, before ++ after, List.perm_middle, rfl, List.Perm.cons_inv (a := f x) ?_⟩
  exact ((List.perm_middle.map f).symm).trans h

/-! ### Entries -/

/-- The number of an operator with the descriptor that it has, if any. -/
def Operator.held (op : Operator) : Option (OpId × Descriptor) :=
  op.descriptor.map fun d => (op.id, d)

/-- What operators hold. -/
def heldBy (ops : List Operator) : List (OpId × Descriptor) := ops.filterMap Operator.held

theorem heldBy_append (xs ys : List Operator) : heldBy (xs ++ ys) = heldBy xs ++ heldBy ys :=
  List.filterMap_append

theorem heldBy_perm {xs ys : List Operator} (h : xs.Perm ys) : (heldBy xs).Perm (heldBy ys) :=
  h.filterMap _

theorem length_heldBy (ops : List Operator) :
    (heldBy ops).length = ops.countP fun op => op.descriptor.isSome := by
  induction ops with
  | nil => rfl
  | cons op ops ih =>
      rw [List.countP_cons, ← ih, heldBy]
      cases hdescriptor : op.descriptor with
      | none =>
          rw [List.filterMap_cons_none (by rw [Operator.held, hdescriptor, Option.map_none]),
            heldBy, Option.isSome_none, if_neg Bool.false_ne_true, Nat.add_zero]
      | some d =>
          rw [List.filterMap_cons_some (by rw [Operator.held, hdescriptor, Option.map_some]),
            List.length_cons, heldBy, Option.isSome_some, if_pos rfl]

/-- Connecting an operator changes nothing of what is held, apart from what the operator brings
along. -/
theorem heldBy_connect (g : Graph) (op : Operator) :
    heldBy (g.connect op).ops = heldBy (g.ops ++ [op]) := by
  rw [Graph.connect_eq, heldBy_append, heldBy_append, heldBy, List.filterMap_map]
  rfl

theorem Draft.Grows.heldBy {d d' : Draft} (h : Grows d d') :
    heldBy d'.graph.ops = heldBy d.graph.ops := by
  induction h with
  | refl => rfl
  | elsewhere _ _ _ ih => exact ih
  | tensor _ _ ih => exact ih
  | operator _ _ ih =>
      rw [pushOperator, heldBy_connect, heldBy_append, ih]
      exact List.append_nil _

/-- An operator's descriptor with the kernel behind it. -/
structure Entry where
  op : OpId
  descriptor : Descriptor
  compiled : CompiledOp

namespace Entry

def held (e : Entry) : OpId × Descriptor := (e.op, e.descriptor)

def handle (e : Entry) : Nat × DeviceKind × Nat :=
  (e.descriptor.handle, e.descriptor.device, e.descriptor.deviceId)

def kernel (e : Entry) : Nat × CompiledOp := (e.descriptor.desc, e.compiled)

end Entry

/-- What is in stock is what is held, and each entry is as it should be; the numbers up to some
number at least have been given out. -/
def Machine.Accounts (id : BackendId) (floor : Nat) (Q : Entry → Prop)
    (held : List (OpId × Descriptor)) (m : Machine) : Prop :=
  ∃ entries : List Entry, (entries.map Entry.held).Perm held ∧
    m.Stocked id floor (entries.map Entry.handle) [] (entries.map Entry.kernel) ∧
    ∀ e ∈ entries, e.descriptor.library.backend = id ∧ Q e

namespace Machine.Accounts

variable {id : BackendId} {floor : Nat} {Q : Entry → Prop} {held : List (OpId × Descriptor)}
  {m : Machine} (h : m.Accounts id floor Q held)

include h

theorem congr {held' : List (OpId × Descriptor)} (hperm : held.Perm held') :
    m.Accounts id floor Q held' := by
  obtain ⟨entries, hentries, hrest⟩ := h
  exact ⟨entries, hentries.trans hperm, hrest⟩

theorem mono {Q' : Entry → Prop} (hQ : ∀ e : Entry, e.held ∈ held → Q e → Q' e) :
    m.Accounts id floor Q' held := by
  obtain ⟨entries, hentries, hstocked, hall⟩ := h
  exact ⟨entries, hentries, hstocked,
    fun e he => ⟨(hall e he).1, hQ e (hentries.subset (List.mem_map_of_mem he)) (hall e he).2⟩⟩

theorem keepsStock {m' : Machine} (hkeeps : m.KeepsStock id m') : m'.Accounts id floor Q held := by
  obtain ⟨entries, hentries, hstocked, hall⟩ := h
  exact ⟨entries, hentries, hkeeps _ _ _ _ hstocked, hall⟩

theorem live : (m.library id).live = (held.length, 0, held.length) := by
  obtain ⟨entries, hentries, hstocked, -⟩ := h
  have hlength := hentries.length_eq
  rw [List.length_map] at hlength
  rw [hstocked.stocks.live, List.length_map, List.length_map, hlength, List.length_nil]

/-- The kernel of what is held is as its entry says. -/
theorem kernel {x : OpId} {d : Descriptor} (hd : (x, d) ∈ held) :
    ∃ c, (m.library id).ops.lookup d.desc = some c ∧ Q ⟨x, d, c⟩ := by
  obtain ⟨entries, hentries, hstocked, hall⟩ := h
  obtain ⟨e, he, hheld⟩ := List.mem_map.1 (hentries.symm.subset hd)
  obtain ⟨rfl, rfl⟩ := Prod.mk.inj hheld
  exact ⟨e.compiled, hstocked.stocks.ops.lookup (List.mem_map_of_mem (f := Entry.kernel) he),
    (hall e he).2⟩

/-- What is held has been given out. -/
theorem known {x : OpId} {d : Descriptor} (hd : (x, d) ∈ held) :
    d.desc ≤ (m.library id).lastId := by
  obtain ⟨entries, hentries, hstocked, -⟩ := h
  obtain ⟨e, he, hheld⟩ := List.mem_map.1 (hentries.symm.subset hd)
  obtain ⟨rfl, rfl⟩ := Prod.mk.inj hheld
  exact hstocked.stocks.ops.known e.kernel (List.mem_map_of_mem he)

theorem raise : m.Accounts id (m.library id).lastId Q held := by
  obtain ⟨entries, hentries, hstocked, hall⟩ := h
  exact ⟨entries, hentries, ⟨hstocked.spares, hstocked.stocks.handles, hstocked.stocks.tensors,
      hstocked.stocks.ops, Nat.le_refl _⟩, hall⟩

omit h in
/-- A descriptor that goes takes its own handle and kernel with it. -/
theorem destroy {x : OpId} {d : Descriptor} (h : m.Accounts id floor Q ((x, d) :: held))
    {ε : Type} : ((d.destroy : Act Machine ε Unit) m).2.Accounts id floor Q held := by
  obtain ⟨entries, hentries, hstocked, hall⟩ := h
  obtain ⟨e, rest, hperm, hheld, hrest⟩ := perm_cons_of_map_perm hentries
  obtain ⟨rfl, rfl⟩ := Prod.mk.inj hheld
  obtain rfl := (hall e (hperm.symm.subset List.mem_cons_self)).1
  obtain ⟨m', hdone, hstocked'⟩ :=
    Descriptor.destroy_stocked (ε := ε) (hstocked.congr (hperm.map _) (.refl _) (hperm.map _))
  rw [hdone]
  exact ⟨rest, hrest, hstocked',
    fun e' he' => hall e' (hperm.symm.subset (List.mem_cons_of_mem _ he'))⟩

omit h in
theorem dropAll {ops : List Operator} (h : m.Accounts id floor Q (heldBy ops ++ held)) {ε : Type} :
    ((Operator.dropAll ops : Act Machine ε Unit) m).2.Accounts id floor Q held := by
  rw [Operator.dropAll, List.forM_eq_forM]
  induction ops generalizing m with
  | nil => exact h
  | cons op ops ih =>
      cases hdescriptor : op.descriptor with
      | none =>
          rw [heldBy,
            List.filterMap_cons_none (by rw [Operator.held, hdescriptor, Option.map_none])] at h
          rw [List.filterMap_cons_none hdescriptor]
          exact ih h
      | some d =>
          rw [heldBy,
            List.filterMap_cons_some (by rw [Operator.held, hdescriptor, Option.map_some])] at h
          rw [List.filterMap_cons_some hdescriptor, List.forM_cons, Act.bind_apply]
          have hdestroyed := destroy (ε := ε) h
          have hok := d.destroy_apply (ε := ε) m
          rcases hresult : (d.destroy : Act Machine ε Unit) m with ⟨_ | _, m'⟩
          · rw [hresult] at hok
            cases hok
          · rw [hresult] at hdestroyed
            exact ih hdestroyed

theorem build {lib : LibraryRef} (hlib : lib.backend = id) (x : OpId) (device : DeviceKind)
    (deviceId : Nat) {op : NativeOp} {operands : List OperandLayout}
    (hQ : ∀ d c, floor < d.desc → CompiledOp.compile op operands = .ok c → Q ⟨x, d, c⟩) :
    (∃ status m', Graph.buildDescriptor lib device deviceId op operands m = (.error status, m') ∧
      m'.Accounts id floor Q held) ∨
      ∃ handle desc c m', Graph.buildDescriptor lib device deviceId op operands m =
        (.ok ⟨lib, handle, desc, device, deviceId⟩, m') ∧ CompiledOp.compile op operands = .ok c ∧
        (m'.library id).ops.lookup desc = some c ∧
        m'.Accounts id floor Q ((x, ⟨lib, handle, desc, device, deviceId⟩) :: held) := by
  subst hlib
  obtain ⟨entries, hentries, hstocked, hall⟩ := h
  obtain ⟨status, m', hfailed, hstocked'⟩ | ⟨handle, desc, c, m', hdone, hcompile, hnew,
        hstocked'⟩ := Graph.buildDescriptor_stocked hstocked device deviceId op operands
  · exact .inl ⟨status, m', hfailed, entries, hentries, hstocked', hall⟩
  · refine .inr ⟨handle, desc, c, m', hdone, hcompile,
      hstocked'.stocks.ops.lookup List.mem_cons_self,
      ⟨x, ⟨lib, handle, desc, device, deviceId⟩, c⟩ :: entries, hentries.cons _, hstocked', ?_⟩
    exact List.forall_mem_cons.2 ⟨⟨rfl, hQ _ c hnew hcompile⟩, hall⟩

end Machine.Accounts

namespace Graph

/-! ### What a graph compiles -/

/-- A kernel that an operator of the graph is compiled to with the layouts that its tensors have
now. -/
def Compiled (g : Graph) (x : OpId) (c : CompiledOp) : Prop :=
  ∃ op layouts, g.nativeOperandsOf x = .ok (op, layouts) ∧
    CompiledOp.compile op.kind.nativeOp layouts = .ok c

theorem compiled_iff {g : Graph} {x : OpId} {c : CompiledOp} : g.Compiled x c ↔
    ∃ op inputs outputs layouts, g.operator? x = some op ∧ g.tensorsOf op.inputs = .ok inputs ∧
    g.tensorsOf op.outputs = .ok outputs ∧ op.kind.nativeOperands inputs outputs = .ok layouts ∧
    CompiledOp.compile op.kind.nativeOp layouts = .ok c := by
  constructor
  · rintro ⟨op, layouts, hoperands, hcompile⟩
    obtain ⟨op', hop, h⟩ := except_bind_eq_ok.1 hoperands
    obtain ⟨inputs, hinputs, h⟩ := except_bind_eq_ok.1 h
    obtain ⟨outputs, houtputs, h⟩ := except_bind_eq_ok.1 h
    obtain ⟨layouts', hlayouts, h⟩ := except_bind_eq_ok.1 h
    cases h
    refine ⟨op, inputs, outputs, layouts, ?_, hinputs, houtputs, hlayouts, hcompile⟩
    rw [operator] at hop
    split at hop
    · next hfound => rw [hfound, Except.ok.inj hop]
    · cases hop
  · rintro ⟨op, inputs, outputs, layouts, hop, hinputs, houtputs, hlayouts, hcompile⟩
    refine ⟨op, layouts, except_bind_eq_ok.2 ⟨op, by rw [operator, hop],
      except_bind_eq_ok.2 ⟨inputs, hinputs, except_bind_eq_ok.2 ⟨outputs, houtputs, ?_⟩⟩⟩, hcompile⟩
    exact except_bind_eq_ok.2 ⟨layouts, hlayouts, rfl⟩

theorem SameBare.operator? {g g' : Graph} (h : SameBare g g') {x : OpId} {op' : Operator}
    (hop : g'.operator? x = some op') : ∃ op, g.operator? x = some op ∧ op.bare = op'.bare :=
  h.symm.sameLinks.operator? hop

/-- What operators are compiled to does not depend on the descriptors that they have. -/
theorem SameBare.compiled {g g' : Graph} (h : SameBare g g') {x : OpId} {c : CompiledOp}
    (hc : g'.Compiled x c) : g.Compiled x c := by
  obtain ⟨op', inputs, outputs, layouts, hop', hinputs, houtputs, hlayouts, hcompile⟩ :=
    compiled_iff.1 hc
  obtain ⟨op, hop, hbare⟩ := h.operator? hop'
  obtain ⟨_, hkind, hins, houts, _⟩ := Operator.mk.inj hbare
  have htensors : ∀ ids, g'.tensorsOf ids = g.tensorsOf ids :=
    fun ids => by rw [tensorsOf, tensorsOf, funext h.tensor]
  rw [htensors] at hinputs houtputs
  refine compiled_iff.2 ⟨op, inputs, outputs, layouts, hop, ?_, ?_, ?_, ?_⟩
  · rwa [show op.inputs = op'.inputs from hins]
  · rwa [show op.outputs = op'.outputs from houts]
  · rwa [show op.kind = op'.kind from hkind]
  · rwa [show op.kind = op'.kind from hkind]

/-- Every kernel that the graph compiles now would be as it should be, under a new number. -/
def Warrants (g : Graph) (floor : Nat) (Q : Entry → Prop) : Prop :=
  ∀ x d c, floor < d.desc → g.Compiled x c → Q ⟨x, d, c⟩

/-! ### One graph's descriptors -/

/-- The descriptor of one operator changes what is held by just that. -/
theorem perm_heldBy_modifyOperator {g : Graph} (hids : (g.ops.map Operator.id).Nodup)
    {op : Operator} (hop : op ∈ g.ops) :
    ∃ others, (heldBy g.ops).Perm (op.held.toList ++ others) ∧
      ∀ d : Option Descriptor,
      (heldBy (g.modifyOperator op.id fun o => { o with descriptor := d }).ops).Perm
        ((d.map fun d => (op.id, d)).toList ++ others) := by
  obtain ⟨before, after, hops⟩ := List.mem_iff_append.1 hop
  rw [hops, List.map_append, List.map_cons, List.nodup_middle] at hids
  obtain ⟨hnew, -⟩ := List.nodup_cons.1 hids
  have hothers : ∀ o ∈ before ++ after, o.id ≠ op.id :=
    fun o ho hsame => hnew (by rw [← List.map_append, ← hsame]; exact List.mem_map_of_mem ho)
  have hmiddle : ∀ o : Operator,
      (heldBy (before ++ o :: after)).Perm (o.held.toList ++ heldBy (before ++ after)) := by
    intro o
    refine (List.Perm.filterMap Operator.held List.perm_middle).trans (List.Perm.of_eq ?_)
    cases hheld : o.held with
    | none => rw [List.filterMap_cons_none hheld, Option.toList_none, List.nil_append, heldBy]
    | some entry =>
        rw [List.filterMap_cons_some hheld, Option.toList_some, List.singleton_append, heldBy]
  refine ⟨heldBy (before ++ after), hops ▸ hmiddle op, fun d => ?_⟩
  have hmap : ∀ os : List Operator, (∀ o ∈ os, o.id ≠ op.id) →
      (os.map fun o => if o.id = op.id then { o with descriptor := d } else o) = os := by
    intro os hos
    conv_rhs => rw [← List.map_id os]
    exact List.map_congr_left fun o ho => if_neg (hos o ho)
  rw [modifyOperator, hops, List.map_append, List.map_cons, if_pos rfl,
    hmap before fun o ho => hothers o (List.mem_append_left _ ho),
    hmap after fun o ho => hothers o (List.mem_append_right _ ho)]
  exact hmiddle { op with descriptor := d }

/-- Changes after which what is held is in stock again, whatever others hold besides; apart from
descriptors the graph stays as it was. -/
def Balances (id : BackendId) (floor : Nat) (Q : Entry → Prop) (s s' : Machine × Graph) : Prop :=
  ∀ rest, s.2.Warrants floor Q → (s.2.ops.map Operator.id).Nodup →
    s.1.Accounts id floor Q (heldBy s.2.ops ++ rest) →
    SameBare s.2 s'.2 ∧ s'.1.Accounts id floor Q (heldBy s'.2.ops ++ rest)

instance (id : BackendId) (floor : Nat) (Q : Entry → Prop) :
    IsPreorder (Machine × Graph) (Balances id floor Q) where
  refl s _ _ _ h := ⟨.refl _, h⟩
  trans s s' s'' h h' rest hwarrants hids haccounts := by
    obtain ⟨hbare, haccounts'⟩ := h rest hwarrants hids haccounts
    obtain ⟨hbare', haccounts''⟩ := h' rest
      (fun x d c hnew hc => hwarrants x d c hnew (hbare.compiled hc)) (hbare.ids ▸ hids) haccounts'
    exact ⟨hbare.trans hbare', haccounts''⟩

variable {id : BackendId} {floor : Nat} {Q : Entry → Prop}

theorem onMachine_balances {ε α : Type} {act : Act Machine ε α}
    (h : act.Keeps (Machine.KeepsStock id)) : (onMachine act).Keeps (Balances id floor Q) :=
  h.on fun _ _ hkeeps _ _ _ haccounts => ⟨.refl _, haccounts.keepsStock hkeeps⟩

theorem releaseDescriptor_apply {ε : Type} (x : OpId) (m : Machine) (g : Graph) :
    (releaseDescriptor x : GraphAct ε Unit) (m, g) =
      (.ok (), match (g.operator? x).bind Operator.descriptor with
    | none => (m, g)
    | some d => (((d.destroy : Act Machine ε Unit) m).2, g.modifyOperator x fun op =>
        { op with descriptor := none })) := by
  rw [releaseDescriptor, Act.bind_of_ok (Act.get_apply _)]
  dsimp only
  cases (g.operator? x).bind Operator.descriptor with
  | none => rfl
  | some d =>
      dsimp only
      rw [setDescriptor, Act.bind_of_ok (Act.modify_apply _ _), onMachine, Act.on_apply,
        d.destroy_apply]

/-- What can come of asking for the descriptor of an operator: there is none afterwards, the one at
hand fits, or one is compiled from the layouts of the moment. -/
inductive Asked (lib : LibraryRef) (device : DeviceKind) (deviceId : Nat) (x : OpId) (m : Machine)
    (g : Graph) : Except GraphError Nat → Machine → Graph → Prop
  | refused {cause : GraphError} {m' : Machine} {g' : Graph} (hnone : ∀ o ∈ g'.ops, o.id = x →
        o.descriptor = none) : Asked lib device deviceId x m g (.error cause) m' g'
  | kept {handle desc : Nat} {o : Operator} {m' : Machine} {g' : Graph} (hmachine : m' = m)
      (hgraph : g' = g) (ho : o ∈ g.ops) (hid : o.id = x)
      (hfits : o.descriptor = some ⟨lib, handle, desc, device, deviceId⟩) :
      Asked lib device deviceId x m g (.ok desc) m' g'
  | built {handle desc : Nat} {o : Operator} {c : CompiledOp} {m' : Machine} {g' : Graph}
      (hunfit : ∀ o ∈ g.ops, o.id = x →
        ∀ handle desc, o.descriptor ≠ some ⟨lib, handle, desc, device, deviceId⟩)
      (ho : o ∈ g'.ops) (hid : o.id = x)
      (hnew : o.descriptor = some ⟨lib, handle, desc, device, deviceId⟩)
      (hcompiled : g.Compiled x c) (hlookup : (m'.library lib.backend).ops.lookup desc = some c) :
      Asked lib device deviceId x m g (.ok desc) m' g'

section Descriptor

variable {x : OpId} {m : Machine} {g : Graph} {rest : List (OpId × Descriptor)}
  (hids : (g.ops.map Operator.id).Nodup) (haccounts : m.Accounts id floor Q (heldBy g.ops ++ rest))

include hids haccounts

/-- An operator whose descriptor is released has none, and what it held is no longer in stock. -/
theorem releaseDescriptor_settles {ε : Type} :
    ∃ m' g', (releaseDescriptor x : GraphAct ε Unit) (m, g) = (.ok (), m', g') ∧ SameBare g g' ∧
    m'.Accounts id floor Q (heldBy g'.ops ++ rest) ∧
    ∀ op ∈ g'.ops, op.id = x → op.descriptor = none := by
  rw [releaseDescriptor_apply]
  cases hfound : g.operator? x with
  | none =>
      exact ⟨m, g, rfl, .refl g, haccounts,
        fun op hop hid => absurd (decide_eq_true hid) (List.find?_eq_none.1 hfound op hop)⟩
  | some op =>
      have hmem := mem_of_operator? hfound
      obtain rfl := id_of_operator? hfound
      rw [Option.bind_some]
      cases hdescriptor : op.descriptor with
      | none =>
          exact ⟨m, g, rfl, .refl g, haccounts,
            fun o ho hid => List.inj_on_of_nodup_map hids ho hmem hid ▸ hdescriptor⟩
      | some d =>
          obtain ⟨others, hbefore, hafter⟩ := perm_heldBy_modifyOperator hids hmem
          rw [Operator.held, hdescriptor, Option.map_some, Option.toList_some,
            List.singleton_append] at hbefore
          refine ⟨_, _, rfl, sameBare_modifyOperator g op.id none, ?_, fun o ho hid => ?_⟩
          · exact (haccounts.congr (hbefore.append_right rest)).destroy.congr
              ((hafter none).symm.append_right rest)
          · obtain ⟨o', -, rfl⟩ := List.mem_map.1 ho
            split
            · rfl
            · next hother =>
                rw [if_neg hother] at hid
                exact absurd hid hother

/-- What a sort loses goes with what it holds. -/
theorem sort_settles :
    (sort (m, g)).2.1.Accounts id floor Q (heldBy (sort (m, g)).2.2.ops ++ rest) := by
  rw [sort_apply]
  cases hsort : g.topoSort with
  | error cause => exact haccounts
  | ok result =>
      obtain ⟨g', lost⟩ := result
      have hparts : (heldBy g'.ops ++ heldBy lost).Perm (heldBy g.ops) :=
        heldBy_append g'.ops lost ▸ heldBy_perm (topoSort_perm hids hsort)
      refine (haccounts.congr ?_).dropAll
      rw [← List.append_assoc]
      exact (hparts.symm.trans List.perm_append_comm).append_right rest

variable {lib : LibraryRef} (hlib : lib.backend = id) (hwarrants : g.Warrants floor Q)
  (device : DeviceKind) (deviceId : Nat)

include hlib hwarrants

/-- A descriptor that is built anew is compiled from the layouts of the moment; if it cannot be
built the operator has none. -/
theorem rebuildDescriptor_settles {op : Operator} (hop : g.operator? op.id = some op)
    (hunfit : ∀ handle desc, op.descriptor ≠ some ⟨lib, handle, desc, device, deviceId⟩) :
    ∃ result m' g', rebuildDescriptor op lib device deviceId (m, g) = (result, m', g') ∧
    SameBare g g' ∧ m'.Accounts id floor Q (heldBy g'.ops ++ rest) ∧
      Asked lib device deviceId op.id m g result m' g' := by
  obtain ⟨m₁, g₁, hrelease, hbare₁, haccounts₁, hnone⟩ :=
    releaseDescriptor_settles (ε := GraphError) (x := op.id) hids haccounts
  have htensors : ∀ ids, g₁.tensorsOf ids = g.tensorsOf ids :=
    fun ids => by rw [tensorsOf, tensorsOf, funext hbare₁.tensor]
  rw [rebuildDescriptor, Act.bind_of_ok hrelease, Act.bind_of_ok (Act.get_apply _)]
  dsimp only
  -- the old descriptor is gone by now, so whatever fails from here on leaves the operator with none
  rw [htensors, htensors]
  cases hinputs : g.tensorsOf op.inputs with
  | error cause =>
      exact ⟨.error cause, m₁, g₁, Act.bind_of_error (Act.ofExcept_apply _ _) _, hbare₁, haccounts₁,
        .refused hnone⟩
  | ok inputs =>
  rw [Act.bind_of_ok (Act.ofExcept_apply _ _)]
  cases houtputs : g.tensorsOf op.outputs with
  | error cause =>
      exact ⟨.error cause, m₁, g₁, Act.bind_of_error (Act.ofExcept_apply _ _) _, hbare₁, haccounts₁,
        .refused hnone⟩
  | ok outputs =>
  rw [Act.bind_of_ok (Act.ofExcept_apply _ _)]
  cases hlayouts : op.kind.nativeOperands inputs outputs with
  | error cause =>
      exact ⟨.error cause, m₁, g₁, Act.bind_of_error (Act.ofExcept_apply _ _) _, hbare₁, haccounts₁,
        .refused hnone⟩
  | ok layouts =>
  rw [Act.bind_of_ok (Act.ofExcept_apply _ _)]
  have hcompiled : ∀ c, CompiledOp.compile op.kind.nativeOp layouts = .ok c → g.Compiled op.id c :=
    fun c hcompile =>
      compiled_iff.2 ⟨op, inputs, outputs, layouts, hop, hinputs, houtputs, hlayouts, hcompile⟩
  obtain ⟨status, m₂, hfailed, haccounts₂⟩ | ⟨handle, desc, c, m₂, hdone, hcompile, hlookup,
      haccounts₂⟩ :=
    haccounts₁.build hlib op.id device deviceId fun d c hnew hcompile =>
      hwarrants op.id d c hnew (hcompiled c hcompile)
  · refine ⟨.error (.device (.native status)), m₂, g₁, Act.bind_of_error ?_ _, hbare₁, haccounts₂,
      .refused hnone⟩
    rw [native, onMachine, Act.on_apply, Act.mapError_apply, hfailed]
    rfl
  · have hnative : native (buildDescriptor lib device deviceId op.kind.nativeOp layouts) (m₁, g₁) =
        (.ok ⟨lib, handle, desc, device, deviceId⟩, m₂, g₁) :=
      onMachine_of_ok (Act.mapError_eq_ok.2 hdone) g₁
    rw [Act.bind_of_ok hnative, setDescriptor, Act.bind_of_ok (Act.modify_apply _ _)]
    have hmem := mem_of_operator? hop
    obtain ⟨o, ho, hsame⟩ := hbare₁.mem hmem
    have hid : o.id = op.id := Operator.id_of_bare hsame
    obtain ⟨others, hbefore, hafter⟩ := perm_heldBy_modifyOperator (hbare₁.ids ▸ hids) ho
    rw [Operator.held, hnone o ho hid] at hbefore
    rw [hid] at hafter
    refine ⟨.ok desc, _, _, rfl, hbare₁.trans (sameBare_modifyOperator g₁ op.id _), ?_, ?_⟩
    · exact haccounts₂.congr
        (((hbefore.append_right rest).cons _).trans ((hafter (some _)).symm.append_right rest))
    · have hunfit' : ∀ a ∈ g.ops, a.id = op.id →
          ∀ handle desc, a.descriptor ≠ some ⟨lib, handle, desc, device, deviceId⟩ :=
        fun a ha hsame => List.inj_on_of_nodup_map hids ha hmem hsame ▸ hunfit
      exact .built hunfit' (List.mem_map.2 ⟨o, ho, if_pos hid⟩) hid rfl (hcompiled c hcompile)
        (hlib ▸ hlookup)

/-- A descriptor that is asked for is the one at hand, if it fits, or else the one at hand goes and
a new one is built. -/
theorem createDescriptor_settles : ∃ result m' g', createDescriptor x lib device deviceId (m, g) =
      (result, m', g') ∧ SameBare g g' ∧ m'.Accounts id floor Q (heldBy g'.ops ++ rest) ∧
    Asked lib device deviceId x m g result m' g' := by
  rw [createDescriptor, Act.bind_of_ok (Act.get_apply _), operator]
  dsimp only
  cases hfound : g.operator? x with
  | none =>
      refine ⟨_, m, g, Act.bind_of_error (Act.ofExcept_apply _ _) _, .refl g, haccounts,
        .refused fun o ho hid => ?_⟩
      exact absurd (decide_eq_true hid) (List.find?_eq_none.1 hfound o ho)
  | some op =>
      obtain rfl := id_of_operator? hfound
      rw [Act.bind_of_ok (Act.ofExcept_apply _ _)]
      have hrebuild :=
        rebuildDescriptor_settles hids haccounts hlib hwarrants device deviceId hfound
      cases hdescriptor : op.descriptor with
      | none =>
          refine hrebuild fun handle desc hsome => ?_
          cases hdescriptor.symm.trans hsome
      | some d =>
          obtain ⟨library, handle, desc, kind, number⟩ := d
          dsimp only
          split
          · next hfits =>
              obtain ⟨rfl, rfl, rfl⟩ := hfits
              exact ⟨.ok desc, m, g, rfl, .refl g, haccounts,
                .kept rfl rfl (mem_of_operator? hfound) rfl hdescriptor⟩
          · next hunfit =>
              refine hrebuild fun handle' desc' hsome => hunfit ?_
              cases hdescriptor.symm.trans hsome
              exact ⟨rfl, rfl, rfl⟩

end Descriptor

theorem releaseDescriptor_balances (x : OpId) :
    (releaseDescriptor x : GraphAct GraphError Unit).Keeps (Balances id floor Q) := by
  intro s rest _ hids haccounts
  obtain ⟨m', g', hresult, hbare, haccounts', -⟩ :=
    releaseDescriptor_settles (ε := GraphError) (x := x) hids haccounts
  rw [hresult]
  exact ⟨hbare, haccounts'⟩

theorem createDescriptor_balances (x : OpId)
    (lib : LibraryRef) (device : DeviceKind) (deviceId : Nat) :
    (createDescriptor x lib device deviceId).Keeps (Balances lib.backend floor Q) := by
  intro s rest hwarrants hids haccounts
  obtain ⟨result, m', g', hresult, hbare, haccounts', -⟩ :=
    createDescriptor_settles (x := x) hids haccounts rfl hwarrants device deviceId
  rw [hresult]
  exact ⟨hbare, haccounts'⟩

end Graph

end TensorDataflow
