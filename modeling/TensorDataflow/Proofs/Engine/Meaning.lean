import TensorDataflow.Proofs.Engine.Dataflow
import TensorDataflow.Proofs.Engine.Dispatch
import TensorDataflow.Proofs.Graph.Furnishing
import TensorDataflow.Proofs.Graph.Storage
/-!
# What a run computes

A graph says what its tensors hold in terms of one another, and a run is meant to make that true.
For a built graph whose tensors have buffers that do not overlap each other or the workspace, a
dispatch reads the buffers of its operator's inputs, writes into that of its output and settles it
from what it read. So a run is a dataflow computation: whatever succeeds leaves the tensors without
a producer alone, leaves every other tensor as its operator would leave it again, and does so in
whichever dependency order the operators stand.
-/

namespace TensorDataflow

open Memory

/-- The bytes of a buffer. -/
def Buffer.place (b : Buffer) : Set Nat := span b.address.val b.size

/-- Two buffers that do not overlap. -/
def Buffer.Apart (b b' : Buffer) : Prop :=
  b.address.val + b.size ≤ b'.address.val ∨ b'.address.val + b'.size ≤ b.address.val

instance (b b' : Buffer) : Decidable (b.Apart b') := inferInstanceAs (Decidable (_ ∨ _))

theorem Buffer.Apart.notMem {b b' : Buffer} (h : b.Apart b') {a : Nat} (ha : a ∈ b.place) :
    a ∉ b'.place := by
  rw [Buffer.place, mem_span] at ha ⊢
  rcases h with h | h <;> omega

/-- The bytes of a tensor's buffer, none if it has no buffer. -/
def Graph.place (g : Graph) (id : TensorId) : Set Nat :=
  ((g.tensor? id).bind Tensor.data).elim ∅ Buffer.place

theorem Graph.mem_place {g : Graph} {id : TensorId} {a : Nat} :
    a ∈ g.place id ↔ ∃ t b, g.tensor? id = some t ∧ t.data = some b ∧ a ∈ b.place := by
  rw [place]
  cases g.tensor? id with
  | none => simp
  | some t => cases ht : t.data <;> simp [ht]

theorem Graph.place_of_tensor? {g : Graph} {id : TensorId} {t : Tensor} {b : Buffer}
    (ht : g.tensor? id = some t) (hb : t.data = some b) : g.place id = b.place := by
  rw [place, ht, Option.bind_some, hb]
  rfl

theorem CompiledOp.length_of_compile {op : NativeOp} {operands : List OperandLayout}
    {c : CompiledOp} (h : compile op operands = .ok c) : operands.length = 3 := by
  unfold compile at h
  split at h
  · rfl
  · cases h

namespace Engine

/-- What the buffer holds on the engine's backend. -/
def contents (e : Engine) (m : Machine) (b : Buffer) : List UInt8 :=
  (m.device e.backend).memory.read b.address.val b.size

/-- A graph that is ready to be dispatched and whose tensors have buffers of their own, away from
the workspace. -/
structure Furnished (e : Engine) (c : Context) (m : Machine) (g : Graph) : Prop where
  ready : g.Ready e.library c.device c.deviceId m
  buffers : ∀ t ∈ g.tensors, ∃ b, t.data = some b ∧ t.totalBytes = .ok b.size
  apart : ∀ t ∈ g.tensors, ∀ u ∈ g.tensors, t.id ≠ u.id → ∀ b b', t.data = some b →
    u.data = some b' → b.Apart b'
  scratch : ∀ t ∈ g.tensors, ∀ b, t.data = some b → b.Apart e.workspace

theorem Furnished.places {e : Engine} {c : Context} {m : Machine} {g : Graph}
    (h : e.Furnished c m g) : Dataflow.Apart g.place e.workspace.place := by
  constructor
  · intro i j hne a hi hj
    obtain ⟨t, b, ht, hb, ha⟩ := Graph.mem_place.1 hi
    obtain ⟨u, b', hu, hb', ha'⟩ := Graph.mem_place.1 hj
    have hids : t.id ≠ u.id := by rwa [Graph.id_of_tensor? ht, Graph.id_of_tensor? hu]
    have hapart := h.apart t (Graph.mem_of_tensor? ht) u (Graph.mem_of_tensor? hu) hids b b' hb hb'
    exact hapart.notMem ha ha'
  · intro i a hi
    obtain ⟨t, b, ht, hb, ha⟩ := Graph.mem_place.1 hi
    exact (h.scratch t (Graph.mem_of_tensor? ht) b hb).notMem ha

theorem dataAddress_eq_ok_iff {g : Graph} {id : TensorId} {a : Address} :
    dataAddress g id = .ok a ↔ ∃ t b, g.tensor? id = some t ∧ t.data = some b ∧ b.address = a := by
  unfold dataAddress
  rw [except_bind_eq_ok]
  simp only [Graph.tensor_eq_ok_iff]
  constructor
  · rintro ⟨t, ht, h⟩
    cases hb : t.data with
    | none =>
        rw [hb] at h
        cases h
    | some b =>
        rw [hb] at h
        cases h
        exact ⟨t, b, ht, hb, rfl⟩
  · rintro ⟨t, b, ht, hb, rfl⟩
    refine ⟨t, ht, ?_⟩
    rw [hb]
    rfl

/-- A plan launches on the first inputs, and unless it clears the output it fills it from another
input. -/
theorem plan?_eq_some {kernel : KernelKind} {op : Operator} {p : Plan}
    (h : plan? kernel op = some p) :
    (∃ rest, op.inputs = p.inputs ++ rest) ∧ (p.bias = none → p.args.Clears) ∧
    ∀ bias output, p.bias = some (bias, output) → bias ∈ op.inputs := by
  unfold plan? at h
  split at h
  · cases h
    exact ⟨⟨[], (List.append_nil _).symm⟩, fun _ => trivial, fun _ _ hbias => nomatch hbias⟩
  · cases h
    exact ⟨⟨[], (List.append_nil _).symm⟩, fun _ => trivial, fun _ _ hbias => nomatch hbias⟩
  · split at h
    · next hinputs _ =>
        cases h
        exact ⟨⟨[], hinputs⟩, fun _ => rfl, fun _ _ hbias => nomatch hbias⟩
    · next a b bias rest _ _ hinputs _ =>
        cases h
        refine ⟨⟨bias :: rest, hinputs⟩, (nomatch ·), fun bias' output hbias => ?_⟩
        cases hbias
        rw [hinputs]
        simp
    · cases h
  · cases h

/-! ### One dispatch as a node -/

/-- What a task touches of the buffers of an operator's tensors. -/
structure Task.Within (e : Engine) (g : Graph) (op : Operator) (t : Task)
    (y a b : TensorId) : Prop where
  inputs : a ∈ op.inputs ∧ b ∈ op.inputs
  workspace : t.compiled.workspaceSize ≤ e.workspace.size
  operands : ∃ ly la lb, t.compiled.WellFormed ly la lb ∧ span t.y.val ly.spanBytes ⊆ g.place y ∧
    span t.a.val la.spanBytes ⊆ g.place a ∧ span t.b.val lb.spanBytes ⊆ g.place b
  copy : t.copy = none ∧ t.args.Clears ∨ ∃ source size, t.copy = some (source, size) ∧
    g.place y = span t.y.val size ∧ ∃ bias ∈ op.inputs, g.place bias = span source.val size

section Node

variable {e : Engine} {c : Context} {d : HostDevice} {m : Machine} {g : Graph}
  {op : Operator} {t : Task}

theorem span_subset_place
    (hbuffers : ∀ t ∈ g.tensors, ∃ b, t.data = some b ∧ t.totalBytes = .ok b.size) {id : TensorId}
    {u : Tensor} (hu : g.tensor? id = some u) {a : Address}
    (ha : dataAddress g id = .ok a) {l : OperandLayout} (hview : u.View l) {bytes : Nat}
    (hbytes : bytes = l.spanBytes) : span a.val bytes ⊆ g.place id := by
  obtain ⟨u', b, hu', hb, rfl⟩ := dataAddress_eq_ok_iff.1 ha
  obtain rfl := Option.some.inj (hu.symm.trans hu')
  obtain ⟨b', hb', hsize⟩ := hbuffers u (Graph.mem_of_tensor? hu)
  obtain rfl := Option.some.inj (hb.symm.trans hb')
  obtain ⟨n, hn, hle⟩ := hview.bytes
  obtain rfl : b.size = n := Except.ok.inj (hsize.symm.trans hn)
  rw [Graph.place_of_tensor? hu hb, Buffer.place, hbytes]
  exact span_subset (Nat.le_refl _) (Nat.add_le_add_left hle _)

theorem place_of_totalBytes
    (hbuffers : ∀ t ∈ g.tensors, ∃ b, t.data = some b ∧ t.totalBytes = .ok b.size) {id : TensorId}
    {u : Tensor} (hu : g.tensor id = .ok u) {a : Address}
    (ha : dataAddress g id = .ok a) {size : Nat} (hsize : u.totalBytes = .ok size) :
    g.place id = span a.val size := by
  obtain ⟨u', b, hu', hb, rfl⟩ := dataAddress_eq_ok_iff.1 ha
  obtain rfl := Option.some.inj ((Graph.tensor_eq_ok_iff.1 hu).symm.trans hu')
  obtain ⟨b', hb', hsize'⟩ := hbuffers u (Graph.mem_of_tensor? hu')
  obtain rfl := Option.some.inj (hb.symm.trans hb')
  obtain rfl : b.size = size := Except.ok.inj (hsize'.symm.trans hsize)
  exact Graph.place_of_tensor? hu' hb

/-- The task of an operator that fits touches its tensors' buffers and the workspace only. -/
theorem within_of_serves
    (hbuffers : ∀ t ∈ g.tensors, ∃ b, t.data = some b ∧ t.totalBytes = .ok b.size)
    (hsettled : ∀ t ∈ g.tensors, t.Settled)
    (hfits : g.Fits op.kind op.inputs op.outputs) (hserves : e.Serves c d g op t) :
    ∃ y a b, op.outputs = [y] ∧ t.Within e g op y a b := by
  obtain ⟨record, n, p, _, hplan, hcarries⟩ := hserves
  obtain ⟨⟨rest, hrest⟩, hclears, hbias⟩ := plan?_eq_some hplan
  have hlaunches := hcarries.launches
  obtain ⟨ins, outs, layouts, hins, houts, hlayouts, haccepted, hcompile⟩ :=
    hlaunches.compiles.layouts
  -- one output and the first two inputs, with their addresses
  obtain ⟨y, hy, _, rfl, hyAddress⟩ : ∃ y, op.outputs = [y] ∧ ∃ a, a = t.y ∧
      dataAddress g y = .ok a := by
    have hall := mapM_eq_ok_iff.1 hlaunches.outputs
    obtain ⟨y, hy⟩ := List.length_eq_one_iff.1 hall.length_eq
    rw [hy] at hall
    exact ⟨y, hy, t.y, rfl, by simpa using hall⟩
  obtain ⟨a, b, hab, haAddress, hbAddress⟩ : ∃ a b, p.inputs = [a, b] ∧ dataAddress g a = .ok t.a ∧
      dataAddress g b = .ok t.b := by
    have hall := mapM_eq_ok_iff.1 hlaunches.inputs
    obtain ⟨a, b, hab⟩ := List.length_eq_two.1 hall.length_eq
    rw [hab] at hall
    exact ⟨a, b, hab, by simpa using hall⟩
  have hinputs : op.inputs = a :: b :: rest := by
    rw [hrest, hab, List.cons_append, List.cons_append, List.nil_append]
  obtain ⟨tensors, shapes, htensors, _, hinfer, _, hshapes⟩ := hfits
  obtain rfl := Except.ok.inj (hins.symm.trans htensors)
  rw [hy, List.forall₂_cons_left_iff] at hshapes
  obtain ⟨_, _, ⟨ty, hty, rfl⟩, hnil, rfl⟩ := hshapes
  cases hnil
  obtain rfl : outs = [ty] := by
    rw [hy, Graph.tensorsOf_eq_ok_iff, List.forall₂_cons_left_iff] at houts
    obtain ⟨ty', _, hty', hnil, rfl⟩ := houts
    cases hnil
    rw [Option.some.inj (hty.symm.trans hty')]
  have hfound := Graph.tensorsOf_eq_ok_iff.1 hins
  have hall : ∀ u ∈ ins, u.Settled := by
    intro u hu
    obtain ⟨id, _, hid⟩ := exists_of_forall₂_of_mem hfound.flip hu
    exact hsettled u (Graph.mem_of_tensor? hid)
  obtain ⟨ta, tb, tail, ly, la, lb, rfl, rfl, hyView, haView, hbView⟩ :=
    OpKind.views_of_nativeOperands hall (hsettled ty (Graph.mem_of_tensor? hty)) hinfer hlayouts
      haccepted (CompiledOp.length_of_compile hcompile)
  rw [hinputs] at hfound
  obtain ⟨hta, htb⟩ : g.tensor? a = some ta ∧ g.tensor? b = some tb := by
    rw [List.forall₂_cons, List.forall₂_cons] at hfound
    exact ⟨hfound.1, hfound.2.1⟩
  obtain ⟨_, _, _, wy, wa, wb, hsame, hwellFormed, hySpan, haSpan, hbSpan⟩ :=
    CompiledOp.wellFormed_of_compile hcompile (by simp [hyView.plain, haView.plain, hbView.plain])
  cases hsame
  refine ⟨y, a, b, hy, by simp [hinputs], hlaunches.workspace,
    ⟨wy, wa, wb, hwellFormed, span_subset_place hbuffers hty hyAddress hyView hySpan,
    span_subset_place hbuffers hta haAddress haView haSpan,
    span_subset_place hbuffers htb hbAddress hbView hbSpan⟩, ?_⟩
  have hcopy := hcarries.copy
  cases hp : p.bias with
  | none =>
      rw [hp] at hcopy
      exact .inl ⟨hcopy, hcarries.args ▸ hclears hp⟩
  | some pair =>
      obtain ⟨bias, output⟩ := pair
      rw [hp] at hcopy
      obtain ⟨source, size, hsome, hcopies⟩ := hcopy
      obtain rfl : y = output := by simpa [hy] using head_of_plan hplan hp
      obtain ⟨u, v, hu, hv, husize, hvsize, _⟩ := hcopies.spans
      exact .inr ⟨source, size, hsome, place_of_totalBytes hbuffers hv hcopies.target hvsize, bias,
        hbias bias y hp, place_of_totalBytes hbuffers hu hcopies.source husize⟩

/-- The computation that a dispatch comes to. -/
def node (e : Engine) (op : Operator) (t : Task) : Dataflow.Node :=
  ⟨op.outputs.headD 0, op.inputs, t.effect e.workspace.address⟩

theorem node_local (hapart : Dataflow.Apart g.place e.workspace.place) {y a b : TensorId}
    (houtputs : op.outputs = [y]) (hwithin : t.Within e g op y a b)
    (hself : y ∉ op.inputs) : (e.node op t).Local g.place e.workspace.place := by
  obtain ⟨hinputs, hworkspace, ⟨ly, la, lb, hwellFormed, hyIn, haIn, hbIn⟩, hcopy⟩ := hwithin
  have hroom : span e.workspace.address.val t.compiled.workspaceSize ⊆ e.workspace.place :=
    span_subset (Nat.le_refl _) (Nat.add_le_add_left hworkspace _)
  have hplaces : ∀ x ∈ span t.a.val la.spanBytes ∪ span t.b.val lb.spanBytes, ∃ i ∈ op.inputs,
      x ∈ g.place i := by
    rintro x (hx | hx)
    · exact ⟨a, hinputs.1, haIn hx⟩
    · exact ⟨b, hinputs.2, hbIn hx⟩
  have hapartY : ∀ i ∈ op.inputs, ∀ x ∈ g.place i, x ∉ g.place y :=
    fun i hi x hx => hapart.places i y (fun heq => hself (heq ▸ hi)) x hx
  -- the launch by itself, from two memories that have the same inputs
  have hlaunch : ∀ f f' : Memory, (∀ i ∈ op.inputs, AgreeOn (g.place i) f f') →
      t.args.Clears ∨ AgreeOn (g.place y) f f' → Alike (g.place y) e.workspace.place f f'
      (t.compiled.run [t.y, t.a, t.b] e.workspace.address t.args f)
      (t.compiled.run [t.y, t.a, t.b] e.workspace.address t.args f') := by
    intro f f' hagree hold
    have hsame : AgreeOn (span t.a.val la.spanBytes ∪ span t.b.val lb.spanBytes) f f' := by
      intro x hx
      obtain ⟨i, hi, hxi⟩ := hplaces x hx
      exact hagree i hi x hxi
    have houtput : ∀ x ∈ span t.a.val la.spanBytes ∪ span t.b.val lb.spanBytes,
        x ∉ span t.y.val ly.spanBytes := by
      intro x hx hxy
      obtain ⟨i, hi, hxi⟩ := hplaces x hx
      exact hapartY i hi x hxi (hyIn hxy)
    have hscratch : ∀ x ∈ span t.a.val la.spanBytes ∪ span t.b.val lb.spanBytes,
        x ∉ span e.workspace.address.val t.compiled.workspaceSize := by
      intro x hx hxw
      obtain ⟨i, hi, hxi⟩ := hplaces x hx
      exact hapart.scratch i x hxi (hroom hxw)
    have hfree : ∀ x ∈ span t.y.val ly.spanBytes,
        x ∉ span e.workspace.address.val t.compiled.workspaceSize :=
      fun x hx hxw => hapart.scratch y x (hyIn hx) (hroom hxw)
    have halike := CompiledOp.run_alike hwellFormed hsame houtput hscratch hfree t.args
      (hold.imp_right fun h => h.subset hyIn)
    exact halike.widen hyIn hroom fun x hx => hapart.scratch y x hx
  intro f f' hagree
  rw [node, houtputs]
  dsimp only [List.headD_cons, Task.effect, Task.prepare]
  rcases hcopy with ⟨hnone, hclears⟩ | ⟨source, size, hsome, hyPlace, bias, hbias, hbiasPlace⟩
  · rw [hnone]
    exact hlaunch f f' hagree (.inl hclears)
  · rw [hsome]
    dsimp only
    -- the copy fills the whole output, and what the launch reads besides is not in it
    have hkept : ∀ (f : Memory) (x : Nat), x ∉ g.place y →
        (f.copy t.y.val source.val size).byte x = f.byte x := by
      intro f x hx
      rw [hyPlace, mem_span] at hx
      rw [byte_copy, if_neg hx]
    have hfilled :
        AgreeOn (g.place y) (f.copy t.y.val source.val size) (f'.copy t.y.val source.val size) := by
      intro x hx
      rw [hyPlace, mem_span] at hx
      rw [byte_copy, byte_copy, if_pos hx, if_pos hx]
      apply hagree bias hbias
      rw [hbiasPlace, mem_span]
      omega
    refine (hlaunch _ _ (fun i hi x hx => ?_) (.inr hfilled)).of_filled (hkept f) (hkept f') hfilled
    rw [hkept f x (hapartY i hi x hx), hkept f' x (hapartY i hi x hx)]
    exact hagree i hi x hx

end Node

/-! ### A whole run -/

theorem run_eq {e : Engine} {c : Context} {m : Machine} (hcontext : e.contextOf m.thread = .ok c)
    (g : Graph) : e.run (m, g) = e.runIn c (m, g) := by
  have hcurrent : e.currentContext m = (.ok c, m) := by
    rw [currentContext, Act.bind_of_ok (Act.get_apply _), Act.ofExcept_apply, hcontext]
  rw [run, Act.bind_of_ok
    (show machineOf e.currentContext (m, g) = (.ok c, m, g) from Graph.onMachine_of_ok hcurrent g)]

theorem runIn_of_checked (e : Engine) (c : Context) (m : Machine) {g : Graph}
    (hcheck : g.checkBeforeRun = .ok ()) :
    e.runIn c (m, g) = g.ops.foldlM (e.dispatch c) (.empty c.device) (m, g) := by
  rw [runIn, Act.bind_of_ok (askGraph_of_ok hcheck), Act.bind_of_ok (Act.get_apply _)]

theorem checked_of_runIn {e : Engine} {c : Context} {m : Machine} {g : Graph} {metrics : RunMetrics}
    {s' : Machine × Graph} (h : e.runIn c (m, g) = (.ok metrics, s')) :
    g.checkBeforeRun = .ok () ∧
    g.ops.foldlM (e.dispatch c) (.empty c.device) (m, g) = (.ok metrics, s') := by
  obtain ⟨_, _, hasked, _⟩ := Act.bind_eq_ok h
  obtain ⟨hcheck, _⟩ := askGraph_eq_ok hasked
  exact ⟨hcheck, runIn_of_checked e c m hcheck ▸ h⟩

/-- The computation that a run comes to. -/
def nodes (e : Engine) (task : Operator → Task) (ops : List Operator) : List Dataflow.Node :=
  ops.map fun op => e.node op (task op)

/-- A graph that passes the check and whose operators can each be dispatched is run. -/
theorem run_of_serves {e : Engine} {c : Context} {m : Machine} {g : Graph}
    (hcontext : e.contextOf m.thread = .ok c) (hready : g.Ready e.library c.device c.deviceId m)
    (hcheck : g.checkBeforeRun = .ok ()) {task : Operator → Task}
    (hserves : ∀ op ∈ g.ops, e.Serves c (m.device e.backend) g op (task op)) :
    ∃ metrics m' g', e.run (m, g) = (.ok metrics, m', g') ∧ metrics.operatorsRun = g.ops.length ∧
    g.SameBare g' ∧
      m.Advances e.backend (Dataflow.run (e.nodes task g.ops)) m' ∧
      g'.Ready e.library c.device c.deviceId m' := by
  obtain ⟨metrics, m', g', hrun, hcount, hgraph, hadvances, hready'⟩ :=
    foldlM_dispatch_apply (fun op hop => hop) hserves hready (.refl g) rfl rfl (.empty c.device)
  refine ⟨metrics, m', g', ?_, ?_, hgraph, ?_, hready'⟩
  · rw [run_eq hcontext, runIn_of_checked e c m hcheck, hrun]
  · rw [hcount]
    exact Nat.zero_add _
  · have hsame : Dataflow.run (e.nodes task g.ops) = fun memory =>
        g.ops.foldl (fun memory op => (task op).effect e.workspace.address memory) memory := by
      funext memory
      rw [Dataflow.run, nodes, List.foldl_map]
      rfl
    rw [hsame]
    exact hadvances

theorem Serves.reorder {e : Engine} {c : Context} {d : HostDevice} {g : Graph} {op : Operator}
    {t : Task} (h : e.Serves c d g op t) (ops : List Operator) :
    e.Serves c d { g with ops } op t := by
  obtain ⟨record, n, p, hrecord, hplan, hlaunches, hargs, hcopy⟩ := h
  refine ⟨record, n, p, hrecord, hplan, ⟨⟨hlaunches.compiles.layouts, hlaunches.compiles.device⟩,
    hlaunches.workspace, hlaunches.outputs, hlaunches.inputs, hlaunches.scratch,
    hlaunches.operands⟩,
    hargs, ?_⟩
  cases hbias : p.bias with
  | none =>
      rw [hbias] at hcopy
      exact hcopy
  | some pair =>
      rw [hbias] at hcopy
      obtain ⟨source, size, hsome, hcopies⟩ := hcopy
      exact ⟨source, size, hsome, hcopies.spans, hcopies.target, hcopies.source⟩

theorem ready_reorder {lib : LibraryRef} {device : DeviceKind} {deviceId : Nat} {m : Machine}
    {g : Graph} (h : g.Ready lib device deviceId m) {ops : List Operator}
    (hperm : ops.Perm g.ops) : ({ g with ops } : Graph).Ready lib device deviceId m := by
  refine ⟨h.calm, (hperm.map Operator.id).nodup_iff.2 h.opIds, fun op hop d hd => ?_⟩
  obtain ⟨hlib, hdevice, hid, hdesc, c, hcompiles, hlookup⟩ :=
    h.current op (hperm.mem_iff.1 hop) d hd
  exact ⟨hlib, hdevice, hid, hdesc, c, ⟨hcompiles.layouts, hcompiles.device⟩, hlookup⟩

/-- Operators in dependency order, each the producer of one tensor, make an arranged computation. -/
theorem arranged_nodes (e : Engine) (task : Operator → Task) {g : Graph} (hvalid : g.Valid)
    (hordered : g.Ordered) (hone : ∀ op ∈ g.ops, ∃ y, op.outputs = [y]) :
    Dataflow.Arranged (e.nodes task g.ops) := by
  -- the producer of an output is the operator that the tensor names
  have hsource : ∀ op ∈ g.ops, g.sourceOf (e.node op (task op)).output = some op.id := by
    intro op hop
    obtain ⟨y, hy⟩ := hone op hop
    obtain ⟨t, ht, hmade⟩ := hvalid.outputs op hop y (by simp [hy])
    rw [node, hy, List.headD_cons, Graph.sourceOf, ht, Option.bind_some, hmade]
  intro front n rest hsplit
  obtain ⟨before, tail, hops, _, htail⟩ := List.map_eq_append_iff.1 hsplit
  obtain ⟨op, after, rfl, rfl, rfl⟩ := List.map_eq_cons_iff.1 htail
  have hmem : ∀ op' ∈ op :: after, op' ∈ g.ops :=
    fun op' hop' => hops ▸ List.mem_append_right _ hop'
  have hids := hvalid.opIds
  rw [hops, List.map_append, List.map_cons, List.nodup_append, List.nodup_cons] at hids
  constructor
  · intro i hi hmade
    obtain ⟨_, hn', rfl⟩ := List.mem_map.1 hmade
    obtain ⟨op', hop', rfl⟩ :=
      List.mem_map.1 (show _ ∈ (op :: after).map fun op => e.node op (task op) from hn')
    obtain ⟨a, ha, hid⟩ := hordered before op after hops _ hi op'.id (hsource op' (hmem op' hop'))
    exact hids.2.2 a.id (List.mem_map_of_mem ha) op'.id
      (List.map_cons ▸ List.mem_map_of_mem hop') hid
  · intro hmade
    obtain ⟨_, hn', hsame⟩ := List.mem_map.1 hmade
    obtain ⟨op', hop', rfl⟩ := List.mem_map.1 hn'
    have hid : op'.id = op.id := by
      have hboth := hsource op' (hmem op' (List.mem_cons_of_mem _ hop'))
      rw [hsame, hsource op (hmem op List.mem_cons_self)] at hboth
      exact (Option.some.inj hboth).symm
    exact hids.2.1.1 (hid ▸ List.mem_map_of_mem hop')

theorem contents_congr {e : Engine} {g : Graph} {m m' : Machine} {t : Tensor}
    (ht : g.tensor? t.id = some t) {b : Buffer} (hb : t.data = some b)
    (h : AgreeOn (g.place t.id) (m'.device e.backend).memory (m.device e.backend).memory) :
    e.contents m' b = e.contents m b := by
  rw [Graph.place_of_tensor? ht hb] at h
  exact read_congr h

/-- A run of a built and sorted graph whose tensors have buffers of their own realises its dataflow:
tensors without a producer keep what they hold, dispatching an operator once more changes no tensor,
and any other dependency order of the operators can be run as well and leaves the same. -/
theorem run_realises_dataflow (steps : List BuildStep) {s g g' : Graph} {lost : List Operator}
    {e : Engine} {c : Context} {m m' : Machine} {metrics : RunMetrics}
    (hsort : (Draft.built steps).graph.topoSort = .ok (s, lost)) (hgraph : s.Furnishes g)
    (hkernels : ∀ record ∈ e.kernels.records, record.kernel ≠ .idle)
    (hcontext : e.contextOf m.thread = .ok c) (hfurnished : e.Furnished c m g)
    (hrun : e.run (m, g) = (.ok metrics, m', g')) :
    g'.tensors = g.tensors ∧
      (∀ t ∈ g.tensors, t.source = none → ∀ b, t.data = some b → e.contents m' b = e.contents m b) ∧
      (∀ op ∈ g.ops, ∀ before, ∃ after m'' g'',
        e.dispatch c before op (m', g') = (.ok after, m'', g'') ∧
        ∀ t ∈ g.tensors, ∀ b, t.data = some b → e.contents m'' b = e.contents m' b) ∧
      ∀ ops, ops.Perm g.ops → Graph.Ordered { g with ops } →
      ∃ metrics' m'' g'', e.run (m, { g with ops }) = (.ok metrics', m'', g'') ∧
        ∀ t ∈ g.tensors, ∀ b, t.data = some b → e.contents m'' b = e.contents m' b := by
  obtain ⟨hcheck, hfold⟩ := checked_of_runIn (run_eq hcontext g ▸ hrun)
  obtain ⟨hvalid, hsorted, hconcrete⟩ := Graph.checkBeforeRun_eq_ok_iff.1 hcheck
  have hfitted := hgraph.fitted (Draft.sorted_fitted hsort)
  have hsettled : ∀ t ∈ g.tensors, t.Settled := fun t ht =>
    ⟨hfitted.layouts t ht, (Graph.checkConcrete_eq_ok_iff.1 hconcrete t ht).1,
      (Graph.checkConcrete_eq_ok_iff.1 hconcrete t ht).2⟩
  have : Nonempty Task := ⟨⟨⟨.add, []⟩, ⟨0⟩, ⟨0⟩, ⟨0⟩, .plain, none⟩⟩
  choose! task hserves using serves_of_foldlM_dispatch (fun op hop => hop) hkernels hfurnished.ready
    (.refl g) rfl rfl hfold
  choose! y a b hone hwithin using fun op hop =>
    within_of_serves hfurnished.buffers hsettled (hfitted.fits op hop) (hserves op hop)
  have houtputs : ∀ op ∈ g.ops, ∃ y, op.outputs = [y] := fun op hop => ⟨y op, hone op hop⟩
  have hordered : g.Ordered := by
    refine hgraph.sameLinks.ordered
      (Draft.sorted_ordered hsort (hgraph.sameLinks.symm.valid hvalid) fun op hop => ?_)
    obtain ⟨op', hop', hbare⟩ := hgraph.sameLinks.memOp hop
    rw [← (Operator.fields_of_bare hbare).2.2.2.1, hone op' hop']
    exact Nat.le_refl 1
  have harranged := arranged_nodes e task hvalid hordered houtputs
  have hlocal : ∀ n ∈ e.nodes task g.ops, n.Local g.place e.workspace.place := by
    intro n hn
    obtain ⟨op, hop, rfl⟩ := List.mem_map.1 hn
    refine node_local hfurnished.places (hone op hop) (hwithin op hop) fun hself => ?_
    obtain ⟨front, rest, hsplit⟩ := List.append_of_mem hn
    refine (harranged front _ rest hsplit).1 (y op) hself ?_
    simp [node, hone op hop]
  obtain ⟨metrics₁, m₁, g₁, hrun₁, _, hsame, hadvances, hready⟩ :=
    run_of_serves hcontext hfurnished.ready hcheck hserves
  obtain ⟨_, hstate⟩ := Prod.mk.inj (hrun.symm.trans hrun₁)
  obtain ⟨rfl, rfl⟩ := Prod.mk.inj hstate
  have hfound : ∀ t ∈ g.tensors, g.tensor? t.id = some t :=
    fun t ht => Graph.tensor?_of_mem hvalid.tensorIds ht
  refine ⟨hsame.tensors, fun t ht hnone buffer hbuffer => ?_, fun op hop before => ?_,
    fun ops hperm hordered' => ?_⟩
  · apply contents_congr (hfound t ht) hbuffer
    rw [hadvances.memory]
    apply Dataflow.agreeOn_run_of_notMem hfurnished.places hlocal
    intro hmade
    obtain ⟨_, hn, hid⟩ := List.mem_map.1 hmade
    obtain ⟨op, hop, rfl⟩ := List.mem_map.1 hn
    obtain ⟨u, hu, hsource⟩ := hvalid.outputs op hop t.id (by rw [← hid, node, hone op hop]; simp)
    rw [hfound t ht, Option.some.injEq] at hu
    rw [← hu, hnone] at hsource
    cases hsource
  · obtain ⟨op', hop', hbare⟩ := hsame.mem hop
    have hfind : g'.operator? op.id = some op' :=
      Operator.id_of_bare hbare ▸ Graph.operator?_of_mem hready.opIds hop'
    obtain ⟨after, m'', g'', hdispatch, _, _, hagain, _⟩ := dispatch_apply hready hfind hbare
      ((hserves op hop).congr hsame hadvances.blocks hadvances.emulated) before
    refine ⟨after, m'', g'', hdispatch, fun t ht buffer hbuffer => ?_⟩
    apply contents_congr (hfound t ht) hbuffer
    rw [hagain.memory, hadvances.memory]
    exact Dataflow.agreeOn_again hfurnished.places harranged hlocal (List.mem_map_of_mem hop) _ t.id
  · have hcheck' : ({ g with ops } : Graph).checkBeforeRun = .ok () :=
      Graph.checkBeforeRun_eq_ok_iff.2 ⟨hvalid.perm hperm, hsorted, hconcrete⟩
    obtain ⟨metrics', m'', g'', hrun', _, _, hadvances', _⟩ :=
      run_of_serves hcontext (ready_reorder hfurnished.ready hperm) hcheck'
      fun op hop => (hserves op (hperm.mem_iff.1 hop)).reorder ops
    refine ⟨metrics', m'', g'', hrun', fun t ht buffer hbuffer => ?_⟩
    apply contents_congr (hfound t ht) hbuffer
    rw [hadvances'.memory, hadvances.memory]
    have harranged' := arranged_nodes e task (hvalid.perm hperm) hordered' fun op hop =>
      houtputs op (hperm.mem_iff.1 hop)
    exact (Dataflow.agreeOn_of_perm hfurnished.places (hperm.map _) harranged harranged'
      hlocal _ t.id).symm

/-- A sum of a product and its bias, added before the product. -/
def productSteps : List BuildStep :=
  [.tensor ⟨[.const 1, .const 1, .const 2]⟩ none .f32,
    .tensor ⟨[.const 1, .const 2, .const 1]⟩ none .f32,
    .tensor ⟨[.const 1, .const 1, .const 1]⟩ none .f32,
    .tensor ⟨[.const 1, .const 1, .const 1]⟩ none .f32,
    .tensor ⟨[.const 1, .const 1, .const 1]⟩ none .f32,
    .opWithOutputs (.pointwise .add) [4, 3] [5], .opWithOutputs (.gemm .standard) [1, 2, 3] [4]]

def productSorted : Graph :=
  ((Draft.built productSteps).graph.topoSort.toOption.map Prod.fst).getD .empty

def productGraph : Graph :=
  { productSorted with
    tensors := productSorted.tensors.map fun t =>
      { t with data := some ⟨⟨1024 * t.id⟩, t.totalBytes.toOption.getD 0⟩ } }

def productEngine : Engine :=
  { backend := 0
    kernels := .builtin
    config := .standard
    workspace := ⟨⟨512⟩, 4⟩
    contexts := [(0, ⟨.cpu, 0, 1⟩)] }

/-- Ones everywhere. -/
def productDevice : HostDevice where
  emulated := []
  blocks :=
    [5, 4, 3, 2, 1].map (fun n => ⟨1024 * n, 8, .device .cpu 0⟩) ++ [⟨512, 4, .device .cpu 0⟩]
  nextAddress := 0x10000
  memory := [1024, 1028, 2048, 2052, 3072, 4096, 5120].foldl
    (fun m a => m.write a [0, 0, 0x80, 0x3f]) .empty

def productMachine : Machine := ⟨[{ device := productDevice }], 0⟩

theorem product_furnished : productEngine.Furnished ⟨.cpu, 0, 1⟩ productMachine productGraph := by
  have hnone : ∀ op ∈ productGraph.ops, op.descriptor = none := by decide +kernel
  refine ⟨⟨⟨by decide, rfl⟩, by decide +kernel,
      fun op hop d hd => absurd (hnone op hop ▸ hd) (by simp)⟩, ?_, ?_, ?_⟩
  · have hbuffers : ∀ t ∈ productGraph.tensors,
        (t.data.any fun b => t.totalBytes = .ok b.size) = true := by
      decide +kernel
    intro t ht
    simpa [Option.any_eq_true] using hbuffers t ht
  · have hapart : ∀ t ∈ productGraph.tensors, ∀ u ∈ productGraph.tensors, t.id ≠ u.id →
        ∀ b ∈ t.data, ∀ b' ∈ u.data, b.Apart b' := by
      decide +kernel
    exact fun t ht u hu hne b b' hb hb' => hapart t ht u hu hne b hb b' hb'
  · have hscratch : ∀ t ∈ productGraph.tensors, ∀ b ∈ t.data, b.Apart productEngine.workspace := by
      decide +kernel
    exact fun t ht b hb => hscratch t ht b hb

theorem run_realises_product :
    ∃ metrics m' g', productEngine.run (productMachine, productGraph) = (.ok metrics, m', g') ∧
    productGraph.ops.map Operator.id = [2, 1] ∧
      ∀ t ∈ productGraph.tensors, t.source = none → ∀ b, t.data = some b →
      productEngine.contents m' b = productEngine.contents productMachine b := by
  have hsort : (Draft.built productSteps).graph.topoSort = .ok (productSorted, []) := by
    decide +kernel
  have hgraph : productSorted.Furnishes productGraph := ⟨by decide +kernel, rfl, rfl⟩
  have hok : (productEngine.run (productMachine, productGraph)).1.toOption.isSome = true := by
    decide +kernel
  rcases hrun : productEngine.run (productMachine, productGraph) with ⟨cause | metrics, m', g'⟩
  · rw [hrun] at hok
    cases hok
  · exact ⟨metrics, m', g', rfl, by decide +kernel,
      (run_realises_dataflow productSteps hsort hgraph
        (by decide +kernel) rfl product_furnished hrun).2.1⟩

end Engine

end TensorDataflow
