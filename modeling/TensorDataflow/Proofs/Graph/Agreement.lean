import TensorDataflow.Proofs.Graph.Resolution
/-!
# Operands of one kind

A request for an operator names its inputs and perhaps its outputs. Where the graph makes the
outputs, element-wise operators and products are granted only if the kinds of all inputs agree; the
weight of a normalisation is not looked at, and where outputs are given no kinds are looked at.
`Draft.operands_agree` therefore says of a whole construction which operators have operands of one
kind: exactly those whose request was compared, or brought together nothing else by itself.
-/

namespace TensorDataflow

namespace Act

variable {σ ε α β : Type}

theorem ofExcept_pure (a : α) : (ofExcept (pure a) : Act σ ε α) = pure a := rfl

theorem ofExcept_bind (x : Except ε α) (f : α → Except ε β) :
    (ofExcept (x >>= f) : Act σ ε β) = ofExcept x >>= fun a => ofExcept (f a) := by
  cases x <;> rfl

/-- What needs no state may wait until the state has been read. -/
theorem ofExcept_bind_get (x : Except ε α) (f : α → σ → Act σ ε β) :
    (ofExcept x >>= fun a => get >>= f a) = get >>= fun s => ofExcept x >>= fun a => f a s := by
  funext s
  cases x <;> rfl

end Act

namespace Graph

/-- The kind of a tensor's elements. -/
def kindOf (g : Graph) (id : TensorId) : Option ElementKind := (g.tensor? id).map Tensor.kind

/-- Tensors that are all there and all of one kind. -/
def Uniform (g : Graph) (ids : List TensorId) : Prop := ∃ kind, ∀ id ∈ ids, g.kindOf id = some kind

instance (g : Graph) (ids : List TensorId) : Decidable (g.Uniform ids) :=
  decidable_of_iff (∃ kind ∈ ElementKind.all, ∀ id ∈ ids, g.kindOf id = some kind)
    ⟨fun ⟨kind, _, h⟩ => ⟨kind, h⟩, fun ⟨kind, h⟩ => ⟨kind, by cases kind <;> decide, h⟩⟩

theorem kindOf_append {g : Graph} {id : TensorId} {kind : ElementKind} (h : g.kindOf id = some kind)
    (more : List Tensor) :
    ({ g with tensors := g.tensors ++ more } : Graph).kindOf id = some kind := by
  obtain ⟨t, ht, hkind⟩ := Option.map_eq_some_iff.1 h
  rw [kindOf, tensor?_append ht, Option.map_some, hkind]

theorem kindOf_connect (g : Graph) (op : Operator) (id : TensorId) :
    (g.connect op).kindOf id = g.kindOf id := by
  rw [kindOf, kindOf, tensor?_connect, Option.map_map]
  rfl

theorem uniform_iff {g : Graph} {ids : List TensorId} {kinds : List ElementKind}
    (h : ids.map g.kindOf = kinds.map some) : g.Uniform ids ↔ ∃ kind, ∀ k ∈ kinds, k = kind := by
  have hall : ∀ kind, (∀ id ∈ ids, g.kindOf id = some kind) ↔ ∀ k ∈ kinds, k = kind := by
    intro kind
    rw [← List.forall_mem_map (f := g.kindOf) (P := (· = some kind)), h]
    simp
  simp only [Uniform, hall]

theorem map_kindOf_of_forall₂ {g : Graph} {ids : List TensorId} {tensors : List Tensor}
    (h : List.Forall₂ (fun id t => g.tensor? id = some t) ids tensors) :
    ids.map g.kindOf = (tensors.map Tensor.kind).map some := by
  induction h with
  | nil => rfl
  | cons hid _ ih =>
      rw [List.map_cons, ih, kindOf, hid, Option.map_some, List.map_cons, List.map_cons]

theorem map_kindOf_of_tensorsOf {g : Graph} {ids : List TensorId} {tensors : List Tensor}
    (h : g.tensorsOf ids = .ok tensors) :
    ids.map g.kindOf = (tensors.map Tensor.kind).map some :=
  map_kindOf_of_forall₂ (tensorsOf_eq_ok_iff.1 h)

/-- The second graph knows the kinds that the first knows. -/
def KeepsKinds (g g' : Graph) : Prop :=
  ∀ id kind, g.kindOf id = some kind → g'.kindOf id = some kind

theorem KeepsKinds.map_kindOf {g g' : Graph} (h : KeepsKinds g g') {ids : List TensorId}
    {kinds : List ElementKind} (hkinds : ids.map g.kindOf = kinds.map some) :
    ids.map g'.kindOf = kinds.map some := by
  induction ids generalizing kinds with
  | nil => exact hkinds
  | cons id ids ih =>
      cases kinds with
      | nil => simp at hkinds
      | cons kind kinds =>
          simp only [List.map_cons, List.cons.injEq] at hkinds ⊢
          exact ⟨h id kind hkinds.1, ih hkinds.2⟩

end Graph

def Operator.operands (op : Operator) : List TensorId := op.inputs ++ op.outputs

/-! ### Requests -/

/-- A request for an operator; the outputs are given, or they are to be made. -/
structure Request where
  kind : OpKind
  inputs : List TensorId
  given : Option (List TensorId)

/-- The kinds whose inference compares the kinds of all inputs. -/
def OpKind.Compares : OpKind → Prop
  | pointwise _ | gemm _ => True
  | rmsNorm _ | declared _ => False

namespace Request

/-- The graph compares the kinds of all operands itself. -/
def Compared (r : Request) : Prop := r.given = none ∧ r.kind.Compares

/-- The kinds that the operator would bring together: those of its inputs, and those of the given
outputs or the inferred ones. -/
def operandKinds (r : Request) (g : Graph) : Except GraphError (List ElementKind) := do
  let inputs ← g.tensorsOf r.inputs
  let outputs ← match r.given with
    | some outputs => do pure ((← g.tensorsOf outputs).map Tensor.kind)
    | none => r.kind.inferKinds inputs
  return inputs.map Tensor.kind ++ outputs

/-- The operator would bring together nothing but tensors of one kind. -/
def Agrees (r : Request) (g : Graph) : Prop :=
  ∃ kinds kind, r.operandKinds g = .ok kinds ∧ ∀ k ∈ kinds, k = kind

/-- Grants the request, or says why not. -/
def grant (r : Request) : Act Draft GraphError OpId :=
  match r.given with
  | some outputs => Draft.addOpWithOutputs r.kind r.inputs outputs
  | none => Draft.addOp r.kind r.inputs

end Request

namespace Draft

/-- What the graph settles before it makes the outputs of an operator: their shapes and kinds. -/
def inferOutputs (g : Graph) (kind : OpKind) (inputs : List TensorId) :
    Except GraphError (List (Shape × ElementKind)) := do
  kind.checkArity .inputs kind.inputArity inputs.length
  let tensors ← g.tensorsOf inputs
  let shapes ← kind.inferShapes tensors
  let kinds ← kind.inferKinds tensors
  kind.checkArity .inferredShapes (kind.outputCount, kind.outputCount) shapes.length
  kind.checkArity .inferredKinds (kind.outputCount, kind.outputCount) kinds.length
  return shapes.zip kinds

/-- What it settles where the outputs are given. -/
def checkGiven (g : Graph) (kind : OpKind) (inputs outputs : List TensorId) :
    Except GraphError Unit := do
  kind.checkArity .inputs kind.inputArity inputs.length
  kind.checkArity .outputs (kind.outputCount, kind.outputCount) outputs.length
  let tensors ← g.tensorsOf inputs
  let shapes ← kind.inferShapes tensors
  kind.checkArity .inferredShapes (kind.outputCount, kind.outputCount) shapes.length
  checkOutputs g kind.type 0 (outputs.zip shapes)

theorem addOp_eq (kind : OpKind) (inputs : List TensorId) :
    addOp kind inputs = (do
      let pairs ← Act.ofExcept (inferOutputs (← get).graph kind inputs)
      let outputs ← pairs.mapM fun pair => addTensor pair.1 none pair.2
      addOperator kind inputs outputs) := by
  simp only [addOp, inferOutputs, Act.ofExcept_bind_get, Act.ofExcept_bind, Act.ofExcept_pure,
    bind_assoc, pure_bind]

theorem addOpWithOutputs_eq (kind : OpKind) (inputs outputs : List TensorId) :
    addOpWithOutputs kind inputs outputs = (do
      Act.ofExcept (checkGiven (← get).graph kind inputs outputs)
      addOperator kind inputs outputs) := by
  simp only [addOpWithOutputs, checkGiven, Act.ofExcept_bind_get, Act.ofExcept_bind, bind_assoc]

/-- Tensors are added at most, and none hides another. -/
structure Extends (d d' : Draft) : Prop where
  ops : d'.graph.ops = d.graph.ops
  ids : d'.ids.operator = d.ids.operator
  kinds : d.graph.KeepsKinds d'.graph

instance : IsPreorder Draft Extends where
  refl _ := ⟨rfl, rfl, fun _ _ h => h⟩
  trans _ _ _ h h' := ⟨h'.ops.trans h.ops, h'.ids.trans h.ids,
      fun id kind hkind => h'.kinds id kind (h.kinds id kind hkind)⟩

theorem makeTensor_extends (shape : Shape) (stride : Option Stride) (kind : ElementKind) :
    (Draft.makeTensor shape stride kind).Keeps Extends := by
  intro d
  rw [makeTensor_apply]
  cases Tensor.make d.ids.tensor shape stride kind with
  | error e => exact refl_of Extends d
  | ok t => exact ⟨rfl, rfl, fun _ _ h => h⟩

theorem insertTensor_extends (t : Tensor) : (Draft.insertTensor t).Keeps Extends := by
  intro d
  rw [insertTensor_apply]
  split
  · exact refl_of Extends d
  · exact ⟨rfl, rfl, fun _ _ h => Graph.kindOf_append h [t]⟩

theorem addTensor_extends (shape : Shape) (stride : Option Stride) (kind : ElementKind) :
    (Draft.addTensor shape stride kind).Keeps Extends :=
  (makeTensor_extends shape stride kind).bind insertTensor_extends

theorem addTensors_extends (pairs : List (Shape × ElementKind)) :
    Act.Keeps Extends (pairs.mapM fun pair => Draft.addTensor pair.1 none pair.2) := by
  apply Act.Keeps.mapM
  intro pair
  exact addTensor_extends pair.1 none pair.2

theorem kindOf_of_addTensor {shape : Shape} {stride : Option Stride} {kind : ElementKind}
    {d d' : Draft} {id : TensorId} (h : Draft.addTensor shape stride kind d = (.ok id, d')) :
    d'.graph.kindOf id = some kind := by
  obtain ⟨t, d₁, hmake, hinsert⟩ := Act.bind_eq_ok h
  have hkind : t.kind = kind := by
    rw [makeTensor_apply] at hmake
    split at hmake
    · next u hu =>
        cases hmake
        rw [(Tensor.make_eq_ok hu).2]
    · cases hmake
  rw [insertTensor_apply] at hinsert
  split at hinsert
  · cases hinsert
  · next habsent =>
      cases hinsert
      have hnone : d₁.graph.tensor? t.id = none := by simpa using habsent
      have hfound :
          ({ d₁.graph with tensors := d₁.graph.tensors ++ [t] } : Graph).tensor? t.id = some t := by
        unfold Graph.tensor? at *
        rw [List.find?_append, hnone]
        simp
      rw [Graph.kindOf, hfound, Option.map_some, hkind]

theorem map_kindOf_of_addTensors {pairs : List (Shape × ElementKind)} {d d' : Draft}
    {outputs : List TensorId}
    (h : (pairs.mapM fun pair => Draft.addTensor pair.1 none pair.2) d = (.ok outputs, d')) :
    outputs.map d'.graph.kindOf = (pairs.map Prod.snd).map some := by
  induction pairs generalizing d outputs with
  | nil =>
      cases h
      rfl
  | cons pair pairs ih =>
      rw [List.mapM_cons] at h
      obtain ⟨id, d₁, hfirst, h⟩ := Act.bind_eq_ok h
      obtain ⟨ids, d₂, hrest, h⟩ := Act.bind_eq_ok h
      cases h
      have hextends := addTensors_extends pairs d₁
      rw [hrest] at hextends
      have hid := hextends.kinds id pair.2 (kindOf_of_addTensor hfirst)
      rw [List.map_cons, hid, ih hrest, List.map_cons, List.map_cons]

end Draft

/-- A kind that compares answers the common kind of its inputs, or names two that differ. -/
theorem OpKind.inferKinds_of_compares {kind : OpKind}
    (hcompares : kind.Compares) {tensors : List Tensor}
    (harity : kind.checkArity .inputs kind.inputArity tensors.length = .ok ()) :
    (∃ k, (∀ t ∈ tensors, t.kind = k) ∧ kind.inferKinds tensors = .ok [k]) ∨
      ∃ a ∈ tensors, ∃ b ∈ tensors, a.kind ≠ b.kind ∧
      kind.inferKinds tensors = .error (.kindMismatch kind.type a.kind b.kind) := by
  rw [Draft.checkArity_eq_ok_iff] at harity
  cases kind with
  | pointwise f =>
      obtain ⟨a, b, rfl⟩ := List.length_eq_two.1 (Nat.le_antisymm harity.2 harity.1)
      by_cases hsame : a.kind = b.kind
      · exact .inl ⟨a.kind, by simp [hsame], by simp [inferKinds, hsame]⟩
      · exact .inr ⟨a, by simp, b, by simp, hsame, by simp [inferKinds, hsame, type]⟩
  | gemm attributes =>
      obtain ⟨a, rest, rfl⟩ :=
        List.exists_cons_of_length_pos (Nat.lt_of_lt_of_le Nat.two_pos harity.1)
      cases hfind : rest.find? fun t => t.kind ≠ a.kind with
      | none =>
          refine .inl ⟨a.kind, by simpa using hfind, ?_⟩
          rw [inferKinds, hfind]
      | some t =>
          have hdiffers : t.kind ≠ a.kind := by simpa using List.find?_some hfind
          refine .inr ⟨a, by simp, t, List.mem_cons_of_mem _ (List.mem_of_find?_eq_some hfind),
              hdiffers.symm, ?_⟩
          rw [inferKinds, hfind]
          rfl
  | rmsNorm epsilon => exact absurd hcompares id
  | declared d => exact absurd hcompares id

/-- Inputs of different kinds are found out by a kind that compares. -/
theorem OpKind.inferKinds_of_mixed {kind : OpKind} (hcompares : kind.Compares) {g : Graph}
    {inputs : List TensorId} (hmixed : ¬ g.Uniform inputs) {tensors : List Tensor}
    (harity : kind.checkArity .inputs kind.inputArity inputs.length = .ok ())
    (htensors : g.tensorsOf inputs = .ok tensors) :
    ∃ a ∈ tensors, ∃ b ∈ tensors, a.kind ≠ b.kind ∧
    kind.inferKinds tensors = .error (.kindMismatch kind.type a.kind b.kind) := by
  rw [(Graph.tensorsOf_eq_ok_iff.1 htensors).length_eq] at harity
  refine (inferKinds_of_compares hcompares harity).resolve_left ?_
  intro ⟨k, hsame, _⟩
  apply hmixed
  rw [Graph.uniform_iff (Graph.map_kindOf_of_tensorsOf htensors)]
  exact ⟨k, by rwa [List.forall_mem_map]⟩

theorem Graph.exists_tensorsOf {g : Graph} {ids : List TensorId}
    (h : ∀ id ∈ ids, ∃ t, g.tensor? id = some t) : ∃ tensors, g.tensorsOf ids = .ok tensors := by
  induction ids with
  | nil => exact ⟨[], rfl⟩
  | cons id ids ih =>
      obtain ⟨t, ht⟩ := h id List.mem_cons_self
      obtain ⟨tensors, htensors⟩ := ih fun id' hid' => h id' (List.mem_cons_of_mem _ hid')
      exact ⟨t :: tensors, tensorsOf_eq_ok_iff.2 (.cons ht (tensorsOf_eq_ok_iff.1 htensors))⟩

/-- A request that is granted has its outputs in a draft that knows all that it brings together. -/
structure Request.Granted (r : Request) (d d₁ : Draft) (outputs : List TensorId) : Prop where
  extended : d.Extends d₁
  given : ∀ given, r.given = some given → outputs = given
  count : outputs.length = r.kind.outputCount
  kinds : ∃ kinds, r.operandKinds d.graph = .ok kinds ∧
    (r.inputs ++ outputs).map d₁.graph.kindOf = kinds.map some
  agrees : r.Compared → r.Agrees d.graph

namespace Draft

theorem granted_of_addOpWithOutputs {kind : OpKind} {inputs outputs : List TensorId} {d d' : Draft}
    {id : OpId} (h : addOpWithOutputs kind inputs outputs d = (.ok id, d')) :
    Request.Granted ⟨kind, inputs, some outputs⟩ d d outputs ∧ id = d.ids.operator ∧
    d' = d.pushOperator kind inputs outputs := by
  rw [addOpWithOutputs_eq, Act.bind_of_ok (Act.get_apply _)] at h
  obtain ⟨_, d₁, hcheck, hadd⟩ := Act.bind_eq_ok h
  obtain ⟨hcheck, rfl⟩ := Act.ofExcept_eq_ok hcheck
  obtain ⟨hid, hd⟩ := Prod.mk.inj hadd
  simp only [checkGiven, except_bind_eq_ok] at hcheck
  obtain ⟨_, _, _, hcount, tensors, htensors, shapes, _, _, hshapeCount, houtputs⟩ := hcheck
  rw [checkArity_eq_ok_iff] at hcount hshapeCount
  have hthere := checkOutputs_eq_ok (by omega) houtputs
  obtain ⟨found, hfound⟩ : ∃ found, d₁.graph.tensorsOf outputs = .ok found := by
    apply Graph.exists_tensorsOf
    intro id hid
    obtain ⟨_, _, t, ht, _⟩ := exists_of_forall₂_of_mem hthere hid
    exact ⟨t, ht⟩
  have hoperands : Request.operandKinds ⟨kind, inputs, some outputs⟩ d₁.graph =
      .ok (tensors.map Tensor.kind ++ found.map Tensor.kind) := by
    simp only [Request.operandKinds, htensors, hfound, bind, Except.bind, pure, Except.pure]
  have hkinds : (inputs ++ outputs).map d₁.graph.kindOf =
      (tensors.map Tensor.kind ++ found.map Tensor.kind).map some := by
    rw [List.map_append, Graph.map_kindOf_of_tensorsOf htensors,
      Graph.map_kindOf_of_tensorsOf hfound, List.map_append]
  have hnever : ¬ Request.Compared ⟨kind, inputs, some outputs⟩ := fun h => nomatch h.1
  exact ⟨⟨refl_of _ d₁, fun _ h => Option.some.inj h, Nat.le_antisymm hcount.2 hcount.1,
      ⟨_, hoperands, hkinds⟩, fun h => absurd h hnever⟩, (Except.ok.inj hid).symm, hd.symm⟩

theorem granted_of_addOp {kind : OpKind} {inputs : List TensorId} {d d' : Draft} {id : OpId}
    (h : addOp kind inputs d = (.ok id, d')) :
    ∃ d₁ outputs, Request.Granted ⟨kind, inputs, none⟩ d d₁ outputs ∧ id = d₁.ids.operator ∧
    d' = d₁.pushOperator kind inputs outputs := by
  rw [addOp_eq, Act.bind_of_ok (Act.get_apply _)] at h
  obtain ⟨pairs, d₀, hinfer, hrest⟩ := Act.bind_eq_ok h
  obtain ⟨hinfer, rfl⟩ := Act.ofExcept_eq_ok hinfer
  obtain ⟨outputs, d₁, hmake, hadd⟩ := Act.bind_eq_ok hrest
  obtain ⟨hid, hd⟩ := Prod.mk.inj hadd
  simp only [inferOutputs, except_bind_eq_ok] at hinfer
  obtain ⟨_, harity, tensors, htensors, shapes, _, kinds, hkinds, _, hshapeCount, _, hkindCount,
        hpairs⟩ := hinfer
  cases hpairs
  rw [checkArity_eq_ok_iff] at hshapeCount hkindCount
  have hextends := addTensors_extends (shapes.zip kinds) d₀
  rw [hmake] at hextends
  have hmade := map_kindOf_of_addTensors hmake
  rw [List.map_snd_zip (by omega)] at hmade
  have hoperands : Request.operandKinds ⟨kind, inputs, none⟩ d₀.graph =
      .ok (tensors.map Tensor.kind ++ kinds) := by
    simp only [Request.operandKinds, htensors, hkinds, bind, Except.bind, pure, Except.pure]
  refine ⟨d₁, outputs, ⟨hextends, by simp, ?_, ⟨_, hoperands, ?_⟩, ?_⟩,
    (Except.ok.inj hid).symm, hd.symm⟩
  · have hlength := congrArg List.length hmade
    simp only [List.length_map] at hlength
    dsimp only
    omega
  · rw [List.map_append, hextends.kinds.map_kindOf (Graph.map_kindOf_of_tensorsOf htensors), hmade,
      List.map_append]
  · intro hcompared
    rw [(Graph.tensorsOf_eq_ok_iff.1 htensors).length_eq] at harity
    rcases OpKind.inferKinds_of_compares hcompared.2 harity
        with ⟨k, hsame, hk⟩ | ⟨a, _, b, _, _, herror⟩
    · obtain rfl : kinds = [k] := Except.ok.inj (hkinds.symm.trans hk)
      refine ⟨_, k, hoperands, ?_⟩
      rw [List.forall_mem_append, List.forall_mem_map]
      exact ⟨hsame, by simp⟩
    · rw [hkinds] at herror
      cases herror

end Draft

namespace Request

theorem granted_of_grant {r : Request} {d d' : Draft} {id : OpId} (h : r.grant d = (.ok id, d')) :
    ∃ d₁ outputs, r.Granted d d₁ outputs ∧ d' = d₁.pushOperator r.kind r.inputs outputs := by
  obtain ⟨kind, inputs, _ | outputs⟩ := r
  · obtain ⟨d₁, outputs, hgranted, _, hd'⟩ := Draft.granted_of_addOp h
    exact ⟨d₁, outputs, hgranted, hd'⟩
  · obtain ⟨hgranted, _, hd'⟩ := Draft.granted_of_addOpWithOutputs h
    exact ⟨d, outputs, hgranted, hd'⟩

/-- What is not granted leaves nothing behind but tensors that were made for it. -/
theorem extends_of_grant {r : Request} {d d' : Draft} {e : GraphError}
    (h : r.grant d = (.error e, d')) : d.Extends d' := by
  obtain ⟨kind, inputs, _ | outputs⟩ := r
  · simp only [grant, Draft.addOp_eq, Act.bind_apply, Act.get_apply, Act.ofExcept_apply] at h
    cases hinfer : Draft.inferOutputs d.graph kind inputs with
    | error e =>
        rw [hinfer] at h
        cases h
        exact refl_of _ d
    | ok pairs =>
        have hextends := Draft.addTensors_extends pairs d
        rw [hinfer] at h
        dsimp only at h
        split at h
        · cases h
        · next hmake =>
            cases h
            rwa [hmake] at hextends
  · simp only [grant, Draft.addOpWithOutputs_eq, Act.bind_apply, Act.get_apply,
      Act.ofExcept_apply] at h
    cases hcheck : Draft.checkGiven d.graph kind inputs outputs with
    | error e =>
        rw [hcheck] at h
        cases h
        exact refl_of _ d
    | ok _ =>
        rw [hcheck] at h
        cases h

/-- What inference says against a request is the answer to it. -/
theorem addOp_of_error {kind : OpKind} {inputs : List TensorId} {d : Draft} {e : GraphError}
    (h : Draft.inferOutputs d.graph kind inputs = .error e) :
    Draft.addOp kind inputs d = (.error e, d) := by
  rw [Draft.addOp_eq, Act.bind_of_ok (Act.get_apply d), h]
  rfl

/-- A request whose kinds the graph compares, and whose inputs have different ones, is refused and
changes nothing. -/
theorem refused_of_compared {r : Request} (hcompared : r.Compared) {d : Draft}
    (hmixed : ¬ d.graph.Uniform r.inputs) : ∃ e, r.grant d = (.error e, d) := by
  obtain ⟨kind, inputs, given⟩ := r
  obtain ⟨rfl, hcompares⟩ : given = none ∧ kind.Compares := hcompared
  cases hinfer : Draft.inferOutputs d.graph kind inputs with
  | error e =>
      exact ⟨e, addOp_of_error hinfer⟩
  | ok pairs =>
      simp only [Draft.inferOutputs, except_bind_eq_ok] at hinfer
      obtain ⟨_, harity, tensors, htensors, _, _, kinds, hkinds, _⟩ := hinfer
      obtain ⟨a, _, b, _, _, herror⟩ := OpKind.inferKinds_of_mixed hcompares hmixed harity htensors
      rw [hkinds] at herror
      cases herror

/-- Where nothing else is wrong, the refusal names two kinds that differ. -/
theorem mismatch_of_compared {r : Request} (hcompared : r.Compared) {d : Draft}
    (hmixed : ¬ d.graph.Uniform r.inputs) {tensors : List Tensor} {shapes : List Shape}
    (harity : r.kind.checkArity .inputs r.kind.inputArity r.inputs.length = .ok ())
    (htensors : d.graph.tensorsOf r.inputs = .ok tensors)
    (hshapes : r.kind.inferShapes tensors = .ok shapes) :
    ∃ a ∈ tensors, ∃ b ∈ tensors, a.kind ≠ b.kind ∧
    r.grant d = (.error (.kindMismatch r.kind.type a.kind b.kind), d) := by
  obtain ⟨kind, inputs, given⟩ := r
  obtain ⟨rfl, hcompares⟩ : given = none ∧ kind.Compares := hcompared
  dsimp only at harity htensors hshapes hmixed ⊢
  obtain ⟨a, ha, b, hb, hdiffer, herror⟩ :=
    OpKind.inferKinds_of_mixed hcompares hmixed harity htensors
  refine ⟨a, ha, b, hb, hdiffer, ?_⟩
  have hinfer : Draft.inferOutputs d.graph kind inputs =
      .error (.kindMismatch kind.type a.kind b.kind) := by
    simp only [Draft.inferOutputs, harity, htensors, hshapes, herror, bind, Except.bind]
  exact addOp_of_error hinfer

end Request

/-! ### Whole constructions -/

/-- A call that constructs: tensors and operators are added directly or by a builder's method, and
numbers go to other graphs. -/
inductive Call where
  | tensor (shape : Shape) (stride : Option Stride) (kind : ElementKind)
  | operator (request : Request)
  | method (kind : OpKind) (inputs : List TensorId) (output : Option TensorId)
  | elsewhere (tensors operators : Nat)

namespace Call

/-- The request that a call comes down to. -/
def request? : Call → Option Request
  | tensor _ _ _ | elsewhere _ _ => none
  | operator request => some request
  | method kind inputs output => some ⟨kind, inputs, output.map fun y => [y]⟩

/-- The call itself; what it answers besides success is left out. -/
def perform : Call → Act Draft GraphError Unit
  | tensor shape stride kind => discard (Draft.addTensor shape stride kind)
  | operator request => discard request.grant
  | method kind inputs output => discard (Draft.build kind inputs output)
  | elsewhere tensors operators => modify fun d => d.skip tensors operators

end Call

namespace Draft

/-- The draft after a call, whether it succeeds or not. -/
def after (d : Draft) (c : Call) : Draft := (c.perform d).2

def constructed (calls : List Call) : Draft := calls.foldl after .empty

/-- The request of a call, with the graph that it met, if it was granted. -/
def grantedBy (d : Draft) (c : Call) : List (Graph × Request) :=
  match c.request? with
  | some r => if (r.grant d).1.isOk then [(d.graph, r)] else []
  | none => []

def granted (d : Draft) : List Call → List (Graph × Request)
  | [] => []
  | c :: calls => d.grantedBy c ++ (d.after c).granted calls

/-- A method does to the draft what its request does, and fails if that fails. -/
theorem build_apply (kind : OpKind) (inputs : List TensorId)
    (output : Option TensorId) (d : Draft) :
    (build kind inputs output d).2 = (Request.grant ⟨kind, inputs, output.map fun y => [y]⟩ d).2 ∧
      ∀ e, (Request.grant ⟨kind, inputs, output.map fun y => [y]⟩ d).1 = .error e →
      (build kind inputs output d).1 = .error e := by
  cases output with
  | some y =>
      simp only [build, Act.bind_apply, Request.grant, Option.map_some]
      rcases addOpWithOutputs kind inputs [y] d with ⟨e | id, d'⟩
      · exact ⟨rfl, fun _ h => by cases h; rfl⟩
      · exact ⟨rfl, fun _ h => nomatch h⟩
  | none =>
      simp only [build, Act.bind_apply, Request.grant, Option.map_none]
      rcases addOp kind inputs d with ⟨e | id, d'⟩
      · exact ⟨rfl, fun _ h => by cases h; rfl⟩
      · refine ⟨?_, fun _ h => nomatch h⟩
        simp only [Act.get_apply, Act.ofExcept_apply]
        cases d'.graph.operator id with
        | error e => rfl
        | ok op =>
            dsimp only
            cases op.outputs.head? <;> rfl

theorem after_of_request {d : Draft} {c : Call} {r : Request} (h : c.request? = some r) :
    d.after c = (r.grant d).2 ∧ ∀ e, (r.grant d).1 = .error e → (c.perform d).1 = .error e := by
  cases c with
  | tensor shape stride kind => cases h
  | elsewhere tensors operators => cases h
  | operator request =>
      obtain rfl := Option.some.inj h
      rw [after, Call.perform, Act.discard_apply]
      exact ⟨rfl, fun e he => by rw [he]; rfl⟩
  | method kind inputs output =>
      obtain rfl := Option.some.inj h
      obtain ⟨hstate, herror⟩ := build_apply kind inputs output d
      rw [after, Call.perform, Act.discard_apply]
      exact ⟨hstate, fun e he => by rw [herror e he]; rfl⟩

end Draft

/-- An operator as its request wanted it: the kinds of its operands are those that the graph of the
request told. -/
structure Operator.Answers (op : Operator) (g : Graph) (asked : Graph × Request) : Prop where
  kind : op.kind = asked.2.kind
  inputs : op.inputs = asked.2.inputs
  given : ∀ outputs, asked.2.given = some outputs → op.outputs = outputs
  kinds : ∃ kinds, asked.2.operandKinds asked.1 = .ok kinds ∧
    op.operands.map g.kindOf = kinds.map some
  agrees : asked.2.Compared → asked.2.Agrees asked.1

namespace Operator

variable {op op' : Operator} {g g' : Graph} {asked : Graph × Request}

theorem Answers.mono (h : op.Answers g asked) (hg : g.KeepsKinds g') : op.Answers g' asked where
  kind := h.kind
  inputs := h.inputs
  given := h.given
  kinds := by
    obtain ⟨kinds, hasked, hkinds⟩ := h.kinds
    exact ⟨kinds, hasked, hg.map_kindOf hkinds⟩
  agrees := h.agrees

theorem Answers.uniform_iff (h : op.Answers g asked) :
    g.Uniform op.operands ↔ asked.2.Agrees asked.1 := by
  obtain ⟨kinds, hasked, hkinds⟩ := h.kinds
  rw [Graph.uniform_iff hkinds, Request.Agrees]
  constructor
  · intro ⟨kind, hsame⟩
    exact ⟨kinds, kind, hasked, hsame⟩
  · intro ⟨kinds', kind, hasked', hsame⟩
    obtain rfl := Except.ok.inj (hasked.symm.trans hasked')
    exact ⟨kind, hsame⟩

end Operator

namespace Draft

/-- The operators of a draft answer the requests that were granted, one by one. -/
def Answered (d : Draft) (asked : List (Graph × Request)) : Prop :=
  List.Forall₂ (fun op a => op.Answers d.graph a) d.graph.ops asked

theorem Answered.extend {d d' : Draft} {asked : List (Graph × Request)} (h : d.Answered asked)
    (hextends : d.Extends d') : d'.Answered asked := by
  rw [Answered, hextends.ops]
  exact h.imp fun op a hop => hop.mono hextends.kinds

/-- An operator that is connected answers its request, and the links that others get change none of
their answers. -/
theorem Answered.push {d d₁ : Draft} {asked : List (Graph × Request)} (h : d.Answered asked)
    {r : Request} {outputs : List TensorId} (hr : r.Granted d d₁ outputs) :
    (d₁.pushOperator r.kind r.inputs outputs).Answered (asked ++ [(d.graph, r)]) := by
  have hkeeps : d₁.graph.KeepsKinds (d₁.pushOperator r.kind r.inputs outputs).graph :=
    fun id kind hkind => by rwa [pushOperator, Graph.kindOf_connect]
  rw [Answered]
  nth_rewrite 2 [pushOperator]
  rw [Graph.connect_eq]
  apply List.rel_append
  · rw [List.forall₂_map_left_iff]
    refine (h.extend hr.extended).imp fun op a hop => ?_
    have hmono := hop.mono hkeeps
    exact ⟨hmono.kind, hmono.inputs, hmono.given, hmono.kinds, hmono.agrees⟩
  · obtain ⟨kinds, hasked, hkinds⟩ := hr.kinds
    exact .cons ⟨rfl, rfl, hr.given, ⟨kinds, hasked, hkeeps.map_kindOf hkinds⟩, hr.agrees⟩ .nil

theorem Answered.after {d : Draft} {asked : List (Graph × Request)} (h : d.Answered asked)
    (c : Call) : (d.after c).Answered (asked ++ d.grantedBy c) := by
  cases hrequest : c.request? with
  | some r =>
      rw [(after_of_request hrequest).1, grantedBy, hrequest]
      dsimp only
      rcases hgrant : r.grant d with ⟨e | id, d'⟩
      · rw [if_neg (by simp [Except.isOk, Except.toBool]), List.append_nil]
        exact h.extend (Request.extends_of_grant hgrant)
      · obtain ⟨d₁, outputs, hgranted, rfl⟩ := Request.granted_of_grant hgrant
        exact h.push hgranted
  | none =>
      rw [grantedBy, hrequest, List.append_nil]
      cases c with
      | tensor shape stride kind =>
          refine h.extend ?_
          rw [Draft.after, Call.perform, Act.discard_apply]
          exact addTensor_extends shape stride kind d
      | elsewhere tensors operators => exact h
      | operator request => cases hrequest
      | method kind inputs output => cases hrequest

theorem answered_empty : empty.Answered [] := .nil

theorem Answered.run {d : Draft} {asked : List (Graph × Request)} (h : d.Answered asked)
    (calls : List Call) : (calls.foldl Draft.after d).Answered (asked ++ d.granted calls) := by
  induction calls generalizing d asked with
  | nil =>
      rw [granted, List.append_nil]
      exact h
  | cons c calls ih =>
      rw [granted, ← List.append_assoc]
      exact ih (h.after c)

/-- In whatever way a graph is constructed, its operators are those whose requests were granted, and
the operands of an operator are of one kind exactly when its request was compared or brought
together nothing else. A call whose request is compared is refused where its inputs have different
kinds; nothing changes then, and two kinds that differ are named unless something else is wrong
too. -/
theorem operands_agree (calls : List Call) :
    let d := constructed calls
    List.Forall₂ (fun op asked => op.kind = asked.2.kind ∧ op.inputs = asked.2.inputs ∧
        (d.graph.Uniform op.operands ↔ asked.2.Compared ∨ asked.2.Agrees asked.1))
        d.graph.ops (Draft.empty.granted calls) ∧
      ∀ (c : Call) (r : Request), c.request? = some r → r.Compared → ¬ d.graph.Uniform r.inputs →
        ∃ e, c.perform d = (.error e, d) ∧
          ∀ tensors shapes, r.kind.checkArity .inputs r.kind.inputArity r.inputs.length = .ok () →
          d.graph.tensorsOf r.inputs = .ok tensors → r.kind.inferShapes tensors = .ok shapes →
            ∃ a ∈ tensors, ∃ b ∈ tensors, a.kind ≠ b.kind ∧
            e = .kindMismatch r.kind.type a.kind b.kind := by
  intro d
  have hanswered : d.Answered (Draft.empty.granted calls) := answered_empty.run calls
  constructor
  · refine hanswered.imp fun op asked h => ⟨h.kind, h.inputs, ?_⟩
    rw [h.uniform_iff]
    exact ⟨.inr, fun h' => h'.elim h.agrees id⟩
  · intro c r hrequest hcompared hmixed
    obtain ⟨e, hrefused⟩ := Request.refused_of_compared hcompared hmixed
    obtain ⟨hstate, herror⟩ := after_of_request (d := d) hrequest
    rw [hrefused] at hstate herror
    refine ⟨e, Prod.ext (herror e rfl) hstate, fun tensors shapes harity htensors hshapes => ?_⟩
    obtain ⟨a, ha, b, hb, hdiffer, hmismatch⟩ :=
      Request.mismatch_of_compared hcompared hmixed harity htensors hshapes
    rw [hrefused] at hmismatch
    exact ⟨a, ha, b, hb, hdiffer, Except.error.inj (Prod.mk.inj hmismatch).1⟩

/-- A matrix, a vector of another kind, and the normalisation of the one by the other. -/
def mixedWeight : List Call :=
  [.tensor ⟨[.const 2, .const 4]⟩ none .f32, .tensor ⟨[.const 4]⟩ none .f64,
    .operator ⟨.rmsNorm standardEpsilon, [1, 2], none⟩]

/-- The normalisation is granted, as is a sum of two kinds whose output is given, while without the
output the sum is refused. -/
theorem mixedWeight_accepted :
    (∃ op ∈ (constructed mixedWeight).graph.ops, op.kind = .rmsNorm standardEpsilon ∧
      ¬ (constructed mixedWeight).graph.Uniform op.operands) ∧
      (∃ op ∈
          (constructed (mixedWeight ++ [.operator ⟨.pointwise .add, [1, 2], some [3]⟩])).graph.ops,
        op.kind = .pointwise .add ∧ ¬ (constructed (mixedWeight ++
            [.operator ⟨.pointwise .add, [1, 2], some [3]⟩])).graph.Uniform op.operands) ∧
      (Request.grant ⟨.pointwise .add, [1, 2], none⟩ (constructed mixedWeight)).1 =
        .error (.kindMismatch .add .f32 .f64) := by
  decide +kernel

end Draft

end TensorDataflow
