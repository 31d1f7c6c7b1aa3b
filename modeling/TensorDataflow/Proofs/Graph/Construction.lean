import TensorDataflow.Proofs.Graph.Resolution
/-!
# Constructions that fail

A construction checks what it is given before it changes anything, makes the outputs of an operator
next and wires the operator last. The first output that cannot be made stays without consequences,
so with one output, as every built-in kind has, a construction that fails has changed nothing:
`Construction.atomic`. That rests on the numbers alone. A tensor with a new number is never a
duplicate, and an operator with a new number is the one that is found under it.
-/

namespace TensorDataflow

namespace Act

variable {σ ε α β : Type}

/-- What follows on an action and only looks leaves what that action has left. -/
theorem bind_snd {x : Act σ ε α} {f : α → Act σ ε β} (hf : ∀ a s, (f a s).2 = s) (s : σ) :
    ((x >>= f) s).2 = (x s).2 := by
  rw [bind_apply]
  rcases x s with ⟨e | a, s'⟩
  · rfl
  · exact hf a s'

/-- An action that fails in a state leaves it as it is. -/
def Atomic (act : Act σ ε α) (s : σ) : Prop := ∀ e s', act s = (.error e, s') → s' = s

theorem atomic_of_ok {act : Act σ ε α} {s s' : σ} {a : α} (h : act s = (.ok a, s')) :
    act.Atomic s := by
  intro e s'' hfailed
  rw [h] at hfailed
  cases hfailed

theorem atomic_pure (a : α) (s : σ) : (pure a : Act σ ε α).Atomic s := atomic_of_ok (pure_apply a s)

/-- A check comes first and changes nothing. -/
theorem atomic_ofExcept_bind {x : Except ε α} {f : α → Act σ ε β} {s : σ}
    (h : ∀ a, x = .ok a → (f a).Atomic s) : (ofExcept x >>= f).Atomic s := by
  cases x with
  | error e =>
      rintro _ s' hfailed
      cases hfailed
      rfl
  | ok a => exact h a rfl

theorem ofExcept_bind_eq_ok {x : Except ε α} {f : α → Act σ ε β} {s s' : σ} {b : β}
    (h : (ofExcept x >>= f) s = (.ok b, s')) : ∃ a, x = .ok a ∧ f a s = (.ok b, s') := by
  obtain ⟨a, s₁, hfirst, hrest⟩ := bind_eq_ok h
  obtain ⟨hx, rfl⟩ := ofExcept_eq_ok hfirst
  exact ⟨a, hx, hrest⟩

theorem atomic_get_bind {f : σ → Act σ ε α} {s : σ} (h : (f s).Atomic s) : (get >>= f).Atomic s := h

/-- What follows on an atomic action cannot fail. -/
theorem Atomic.bind {x : Act σ ε α} {f : α → Act σ ε β} {s : σ} (hx : x.Atomic s)
    (hf : ∀ a s', x s = (.ok a, s') → ∃ b s'', f a s' = (.ok b, s'')) : (x >>= f).Atomic s := by
  intro e s'' hfailed
  rcases hfirst : x s with ⟨cause | a, s'⟩
  · rw [bind_of_error hfirst] at hfailed
    cases hfailed
    exact hx _ _ hfirst
  · obtain ⟨b, _, hrest⟩ := hf a s' hfirst
    rw [bind_of_ok hfirst, hrest] at hfailed
    cases hfailed

end Act

theorem OpKind.Builtin.outputCount {kind : OpKind} (h : kind.Builtin) : kind.outputCount = 1 := by
  cases kind with
  | declared d => exact absurd h id
  | pointwise f => rfl
  | gemm attributes => rfl
  | rmsNorm epsilon => rfl

/-- An operator with a new number is found under it once it is connected. -/
theorem Graph.operator_connect {g : Graph} {op : Operator} (hnew : ∀ a ∈ g.ops, a.id ≠ op.id) :
    (g.connect op).operator op.id = .ok
      { op with
        predecessors := op.predecessors ++ op.inputs.filterMap g.sourceOf
        successors := op.successors ++ g.followersOf op } := by
  have hold : ((g.ops.map fun x =>
      preceded op.id (g.followersOf op) (g.followed op.id op.inputs x)).find?
        fun a => a.id = op.id) = none := by
    refine List.find?_eq_none.2 fun a ha => ?_
    obtain ⟨a₀, ha₀, rfl⟩ := List.mem_map.1 ha
    exact fun hid => hnew a₀ ha₀ (of_decide_eq_true hid)
  rw [connect_eq, operator, operator?, List.find?_append, hold]
  simp

namespace Draft

/-- All numbers in a draft have been given out. -/
structure Issued (d : Draft) : Prop where
  tensors : d.Fresh
  ops : ∀ op ∈ d.graph.ops, op.id < d.ids.operator

variable {d d' : Draft}

theorem Issued.pushOperator (h : d.Issued) (kind : OpKind) (inputs outputs : List TensorId) :
    (d.pushOperator kind inputs outputs).Issued where
  tensors := fresh_pushOperator h.tensors kind inputs outputs
  ops := by
    intro op hop
    show op.id < d.ids.operator + 1
    rw [Draft.pushOperator, Graph.connect_eq] at hop
    rcases List.mem_append.1 hop with hold | hnew
    · obtain ⟨op₀, hop₀, rfl⟩ := List.mem_map.1 hold
      exact Nat.lt_succ_of_lt (h.ops op₀ hop₀)
    · rw [List.mem_singleton.1 hnew]
      exact Nat.lt_succ_self _

theorem Grows.issued (hgrows : Grows d d') (h : d.Issued) : d'.Issued := by
  induction hgrows with
  | refl => exact h
  | elsewhere _ _ _ ih =>
      exact ⟨fun t ht => Nat.lt_add_right _ (ih.tensors t ht),
        fun op hop => Nat.lt_add_right _ (ih.ops op hop)⟩
  | tensor _ hmake ih => exact ⟨fresh_pushTensor ih.tensors hmake, ih.ops⟩
  | operator _ _ ih => exact ih.pushOperator _ _ _

/-! ### Constructions -/

/-- A call that constructs a part of a graph. -/
inductive Construction where
  | addTensor (shape : Shape) (stride : Option Stride) (kind : ElementKind)
  | insertTensor (t : Tensor)
  | addOp (kind : OpKind) (inputs : List TensorId)
  | addOpWithOutputs (kind : OpKind) (inputs outputs : List TensorId)
  | build (kind : OpKind) (inputs : List TensorId) (output : Option TensorId)

namespace Construction

/-- Makes the call, which answers the number of the tensor or of the operator. -/
def act : Construction → Act Draft GraphError Nat
  | .addTensor shape stride kind => Draft.addTensor shape stride kind
  | .insertTensor t => Draft.insertTensor t
  | .addOp kind inputs => Draft.addOp kind inputs
  | .addOpWithOutputs kind inputs outputs => Draft.addOpWithOutputs kind inputs outputs
  | .build kind inputs output => Draft.build kind inputs output

/-- The kind of the operator that is made, if one is. -/
def opKind? : Construction → Option OpKind
  | .addTensor .. | .insertTensor _ => none
  | .addOp kind _ | .addOpWithOutputs kind .. | .build kind .. => some kind

/-- A tensor that comes from outside has a number that has been given out. -/
def Known (ids : IdSupply) : Construction → Prop
  | .insertTensor t => t.id < ids.tensor
  | _ => True

end Construction

/-! ### Failures -/

section Failures

variable (h : d.Issued)

include h

theorem addTensor_atomic (shape : Shape) (stride : Option Stride) (kind : ElementKind) :
    (Draft.addTensor shape stride kind).Atomic d := by
  intro e d' hfailed
  rw [addTensor_apply h.tensors] at hfailed
  cases hmake : Tensor.make d.ids.tensor shape stride kind with
  | error cause =>
      rw [hmake] at hfailed
      cases hfailed
      rfl
  | ok t =>
      rw [hmake] at hfailed
      cases hfailed

omit h in
theorem insertTensor_atomic (d : Draft) (t : Tensor) : (Draft.insertTensor t).Atomic d := by
  intro e d' hfailed
  rw [insertTensor_apply] at hfailed
  split at hfailed
  · cases hfailed
    rfl
  · cases hfailed

/-- Of one output at most nothing stays behind. -/
theorem addTensors_atomic {pairs : List (Shape × ElementKind)} (hlength : pairs.length ≤ 1) :
    (pairs.mapM fun pair => Draft.addTensor pair.1 none pair.2).Atomic d := by
  match pairs with
  | [] => exact Act.atomic_pure [] d
  | [pair] =>
      rw [List.mapM_cons]
      exact (addTensor_atomic h pair.1 none pair.2).bind fun id d' _ => ⟨[id], d', rfl⟩
  | _ :: _ :: _ => simp at hlength

theorem addOp_atomic {kind : OpKind} (hkind : kind.outputCount = 1) (inputs : List TensorId) :
    (Draft.addOp kind inputs).Atomic d := by
  refine Act.atomic_ofExcept_bind fun _ _ => Act.atomic_get_bind ?_
  refine Act.atomic_ofExcept_bind fun tensors _ => Act.atomic_ofExcept_bind fun shapes _ =>
    Act.atomic_ofExcept_bind fun kinds _ => ?_
  refine Act.atomic_ofExcept_bind fun _ hshapes => Act.atomic_ofExcept_bind fun _ _ => ?_
  rw [checkArity_eq_ok_iff, hkind] at hshapes
  have hlength : (shapes.zip kinds).length ≤ 1 := by
    rw [List.length_zip]
    omega
  exact (addTensors_atomic h hlength).bind fun outputs d' _ =>
    ⟨_, _, addOperator_apply d' kind inputs outputs⟩

omit h in
theorem addOpWithOutputs_atomic (d : Draft) (kind : OpKind) (inputs outputs : List TensorId) :
    (Draft.addOpWithOutputs kind inputs outputs).Atomic d := by
  refine Act.atomic_ofExcept_bind fun _ _ => Act.atomic_ofExcept_bind fun _ _ =>
    Act.atomic_get_bind ?_
  refine Act.atomic_ofExcept_bind fun shapes _ => Act.atomic_ofExcept_bind fun _ _ =>
    Act.atomic_ofExcept_bind fun _ _ => ?_
  exact Act.atomic_of_ok (addOperator_apply d kind inputs outputs)

/-- The operator that is added is there, with all of its outputs. -/
theorem operator_of_addOp {kind : OpKind} {inputs : List TensorId} {id : OpId}
    (hadd : Draft.addOp kind inputs d = (.ok id, d')) :
    ∃ op, d'.graph.operator id = .ok op ∧ op.outputs.length = kind.outputCount := by
  obtain ⟨_, _, hadd⟩ := Act.ofExcept_bind_eq_ok hadd
  rw [Act.bind_apply, Act.get_apply] at hadd
  obtain ⟨tensors, _, hadd⟩ := Act.ofExcept_bind_eq_ok hadd
  obtain ⟨shapes, _, hadd⟩ := Act.ofExcept_bind_eq_ok hadd
  obtain ⟨kinds, _, hadd⟩ := Act.ofExcept_bind_eq_ok hadd
  obtain ⟨_, hshapes, hadd⟩ := Act.ofExcept_bind_eq_ok hadd
  obtain ⟨_, hkinds, hadd⟩ := Act.ofExcept_bind_eq_ok hadd
  obtain ⟨outputs, d₁, houtputs, hadd⟩ := Act.bind_eq_ok hadd
  obtain ⟨hgrows, hmade⟩ := addTensors_apply h.tensors (shapes.zip kinds)
  obtain ⟨-, hlength⟩ := hmade outputs d₁ houtputs
  have hleft : ((shapes.zip kinds).mapM (fun pair => Draft.addTensor pair.1 none pair.2) d).2 =
      d₁ := congrArg Prod.snd houtputs
  rw [hleft] at hgrows
  have hissued := hgrows.issued h
  cases hadd
  refine ⟨_, Graph.operator_connect fun a ha => Nat.ne_of_lt (hissued.ops a ha), ?_⟩
  rw [checkArity_eq_ok_iff] at hshapes hkinds
  have hcount := hlength.length_eq
  rw [List.length_zip] at hcount
  show outputs.length = kind.outputCount
  omega

theorem build_grows (kind : OpKind) (inputs : List TensorId) (output : Option TensorId) :
    Grows d (Draft.build kind inputs output d).2 := by
  cases output with
  | some y =>
      rw [Draft.build, Act.bind_snd fun _ _ => rfl]
      exact addOpWithOutputs_grows d kind inputs [y]
  | none =>
      rw [Draft.build, Act.bind_snd fun id d' => ?_]
      · exact addOp_grows h.tensors kind inputs
      · rw [Act.bind_apply, Act.get_apply]
        dsimp only
        cases hop : d'.graph.operator id with
        | error e => rfl
        | ok op =>
            rw [Act.bind_ofExcept rfl]
            cases op.outputs.head? <;> rfl

theorem build_atomic {kind : OpKind} (hkind : kind.outputCount = 1) (inputs : List TensorId)
    (output : Option TensorId) : (Draft.build kind inputs output).Atomic d := by
  cases output with
  | some y => exact (addOpWithOutputs_atomic d kind inputs [y]).bind fun _ d' _ => ⟨y, d', rfl⟩
  | none =>
      refine (addOp_atomic h hkind inputs).bind fun id d' hadd => ?_
      obtain ⟨op, hop, hlength⟩ := operator_of_addOp h hadd
      obtain ⟨y, hy⟩ := List.length_eq_one_iff.1 (hlength.trans hkind)
      refine ⟨y, d', ?_⟩
      rw [Act.bind_apply, Act.get_apply]
      dsimp only
      rw [Act.bind_ofExcept hop, hy]
      rfl

/-- However a construction ends, the numbers at hand have been given out, and none is free again. -/
theorem Construction.issued {call : Construction} (hknown : call.Known d.ids) :
    (call.act d).2.Issued ∧ d.ids.tensor ≤ (call.act d).2.ids.tensor ∧
    d.ids.operator ≤ (call.act d).2.ids.operator := by
  have hgrown : ∀ {d'}, Grows d d' → d'.Issued ∧ d.ids.tensor ≤ d'.ids.tensor ∧
      d.ids.operator ≤ d'.ids.operator := fun hgrows => ⟨hgrows.issued h, hgrows.ids_le⟩
  cases call with
  | addTensor shape stride kind => exact hgrown (addTensor_grows h.tensors shape stride kind)
  | insertTensor t =>
      rw [act, insertTensor_apply]
      split
      · exact ⟨h, Nat.le_refl _, Nat.le_refl _⟩
      · refine ⟨⟨fun u hu => ?_, h.ops⟩, Nat.le_refl _, Nat.le_refl _⟩
        rcases List.mem_append.1 hu with hu | hu
        · exact h.tensors u hu
        · exact List.mem_singleton.1 hu ▸ hknown
  | addOp kind inputs => exact hgrown (addOp_grows h.tensors kind inputs)
  | addOpWithOutputs kind inputs outputs =>
      exact hgrown (addOpWithOutputs_grows d kind inputs outputs)
  | build kind inputs output => exact hgrown (build_grows h kind inputs output)

/-- A construction that fails leaves a draft as it is: its graph, with all links, and the numbers
that are free. -/
theorem Construction.atomic {call : Construction}
    (hbuiltin : ∀ kind, call.opKind? = some kind → kind.Builtin) : call.act.Atomic d := by
  cases call with
  | addTensor shape stride kind => exact addTensor_atomic h shape stride kind
  | insertTensor t => exact insertTensor_atomic d t
  | addOp kind inputs => exact addOp_atomic h (hbuiltin kind rfl).outputCount inputs
  | addOpWithOutputs kind inputs outputs => exact addOpWithOutputs_atomic d kind inputs outputs
  | build kind inputs output => exact build_atomic h (hbuiltin kind rfl).outputCount inputs output

end Failures

/-- Of two outputs the first is there already when the second cannot be made. -/
example : (Draft.addOp (.declared ⟨.add, 0, 0, 2, .add, some [⟨[.const 1]⟩, ⟨[.const 0]⟩],
        some [.f32, .f32]⟩) [] .empty).2.graph.tensors.map Tensor.id = [1] := by
  decide +kernel

end Draft

end TensorDataflow
