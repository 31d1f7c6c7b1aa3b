import TensorDataflow.Proofs.Graph.Links
import TensorDataflow.Proofs.Machine.Act
/-!
# How a draft grows

Every operation that builds a graph comes down to two steps: a tensor with a new number and without
links is appended, or an operator with a new number that fits the graph is connected. An operation
that fails may still have taken some of the first, and numbers may go to other graphs in between.
`Draft.Grows` is the closure of these steps, and whatever they keep a built graph has.
-/

namespace TensorDataflow

namespace Graph

/-- An operator fits a graph when its inputs are as many as its kind takes and its outputs are there
with the shapes that its kind infers from the inputs. -/
def Fits (g : Graph) (kind : OpKind) (inputs outputs : List TensorId) : Prop :=
  ∃ tensors shapes, g.tensorsOf inputs = .ok tensors ∧
    kind.checkArity .inputs kind.inputArity inputs.length = .ok () ∧
    kind.inferShapes tensors = .ok shapes ∧ outputs.length = kind.outputCount ∧
    List.Forall₂ (fun id shape => ∃ t, g.tensor? id = some t ∧ t.shape = shape) outputs shapes

theorem tensor_eq_ok_iff {g : Graph} {id : TensorId} {t : Tensor} :
    g.tensor id = .ok t ↔ g.tensor? id = some t := by
  unfold tensor
  cases g.tensor? id <;> simp

theorem tensorsOf_eq_ok_iff {g : Graph} {ids : List TensorId} {tensors : List Tensor} :
    g.tensorsOf ids = .ok tensors ↔
    List.Forall₂ (fun id t => g.tensor? id = some t) ids tensors := by
  simp only [tensorsOf, mapM_eq_ok_iff, tensor_eq_ok_iff]

theorem Fits.inputs_there {g : Graph} {kind : OpKind} {inputs outputs : List TensorId}
    (h : g.Fits kind inputs outputs) :
    ∀ id ∈ inputs, ∃ t, g.tensor? id = some t := by
  obtain ⟨tensors, _, htensors, _⟩ := h
  intro id hin
  obtain ⟨t, _, ht⟩ := exists_of_forall₂_of_mem (tensorsOf_eq_ok_iff.1 htensors) hin
  exact ⟨t, ht⟩

theorem Fits.outputs_there {g : Graph} {kind : OpKind} {inputs outputs : List TensorId}
    (h : g.Fits kind inputs outputs) :
    ∀ id ∈ outputs, ∃ t, g.tensor? id = some t := by
  obtain ⟨_, shapes, _, _, _, _, houtputs⟩ := h
  intro id hout
  obtain ⟨_, _, t, ht, _⟩ := exists_of_forall₂_of_mem houtputs hout
  exact ⟨t, ht⟩

theorem tensor?_append {g : Graph} {id : TensorId} {t : Tensor} (h : g.tensor? id = some t)
    (more : List Tensor) :
    ({ g with tensors := g.tensors ++ more } : Graph).tensor? id = some t := by
  unfold tensor? at *
  rw [List.find?_append, h, Option.some_or]

theorem tensorsOf_append {g : Graph} {ids : List TensorId} {tensors : List Tensor}
    (h : g.tensorsOf ids = .ok tensors) (more : List Tensor) :
    ({ g with tensors := g.tensors ++ more } : Graph).tensorsOf ids = .ok tensors :=
  tensorsOf_eq_ok_iff.2 ((tensorsOf_eq_ok_iff.1 h).imp fun _ _ hid => tensor?_append hid more)

end Graph

theorem Tensor.make_eq_ok {id : TensorId} {shape : Shape} {stride : Option Stride}
    {kind : ElementKind} {t : Tensor}
    (h : Tensor.make id shape stride kind = .ok t) :
    Tensor.checkLayout shape (stride.getD shape.contiguous) = .ok () ∧
    t = { id, kind, shape, stride := stride.getD shape.contiguous } := by
  unfold make at h
  obtain ⟨_, hcheck, hpure⟩ := except_bind_eq_ok.1 h
  cases hpure
  exact ⟨hcheck, rfl⟩

namespace Draft

/-- All tensors of the draft have numbers that have been given out. -/
def Fresh (d : Draft) : Prop := ∀ t ∈ d.graph.tensors, t.id < d.ids.tensor

/-- The draft with one more tensor. -/
def pushTensor (d : Draft) (t : Tensor) : Draft :=
  ⟨{ d.graph with tensors := d.graph.tensors ++ [t] }, { d.ids with tensor := d.ids.tensor + 1 }⟩

/-- The draft with one more operator. -/
def pushOperator (d : Draft) (kind : OpKind) (inputs outputs : List TensorId) : Draft :=
  ⟨d.graph.connect { id := d.ids.operator, kind, inputs, outputs },
    { d.ids with operator := d.ids.operator + 1 }⟩

/-- The draft after other graphs have taken some numbers. -/
def skip (d : Draft) (tensors operators : Nat) : Draft :=
  { d with ids := ⟨d.ids.tensor + tensors, d.ids.operator + operators⟩ }

/-- What building does to a draft, step by step. -/
inductive Grows (d : Draft) : Draft → Prop
  | refl : Grows d d
  | elsewhere {d' : Draft} (tensors operators : Nat) : Grows d d' →
      Grows d (d'.skip tensors operators)
  | tensor {d' : Draft} {shape : Shape} {stride : Option Stride} {kind : ElementKind} {t : Tensor} :
      Grows d d' → Tensor.make d'.ids.tensor shape stride kind = .ok t → Grows d (d'.pushTensor t)
  | operator {d' : Draft} {kind : OpKind} {inputs outputs : List TensorId} :
      Grows d d' → d'.graph.Fits kind inputs outputs → Grows d (d'.pushOperator kind inputs outputs)

theorem Grows.trans {d d' d'' : Draft} (h : Grows d d') (h' : Grows d' d'') : Grows d d'' := by
  induction h' with
  | refl => exact h
  | elsewhere _ _ _ ih => exact .elsewhere _ _ ih
  | tensor _ hmake ih => exact .tensor ih hmake
  | operator _ hfits ih => exact .operator ih hfits

theorem fresh_pushTensor {d : Draft} (h : d.Fresh) {shape : Shape} {stride : Option Stride}
    {kind : ElementKind} {t : Tensor}
    (hmake : Tensor.make d.ids.tensor shape stride kind = .ok t) : (d.pushTensor t).Fresh := by
  obtain ⟨_, rfl⟩ := Tensor.make_eq_ok hmake
  intro u hu
  show u.id < d.ids.tensor + 1
  rcases List.mem_append.1 hu with hu | hu
  · exact Nat.lt_succ_of_lt (h u hu)
  · rw [List.mem_singleton] at hu
    rw [hu]
    exact Nat.lt_succ_self _

theorem fresh_pushOperator {d : Draft} (h : d.Fresh) (kind : OpKind)
    (inputs outputs : List TensorId) : (d.pushOperator kind inputs outputs).Fresh := by
  intro u hu
  rw [pushOperator, Graph.connect_eq] at hu
  obtain ⟨t, ht, rfl⟩ := List.mem_map.1 hu
  exact h t ht

theorem Grows.fresh {d d' : Draft} (h : Grows d d') (hfresh : d.Fresh) : d'.Fresh := by
  induction h with
  | refl => exact hfresh
  | elsewhere _ _ _ ih => exact fun t ht => Nat.lt_of_lt_of_le (ih t ht) (Nat.le_add_right _ _)
  | tensor _ hmake ih => exact fresh_pushTensor ih hmake
  | operator _ _ ih => exact fresh_pushOperator ih _ _ _

theorem Grows.ids_le {d d' : Draft} (h : Grows d d') :
    d.ids.tensor ≤ d'.ids.tensor ∧ d.ids.operator ≤ d'.ids.operator := by
  induction h with
  | refl => exact ⟨Nat.le_refl _, Nat.le_refl _⟩
  | elsewhere _ _ _ ih => exact ⟨Nat.le_add_right_of_le ih.1, Nat.le_add_right_of_le ih.2⟩
  | tensor _ _ ih => exact ⟨Nat.le_succ_of_le ih.1, ih.2⟩
  | operator _ _ ih => exact ⟨ih.1, Nat.le_succ_of_le ih.2⟩

/-! ### The operations that build -/

theorem makeTensor_apply (d : Draft) (shape : Shape) (stride : Option Stride) (kind : ElementKind) :
    Draft.makeTensor shape stride kind d =
      match Tensor.make d.ids.tensor shape stride kind with
      | .ok t => (.ok t, { d with ids := { d.ids with tensor := d.ids.tensor + 1 } })
      | .error e => (.error e, d) := by
  simp only [makeTensor, Act.bind_apply, Act.get_apply, Act.ofExcept_apply]
  cases Tensor.make d.ids.tensor shape stride kind <;> rfl

theorem insertTensor_apply (d : Draft) (t : Tensor) :
    Draft.insertTensor t d =
      if (d.graph.tensor? t.id).isSome then (.error (.duplicateTensor t.id), d)
      else (.ok t.id, { d with graph := { d.graph with tensors := d.graph.tensors ++ [t] } }) := by
  simp only [insertTensor, Graph.insertTensor, Act.bind_apply, Act.get_apply, Act.ofExcept_apply]
  cases (d.graph.tensor? t.id).isSome <;> rfl

theorem addTensor_apply {d : Draft} (hfresh : d.Fresh) (shape : Shape) (stride : Option Stride)
    (kind : ElementKind) :
    Draft.addTensor shape stride kind d =
      match Tensor.make d.ids.tensor shape stride kind with
      | .ok t => (.ok t.id, d.pushTensor t)
      | .error e => (.error e, d) := by
  cases hmake : Tensor.make d.ids.tensor shape stride kind with
  | error e => simp only [addTensor, Act.bind_apply, makeTensor_apply, hmake]
  | ok t =>
      have habsent : d.graph.tensor? t.id = none := by
        obtain ⟨_, rfl⟩ := Tensor.make_eq_ok hmake
        refine List.find?_eq_none.2 fun u hu => ?_
        simpa using Nat.ne_of_lt (hfresh u hu)
      simp only [addTensor, Act.bind_apply, makeTensor_apply, insertTensor_apply, hmake, habsent]
      rfl

theorem addTensor_grows {d : Draft} (hfresh : d.Fresh) (shape : Shape) (stride : Option Stride)
    (kind : ElementKind) :
    Grows d (Draft.addTensor shape stride kind d).2 := by
  rw [addTensor_apply hfresh]
  cases hmake : Tensor.make d.ids.tensor shape stride kind with
  | error e => exact .refl
  | ok t => exact .tensor .refl hmake

theorem tensor?_pushTensor {d : Draft} (hfresh : d.Fresh) {t : Tensor} (hid : t.id = d.ids.tensor) :
    (d.pushTensor t).graph.tensor? t.id = some t := by
  have habsent : d.graph.tensor? t.id = none := by
    refine List.find?_eq_none.2 fun u hu => ?_
    rw [hid]
    simpa using Nat.ne_of_lt (hfresh u hu)
  unfold Graph.tensor? at *
  rw [pushTensor, List.find?_append, habsent]
  simp

/-- Making some tensors in turn appends them, and the numbers answered stand for tensors of the
given shapes. -/
theorem addTensors_apply {d : Draft} (hfresh : d.Fresh) (pairs : List (Shape × ElementKind)) :
    Grows d ((pairs.mapM fun pair => Draft.addTensor pair.1 none pair.2) d).2 ∧
      ∀ outputs d',
      (pairs.mapM fun pair => Draft.addTensor pair.1 none pair.2) d = (.ok outputs, d') →
        (∃ more, d'.graph = { d.graph with tensors := d.graph.tensors ++ more }) ∧
          List.Forall₂ (fun pair id => ∃ t, d'.graph.tensor? id = some t ∧ t.shape = pair.1)
          pairs outputs := by
  induction pairs generalizing d with
  | nil =>
      refine ⟨.refl, fun outputs d' h => ?_⟩
      cases h
      exact ⟨⟨[], by rw [List.append_nil]⟩, .nil⟩
  | cons pair pairs ih =>
      rw [List.mapM_cons, Act.bind_apply, addTensor_apply hfresh]
      cases hmake : Tensor.make d.ids.tensor pair.1 none pair.2 with
      | error e => exact ⟨.refl, fun outputs d' h => nomatch h⟩
      | ok t =>
          obtain ⟨_, ht⟩ := Tensor.make_eq_ok hmake
          obtain ⟨hgrows, hrest⟩ := ih (fresh_pushTensor hfresh hmake)
          simp only [Act.bind_apply, Act.pure_apply]
          rcases htail : (pairs.mapM fun pair => Draft.addTensor pair.1 none pair.2)
              (d.pushTensor t) with ⟨e | outputs, d'⟩
          · rw [htail] at hgrows
            simp only [htail]
            exact ⟨(Grows.tensor .refl hmake).trans hgrows, fun outputs d' h => nomatch h⟩
          · rw [htail] at hgrows
            simp only [htail]
            refine ⟨(Grows.tensor .refl hmake).trans hgrows, fun outputs' d'' h => ?_⟩
            cases h
            obtain ⟨⟨more, hmore⟩, houtputs⟩ := hrest outputs d' htail
            refine ⟨⟨t :: more, ?_⟩, .cons ⟨t, ?_, by rw [ht]⟩ houtputs⟩
            · rw [hmore]
              simp [pushTensor]
            · rw [hmore]
              exact Graph.tensor?_append (tensor?_pushTensor hfresh (by rw [ht])) more

theorem checkArity_eq_ok_iff {kind : OpKind} {part : ArityPart} {range : Nat × Nat} {actual : Nat} :
    kind.checkArity part range actual = .ok () ↔ range.1 ≤ actual ∧ actual ≤ range.2 := by
  unfold OpKind.checkArity
  split <;> simp_all

theorem addOperator_apply (d : Draft) (kind : OpKind) (inputs outputs : List TensorId) :
    Draft.addOperator kind inputs outputs d =
      (.ok d.ids.operator, d.pushOperator kind inputs outputs) :=
  rfl

theorem forall₂_of_zip {P : TensorId → Shape → Prop} {shapes : List Shape}
    {kinds : List ElementKind} {outputs : List TensorId}
    (hlength : shapes.length = kinds.length)
    (h : List.Forall₂ (fun pair id => P id pair.1) (shapes.zip kinds) outputs) :
    List.Forall₂ P outputs shapes := by
  induction shapes generalizing kinds outputs with
  | nil =>
      cases h
      exact .nil
  | cons shape shapes ih =>
      cases kinds with
      | nil => simp at hlength
      | cons kind kinds =>
          rw [List.zip_cons_cons] at h
          cases h with
          | cons hhead htail => exact .cons hhead (ih (by simpa using hlength) htail)

theorem addOp_grows {d : Draft} (hfresh : d.Fresh) (kind : OpKind) (inputs : List TensorId) :
    Grows d (Draft.addOp kind inputs d).2 := by
  rw [addOp, Act.bind_apply, Act.ofExcept_apply]
  cases harity : kind.checkArity .inputs kind.inputArity inputs.length with
  | error e => exact .refl
  | ok _ =>
  simp only [Act.bind_apply, Act.get_apply, Act.ofExcept_apply]
  cases htensors : d.graph.tensorsOf inputs with
  | error e => exact .refl
  | ok tensors =>
  simp only
  cases hshapes : kind.inferShapes tensors with
  | error e => exact .refl
  | ok shapes =>
  simp only
  cases hkinds : kind.inferKinds tensors with
  | error e => exact .refl
  | ok kinds =>
  simp only
  cases hshapeCount :
    kind.checkArity .inferredShapes (kind.outputCount, kind.outputCount) shapes.length with
  | error e => exact .refl
  | ok _ =>
  simp only
  cases hkindCount :
    kind.checkArity .inferredKinds (kind.outputCount, kind.outputCount) kinds.length with
  | error e => exact .refl
  | ok _ =>
  simp only
  obtain ⟨hgrows, hmade⟩ := addTensors_apply hfresh (shapes.zip kinds)
  rcases hadd : ((shapes.zip kinds).mapM fun pair => Draft.addTensor pair.1 none pair.2) d
      with ⟨e | outputs, d'⟩
  · rw [hadd] at hgrows
    simp only [hadd]
    exact hgrows
  · rw [hadd] at hgrows
    simp only [hadd, addOperator_apply]
    obtain ⟨⟨more, hmore⟩, houtputs⟩ := hmade outputs d' hadd
    rw [checkArity_eq_ok_iff] at hshapeCount hkindCount
    have hfit := forall₂_of_zip
      (P := fun id shape => ∃ t, d'.graph.tensor? id = some t ∧ t.shape = shape) (by omega) houtputs
    refine .operator hgrows ⟨tensors, shapes, ?_, harity, hshapes, ?_, hfit⟩
    · rw [hmore]
      exact Graph.tensorsOf_append htensors more
    · have := hfit.length_eq
      omega

theorem checkOutputs_eq_ok {g : Graph} {type : OpType} {index : Nat} {outputs : List TensorId}
    {shapes : List Shape}
    (hlength : outputs.length = shapes.length)
    (h : checkOutputs g type index (outputs.zip shapes) = .ok ()) :
    List.Forall₂ (fun id shape => ∃ t, g.tensor? id = some t ∧ t.shape = shape) outputs shapes := by
  induction outputs generalizing shapes index with
  | nil =>
      cases shapes with
      | nil => exact .nil
      | cons shape shapes => simp at hlength
  | cons id outputs ih =>
      cases shapes with
      | nil => simp at hlength
      | cons shape shapes =>
          rw [List.zip_cons_cons, checkOutputs] at h
          obtain ⟨t, ht, hrest⟩ := except_bind_eq_ok.1 h
          split at hrest
          · next hshape =>
              exact .cons ⟨t, Graph.tensor_eq_ok_iff.1 ht, hshape⟩
                (ih (by simpa using hlength) hrest)
          · cases hrest

theorem addOpWithOutputs_grows (d : Draft) (kind : OpKind) (inputs outputs : List TensorId) :
    Grows d (Draft.addOpWithOutputs kind inputs outputs d).2 := by
  rw [addOpWithOutputs, Act.bind_apply, Act.ofExcept_apply]
  cases harity : kind.checkArity .inputs kind.inputArity inputs.length with
  | error e => exact .refl
  | ok _ =>
  simp only [Act.bind_apply, Act.get_apply, Act.ofExcept_apply]
  cases houtputs : kind.checkArity .outputs (kind.outputCount, kind.outputCount) outputs.length with
  | error e => exact .refl
  | ok _ =>
  simp only
  cases hinfer : (do kind.inferShapes (← d.graph.tensorsOf inputs)) with
  | error e => exact .refl
  | ok shapes =>
  simp only
  obtain ⟨tensors, htensors, hshapes⟩ := except_bind_eq_ok.1 hinfer
  cases hcount :
    kind.checkArity .inferredShapes (kind.outputCount, kind.outputCount) shapes.length with
  | error e => exact .refl
  | ok _ =>
  simp only
  cases hcheck : checkOutputs d.graph kind.type 0 (outputs.zip shapes) with
  | error e => exact .refl
  | ok _ =>
  rw [checkArity_eq_ok_iff] at houtputs hcount
  refine .operator .refl ⟨tensors, shapes, htensors, harity, hshapes, by omega, ?_⟩
  exact checkOutputs_eq_ok (by omega) hcheck

end Draft

/-! ### Building step by step -/

/-- A step of building. -/
inductive BuildStep where
  | tensor (shape : Shape) (stride : Option Stride) (kind : ElementKind)
  | op (kind : OpKind) (inputs : List TensorId)
  | opWithOutputs (kind : OpKind) (inputs outputs : List TensorId)
  | elsewhere (tensors operators : Nat)
  deriving DecidableEq, Repr

namespace Draft

def step (d : Draft) : BuildStep → Draft
  | .tensor shape stride kind => (addTensor shape stride kind d).2
  | .op kind inputs => (addOp kind inputs d).2
  | .opWithOutputs kind inputs outputs => (addOpWithOutputs kind inputs outputs d).2
  | .elsewhere tensors operators => d.skip tensors operators

/-- The draft that some steps build from nothing. -/
def built (steps : List BuildStep) : Draft := steps.foldl step empty

theorem step_grows {d : Draft} (hfresh : d.Fresh) (s : BuildStep) : Grows d (d.step s) := by
  cases s with
  | tensor shape stride kind => exact addTensor_grows hfresh shape stride kind
  | op kind inputs => exact addOp_grows hfresh kind inputs
  | opWithOutputs kind inputs outputs => exact addOpWithOutputs_grows d kind inputs outputs
  | elsewhere tensors operators => exact .elsewhere tensors operators .refl

theorem foldl_step_grows {d : Draft} (hfresh : d.Fresh) (steps : List BuildStep) :
    Grows d (steps.foldl step d) := by
  induction steps generalizing d with
  | nil => exact .refl
  | cons s steps ih =>
      have hgrows := step_grows hfresh s
      exact hgrows.trans (ih (hgrows.fresh hfresh))

theorem fresh_empty : Draft.empty.Fresh := fun _ ht => absurd ht List.not_mem_nil

theorem built_grows (steps : List BuildStep) : Grows .empty (built steps) :=
  foldl_step_grows fresh_empty steps

end Draft

end TensorDataflow
