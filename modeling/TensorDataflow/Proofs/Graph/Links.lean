import Mathlib.Data.List.Induction
import TensorDataflow.Graph.Basic
/-!
# What connecting an operator links

Connecting an operator walks over its inputs and then over its outputs, and each step reads links
that earlier steps may have added. The walks have a closed form all the same, since the first one
changes no source and the second one no targets: `Graph.connect_eq` gives every link after a
connection in terms of the links before it. Nothing else of a graph is touched.
-/

namespace TensorDataflow

namespace Graph

theorem find?_map_of_id {α : Type} (id : α → Nat) (f : α → α) (hid : ∀ a, id (f a) = id a)
    (xs : List α) (n : Nat) :
    ((xs.map f).find? fun a => id a = n) = (xs.find? fun a => id a = n).map f := by
  induction xs with
  | nil => rfl
  | cons a xs ih =>
      rw [List.map_cons, List.find?_cons, List.find?_cons, hid]
      by_cases ha : id a = n
      · simp [ha]
      · simp [ha, ih]

theorem id_of_tensor? {g : Graph} {id : TensorId} {t : Tensor} (h : g.tensor? id = some t) :
    t.id = id := by
  have := List.find?_some h
  simpa using this

theorem mem_of_tensor? {g : Graph} {id : TensorId} {t : Tensor} (h : g.tensor? id = some t) :
    t ∈ g.tensors :=
  List.mem_of_find?_eq_some h

theorem tensor?_isSome_iff {g : Graph} {id : TensorId} :
    (g.tensor? id).isSome ↔ id ∈ g.tensors.map Tensor.id := by
  simp [tensor?, List.find?_isSome, List.mem_map]

theorem ne_of_tensor?_eq_none {g : Graph} {id : TensorId} (h : g.tensor? id = none) {t : Tensor}
    (ht : t ∈ g.tensors) : t.id ≠ id := by
  simpa using List.find?_eq_none.1 h t ht

/-- The producer that a tensor of the graph names. -/
def sourceOf (g : Graph) (id : TensorId) : Option OpId := (g.tensor? id).bind Tensor.source

/-- The consumers that a tensor of the graph names, once for each slot. -/
def targetsOf (g : Graph) (id : TensorId) : List OpId := (g.tensor? id).elim [] Tensor.targets

/-! ### Along the inputs -/

/-- A tensor after an operator has taken it for some input slots. -/
def consumed (op : OpId) (slots : List TensorId) (t : Tensor) : Tensor :=
  { t with targets := t.targets ++ List.replicate (slots.count t.id) op }

/-- An operator after another has taken its outputs for some input slots. -/
def followed (g : Graph) (op : OpId) (slots : List TensorId) (x : Operator) : Operator :=
  { x with
    successors :=
      x.successors ++ List.replicate (slots.countP fun id => g.sourceOf id = some x.id) op }

@[simp] theorem followed_id (g : Graph) (op : OpId) (slots : List TensorId) (x : Operator) :
    (g.followed op slots x).id = x.id :=
  rfl

/-- The graph and the operator after the links along some inputs. -/
def withInputs (g : Graph) (op : Operator) (slots : List TensorId) : Graph × Operator :=
  ({ g with
    tensors := g.tensors.map (consumed op.id slots)
    ops := g.ops.map (g.followed op.id slots) },
    { op with predecessors := op.predecessors ++ slots.filterMap g.sourceOf })

theorem tensor?_withInputs (g : Graph) (op : Operator) (slots : List TensorId) (id : TensorId) :
    (g.withInputs op slots).1.tensor? id = (g.tensor? id).map (consumed op.id slots) :=
  find?_map_of_id Tensor.id (consumed op.id slots) (fun _ => rfl) g.tensors id

theorem linkInput_withInputs (g : Graph) (op : Operator) (slots : List TensorId) (id : TensorId) :
    linkInput (g.withInputs op slots) id = g.withInputs op (slots ++ [id]) := by
  cases ht : g.tensor? id with
  | none =>
      have hsource : g.sourceOf id = none := by rw [sourceOf, ht]; rfl
      have htensors : g.tensors.map (consumed op.id (slots ++ [id])) =
          g.tensors.map (consumed op.id slots) := by
        refine List.map_congr_left fun t hmem => ?_
        rw [consumed, consumed, List.count_append, List.count_singleton,
          if_neg (by simpa using (ne_of_tensor?_eq_none ht hmem).symm), Nat.add_zero]
      have hops : g.followed op.id (slots ++ [id]) = g.followed op.id slots := by
        funext x
        simp [followed, List.countP_append, hsource]
      rw [linkInput, tensor?_withInputs, ht]
      simp [withInputs, htensors, hops, List.filterMap_append, hsource]
  | some t =>
      have htensors : (g.tensors.map (consumed op.id slots)).map
          (fun t => if t.id = id then addTarget op.id t else t) =
          g.tensors.map (consumed op.id (slots ++ [id])) := by
        rw [List.map_map]
        refine List.map_congr_left fun u _ => ?_
        by_cases hu : u.id = id
        · simp [consumed, addTarget, hu, List.count_append, List.replicate_succ']
        · have hcount : [id].count u.id = 0 := List.count_eq_zero.2 (by simpa using hu)
          simp [consumed, hu, List.count_append, hcount]
      have hsource : g.sourceOf id = t.source := by rw [sourceOf, ht]; rfl
      rw [linkInput, tensor?_withInputs, ht]
      cases hs : t.source with
      | none =>
          have hops : g.followed op.id (slots ++ [id]) = g.followed op.id slots := by
            funext x
            simp [followed, List.countP_append, hsource, hs]
          simp only [Option.map_some, consumed, hs]
          simp [withInputs, modifyTensor, htensors, hops, List.filterMap_append, hsource, hs]
      | some source =>
          have hops : (g.ops.map (g.followed op.id slots)).map
              (fun x => if x.id = source then addSuccessor op.id x else x) =
              g.ops.map (g.followed op.id (slots ++ [id])) := by
            rw [List.map_map]
            refine List.map_congr_left fun x _ => ?_
            by_cases hx : x.id = source
            · simp [followed, addSuccessor, hx, List.countP_append,
                List.replicate_succ', hsource, hs]
            · have hne : ¬ source = x.id := fun h => hx h.symm
              simp [followed, hx, hne, List.countP_append, hsource, hs]
          simp only [Option.map_some, consumed, hs]
          simp [withInputs, modifyTensor, modifyOperator, htensors, hops, List.filterMap_append,
            hsource, hs, addPredecessor]

theorem foldl_linkInput (g : Graph) (op : Operator) (slots : List TensorId) :
    slots.foldl linkInput (g, op) = g.withInputs op slots := by
  induction slots using List.reverseRecOn with
  | nil =>
      have hops : g.followed op.id [] = id := by
        funext x
        simp [followed]
      have htensors : consumed op.id [] = id := by
        funext t
        simp [consumed]
      simp [withInputs, hops, htensors]
  | append_singleton slots id ih =>
      rw [List.foldl_append, ih, List.foldl_cons, List.foldl_nil, linkInput_withInputs]

/-! ### Along the outputs -/

/-- A tensor after an operator has made it for some output slots. -/
def produced (op : OpId) (slots : List TensorId) (t : Tensor) : Tensor :=
  { t with source := if t.id ∈ slots then some op else t.source }

/-- An operator after another has made tensors that name the given consumers. -/
def preceded (op : OpId) (targets : List OpId) (x : Operator) : Operator :=
  { x with predecessors := x.predecessors ++ List.replicate (targets.count x.id) op }

@[simp] theorem preceded_id (op : OpId) (targets : List OpId) (x : Operator) :
    (preceded op targets x).id = x.id :=
  rfl

theorem foldl_linkTarget (g : Graph) (op : Operator) (targets : List OpId) :
    targets.foldl linkTarget (g, op) = ({ g with ops := g.ops.map (preceded op.id targets) },
      { op with successors := op.successors ++ targets }) := by
  induction targets using List.reverseRecOn with
  | nil =>
      have hops : preceded op.id [] = id := by
        funext x
        simp [preceded]
      simp [hops]
  | append_singleton targets target ih =>
      have hops : (g.ops.map (preceded op.id targets)).map
          (fun x => if x.id = target then addPredecessor op.id x else x) =
          g.ops.map (preceded op.id (targets ++ [target])) := by
        rw [List.map_map]
        refine List.map_congr_left fun x _ => ?_
        by_cases hx : x.id = target
        · simp [preceded, addPredecessor, hx, List.count_append, List.replicate_succ']
        · have hcount : [target].count x.id = 0 := List.count_eq_zero.2 (by simpa using hx)
          simp [preceded, hx, List.count_append, hcount]
      rw [List.foldl_append, ih, List.foldl_cons, List.foldl_nil]
      simp [linkTarget, modifyOperator, addSuccessor, hops]

/-- The graph and the operator after the links along some outputs. -/
def withOutputs (g : Graph) (op : Operator) (slots : List TensorId) : Graph × Operator :=
  ({ g with
    tensors := g.tensors.map (produced op.id slots)
    ops := g.ops.map (preceded op.id (slots.flatMap g.targetsOf)) },
    { op with successors := op.successors ++ slots.flatMap g.targetsOf })

theorem tensor?_withOutputs (g : Graph) (op : Operator) (slots : List TensorId) (id : TensorId) :
    (g.withOutputs op slots).1.tensor? id = (g.tensor? id).map (produced op.id slots) :=
  find?_map_of_id Tensor.id (produced op.id slots) (fun _ => rfl) g.tensors id

theorem preceded_preceded (op : OpId) (first second : List OpId) (x : Operator) :
    preceded op second (preceded op first x) = preceded op (first ++ second) x := by
  simp [preceded, List.count_append, List.replicate_append_replicate]

theorem linkOutput_withOutputs (g : Graph) (op : Operator) (slots : List TensorId) (id : TensorId) :
    linkOutput (g.withOutputs op slots) id = g.withOutputs op (slots ++ [id]) := by
  rw [linkOutput, tensor?_withOutputs]
  cases ht : g.tensor? id with
  | none =>
      have htargets : g.targetsOf id = [] := by rw [targetsOf, ht]; rfl
      have htensors : g.tensors.map (produced op.id (slots ++ [id])) =
          g.tensors.map (produced op.id slots) := by
        refine List.map_congr_left fun t hmem => ?_
        simp [produced, ne_of_tensor?_eq_none ht hmem]
      simp [withOutputs, htensors, htargets]
  | some t =>
      have htargets : g.targetsOf id = t.targets := by rw [targetsOf, ht]; rfl
      have htensors : (g.tensors.map (produced op.id slots)).map
          (fun t => if t.id = id then setSource op.id t else t) =
          g.tensors.map (produced op.id (slots ++ [id])) := by
        rw [List.map_map]
        refine List.map_congr_left fun u _ => ?_
        by_cases hu : u.id = id <;> simp [produced, setSource, hu]
      rw [Option.map_some]
      show (produced op.id slots t).targets.foldl linkTarget _ = _
      rw [foldl_linkTarget]
      simp only [withOutputs, modifyTensor, htensors, List.map_map, List.flatMap_append,
        List.flatMap_singleton, htargets, produced]
      congr 2
      · refine List.map_congr_left fun x _ => ?_
        rw [Function.comp_apply, preceded_preceded]
      · rw [List.append_assoc]

theorem foldl_linkOutput (g : Graph) (op : Operator) (slots : List TensorId) :
    slots.foldl linkOutput (g, op) = g.withOutputs op slots := by
  induction slots using List.reverseRecOn with
  | nil =>
      have hops : preceded op.id [] = id := by
        funext x
        simp [preceded]
      have htensors : produced op.id [] = id := by
        funext t
        simp [produced]
      simp [withOutputs, hops, htensors]
  | append_singleton slots id ih =>
      rw [List.foldl_append, ih, List.foldl_cons, List.foldl_nil, linkOutput_withOutputs]

/-! ### The connection -/

/-- The consumers of the tensors that an operator makes, itself included. -/
def followersOf (g : Graph) (op : Operator) : List OpId :=
  op.outputs.flatMap (g.withInputs op op.inputs).1.targetsOf

theorem mem_followersOf_iff {g : Graph} {op : Operator} {n : OpId} :
    n ∈ g.followersOf op ↔ ∃ id ∈ op.outputs, ∃ t, g.tensor? id = some t ∧
    (n ∈ t.targets ∨ n = op.id ∧ id ∈ op.inputs) := by
  simp only [followersOf, List.mem_flatMap, targetsOf, tensor?_withInputs]
  refine exists_congr fun id => and_congr_right fun _ => ?_
  cases ht : g.tensor? id with
  | none => simp
  | some t =>
      have hcount : op.inputs.count t.id ≠ 0 ↔ id ∈ op.inputs := by
        rw [id_of_tensor? ht, ← List.count_pos_iff, Nat.pos_iff_ne_zero]
      simp only [Option.map_some, Option.elim_some, consumed, List.mem_append, List.mem_replicate,
        hcount, and_comm, Option.some.injEq, exists_eq_left']

theorem connect_eq (g : Graph) (op : Operator) :
    g.connect op =
      { tensors := g.tensors.map fun t => produced op.id op.outputs (consumed op.id op.inputs t)
        ops := (g.ops.map fun x =>
          preceded op.id (g.followersOf op) (g.followed op.id op.inputs x)) ++
          [{ op with
            predecessors := op.predecessors ++ op.inputs.filterMap g.sourceOf
            successors := op.successors ++ g.followersOf op }]
        sorted := false } := by
  have houtputs :=
    foldl_linkOutput (g.withInputs op op.inputs).1 (g.withInputs op op.inputs).2 op.outputs
  rw [connect, foldl_linkInput, houtputs]
  simp only [withInputs, withOutputs, followersOf, List.map_map]
  rfl

end Graph

end TensorDataflow
