import TensorDataflow.Proofs.Graph.Wiring
/-!
# Operators that go on fitting

When an operator is added it fits the graph, and it goes on doing so: later steps of building give
tensors links and add others, and change no layout. What an operator fits is decided by the layouts
alone, so neither links nor buffers matter.
-/

namespace TensorDataflow

/-- A tensor's layout, without links and buffer. -/
def Tensor.bare (t : Tensor) : Tensor :=
  { id := t.id, kind := t.kind, shape := t.shape, stride := t.stride }

/-- Inference looks at layouts alone. -/
theorem OpKind.inferShapes_map_bare (kind : OpKind) (inputs : List Tensor) :
    kind.inferShapes (inputs.map Tensor.bare) = kind.inferShapes inputs := by
  cases kind with
  | pointwise f => match inputs with | [] | [_] | _ :: _ :: _ => rfl
  | gemm attributes => match inputs with | [] | [_] | [_, _] | _ :: _ :: _ :: _ => rfl
  | rmsNorm epsilon => match inputs with | [] | [_] | _ :: _ :: _ => rfl
  | declared d =>
      obtain ⟨_, _, _, _, _, shapes, _⟩ := d
      cases shapes <;> cases inputs <;> rfl

namespace Graph

/-- Two graphs that have tensors of the same layouts under the same numbers. -/
def SameLayouts (g g' : Graph) : Prop :=
  ∀ id, (g'.tensor? id).map Tensor.bare = (g.tensor? id).map Tensor.bare

theorem SameLayouts.tensor? {g g' : Graph} (h : SameLayouts g g') {id : TensorId} {t : Tensor}
    (ht : g.tensor? id = some t) : ∃ t', g'.tensor? id = some t' ∧ t'.bare = t.bare := by
  have hid := h id
  rw [ht, Option.map_some, Option.map_eq_some_iff] at hid
  exact hid

theorem sameLayouts_of_map {g g' : Graph}
    (h : g'.tensors.map Tensor.bare = g.tensors.map Tensor.bare) : SameLayouts g g' := by
  have hfind : ∀ (tensors : List Tensor) (id : TensorId), (tensors.find? fun t => t.id = id).map
      Tensor.bare = (tensors.map Tensor.bare).find? fun t => t.id = id := by
    intro tensors id
    rw [List.find?_map]
    rfl
  intro id
  rw [Graph.tensor?, Graph.tensor?, hfind, hfind, h]

theorem tensorsOf_of_sameLayouts {g g' : Graph} (h : SameLayouts g g') {ids : List TensorId}
    {tensors : List Tensor} (ht : g.tensorsOf ids = .ok tensors) :
    ∃ tensors', g'.tensorsOf ids = .ok tensors' ∧
    tensors'.map Tensor.bare = tensors.map Tensor.bare := by
  have hfound := tensorsOf_eq_ok_iff.1 ht
  clear ht
  induction hfound with
  | nil => exact ⟨[], rfl, rfl⟩
  | @cons id t ids tensors hid _ ih =>
      obtain ⟨t', ht', hbare⟩ := h.tensor? hid
      obtain ⟨tensors', htensors', hbares⟩ := ih
      refine ⟨t' :: tensors',
        tensorsOf_eq_ok_iff.2 (.cons ht' (tensorsOf_eq_ok_iff.1 htensors')), ?_⟩
      rw [List.map_cons, List.map_cons, hbare, hbares]

theorem Fits.congr {g g' : Graph} {kind : OpKind} {inputs outputs : List TensorId}
    (h : g.Fits kind inputs outputs) (hsame : SameLayouts g g') : g'.Fits kind inputs outputs := by
  obtain ⟨tensors, shapes, htensors, harity, hshapes, hcount, houtputs⟩ := h
  obtain ⟨tensors', htensors', hbare⟩ := tensorsOf_of_sameLayouts hsame htensors
  refine ⟨tensors', shapes, htensors', harity, ?_, hcount, houtputs.imp ?_⟩
  · rw [← kind.inferShapes_map_bare, hbare, kind.inferShapes_map_bare, hshapes]
  · rintro id shape ⟨t, ht, rfl⟩
    obtain ⟨t', ht', hbare⟩ := hsame.tensor? ht
    exact ⟨t', ht', (Tensor.mk.inj hbare).2.2.1⟩

theorem Fits.append {g : Graph} {kind : OpKind} {inputs outputs : List TensorId}
    (h : g.Fits kind inputs outputs) (more : List Tensor) :
    Fits { g with tensors := g.tensors ++ more } kind inputs outputs := by
  obtain ⟨tensors, shapes, htensors, harity, hshapes, hcount, houtputs⟩ := h
  refine ⟨tensors, shapes, tensorsOf_append htensors more, harity, hshapes, hcount, houtputs.imp ?_⟩
  rintro id shape ⟨t, ht, rfl⟩
  exact ⟨t, tensor?_append ht more, rfl⟩

/-- Every operator fits, and every tensor's layout has been checked. -/
structure Fitted (g : Graph) : Prop where
  fits : ∀ op ∈ g.ops, g.Fits op.kind op.inputs op.outputs
  layouts : ∀ t ∈ g.tensors, Tensor.checkLayout t.shape t.stride = .ok ()

theorem Fitted.congr {g g' : Graph} (h : g.Fitted)
    (htensors : g'.tensors.map Tensor.bare = g.tensors.map Tensor.bare)
    (hops : ∀ op ∈ g'.ops, ∃ op' ∈ g.ops, op'.kind = op.kind ∧ op'.inputs = op.inputs ∧
      op'.outputs = op.outputs) : g'.Fitted where
  fits op hop := by
    obtain ⟨op', hop', hkind, hinputs, houtputs⟩ := hops op hop
    rw [← hkind, ← hinputs, ← houtputs]
    exact (h.fits op' hop').congr (sameLayouts_of_map htensors)
  layouts t ht := by
    have hmem : t.bare ∈ g.tensors.map Tensor.bare := htensors ▸ List.mem_map_of_mem ht
    obtain ⟨u, hu, hbare⟩ := List.mem_map.1 hmem
    obtain ⟨_, _, hshape, hstride, _⟩ := Tensor.mk.inj hbare
    rw [← show u.shape = t.shape from hshape, ← show u.stride = t.stride from hstride]
    exact h.layouts u hu

end Graph

namespace Draft

theorem Grows.fitted {d d' : Draft} (h : Grows d d') (hfitted : d.graph.Fitted) :
    d'.graph.Fitted := by
  induction h with
  | refl => exact hfitted
  | elsewhere _ _ _ ih => exact ih
  | @tensor d' _ _ _ t _ hmake ih =>
      obtain ⟨hcheck, rfl⟩ := Tensor.make_eq_ok hmake
      refine ⟨fun op hop => (ih.fits op hop).append [_], fun u hu => ?_⟩
      rcases List.mem_append.1 hu with hu | hu
      · exact ih.layouts u hu
      · rw [List.mem_singleton.1 hu]
        exact hcheck
  | @operator d' kind inputs outputs _ hfits ih =>
      have htensors : (d'.pushOperator kind inputs outputs).graph.tensors.map Tensor.bare =
          d'.graph.tensors.map Tensor.bare := by
        rw [pushOperator, Graph.connect_eq, List.map_map]
        rfl
      refine ⟨fun op hop => ?_, fun t ht => ?_⟩
      · rcases Graph.mem_ops_connect { id := d'.ids.operator, kind, inputs, outputs } rfl rfl hop
            with ⟨op₀, hop₀, rfl⟩ | rfl
        · exact (ih.fits op₀ hop₀).congr (Graph.sameLayouts_of_map htensors)
        · exact hfits.congr (Graph.sameLayouts_of_map htensors)
      · rw [pushOperator, Graph.connect_eq] at ht
        obtain ⟨t₀, ht₀, rfl⟩ := List.mem_map.1 ht
        exact ih.layouts t₀ ht₀

theorem built_fitted (steps : List BuildStep) : (built steps).graph.Fitted :=
  (built_grows steps).fitted
    ⟨fun _ hop => absurd hop List.not_mem_nil, fun _ ht => absurd ht List.not_mem_nil⟩

end Draft

end TensorDataflow
