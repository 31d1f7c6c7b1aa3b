import TensorDataflow.Graph.Inference
import TensorDataflow.Proofs.Graph.Fitting
import TensorDataflow.Proofs.Layout.Alignment
/-!
# Binding variables

Shapes are compared as trees, and substitution is a function of trees, so what has been found to
agree still agrees once variables are bound: inferring the outputs of bound inputs gives the bound
outputs. A graph whose operators fit is therefore resolved by substitution alone, the inference
after it changes nothing, and its operators go on fitting. All this is about kinds whose answers are
made of what they are given, as those that the library has itself are; a declared kind may have
shapes of its own, and then binding the variables in them comes to nothing.
-/

namespace TensorDataflow

namespace Dim

theorem substitute_of_evaluate {bindings : Bindings} {d : Dim} {v : Int64}
    (h : d.evaluate bindings = some v) : d.substitute bindings = .const v := by
  induction d generalizing v with
  | const w => exact congrArg Dim.const (Option.some.inj h)
  | var name =>
      rw [evaluate] at h
      rw [substitute, h]
      rfl
  | node op lhs rhs ihl ihr =>
      simp only [evaluate, bind, Option.bind_eq_some_iff] at h
      obtain ⟨a, ha, b, hb, hv⟩ := h
      rw [substitute, ihl ha, ihr hb, fold, hv]
      rfl

theorem agree?_substitute {bindings : Bindings} {a b d : Dim} (h : a.agree? b = some d) :
    (a.substitute bindings).agree? (b.substitute bindings) = some (d.substitute bindings) := by
  rw [agree?] at h ⊢
  split at h
  · next hfirst =>
      obtain rfl := Option.some.inj h
      refine if_pos (hfirst.imp (fun hab => hab ▸ rfl) fun hone => ?_)
      rw [isOne_iff.1 hone]
      rfl
  · split at h
    · next hone =>
        obtain rfl := Option.some.inj h
        rw [isOne_iff.1 hone, substitute]
        -- both sides may have become the constant one
        by_cases hsame : const 1 = b.substitute bindings
        · rw [if_pos (.inl hsame), hsame]
        · rw [if_neg (not_or.2 ⟨hsame, fun hb => hsame (isOne_iff.1 hb).symm⟩)]
          rfl
    · cases h

end Dim

namespace Axes

theorem extentAt_substitute (bindings : Bindings) (shape : Shape) (k : Nat) :
    (shape.substitute bindings).extentAt k = (shape.extentAt k).substitute bindings :=
  fromLast_map (Dim.substitute bindings) (rfl : (Dim.const 1).substitute bindings = .const 1) k

theorem rank_substitute {role : AxisRole} (bindings : Bindings) (axes : Axes role) :
    (axes.substitute bindings).rank = axes.rank :=
  List.length_map _

theorem broadcast_substitute (bindings : Bindings) {a b s : Shape} (h : a.broadcast b = .ok s) :
    (a.substitute bindings).broadcast (b.substitute bindings) = .ok (s.substitute bindings) := by
  obtain ⟨hrank, hagree⟩ := broadcast_eq_ok_iff.1 h
  refine broadcast_eq_ok_iff.2 ⟨?_, fun k => ?_⟩
  · rw [rank_substitute, rank_substitute, rank_substitute, hrank]
  · rw [extentAt_substitute, extentAt_substitute, extentAt_substitute]
    exact Dim.agree?_substitute (hagree k)

end Axes

namespace Tensor

/-- A tensor under an assignment. -/
def under (bindings : Bindings) (t : Tensor) : Tensor :=
  { t with shape := t.shape.substitute bindings, stride := t.stride.substitute bindings }

theorem substitute_of_checked {bindings : Bindings} {t : Tensor}
    (h : checkLayout (t.under bindings).shape (t.under bindings).stride = .ok ()) :
    t.substitute bindings = .ok (t.under bindings) := by
  dsimp only [under] at h
  rw [substitute, h]
  rfl

theorem matrixView_under (bindings : Bindings) {t : Tensor} {transposed : Bool} {v : MatrixView}
    (h : t.matrixView transposed = .ok v) :
    (t.under bindings).matrixView transposed = .ok
      ⟨v.batch.substitute bindings, v.rows.substitute bindings, v.cols.substitute bindings⟩ := by
  obtain ⟨id, kind, ⟨dims⟩, _⟩ := t
  match dims with
  | [rows, cols] =>
      cases h
      cases transposed <;> rfl
  | [batch, rows, cols] =>
      cases h
      cases transposed <;> rfl
  | [] => cases h
  | [_] => cases h
  | _ :: _ :: _ :: _ :: _ => cases h

end Tensor

namespace OpKind

/-- The kinds whose inference and operands are the library's own. -/
def Builtin : OpKind → Prop
  | declared _ => False
  | _ => True

instance : ∀ kind : OpKind, Decidable kind.Builtin
  | declared _ => .isFalse id
  | pointwise _ | gemm _ | rmsNorm _ => .isTrue trivial

/-- The kinds that answer what they are given: they have no shapes of their own in which an
assignment has something to settle. -/
def Transparent : OpKind → Prop
  | declared kind =>
      ∀ shapes, kind.shapes = some shapes → ∀ s ∈ shapes, ∀ bindings, s.substitute bindings = s
  | _ => True

theorem Builtin.transparent {kind : OpKind} (h : kind.Builtin) : kind.Transparent := by
  cases kind with
  | declared d => exact absurd h id
  | pointwise f => exact trivial
  | gemm attributes => exact trivial
  | rmsNorm epsilon => exact trivial

theorem gemmShape_eq_ok_iff {attributes : Gemm} {a b : Tensor} {bias : Option Tensor} {s : Shape} :
    gemmShape attributes a b bias = .ok s ↔ ∃ left right batch,
    a.matrixView attributes.transA = .ok left ∧ b.matrixView attributes.transB = .ok right ∧
      left.batch.agree? right.batch = some batch ∧ left.cols = right.rows ∧ (∀ c, bias = some c →
        c.shape = ⟨[batch, left.rows, right.cols]⟩) ∧ ⟨[batch, left.rows, right.cols]⟩ = s := by
  unfold gemmShape
  cases a.matrixView attributes.transA with
  | error e => simp [bind, Except.bind]
  | ok left =>
      cases b.matrixView attributes.transB with
      | error e => simp [bind, Except.bind]
      | ok right =>
          cases hbatch : left.batch.agree? right.batch with
          | none => simp [bind, Except.bind, hbatch, throw, throwThe, MonadExceptOf.throw]
          | some batch =>
              by_cases hcontraction : left.cols = right.rows
              · cases bias with
                | none => simp [bind, Except.bind, hbatch, hcontraction, pure, Except.pure]
                | some c => by_cases hshape : c.shape = ⟨[batch, left.rows, right.cols]⟩ <;>
                    simp [bind, Except.bind, hbatch, hcontraction, hshape, pure, Except.pure, throw,
                      throwThe, MonadExceptOf.throw]
              · simp [bind, Except.bind, hbatch, hcontraction, throw, throwThe, MonadExceptOf.throw]

theorem gemmShape_under (bindings : Bindings) {attributes : Gemm} {a b : Tensor}
    {bias : Option Tensor} {s : Shape} (h : gemmShape attributes a b bias = .ok s) :
    gemmShape attributes (a.under bindings) (b.under bindings) (bias.map (Tensor.under bindings)) =
      .ok (s.substitute bindings) := by
  obtain ⟨left, right, batch, hleft, hright, hbatch, hcontraction, hbias, rfl⟩ :=
    gemmShape_eq_ok_iff.1 h
  refine gemmShape_eq_ok_iff.2 ⟨_, _, _, Tensor.matrixView_under bindings hleft,
    Tensor.matrixView_under bindings hright, Dim.agree?_substitute hbatch, ?_, fun c hc => ?_, rfl⟩
  · rw [hcontraction]
  · obtain ⟨c₀, hc₀, rfl⟩ := Option.map_eq_some_iff.1 hc
    rw [Tensor.under, hbias c₀ hc₀]
    rfl

theorem rmsShape_under (bindings : Bindings) {x w : Tensor} {s : Shape} (h : rmsShape x w = .ok s) :
    rmsShape (x.under bindings) (w.under bindings) = .ok (s.substitute bindings) := by
  unfold rmsShape at h ⊢
  split at h
  · next last weight hlast hweight =>
      split at h
      · next hsame =>
          cases h
          have hlast' : (x.under bindings).shape.dims.getLast? =
              some (last.substitute bindings) := by
            rw [Tensor.under, Axes.substitute, List.getLast?_map, hlast]
            rfl
          have hweight' : (w.under bindings).shape.dims = [weight.substitute bindings] := by
            rw [Tensor.under, Axes.substitute, hweight]
            rfl
          rw [hlast', hweight']
          dsimp only
          rw [if_pos (hsame ▸ rfl)]
          rfl
      · cases h
  · cases h

/-- Inference commutes with binding variables. -/
theorem inferShapes_under (bindings : Bindings) {kind : OpKind} (hkind : kind.Transparent)
    {inputs : List Tensor} {shapes : List Shape} (h : kind.inferShapes inputs = .ok shapes) :
    kind.inferShapes (inputs.map (Tensor.under bindings)) =
      .ok (shapes.map (Axes.substitute bindings)) := by
  cases kind with
  | pointwise f =>
      match inputs with
      | a :: b :: rest =>
          rw [inferShapes] at h
          split at h
          · next s hs =>
              cases h
              simp only [List.map_cons, inferShapes]
              rw [show (a.under bindings).shape.broadcast (b.under bindings).shape =
                .ok (s.substitute bindings) from Axes.broadcast_substitute bindings hs]
              rfl
          · cases h
      | [] => cases h
      | [_] => cases h
  | gemm attributes =>
      match inputs with
      | a :: b :: rest =>
          obtain ⟨s, hs, h⟩ := except_bind_eq_ok.1 h
          cases h
          simp only [List.map_cons, inferShapes, List.head?_map, gemmShape_under bindings hs]
          rfl
      | [] => cases h
      | [_] => cases h
  | rmsNorm epsilon =>
      match inputs with
      | x :: w :: rest =>
          obtain ⟨s, hs, h⟩ := except_bind_eq_ok.1 h
          cases h
          simp only [List.map_cons, inferShapes, rmsShape_under bindings hs]
          rfl
      | [] => cases h
      | [_] => cases h
  | declared d =>
      obtain ⟨_, _, _, count, _, own, _⟩ := d
      cases own with
      | some own =>
          cases h
          have hsame : shapes.map (Axes.substitute bindings) = shapes :=
            (List.map_congr_left fun s hs => hkind shapes rfl s hs bindings).trans
              (List.map_id' shapes)
          rw [hsame]
          rfl
      | none =>
          cases inputs with
          | nil =>
              cases h
              rfl
          | cons first rest =>
              cases h
              rw [List.map_replicate]
              rfl

end OpKind

theorem Act.mapM_of_ok {σ ε α β : Type} {f : α → Act σ ε β} {s : σ} {answer : α → β} {xs : List α}
    (h : ∀ x ∈ xs, f x s = (.ok (answer x), s)) :
    xs.mapM f s = (.ok (xs.map answer), s) := by
  induction xs with
  | nil => rfl
  | cons x xs ih =>
      rw [List.mapM_cons, bind_of_ok (h x List.mem_cons_self),
        bind_of_ok (ih fun y hy => h y (List.mem_cons_of_mem _ hy))]
      rfl

namespace Graph

/-- A graph under an assignment. -/
def under (bindings : Bindings) (g : Graph) : Graph :=
  { g with tensors := g.tensors.map (Tensor.under bindings) }

theorem tensor?_under {bindings : Bindings} {g : Graph} {id : TensorId} {t : Tensor}
    (h : g.tensor? id = some t) : (g.under bindings).tensor? id = some (t.under bindings) := by
  have hfind : (g.under bindings).tensor? id = (g.tensor? id).map (Tensor.under bindings) :=
    find?_map_of_id Tensor.id (Tensor.under bindings) (fun _ => rfl) g.tensors id
  rw [hfind, h]
  rfl

theorem Fits.under {g : Graph} {kind : OpKind} {inputs outputs : List TensorId}
    (h : g.Fits kind inputs outputs) (hkind : kind.Transparent) (bindings : Bindings) :
    (g.under bindings).Fits kind inputs outputs := by
  obtain ⟨tensors, shapes, htensors, harity, hshapes, hcount, houtputs⟩ := h
  refine ⟨tensors.map (Tensor.under bindings), shapes.map (Axes.substitute bindings), ?_, harity,
    OpKind.inferShapes_under bindings hkind hshapes, hcount, ?_⟩
  · rw [tensorsOf_eq_ok_iff, List.forall₂_map_right_iff]
    exact (tensorsOf_eq_ok_iff.1 htensors).imp fun _ _ hid => tensor?_under hid
  · rw [List.forall₂_map_right_iff]
    refine houtputs.imp ?_
    rintro id shape ⟨t, ht, rfl⟩
    exact ⟨t.under bindings, tensor?_under ht, rfl⟩

theorem exists_tensorsOf_iff {g : Graph} {ids : List TensorId} {shapes : List Shape} :
    (∃ tensors, g.tensorsOf ids = .ok tensors ∧ tensors.map Tensor.shape = shapes) ↔
    List.Forall₂ (fun id shape => ∃ t, g.tensor? id = some t ∧ t.shape = shape) ids shapes := by
  simp only [tensorsOf_eq_ok_iff]
  constructor
  · rintro ⟨tensors, htensors, rfl⟩
    rw [List.forall₂_map_right_iff]
    exact htensors.imp fun id t ht => ⟨t, ht, rfl⟩
  · intro h
    induction h with
    | nil => exact ⟨[], .nil, rfl⟩
    | cons hhead _ ih =>
        obtain ⟨t, ht, rfl⟩ := hhead
        obtain ⟨tensors, htensors, rfl⟩ := ih
        exact ⟨t :: tensors, .cons ht htensors, rfl⟩

/-- An operator is consistent with a graph when what its kind infers from its inputs are the shapes
that its outputs have. -/
def Consistent (g : Graph) (op : Operator) : Prop :=
  ∃ inputs outputs, g.tensorsOf op.inputs = .ok inputs ∧ g.tensorsOf op.outputs = .ok outputs ∧
    op.kind.inferShapes inputs = .ok (outputs.map Tensor.shape)

theorem Fits.consistent {g : Graph} {op : Operator} (h : g.Fits op.kind op.inputs op.outputs) :
    g.Consistent op := by
  obtain ⟨inputs, shapes, hinputs, _, hshapes, _, houtputs⟩ := h
  obtain ⟨outputs, hfound, rfl⟩ := exists_tensorsOf_iff.2 houtputs
  exact ⟨inputs, outputs, hinputs, hfound, hshapes⟩

theorem inferOperator_of_consistent {g : Graph} {op : Operator} (h : g.Consistent op) :
    inferOperator op g = (.ok [], g) := by
  obtain ⟨inputs, outputs, hinputs, hfound, hshapes⟩ := h
  have hinfer :
      (do op.kind.inferShapes (← g.tensorsOf op.inputs) : Except GraphError (List Shape)) =
      .ok (outputs.map Tensor.shape) := by
    rw [hinputs]
    exact hshapes
  have houtputs := exists_tensorsOf_iff.1 ⟨outputs, hfound, rfl⟩
  have hset : ∀ pair ∈ op.outputs.zip (outputs.map Tensor.shape),
      (do return (pair.1, ← setInferred pair.1 pair.2) : Act Graph GraphError (TensorId × Bool)) g =
      (.ok (pair.1, false), g) := by
    intro pair hpair
    obtain ⟨t, ht, hshape⟩ : ∃ t, g.tensor? pair.1 = some t ∧ t.shape = pair.2 :=
      (List.forall₂_iff_zip.1 houtputs).2 hpair
    have hkeep : setInferred pair.1 pair.2 g = (.ok false, g) := by
      rw [setInferred, Act.bind_of_ok (Act.get_apply _), Act.bind_ofExcept (tensor_eq_ok_iff.2 ht),
        if_pos hshape]
      rfl
    rw [Act.bind_of_ok hkeep]
    rfl
  rw [inferOperator, Act.bind_of_ok (Act.get_apply _), Act.bind_ofExcept hinfer]
  dsimp only
  rw [if_neg (not_not.2 houtputs.length_eq.symm), Act.bind_of_ok (Act.mapM_of_ok hset)]
  simp [List.filter_map, Function.comp_def]

/-- Where every operator is consistent, inference changes nothing. -/
theorem shapeInfer_of_consistent {g : Graph} (h : ∀ op ∈ g.ops, g.Consistent op) :
    shapeInfer g = (.ok [], g) := by
  have hpass : g.ops.mapM inferOperator g = (.ok (g.ops.map fun _ => []), g) :=
    Act.mapM_of_ok fun op hop => inferOperator_of_consistent (h op hop)
  rw [shapeInfer, Act.bind_of_ok (Act.get_apply _), Act.bind_of_ok hpass]
  simp

theorem substituteFrom_of_checked {bindings : Bindings} {tensors : List Tensor}
    (h : ∀ t ∈ tensors,
      Tensor.checkLayout (t.under bindings).shape (t.under bindings).stride = .ok ()) :
    substituteFrom bindings tensors = (.ok (), tensors.map (Tensor.under bindings)) := by
  induction tensors with
  | nil => rfl
  | cons t tensors ih =>
      rw [substituteFrom, Tensor.substitute_of_checked (h t List.mem_cons_self)]
      dsimp only
      rw [ih fun u hu => h u (List.mem_cons_of_mem _ hu)]
      rfl

/-- Where every operator fits and every bound layout is sound, binding variables does that and
nothing else. -/
theorem resolve_of_fits {bindings : Bindings} {g : Graph}
    (hfits : ∀ op ∈ g.ops, g.Fits op.kind op.inputs op.outputs)
    (hkinds : ∀ op ∈ g.ops, op.kind.Transparent)
    (hlayouts : ∀ t ∈ g.tensors,
      Tensor.checkLayout (t.under bindings).shape (t.under bindings).stride = .ok ()) :
    resolve bindings g = (.ok [], g.under bindings) := by
  have hsubstitute : substituteAll bindings g = (.ok (), g.under bindings) := by
    rw [substituteAll, substituteFrom_of_checked hlayouts]
    rfl
  have hinfer : shapeInfer (g.under bindings) = (.ok [], g.under bindings) :=
    shapeInfer_of_consistent fun op hop =>
      ((hfits op hop).under (hkinds op hop) bindings).consistent
  rw [resolve, Act.bind_of_ok hsubstitute, Act.bind_of_ok hinfer]
  rfl

end Graph

end TensorDataflow
