import TensorDataflow.Proofs.Graph.Acceptance
import TensorDataflow.Proofs.Library.Elementwise
/-!
# Element-wise operators

An element-wise operator hands its inputs to the library as if they had been expanded to the
output's shape, with no step along the axes that they lack or that have extent one. What the
compiled operator then leaves in the output is the broadcast: every element of the output, found by
the output's own steps, is the function of the elements of the inputs at the projected coordinates,
found by their own. `OpKind.pointwise_broadcasts` says so for any arithmetic, any rank and any steps
that are not negative.
-/

namespace TensorDataflow

/-- A concrete tensor with its layout, which has one step per axis and none that is negative. -/
structure Tensor.LaidOut (t : Tensor) (l : OperandLayout) : Prop where
  layout : t.layout = .ok l
  accepted : l.Accepted

/-- The function that an element-wise operator applies. -/
def Pointwise.combine {width : Nat} (s : Arithmetic width) :
    Pointwise → Word width → Word width → Word width
  | add => s.add
  | sub => s.sub
  | mul => s.mul

namespace Tensor

/-- A layout that has elements at all has no empty axis. -/
theorem LaidOut.plain {t : Tensor} {l : OperandLayout} (h : t.LaidOut l) {coordinates : List Nat}
    (hwithin : Within l.shape coordinates) : l.Plain :=
  ⟨h.accepted.1, h.accepted.2, sized_of_layout h.layout hwithin.pos⟩

end Tensor

/-! ### What the compiled operator computes -/

namespace Memory

/-- Read through a larger shape, an operand has the elements that it has itself at the projected
coordinates. -/
theorem elementAt_expanded (m : Memory) (width : Nat) (base : Address) (l : OperandLayout)
    {target coordinates : List Nat} (hwithin : Within target coordinates) :
    m.elementAt width ⟨base, l.expanded target⟩ coordinates =
      m.elementAt width ⟨base, l⟩ (OperandLayout.projected l.shape coordinates) := by
  rw [elementAt, elementAt, l.offsetAt_expanded hwithin]
  rfl

end Memory

namespace Operand

theorem bytesAt_expanded (width : Nat) (base : Address) (l : OperandLayout)
    {target coordinates : List Nat} (hwithin : Within target coordinates) :
    bytesAt ⟨base, l.expanded target⟩ width coordinates =
      bytesAt ⟨base, l⟩ width (OperandLayout.projected l.shape coordinates) := by
  rw [bytesAt, bytesAt, l.offsetAt_expanded hwithin]
  rfl

/-- The bytes of an element lie in the bytes that its layout spans. -/
theorem bytesAt_subset_spanBytes {l : OperandLayout} (h : l.Plain) (base : Address) {width : Nat}
    (hwidth : l.kind.size = width) {coordinates : List Nat} (hwithin : Within l.shape coordinates) :
    bytesAt ⟨base, l⟩ width coordinates ⊆ span base.val l.spanBytes := by
  rw [h.spanBytes_eq, hwidth]
  exact bytesAt_subset (o := ⟨base, l⟩) h width hwithin

/-- An input that keeps apart from the output does so element by element when it is read through the
output's shape. -/
theorem expanded_apart {l y : OperandLayout} (hl : l.Plain) (hy : y.Plain)
    (hreads : OperandLayout.ReadsAs l.shape y.shape) {width : Nat} (hlSize : l.kind.size = width)
    (hySize : y.kind.size = width)
    {base yBase : Address}
    (hapart : ∀ x ∈ span base.val l.spanBytes, x ∉ span yBase.val y.spanBytes) :
    ∀ i j, Within y.shape i → Within y.shape j →
    ∀ x ∈ bytesAt ⟨base, l.expanded y.shape⟩ width i, x ∉ bytesAt ⟨yBase, y⟩ width j := by
  intro i j hi hj x hx hxy
  rw [bytesAt_expanded width base l hi] at hx
  exact hapart x (bytesAt_subset_spanBytes hl base hlSize (hreads.within_projected hi) hx)
    (bytesAt_subset_spanBytes hy yBase hySize hj hxy)

end Operand

namespace CompiledOp

theorem compile_pointwise (f : Pointwise) {y a b : OperandLayout}
    (hkinds : a.kind = y.kind ∧ b.kind = y.kind) (ha : a.shape = y.shape) (hb : b.shape = y.shape) :
    compile (OpKind.pointwise f).nativeOp [y, a, b] = if isComputable y.kind
      then .ok ⟨(OpKind.pointwise f).nativeOp, [y, a, b]⟩ else .error .badTensorDtype := by
  cases hkind : isComputable y.kind with
  | true => cases f <;> simp [compile, OpKind.nativeOp, hkind, hkinds, ha, hb]
  | false => simp [compile, hkind]

theorem runWith_pointwise (f : Pointwise) {width : Nat} (s : Arithmetic width)
    (y a b : OperandLayout) (yBase aBase bBase workspace : Address) (args : LaunchArgs)
    (m : Memory) :
    runWith s ⟨(OpKind.pointwise f).nativeOp, [y, a, b]⟩ [yBase, aBase, bBase] workspace args m =
      Kernel.elementwise (f.combine s) ⟨yBase, y⟩ ⟨aBase, a⟩ ⟨bBase, b⟩ m := by
  cases f <;> rfl

/-- Inputs read through the output's shape are combined element by element, each found by its own
layout at the projected coordinates. -/
theorem elementAt_pointwise (f : Pointwise) {y a b : OperandLayout} (hy : y.Plain) (ha : a.Plain)
    (hb : b.Plain) (hdistinct : y.Distinct) (haReads : OperandLayout.ReadsAs a.shape y.shape)
    (hbReads : OperandLayout.ReadsAs b.shape y.shape) {width : Nat} (hySize : y.kind.size = width)
    (haSize : a.kind.size = width) (hbSize : b.kind.size = width) (s : Arithmetic width)
    {yBase aBase bBase : Address}
    (hapart : ∀ x ∈ span aBase.val a.spanBytes ∪ span bBase.val b.spanBytes,
      x ∉ span yBase.val y.spanBytes) (workspace : Address) (args : LaunchArgs) (m : Memory)
    {coordinates : List Nat} (hwithin : Within y.shape coordinates) :
    (runWith s ⟨(OpKind.pointwise f).nativeOp, [y, a.expanded y.shape, b.expanded y.shape]⟩ [yBase,
        aBase, bBase] workspace args m).elementAt width ⟨yBase, y⟩ coordinates =
      f.combine s (m.elementAt width ⟨aBase, a⟩ (OperandLayout.projected a.shape coordinates))
      (m.elementAt width ⟨bBase, b⟩ (OperandLayout.projected b.shape coordinates)) := by
  have haSpread : (a.expanded y.shape).Spread :=
    ⟨OperandLayout.rank_expanded ha.rank haReads, hy.extents⟩
  have hbSpread : (b.expanded y.shape).Spread :=
    ⟨OperandLayout.rank_expanded hb.rank hbReads, hy.extents⟩
  have haApart := Operand.expanded_apart ha hy haReads haSize hySize fun x hx => hapart x (.inl hx)
  have hbApart := Operand.expanded_apart hb hy hbReads hbSize hySize fun x hx => hapart x (.inr hx)
  rw [runWith_pointwise, ← m.elementAt_expanded width aBase a hwithin,
    ← m.elementAt_expanded width bBase b hwithin]
  exact Kernel.elementAt_elementwise (y := ⟨yBase, y⟩) (a := ⟨aBase, a.expanded y.shape⟩)
    (b := ⟨bBase, b.expanded y.shape⟩) hy hdistinct (f.combine s) haSpread hbSpread rfl rfl haApart
    hbApart hwithin

end CompiledOp

theorem OperandLayout.distinct_columns : OperandLayout.Distinct ⟨[2, 2], [1, 2], .f32⟩ := by
  intro coordinates coordinates' h h' hsame
  rcases h with _ | ⟨hi, _ | ⟨hj, _ | _⟩⟩
  rcases h' with _ | ⟨hi', _ | ⟨hj', _ | _⟩⟩
  simp only [offsetAt, weighted, List.zipWith_cons_cons, List.zipWith_nil_left, List.sum_cons,
    List.sum_nil] at hsame
  simp only [List.cons.injEq, and_true]
  omega

namespace OpKind

open OperandLayout

theorem nativeOperands_pointwise (f : Pointwise) {a b y : Tensor} {la lb ly : OperandLayout}
    (ha : a.LaidOut la) (hb : b.LaidOut lb) (hy : y.LaidOut ly) :
    (pointwise f).nativeOperands [a, b] [y] =
      .ok [ly, la.expanded ly.shape, lb.expanded ly.shape] := by
  have haOperand := Tensor.broadcastOperand_eq ha.layout ha.accepted.1 ly
  have hbOperand := Tensor.broadcastOperand_eq hb.layout hb.accepted.1 ly
  simp only [nativeOperands, hy.layout, bind, Except.bind, List.mapM_cons, haOperand, hbOperand,
    List.mapM_nil, pure, Except.pure]

/-- An element-wise operator whose output has the shape that its inputs broadcast to compiles if the
elements are floating-point numbers that the library computes with. Run with any arithmetic on an
output that puts its elements at different offsets and keeps apart from the inputs, it leaves in
every element of the output the function of the inputs' elements at the projected coordinates. -/
theorem pointwise_broadcasts (f : Pointwise) {a b y : Tensor} {la lb ly : OperandLayout}
    (ha : a.LaidOut la) (hb : b.LaidOut lb) (hy : y.LaidOut ly)
    (hshape : a.shape.broadcast b.shape = .ok y.shape) (hkinds : a.kind = y.kind ∧ b.kind = y.kind)
    (hdistinct : ly.Distinct) :
    ∃ layouts, (pointwise f).nativeOperands [a, b] [y] = .ok layouts ∧
      ((∃ c, CompiledOp.compile (pointwise f).nativeOp layouts = .ok c) ↔
        y.kind = .f32 ∨ y.kind = .f64) ∧
      ∀ c, CompiledOp.compile (pointwise f).nativeOp layouts = .ok c →
        ∀ (s : Arithmetic y.kind.size) (yBase aBase bBase workspace : Address)
        (args : LaunchArgs) (m : Memory),
          (∀ x ∈ span aBase.val la.spanBytes ∪ span bBase.val lb.spanBytes,
            x ∉ span yBase.val ly.spanBytes) →
          ∀ coordinates, Within ly.shape coordinates →
            (c.runWith s [yBase, aBase, bBase] workspace args m).elementAt y.kind.size
              ⟨yBase, ly⟩ coordinates =
              f.combine s (m.elementAt y.kind.size ⟨aBase, la⟩ (projected la.shape coordinates))
              (m.elementAt y.kind.size ⟨bBase, lb⟩ (projected lb.shape coordinates)) := by
  obtain ⟨haShape, _, haKind⟩ := Tensor.layout_eq_ok_iff.1 ha.layout
  obtain ⟨hbShape, _, hbKind⟩ := Tensor.layout_eq_ok_iff.1 hb.layout
  obtain ⟨hyShape, _, hyKind⟩ := Tensor.layout_eq_ok_iff.1 hy.layout
  obtain ⟨haBroadcast, hbBroadcast⟩ := Axes.readsAs_of_broadcast hshape
  have haReads : ReadsAs la.shape ly.shape := Tensor.readsAs_values haBroadcast haShape hyShape
  have hbReads : ReadsAs lb.shape ly.shape := Tensor.readsAs_values hbBroadcast hbShape hyShape
  have hcompile :=
    CompiledOp.compile_pointwise f (y := ly) (a := la.expanded ly.shape) (b := lb.expanded ly.shape)
    ⟨haKind.trans (hkinds.1.trans hyKind.symm), hbKind.trans (hkinds.2.trans hyKind.symm)⟩ rfl rfl
  refine ⟨_, nativeOperands_pointwise f ha hb hy, ?_, ?_⟩
  · rw [hcompile, hyKind]
    cases y.kind <;> simp [CompiledOp.isComputable]
  · intro c hc s yBase aBase bBase workspace args m hapart coordinates hwithin
    rw [hcompile] at hc
    split at hc
    · cases hc
      have haPlain := ha.plain (haReads.within_projected hwithin)
      have hbPlain := hb.plain (hbReads.within_projected hwithin)
      have hySize : ly.kind.size = y.kind.size := congrArg ElementKind.size hyKind
      have haSize : la.kind.size = y.kind.size := congrArg ElementKind.size (haKind.trans hkinds.1)
      have hbSize : lb.kind.size = y.kind.size := congrArg ElementKind.size (hbKind.trans hkinds.2)
      exact CompiledOp.elementAt_pointwise f (hy.plain hwithin) haPlain hbPlain hdistinct haReads
        hbReads hySize haSize hbSize s hapart workspace args m hwithin
    · cases hc

/-- A row and a column, whose step along the axis of extent one is never taken, into a matrix that
is kept by columns. -/
theorem pointwise_broadcasts_row_column :
    ∃ layouts c, (pointwise .sub).nativeOperands [.ofWords [2] [1], .ofWords [2, 1] [3, 7]]
    [.ofWords [2, 2] [1, 2]] = .ok layouts ∧ CompiledOp.compile .sub layouts = .ok c ∧
      ∀ (s : Arithmetic 4) (m : Memory),
        (c.runWith s [⟨0x3000⟩, ⟨0x1000⟩, ⟨0x2000⟩] ⟨0x4000⟩ .plain m).load 4 0x3008 =
          s.sub (m.load 4 0x1004) (m.load 4 0x2000) ∧
        (c.runWith s [⟨0x3000⟩, ⟨0x1000⟩, ⟨0x2000⟩] ⟨0x4000⟩ .plain m).load 4 0x3004 =
          s.sub (m.load 4 0x1000) (m.load 4 0x200c) := by
  have hrow : (Tensor.ofWords [2] [1]).LaidOut ⟨[2], [1], .f32⟩ := ⟨rfl, rfl, by decide⟩
  have hcolumn : (Tensor.ofWords [2, 1] [3, 7]).LaidOut ⟨[2, 1], [3, 7], .f32⟩ :=
    ⟨rfl, rfl, by decide⟩
  have hmatrix : (Tensor.ofWords [2, 2] [1, 2]).LaidOut ⟨[2, 2], [1, 2], .f32⟩ :=
    ⟨rfl, rfl, by decide⟩
  obtain ⟨layouts, hlayouts, hcompiles, hcomputes⟩ :=
    pointwise_broadcasts .sub hrow hcolumn hmatrix rfl ⟨rfl, rfl⟩ distinct_columns
  obtain ⟨c, hc⟩ := hcompiles.2 (.inl rfl)
  refine ⟨layouts, c, hlayouts, hc, fun s m => ?_⟩
  have hapart : ∀ x ∈ span 0x1000 (spanBytes ⟨[2], [1], .f32⟩) ∪ span 0x2000
      (spanBytes ⟨[2, 1], [3, 7], .f32⟩), x ∉ span 0x3000 (spanBytes ⟨[2, 2], [1, 2], .f32⟩) := by
    have hrowSpan : spanBytes ⟨[2], [1], .f32⟩ = 8 := by decide
    have hcolumnSpan : spanBytes ⟨[2, 1], [3, 7], .f32⟩ = 16 := by decide
    have hmatrixSpan : spanBytes ⟨[2, 2], [1, 2], .f32⟩ = 16 := by decide
    intro x hx hxy
    rw [hrowSpan, hcolumnSpan, Set.mem_union, mem_span, mem_span] at hx
    rw [hmatrixSpan, mem_span] at hxy
    omega
  have helement := hcomputes c hc s ⟨0x3000⟩ ⟨0x1000⟩ ⟨0x2000⟩ ⟨0x4000⟩ .plain m hapart
  exact ⟨helement [0, 1] (.cons (by decide) (.cons (by decide) .nil)),
    helement [1, 0] (.cons (by decide) (.cons (by decide) .nil))⟩

end OpKind

end TensorDataflow
