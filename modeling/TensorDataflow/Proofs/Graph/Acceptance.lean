import TensorDataflow.Proofs.Graph.Resolution
import TensorDataflow.Proofs.Graph.Storage
/-!
# What inference accepts compiles

Inference compares trees and the operator library compares numbers, each with rules of its own for
broadcasting, transposition, batches and weights. On constant layouts without negative steps the two
agree: operands whose output shape can be inferred, and which share a computable element kind, are
never turned away by the library. `OpKind.compiles_of_inferShapes` says so for every kind that the
library has itself, and how much workspace the compiled operator asks for.
-/

namespace TensorDataflow

namespace Tensor

/-- A tensor with a checked layout of constants that never steps backwards. -/
structure Forward (t : Tensor) : Prop where
  settled : t.Settled
  nonneg : ∀ steps, t.stride.values? = some steps → ∀ step ∈ steps, 0 ≤ step

/-- Bytes of one row of a tensor's last axis. -/
def rowBytes (t : Tensor) : Nat := (t.shape.values?.getD []).getLastD 0 * t.kind.size

theorem layout_of_forward {t : Tensor} (h : t.Forward) : ∃ l, t.layout = .ok l ∧ l.Accepted := by
  obtain ⟨extents, hextents⟩ := h.settled.extents
  obtain ⟨steps, hsteps⟩ := h.settled.steps
  refine ⟨⟨extents, steps, t.kind⟩, layout_eq_ok_iff.2 ⟨hextents, hsteps, rfl⟩, ?_,
    h.nonneg steps hsteps⟩
  show extents.length = steps.length
  rw [← (Axes.values?_eq_some_iff.1 hextents).length_eq,
    ← (Axes.values?_eq_some_iff.1 hsteps).length_eq]
  exact (checkLayout_eq_ok_iff.1 h.settled.check).1

/-! ### Element-wise operands -/

/-- A tensor that can be read as the output's shape makes an operand of that shape. -/
theorem broadcastOperand_of_readsAs {t : Tensor} (h : t.Forward) {shape : Shape}
    (hreads : t.shape.ReadsAs shape) {y : OperandLayout} (hy : shape.values? = some y.shape) :
    ∃ l, OpKind.broadcastOperand y t = .ok l ∧ l.Accepted ∧ l.shape = y.shape ∧
    l.kind = t.kind := by
  obtain ⟨l, hl, hrank, hnonneg⟩ := layout_of_forward h
  obtain ⟨hshape, _, hkind⟩ := layout_eq_ok_iff.1 hl
  refine ⟨l.expanded y.shape, broadcastOperand_eq hl hrank y,
    ⟨OperandLayout.rank_expanded hrank (readsAs_values hreads hshape hy), fun step hstep => ?_⟩,
    rfl, hkind⟩
  rcases List.mem_append.1 hstep with hstep | hstep
  · rw [List.eq_of_mem_replicate hstep]
  · exact OperandLayout.nonneg_ownSteps hnonneg step hstep

end Tensor

/-! ### Matrix operands -/

namespace OperandLayout

/-- A layout as a matrix operand is given: with the last two axes exchanged if it is to be read
transposed. -/
def oriented (l : OperandLayout) (transposed : Bool) : OperandLayout :=
  if transposed then l.transposed else l

theorem kind_oriented (l : OperandLayout) (transposed : Bool) :
    (l.oriented transposed).kind = l.kind := by
  cases transposed with
  | false => rfl
  | true => exact l.kind_transposed

theorem Accepted.oriented {l : OperandLayout} (h : l.Accepted) (transposed : Bool) :
    (l.oriented transposed).Accepted := by
  cases transposed with
  | false => exact h
  | true =>
      show l.transposed.Accepted
      unfold OperandLayout.transposed
      split
      · exact h
      · exact ⟨by rw [length_exchangeAt, length_exchangeAt, h.1],
          fun step hstep => h.2 step ((exchangeAt_perm _ _).mem_iff.1 hstep)⟩

end OperandLayout

namespace Tensor

theorem matrixOperand_eq {t : Tensor} {l : OperandLayout} (hl : t.layout = .ok l)
    (transposed : Bool) : OpKind.matrixOperand t transposed = .ok (l.oriented transposed) := by
  rw [OpKind.matrixOperand, hl]
  rfl

/-- What inference takes for a matrix the library takes for a batch of matrices of the same
extents. -/
theorem toBatched?_of_matrixView {t : Tensor} {l : OperandLayout} (hl : t.layout = .ok l)
    (hrank : l.shape.length = l.strides.length) {transposed : Bool} {v : MatrixView}
    (hview : t.matrixView transposed = .ok v) :
    ∃ l' batch rows cols, (l.oriented transposed).toBatched? = some l' ∧
    l'.Batched batch rows cols ∧ Stands .extent v.batch batch ∧ Stands .extent v.rows rows ∧
    Stands .extent v.cols cols := by
  have hextents := Axes.values?_eq_some_iff.1 (layout_eq_ok_iff.1 hl).1
  obtain ⟨extents, steps, kind⟩ := l
  dsimp only at hrank hextents
  rw [matrixView] at hview
  split at hview
  · next rows cols hdims =>
      rw [hdims] at hextents
      match extents, steps, hrank, hextents with
      | [m, n], [rowStep, colStep], _, .cons hm (.cons hn .nil) =>
          cases hview
          cases transposed with
          | false =>
              exact ⟨_, 1, m, n, rfl, ⟨rfl, 0, rowStep, colStep, rfl, fun _ => rfl⟩, rfl, hm, hn⟩
          | true =>
              exact ⟨_, 1, n, m, rfl, ⟨rfl, 0, colStep, rowStep, rfl, fun _ => rfl⟩, rfl, hn, hm⟩
  · next batch rows cols hdims =>
      rw [hdims] at hextents
      match extents, steps, hrank, hextents with
      | [b, m, n], [step, rowStep, colStep], _, .cons hb (.cons hm (.cons hn .nil)) =>
          cases hview
          cases transposed with
          | false =>
              exact ⟨_, b, m, n, rfl,
                ⟨rfl, _, rowStep, colStep, rfl, fun hone => if_pos hone⟩, hb, hm, hn⟩
          | true =>
              exact ⟨_, b, n, m, rfl,
                ⟨rfl, _, colStep, rowStep, rfl, fun hone => if_pos hone⟩, hb, hn, hm⟩
  · cases hview

end Tensor

namespace OpKind

open Tensor

/-- The workspace that an operator with the given output takes. -/
def scratch : OpKind → Tensor → Nat
  | gemm _, y => y.rowBytes
  | _, _ => 0

theorem batchFits_of_agree? {a b d : Dim} (h : a.agree? b = some d) {va vb vd : Nat}
    (ha : Stands .extent a va) (hb : Stands .extent b vb) (hd : Stands .extent d vd) :
    CompiledOp.batchFits vd va = true ∧ CompiledOp.batchFits vd vb = true := by
  have hside : ∀ {e : Dim} {v : Nat}, (e = d ∨ e.isOne) → Stands .extent e v →
      CompiledOp.batchFits vd v = true := by
    intro e v he hv
    rw [CompiledOp.batchFits, Bool.or_eq_true, beq_iff_eq, beq_iff_eq]
    refine he.imp (fun hsame => ?_) fun hone => ?_
    · subst hsame
      exact hv.unique hd
    · rw [Dim.isOne_iff.1 hone] at hv
      exact hv.unique rfl
  obtain ⟨hfirst, hsecond⟩ := Axes.agree?_eq_some h
  exact ⟨hside hfirst ha, hside hsecond hb⟩

/-- Operands whose product can be inferred are batches of matrices that fit together. -/
theorem fits_of_gemmShape {a b y : Tensor} {la lb ly : OperandLayout} (ha : a.layout = .ok la)
    (hb : b.layout = .ok lb) (hy : y.layout = .ok ly) (haRank : la.shape.length = la.strides.length)
    (hbRank : lb.shape.length = lb.strides.length)
    (hyRank : ly.shape.length = ly.strides.length) {attributes : Gemm} {bias : Option Tensor}
    (hinfer : gemmShape attributes a b bias = .ok y.shape) :
    ∃ ly' la' lb', ly.toBatched? = some ly' ∧
    (la.oriented attributes.transA).toBatched? = some la' ∧
    (lb.oriented attributes.transB).toBatched? = some lb' ∧ CompiledOp.Fits .gemm ly' la' lb' := by
  obtain ⟨left, right, batch, hleft, hright, hbatch, hcontraction, _, hshape⟩ :=
    gemmShape_eq_ok_iff.1 hinfer
  have hyView : y.matrixView false = .ok ⟨batch, left.rows, right.cols⟩ := by
    rw [matrixView, ← hshape]
    rfl
  obtain ⟨la', aBatch, m, k, haBatched, haShape, haB, haM, haK⟩ :=
    toBatched?_of_matrixView ha haRank hleft
  obtain ⟨lb', bBatch, k', n, hbBatched, hbShape, hbB, hbK, hbN⟩ :=
    toBatched?_of_matrixView hb hbRank hright
  obtain ⟨ly', yBatch, m', n', hyBatched, hyShape, hyB, hyM, hyN⟩ :=
    toBatched?_of_matrixView hy hyRank hyView
  obtain rfl := hyM.unique haM
  obtain rfl := hyN.unique hbN
  obtain rfl : k = k' := haK.unique (hcontraction ▸ hbK)
  obtain ⟨haFits, hbFits⟩ := batchFits_of_agree? hbatch haB hbB hyB
  simp only [CompiledOp.batchFits, Bool.or_eq_true, beq_iff_eq] at haFits hbFits
  exact ⟨ly', la', lb', hyBatched, haBatched, hbBatched, yBatch, aBatch, bBatch, m', n', k, hyShape,
    haShape, hbShape, haFits, hbFits⟩

theorem nativeOperands_gemm {a b y : Tensor} {la lb ly : OperandLayout} (ha : a.layout = .ok la)
    (hb : b.layout = .ok lb) (hy : y.layout = .ok ly) (attributes : Gemm) (rest : List Tensor) :
    (gemm attributes).nativeOperands (a :: b :: rest) [y] =
      .ok [ly, la.oriented attributes.transA, lb.oriented attributes.transB] := by
  simp only [nativeOperands, hy, matrixOperand_eq ha, matrixOperand_eq hb, bind, Except.bind,
    pure, Except.pure]

section Compiling

variable {y : Tensor} (hy : y.Forward) (hcomputable : y.kind = .f32 ∨ y.kind = .f64)

include hcomputable in
theorem computable_guard {ly la lb : OperandLayout} (hly : ly.kind = y.kind)
    (hla : la.kind = y.kind) (hlb : lb.kind = y.kind) :
    ¬ (!CompiledOp.isComputable ly.kind || la.kind ≠ ly.kind || lb.kind ≠ ly.kind) = true := by
  rw [hly, hla, hlb]
  rcases hcomputable with hkind | hkind <;> simp [CompiledOp.isComputable, hkind]

include hy hcomputable

theorem compiles_pointwise {a b : Tensor} (ha : a.Forward) (hb : b.Forward)
    (hkinds : a.kind = y.kind ∧ b.kind = y.kind) (f : Pointwise)
    (hinfer : a.shape.broadcast b.shape = .ok y.shape) :
    ∃ layouts c, (pointwise f).nativeOperands [a, b] [y] = .ok layouts ∧
    (∀ l ∈ layouts, l.Accepted) ∧ CompiledOp.compile (pointwise f).nativeOp layouts = .ok c ∧
    c.workspaceSize = 0 := by
  obtain ⟨ly, hly, hyAccepted⟩ := layout_of_forward hy
  obtain ⟨hyShape, _, hyKind⟩ := layout_eq_ok_iff.1 hly
  obtain ⟨haReads, hbReads⟩ := Axes.readsAs_of_broadcast hinfer
  obtain ⟨la, hla, haAccepted, haShape, haKind⟩ := broadcastOperand_of_readsAs ha haReads hyShape
  obtain ⟨lb, hlb, hbAccepted, hbShape, hbKind⟩ := broadcastOperand_of_readsAs hb hbReads hyShape
  have hguard := computable_guard hcomputable hyKind (haKind.trans hkinds.1) (hbKind.trans hkinds.2)
  refine ⟨[ly, la, lb], ⟨(pointwise f).nativeOp, [ly, la, lb]⟩,
    ?_, by simp [hyAccepted, haAccepted, hbAccepted], ?_, ?_⟩
  · simp only [nativeOperands, hly, bind, Except.bind, List.mapM_cons, hla, hlb, List.mapM_nil,
      pure, Except.pure]
  · cases f <;>
      simp only [CompiledOp.compile, hguard, nativeOp, haShape, hbShape, and_self, if_true] <;> rfl
  · cases f <;> rfl

theorem compiles_gemm {a b : Tensor} (ha : a.Forward) (hb : b.Forward)
    (hkinds : a.kind = y.kind ∧ b.kind = y.kind) (attributes : Gemm) {bias : List Tensor}
    (hinfer : gemmShape attributes a b bias.head? = .ok y.shape) :
    ∃ layouts c, (gemm attributes).nativeOperands (a :: b :: bias) [y] = .ok layouts ∧
    (∀ l ∈ layouts, l.Accepted) ∧ CompiledOp.compile .gemm layouts = .ok c ∧
      c.workspaceSize = y.rowBytes := by
  obtain ⟨la, hla, haAccepted⟩ := layout_of_forward ha
  obtain ⟨lb, hlb, hbAccepted⟩ := layout_of_forward hb
  obtain ⟨ly, hly, hyAccepted⟩ := layout_of_forward hy
  obtain ⟨_, _, haKind⟩ := layout_eq_ok_iff.1 hla
  obtain ⟨_, _, hbKind⟩ := layout_eq_ok_iff.1 hlb
  obtain ⟨hyShape, _, hyKind⟩ := layout_eq_ok_iff.1 hly
  obtain ⟨ly', la', lb', hyBatched, haBatched, hbBatched, hfits⟩ :=
    fits_of_gemmShape hla hlb hly haAccepted.1 hbAccepted.1 hyAccepted.1 hinfer
  have hkinds' : (la.oriented attributes.transA).kind = ly.kind ∧
      (lb.oriented attributes.transB).kind = ly.kind := by
    rw [OperandLayout.kind_oriented, OperandLayout.kind_oriented, haKind, hbKind, hyKind]
    exact hkinds
  have hcompile := CompiledOp.compile_gemm hyBatched haBatched hbBatched hfits hkinds'
  rw [hyKind, if_pos (by rcases hcomputable with hkind | hkind <;> rw [hkind] <;> rfl)] at hcompile
  refine ⟨_, _, nativeOperands_gemm hla hlb hly attributes
    bias, by simp [hyAccepted, haAccepted.oriented, hbAccepted.oriented], hcompile, ?_⟩
  have hlast := OperandLayout.getLastD_of_toBatched? hyBatched
  have hkind := (OperandLayout.batched_of_toBatched? hyBatched hyAccepted.1).1
  show ly'.shape.getLastD 0 * ly'.kind.size = y.rowBytes
  rw [hlast, hkind, hyKind, rowBytes, hyShape]
  rfl

theorem compiles_rmsNorm {x w : Tensor} (hx : x.Forward) (hw : w.Forward)
    (hkinds : x.kind = y.kind ∧ w.kind = y.kind) (epsilon : Word 4)
    (hinfer : rmsShape x w = .ok y.shape) :
    ∃ layouts c, (rmsNorm epsilon).nativeOperands [x, w] [y] = .ok layouts ∧
    (∀ l ∈ layouts, l.Accepted) ∧ CompiledOp.compile (.rmsNorm epsilon) layouts = .ok c ∧
    c.workspaceSize = 0 := by
  obtain ⟨ly, hly, hyAccepted⟩ := layout_of_forward hy
  obtain ⟨lx, hlx, hxAccepted⟩ := layout_of_forward hx
  obtain ⟨lw, hlw, hwAccepted⟩ := layout_of_forward hw
  obtain ⟨hyShape, _, hyKind⟩ := layout_eq_ok_iff.1 hly
  obtain ⟨hxShape, _, hxKind⟩ := layout_eq_ok_iff.1 hlx
  obtain ⟨hwShape, _, hwKind⟩ := layout_eq_ok_iff.1 hlw
  rw [rmsShape] at hinfer
  split at hinfer
  · next last weight hlast hweight =>
      split at hinfer
      · next hsame =>
          have hshape : x.shape = y.shape := Except.ok.inj hinfer
          rw [← hshape, hxShape] at hyShape
          have hfull : ly.shape = lx.shape := (Option.some.inj hyShape).symm
          -- the last extent of the input is the only one of the weight
          have hreversed := List.rel_reverse (Axes.values?_eq_some_iff.1 hxShape)
          rw [List.getLast?_eq_head?_reverse] at hlast
          obtain ⟨others, hothers⟩ := List.head?_eq_some_iff.1 hlast
          rw [hothers, List.forall₂_cons_left_iff] at hreversed
          obtain ⟨v, _, hv, _, hend⟩ := hreversed
          have hxLast : lx.shape.getLast? = some v := by
            rw [List.getLast?_eq_head?_reverse, hend]
            rfl
          have hone := Axes.values?_eq_some_iff.1 hwShape
          rw [hweight, List.forall₂_cons_left_iff] at hone
          obtain ⟨v', _, hv', hnil, hwAll⟩ := hone
          cases hnil
          obtain rfl : v' = v := (hsame ▸ hv' : Stands .extent last v').unique hv
          have hguard :=
            computable_guard hcomputable hyKind (hxKind.trans hkinds.1) (hwKind.trans hkinds.2)
          refine ⟨[ly, lx, lw], ⟨.rmsNorm epsilon, [ly, lx, lw]⟩,
            ?_, by simp [hyAccepted, hxAccepted, hwAccepted], ?_, rfl⟩
          · simp only [nativeOperands, hly, hlx, hlw, bind, Except.bind, pure, Except.pure]
          · simp only [CompiledOp.compile, hguard, hxLast, hfull, hwAll, and_self, if_true]
            rfl
      · cases hinfer
  · cases hinfer

end Compiling

/-- Operands whose output can be inferred compile, if they share a computable kind and never step
backwards. -/
theorem compiles_of_inferShapes {kind : OpKind} (hkind : kind.Builtin) {inputs : List Tensor}
    {y : Tensor} (hinputs : ∀ t ∈ inputs, t.Forward) (hy : y.Forward)
    (hkinds : ∀ t ∈ inputs, t.kind = y.kind) (hcomputable : y.kind = .f32 ∨ y.kind = .f64)
    (harity : kind.checkArity .inputs kind.inputArity inputs.length = .ok ())
    (hinfer : kind.inferShapes inputs = .ok [y.shape]) :
    ∃ layouts c, kind.nativeOperands inputs [y] = .ok layouts ∧ (∀ l ∈ layouts, l.Accepted) ∧
    CompiledOp.compile kind.nativeOp layouts = .ok c ∧ c.workspaceSize = kind.scratch y := by
  have hcount : kind.inputArity.1 ≤ inputs.length ∧ inputs.length ≤ kind.inputArity.2 := by
    rw [checkArity] at harity
    split at harity
    · assumption
    · cases harity
  cases kind with
  | pointwise f =>
      obtain ⟨a, b, rfl⟩ := List.length_eq_two.1 (Nat.le_antisymm hcount.2 hcount.1)
      simp only [List.mem_cons, List.not_mem_nil, or_false, forall_eq_or_imp,
        forall_eq] at hinputs hkinds
      refine compiles_pointwise hy hcomputable hinputs.1 hinputs.2 hkinds f ?_
      rw [inferShapes] at hinfer
      split at hinfer
      · next s hs =>
          cases hinfer
          exact hs
      · cases hinfer
  | gemm attributes =>
      obtain ⟨a, rest, rfl⟩ :=
        List.exists_cons_of_length_pos (Nat.lt_of_lt_of_le Nat.two_pos hcount.1)
      obtain ⟨b, bias, rfl⟩ := List.exists_cons_of_length_pos (Nat.lt_of_succ_lt_succ hcount.1)
      obtain ⟨s, hs, hsame⟩ := except_bind_eq_ok.1 hinfer
      cases hsame
      simp only [List.mem_cons, forall_eq_or_imp] at hinputs hkinds
      exact compiles_gemm hy hcomputable hinputs.1 hinputs.2.1 ⟨hkinds.1, hkinds.2.1⟩ attributes hs
  | rmsNorm epsilon =>
      obtain ⟨x, w, rfl⟩ := List.length_eq_two.1 (Nat.le_antisymm hcount.2 hcount.1)
      obtain ⟨s, hs, hsame⟩ := except_bind_eq_ok.1 hinfer
      cases hsame
      simp only [List.mem_cons, List.not_mem_nil, or_false, forall_eq_or_imp,
        forall_eq] at hinputs hkinds
      exact compiles_rmsNorm hy hcomputable hinputs.1 hinputs.2 hkinds epsilon hs
  | declared d => exact absurd hkind id

end OpKind

end TensorDataflow
