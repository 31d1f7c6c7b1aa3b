import TensorDataflow.Library.Native
import TensorDataflow.Proofs.Library.Reach
/-!
# Compiled operators

What compiling lets through, and what follows for a launch: the kernel reads the bytes that its
inputs span, writes into those that its output spans and into its workspace, and settles its output
from its inputs, unless it is told to add to what the output holds.
-/

namespace TensorDataflow

namespace OperandLayout

/-- A batch of matrices with a step for each axis; a batch of one is not stepped over. -/
structure Batched (l : OperandLayout) (batch rows cols : Nat) : Prop where
  shape : l.shape = [batch, rows, cols]
  strides : ∃ step rowStep colStep, l.strides = [step, rowStep, colStep] ∧ (batch = 1 → step = 0)

/-- A layout as an operator uses it: as it was given, or as a batch of matrices. -/
def UsedAs (l l' : OperandLayout) : Prop := l' = l ∨ l.toBatched? = some l'

/-- As a batch of matrices a layout has the same last offset, and no step that it did not have but
the one that is not taken. -/
theorem batched_of_toBatched? {l l' : OperandLayout} (h : l.toBatched? = some l')
    (hrank : l.shape.length = l.strides.length) :
    l'.kind = l.kind ∧ l'.lastOffset = l.lastOffset ∧
    (∀ step ∈ l'.strides, step = 0 ∨ step ∈ l.strides) ∧
    (∀ extent ∈ l'.shape, extent = 1 ∨ extent ∈ l.shape) ∧
      ∃ batch rows cols, l'.Batched batch rows cols := by
  obtain ⟨shape, strides, kind⟩ := l
  dsimp only at hrank
  match shape, strides, hrank with
  | [rows, cols], [rowStep, colStep], _ =>
      cases h
      refine ⟨rfl, by simp [lastOffset], by simp, by simp, 1, rows, cols, rfl, 0, rowStep, colStep,
        rfl, fun _ => rfl⟩
  | [batch, rows, cols], [step, rowStep, colStep], _ =>
      cases h
      refine ⟨rfl, ?_, ?_, by simp, batch, rows, cols, rfl, _, rowStep, colStep, rfl,
        fun hone => if_pos hone⟩
      · by_cases hone : batch = 1 <;> simp [lastOffset, hone]
      · by_cases hone : batch = 1 <;> simp [hone]
  | [], _, _ => cases h
  | [_], _, _ => cases h
  | _ :: _ :: _ :: _ :: _, _, _ => cases h

theorem getLastD_of_toBatched? {l l' : OperandLayout} (h : l.toBatched? = some l') :
    l'.shape.getLastD 0 = l.shape.getLastD 0 := by
  obtain ⟨shape, strides, kind⟩ := l
  match shape, strides with
  | [rows, cols], strides => cases h; rfl
  | [batch, rows, cols], step :: strides => cases h; rfl
  | [_, _, _], [] => cases h
  | [], _ => cases h
  | [_], _ => cases h
  | _ :: _ :: _ :: _ :: _, _ => cases h

/-- An operator accepts what the library accepted. -/
theorem UsedAs.accepted {l l' : OperandLayout} (h : l.UsedAs l')
    (hrank : l.shape.length = l.strides.length) (hsteps : ∀ step ∈ l.strides, 0 ≤ step) :
    l'.shape.length = l'.strides.length ∧ ∀ step ∈ l'.strides, 0 ≤ step := by
  rcases h with rfl | hbatched
  · exact ⟨hrank, hsteps⟩
  · obtain ⟨-, -, hstrides, -, batch, rows, cols, hshape⟩ := batched_of_toBatched? hbatched hrank
    obtain ⟨step, rowStep, colStep, hthree, -⟩ := hshape.strides
    refine ⟨by rw [hshape.shape, hthree]; rfl, fun step hstep => ?_⟩
    rcases hstrides step hstep with rfl | hold
    · exact Int.le_refl 0
    · exact hsteps step hold

/-- An operator spans what its tensor descriptors span. -/
theorem UsedAs.plain {l l' : OperandLayout} (h : l.UsedAs l') (hplain : l.Plain) :
    l'.Plain ∧ l'.spanBytes = l.spanBytes := by
  obtain ⟨hrank, hsteps⟩ := h.accepted hplain.rank hplain.steps
  rcases h with rfl | hbatched
  · exact ⟨hplain, rfl⟩
  · obtain ⟨hkind, hlast, -, hextents, -⟩ := batched_of_toBatched? hbatched hplain.rank
    have hplain' : l'.Plain := by
      refine ⟨hrank, hsteps, fun extent hextent => ?_⟩
      rcases hextents extent hextent with rfl | hold
      · decide
      · exact hplain.extents extent hold
    exact ⟨hplain', by rw [hplain'.spanBytes_eq, hplain.spanBytes_eq, hkind, hlast]⟩

end OperandLayout

namespace CompiledOp

/-- How the shapes of the operands fit together. -/
def Fits (op : NativeOp) (y a b : OperandLayout) : Prop :=
  match op with
  | .add | .sub | .mul => a.shape = y.shape ∧ b.shape = y.shape
  | .gemm =>
      ∃ batch aBatch bBatch m n k, y.Batched batch m n ∧ a.Batched aBatch m k ∧
        b.Batched bBatch k n ∧
      (aBatch = batch ∨ aBatch = 1) ∧ (bBatch = batch ∨ bBatch = 1)
  | .rmsNorm _ => y.shape = a.shape ∧ ∃ last, a.shape.getLast? = some last ∧ b.shape = [last]

/-- A compiled operator with the layouts of its output and its inputs, of one kind and with shapes
that fit together. -/
structure Fitted (c : CompiledOp) (y a b : OperandLayout) : Prop where
  operands : c.operands = [y, a, b]
  computable : y.kind = .f32 ∨ y.kind = .f64
  kinds : a.kind = y.kind ∧ b.kind = y.kind
  fits : Fits c.op y a b

/-- A compiled operator with the layouts of its output and its inputs. -/
structure WellFormed (c : CompiledOp) (y a b : OperandLayout) : Prop where
  operands : c.operands = [y, a, b]
  computable : y.kind = .f32 ∨ y.kind = .f64
  kinds : a.kind = y.kind ∧ b.kind = y.kind
  plain : y.Plain ∧ a.Plain ∧ b.Plain
  fits : Fits c.op y a b

open OperandLayout

theorem fitted_of_compile {op : NativeOp} {operands : List OperandLayout} {c : CompiledOp}
    (h : compile op operands = .ok c)
    (hrank : ∀ l ∈ operands, l.shape.length = l.strides.length) :
    ∃ ly la lb y a b, operands = [ly, la, lb] ∧ c.Fitted y a b ∧ ly.UsedAs y ∧ la.UsedAs a ∧
    lb.UsedAs b := by
  match operands with
  | [y, a, b] =>
      simp only [List.mem_cons, List.not_mem_nil, or_false, forall_eq_or_imp, forall_eq] at hrank
      unfold compile at h
      dsimp only at h
      split at h
      · cases h
      · next hkinds =>
          have hkind : (y.kind = .f32 ∨ y.kind = .f64) ∧ a.kind = y.kind ∧ b.kind = y.kind := by
            simpa [isComputable, and_assoc, or_iff_not_imp_left] using hkinds
          cases op with
          | add | sub | mul =>
              dsimp only at h
              split at h
              · next hshapes =>
                  cases h
                  exact ⟨y, a, b, y, a, b, rfl, ⟨rfl, hkind.1, hkind.2, hshapes⟩, .inl rfl,
                    .inl rfl, .inl rfl⟩
              · cases h
          | gemm =>
              dsimp only at h
              split at h
              · next y' a' b' hy ha hb =>
                  obtain ⟨hyKind, -, -, -, batch, m, n, hyShape⟩ := batched_of_toBatched? hy hrank.1
                  obtain ⟨haKind, -, -, -, aBatch, aRows, k, haShape⟩ :=
                    batched_of_toBatched? ha hrank.2.1
                  obtain ⟨hbKind, -, -, -, bBatch, bRows, bCols, hbShape⟩ :=
                    batched_of_toBatched? hb hrank.2.2
                  rw [hyShape.shape, haShape.shape, hbShape.shape] at h
                  dsimp only at h
                  split at h
                  · next hfits =>
                      cases h
                      simp only [batchFits, Bool.and_eq_true, Bool.or_eq_true, beq_iff_eq] at hfits
                      obtain ⟨⟨⟨⟨haBatch, hbBatch⟩, rfl⟩, rfl⟩, rfl⟩ := hfits
                      exact ⟨y, a, b, y', a', b', rfl, ⟨rfl, hyKind ▸ hkind.1,
                        ⟨haKind.trans (hkind.2.1.trans hyKind.symm),
                          hbKind.trans (hkind.2.2.trans hyKind.symm)⟩,
                        batch, aBatch, bBatch, _, _, _, hyShape, haShape, hbShape, haBatch,
                        hbBatch⟩, .inr hy, .inr ha, .inr hb⟩
                  · cases h
              · cases h
          | rmsNorm epsilon =>
              dsimp only at h
              split at h
              · next last hlast =>
                  split at h
                  · next hshapes =>
                      cases h
                      exact ⟨y, a, b, y, a, b, rfl,
                        ⟨rfl, hkind.1, hkind.2, hshapes.1, last, hlast, hshapes.2⟩, .inl rfl,
                        .inl rfl, .inl rfl⟩
                  · cases h
              · cases h
  | [] => cases h
  | [_] => cases h
  | [_, _] => cases h
  | _ :: _ :: _ :: _ :: _ => cases h

theorem compile_gemm {ly la lb y a b : OperandLayout} (hy : ly.toBatched? = some y)
    (ha : la.toBatched? = some a) (hb : lb.toBatched? = some b) (hfits : Fits .gemm y a b)
    (hkinds : la.kind = ly.kind ∧ lb.kind = ly.kind) : compile .gemm [ly, la, lb] =
      if isComputable ly.kind then .ok ⟨.gemm, [y, a, b]⟩ else .error .badTensorDtype := by
  obtain ⟨batch, aBatch, bBatch, m, n, k, hyShape, haShape, hbShape, haBatch, hbBatch⟩ := hfits
  have hfit :
      (batchFits batch aBatch && batchFits batch bBatch && m == m && k == k && n == n) = true := by
    simp [batchFits, haBatch, hbBatch]
  cases hkind : isComputable ly.kind with
  | true =>
      simp only [compile, hkind, hkinds, hy, ha, hb, hyShape.shape, haShape.shape,
        hbShape.shape, hfit]
      simp
  | false => simp [compile, hkind]

theorem wellFormed_of_compile {op : NativeOp} {operands : List OperandLayout} {c : CompiledOp}
    (h : compile op operands = .ok c)
    (hplain : ∀ l ∈ operands, l.Plain) :
    ∃ ly la lb y a b, operands = [ly, la, lb] ∧ c.WellFormed y a b ∧
      y.spanBytes = ly.spanBytes ∧ a.spanBytes = la.spanBytes ∧ b.spanBytes = lb.spanBytes := by
  obtain ⟨ly, la, lb, y, a, b, rfl, hfitted, hy, ha, hb⟩ :=
    fitted_of_compile h fun l hl => (hplain l hl).rank
  simp only [List.mem_cons, List.not_mem_nil, or_false, forall_eq_or_imp, forall_eq] at hplain
  obtain ⟨hyPlain, hySpan⟩ := hy.plain hplain.1
  obtain ⟨haPlain, haSpan⟩ := ha.plain hplain.2.1
  obtain ⟨hbPlain, hbSpan⟩ := hb.plain hplain.2.2
  exact ⟨ly, la, lb, y, a, b, rfl, ⟨hfitted.operands, hfitted.computable, hfitted.kinds,
      ⟨hyPlain, haPlain, hbPlain⟩, hfitted.fits⟩, hySpan, haSpan, hbSpan⟩

end CompiledOp

/-- A launch does not add to what the output holds. -/
def LaunchArgs.Clears : LaunchArgs → Prop
  | .plain => True
  | .scale _ beta => beta = 0#_

/-- Arithmetic in which the zeros that a launch can be told are recognised as such. -/
def Arithmetic.KnowsZero {width : Nat} (s : Arithmetic width) : Prop :=
  s.isZero s.zero = true ∧ s.isZero (s.ofSingle 0#_) = true

theorem singleArithmetic_knowsZero : singleArithmetic.KnowsZero := by
  constructor <;> decide

theorem doubleArithmetic_knowsZero : doubleArithmetic.KnowsZero := by
  constructor <;> decide +kernel

namespace CompiledOp

open Memory

section Launch

variable {c : CompiledOp} {y a b : OperandLayout} (hc : c.WellFormed y a b)
  {yBase aBase bBase workspace : Address} {m m' : Memory}
  (hagree : AgreeOn (span aBase.val a.spanBytes ∪ span bBase.val b.spanBytes) m m')
  (houtput : ∀ x ∈ span aBase.val a.spanBytes ∪ span bBase.val b.spanBytes,
    x ∉ span yBase.val y.spanBytes)
  (hscratch : ∀ x ∈ span aBase.val a.spanBytes ∪ span bBase.val b.spanBytes,
    x ∉ span workspace.val c.workspaceSize)
  (hapart : ∀ x ∈ span yBase.val y.spanBytes, x ∉ span workspace.val c.workspaceSize)

include hc hagree houtput hscratch hapart

omit hagree houtput hscratch hapart in
theorem operand_spans {width : Nat} (hwidth : y.kind.size = width) :
    span yBase.val ((y.lastOffset + 1) * width) ⊆ span yBase.val y.spanBytes ∧
    span aBase.val ((a.lastOffset + 1) * width) ⊆
      span aBase.val a.spanBytes ∪ span bBase.val b.spanBytes ∧
    span bBase.val ((b.lastOffset + 1) * width) ⊆
      span aBase.val a.spanBytes ∪ span bBase.val b.spanBytes := by
  obtain ⟨hy, ha, hb⟩ := hc.plain
  have hySpan : y.spanBytes = (y.lastOffset + 1) * width := by rw [hy.spanBytes_eq, hwidth]
  have haSpan : a.spanBytes = (a.lastOffset + 1) * width := by
    rw [ha.spanBytes_eq, hc.kinds.1, hwidth]
  have hbSpan : b.spanBytes = (b.lastOffset + 1) * width := by
    rw [hb.spanBytes_eq, hc.kinds.2, hwidth]
  exact ⟨hySpan ▸ subset_rfl, haSpan ▸ Set.subset_union_left, hbSpan ▸ Set.subset_union_right⟩

omit hapart in
theorem pointwise_alike {width : Nat} (hwidth : y.kind.size = width)
    (f : Word width → Word width → Word width) :
    Alike (span yBase.val y.spanBytes) (span workspace.val c.workspaceSize) m m'
      (Kernel.elementwise f ⟨yBase, y⟩ ⟨aBase, a⟩ ⟨bBase, b⟩ m)
      (Kernel.elementwise f ⟨yBase, y⟩ ⟨aBase, a⟩ ⟨bBase, b⟩ m') := by
  obtain ⟨hy, ha, hb⟩ := hc.plain
  obtain ⟨hyIn, haIn, hbIn⟩ := operand_spans hc hwidth
  apply Kernel.elementwise_alike hagree houtput hscratch
  · exact fun i _ => (Operand.span_offset_subset (o := ⟨yBase, y⟩) hy width i).trans hyIn
  · exact fun i _ => (Operand.span_offset_subset (o := ⟨aBase, a⟩) ha width i).trans haIn
  · exact fun i _ => (Operand.span_offset_subset (o := ⟨bBase, b⟩) hb width i).trans hbIn

/-- A product whose old output counts for nothing, or was the same, is the same in both runs. -/
theorem product_alike {width : Nat} (s : Arithmetic width) (hwidth : y.kind.size = width)
    (hop : c.op = .gemm) (alpha beta : Word width)
    (hbeta : s.isZero beta = true ∨ AgreeOn (span yBase.val y.spanBytes) m m') :
    Alike (span yBase.val y.spanBytes) (span workspace.val c.workspaceSize) m m'
      (Kernel.gemm s ⟨yBase, y⟩ ⟨aBase, a⟩ ⟨bBase, b⟩ alpha beta workspace.val m)
      (Kernel.gemm s ⟨yBase, y⟩ ⟨aBase, a⟩ ⟨bBase, b⟩ alpha beta workspace.val m') := by
  obtain ⟨hy, ha, hb⟩ := hc.plain
  obtain ⟨hyIn, haIn, hbIn⟩ := operand_spans hc hwidth
  have hfits := hc.fits
  rw [hop] at hfits
  obtain ⟨batch, aBatch, bBatch, rows, n, k, hyShape, haShape, hbShape, haBatch, hbBatch⟩ := hfits
  obtain ⟨yStep, yRow, yCol, hyStrides, _⟩ := hyShape.strides
  obtain ⟨aStep, aRow, aCol, haStrides, haOne⟩ := haShape.strides
  obtain ⟨bStep, bRow, bCol, hbStrides, hbOne⟩ := hbShape.strides
  have hworkspace : c.workspaceSize = n * width := by
    rw [workspaceSize, hop, hc.operands]
    simp [hyShape.shape, hwidth]
  apply Kernel.gemm_alike hagree houtput hscratch s alpha beta hyShape.shape haShape.shape hapart
    (hworkspace ▸ subset_rfl) hbeta
  · intro l hl i hi j hj
    exact (Operand.span_coordinates_subset (o := ⟨yBase, y⟩) hy hyShape.shape hyStrides (.inr hl) hi
        hj width).trans hyIn
  · intro l hl i hi p hp
    have hbatch : aStep = 0 ∨ l < aBatch :=
      haBatch.elim (fun h => .inr (h ▸ hl)) fun h => .inl (haOne h)
    exact (Operand.span_coordinates_subset (o := ⟨aBase, a⟩) ha haShape.shape haStrides hbatch hi hp
        width).trans haIn
  · intro l hl p hp j hj
    have hbatch : bStep = 0 ∨ l < bBatch :=
      hbBatch.elim (fun h => .inr (h ▸ hl)) fun h => .inl (hbOne h)
    exact (Operand.span_coordinates_subset (o := ⟨bBase, b⟩) hb hbShape.shape hbStrides hbatch hp hj
        width).trans hbIn

omit hapart in
theorem normalisation_alike {width : Nat} (s : Arithmetic width) (hwidth : y.kind.size = width)
    {epsilon : Word 4} (hop : c.op = .rmsNorm epsilon) (epsilon' : Word width) :
    Alike (span yBase.val y.spanBytes) (span workspace.val c.workspaceSize) m m'
      (Kernel.rmsNorm s ⟨yBase, y⟩ ⟨aBase, a⟩ ⟨bBase, b⟩ epsilon' m)
      (Kernel.rmsNorm s ⟨yBase, y⟩ ⟨aBase, a⟩ ⟨bBase, b⟩ epsilon' m') := by
  obtain ⟨hy, ha, hb⟩ := hc.plain
  obtain ⟨hyIn, haIn, hbIn⟩ := operand_spans hc hwidth
  have hfits := hc.fits
  rw [hop] at hfits
  obtain ⟨hshape, last, hlast, hweight⟩ := hfits
  apply Kernel.rmsNorm_alike hagree houtput hscratch
  · intro last' hlast' row _ j hj
    exact (Operand.span_row_subset (o := ⟨yBase, y⟩) hy (hshape ▸ hlast') row hj width).trans hyIn
  · intro last' hlast' row _ j hj
    exact (Operand.span_row_subset (o := ⟨aBase, a⟩) ha hlast' row hj width).trans haIn
  · intro last' hlast' j hj
    obtain rfl : last = last' := Option.some.inj (hlast.symm.trans hlast')
    have hfirst := Operand.span_row_subset (o := ⟨bBase, b⟩) hb (by rw [hweight]; rfl) 0 hj width
    rw [Nat.zero_mul, Operand.offset, OperandLayout.linearOffset_zero, Int.zero_add] at hfirst
    exact hfirst.trans hbIn

theorem runWith_alike {width : Nat} (s : Arithmetic width) (hzero : s.KnowsZero)
    (hwidth : y.kind.size = width) (args : LaunchArgs)
    (hold : args.Clears ∨ AgreeOn (span yBase.val y.spanBytes) m m') :
    Alike (span yBase.val y.spanBytes) (span workspace.val c.workspaceSize) m m'
      (c.runWith s [yBase, aBase, bBase] workspace args m)
      (c.runWith s [yBase, aBase, bBase] workspace args m') := by
  have hpointwise := pointwise_alike hc hagree houtput hscratch hwidth
  unfold runWith
  rw [hc.operands]
  dsimp only
  cases hop : c.op with
  | add => exact hpointwise s.add
  | sub => exact hpointwise s.sub
  | mul => exact hpointwise s.mul
  | gemm =>
      have hproduct := product_alike hc hagree houtput hscratch hapart s hwidth hop
      cases args with
      | plain => exact hproduct s.one s.zero (.inl hzero.1)
      | scale alpha beta =>
          apply hproduct
          rcases hold with hclears | hsame
          · have hbeta : beta = 0#_ := hclears
            exact .inl (hbeta ▸ hzero.2)
          · exact .inr hsame
  | rmsNorm epsilon => exact normalisation_alike hc hagree houtput hscratch s hwidth hop _

theorem run_alike (args : LaunchArgs)
    (hold : args.Clears ∨ AgreeOn (span yBase.val y.spanBytes) m m') :
    Alike (span yBase.val y.spanBytes) (span workspace.val c.workspaceSize) m m'
      (c.run [yBase, aBase, bBase] workspace args m)
      (c.run [yBase, aBase, bBase] workspace args m') := by
  rw [run, run, hc.operands]
  rcases hc.computable with hkind | hkind
  · simp only [List.head?_cons, Option.map_some, hkind]
    exact runWith_alike hc hagree houtput hscratch hapart _ singleArithmetic_knowsZero
      (by rw [hkind]; rfl) args hold
  · simp only [List.head?_cons, Option.map_some, hkind]
    exact runWith_alike hc hagree houtput hscratch hapart _ doubleArithmetic_knowsZero
      (by rw [hkind]; rfl) args hold

end Launch

end CompiledOp

end TensorDataflow
