import TensorDataflow.Proofs.Graph.Pointwise
import TensorDataflow.Proofs.Library.Addressing
import TensorDataflow.Proofs.Library.Product
/-!
# Products

A product hands its inputs to the library with the last two axes exchanged where they are to be read
transposed, and the library takes every operand for a batch of matrices, in which a batch of one is
not stepped over. What the compiled operator then leaves in each element of the output is the sum of
the products of a row and a column, in order and from zero, scaled and added to what the element
held: every element is found by the layout of its own tensor, at its own coordinates.
`OpKind.gemm_computes` says so for any arithmetic and any steps that are not negative, if the
workspace keeps apart from the operands; a workspace that lies where an input lies does not.
-/

namespace TensorDataflow

namespace OperandLayout

/-- The coordinates of an element of a matrix operand: the last two exchanged if it is read
transposed, and no matrix to choose from at rank two or in a batch of one. -/
def entry (l : OperandLayout) (transposed : Bool) (batch row col : Nat) : List Nat :=
  let position := if transposed then [col, row] else [row, col]
  match l.shape with
  | [batches, _, _] => (if batches = 1 then 0 else batch) :: position
  | _ => position

/-- How many columns a matrix operand has as it is read. -/
def columns (l : OperandLayout) (transposed : Bool) : Nat :=
  (if transposed then l.shape.dropLast else l.shape).getLastD 0

theorem length_of_toBatched? {l l' : OperandLayout} (h : l.toBatched? = some l') :
    l.shape.length = 2 ∨ l.shape.length = 3 := by
  rw [toBatched?] at h
  split at h
  · next hshape => exact .inl (by rw [hshape]; rfl)
  · next hshape _ => exact .inr (by rw [hshape]; rfl)
  · cases h

theorem shape_of_toBatched? {l l' : OperandLayout} (h : l.toBatched? = some l')
    (hthree : l.shape.length = 3) : l'.shape = l.shape := by
  obtain ⟨shape, strides, kind⟩ := l
  obtain ⟨batches, rows, cols, rfl⟩ := List.length_eq_three.1 hthree
  cases strides with
  | nil => cases h
  | cons step strides =>
      cases h
      rfl

theorem length_oriented (l : OperandLayout) (transposed : Bool) :
    (l.oriented transposed).shape.length = l.shape.length := by
  cases transposed with
  | false => rfl
  | true =>
      show l.transposed.shape.length = l.shape.length
      unfold OperandLayout.transposed
      split
      · rfl
      · exact length_exchangeAt _ _

/-- In a batch of one there is no step to the next matrix, which is as good as staying at the
first. -/
theorem matrix_step (batches batch : Nat) (step : Int) :
    (batch : Int) * (if batches = 1 then 0 else step) =
      ((if batches = 1 then 0 else batch : Nat) : Int) * step := by
  split
  · rw [Int.mul_zero, Nat.cast_zero, Int.zero_mul]
  · rfl

/-- A matrix operand as a batch of matrices has the elements of the layout that it was made from. -/
theorem entry_of_toBatched? {l l' : OperandLayout} {transposed : Bool}
    (hrank : l.shape.length = l.strides.length) (h : (l.oriented transposed).toBatched? = some l')
    {batches rows cols : Nat}
    (hshape : l'.shape = [batches, rows, cols]) :
    cols = l.columns transposed ∧
    (∀ batch i j, l'.offsetAt [batch, i, j] = l.offsetAt (l.entry transposed batch i j)) ∧
      ∀ batch i j, batch < batches ∨ batches = 1 → i < rows → j < cols →
      Within l.shape (l.entry transposed batch i j) := by
  have hlength := length_of_toBatched? h
  rw [length_oriented] at hlength
  obtain ⟨shape, strides, kind⟩ := l
  dsimp only at hrank hlength
  rcases hlength with htwo | hthree
  · obtain ⟨m, n, rfl⟩ := List.length_eq_two.1 htwo
    obtain ⟨rowStep, colStep, rfl⟩ := List.length_eq_two.1 (hrank.symm.trans htwo)
    cases transposed with
    | false =>
        cases h
        cases hshape
        refine ⟨rfl, fun batch i j => ?_, fun batch i j _ hi hj => .cons hi (.cons hj .nil)⟩
        simp [offsetAt, weighted, entry, oriented]
    | true =>
        cases h
        cases hshape
        refine ⟨rfl, fun batch i j => ?_, fun batch i j _ hi hj => .cons hj (.cons hi .nil)⟩
        simp [offsetAt, weighted, entry, oriented, OperandLayout.transposed,
          exchangeAt, Int.add_comm]
  · obtain ⟨b, m, n, rfl⟩ := List.length_eq_three.1 hthree
    obtain ⟨step, rowStep, colStep, rfl⟩ := List.length_eq_three.1 (hrank.symm.trans hthree)
    have hfirst : ∀ {batch}, batch < b ∨ b = 1 → (if b = 1 then 0 else batch) < b := by
      intro batch hbatch
      split <;> omega
    cases transposed with
    | false =>
        cases h
        cases hshape
        refine ⟨rfl, fun batch i j => ?_,
          fun batch i j hbatch hi hj => .cons (hfirst hbatch) (.cons hi (.cons hj .nil))⟩
        simp only [offsetAt, weighted, entry, List.zipWith_cons_cons, List.sum_cons, matrix_step]
        rfl
    | true =>
        cases h
        cases hshape
        refine ⟨rfl, fun batch i j => ?_,
          fun batch i j hbatch hi hj => .cons (hfirst hbatch) (.cons hj (.cons hi .nil))⟩
        simp only [offsetAt, weighted, entry, List.zipWith_cons_cons, List.sum_cons, matrix_step]
        show _ + ((i : Int) * colStep + (j * rowStep + 0)) = _ +
          ((j : Int) * rowStep + (i * colStep + 0))
        omega

theorem mem_entry (l : OperandLayout) (transposed : Bool) (batch i j : Nat) :
    i ∈ l.entry transposed batch i j ∧ j ∈ l.entry transposed batch i j := by
  cases transposed with
  | false =>
      simp only [entry, Bool.false_eq_true, if_false]
      split <;> simp
  | true =>
      simp only [entry, if_true]
      split <;> simp

/-- An output is read as it lies. -/
theorem entry_of_within {l : OperandLayout} {batch i j : Nat} (h : Within l.shape [batch, i, j]) :
    l.entry false batch i j = [batch, i, j] := by
  obtain ⟨shape, strides, kind⟩ := l
  rcases h with _ | ⟨hbatch, _ | ⟨hi, _ | ⟨hj, _ | _⟩⟩⟩
  show [if _ = 1 then 0 else batch, i, j] = _
  split
  · next hone =>
      subst hone
      rw [Nat.lt_one_iff.1 hbatch]
  · rfl

end OperandLayout

/-- Arithmetic that the library computes with on elements of a kind. -/
def ElementKind.Computes : (kind : ElementKind) → Arithmetic kind.size → Prop
  | .f32, s => s = singleArithmetic
  | .f64, s => s = doubleArithmetic
  | _, _ => False

/-! ### What the compiled operator computes -/

namespace Tensor

/-- Coordinates of a tensor fit in a signed word. -/
theorem LaidOut.lt_of_within {t : Tensor} {l : OperandLayout} (h : t.LaidOut l)
    {coordinates : List Nat} (hwithin : Within l.shape coordinates) :
    ∀ c ∈ coordinates, c < 0x8000000000000000 := by
  intro c hc
  obtain ⟨extent, hextent, hlt⟩ := exists_of_forall₂_of_mem hwithin hc
  exact hlt.trans ((h.plain hwithin).extents extent hextent).2

/-- The kernel finds the elements of a matrix operand where the tensor's own layout puts them. -/
theorem LaidOut.cell {t : Tensor} {l l' : OperandLayout} (h : t.LaidOut l) {transposed : Bool}
    (hbatched : (l.oriented transposed).toBatched? = some l') {batches rows cols : Nat}
    (hshape : l'.shape = [batches, rows, cols]) {batch i j : Nat}
    (hbatch : batch < batches ∨ batches = 1) (hword : batch < 0x8000000000000000) (hi : i < rows)
    (hj : j < cols) (base : Address) (width : Nat) :
    Within l.shape (l.entry transposed batch i j) ∧ Operand.entry ⟨base, l'⟩ width batch i j =
      Operand.address ⟨base, l⟩ width (l.offsetAt (l.entry transposed batch i j)) := by
  obtain ⟨-, hoffset, hwithin⟩ := OperandLayout.entry_of_toBatched? h.accepted.1 hbatched hshape
  have hcell := hwithin batch i j hbatch hi hj
  obtain ⟨hrow, hcol⟩ := l.mem_entry transposed batch i j
  have hwords : ∀ c ∈ [batch, i, j], c < 0x8000000000000000 := by
    simp only [List.mem_cons, List.not_mem_nil, or_false, forall_eq_or_imp, forall_eq]
    exact ⟨hword, h.lt_of_within hcell i hrow, h.lt_of_within hcell j hcol⟩
  refine ⟨hcell, ?_⟩
  rw [Operand.entry, Operand.coordinateOffset_of_lt hwords, ← hoffset]
  rfl

/-- The elements of a matrix operand lie in the bytes that the tensor's layout spans. -/
theorem LaidOut.cell_subset {t : Tensor} {l l' : OperandLayout} (h : t.LaidOut l)
    {transposed : Bool} (hbatched : (l.oriented transposed).toBatched? = some l')
    {batches rows cols : Nat}
    (hshape : l'.shape = [batches, rows, cols]) {batch i j : Nat}
    (hbatch : batch < batches ∨ batches = 1) (hword : batch < 0x8000000000000000) (hi : i < rows)
    (hj : j < cols) (base : Address) {width : Nat}
    (hwidth : l.kind.size = width) :
    span (Operand.entry ⟨base, l'⟩ width batch i j) width ⊆ span base.val l.spanBytes := by
  obtain ⟨hcell, hentry⟩ := h.cell hbatched hshape hbatch hword hi hj base width
  rw [hentry]
  exact Operand.bytesAt_subset_spanBytes (h.plain hcell) base hwidth hcell

/-- An output is found where its own layout puts it. -/
theorem LaidOut.outputCell {t : Tensor} {l l' : OperandLayout} (h : t.LaidOut l)
    (hbatched : l.toBatched? = some l') {batches rows cols : Nat}
    (hshape : l.shape = [batches, rows, cols]) {batch i j : Nat}
    (hcell : (batch, i, j) ∈ Kernel.cells batches rows cols) (base : Address) (width : Nat) :
    Within l.shape [batch, i, j] ∧ Operand.entry ⟨base, l'⟩ width batch i j =
      Operand.address ⟨base, l⟩ width (l.offsetAt [batch, i, j]) := by
  have hwithin : Within l.shape [batch, i, j] :=
    hshape ▸ .cons hcell.1 (.cons hcell.2.1 (.cons hcell.2.2 .nil))
  have hshape' : l'.shape = [batches, rows, cols] :=
    (OperandLayout.shape_of_toBatched? hbatched hwithin.length_eq.symm).trans hshape
  have hfound :=
    (h.cell (show (l.oriented false).toBatched? = some l' from hbatched) hshape' (.inl hcell.1)
      (h.lt_of_within hwithin batch List.mem_cons_self) hcell.2.1 hcell.2.2 base width).2
  rw [OperandLayout.entry_of_within hwithin] at hfound
  exact ⟨hwithin, hfound⟩

/-- The elements of an output that puts them at different offsets keep apart. -/
theorem LaidOut.outputCells_apart {t : Tensor} {l l' : OperandLayout}
    (h : t.LaidOut l) (hbatched : l.toBatched? = some l') {batches rows cols : Nat}
    (hshape : l.shape = [batches, rows, cols])
    (hdistinct : l.Distinct) (base : Address) (width : Nat) :
    ∀ p ∈ Kernel.cells batches rows cols, ∀ q ∈ Kernel.cells batches rows cols, p ≠ q →
      ∀ x ∈ span (Operand.entry ⟨base, l'⟩ width p.1 p.2.1 p.2.2) width,
      x ∉ span (Operand.entry ⟨base, l'⟩ width q.1 q.2.1 q.2.2) width := by
  rintro ⟨batch, i, j⟩ hp ⟨batch', i', j'⟩ hq hne
  obtain ⟨hcell, hentry⟩ := h.outputCell hbatched hshape hp base width
  obtain ⟨hcell', hentry'⟩ := h.outputCell hbatched hshape hq base width
  have hsteps := (h.plain hcell).steps
  rw [hentry, hentry']
  apply Operand.address_apart ⟨base, l⟩ width (OperandLayout.sum_weighted_bounds hcell hsteps).1
    (OperandLayout.sum_weighted_bounds hcell' hsteps).1
  intro hsame
  have hcoordinates := hdistinct _ _ hcell hcell' hsame
  simp only [List.cons.injEq, and_true] at hcoordinates
  exact hne (Prod.ext hcoordinates.1 (Prod.ext hcoordinates.2.1 hcoordinates.2.2))

end Tensor

namespace CompiledOp

open OperandLayout

section Product

variable {a b y : Tensor} {la lb ly la' lb' ly' : OperandLayout}
  (ha : a.LaidOut la) (hb : b.LaidOut lb) (hy : y.LaidOut ly) {transA transB : Bool}
  (haBatched : (la.oriented transA).toBatched? = some la')
  (hbBatched : (lb.oriented transB).toBatched? = some lb') (hyBatched : ly.toBatched? = some ly')
  (hfits : Fits .gemm ly' la' lb')

include ha hb hy haBatched hbBatched hyBatched hfits

/-- Every element of the output is the sum of products of its row and column, each element of the
inputs found by the tensor's own layout. -/
theorem elementAt_gemm (hdistinct : ly.Distinct) {width : Nat} (haSize : la.kind.size = width)
    (hbSize : lb.kind.size = width) (hySize : ly.kind.size = width) (s : Arithmetic width)
    (alpha beta : Word width)
    {yBase aBase bBase : Address} {accumulators : Nat}
    (houtput : ∀ x ∈ span aBase.val la.spanBytes ∪ span bBase.val lb.spanBytes,
      x ∉ span yBase.val ly.spanBytes)
    (hscratch : ∀ x ∈ span aBase.val la.spanBytes ∪ span bBase.val lb.spanBytes,
      x ∉ span accumulators (ly'.shape.getLastD 0 * width))
    (hapart : ∀ x ∈ span yBase.val ly.spanBytes,
      x ∉ span accumulators (ly'.shape.getLastD 0 * width)) (m : Memory) {batch i j : Nat}
    (hwithin : Within ly.shape [batch, i, j]) :
    (Kernel.gemm s ⟨yBase, ly'⟩ ⟨aBase, la'⟩ ⟨bBase, lb'⟩ alpha beta accumulators m).elementAt width
      ⟨yBase, ly⟩ [batch, i, j] =
      s.blend alpha beta
        (s.dot (la.columns transA)
          (fun p => m.elementAt width ⟨aBase, la⟩ (la.entry transA batch i p))
          fun p => m.elementAt width ⟨bBase, lb⟩ (lb.entry transB batch p j))
        (m.elementAt width ⟨yBase, ly⟩ [batch, i, j]) := by
  obtain ⟨batches, aBatch, bBatch, rows, n, k, hyShape, haShape, hbShape, haBatch, hbBatch⟩ := hfits
  obtain ⟨rfl, -⟩ := entry_of_toBatched? ha.accepted.1 haBatched haShape.shape
  have hshape : ly.shape = [batches, rows, n] :=
    (shape_of_toBatched? hyBatched hwithin.length_eq.symm).symm.trans hyShape.shape
  have hplain := hy.plain hwithin
  have hword : ∀ l < batches, l < 0x8000000000000000 :=
    fun l hl => hl.trans (hplain.extents batches (by simp [hshape])).2
  have hyCell := fun {l r c : Nat} (hcell : (l, r, c) ∈ Kernel.cells batches rows n) =>
    hy.outputCell hyBatched hshape hcell yBase width
  have haReads : ∀ l < batches, l < aBatch ∨ aBatch = 1 :=
    fun l hl => haBatch.imp_left fun hsame => by rwa [hsame]
  have hbReads : ∀ l < batches, l < bBatch ∨ bBatch = 1 :=
    fun l hl => hbBatch.imp_left fun hsame => by rwa [hsame]
  have haCell :=
    fun {l r p : Nat} (hl : l < batches) (hr : r < rows) (hp : p < la.columns transA) =>
      ha.cell haBatched haShape.shape (haReads l hl) (hword l hl) hr hp aBase width
  have hbCell := fun {l p c : Nat} (hl : l < batches) (hp : p < la.columns transA) (hc : c < n) =>
    hb.cell hbBatched hbShape.shape (hbReads l hl) (hword l hl) hp hc bBase width
  have hlast : ly'.shape.getLastD 0 = n := by rw [hyShape.shape]; rfl
  rw [hlast] at hscratch hapart
  -- the kernel stays inside what the tensors span, so their being
  -- apart keeps its reads and writes apart
  have hyIn : ∀ t ∈ Kernel.cells batches rows n, span
      (Operand.entry ⟨yBase, ly'⟩ width t.1 t.2.1 t.2.2) width ⊆ span yBase.val ly.spanBytes := by
    rintro ⟨l, r, c⟩ ht
    rw [(hyCell ht).2]
    exact Operand.bytesAt_subset_spanBytes hplain yBase hySize (hyCell ht).1
  have haIn : ∀ l < batches, ∀ r < rows, ∀ p < la.columns transA,
      span (Operand.entry ⟨aBase, la'⟩ width l r p) width ⊆
      span aBase.val la.spanBytes ∪ span bBase.val lb.spanBytes := by
    intro l hl r hr p hp
    exact (ha.cell_subset haBatched haShape.shape (haReads l hl) (hword l hl) hr hp aBase
        haSize).trans Set.subset_union_left
  have hbIn : ∀ l < batches, ∀ p < la.columns transA, ∀ c < n,
      span (Operand.entry ⟨bBase, lb'⟩ width l p c) width ⊆
      span aBase.val la.spanBytes ∪ span bBase.val lb.spanBytes := by
    intro l hl p hp c hc
    exact (hb.cell_subset hbBatched hbShape.shape (hbReads l hl) (hword l hl) hp hc bBase
        hbSize).trans Set.subset_union_right
  have hmem : (batch, i, j) ∈ Kernel.cells batches rows n := by
    rw [hshape] at hwithin
    rcases hwithin with _ | ⟨hl, _ | ⟨hr, _ | ⟨hc, _ | _⟩⟩⟩
    exact ⟨hl, hr, hc⟩
  have hcells := hy.outputCells_apart hyBatched hshape hdistinct yBase width
  have hstored := (Kernel.filled_gemm s alpha beta m houtput hscratch hapart hyIn haIn hbIn hcells
    hyShape.shape haShape.shape).stored _ hmem
  rw [Kernel.gemmWord, (hyCell hmem).2,
    s.dot_congr (fun p hp => congrArg (m.load width) (haCell hmem.1 hmem.2.1 hp).2)
      fun p hp => congrArg (m.load width) (hbCell hmem.1 hp hmem.2.2).2] at hstored
  exact hstored

end Product

/-- A compiled operator runs with the arithmetic of the kind of its output. -/
theorem exists_run {c : CompiledOp} {y : OperandLayout} {rest : List OperandLayout}
    (hoperands : c.operands = y :: rest) {kind : ElementKind} (hkind : y.kind = kind)
    (hcomputable : kind = .f32 ∨ kind = .f64) :
    ∃ s : Arithmetic kind.size, kind.Computes s ∧ ∀ addresses workspace args m,
    c.run addresses workspace args m = c.runWith s addresses workspace args m := by
  rcases hcomputable with rfl | rfl
  · refine ⟨singleArithmetic, rfl, fun addresses workspace args m => ?_⟩
    simp only [run, hoperands, List.head?_cons, Option.map_some, hkind]
    rfl
  · refine ⟨doubleArithmetic, rfl, fun addresses workspace args m => ?_⟩
    simp only [run, hoperands, List.head?_cons, Option.map_some, hkind]
    rfl

end CompiledOp

/-- What a product with some scalars leaves in an element of `y`, each element found by the layout
that its operand is given with. -/
def Gemm.element {width : Nat} (g : Gemm) (s : Arithmetic width) (alpha beta : Word 4)
    (y a b : Operand) (m : Memory) (batch i j : Nat) : Word width :=
  s.blend (s.ofSingle alpha) (s.ofSingle beta)
    (s.dot (a.layout.columns g.transA)
      (fun p => m.elementAt width a (a.layout.entry g.transA batch i p))
      fun p => m.elementAt width b (b.layout.entry g.transB batch p j))
    (m.elementAt width y [batch, i, j])

theorem OperandLayout.distinct_column (n : Nat) :
    OperandLayout.Distinct ⟨[n, 1, 1], [1, 1, 1], .f32⟩ := by
  intro coordinates coordinates' h h' hsame
  rcases h with _ | ⟨hl, _ | ⟨hi, _ | ⟨hj, _ | _⟩⟩⟩
  rcases h' with _ | ⟨hl', _ | ⟨hi', _ | ⟨hj', _ | _⟩⟩⟩
  simp only [offsetAt, weighted, List.zipWith_cons_cons, List.zipWith_nil_left, List.sum_cons,
    List.sum_nil] at hsame
  simp only [List.cons.injEq, and_true]
  omega

/-- A device with one block. -/
def HostDevice.page (m : Memory) : HostDevice :=
  { emulated := []
    blocks := [⟨0x1000, 0x1000, .device .cpu 0⟩]
    nextAddress := 0x2000
    memory := m }

namespace OpKind

open OperandLayout

/-- A product whose output has the shape that is inferred for it compiles if the elements are
floating-point numbers that the library computes with. Run with any arithmetic, on an output that
puts its elements at different offsets, and with output, inputs and workspace apart, it leaves in
every element of the output the sum of products of its row and column, scaled and added to the
element; and that is what a launch does that goes through, with the arithmetic of the kind. -/
theorem gemm_computes (g : Gemm) {a b y : Tensor} {rest : List Tensor} {la lb ly : OperandLayout}
    (ha : a.LaidOut la) (hb : b.LaidOut lb) (hy : y.LaidOut ly)
    (hshape : (gemm g).inferShapes (a :: b :: rest) = .ok [y.shape])
    (hkinds : a.kind = y.kind ∧ b.kind = y.kind) (hdistinct : ly.Distinct) :
    ∃ layouts, (gemm g).nativeOperands (a :: b :: rest) [y] = .ok layouts ∧
      ((∃ c, CompiledOp.compile (gemm g).nativeOp layouts = .ok c) ↔
        y.kind = .f32 ∨ y.kind = .f64) ∧
      ∀ c, CompiledOp.compile (gemm g).nativeOp layouts = .ok c →
        ∀ (yBase aBase bBase workspace : Address) (alpha beta : Word 4),
          (∀ x ∈ span yBase.val ly.spanBytes, x ∉ span aBase.val la.spanBytes ∪
              span bBase.val lb.spanBytes ∪ span workspace.val c.workspaceSize) →
          (∀ x ∈ span workspace.val c.workspaceSize,
            x ∉ span aBase.val la.spanBytes ∪ span bBase.val lb.spanBytes) →
          (∀ (s : Arithmetic y.kind.size) (m : Memory) (batch i j : Nat),
            Within ly.shape [batch, i, j] →
            (c.runWith s [yBase, aBase, bBase] workspace (.scale alpha beta) m).elementAt
              y.kind.size ⟨yBase, ly⟩ [batch, i, j] =
              g.element s alpha beta ⟨yBase, ly⟩ ⟨aBase, la⟩ ⟨bBase, lb⟩ m batch i j) ∧
          ∀ (l : OpLibrary) (d d' : HostDevice) (desc size : Nat), l.compiled desc = .ok c →
          l.launch d desc workspace size [yBase] [aBase, bBase] (.scale alpha beta) = .ok d' →
            ∃ s : Arithmetic y.kind.size, y.kind.Computes s ∧
            ∀ batch i j, Within ly.shape [batch, i, j] →
              d'.memory.elementAt y.kind.size ⟨yBase, ly⟩ [batch, i, j] =
                g.element s alpha beta ⟨yBase, ly⟩ ⟨aBase, la⟩ ⟨bBase, lb⟩ d.memory batch i j := by
  obtain ⟨_, _, haKind⟩ := Tensor.layout_eq_ok_iff.1 ha.layout
  obtain ⟨_, _, hbKind⟩ := Tensor.layout_eq_ok_iff.1 hb.layout
  obtain ⟨_, _, hyKind⟩ := Tensor.layout_eq_ok_iff.1 hy.layout
  obtain ⟨shape, hgemm, hsame⟩ := except_bind_eq_ok.1 hshape
  cases hsame
  obtain ⟨ly', la', lb', hyBatched, haBatched, hbBatched, hfits⟩ :=
    fits_of_gemmShape ha.layout hb.layout hy.layout ha.accepted.1 hb.accepted.1 hy.accepted.1 hgemm
  have hkinds' : (la.oriented g.transA).kind = ly.kind ∧ (lb.oriented g.transB).kind = ly.kind := by
    rw [kind_oriented, kind_oriented, haKind, hbKind, hyKind]
    exact hkinds
  have hcompile := CompiledOp.compile_gemm hyBatched haBatched hbBatched hfits hkinds'
  rw [hyKind] at hcompile
  refine ⟨_, nativeOperands_gemm ha.layout hb.layout hy.layout g rest, ?_, ?_⟩
  · show (∃ c, CompiledOp.compile .gemm _ = .ok c) ↔ _
    rw [hcompile]
    cases y.kind <;> simp [CompiledOp.isComputable]
  · intro c hc yBase aBase bBase workspace alpha beta hyApart hworkspace
    replace hc : CompiledOp.compile .gemm _ = .ok c := hc
    rw [hcompile] at hc
    split at hc
    · next hcomputable =>
        cases hc
        have hySize : ly.kind.size = y.kind.size := congrArg ElementKind.size hyKind
        have haSize : la.kind.size = y.kind.size :=
          congrArg ElementKind.size (haKind.trans hkinds.1)
        have hbSize : lb.kind.size = y.kind.size :=
          congrArg ElementKind.size (hbKind.trans hkinds.2)
        have hyKind' : ly'.kind = y.kind :=
          (batched_of_toBatched? hyBatched hy.accepted.1).1.trans hyKind
        have hscratch : CompiledOp.workspaceSize ⟨.gemm, [ly', la', lb']⟩ = ly'.shape.getLastD 0 *
            y.kind.size := by
          rw [← hyKind']
          rfl
        rw [hscratch] at hyApart hworkspace
        have helement : ∀ (s : Arithmetic y.kind.size) (m : Memory) (batch i j : Nat),
            Within ly.shape [batch, i, j] →
            (CompiledOp.runWith s ⟨.gemm, [ly', la', lb']⟩ [yBase, aBase, bBase] workspace
                (.scale alpha beta) m).elementAt y.kind.size ⟨yBase, ly⟩ [batch, i, j] =
              g.element s alpha beta ⟨yBase, ly⟩ ⟨aBase, la⟩ ⟨bBase, lb⟩ m batch i j := by
          intro s m batch i j hwithin
          exact CompiledOp.elementAt_gemm ha hb hy haBatched hbBatched hyBatched hfits hdistinct
            haSize hbSize hySize s (s.ofSingle alpha) (s.ofSingle beta)
            (fun x hx hxy => hyApart x hxy (.inl hx)) (fun x hx hxw => hworkspace x hxw hx)
            (fun x hx hxw => hyApart x hx (.inr hxw)) m hwithin
        refine ⟨helement, fun l d d' desc size hcompiled hlaunch => ?_⟩
        have hkind : y.kind = .f32 ∨ y.kind = .f64 := by
          simpa [CompiledOp.isComputable] using hcomputable
        obtain ⟨s, hs, hrun⟩ :=
          CompiledOp.exists_run (c := ⟨.gemm, [ly', la', lb']⟩) rfl hyKind' hkind
        obtain ⟨-, -, -, -, rfl⟩ :=
          (OpLibrary.launch_eq_ok_iff (OpLibrary.compiled_eq_ok_iff.1 hcompiled)).1 hlaunch
        refine ⟨s, hs, fun batch i j hwithin => ?_⟩
        rw [hrun]
        exact helement s d.memory batch i j hwithin
    · cases hc

/-- A row that is kept as a column and is the same for the whole batch, with the columns of a batch
of two. -/
theorem gemm_computes_row_columns :
    ∃ layouts c, (gemm { Gemm.standard with transA := true }).nativeOperands [.ofWords [2, 1]
      [3, 5], .ofWords [2, 2, 1] [4, 2, 1]] [.ofWords [2, 1, 1] [1, 1, 1]] = .ok layouts ∧
      CompiledOp.compile .gemm layouts = .ok c ∧
      ∀ (alpha beta : Word 4) (m : Memory),
        let s := singleArithmetic
        ∃ d', OpLibrary.launch { lastId := 5, ops := [(5, c)] } (.page m) 5 ⟨0x1300⟩ 4 [⟨0x1000⟩]
          [⟨0x1100⟩, ⟨0x1200⟩] (.scale alpha beta) = .ok d' ∧
          d'.memory.load 4 0x1004 =
            s.blend alpha beta (s.add (s.add s.zero (s.mul (m.load 4 0x1100) (m.load 4 0x1210)))
              (s.mul (m.load 4 0x110c) (m.load 4 0x1218))) (m.load 4 0x1004) := by
  have ha : (Tensor.ofWords [2, 1] [3, 5]).LaidOut ⟨[2, 1], [3, 5], .f32⟩ := ⟨rfl, rfl, by decide⟩
  have hb : (Tensor.ofWords [2, 2, 1] [4, 2, 1]).LaidOut ⟨[2, 2, 1], [4, 2, 1], .f32⟩ :=
    ⟨rfl, rfl, by decide⟩
  have hy : (Tensor.ofWords [2, 1, 1] [1, 1, 1]).LaidOut ⟨[2, 1, 1], [1, 1, 1], .f32⟩ :=
    ⟨rfl, rfl, by decide⟩
  have hshape : (gemm { Gemm.standard with transA := true }).inferShapes [.ofWords [2, 1] [3, 5],
        .ofWords [2, 2, 1] [4, 2, 1]] = .ok [(Tensor.ofWords [2, 1, 1] [1, 1, 1]).shape] := rfl
  obtain ⟨layouts, hlayouts, hcompiles, hcomputes⟩ := gemm_computes
    { Gemm.standard with transA := true } ha hb hy hshape ⟨rfl, rfl⟩ (distinct_column 2)
  obtain ⟨c, hc⟩ := hcompiles.2 (.inl rfl)
  refine ⟨layouts, c, hlayouts, hc, fun alpha beta m => ?_⟩
  cases hlayouts
  cases hc
  refine ⟨_, rfl, ?_⟩
  have haSpan : spanBytes ⟨[2, 1], [3, 5], .f32⟩ = 16 := by decide
  have hbSpan : spanBytes ⟨[2, 2, 1], [4, 2, 1], .f32⟩ = 28 := by decide
  have hySpan : spanBytes ⟨[2, 1, 1], [1, 1, 1], .f32⟩ = 8 := by decide
  have hyApart : ∀ x ∈ span 0x1000 (spanBytes ⟨[2, 1, 1], [1, 1, 1], .f32⟩),
      x ∉ span 0x1100 (spanBytes ⟨[2, 1], [3, 5], .f32⟩) ∪
        span 0x1200 (spanBytes ⟨[2, 2, 1], [4, 2, 1], .f32⟩) ∪ span 0x1300 4 := by
    intro x hx hother
    rw [hySpan, mem_span] at hx
    rw [haSpan, hbSpan, Set.mem_union, Set.mem_union, mem_span, mem_span, mem_span] at hother
    omega
  have hworkspace : ∀ x ∈ span 0x1300 4, x ∉ span 0x1100 (spanBytes ⟨[2, 1], [3, 5], .f32⟩) ∪
      span 0x1200 (spanBytes ⟨[2, 2, 1], [4, 2, 1], .f32⟩) := by
    intro x hx hother
    rw [mem_span] at hx
    rw [haSpan, hbSpan, Set.mem_union, mem_span, mem_span] at hother
    omega
  obtain ⟨-, hlaunch⟩ :=
    hcomputes _ rfl ⟨0x1000⟩ ⟨0x1100⟩ ⟨0x1200⟩ ⟨0x1300⟩ alpha beta hyApart hworkspace
  obtain ⟨s, rfl, helement⟩ := hlaunch { lastId := 5, ops := [(5, _)] } (.page m) _ 5 4 rfl rfl
  exact helement 1 0 0 (.cons (by decide) (.cons (by decide) (.cons (by decide) .nil)))

/-- A workspace that lies where an input lies is cleared before the input is read: two times three
is then nothing, where the product of what was there is six. -/
theorem gemm_clears_input :
    let x : Tensor := .ofWords [1, 1] [1, 1]
    let y : Tensor := .ofWords [1, 1, 1] [1, 1, 1]
    let lx : OperandLayout := ⟨[1, 1], [1, 1], .f32⟩
    let ly : OperandLayout := ⟨[1, 1, 1], [1, 1, 1], .f32⟩
    let d : HostDevice :=
      .page ((Memory.empty.write 0x1100 [0, 0, 0, 0x40]).write 0x1200 [0, 0, 0x40, 0x40])
    x.LaidOut lx ∧ y.LaidOut ly ∧ (gemm .standard).inferShapes [x, x] = .ok [y.shape] ∧
      x.kind = y.kind ∧ ly.Distinct ∧
      ∃ layouts c d', (gemm .standard).nativeOperands [x, x] [y] = .ok layouts ∧
      CompiledOp.compile .gemm layouts = .ok c ∧
        (∀ a ∈ span 0x1000 ly.spanBytes, a ∉ span 0x1100 lx.spanBytes ∪ span 0x1200 lx.spanBytes ∪
            span 0x1100 c.workspaceSize) ∧
        OpLibrary.launch { lastId := 4, ops := [(4, c)] } d 4 ⟨0x1100⟩ 4 [⟨0x1000⟩]
        [⟨0x1100⟩, ⟨0x1200⟩] (.scale singleOne 0#_) = .ok d' ∧
        d'.memory.elementAt 4 ⟨⟨0x1000⟩, ly⟩ [0, 0, 0] = 0#_ ∧
        Gemm.standard.element singleArithmetic singleOne 0#_ ⟨⟨0x1000⟩, ly⟩ ⟨⟨0x1100⟩, lx⟩
          ⟨⟨0x1200⟩, lx⟩ d.memory 0 0 0 = 0x40c00000#_ := by
  intro x y lx ly d
  have hyApart : ∀ a ∈ span 0x1000 ly.spanBytes,
      a ∉ span 0x1100 lx.spanBytes ∪ span 0x1200 lx.spanBytes ∪ span 0x1100 4 := by
    have hxSpan : lx.spanBytes = 4 := by decide
    have hySpan : ly.spanBytes = 4 := by decide
    intro a ha hother
    rw [hySpan, mem_span] at ha
    rw [hxSpan, Set.mem_union, Set.mem_union, mem_span, mem_span] at hother
    omega
  exact ⟨⟨rfl, rfl, by decide⟩, ⟨rfl, rfl, by decide⟩, rfl, rfl, distinct_column 1, _, _, _, rfl,
    rfl, hyApart, rfl, by decide +kernel, by decide +kernel⟩

end OpKind

end TensorDataflow
