import TensorDataflow.Proofs.Library.Filling
/-!
# What a product computes

A row of a product is computed in scratch space: the accumulators are cleared, take up the products
of one element of the left matrix with a row of the right one, round by round, and are then scaled
into the row of the output. So each accumulator ends up as the sum of products that belongs to its
column, added up in order from zero, and the rows of all matrices of the batch fill the output one
after the other: `Kernel.filled_gemm`. Nothing is assumed of the arithmetic.
-/

namespace TensorDataflow

namespace Arithmetic

variable {width : Nat} (s : Arithmetic width)

/-- The sum of the products of two rows of words, from zero on and in order. -/
def dot (k : Nat) (left right : Nat → Word width) : Word width :=
  (List.range k).foldl (fun sum p => s.add sum (s.mul (left p) (right p))) s.zero

/-- A word scaled, and added to the scaled old word unless that one counts for nothing. -/
def blend (alpha beta product old : Word width) : Word width :=
  if s.isZero beta then s.mul alpha product else s.add (s.mul alpha product) (s.mul beta old)

theorem dot_succ (k : Nat) (left right : Nat → Word width) :
    s.dot (k + 1) left right = s.add (s.dot k left right) (s.mul (left k) (right k)) := by
  rw [dot, List.range_succ, List.foldl_append]
  rfl

theorem dot_congr {k : Nat} {left left' right right' : Nat → Word width}
    (hleft : ∀ p < k, left p = left' p) (hright : ∀ p < k, right p = right' p) :
    s.dot k left right = s.dot k left' right' := by
  induction k with
  | zero => rfl
  | succ k ih =>
      have hearlier :=
        ih (fun p hp => hleft p (Nat.lt_succ_of_lt hp)) fun p hp => hright p (Nat.lt_succ_of_lt hp)
      rw [dot_succ, dot_succ, hearlier, hleft k (Nat.lt_succ_self k), hright k (Nat.lt_succ_self k)]

end Arithmetic

/-- Where the element of a batch of matrices lies. -/
def Operand.entry (o : Operand) (width batch i j : Nat) : Nat :=
  o.address width (o.coordinateOffset [batch, i, j])

namespace Kernel

open Memory

theorem slot_apart (accumulators : Nat) {width i j : Nat} (hij : i < j) :
    ∀ x ∈ span (accumulators + i * width) width, x ∉ span (accumulators + j * width) width := by
  intro x hx hxj
  have hle : (i + 1) * width ≤ j * width := Nat.mul_le_mul_right width hij
  rw [Nat.succ_mul] at hle
  rw [mem_span] at hx hxj
  omega

theorem slot_apart_of_ne (accumulators : Nat) {width i j : Nat} (hne : i ≠ j) :
    ∀ x ∈ span (accumulators + i * width) width, x ∉ span (accumulators + j * width) width := by
  rcases Nat.lt_or_gt_of_ne hne with hlt | hlt
  · exact slot_apart accumulators hlt
  · exact fun x hx hxj => slot_apart accumulators hlt x hxj hx

section Row

variable {width : Nat} (s : Arithmetic width) {y a b : Operand}
  {accumulators n k batch i : Nat} (m : Memory)
  (hleft : ∀ p < k, ∀ x ∈ span (a.entry width batch i p) width, x ∉ span accumulators (n * width))
  (hright : ∀ p < k, ∀ j < n, ∀ x ∈ span (b.entry width batch p j) width,
    x ∉ span accumulators (n * width))

include hleft hright

/-- Each accumulator comes to hold the sum of products of its column. -/
theorem filled_sums : Filled ∅ (fun j => accumulators + j * width)
    (fun j => s.dot k (fun p => m.load width (a.entry width batch i p))
      fun p => m.load width (b.entry width batch p j)) m (Set.Iio n)
    ((m.forEach n fun m j => m.store (accumulators + j * width) s.zero).forEach k fun m p =>
      m.forEach n fun m' j => m'.store (accumulators + j * width)
        (s.add (m'.load width (accumulators + j * width))
          (s.mul (m.load width (a.entry width batch i p))
            (m'.load width (b.entry width batch p j))))) := by
  apply forEach_invariant (P := fun p u =>
    Filled ∅ (fun j => accumulators + j * width)
      (fun j => s.dot p (fun p => m.load width (a.entry width batch i p))
        fun p => m.load width (b.entry width batch p j)) m (Set.Iio n) u)
  · exact filled_forEach (fun j _ i hij => slot_apart accumulators hij) fun _ _ _ _ => rfl
  · intro p hp u hu
    have hfree : ∀ {address : Nat}, (∀ x ∈ span address width, x ∉ span accumulators (n * width)) →
        ∀ j < n, ∀ x ∈ span address width, x ∉ span (accumulators + j * width) width :=
      fun hapart j hj x hx hslot => hapart x hx (span_slot_subset accumulators hj hslot)
    have hleftWord := hu.load_eq (fun x _ => Set.notMem_empty x) (hfree (hleft p hp))
    apply hu.overwrite
    apply filled_forEach (fun j _ i hij => slot_apart accumulators hij)
    intro j hj v hv
    have hrightWord := (hv.load_eq (fun x _ => Set.notMem_empty x) fun i hi =>
        hfree (hright p hp j hj) i (hi.trans hj)).trans
      (hu.load_eq (fun x _ => Set.notMem_empty x) (hfree (hright p hp j hj)))
    have hsum := (hv.load_eq (fun x _ => Set.notMem_empty x) fun i hi =>
        slot_apart_of_ne accumulators (Nat.ne_of_gt hi)).trans (hu.stored j hj)
    rw [s.dot_succ, hleftWord, hrightWord, hsum]

/-- A row of the output is filled with the sums of products of its columns, scaled and added to what
it held. -/
theorem filled_gemmRow (alpha beta : Word width) (htarget : ∀ j < n,
      ∀ x ∈ span (y.entry width batch i j) width, x ∉ span accumulators (n * width))
    (hdistinct : ∀ j < n, ∀ j' < j, ∀ x ∈ span (y.entry width batch i j') width,
      x ∉ span (y.entry width batch i j) width) :
    Filled (span accumulators (n * width)) (y.entry width batch i)
      (fun j => s.blend alpha beta (s.dot k (fun p => m.load width (a.entry width batch i p))
          fun p => m.load width (b.entry width batch p j))
        (m.load width (y.entry width batch i j))) m (Set.Iio n)
      (gemmRow s y a b alpha beta accumulators n k batch i m) := by
  have hsums := filled_sums s m hleft hright
  refine (filled_forEach hdistinct fun j hj v hv => ?_).after fun x hx =>
    hsums.kept x (Set.notMem_empty x) fun j hj hslot => hx (span_slot_subset accumulators hj hslot)
  have hsum := (hv.load_eq (fun x _ => Set.notMem_empty x) fun j' hj' x hx hxj =>
    htarget j' (hj'.trans hj) x hxj (span_slot_subset accumulators hj hx)).trans (hsums.stored j hj)
  have hold := (hv.load_eq (fun x _ => Set.notMem_empty x) fun j' hj' x hx hxj =>
      hdistinct j hj j' hj' x hxj hx).trans
    (hsums.load_eq (fun x _ => Set.notMem_empty x) fun j' hj' x hx hslot =>
      htarget j hj x hx (span_slot_subset accumulators hj' hslot))
  dsimp only
  rw [Arithmetic.blend, ← hsum, ← hold]
  rfl

end Row

section Batch

/-- The elements of a batch of matrices. -/
def cells (batches rows n : Nat) : Set (Nat × Nat × Nat) :=
  {t | t.1 < batches ∧ t.2.1 < rows ∧ t.2.2 < n}

/-- The elements before a row. -/
def cellsBefore (rows n batch i : Nat) : Set (Nat × Nat × Nat) :=
  {t | (t.1 < batch ∨ t.1 = batch ∧ t.2.1 < i) ∧ t.2.1 < rows ∧ t.2.2 < n}

@[simp] theorem mem_cells {batches rows n l i j : Nat} :
    (l, i, j) ∈ cells batches rows n ↔ l < batches ∧ i < rows ∧ j < n :=
  Iff.rfl

@[simp] theorem mem_cellsBefore {rows n batch row l i j : Nat} :
    (l, i, j) ∈ cellsBefore rows n batch row ↔
    (l < batch ∨ l = batch ∧ i < row) ∧ i < rows ∧ j < n :=
  Iff.rfl

theorem cellsBefore_zero (rows n : Nat) : cellsBefore rows n 0 0 = ∅ := by
  ext ⟨l, i, j⟩
  simp

theorem cellsBefore_succ_row {rows n batch i : Nat} (hi : i < rows) :
    cellsBefore rows n batch (i + 1) = cellsBefore rows n batch i ∪
      (fun j => (batch, i, j)) '' Set.Iio n := by
  ext ⟨l, i', j⟩
  have hnew : (l, i', j) ∈ (fun j => (batch, i, j)) '' Set.Iio n ↔ l = batch ∧ i' = i ∧ j < n := by
    simp [eq_comm, and_comm, and_assoc]
  rw [Set.mem_union, hnew, mem_cellsBefore, mem_cellsBefore]
  omega

theorem cellsBefore_succ_batch (rows n batch : Nat) :
    cellsBefore rows n (batch + 1) 0 = cellsBefore rows n batch rows := by
  ext ⟨l, i, j⟩
  rw [mem_cellsBefore, mem_cellsBefore]
  omega

theorem cellsBefore_all (batches rows n : Nat) :
    cellsBefore rows n batches 0 = cells batches rows n := by
  ext ⟨l, i, j⟩
  rw [mem_cellsBefore, mem_cells]
  omega

variable {width : Nat} (s : Arithmetic width) {y a b : Operand} (alpha beta : Word width)
  {accumulators batches rows n k : Nat} {output inputs : Set Nat} (m : Memory)

/-- What a product leaves in an element of its output. -/
def gemmWord (y a b : Operand) (k : Nat) (t : Nat × Nat × Nat) : Word width :=
  s.blend alpha beta (s.dot k (fun p => m.load width (a.entry width t.1 t.2.1 p)) fun p =>
      m.load width (b.entry width t.1 p t.2.2)) (m.load width (y.entry width t.1 t.2.1 t.2.2))

variable (houtput : ∀ x ∈ inputs, x ∉ output)
  (hscratch : ∀ x ∈ inputs, x ∉ span accumulators (n * width))
  (hapart : ∀ x ∈ output, x ∉ span accumulators (n * width))
  (hy : ∀ t ∈ cells batches rows n, span (y.entry width t.1 t.2.1 t.2.2) width ⊆ output)
  (ha : ∀ l < batches, ∀ i < rows, ∀ p < k, span (a.entry width l i p) width ⊆ inputs)
  (hb : ∀ l < batches, ∀ p < k, ∀ j < n, span (b.entry width l p j) width ⊆ inputs)
  (hdistinct : ∀ t ∈ cells batches rows n, ∀ t' ∈ cells batches rows n, t ≠ t' →
    ∀ x ∈ span (y.entry width t.1 t.2.1 t.2.2) width,
    x ∉ span (y.entry width t'.1 t'.2.1 t'.2.2) width)

include houtput hscratch hapart hy ha hb hdistinct

/-- One more row. -/
theorem filled_row {batch i : Nat} (hbatch : batch < batches) (hi : i < rows) {u : Memory}
    (hu : Filled (span accumulators (n * width))
      (fun t : Nat × Nat × Nat => y.entry width t.1 t.2.1 t.2.2)
      (gemmWord s alpha beta m y a b k) m (cellsBefore rows n batch i) u) :
    Filled (span accumulators (n * width))
      (fun t : Nat × Nat × Nat => y.entry width t.1 t.2.1 t.2.2)
      (gemmWord s alpha beta m y a b k) m (cellsBefore rows n batch (i + 1))
      (gemmRow s y a b alpha beta accumulators n k batch i u) := by
  have hbefore : ∀ t ∈ cellsBefore rows n batch i, t ∈ cells batches rows n :=
    fun t ht => ⟨ht.1.elim (fun hlt => hlt.trans hbatch) fun heq => heq.1 ▸ hbatch, ht.2⟩
  have hnow : ∀ j < n, (batch, i, j) ∈ cells batches rows n := fun j hj => ⟨hbatch, hi, hj⟩
  have hother : ∀ t ∈ cellsBefore rows n batch i, ∀ j < n, t ≠ (batch, i, j) := by
    rintro t ht j - rfl
    obtain ⟨hbefore | hbefore, -⟩ := ht
    · exact Nat.lt_irrefl _ hbefore
    · exact Nat.lt_irrefl _ hbefore.2
  -- inputs are untouched by the rows before, and so is the row to come
  have hinput : ∀ {address : Nat}, span address width ⊆ inputs →
      u.load width address = m.load width address :=
    fun hsub => hu.load_eq (fun x hx => hscratch x (hsub hx)) fun t ht x hx hxt =>
      houtput x (hsub hx) (hy t (hbefore t ht) hxt)
  have hcoming : ∀ j < n,
      u.load width (y.entry width batch i j) = m.load width (y.entry width batch i j) :=
    fun j hj => hu.load_eq (fun x hx => hapart x (hy _ (hnow j hj) hx)) fun t ht =>
      hdistinct (batch, i, j) (hnow j hj) t (hbefore t ht) (hother t ht j hj).symm
  have hrow := filled_gemmRow s (y := y) u
    (fun p hp x hx => hscratch x (ha batch hbatch i hi p hp hx))
    (fun p hp j hj x hx => hscratch x (hb batch hbatch p hp j hj hx)) alpha beta
    (fun j hj x hx => hapart x (hy _ (hnow j hj) hx)) fun j hj j' hj' =>
      hdistinct (batch, i, j') (hnow j' (hj'.trans hj)) (batch, i, j) (hnow j hj) fun hsame =>
        Nat.ne_of_lt hj' (congrArg (fun t => t.2.2) hsame)
  rw [cellsBefore_succ_row hi]
  refine hu.extend (hrow.congr fun j hj => ?_) (fun t ht x hx => hapart x (hy t (hbefore t ht) hx))
    fun t ht j hj => hdistinct t (hbefore t ht) (batch, i, j) (hnow j hj) (hother t ht j hj)
  rw [gemmWord, hcoming j hj, s.dot_congr (fun p hp => hinput (ha batch hbatch i hi p hp))
    fun p hp => hinput (hb batch hbatch p hp j hj)]

/-- A product fills its output with the sums of products of its rows and columns, scaled and added
to what the output held. -/
theorem filled_gemm {aBatches aRows : Nat} (hyShape : y.layout.shape = [batches, rows, n])
    (haShape : a.layout.shape = [aBatches, aRows, k]) :
    Filled (span accumulators (n * width)) (fun t : Nat × Nat × Nat =>
      y.entry width t.1 t.2.1 t.2.2) (gemmWord s alpha beta m y a b k) m (cells batches rows n)
      (gemm s y a b alpha beta accumulators m) := by
  rw [gemm_eq_forEach s alpha beta accumulators hyShape haShape, ← cellsBefore_all]
  apply forEach_invariant (P := fun l =>
    Filled (span accumulators (n * width)) (fun t : Nat × Nat × Nat =>
      y.entry width t.1 t.2.1 t.2.2) (gemmWord s alpha beta m y a b k) m (cellsBefore rows n l 0))
  · rw [cellsBefore_zero]
    exact filled_empty
  · intro l hl u hu
    rw [cellsBefore_succ_batch]
    apply forEach_invariant (P := fun i => Filled (span accumulators (n * width))
      (fun t : Nat × Nat × Nat => y.entry width t.1 t.2.1 t.2.2) (gemmWord s alpha beta m y a b k) m
      (cellsBefore rows n l i)) hu
    exact fun i hi v hv =>
      filled_row s alpha beta m houtput hscratch hapart hy ha hb hdistinct hl hi hv

end Batch

end Kernel

end TensorDataflow
