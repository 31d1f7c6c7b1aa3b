import TensorDataflow.Proofs.Library.Addressing
import TensorDataflow.Proofs.Library.Product
/-!
# What a normalisation computes

A row of a normalisation is measured before any of it is written, and then filled element by
element; what is read lies outside the output, so it is read as it was before the first row. A row
is found by the number of its first element, for the input and the output each in its own layout: as
rows are counted in the order of the leading coordinates, that is the element with these coordinates
and a zero behind them, at any rank. So every element of the output is filled once, with the element
of the input at the same coordinates, scaled by its row and its weight: `Kernel.filled_rmsNorm` and
`Kernel.normalised_rmsNorm`. Nothing is assumed of the arithmetic.
-/

namespace TensorDataflow

/-- The reciprocal of the root of a row's mean square, the squares added up in order from zero. -/
def Arithmetic.inverseRms {width : Nat} (s : Arithmetic width) (epsilon : Word width) (last : Nat)
    (row : Nat → Word width) : Word width :=
  s.div s.one (s.sqrt (s.add (s.div (s.dot last row row) (s.ofCount last)) epsilon))

theorem Arithmetic.inverseRms_congr {width : Nat} (s : Arithmetic width) (epsilon : Word width)
    {last : Nat} {row row' : Nat → Word width} (h : ∀ p < last, row p = row' p) :
    s.inverseRms epsilon last row = s.inverseRms epsilon last row' := by
  rw [inverseRms, inverseRms, s.dot_congr h h]

namespace Operand

/-- Where an element of a row lies, as the kernel finds it. -/
def inRow (o : Operand) (width last row j : Nat) : Nat :=
  o.address width (o.offset (row * last) + signedWord j * o.lastStep)

/-- Where the weight of a column lies, as the kernel finds it. -/
def weightOf (o : Operand) (width j : Nat) : Nat := o.address width (signedWord j * o.lastStep)

theorem inRow_numberOf {o : Operand} (h : o.layout.Addressable) {outer : List Nat} {last : Nat}
    (hshape : o.layout.shape = outer ++ [last]) {r : List Nat} (hr : Within outer r) {j : Nat}
    (hj : j < last)
    (width : Nat) :
    o.inRow width last (numberOf outer r) j = o.address width (o.layout.offsetAt (r ++ [j])) := by
  rw [inRow, offset_row h hshape hr hj]

end Operand

namespace Kernel

open Memory OperandLayout

section Rows

variable {width : Nat} (s : Arithmetic width) {y x w : Operand} (epsilon : Word width) {last : Nat}

/-- What a normalisation leaves in an element of a row. -/
def rmsWord (x w : Operand) (last : Nat) (m : Memory) (row j : Nat) : Word width :=
  s.mul (s.mul (m.load width (x.inRow width last row j)) (s.inverseRms epsilon last fun p =>
        m.load width (x.inRow width last row p))) (m.load width (w.weightOf width j))

theorem rmsRow_eq (row : Nat) (m : Memory) :
    rmsRow s y x w epsilon last row m = m.forEach last fun u j => u.store (y.inRow width last row j)
      (s.mul (s.mul (u.load width (x.inRow width last row j)) (s.inverseRms epsilon last fun p =>
          m.load width (x.inRow width last row p))) (u.load width (w.weightOf width j))) :=
  rfl

theorem filled_rmsRow {row : Nat} (m : Memory) (hx : ∀ j < last, ∀ i < last,
      ∀ a ∈ span (x.inRow width last row j) width, a ∉ span (y.inRow width last row i) width)
    (hw : ∀ j < last, ∀ i < last, ∀ a ∈ span (w.weightOf width j) width,
      a ∉ span (y.inRow width last row i) width)
    (hdistinct : ∀ j < last, ∀ i < j, ∀ a ∈ span (y.inRow width last row i) width,
      a ∉ span (y.inRow width last row j) width) :
    Filled ∅ (y.inRow width last row) (rmsWord s epsilon x w last m row) m (Set.Iio last)
    (rmsRow s y x w epsilon last row m) := by
  rw [rmsRow_eq]
  refine filled_forEach hdistinct fun j hj u hu => ?_
  have hleft := hu.load_eq (fun a _ => Set.notMem_empty a) fun i hi => hx j hj i (hi.trans hj)
  have hright := hu.load_eq (fun a _ => Set.notMem_empty a) fun i hi => hw j hj i (hi.trans hj)
  rw [rmsWord, ← hleft, ← hright]

/-- The elements of the rows before one. -/
def rowsBefore (last row : Nat) : Set (Nat × Nat) := {t | t.1 < row ∧ t.2 < last}

@[simp] theorem mem_rowsBefore {row r j : Nat} :
    (r, j) ∈ rowsBefore last row ↔ r < row ∧ j < last :=
  Iff.rfl

theorem rowsBefore_zero (last : Nat) : rowsBefore last 0 = ∅ := by
  ext ⟨r, j⟩
  simp

theorem rowsBefore_succ (last row : Nat) :
    rowsBefore last (row + 1) = rowsBefore last row ∪ (fun j => (row, j)) '' Set.Iio last := by
  ext ⟨r, j⟩
  have hnew : (r, j) ∈ (fun j => (row, j)) '' Set.Iio last ↔ r = row ∧ j < last := by
    simp [eq_comm, and_comm]
  rw [Set.mem_union, hnew, mem_rowsBefore, mem_rowsBefore]
  omega

variable {rows : Nat} {inputs : Set Nat} (m : Memory)
  (hx : ∀ row < rows, ∀ j < last, span (x.inRow width last row j) width ⊆ inputs)
  (hw : ∀ row < rows, ∀ j < last, span (w.weightOf width j) width ⊆ inputs)
  (houtput : ∀ t ∈ rowsBefore last rows, ∀ a ∈ span (y.inRow width last t.1 t.2) width, a ∉ inputs)
  (hdistinct : ∀ t ∈ rowsBefore last rows, ∀ t' ∈ rowsBefore last rows, t ≠ t' →
    ∀ a ∈ span (y.inRow width last t.1 t.2) width, a ∉ span (y.inRow width last t'.1 t'.2) width)

include hx hw houtput hdistinct

/-- One more row. -/
theorem filled_nextRow {row : Nat} (hrow : row < rows) {u : Memory}
    (hu : Filled ∅ (fun t : Nat × Nat => y.inRow width last t.1 t.2)
      (fun t => rmsWord s epsilon x w last m t.1 t.2) m (rowsBefore last row) u) :
    Filled ∅ (fun t : Nat × Nat => y.inRow width last t.1 t.2)
      (fun t => rmsWord s epsilon x w last m t.1 t.2) m (rowsBefore last (row + 1))
      (rmsRow s y x w epsilon last row u) := by
  have hbefore : ∀ t ∈ rowsBefore last row, t ∈ rowsBefore last rows :=
    fun t ht => ⟨ht.1.trans hrow, ht.2⟩
  have hnow : ∀ j < last, (row, j) ∈ rowsBefore last rows := fun j hj => ⟨hrow, hj⟩
  have hother : ∀ t ∈ rowsBefore last row, ∀ j < last, t ≠ (row, j) := by
    rintro t ht j - rfl
    exact Nat.lt_irrefl _ ht.1
  -- inputs are untouched by the rows before
  have hinput : ∀ {address : Nat}, span address width ⊆ inputs →
      u.load width address = m.load width address :=
    fun hsub => hu.load_eq (fun a _ => Set.notMem_empty a) fun t ht a ha hat =>
      houtput t (hbefore t ht) a hat (hsub ha)
  have hfilled := filled_rmsRow s epsilon (y := y) u
    (fun j hj i hi a ha hai => houtput (row, i) (hnow i hi) a hai (hx row hrow j hj ha))
    (fun j hj i hi a ha hai => houtput (row, i) (hnow i hi) a hai (hw row hrow j hj ha))
    fun j hj i hi => hdistinct (row, i) (hnow i (hi.trans hj)) (row, j) (hnow j hj) fun hsame =>
      Nat.ne_of_lt hi (congrArg Prod.snd hsame)
  have hwords : ∀ j < last,
      rmsWord s epsilon x w last u row j = rmsWord s epsilon x w last m row j := by
    intro j hj
    rw [rmsWord, rmsWord, hinput (hx row hrow j hj), hinput (hw row hrow j hj),
      s.inverseRms_congr epsilon fun p hp => hinput (hx row hrow p hp)]
  have hnext : Filled ∅ (fun j => y.inRow width last row j)
      (fun j => rmsWord s epsilon x w last m row j) u (Set.Iio last)
      (rmsRow s y x w epsilon last row u) :=
    hfilled.congr hwords
  rw [rowsBefore_succ]
  exact hu.extend hnext (fun t _ a _ => Set.notMem_empty a) fun t ht j hj =>
    hdistinct t (hbefore t ht) (row, j) (hnow j hj) (hother t ht j hj)

/-- A normalisation fills the rows of its output. -/
theorem filled_rmsNorm (hlast : x.layout.shape.getLast? = some last)
    (hrows : x.layout.count / last = rows) :
    Filled ∅ (fun t : Nat × Nat => y.inRow width last t.1 t.2)
      (fun t => rmsWord s epsilon x w last m t.1 t.2) m (rowsBefore last rows)
      (rmsNorm s y x w epsilon m) := by
  have hloop : rmsNorm s y x w epsilon m = m.forEach rows fun m row =>
      rmsRow s y x w epsilon last row m := by
    rw [rmsNorm, hlast]
    cases last with
    | zero =>
        rw [← hrows, Nat.div_zero]
        rfl
    | succ last =>
        rw [← hrows]
        rfl
  rw [hloop]
  apply forEach_invariant (P := fun row =>
    Filled ∅ (fun t : Nat × Nat => y.inRow width last t.1 t.2)
    (fun t => rmsWord s epsilon x w last m t.1 t.2) m (rowsBefore last row))
  · rw [rowsBefore_zero]
    exact filled_empty
  · exact fun row hrow u hu => filled_nextRow s epsilon m hx hw houtput hdistinct hrow hu

end Rows

section Coordinates

variable {width : Nat} (s : Arithmetic width) {y x w : Operand} (epsilon : Word width)
  {outer : List Nat} {last : Nat}

/-- Every element of `y` has become the element of `x` at the same coordinates, scaled by its row
and its weight, and no other byte has changed. -/
structure Normalised (y x w : Operand) (outer : List Nat) (last : Nat) (m m' : Memory) : Prop where
  elements : ∀ r j, Within outer r → j < last →
    m'.elementAt width y (r ++ [j]) = s.mul (s.mul (m.elementAt width x (r ++ [j]))
      (s.inverseRms epsilon last fun p => m.elementAt width x (r ++ [p]))) (m.elementAt width w [j])
  kept : ∀ a, a ∉ y.elements width → m'.byte a = m.byte a

/-- An output that keeps its elements apart, and apart from both inputs, is normalised row by row;
an output without elements may have any extents. -/
theorem normalised_rmsNorm (m : Memory)
    (haddressable : ∀ {coordinates}, Within y.layout.shape coordinates →
      y.layout.Addressable ∧ x.layout.Addressable ∧ w.layout.Addressable)
    (hsteps : ∀ step ∈ y.layout.strides, 0 ≤ step) (hyShape : y.layout.shape = outer ++ [last])
    (hxShape : x.layout.shape = outer ++ [last]) (hwShape : w.layout.shape = [last])
    (hdistinct : y.layout.Distinct)
    (hapart : ∀ a ∈ y.elements width, a ∉ x.elements width ∪ w.elements width) :
    Normalised s epsilon y x w outer last m (rmsNorm s y x w epsilon m) := by
  have hcount : 0 < last → x.layout.count / last = elementTotal outer := by
    intro hpos
    rw [OperandLayout.count, hxShape, elementTotal_concat, Nat.mul_div_cancel_left _ hpos]
  have hrow : ∀ row < x.layout.count / last, ∀ j < last, ∃ r, Within outer r ∧
      numberOf outer r = row := by
    intro row hrow j hj
    rw [hcount (Nat.zero_lt_of_lt hj)] at hrow
    exact exists_numberOf hrow
  have hwithin : ∀ {r j}, Within outer r → j < last → Within (outer ++ [last]) (r ++ [j]) :=
    fun hr hj => List.rel_append hr (.cons hj .nil)
  have hlayouts := fun {r : List Nat} {j : Nat} (hr : Within outer r) (hj : j < last) =>
    haddressable (hyShape ▸ hwithin hr hj)
  have hyRow := fun {r : List Nat} {j : Nat} (hr : Within outer r) (hj : j < last) =>
    Operand.inRow_numberOf (hlayouts hr hj).1 hyShape hr hj width
  have hxRow := fun {r : List Nat} {j : Nat} (hr : Within outer r) (hj : j < last) =>
    Operand.inRow_numberOf (hlayouts hr hj).2.1 hxShape hr hj width
  have hweight : ∀ {r j}, Within outer r → j < last →
      w.weightOf width j = w.address width (w.layout.offsetAt [j]) := by
    intro r j hr hj
    rw [Operand.weightOf, Operand.offset_weight (hlayouts hr hj).2.2 hwShape hj]
  -- every place that the loops touch is that of an element
  have hyIn : ∀ t ∈ rowsBefore last (x.layout.count / last),
      span (y.inRow width last t.1 t.2) width ⊆ y.elements width := by
    rintro ⟨row, j⟩ ⟨ht, hj⟩
    obtain ⟨r, hr, rfl⟩ := hrow row ht j hj
    rw [hyRow hr hj]
    exact fun a ha => ⟨r ++ [j], hyShape ▸ hwithin hr hj, ha⟩
  have hxIn : ∀ row < x.layout.count / last, ∀ j < last,
      span (x.inRow width last row j) width ⊆ x.elements width ∪ w.elements width := by
    intro row ht j hj
    obtain ⟨r, hr, rfl⟩ := hrow row ht j hj
    rw [hxRow hr hj]
    exact fun a ha => .inl ⟨r ++ [j], hxShape ▸ hwithin hr hj, ha⟩
  have hwIn : ∀ row < x.layout.count / last, ∀ j < last,
      span (w.weightOf width j) width ⊆ x.elements width ∪ w.elements width := by
    intro row ht j hj
    obtain ⟨r, hr, rfl⟩ := hrow row ht j hj
    rw [hweight hr hj]
    exact fun a ha => .inr ⟨[j], hwShape ▸ .cons hj .nil, ha⟩
  have hplaces : ∀ t ∈ rowsBefore last (x.layout.count / last),
      ∀ t' ∈ rowsBefore last (x.layout.count / last), t ≠ t' →
      ∀ a ∈ span (y.inRow width last t.1 t.2) width,
      a ∉ span (y.inRow width last t'.1 t'.2) width := by
    rintro ⟨row, j⟩ ⟨ht, hj⟩ ⟨row', j'⟩ ⟨ht', hj'⟩ hne
    obtain ⟨r, hr, rfl⟩ := hrow row ht j hj
    obtain ⟨r', hr', rfl⟩ := hrow row' ht' j' hj'
    dsimp only at hj hj' ⊢
    have hcell : Within y.layout.shape (r ++ [j]) := hyShape ▸ hwithin hr hj
    have hcell' : Within y.layout.shape (r' ++ [j']) := hyShape ▸ hwithin hr' hj'
    rw [hyRow hr hj, hyRow hr' hj']
    apply y.address_apart width (sum_weighted_bounds hcell hsteps).1
      (sum_weighted_bounds hcell' hsteps).1
    intro hsame
    obtain ⟨rfl, hlast⟩ := List.append_inj' (hdistinct _ _ hcell hcell' hsame) rfl
    cases hlast
    exact hne rfl
  have hfilled := filled_rmsNorm s epsilon m hxIn hwIn (fun t ht a ha => hapart a (hyIn t ht ha))
    hplaces (by rw [hxShape, List.getLast?_concat]) rfl
  constructor
  · intro r j hr hj
    have hstored := hfilled.stored (numberOf outer r, j)
      ⟨by rw [hcount (Nat.zero_lt_of_lt hj)]; exact numberOf_lt hr, hj⟩
    rw [hyRow hr hj, rmsWord, hxRow hr hj, hweight hr hj,
      s.inverseRms_congr epsilon fun p hp => congrArg (m.load width) (hxRow hr hp)] at hstored
    exact hstored
  · intro a ha
    exact hfilled.kept a (Set.notMem_empty a) fun t ht hat => ha (hyIn t ht hat)

end Coordinates

end Kernel

end TensorDataflow
