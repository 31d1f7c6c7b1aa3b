import TensorDataflow.Proofs.Layout.Offsets
/-!
# Coordinates

The kernels count the elements of a layout in row-major order and take each number apart, axis by
axis from the last. Every number below the count stands for one list of coordinates, one below each
extent, and the offset that the kernels find is the sum of coordinate times step. A layout that is
read through a larger shape is read at the coordinates of its own axes, and at zero along an axis of
extent one: `OperandLayout.offsetAt_expanded`.
-/

namespace TensorDataflow

/-- Coordinates of an element of a shape, one below each extent. -/
def Within (shape coordinates : List Nat) : Prop := List.Forall₂ (· < ·) coordinates shape

theorem Within.pos {shape coordinates : List Nat} (h : Within shape coordinates) :
    ∀ extent ∈ shape, 0 < extent := by
  induction h with
  | nil => exact fun _ hextent => absurd hextent List.not_mem_nil
  | cons hc _ ih => exact List.forall_mem_cons.2 ⟨Nat.zero_lt_of_lt hc, ih⟩

/-- Coordinates weighted by steps, axis for axis. -/
def weighted (coordinates : List Nat) (strides : List Int) : List Int :=
  List.zipWith (fun (c : Nat) (step : Int) => c * step) coordinates strides

theorem weighted_cons (c : Nat) (coordinates : List Nat) (step : Int) (strides : List Int) :
    weighted (c :: coordinates) (step :: strides) = c * step :: weighted coordinates strides :=
  rfl

theorem weighted_append {coordinates : List Nat} {strides : List Int}
    (h : coordinates.length = strides.length) (coordinates' : List Nat) (strides' : List Int) :
    weighted (coordinates ++ coordinates') (strides ++ strides') = weighted coordinates strides ++
      weighted coordinates' strides' :=
  List.zipWith_append h

theorem sum_weighted_reverse {coordinates : List Nat} {strides : List Int}
    (h : coordinates.length = strides.length) :
    (weighted coordinates.reverse strides.reverse).sum = (weighted coordinates strides).sum := by
  rw [weighted, ← List.reverse_zipWith h, List.sum_reverse, weighted]

theorem sum_weighted_replicate_zero (coordinates : List Nat) (count : Nat) :
    (weighted coordinates (List.replicate count 0)).sum = 0 := by
  induction coordinates generalizing count with
  | nil => rfl
  | cons c coordinates ih =>
      cases count with
      | zero => rfl
      | succ count =>
          rw [List.replicate_succ, weighted_cons, List.sum_cons, ih, Int.mul_zero, Int.add_zero]

/-! ### Numbers and coordinates -/

/-- The number of an element, with extents and coordinates taken from the last axis on. -/
def numberFrom : List Nat → List Nat → Nat
  | extent :: shape, c :: coordinates => c + extent * numberFrom shape coordinates
  | _, _ => 0

theorem numberFrom_lt {shape coordinates : List Nat} (h : Within shape coordinates) :
    numberFrom shape coordinates < shape.prod := by
  induction h with
  | nil => exact Nat.one_pos
  | @cons c extent coordinates shape hc _ ih =>
      have hrow : extent * (numberFrom shape coordinates + 1) ≤ extent * shape.prod :=
        Nat.mul_le_mul_left extent ih
      rw [Nat.mul_succ] at hrow
      rw [numberFrom, List.prod_cons]
      omega

theorem exists_numberFrom {shape : List Nat} {index : Nat} (h : index < shape.prod) :
    ∃ coordinates, Within shape coordinates ∧ numberFrom shape coordinates = index := by
  induction shape generalizing index with
  | nil => exact ⟨[], .nil, (Nat.lt_one_iff.1 h).symm⟩
  | cons extent shape ih =>
      rw [List.prod_cons] at h
      have hextent : 0 < extent := Nat.pos_of_ne_zero fun hzero => by simp [hzero] at h
      obtain ⟨coordinates, hwithin, hnumber⟩ := ih (Nat.div_lt_of_lt_mul h)
      refine ⟨index % extent :: coordinates, .cons (Nat.mod_lt index hextent) hwithin, ?_⟩
      rw [numberFrom, hnumber, Nat.mod_add_div]

/-- Along the axis a signed word can hold every coordinate that has a step to scale. -/
def Scalable (axis : Nat × Int) : Prop := axis.1 < 0x8000000000000000 ∨ axis.2 = 0

theorem signedWord_mul {extent c : Nat} {step : Int} (hc : c < extent)
    (h : Scalable (extent, step)) : signedWord c * step = c * step := by
  rcases h with hlt | hzero
  · rw [signedWord_of_lt (Nat.lt_trans hc hlt)]
  · have hstep : step = 0 := hzero
    rw [hstep, Int.mul_zero, Int.mul_zero]

/-- Taking the number of an element apart gives its coordinates back, each with the step along its
axis. -/
theorem offsetFrom_numberFrom {shape coordinates : List Nat} (h : Within shape coordinates)
    {strides : List Int} (hscalable : ∀ axis ∈ shape.zip strides, Scalable axis)
    (hrank : shape.length = strides.length) (offset : Int) :
    offsetFrom (numberFrom shape coordinates) offset (shape.zip strides) = offset +
      (weighted coordinates strides).sum := by
  induction h generalizing strides offset with
  | nil =>
      obtain rfl := List.length_eq_zero_iff.1 hrank.symm
      exact (Int.add_zero offset).symm
  | @cons c extent coordinates shape hc _ ih =>
      cases strides with
      | nil => cases hrank
      | cons step strides =>
          rw [List.length_cons, List.length_cons, Nat.add_right_cancel_iff] at hrank
          rw [List.zip_cons_cons, List.forall_mem_cons] at hscalable
          rw [numberFrom, List.zip_cons_cons, OperandLayout.offsetFrom_split hc,
            ih hscalable.2 hrank, signedWord_mul hc hscalable.1, weighted_cons, List.sum_cons,
            Int.add_assoc]

/-- The row-major number of the element at some coordinates. -/
def numberOf (shape coordinates : List Nat) : Nat := numberFrom shape.reverse coordinates.reverse

theorem elementTotal_eq_prod_reverse (shape : List Nat) :
    elementTotal shape = shape.reverse.prod := by
  rw [List.prod_reverse]
  rfl

theorem numberOf_lt {shape coordinates : List Nat} (h : Within shape coordinates) :
    numberOf shape coordinates < elementTotal shape := by
  rw [elementTotal_eq_prod_reverse]
  exact numberFrom_lt (List.rel_reverse h)

theorem exists_numberOf {shape : List Nat} {index : Nat} (h : index < elementTotal shape) :
    ∃ coordinates, Within shape coordinates ∧ numberOf shape coordinates = index := by
  rw [elementTotal_eq_prod_reverse] at h
  obtain ⟨coordinates, hwithin, hnumber⟩ := exists_numberFrom h
  refine ⟨coordinates.reverse, ?_, ?_⟩
  · rw [Within, ← List.forall₂_reverse_iff, List.reverse_reverse]
    exact hwithin
  · rw [numberOf, List.reverse_reverse, hnumber]

theorem numberOf_concat (shape coordinates : List Nat) (extent c : Nat) :
    numberOf (shape ++ [extent]) (coordinates ++ [c]) = c +
      extent * numberOf shape coordinates := by
  simp [numberOf, numberFrom]

theorem elementTotal_concat (shape : List Nat) (extent : Nat) :
    elementTotal (shape ++ [extent]) = extent * elementTotal shape := by
  simp [elementTotal_eq_prod_reverse]

namespace OperandLayout

/-- The offset of the element at some coordinates. -/
def offsetAt (l : OperandLayout) (coordinates : List Nat) : Int :=
  (weighted coordinates l.strides).sum

/-- A layout with one step per axis, in which every coordinate can be scaled by its step. -/
structure Addressable (l : OperandLayout) : Prop where
  rank : l.shape.length = l.strides.length
  scalable : ∀ axis ∈ l.shape.zip l.strides, Scalable axis

theorem Spread.addressable {l : OperandLayout} (h : l.Spread) : l.Addressable :=
  ⟨h.rank, fun axis haxis => .inl (h.sized.axes axis haxis).2⟩

/-- The kernels find every element where its coordinates put it. -/
theorem Addressable.linearOffset_numberOf {l : OperandLayout} (h : l.Addressable)
    {coordinates : List Nat} (hwithin : Within l.shape coordinates) :
    linearOffset (numberOf l.shape coordinates) l.shape l.strides = l.offsetAt coordinates := by
  have hrank : l.shape.reverse.length = l.strides.reverse.length := by
    rw [List.length_reverse, List.length_reverse, h.rank]
  have hzip : (l.shape.zip l.strides).reverse = l.shape.reverse.zip l.strides.reverse :=
    List.reverse_zipWith h.rank
  have hscalable : ∀ axis ∈ l.shape.reverse.zip l.strides.reverse, Scalable axis := by
    intro axis haxis
    rw [← hzip] at haxis
    exact h.scalable axis (List.mem_reverse.1 haxis)
  rw [linearOffset, hzip, numberOf,
    offsetFrom_numberFrom (List.rel_reverse hwithin) hscalable hrank, Int.zero_add,
    sum_weighted_reverse (hwithin.length_eq.trans h.rank), offsetAt]

/-- No two elements lie at the same offset. -/
def Distinct (l : OperandLayout) : Prop :=
  ∀ coordinates coordinates', Within l.shape coordinates → Within l.shape coordinates' →
    l.offsetAt coordinates = l.offsetAt coordinates' → coordinates = coordinates'

theorem Spread.linearOffset_injOn {l : OperandLayout} (h : l.Spread) (hdistinct : l.Distinct)
    {index index' : Nat} (hindex : index < l.count) (hindex' : index' < l.count)
    (hsame : linearOffset index l.shape l.strides = linearOffset index' l.shape l.strides) :
    index = index' := by
  obtain ⟨coordinates, hwithin, rfl⟩ := exists_numberOf hindex
  obtain ⟨coordinates', hwithin', rfl⟩ := exists_numberOf hindex'
  rw [h.addressable.linearOffset_numberOf hwithin,
    h.addressable.linearOffset_numberOf hwithin'] at hsame
  rw [hdistinct _ _ hwithin hwithin' hsame]

/-! ### Reading through a larger shape -/

/-- A shape can be read as another: aligned at the last axis, its extents are the other's or one. -/
def ReadsAs (shape target : List Nat) : Prop :=
  ∃ front back, target = front ++ back ∧
    List.Forall₂ (fun extent read => extent = read ∨ extent = 1) shape back

/-- The coordinates at which a shape is read through a larger one: those of its own axes, aligned at
the last, and zero along an axis of extent one. -/
def projected (shape coordinates : List Nat) : List Nat :=
  List.zipWith (fun c extent => if extent = 1 then 0 else c)
    (coordinates.drop (coordinates.length - shape.length)) shape

/-- The steps of a layout, with none along an axis of extent one. -/
def ownSteps (shape : List Nat) (strides : List Int) : List Int :=
  List.zipWith (fun extent step => if extent = 1 then 0 else step) shape strides

/-- A layout as it is read through a larger shape: it has no step along an axis that it lacks or
whose extent is one. -/
def expanded (l : OperandLayout) (target : List Nat) : OperandLayout :=
  ⟨target, List.replicate (target.length - l.shape.length) 0 ++ ownSteps l.shape l.strides, l.kind⟩

theorem rank_expanded {l : OperandLayout} (hrank : l.shape.length = l.strides.length)
    {target : List Nat} (hreads : ReadsAs l.shape target) :
    target.length = (l.expanded target).strides.length := by
  obtain ⟨front, back, htarget, hback⟩ := hreads
  have hlength : target.length = front.length + l.shape.length := by
    rw [htarget, List.length_append, hback.length_eq]
  simp only [expanded, ownSteps, List.length_append, List.length_replicate,
    List.length_zipWith, ← hrank]
  omega

theorem nonneg_ownSteps {shape : List Nat} {strides : List Int} (h : ∀ step ∈ strides, 0 ≤ step) :
    ∀ step ∈ ownSteps shape strides, 0 ≤ step := by
  induction shape generalizing strides with
  | nil => exact fun _ hstep => absurd hstep List.not_mem_nil
  | cons extent shape ih =>
      cases strides with
      | nil => exact fun _ hstep => absurd hstep List.not_mem_nil
      | cons step strides =>
          rw [List.forall_mem_cons] at h
          rw [ownSteps, List.zipWith_cons_cons, List.forall_mem_cons]
          refine ⟨?_, ih h.2⟩
          split
          · exact Int.le_refl 0
          · exact h.1

theorem ReadsAs.within_projected {shape target : List Nat} (h : ReadsAs shape target)
    {coordinates : List Nat} (hwithin : Within target coordinates) :
    Within shape (projected shape coordinates) := by
  obtain ⟨front, back, rfl, hback⟩ := h
  have hdrop : Within back (coordinates.drop (coordinates.length - shape.length)) := by
    have hlength : coordinates.length - shape.length = front.length := by
      rw [hwithin.length_eq, List.length_append, hback.length_eq, Nat.add_sub_cancel]
    have hcut := List.forall₂_drop front.length hwithin
    rw [List.drop_left] at hcut
    rw [hlength]
    exact hcut
  rw [projected]
  generalize coordinates.drop (coordinates.length - shape.length) = own at hdrop
  clear hwithin
  induction hback generalizing own with
  | nil =>
      cases hdrop
      exact .nil
  | @cons extent read shape back hextent _ ih =>
      cases hdrop with
      | cons hc hrest =>
          refine .cons ?_ (ih _ hrest)
          dsimp only
          split
          · omega
          · omega

/-- Leaving out a step is the same as staying at coordinate zero. -/
theorem weighted_ownSteps (shape coordinates : List Nat) (strides : List Int) :
    weighted coordinates (ownSteps shape strides) = weighted
      (List.zipWith (fun c extent => if extent = 1 then 0 else c) coordinates shape) strides := by
  induction shape generalizing coordinates strides with
  | nil => cases coordinates <;> rfl
  | cons extent shape ih =>
      cases coordinates with
      | nil => rfl
      | cons c coordinates =>
          cases strides with
          | nil => rfl
          | cons step strides =>
              rw [ownSteps, List.zipWith_cons_cons, List.zipWith_cons_cons, weighted_cons,
                weighted_cons, ← ownSteps, ih]
              split
              · rw [Int.mul_zero, Nat.cast_zero, Int.zero_mul]
              · rfl

/-- Read through a larger shape, an element has the offset that the layout itself gives the
projected coordinates. -/
theorem offsetAt_expanded (l : OperandLayout) {target coordinates : List Nat}
    (hwithin : Within target coordinates) :
    (l.expanded target).offsetAt coordinates = l.offsetAt (projected l.shape coordinates) := by
  have hlength : coordinates.length = target.length := hwithin.length_eq
  have hfront : (coordinates.take (target.length - l.shape.length)).length =
      (List.replicate (target.length - l.shape.length) (0 : Int)).length := by
    rw [List.length_take, List.length_replicate]
    omega
  calc (l.expanded target).offsetAt coordinates
      = (weighted (coordinates.take (target.length - l.shape.length) ++ coordinates.drop
        (target.length - l.shape.length)) (List.replicate (target.length - l.shape.length) 0 ++
        ownSteps l.shape l.strides)).sum := by
        rw [List.take_append_drop]
        rfl
    _ = (weighted (coordinates.drop (target.length - l.shape.length))
      (ownSteps l.shape l.strides)).sum := by
        rw [weighted_append hfront, List.sum_append, sum_weighted_replicate_zero, Int.zero_add]
    _ = l.offsetAt (projected l.shape coordinates) := by
      rw [weighted_ownSteps, offsetAt, projected, hlength]

end OperandLayout

end TensorDataflow
