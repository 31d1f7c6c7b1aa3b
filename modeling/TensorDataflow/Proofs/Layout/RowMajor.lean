import TensorDataflow.Proofs.Dim.PartialEvaluation
import TensorDataflow.Proofs.Layout.Numbering
import TensorDataflow.Proofs.Machine.Act
/-!
# Row-major layouts

The contiguous stride of a shape steps over the elements of all later axes. Its products wrap around
like all words, but as soon as the storage that the wrapped steps need is counted by a signed word
nothing has wrapped: then every element lies at its number, and the storage has one place for each.
-/

namespace TensorDataflow

/-- The steps of a shape whose elements lie one after the other in row-major order. -/
def rowSteps : List Nat → List Nat
  | [] => []
  | _ :: shape => elementTotal shape :: rowSteps shape

theorem numberFrom_append {shape coordinates : List Nat} (h : coordinates.length = shape.length)
    (extent c : Nat) :
    numberFrom (shape ++ [extent]) (coordinates ++ [c]) = numberFrom shape coordinates +
      shape.prod * c := by
  induction shape generalizing coordinates with
  | nil =>
      obtain rfl := List.length_eq_zero_iff.1 h
      simp [numberFrom]
  | cons extent' shape ih =>
      cases coordinates with
      | nil => cases h
      | cons c' coordinates =>
          rw [List.length_cons, List.length_cons, Nat.add_right_cancel_iff] at h
          rw [List.cons_append, List.cons_append, numberFrom, numberFrom, ih h, List.prod_cons,
            Nat.mul_add, Nat.mul_assoc, Nat.add_assoc]

theorem numberOf_cons {shape coordinates : List Nat} (h : coordinates.length = shape.length)
    (extent c : Nat) :
    numberOf (extent :: shape) (c :: coordinates) = c * elementTotal shape +
      numberOf shape coordinates := by
  rw [numberOf, List.reverse_cons, List.reverse_cons,
    numberFrom_append (by rw [List.length_reverse, List.length_reverse, h]),
    ← elementTotal_eq_prod_reverse, numberOf, Nat.add_comm, Nat.mul_comm]

/-- Row-major steps put an element at its number. -/
theorem sum_weighted_rowSteps {shape coordinates : List Nat}
    (h : coordinates.length = shape.length) :
    (weighted coordinates ((rowSteps shape).map fun (step : Nat) => (step : Int))).sum =
      numberOf shape coordinates := by
  induction shape generalizing coordinates with
  | nil =>
      obtain rfl := List.length_eq_zero_iff.1 h
      rfl
  | cons extent shape ih =>
      cases coordinates with
      | nil => cases h
      | cons c coordinates =>
          rw [List.length_cons, List.length_cons, Nat.add_right_cancel_iff] at h
          rw [rowSteps, List.map_cons, weighted_cons, List.sum_cons, ih h, numberOf_cons h,
            Nat.cast_add, Nat.cast_mul]

theorem length_rowSteps (shape : List Nat) : (rowSteps shape).length = shape.length := by
  induction shape with
  | nil => rfl
  | cons extent shape ih => rw [rowSteps, List.length_cons, List.length_cons, ih]

/-- Row-major steps as words hold them. -/
def wordSteps (shape : List Nat) : List Int := (rowSteps shape).map signedWord

theorem wordSteps_cons (extent : Nat) (shape : List Nat) :
    wordSteps (extent :: shape) = signedWord (elementTotal shape) :: wordSteps shape :=
  rfl

namespace Axes

theorem suffixProducts_cons (d : Dim) (dims : List Dim) : suffixProducts (d :: dims) =
      (.node .mul (suffixProducts dims).1 d, (suffixProducts dims).1 :: (suffixProducts dims).2) :=
  rfl

theorem evaluate_suffixProducts {bindings : Bindings} {dims : List Dim} {extents : List Nat}
    (h : List.Forall₂ (fun d n => (d.evaluate bindings).bind (AxisRole.ofWord .extent) = some n)
      dims extents) :
    (suffixProducts dims).1.evaluate bindings = some (Int64.ofNat (elementTotal extents)) ∧
      List.Forall₂ (fun d step => (d.evaluate bindings).bind (AxisRole.ofWord .step) = some step)
      (suffixProducts dims).2 (wordSteps extents) := by
  induction h with
  | nil => exact ⟨rfl, .nil⟩
  | @cons d n dims extents hd hrest ih =>
      obtain ⟨hproduct, hsteps⟩ := ih
      rw [suffixProducts_cons, wordSteps_cons]
      constructor
      · obtain ⟨v, hv, hword⟩ := Option.bind_eq_some_iff.1 hd
        have hvalue : v = Int64.ofNat n := by
          rw [← v.ofInt_toInt, AxisRole.ofWord_extent_eq_some_iff.1 hword, Int64.ofInt_eq_ofNat]
        have hnode : (Dim.node .mul (suffixProducts dims).1 d).evaluate bindings =
            some (Int64.ofNat (elementTotal extents) * v) := by
          rw [Dim.evaluate, hproduct, hv]
          rfl
        rw [hnode, hvalue, ← Int64.ofNat_mul, Nat.mul_comm]
        rfl
      · refine .cons ?_ hsteps
        rw [hproduct]
        rfl

/-- The contiguous stride of a shape has the row-major steps, as far as words hold them. -/
theorem evaluate_contiguous {bindings : Bindings} {shape : Shape} {extents : List Nat}
    (h : shape.evaluate bindings = some extents) :
    shape.contiguous.evaluate bindings = some (wordSteps extents) := by
  have hsteps : (⟨(suffixProducts shape.dims).2⟩ : Stride).evaluate bindings =
      some (wordSteps extents) :=
    mapM_eq_some_iff.2 (evaluate_suffixProducts (mapM_eq_some_iff.1 h)).2
  unfold contiguous
  split
  · rw [evaluate_simplify, hsteps]
  · exact hsteps

end Axes

namespace OperandLayout

/-- Where the storage that the wrapped steps need is counted by a signed word, none has wrapped: the
storage then has one place for each element. -/
theorem wordSteps_of_fits {shape : List Nat} (hpos : ∀ extent ∈ shape, 0 < extent)
    (hfits : highest (shape.zip (wordSteps shape)) - lowest (shape.zip (wordSteps shape)) +
        1 < 0x8000000000000000) :
    wordSteps shape = (rowSteps shape).map (fun (step : Nat) => (step : Int)) ∧
    lowest (shape.zip (wordSteps shape)) = 0 ∧
    highest (shape.zip (wordSteps shape)) + 1 = elementTotal shape := by
  induction shape with
  | nil => exact ⟨rfl, rfl, rfl⟩
  | cons extent shape ih =>
      rw [List.forall_mem_cons] at hpos
      rw [wordSteps_cons, List.zip_cons_cons, lowest_cons, highest_cons] at hfits ⊢
      -- the later axes need no more storage than all do, and what they need is the first step
      obtain ⟨hsteps, hlow, hhigh⟩ := ih hpos.2 (by omega)
      have hword : signedWord (elementTotal shape) = elementTotal shape :=
        signedWord_of_lt (by omega)
      have hspan : 0 ≤ ((extent : Int) - 1) * elementTotal shape :=
        Int.mul_nonneg (by omega) (by omega)
      have htotal : (elementTotal (extent :: shape) : Int) = ((extent : Int) - 1) *
          elementTotal shape + elementTotal shape := by
        rw [elementTotal, List.foldr_cons, ← elementTotal, Nat.cast_mul, Int.sub_mul, Int.one_mul,
          Int.sub_add_cancel]
      rw [hword]
      refine ⟨?_, by omega, by omega⟩
      rw [hsteps]
      rfl

/-- A layout whose steps are row-major has every element at its number. -/
theorem linearOffset_rowSteps {shape : List Nat}
    (hsized : ∀ extent ∈ shape, 0 < extent ∧ extent < 0x8000000000000000) {index : Nat}
    (h : index < elementTotal shape) :
    linearOffset index shape ((rowSteps shape).map fun (step : Nat) => (step : Int)) = index := by
  obtain ⟨coordinates, hwithin, rfl⟩ := exists_numberOf h
  have hspread : OperandLayout.Spread ⟨shape, (rowSteps shape).map fun (step : Nat) => (step : Int),
        default⟩ := ⟨by rw [List.length_map, length_rowSteps], hsized⟩
  have hoffset := hspread.addressable.linearOffset_numberOf hwithin
  dsimp only at hoffset
  rw [hoffset, offsetAt, sum_weighted_rowSteps hwithin.length_eq]

end OperandLayout

end TensorDataflow
