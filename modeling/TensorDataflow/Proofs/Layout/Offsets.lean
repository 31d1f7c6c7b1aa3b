import Mathlib.Algebra.Order.BigOperators.GroupWithZero.List
import TensorDataflow.Graph.Tensor
import TensorDataflow.Proofs.Library.Reach
/-!
# Where elements lie in their storage

Storage reaches from the lowest to the highest offset of a layout, so with steps of either sign an
element lies as many places behind the start of its storage as its offset is above the lowest one.
Two layouts of one shape put all their elements in the same places exactly if they step alike along
every axis that has more than one place: `OperandLayout.place_eq_iff`.
-/

namespace TensorDataflow

namespace OperandLayout

/-- The lowest offset that some axes reach together. -/
def lowest (axes : List (Nat × Int)) : Int :=
  (axes.map fun (extent, step) => min 0 (((extent : Int) - 1) * step)).sum

/-- The highest one. -/
def highest (axes : List (Nat × Int)) : Int :=
  (axes.map fun (extent, step) => max 0 (((extent : Int) - 1) * step)).sum

theorem lowest_cons (extent : Nat) (step : Int) (axes : List (Nat × Int)) :
    lowest ((extent, step) :: axes) = min 0 (((extent : Int) - 1) * step) + lowest axes := by
  simp [lowest]

theorem highest_cons (extent : Nat) (step : Int) (axes : List (Nat × Int)) :
    highest ((extent, step) :: axes) = max 0 (((extent : Int) - 1) * step) + highest axes := by
  simp [highest]

theorem lowest_reverse (axes : List (Nat × Int)) : lowest axes.reverse = lowest axes := by
  simp [lowest, List.sum_reverse]

theorem highest_reverse (axes : List (Nat × Int)) : highest axes.reverse = highest axes := by
  simp [highest, List.sum_reverse]

theorem lowest_nonpos (axes : List (Nat × Int)) : lowest axes ≤ 0 := by
  induction axes with
  | nil => exact Int.le_refl 0
  | cons axis axes ih =>
      rw [lowest_cons]
      omega

/-- No offset is below zero exactly if no step is negative along an axis that has more than one
place. -/
theorem lowest_eq_zero_iff {axes : List (Nat × Int)} (h : ∀ axis ∈ axes, 0 < axis.1) :
    lowest axes = 0 ↔ ∀ axis ∈ axes, 1 < axis.1 → 0 ≤ axis.2 := by
  induction axes with
  | nil => simp [lowest]
  | cons axis axes ih =>
      obtain ⟨extent, step⟩ := axis
      obtain ⟨hextent, hrest⟩ := List.forall_mem_cons.1 h
      have hextent : 0 < extent := hextent
      have hspan : 0 ≤ ((extent : Int) - 1) * step ↔ (1 < extent → 0 ≤ step) := by
        by_cases hlong : 1 < extent
        · rw [mul_nonneg_iff_of_pos_left (by omega)]
          exact ⟨fun hstep _ => hstep, fun hstep => hstep hlong⟩
        · obtain rfl : extent = 1 := by omega
          simp
      have hlow := lowest_nonpos axes
      rw [lowest_cons, List.forall_mem_cons, ← ih hrest, ← hspan]
      omega

/-- Storage has a place for every offset from the lowest to the highest. -/
theorem extentOf_eq {shape : List Nat} (hpos : ∀ extent ∈ shape, 0 < extent) (stride : List Int) :
    (Tensor.extentOf shape stride : Int) = highest (shape.zip stride) -
      lowest (shape.zip stride) + 1 := by
  have hzero : shape.contains 0 = false := by
    rw [Bool.eq_false_iff]
    intro hmem
    exact absurd (hpos 0 (List.contains_iff_mem.1 hmem)) (Nat.lt_irrefl 0)
  rw [Tensor.extentOf, hzero, if_neg Bool.false_ne_true]
  generalize shape.zip stride = axes
  have hlow := lowest_nonpos axes
  have hsums : ((axes.map fun axis => ((axis.1 : Int) - 1) * axis.2).filter (0 ≤ ·)).foldr (· + ·)
      0 = highest axes ∧
      ((axes.map fun axis => ((axis.1 : Int) - 1) * axis.2).filter (· < 0)).foldr (· + ·) 0 =
        lowest axes ∧ 0 ≤ highest axes := by
    clear hlow
    induction axes with
    | nil => exact ⟨rfl, rfl, Int.le_refl 0⟩
    | cons axis axes ih =>
        obtain ⟨extent, step⟩ := axis
        obtain ⟨hhigh, hlow, hnonneg⟩ := ih
        rw [highest_cons, lowest_cons, List.map_cons]
        dsimp only
        generalize ((extent : Int) - 1) * step = span
        by_cases hspan : 0 ≤ span
        · rw [List.filter_cons_of_pos (by simpa using hspan),
            List.filter_cons_of_neg (by simpa using hspan), List.foldr_cons, hhigh, hlow]
          omega
        · rw [List.filter_cons_of_neg (by simpa using hspan),
            List.filter_cons_of_pos (by simpa using hspan), List.foldr_cons, hhigh, hlow]
          omega
  obtain ⟨hhigh, hlow', hnonneg⟩ := hsums
  dsimp only
  omega

/-- A coordinate below an extent takes a step between the lowest and the highest along it, whichever
sign the step has. -/
theorem coordinate_bounds {extent c : Nat} (step : Int) (hc : c < extent)
    (hextent : extent < 0x8000000000000000) :
    min 0 (((extent : Int) - 1) * step) ≤ signedWord c * step ∧
    signedWord c * step ≤ max 0 (((extent : Int) - 1) * step) := by
  have hle : (c : Int) ≤ (extent : Int) - 1 := by omega
  rw [signedWord_of_lt (Nat.lt_trans hc hextent)]
  rcases Int.le_total 0 step with hstep | hstep
  · have hnonneg := Int.mul_nonneg (Int.natCast_nonneg c) hstep
    have hmul := Int.mul_le_mul_of_nonneg_right hle hstep
    omega
  · have hnonpos := Int.mul_nonpos_of_nonneg_of_nonpos (Int.natCast_nonneg c) hstep
    have hmul := Int.mul_le_mul_of_nonpos_right hle hstep
    omega

theorem offsetFrom_within {axes : List (Nat × Int)}
    (h : ∀ axis ∈ axes, 0 < axis.1 ∧ axis.1 < 0x8000000000000000) (remaining : Nat) (offset : Int) :
    offset + lowest axes ≤ offsetFrom remaining offset axes ∧
    offsetFrom remaining offset axes ≤ offset + highest axes := by
  induction axes generalizing remaining offset with
  | nil => simp [offsetFrom, lowest, highest]
  | cons axis axes ih =>
      obtain ⟨extent, step⟩ := axis
      obtain ⟨hpos, hlt⟩ : 0 < extent ∧ extent < 0x8000000000000000 := h _ List.mem_cons_self
      have hrest := ih (fun axis haxis => h axis (List.mem_cons_of_mem _ haxis))
        (remaining / extent) (offset + signedWord (remaining % extent) * step)
      have hone := coordinate_bounds step (Nat.mod_lt remaining hpos) hlt
      rw [offsetFrom, if_neg (Nat.ne_of_gt hpos), lowest_cons, highest_cons]
      omega

/-- Extents that are neither empty nor too long for a signed word. -/
def Sized (l : OperandLayout) : Prop := ∀ extent ∈ l.shape, 0 < extent ∧ extent < 0x8000000000000000

/-- No step is negative along an axis that has more than one place. -/
def Forward (l : OperandLayout) : Prop := ∀ axis ∈ l.shape.zip l.strides, 1 < axis.1 → 0 ≤ axis.2

instance (l : OperandLayout) : Decidable l.Forward := inferInstanceAs (Decidable (∀ axis ∈ _, _))

/-- How many elements lie between the start of the storage and the element with the given row-major
number. -/
def place (l : OperandLayout) (index : Nat) : Nat :=
  (linearOffset index l.shape l.strides - lowest (l.shape.zip l.strides)).toNat

namespace Sized

variable {l : OperandLayout} (h : l.Sized)

include h

theorem axes : ∀ axis ∈ l.shape.zip l.strides, 0 < axis.1 ∧ axis.1 < 0x8000000000000000 := by
  rintro ⟨extent, step⟩ haxis
  exact h extent (List.of_mem_zip haxis).1

theorem count_pos : 0 < l.count := List.prod_pos fun extent hextent => (h extent hextent).1

theorem linearOffset_within (index : Nat) :
    lowest (l.shape.zip l.strides) ≤ linearOffset index l.shape l.strides ∧
    linearOffset index l.shape l.strides ≤ highest (l.shape.zip l.strides) := by
  have hbounds :=
    offsetFrom_within (fun axis haxis => h.axes axis (List.mem_reverse.1 haxis)) index 0
  rw [lowest_reverse, highest_reverse, Int.zero_add, Int.zero_add] at hbounds
  exact hbounds

theorem cast_place (index : Nat) : (l.place index : Int) = linearOffset index l.shape l.strides -
      lowest (l.shape.zip l.strides) := by
  have hbounds := h.linearOffset_within index
  rw [place]
  omega

theorem lowest_eq_zero_iff_forward : lowest (l.shape.zip l.strides) = 0 ↔ l.Forward :=
  lowest_eq_zero_iff fun axis haxis => (h.axes axis haxis).1

theorem place_lt (index : Nat) : l.place index < Tensor.extentOf l.shape l.strides := by
  have hextent := extentOf_eq (fun extent hextent => (h extent hextent).1) l.strides
  have hplace := h.cast_place index
  have hbounds := h.linearOffset_within index
  omega

end Sized

/-- A layout with one step per axis, of either sign, and extents that are neither empty nor too long
for a signed word. -/
structure Spread (l : OperandLayout) : Prop where
  rank : l.shape.length = l.strides.length
  extents : ∀ extent ∈ l.shape, 0 < extent ∧ extent < 0x8000000000000000

theorem Spread.sized {l : OperandLayout} (h : l.Spread) : l.Sized := h.extents

/-! ### Layouts of one shape -/

def firstSteps (axes : List (Nat × Int × Int)) : List (Nat × Int) :=
  axes.map fun axis => (axis.1, axis.2.1)

def secondSteps (axes : List (Nat × Int × Int)) : List (Nat × Int) :=
  axes.map fun axis => (axis.1, axis.2.2)

theorem offsetFrom_split {extent c : Nat} (hc : c < extent) (j : Nat) (offset step : Int)
    (axes : List (Nat × Int)) :
    offsetFrom (c + extent * j) offset ((extent, step) :: axes) =
      offsetFrom j (offset + signedWord c * step) axes := by
  rw [offsetFrom, if_neg (by omega), Nat.add_mul_div_left _ _ (by omega), Nat.div_eq_of_lt hc,
    Nat.zero_add, Nat.add_mul_mod_self_left, Nat.mod_eq_of_lt hc]

/-- Steps give every element the same offset exactly if they agree wherever more than one coordinate
is multiplied by them. -/
theorem offsetFrom_eq_iff {axes : List (Nat × Int × Int)} (hpos : ∀ axis ∈ axes, 0 < axis.1)
    (offset offset' : Int) :
    (∀ index < (axes.map Prod.fst).prod,
      offsetFrom index offset (firstSteps axes) = offsetFrom index offset' (secondSteps axes)) ↔
      offset = offset' ∧ ∀ axis ∈ axes, 1 < axis.1 → axis.2.1 = axis.2.2 := by
  induction axes generalizing offset offset' with
  | nil => simp [firstSteps, secondSteps, offsetFrom]
  | cons axis axes ih =>
      obtain ⟨extent, step, step'⟩ := axis
      have hextent : 0 < extent := hpos _ List.mem_cons_self
      have hrest := ih fun axis haxis => hpos axis (List.mem_cons_of_mem _ haxis)
      rw [List.map_cons, List.prod_cons, List.forall_mem_cons]
      constructor
      · intro h
        -- what holds for all numbers holds for those with a fixed first
        -- coordinate; coordinates zero and one tell offset and step
        have hcoordinate : ∀ c < extent, offset + signedWord c * step = offset' +
            signedWord c * step' ∧ ∀ axis ∈ axes, 1 < axis.1 → axis.2.1 = axis.2.2 := by
          intro c hc
          refine (hrest _ _).1 fun j hj => ?_
          have hrow : extent * (j + 1) ≤ extent * (axes.map Prod.fst).prod :=
            Nat.mul_le_mul_left extent hj
          have hindex := h (c + extent * j) (by dsimp only; rw [Nat.mul_succ] at hrow; omega)
          rwa [firstSteps, secondSteps, List.map_cons, List.map_cons, offsetFrom_split hc,
              offsetFrom_split hc] at hindex
        have hzero : signedWord 0 = 0 := signedWord_of_lt (by decide)
        have hone : signedWord 1 = 1 := signedWord_of_lt (by decide)
        obtain ⟨hsame, halike⟩ := hcoordinate 0 hextent
        rw [hzero, Int.zero_mul, Int.zero_mul, Int.add_zero, Int.add_zero] at hsame
        refine ⟨hsame, fun hlong => ?_, halike⟩
        have hstep := (hcoordinate 1 hlong).1
        rw [hone, Int.one_mul, Int.one_mul] at hstep
        dsimp only
        omega
      · rintro ⟨rfl, hstep, halike⟩ index hindex
        have hshare : signedWord (index % extent) * step = signedWord (index % extent) * step' := by
          by_cases hlong : 1 < extent
          · rw [show step = step' from hstep hlong]
          · obtain rfl : extent = 1 := by omega
            rw [Nat.mod_one, show signedWord 0 = 0 from signedWord_of_lt (by decide),
              Int.zero_mul, Int.zero_mul]
        rw [firstSteps, secondSteps, List.map_cons, List.map_cons, offsetFrom, offsetFrom,
          if_neg (Nat.ne_of_gt hextent), if_neg (Nat.ne_of_gt hextent), hshare]
        exact (hrest _ _).2 ⟨rfl, halike⟩ _ (Nat.div_lt_of_lt_mul hindex)

theorem lowest_congr {axes : List (Nat × Int × Int)} (hpos : ∀ axis ∈ axes, 0 < axis.1)
    (halike : ∀ axis ∈ axes, 1 < axis.1 → axis.2.1 = axis.2.2) :
    lowest (firstSteps axes) = lowest (secondSteps axes) := by
  rw [lowest, lowest, firstSteps, secondSteps, List.map_map, List.map_map]
  congr 1
  refine List.map_congr_left fun axis haxis => ?_
  dsimp only [Function.comp]
  by_cases hlong : 1 < axis.1
  · rw [halike axis haxis hlong]
  · obtain hone : axis.1 = 1 := by have := hpos axis haxis; omega
    simp [hone]

def StepsAlike (l k : OperandLayout) : Prop :=
  ∀ axis ∈ l.shape.zip (l.strides.zip k.strides), 1 < axis.1 → axis.2.1 = axis.2.2

instance (l k : OperandLayout) : Decidable (l.StepsAlike k) :=
  inferInstanceAs (Decidable (∀ axis ∈ _, _))

section Pair

variable {l k : OperandLayout} (hl : l.Spread) (hk : k.Spread) (hshape : l.shape = k.shape)

include hl hk hshape

theorem firstSteps_zip :
    firstSteps (l.shape.zip (l.strides.zip k.strides)) = l.shape.zip l.strides := by
  have hrank : l.strides.length ≤ k.strides.length := by rw [← hl.rank, ← hk.rank, hshape]
  calc firstSteps (l.shape.zip (l.strides.zip k.strides)) =
      l.shape.zip ((l.strides.zip k.strides).map Prod.fst) := by
        rw [List.zip_map_right]
        rfl
    _ = l.shape.zip l.strides := by rw [List.map_fst_zip hrank]

theorem secondSteps_zip :
    secondSteps (l.shape.zip (l.strides.zip k.strides)) = k.shape.zip k.strides := by
  have hrank : k.strides.length ≤ l.strides.length := by rw [← hl.rank, ← hk.rank, hshape]
  calc secondSteps (l.shape.zip (l.strides.zip k.strides)) =
      k.shape.zip ((l.strides.zip k.strides).map Prod.snd) := by
        rw [List.zip_map_right, ← hshape]
        rfl
    _ = k.shape.zip k.strides := by rw [List.map_snd_zip hrank]

theorem linearOffset_eq_iff : (∀ index < l.count, linearOffset index l.shape l.strides =
        linearOffset index k.shape k.strides) ↔ l.StepsAlike k := by
  have hpos : ∀ axis ∈ (l.shape.zip (l.strides.zip k.strides)).reverse, 0 < axis.1 := by
    rintro ⟨extent, steps⟩ haxis
    exact (hl.extents extent (List.of_mem_zip (List.mem_reverse.1 haxis)).1).1
  have htotal : ((l.shape.zip (l.strides.zip k.strides)).reverse.map Prod.fst).prod = l.count := by
    have hrank : l.shape.length ≤ (l.strides.zip k.strides).length := by
      rw [List.length_zip, ← hl.rank, ← hk.rank, hshape, Nat.min_self]
    rw [List.map_reverse, List.prod_reverse, List.map_fst_zip hrank]
    rfl
  have hiff := offsetFrom_eq_iff hpos 0 0
  have hfirst : firstSteps (l.shape.zip (l.strides.zip k.strides)).reverse =
      (l.shape.zip l.strides).reverse := by
    rw [← firstSteps_zip hl hk hshape, firstSteps, firstSteps, List.map_reverse]
  have hsecond : secondSteps (l.shape.zip (l.strides.zip k.strides)).reverse =
      (k.shape.zip k.strides).reverse := by
    rw [← secondSteps_zip hl hk hshape, secondSteps, secondSteps, List.map_reverse]
  rw [htotal, hfirst, hsecond] at hiff
  simp only [List.mem_reverse, true_and] at hiff
  exact hiff

theorem lowest_of_stepsAlike (halike : l.StepsAlike k) :
    lowest (l.shape.zip l.strides) = lowest (k.shape.zip k.strides) := by
  rw [← firstSteps_zip hl hk hshape, ← secondSteps_zip hl hk hshape]
  refine lowest_congr ?_ halike
  rintro ⟨extent, steps⟩ haxis
  exact (hl.extents extent (List.of_mem_zip haxis).1).1

/-- Layouts of one shape put all elements in the same places exactly if they step alike. -/
theorem place_eq_iff : (∀ index < l.count, l.place index = k.place index) ↔ l.StepsAlike k := by
  constructor
  · intro h
    -- the first element has offset zero, so its place tells the lowest offset
    have hlowest : lowest (l.shape.zip l.strides) = lowest (k.shape.zip k.strides) := by
      have hfirst := h 0 hl.sized.count_pos
      have hplace := hl.sized.cast_place 0
      have hplace' := hk.sized.cast_place 0
      rw [linearOffset_zero] at hplace hplace'
      omega
    refine (linearOffset_eq_iff hl hk hshape).1 fun index hindex => ?_
    have hsame := h index hindex
    have hplace := hl.sized.cast_place index
    have hplace' := hk.sized.cast_place index
    omega
  · intro halike index hindex
    have hoffset := (linearOffset_eq_iff hl hk hshape).2 halike index hindex
    rw [place, place, hoffset, lowest_of_stepsAlike hl hk hshape halike]

end Pair

end OperandLayout

end TensorDataflow
