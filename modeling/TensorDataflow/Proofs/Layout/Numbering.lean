import Mathlib.Data.Set.Function
import Mathlib.Order.Bounds.Basic
import TensorDataflow.Proofs.Layout.Coordinates
/-!
# The offsets that a layout reaches

Every element has one number below the count and every such number is that of one element, so what
is found by counting is what is found at the coordinates: the sums of coordinate times step. This
needs no step for every axis. A shape that was overwritten keeps its old strides, and then an axis
without a step is not stepped along and is counted after all others: `OperandLayout.walked`. The
lowest and the highest offset are attained, at the elements that lie at the one or the other end of
every axis.
-/

namespace TensorDataflow

/-! ### Every number once -/

theorem numberFrom_injOn (shape : List Nat) :
    Set.InjOn (numberFrom shape) {coordinates | Within shape coordinates} := by
  intro coordinates h coordinates' h' hsame
  have h : Within shape coordinates := h
  have h' : Within shape coordinates' := h'
  induction h generalizing coordinates' with
  | nil =>
      cases h'
      rfl
  | @cons c extent coordinates shape hc hrest ih =>
      obtain _ | @⟨c', _, coordinates', _, hc', hrest'⟩ := h'
      have hmod := congrArg (· % extent) hsame
      have hdiv := congrArg (· / extent) hsame
      simp only [numberFrom, Nat.add_mul_mod_self_left, Nat.mod_eq_of_lt hc,
        Nat.mod_eq_of_lt hc'] at hmod
      simp only [numberFrom, Nat.add_mul_div_left _ _ (Nat.zero_lt_of_lt hc), Nat.div_eq_of_lt hc,
        Nat.div_eq_of_lt hc', Nat.zero_add] at hdiv
      rw [hmod, ih hrest hrest' hdiv hrest']

/-- Each element of a shape has one number below the count, and each such number belongs to one
element. -/
theorem bijOn_numberOf (shape : List Nat) : Set.BijOn (numberOf shape)
    {coordinates | Within shape coordinates} (Set.Iio (elementTotal shape)) := by
  refine ⟨fun _ h => numberOf_lt h, ?_, ?_⟩
  · intro coordinates h coordinates' h' hsame
    have hreverse := numberFrom_injOn shape.reverse (List.rel_reverse h) (List.rel_reverse h') hsame
    exact List.reverse_injective hreverse
  · intro index h
    obtain ⟨coordinates, hwithin, hnumber⟩ := exists_numberOf h
    exact ⟨coordinates, hwithin, hnumber⟩

/-! ### Axes without a step -/

/-- A list whose entries from a position on are put in front. -/
def turned {α : Type} (position : Nat) (xs : List α) : List α :=
  xs.drop position ++ xs.take position

theorem turned_of_le {α : Type} {position : Nat} {xs : List α} (h : xs.length ≤ position) :
    turned position xs = xs := by
  rw [turned, List.drop_of_length_le h, List.take_of_length_le h, List.nil_append]

theorem turned_injective {α : Type} {position : Nat} {xs ys : List α}
    (hlength : xs.length = ys.length) (h : turned position xs = turned position ys) : xs = ys := by
  obtain ⟨hdrop, htake⟩ := List.append_inj h (by rw [List.length_drop, List.length_drop, hlength])
  rw [← List.take_append_drop position xs, htake, hdrop, List.take_append_drop]

theorem elementTotal_turned (position : Nat) (shape : List Nat) :
    elementTotal (turned position shape) = elementTotal shape := by
  have hperm : (turned position shape).Perm shape := by
    have hsplit := @List.perm_append_comm _ (shape.drop position) (shape.take position)
    rwa [List.take_append_drop] at hsplit
  exact hperm.prod_eq

theorem within_turned {position : Nat} {shape coordinates : List Nat}
    (h : Within shape coordinates) : Within (turned position shape) (turned position coordinates) :=
  List.rel_append (List.forall₂_drop position h) (List.forall₂_take position h)

theorem exists_turned {position : Nat} {shape coordinates : List Nat}
    (h : Within (turned position shape) coordinates) :
    ∃ coordinates', Within shape coordinates' ∧ turned position coordinates' = coordinates := by
  rcases Nat.le_total shape.length position with hle | hle
  · rw [turned_of_le hle] at h
    exact ⟨coordinates, h, turned_of_le (h.length_eq.trans_le hle)⟩
  · have hfirst := List.forall₂_take (shape.drop position).length h
    have hsecond := List.forall₂_drop (shape.drop position).length h
    rw [turned, List.take_left] at hfirst
    rw [turned, List.drop_left] at hsecond
    have hlength : (coordinates.drop (shape.drop position).length).length = position := by
      rw [hsecond.length_eq, List.length_take_of_le hle]
    refine ⟨coordinates.drop (shape.drop position).length ++
      coordinates.take (shape.drop position).length, ?_, ?_⟩
    · have hjoined : Within (shape.take position ++ shape.drop position) _ :=
        List.rel_append hsecond hfirst
      rwa [List.take_append_drop] at hjoined
    · rw [turned, List.drop_left' hlength, List.take_left' hlength, List.take_append_drop]

theorem bijOn_turned (position : Nat) (shape : List Nat) :
    Set.BijOn (turned position) {coordinates | Within shape coordinates}
    {coordinates | Within (turned position shape) coordinates} := by
  refine ⟨fun _ h => within_turned h, ?_, fun _ h => exists_turned h⟩
  intro coordinates h coordinates' h' hsame
  exact turned_injective ((List.Forall₂.length_eq h).trans (List.Forall₂.length_eq h').symm) hsame

/-- Axes along which nothing is stepped over add nothing to an offset. -/
theorem offsetFrom_append_idle {axes idle : List (Nat × Int)}
    (h : ∀ axis ∈ idle, 0 < axis.1 ∧ axis.2 = 0) (remaining : Nat) (offset : Int) :
    offsetFrom remaining offset (axes ++ idle) = offsetFrom remaining offset axes := by
  induction axes generalizing remaining offset with
  | cons axis axes ih =>
      obtain ⟨extent, step⟩ := axis
      rw [List.cons_append, offsetFrom, offsetFrom, ih]
  | nil =>
      rw [List.nil_append, offsetFrom]
      induction idle generalizing remaining with
      | nil => rfl
      | cons axis idle ih =>
          obtain ⟨extent, step⟩ := axis
          rw [List.forall_mem_cons] at h
          obtain ⟨⟨hextent, hstep⟩, hrest⟩ := h
          have hextent : 0 < extent := hextent
          have hstep : step = 0 := hstep
          rw [offsetFrom, if_neg (Nat.ne_of_gt hextent), hstep, Int.mul_zero,
            Int.add_zero, ih hrest]

theorem weighted_eq_map (coordinates : List Nat) (strides : List Int) :
    weighted coordinates strides =
      (coordinates.zip strides).map fun axis => (axis.1 : Int) * axis.2 :=
  (List.map_uncurry_zip_eq_zipWith ..).symm

theorem zip_take_take {α β : Type} (xs : List α) (ys : List β) :
    (xs.take ys.length).zip (ys.take xs.length) = xs.zip ys := by
  have hxs : xs.take ys.length = xs.take (min xs.length ys.length) := by
    rw [List.take_eq_take_iff]
    omega
  have hys : ys.take xs.length = ys.take (min xs.length ys.length) := by
    rw [List.take_eq_take_iff]
    omega
  rw [hxs, hys, ← List.zip_eq_zip_take_min]

namespace OperandLayout

/-- A layout as it is walked, with one step per axis: an axis without a step is not stepped along,
and is counted after those that have one. -/
def walked (l : OperandLayout) : OperandLayout :=
  ⟨turned l.strides.length l.shape,
    List.replicate (l.shape.length - l.strides.length) 0 ++ l.strides.take l.shape.length, l.kind⟩

/-- The number by which the element at some coordinates is found: row-major, if every axis has a
step. -/
def numberAt (l : OperandLayout) (coordinates : List Nat) : Nat :=
  numberOf l.walked.shape (turned l.strides.length coordinates)

variable {l : OperandLayout}

theorem bijOn_numberAt (l : OperandLayout) :
    Set.BijOn l.numberAt {coordinates | Within l.shape coordinates} (Set.Iio l.count) := by
  have hcount : elementTotal l.walked.shape = l.count := elementTotal_turned _ _
  rw [← hcount]
  exact (bijOn_numberOf l.walked.shape).comp (bijOn_turned l.strides.length l.shape)

theorem rank_walked (l : OperandLayout) : l.walked.shape.length = l.walked.strides.length := by
  simp only [walked, turned, List.length_append, List.length_drop, List.length_take,
    List.length_replicate, Nat.min_comm]

theorem zip_walked (l : OperandLayout) : l.walked.shape.zip l.walked.strides =
      (l.shape.drop l.strides.length).zip (List.replicate (l.shape.length - l.strides.length) 0) ++
      l.shape.zip l.strides := by
  rw [walked, turned, List.zip_append (by rw [List.length_drop, List.length_replicate]),
    zip_take_take]

theorem Sized.walked (h : l.Sized) : l.walked.Spread := by
  refine ⟨l.rank_walked, fun extent hextent => h extent ?_⟩
  rw [OperandLayout.walked, turned, List.mem_append] at hextent
  exact hextent.elim List.mem_of_mem_drop List.mem_of_mem_take

theorem Sized.linearOffset_walked (h : l.Sized) (index : Nat) :
    linearOffset index l.walked.shape l.walked.strides = linearOffset index l.shape l.strides := by
  rw [linearOffset, linearOffset, zip_walked, List.reverse_append]
  apply offsetFrom_append_idle
  rintro ⟨extent, step⟩ haxis
  obtain ⟨hextent, hstep⟩ := List.of_mem_zip (List.mem_reverse.1 haxis)
  exact ⟨(h extent (List.mem_of_mem_drop hextent)).1, List.eq_of_mem_replicate hstep⟩

theorem offsetAt_walked (coordinates : List Nat) (h : coordinates.length = l.shape.length) :
    l.walked.offsetAt (turned l.strides.length coordinates) = l.offsetAt coordinates := by
  have hidle : (coordinates.drop l.strides.length).length =
      (List.replicate (l.shape.length - l.strides.length) (0 : Int)).length := by
    rw [List.length_drop, List.length_replicate, h]
  rw [offsetAt, offsetAt, walked, turned, weighted_append hidle, List.sum_append,
    sum_weighted_replicate_zero, Int.zero_add]
  congr 1
  rw [weighted_eq_map, weighted_eq_map, ← h, zip_take_take]

/-- Every element lies where its coordinates put it. -/
theorem Sized.linearOffset_numberAt (h : l.Sized)
    {coordinates : List Nat} (hwithin : Within l.shape coordinates) :
    linearOffset (l.numberAt coordinates) l.shape l.strides = l.offsetAt coordinates := by
  rw [← h.linearOffset_walked, numberAt,
    h.walked.addressable.linearOffset_numberOf (within_turned hwithin),
    offsetAt_walked _ hwithin.length_eq]

/-! ### The offsets that a layout reaches -/

/-- The offsets at which the elements of a layout are found. -/
def offsets (l : OperandLayout) : Set Int :=
  (fun index => linearOffset index l.shape l.strides) '' Set.Iio l.count

theorem Sized.offsets_eq (h : l.Sized) :
    l.offsets = l.offsetAt '' {coordinates | Within l.shape coordinates} := by
  rw [offsets, ← l.bijOn_numberAt.image_eq, Set.image_image]
  exact Set.image_congr fun coordinates hwithin => h.linearOffset_numberAt hwithin

/-- Where every axis has a coordinate with a given share in the offset, some element has all these
shares. -/
theorem exists_coordinates {shape : List Nat} {strides : List Int}
    (hpos : ∀ extent ∈ shape, 0 < extent) {share : Nat × Int → Int}
    (hshare : ∀ axis ∈ shape.zip strides, ∃ c < axis.1, (c : Int) * axis.2 = share axis) :
    ∃ coordinates, Within shape coordinates ∧
    (weighted coordinates strides).sum = ((shape.zip strides).map share).sum := by
  induction shape generalizing strides with
  | nil => exact ⟨[], .nil, rfl⟩
  | cons extent shape ih =>
      rw [List.forall_mem_cons] at hpos
      cases strides with
      | nil =>
          obtain ⟨coordinates, hwithin, -⟩ := @ih [] hpos.2 fun _ haxis => by simp at haxis
          exact ⟨0 :: coordinates, .cons hpos.1 hwithin, rfl⟩
      | cons step strides =>
          rw [List.zip_cons_cons, List.forall_mem_cons] at hshare
          obtain ⟨c, hc, hmul⟩ := hshare.1
          obtain ⟨coordinates, hwithin, hsum⟩ := ih hpos.2 hshare.2
          refine ⟨c :: coordinates, .cons hc hwithin, ?_⟩
          rw [weighted_cons, List.sum_cons, hmul, hsum, List.zip_cons_cons, List.map_cons,
            List.sum_cons]

/-- The ends of an axis are at its first and at its last coordinate. -/
theorem exists_end {extent : Nat} (h : 0 < extent) {step share : Int}
    (hshare : share = 0 ∨ share = ((extent : Int) - 1) * step) :
    ∃ c < extent, (c : Int) * step = share := by
  rcases hshare with hfirst | hlast
  · exact ⟨0, h, by rw [hfirst, Nat.cast_zero, Int.zero_mul]⟩
  · refine ⟨extent - 1, by omega, ?_⟩
    rw [hlast, Nat.cast_sub h, Nat.cast_one]

namespace Sized

variable (h : l.Sized)

include h

theorem sum_mem_offsets {share : Nat × Int → Int}
    (hshare : ∀ axis : Nat × Int, share axis = 0 ∨ share axis = ((axis.1 : Int) - 1) * axis.2) :
    ((l.shape.zip l.strides).map share).sum ∈ l.offsets := by
  rw [h.offsets_eq]
  exact exists_coordinates (fun extent hextent => (h extent hextent).1) fun axis haxis =>
    exists_end (h.axes axis haxis).1 (hshare axis)

/-- The lowest offset is that of the element that lies last along every axis that is walked
backwards and first along the others. -/
theorem isLeast_lowest : IsLeast l.offsets (lowest (l.shape.zip l.strides)) := by
  refine ⟨h.sum_mem_offsets fun axis => min_choice _ _, ?_⟩
  rintro _ ⟨index, -, rfl⟩
  exact (h.linearOffset_within index).1

theorem isGreatest_highest : IsGreatest l.offsets (highest (l.shape.zip l.strides)) := by
  refine ⟨h.sum_mem_offsets fun axis => max_choice _ _, ?_⟩
  rintro _ ⟨index, -, rfl⟩
  exact (h.linearOffset_within index).2

end Sized

end OperandLayout

end TensorDataflow
