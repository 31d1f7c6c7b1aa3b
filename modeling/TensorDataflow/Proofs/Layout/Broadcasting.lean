import Mathlib.Data.List.Forall2
import TensorDataflow.Layout.Broadcast
/-!
# What broadcasting guarantees

A shape that takes part in a broadcast can be read as the result: along the axes it has, aligned at
the last, its extent is that of the result or the constant one. The strides that read it so step
over nothing along the other axes.
-/

namespace TensorDataflow

theorem Dim.isOne_iff {d : Dim} : d.isOne ↔ d = .const 1 := by
  cases d <;> simp [isOne, constant?]

namespace Axes

/-- A shape that can be read as another: axis for axis from the last, its extent is the other's or
the constant one. -/
def ReadsAs (input output : Shape) : Prop :=
  ∃ front back, output.dims = front ++ back ∧
    List.Forall₂ (fun a d => a = d ∨ a.isOne) input.dims back

theorem joinFrom_eq_ok {axis : Nat} {pairs : List (Dim × Dim)} {dims : List Dim}
    (h : joinFrom axis pairs = .ok dims) :
    List.Forall₂ (fun p d => p.1.agree? p.2 = some d) pairs dims := by
  induction pairs generalizing axis dims with
  | nil =>
      cases h
      exact .nil
  | cons pair pairs ih =>
      obtain ⟨a, b⟩ := pair
      rw [joinFrom] at h
      split at h
      · cases h
      · next d hagree =>
          cases hrest : joinFrom (axis + 1) pairs with
          | error e =>
              rw [hrest] at h
              cases h
          | ok rest =>
              rw [hrest] at h
              cases h
              exact .cons hagree (ih hrest)

theorem joinFrom_of_forall₂ {pairs : List (Dim × Dim)} {dims : List Dim}
    (h : List.Forall₂ (fun p d => p.1.agree? p.2 = some d) pairs dims) (axis : Nat) :
    joinFrom axis pairs = .ok dims := by
  induction h generalizing axis with
  | nil => rfl
  | @cons p d pairs dims hagree _ ih =>
      obtain ⟨a, b⟩ := p
      rw [joinFrom, hagree]
      dsimp only
      rw [ih]
      rfl

theorem joinFrom_eq_ok_iff {axis : Nat} {pairs : List (Dim × Dim)} {dims : List Dim} :
    joinFrom axis pairs = .ok dims ↔ List.Forall₂ (fun p d => p.1.agree? p.2 = some d) pairs dims :=
  ⟨joinFrom_eq_ok, fun h => joinFrom_of_forall₂ h axis⟩

theorem agree?_eq_some {a b d : Dim} (h : a.agree? b = some d) :
    (a = d ∨ a.isOne) ∧ (b = d ∨ b.isOne) := by
  rw [Dim.agree?] at h
  split at h
  · next hfirst =>
      cases h
      refine ⟨.inl rfl, hfirst.imp (fun hab => hab.symm) id⟩
  · split at h
    · next hone =>
        cases h
        exact ⟨.inr hone, .inl rfl⟩
    · cases h

theorem length_alignTo {rank : Nat} {dims : List Dim} (h : dims.length ≤ rank) :
    (alignTo rank dims).length = rank := by
  rw [alignTo, List.length_append, List.length_replicate]
  omega

/-- The aligned extents of two shapes, axis by axis. -/
def pairs (a b : Shape) : List (Dim × Dim) :=
  (alignTo (max a.rank b.rank) a.dims).zip (alignTo (max a.rank b.rank) b.dims)

theorem length_alignTo_left (a b : Shape) :
    (alignTo (max a.rank b.rank) a.dims).length = max a.rank b.rank :=
  length_alignTo (Nat.le_max_left _ _)

theorem length_alignTo_right (a b : Shape) :
    (alignTo (max a.rank b.rank) b.dims).length = max a.rank b.rank :=
  length_alignTo (Nat.le_max_right _ _)

theorem broadcast_eq_ok_iff_joinFrom {a b s : Shape} :
    a.broadcast b = .ok s ↔ joinFrom 0 (pairs a b) = .ok s.dims := by
  rw [broadcast, ← pairs]
  cases joinFrom 0 (pairs a b) with
  | ok dims => simp [Axes.ext_iff]
  | error axis => simp

/-- Leading ones that only fill up are no axes of the shape that is read. -/
theorem readsAs_of_forall₂ {input output : Shape} {rank : Nat}
    (h : List.Forall₂ (fun a d => a = d ∨ Dim.isOne a) (alignTo rank input.dims) output.dims) :
    input.ReadsAs output := by
  refine ⟨output.dims.take (rank - input.dims.length), output.dims.drop (rank - input.dims.length),
    (List.take_append_drop _ _).symm, ?_⟩
  have hdrop := List.forall₂_drop (rank - input.dims.length) h
  rwa [alignTo, List.drop_left' List.length_replicate] at hdrop

theorem readsAs_of_broadcast {a b s : Shape} (h : a.broadcast b = .ok s) :
    a.ReadsAs s ∧ b.ReadsAs s := by
  have hlength : (alignTo (max a.rank b.rank) a.dims).length =
      (alignTo (max a.rank b.rank) b.dims).length := by
    rw [length_alignTo_left, length_alignTo_right]
  have hpairs :=
    (joinFrom_eq_ok (broadcast_eq_ok_iff_joinFrom.1 h)).imp fun p d hagree => agree?_eq_some hagree
  constructor
  · apply readsAs_of_forall₂
    rw [← List.map_fst_zip (Nat.le_of_eq hlength), List.forall₂_map_left_iff]
    exact hpairs.imp fun _ _ h => h.1
  · apply readsAs_of_forall₂
    rw [← List.map_snd_zip (Nat.le_of_eq hlength.symm), List.forall₂_map_left_iff]
    exact hpairs.imp fun _ _ h => h.2

/-- The steps of an operand along its own axes, with none along an axis of constant extent one. -/
def stepsAlong (extents steps : List Dim) : List Dim :=
  (extents.zip steps).map fun axis => if axis.1.isOne then .const 0 else axis.2

theorem broadcastStride_of_rank {shape : Shape} {stride : Stride} (h : shape.rank = stride.rank)
    (targetRank : Nat) :
    shape.broadcastStride stride targetRank = .ok
      ⟨List.replicate (targetRank - shape.rank) (.const 0) ++ stepsAlong shape.dims stride.dims⟩ :=
  if_pos h

end Axes

end TensorDataflow
