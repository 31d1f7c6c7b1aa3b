import Mathlib.Data.List.Sort
import Mathlib.Data.String.Basic
import TensorDataflow.Proofs.Dim.PartialEvaluation
/-!
# Folded form

A tree is folded when none of its nodes stands over two constants at which its operator has a value.
Folding and substituting lead to such trees, since `Dim.fold` does at one node, and a folded tree is
what folding leaves alone. So it makes no difference that folding looks at every node once while
substitution folds again at every level on its way up, and trees that come about in different ways
are the same tree, not only trees of the same values. No name is lost on the way: folding takes away
constants only, and substitution just the names that are bound. `Dim.folding_normalises` has all of
this.
-/

namespace TensorDataflow

namespace Dim

/-! ### Trees that have been folded -/

/-- No node stands over two constants at which its operator has a value. -/
def Folded : Dim → Prop
  | const _ => True
  | var _ => True
  | node op lhs rhs =>
      lhs.Folded ∧ rhs.Folded ∧ ∀ a b, lhs = const a → rhs = const b → op.apply a b = none

theorem folded_fold {op : DimOp} {lhs rhs : Dim} (hlhs : lhs.Folded) (hrhs : rhs.Folded) :
    (fold op lhs rhs).Folded := by
  obtain ⟨a, b, v, _, _, _, hfold⟩ | ⟨hfold, hnone⟩ := fold_cases op lhs rhs
  · rw [hfold]
    exact trivial
  · rw [hfold]
    exact ⟨hlhs, hrhs, hnone⟩

theorem folded_substitute (d : Dim) (bindings : Bindings) : (d.substitute bindings).Folded := by
  induction d with
  | const v => exact trivial
  | var name =>
      rw [substitute]
      cases bindings name <;> exact trivial
  | node op lhs rhs ihl ihr => exact folded_fold ihl ihr

theorem folded_simplify (d : Dim) : d.simplify.Folded :=
  d.simplify_eq_substitute ▸ d.folded_substitute .empty

/-- A folded tree has nothing left to fold. -/
theorem Folded.simplify_eq {d : Dim} (h : d.Folded) : d.simplify = d := by
  induction d with
  | const v => rfl
  | var name => rfl
  | node op lhs rhs ihl ihr =>
      obtain ⟨hlhs, hrhs, hnone⟩ := h
      rw [simplify, ihl hlhs, ihr hrhs]
      obtain ⟨a, b, v, hl, hr, hvalue, _⟩ | ⟨hfold, _⟩ := fold_cases op lhs rhs
      · rw [hnone a b hl hr] at hvalue
        cases hvalue
      · exact hfold

theorem folded_iff {d : Dim} : d.Folded ↔ d.simplify = d :=
  ⟨Folded.simplify_eq, fun h => h ▸ d.folded_simplify⟩

theorem simplify_substitute (d : Dim) (bindings : Bindings) :
    (d.substitute bindings).simplify = d.substitute bindings :=
  (d.folded_substitute bindings).simplify_eq

/-- Substitution may as well fold the whole tree over the operands again at every level. -/
theorem substitute_node (op : DimOp) (lhs rhs : Dim) (bindings : Bindings) :
    (node op lhs rhs).substitute bindings =
      (node op (lhs.substitute bindings) (rhs.substitute bindings)).simplify := by
  rw [substitute, simplify, simplify_substitute, simplify_substitute]

/-! ### Names -/

theorem mem_insertName {name other : String} {names : List String} :
    other ∈ insertName name names ↔ other = name ∨ other ∈ names := by
  induction names with
  | nil => simp [insertName]
  | cons head tail ih =>
      rw [insertName]
      split
      · exact List.mem_cons
      · split
        · next hsame => simp [hsame]
        · rw [List.mem_cons, ih, List.mem_cons]
          exact or_left_comm

/-- A name that is put at its place keeps the names in ascending order. -/
theorem pairwise_insertName (name : String) {names : List String} (h : names.Pairwise (· < ·)) :
    (insertName name names).Pairwise (· < ·) := by
  induction names with
  | nil => exact List.pairwise_singleton _ _
  | cons head tail ih =>
      obtain ⟨hhead, htail⟩ := List.pairwise_cons.1 h
      rw [insertName]
      split
      · next hbefore =>
          exact List.pairwise_cons.2 ⟨List.forall_mem_cons.2
            ⟨hbefore, fun other hother => lt_trans hbefore (hhead other hother)⟩, h⟩
      · next hbefore =>
          split
          · exact h
          · next hother =>
              refine List.pairwise_cons.2 ⟨fun other hmem => ?_, ih htail⟩
              rcases mem_insertName.1 hmem with rfl | hmem
              · exact lt_of_le_of_ne (not_lt.1 hbefore) (Ne.symm hother)
              · exact hhead other hmem

theorem mem_sortNames {name : String} {names : List String} :
    name ∈ sortNames names ↔ name ∈ names := by
  induction names with
  | nil => exact Iff.rfl
  | cons head tail ih =>
      rw [sortNames, List.foldr_cons, ← sortNames, mem_insertName, ih, List.mem_cons]

theorem pairwise_sortNames (names : List String) : (sortNames names).Pairwise (· < ·) := by
  induction names with
  | nil => exact .nil
  | cons head tail ih => exact pairwise_insertName head ih

/-- Names that are picked out stay in ascending order, and such a list is made out by its names. -/
theorem sortNames_filter (names : List String) (p : String → Bool) :
    sortNames (names.filter p) = (sortNames names).filter p := by
  refine (pairwise_sortNames _).eq_of_mem_iff ((pairwise_sortNames names).filter p) fun name => ?_
  rw [mem_sortNames, List.mem_filter, List.mem_filter, mem_sortNames]

theorem mem_variableNames {name : String} {d : Dim} : name ∈ d.variableNames ↔ name ∈ d.leafNames :=
  mem_sortNames

theorem leafNames_fold (op : DimOp) (lhs rhs : Dim) :
    (fold op lhs rhs).leafNames = lhs.leafNames ++ rhs.leafNames := by
  obtain ⟨a, b, v, rfl, rfl, _, hfold⟩ | ⟨hfold, _⟩ := fold_cases op lhs rhs
  · rw [hfold]
    rfl
  · rw [hfold, leafNames]

theorem leafNames_substitute (d : Dim) (bindings : Bindings) :
    (d.substitute bindings).leafNames = d.leafNames.filter fun name => (bindings name).isNone := by
  induction d with
  | const v => rfl
  | var name =>
      rw [substitute, leafNames, List.filter_cons]
      cases bindings name <;> rfl
  | node op lhs rhs ihl ihr =>
      rw [substitute, leafNames_fold, ihl, ihr, leafNames, List.filter_append]

theorem variableNames_substitute (d : Dim) (bindings : Bindings) :
    (d.substitute bindings).variableNames =
      d.variableNames.filter fun name => (bindings name).isNone := by
  rw [variableNames, leafNames_substitute, sortNames_filter, variableNames]

theorem variableNames_simplify (d : Dim) : d.simplify.variableNames = d.variableNames := by
  rw [simplify_eq_substitute, variableNames_substitute]
  exact List.filter_eq_self.2 fun _ _ => rfl

/-- Folding leads to a folded tree, which it then leaves alone; substituting nothing is folding,
substitution folds what it makes at every level, and two substitutions one after the other are both
at once; the names that are left are those that are not bound. -/
theorem folding_normalises (d : Dim) (first second : Bindings) :
    (d.simplify.Folded ∧ (d.Folded ↔ d.simplify = d) ∧ d.simplify.simplify = d.simplify) ∧
    d.substitute .empty = d.simplify ∧
      (∀ op lhs rhs, (node op lhs rhs).substitute
          first = (node op (lhs.substitute first) (rhs.substitute first)).simplify) ∧
      (d.substitute first).substitute second = d.substitute (first.extend second) ∧
      (d.substitute first).variableNames = (d.variableNames.filter fun name =>
        (first name).isNone) ∧ d.simplify.variableNames = d.variableNames := by
  refine ⟨⟨d.folded_simplify, folded_iff, d.folded_simplify.simplify_eq⟩,
    d.simplify_eq_substitute.symm, fun op lhs rhs => substitute_node op lhs rhs first, ?_⟩
  exact ⟨d.substitute_substitute
    first second, d.variableNames_substitute first, d.variableNames_simplify⟩

end Dim

end TensorDataflow
