import TensorDataflow.Dim.Axes
/-!
# What folding keeps

Folding and substituting build their trees through `Dim.fold`, so all that is known about the two
comes from what that one constructor does to each reading of a tree: it has the value of the node,
it is a constant where the operands are constants and the operator has a value, and substitution
passes through it. From these three, a tree under an assignment is a constant exactly when the tree
has a value there, which is then that constant; what one assignment leaves open a second one settles
as both together would have; and folding alone is substituting nothing.
`Dim.partialEvaluation_exact` says this of dimensions and of the sequences made of them.
-/

namespace TensorDataflow

@[simp] theorem Bindings.empty_extend (bindings : Bindings) :
    Bindings.empty.extend bindings = bindings :=
  rfl

namespace Dim

/-! ### One node -/

/-- A folded node is the operator's value at two constants, or the node itself where there is
none. -/
theorem fold_cases (op : DimOp) (lhs rhs : Dim) :
    (∃ a b v, lhs = const a ∧ rhs = const b ∧ op.apply a b = some v ∧ fold op lhs rhs = const v) ∨
      (fold op lhs rhs = node op lhs rhs ∧ ∀ a b, lhs = const a → rhs = const b →
        op.apply a b = none) := by
  cases lhs with
  | var name => exact .inr ⟨rfl, fun _ _ h => nomatch h⟩
  | node op' l r => exact .inr ⟨rfl, fun _ _ h => nomatch h⟩
  | const a =>
      cases rhs with
      | var name => exact .inr ⟨rfl, fun _ _ _ h => nomatch h⟩
      | node op' l r => exact .inr ⟨rfl, fun _ _ _ h => nomatch h⟩
      | const b =>
          cases hvalue : op.apply a b with
          | some v => exact .inl ⟨a, b, v, rfl, rfl, hvalue, by rw [fold, hvalue, Option.elim_some]⟩
          | none =>
              refine .inr ⟨by rw [fold, hvalue, Option.elim_none], fun a' b' ha hb => ?_⟩
              cases ha
              cases hb
              exact hvalue

theorem evaluate_fold (op : DimOp) (lhs rhs : Dim) (bindings : Bindings) :
    (fold op lhs rhs).evaluate bindings = (node op lhs rhs).evaluate bindings := by
  obtain ⟨a, b, v, rfl, rfl, hvalue, hfold⟩ | ⟨hfold, _⟩ := fold_cases op lhs rhs
  · rw [hfold]
    exact hvalue.symm
  · rw [hfold]

theorem constant?_fold (op : DimOp) (lhs rhs : Dim) : (fold op lhs rhs).constant? =
      lhs.constant?.bind fun a => rhs.constant?.bind fun b => op.apply a b := by
  obtain ⟨a, b, v, rfl, rfl, hvalue, hfold⟩ | ⟨hfold, hnone⟩ := fold_cases op lhs rhs
  · rw [hfold]
    exact hvalue.symm
  · rw [hfold]
    cases lhs with
    | var name => rfl
    | node op' l r => rfl
    | const a =>
        cases rhs with
        | var name => rfl
        | node op' l r => rfl
        | const b => exact (hnone a b rfl rfl).symm

/-- Substitution passes through folding: what has been folded is a constant, which no assignment
touches. -/
theorem substitute_fold (op : DimOp) (lhs rhs : Dim) (bindings : Bindings) :
    (fold op lhs rhs).substitute bindings =
      fold op (lhs.substitute bindings) (rhs.substitute bindings) := by
  obtain ⟨a, b, v, rfl, rfl, _, hfold⟩ | ⟨hfold, _⟩ := fold_cases op lhs rhs
  · rw [hfold]
    exact hfold.symm
  · rw [hfold, substitute]

/-! ### Whole trees -/

theorem simplify_eq_substitute (d : Dim) : d.simplify = d.substitute .empty := by
  induction d with
  | const v => rfl
  | var name => rfl
  | node op lhs rhs ihl ihr => rw [simplify, substitute, ihl, ihr]

theorem evaluate_substitute (d : Dim) (first second : Bindings) :
    (d.substitute first).evaluate second = d.evaluate (first.extend second) := by
  induction d with
  | const v => rfl
  | var name =>
      rw [substitute, evaluate, Bindings.extend]
      cases first name <;> rfl
  | node op lhs rhs ihl ihr => rw [substitute, evaluate_fold, evaluate, evaluate, ihl, ihr]

theorem evaluate_simplify (d : Dim) (bindings : Bindings) :
    d.simplify.evaluate bindings = d.evaluate bindings := by
  rw [simplify_eq_substitute, evaluate_substitute, Bindings.empty_extend]

/-- Substitution leaves a constant exactly where evaluation finds a value. -/
theorem constant?_substitute (d : Dim) (bindings : Bindings) :
    (d.substitute bindings).constant? = d.evaluate bindings := by
  induction d with
  | const v => rfl
  | var name =>
      rw [substitute, evaluate]
      cases bindings name <;> rfl
  | node op lhs rhs ihl ihr =>
      rw [substitute, constant?_fold, ihl, ihr]
      rfl

/-- Two assignments one after the other are both at once, and give the same tree. -/
theorem substitute_substitute (d : Dim) (first second : Bindings) :
    (d.substitute first).substitute second = d.substitute (first.extend second) := by
  induction d with
  | const v => rfl
  | var name =>
      rw [substitute, substitute, Bindings.extend]
      cases first name <;> rfl
  | node op lhs rhs ihl ihr => rw [substitute, substitute_fold, ihl, ihr, substitute]

end Dim

namespace Axes

variable {role : AxisRole}

theorem substitute_substitute (axes : Axes role) (first second : Bindings) :
    (axes.substitute first).substitute second = axes.substitute (first.extend second) := by
  simp only [substitute, List.map_map, Function.comp_def, Dim.substitute_substitute]

theorem evaluate_simplify (axes : Axes role) (bindings : Bindings) :
    axes.simplify.evaluate bindings = axes.evaluate bindings := by
  simp only [evaluate, simplify, List.mapM_map, Function.comp_def, Dim.evaluate_simplify]

theorem values?_substitute (axes : Axes role) (bindings : Bindings) :
    (axes.substitute bindings).values? = axes.evaluate bindings := by
  simp only [values?, evaluate, substitute, List.mapM_map, Function.comp_def,
    Dim.constant?_substitute]

theorem values_eq_ok_iff {axes : Axes role} {vs : List role.Value} :
    axes.values = .ok vs ↔ axes.values? = some vs := by
  unfold values
  cases axes.values? <;> simp

end Axes

/-- Folding keeps every value; substituting an assignment and evaluating under another evaluates
under both, the first one winning; what an assignment settles becomes a constant and nothing else
does; and a sequence of dimensions has concrete entries under an assignment exactly if it can be
evaluated there. -/
theorem Dim.partialEvaluation_exact (d : Dim) (bindings first second : Bindings) (role : AxisRole)
    (axes : Axes role) (vs : List role.Value) :
    d.simplify.evaluate bindings = d.evaluate bindings ∧
    (d.substitute first).evaluate second = d.evaluate (first.extend second) ∧
      (d.substitute bindings).constant? = d.evaluate bindings ∧
      d.simplify.constant? = d.evaluate .empty ∧
      ((axes.substitute bindings).values = .ok vs ↔ axes.evaluate bindings = some vs) := by
  refine ⟨d.evaluate_simplify bindings,
    d.evaluate_substitute first second, d.constant?_substitute bindings, ?_, ?_⟩
  · rw [simplify_eq_substitute, constant?_substitute]
  · rw [Axes.values_eq_ok_iff, Axes.values?_substitute]

end TensorDataflow
