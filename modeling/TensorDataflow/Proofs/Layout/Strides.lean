import TensorDataflow.Proofs.Dim.NormalForm
import TensorDataflow.Proofs.Layout.RowMajor
/-!
# Contiguous strides of symbolic shapes

The contiguous stride of a constant shape is folded and that of any other shape is not, so laying
out a bound shape and binding a laid out shape go different ways: the products are built over
different extents, and folded at different times. They meet in the folded form. Under every
assignment the steps are the products of the later extents as words hold them, that is exactly where
the product fits. `Axes.contiguous_suffixProducts` states both.
-/

namespace TensorDataflow

theorem signedWord_eq_bmod (n : Nat) : signedWord n = (n : Int).bmod (2 ^ 64) := Int64.toInt_ofNat'

/-- A row-major step spans the elements of all later axes. -/
theorem getElem?_rowSteps {shape : List Nat} {i : Nat} (h : i < shape.length) :
    (rowSteps shape)[i]? = some (shape.drop (i + 1)).prod := by
  induction shape generalizing i with
  | nil => cases h
  | cons extent shape ih =>
      cases i with
      | zero => rfl
      | succ i => exact ih (Nat.lt_of_succ_lt_succ h)

theorem length_wordSteps (shape : List Nat) : (wordSteps shape).length = shape.length := by
  rw [wordSteps, List.length_map, length_rowSteps]

theorem getElem?_wordSteps {shape : List Nat} {i : Nat} (h : i < shape.length) :
    (wordSteps shape)[i]? = some (signedWord (shape.drop (i + 1)).prod) := by
  rw [wordSteps, List.getElem?_map, getElem?_rowSteps h, Option.map_some]

namespace Axes

variable {role : AxisRole}

theorem substitute_simplify (axes : Axes role) (bindings : Bindings) :
    axes.simplify.substitute bindings = axes.substitute bindings := by
  simp only [simplify, substitute, List.map_map, Function.comp_def, Dim.simplify_eq_substitute,
    Dim.substitute_substitute, Bindings.empty_extend]

theorem simplify_simplify (axes : Axes role) : axes.simplify.simplify = axes.simplify := by
  simp only [simplify, List.map_map, Function.comp_def, (Dim.folded_simplify _).simplify_eq]

/-- Products of bound extents, folded afterwards, are the bound products. -/
theorem suffixProducts_substitute (bindings : Bindings) (dims : List Dim) :
    (suffixProducts (dims.map (Dim.substitute bindings))).1.simplify =
      (suffixProducts dims).1.substitute bindings ∧
      (suffixProducts (dims.map (Dim.substitute bindings))).2.map Dim.simplify =
        (suffixProducts dims).2.map (Dim.substitute bindings) := by
  induction dims with
  | nil => exact ⟨rfl, rfl⟩
  | cons d dims ih =>
      obtain ⟨hproduct, hsteps⟩ := ih
      rw [List.map_cons, suffixProducts_cons, suffixProducts_cons, List.map_cons, List.map_cons,
        hproduct, hsteps]
      refine ⟨?_, rfl⟩
      rw [Dim.simplify, hproduct, Dim.simplify_substitute, Dim.substitute]

/-- Folded once more, a contiguous stride does not show whether its shape was constant. -/
theorem simplify_contiguous (shape : Shape) :
    shape.contiguous.simplify = ⟨(suffixProducts shape.dims).2.map Dim.simplify⟩ := by
  rw [contiguous]
  split
  · exact simplify_simplify _
  · rfl

theorem substitute_contiguous (bindings : Bindings) (shape : Shape) : shape.contiguous.substitute
      bindings = ⟨(suffixProducts shape.dims).2.map (Dim.substitute bindings)⟩ := by
  rw [contiguous]
  split
  · exact substitute_simplify _ bindings
  · rfl

theorem contiguous_substitute (bindings : Bindings) (shape : Shape) :
    (shape.substitute bindings).contiguous.simplify = shape.contiguous.substitute bindings := by
  rw [simplify_contiguous, substitute_contiguous, substitute,
    (suffixProducts_substitute bindings shape.dims).2]

/-- Binding a shape and laying it out row by row gives, once folded, the bound stride; and under
every assignment that settles the shape each step is the product of the later extents, wrapped to a
signed word, which is that product where it fits. -/
theorem contiguous_suffixProducts (shape : Shape) (bindings : Bindings) :
    (shape.substitute bindings).contiguous.simplify = shape.contiguous.substitute bindings ∧
      ∀ (env : Bindings) (extents : List Nat), shape.evaluate env = some extents → ∃ steps :
      List Int, shape.contiguous.evaluate env = some steps ∧ steps.length = extents.length ∧
        ∀ i < extents.length, steps[i]? = some (((extents.drop (i + 1)).prod : Int).bmod (2 ^ 64)) ∧
          ((extents.drop (i + 1)).prod < 2 ^ 63 →
            steps[i]? = some ((extents.drop (i + 1)).prod : Int)) := by
  refine ⟨contiguous_substitute bindings shape, fun env extents hextents => ⟨wordSteps extents,
      evaluate_contiguous hextents, length_wordSteps extents, fun i hi => ⟨?_, fun hfits => ?_⟩⟩⟩
  · rw [getElem?_wordSteps hi, signedWord_eq_bmod]
  · rw [getElem?_wordSteps hi, signedWord_of_lt hfits]

/-- Blocks of as many rows as columns, the number of blocks and of rows left open. -/
def squareBlocks : Shape := ⟨[.var "b", .var "n", .var "n"]⟩

/-- With as many rows as half a word counts the step from block to block wraps around, and the step
from row to row does not. -/
theorem contiguous_suffixProducts_wrapped :
    squareBlocks.evaluate (.ofList [("b", 2), ("n", 4294967296)]) =
      some [2, 4294967296, 4294967296] ∧
      squareBlocks.contiguous.evaluate (.ofList [("b", 2), ("n", 4294967296)]) =
        some [0, 4294967296, 1] := by
  have hextents : squareBlocks.evaluate (.ofList [("b", 2), ("n", 4294967296)]) =
      some [2, 4294967296, 4294967296] := by
    decide +kernel
  refine ⟨hextents, ?_⟩
  obtain ⟨steps, hsteps, hlength, hall⟩ :=
    (contiguous_suffixProducts squareBlocks .empty).2 _ _ hextents
  obtain ⟨first, second, third, rfl⟩ : ∃ first second third, steps = [first, second, third] :=
    List.length_eq_three.1 hlength
  have hfirst := (hall 0 (by decide)).1
  have hsecond := (hall 1 (by decide)).2 (by decide)
  have hthird := (hall 2 (by decide)).2 (by decide)
  cases hfirst
  cases hsecond
  cases hthird
  exact hsteps

end Axes

end TensorDataflow
