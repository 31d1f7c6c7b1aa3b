import Mathlib.Algebra.Ring.Int.Defs
import TensorDataflow.Proofs.Dim.NormalForm
/-!
# Words and integers

The words that a tree is evaluated in wrap around; read over the integers, `Dim.exact`, it has the
value that is meant. An operator on words gives the wrapped value of the same operator on integers
(`DimOp.map_toInt_apply`), so a tree has its exact value where none of its parts leaves the range of
a word. Sums, differences and products pass through wrapping, and with these alone what overflows on
the way makes no difference to the remainder that is left in the end; a quotient, a remainder or a
comparison of a wrapped value is something else. A tree has no value exactly where a name is unbound
or a divisor is zero, and that is the same zero whether or not it came about by wrapping.
-/

namespace TensorDataflow

namespace DimOp

/-- The operators that have no value for a zero on the right. -/
def Divides (op : DimOp) : Prop := op = div ∨ op = mod

/-- The operators that pass through wrapping. -/
def Modular (op : DimOp) : Prop := op = add ∨ op = sub ∨ op = mul

instance (op : DimOp) : Decidable op.Modular :=
  inferInstanceAs (Decidable (op = add ∨ op = sub ∨ op = mul))

/-- The operators over the integers; division and remainder go toward zero. -/
def exact : DimOp → Int → Int → Option Int
  | add, a, b => some (a + b)
  | sub, a, b => some (a - b)
  | mul, a, b => some (a * b)
  | div, a, b => if b = 0 then none else some (a.tdiv b)
  | mod, a, b => if b = 0 then none else some (a.tmod b)
  | min, a, b => some (if a ≤ b then a else b)
  | max, a, b => some (if a ≤ b then b else a)

theorem apply_eq_none_iff {op : DimOp} {a b : Int64} :
    op.apply a b = none ↔ op.Divides ∧ b = 0 := by
  cases op <;> simp [apply, Divides]

theorem toInt_eq_zero_iff {a : Int64} : a.toInt = 0 ↔ a = 0 := Int64.toInt_inj (y := 0)

/-- A word does not wrap. -/
theorem bmod_toInt (a : Int64) : a.toInt.bmod (2 ^ 64) = a.toInt := a.toInt_bmod

/-- What an operator gives on words is what it gives on the same integers, wrapped around. -/
theorem map_toInt_apply (op : DimOp) (a b : Int64) :
    (op.apply a b).map Int64.toInt = (op.exact a.toInt b.toInt).map fun x => x.bmod (2 ^ 64) := by
  cases op with
  | add => rw [apply, exact, Option.map_some, Option.map_some, Int64.toInt_add]
  | sub => rw [apply, exact, Option.map_some, Option.map_some, Int64.toInt_sub]
  | mul => rw [apply, exact, Option.map_some, Option.map_some, Int64.toInt_mul]
  | div =>
      by_cases hzero : b = 0
      · rw [apply, exact, if_pos hzero, if_pos (toInt_eq_zero_iff.2 hzero), Option.map_none,
          Option.map_none]
      · rw [apply, exact, if_neg hzero, if_neg (hzero ∘ toInt_eq_zero_iff.1), Option.map_some,
          Option.map_some, Int64.toInt_div]
  | mod =>
      by_cases hzero : b = 0
      · rw [apply, exact, if_pos hzero, if_pos (toInt_eq_zero_iff.2 hzero), Option.map_none,
          Option.map_none]
      · rw [apply, exact, if_neg hzero, if_neg (hzero ∘ toInt_eq_zero_iff.1), Option.map_some,
          Option.map_some, ← Int64.toInt_mod, bmod_toInt]
  | min =>
      by_cases hle : a ≤ b
      · rw [apply, exact, if_pos hle, if_pos (Int64.le_iff_toInt_le.1 hle), Option.map_some,
          Option.map_some, bmod_toInt]
      · rw [apply, exact, if_neg hle, if_neg (hle ∘ Int64.le_iff_toInt_le.2), Option.map_some,
          Option.map_some, bmod_toInt]
  | max =>
      by_cases hle : a ≤ b
      · rw [apply, exact, if_pos hle, if_pos (Int64.le_iff_toInt_le.1 hle), Option.map_some,
          Option.map_some, bmod_toInt]
      · rw [apply, exact, if_neg hle, if_neg (hle ∘ Int64.le_iff_toInt_le.2), Option.map_some,
          Option.map_some, bmod_toInt]

/-- Wrapping the operands first makes no difference to the wrapped value. -/
theorem Modular.exact_bmod {op : DimOp} (h : op.Modular) (x y : Int) (m : Nat) :
    (op.exact (x.bmod m) (y.bmod m)).map (fun z => z.bmod m) =
      (op.exact x y).map fun z => z.bmod m := by
  obtain rfl | rfl | rfl := h
  · rw [exact, exact, Option.map_some, Option.map_some, ← Int.add_bmod]
  · rw [exact, exact, Option.map_some, Option.map_some, Int.sub_bmod_bmod, Int.bmod_sub_bmod]
  · rw [exact, exact, Option.map_some, Option.map_some, Int.mul_bmod_bmod, Int.bmod_mul_bmod]

end DimOp

namespace Dim

/-- The tree and all trees below it. -/
def parts : Dim → List Dim
  | const v => [const v]
  | var name => [var name]
  | node op lhs rhs => node op lhs rhs :: (lhs.parts ++ rhs.parts)

/-- The value over the integers, in which nothing wraps. -/
def exact (bindings : Bindings) : Dim → Option Int
  | const v => some v.toInt
  | var name => (bindings name).map Int64.toInt
  | node op lhs rhs => do
      let a ← lhs.exact bindings
      let b ← rhs.exact bindings
      op.exact a b

/-- Sums, differences and products of constants and variables. -/
def Polynomial : Dim → Prop
  | const _ => True
  | var _ => True
  | node op lhs rhs => op.Modular ∧ lhs.Polynomial ∧ rhs.Polynomial

instance decidablePolynomial : ∀ d : Dim, Decidable d.Polynomial
  | const _ => .isTrue trivial
  | var _ => .isTrue trivial
  | node op lhs rhs =>
      have := decidablePolynomial lhs
      have := decidablePolynomial rhs
      inferInstanceAs (Decidable (op.Modular ∧ lhs.Polynomial ∧ rhs.Polynomial))

variable {bindings : Bindings}

theorem self_mem_parts (d : Dim) : d ∈ d.parts := by
  cases d <;> exact List.mem_cons_self

/-! ### Trees without a value -/

theorem evaluate_node_eq_none_iff {op : DimOp} {lhs rhs : Dim} :
    (node op lhs rhs).evaluate bindings = none ↔ lhs.evaluate bindings = none ∨
    rhs.evaluate bindings = none ∨ op.Divides ∧ rhs.evaluate bindings = some 0 := by
  rw [evaluate]
  cases lhs.evaluate bindings with
  | none => exact iff_of_true rfl (.inl rfl)
  | some a =>
      cases rhs.evaluate bindings with
      | none => exact iff_of_true rfl (.inr (.inl rfl))
      | some b => simp [DimOp.apply_eq_none_iff]

theorem evaluate_eq_none_iff {d : Dim} : d.evaluate bindings = none ↔
    (∃ name ∈ d.variableNames, bindings name = none) ∨
    ∃ op lhs rhs, node op lhs rhs ∈ d.parts ∧ op.Divides ∧ rhs.evaluate bindings = some 0 := by
  simp only [mem_variableNames]
  induction d with
  | const v => simp [evaluate, leafNames, parts]
  | var name => simp [evaluate, leafNames, parts]
  | node op lhs rhs ihl ihr =>
      rw [evaluate_node_eq_none_iff, ihl, ihr]
      constructor
      · rintro ((⟨name, hname, hnone⟩ | ⟨op', l, r, hpart, hzero⟩) | (⟨name, hname, hnone⟩ | ⟨op',
          l, r, hpart, hzero⟩) | hzero)
        · exact .inl ⟨name, List.mem_append_left _ hname, hnone⟩
        · exact .inr ⟨op', l, r, List.mem_cons_of_mem _ (List.mem_append_left _ hpart), hzero⟩
        · exact .inl ⟨name, List.mem_append_right _ hname, hnone⟩
        · exact .inr ⟨op', l, r, List.mem_cons_of_mem _ (List.mem_append_right _ hpart), hzero⟩
        · exact .inr ⟨op, lhs, rhs, List.mem_cons_self, hzero⟩
      · rintro (⟨name, hname, hnone⟩ | ⟨op', l, r, hpart, hzero⟩)
        · rcases List.mem_append.1 hname with hname | hname
          · exact .inl (.inl ⟨name, hname, hnone⟩)
          · exact .inr (.inl (.inl ⟨name, hname, hnone⟩))
        · rcases List.mem_cons.1 hpart with hself | hbelow
          · cases hself
            exact .inr (.inr hzero)
          · rcases List.mem_append.1 hbelow with hpart | hpart
            · exact .inl (.inr ⟨op', l, r, hpart, hzero⟩)
            · exact .inr (.inl (.inr ⟨op', l, r, hpart, hzero⟩))

/-! ### Values -/

/-- A node has the wrapped value of its operator at the words below it. -/
theorem map_toInt_evaluate_node (op : DimOp) (lhs rhs : Dim) :
    ((node op lhs rhs).evaluate bindings).map Int64.toInt =
    (((lhs.evaluate bindings).map Int64.toInt).bind fun x =>
      ((rhs.evaluate bindings).map Int64.toInt).bind fun y => op.exact x y).map
        fun x => x.bmod (2 ^ 64) := by
  rw [evaluate]
  cases lhs.evaluate bindings with
  | none => rfl
  | some a =>
      cases rhs.evaluate bindings with
      | none => rfl
      | some b => exact op.map_toInt_apply a b

/-- Of sums, differences and products it does not matter what has wrapped on the way. -/
theorem Polynomial.map_toInt_evaluate {d : Dim} (h : d.Polynomial) :
    (d.evaluate bindings).map Int64.toInt = (d.exact bindings).map fun x => x.bmod (2 ^ 64) := by
  induction d with
  | const v => rw [evaluate, exact, Option.map_some, Option.map_some, DimOp.bmod_toInt]
  | var name =>
      rw [evaluate, exact]
      cases bindings name with
      | none => rfl
      | some v => rw [Option.map_some, Option.map_some, DimOp.bmod_toInt]
  | node op lhs rhs ihl ihr =>
      obtain ⟨hop, hlhs, hrhs⟩ := h
      rw [map_toInt_evaluate_node, ihl hlhs, ihr hrhs, exact]
      cases lhs.exact bindings with
      | none => rfl
      | some x =>
          cases rhs.exact bindings with
          | none => rfl
          | some y => exact hop.exact_bmod x y (2 ^ 64)

/-- As long as no part leaves the range of a word, nothing wraps. -/
theorem map_toInt_evaluate {d : Dim}
    (h : ∀ part ∈ d.parts, ∀ x ∈ part.exact bindings, -2 ^ 63 ≤ x ∧ x < 2 ^ 63) :
    (d.evaluate bindings).map Int64.toInt = d.exact bindings := by
  induction d with
  | const v => rfl
  | var name => rfl
  | node op lhs rhs ihl ihr =>
      have hlhs :=
        ihl fun part hpart => h part (List.mem_cons_of_mem _ (List.mem_append_left _ hpart))
      have hrhs :=
        ihr fun part hpart => h part (List.mem_cons_of_mem _ (List.mem_append_right _ hpart))
      have hself := h _ (self_mem_parts _)
      rw [map_toInt_evaluate_node, hlhs, hrhs]
      change ((node op lhs rhs).exact bindings).map _ = _
      cases hvalue : (node op lhs rhs).exact bindings with
      | none => rfl
      | some x =>
          obtain ⟨hlow, hhigh⟩ := hself x hvalue
          rw [Option.map_some, Int.bmod_eq_of_le (by omega) (by omega)]

/-- A tree has no value exactly where a name in it is unbound or one of its divisors is zero; with
sums, differences and products alone its value is the exact one, wrapped around once; and it is the
exact one if no part of the tree leaves the range of a word. -/
theorem evaluation_exact (d : Dim) (bindings : Bindings) :
    (d.evaluate bindings = none ↔
        (∃ name ∈ d.variableNames, bindings name = none) ∨
        ∃ op lhs rhs, node op lhs rhs ∈ d.parts ∧ op.Divides ∧ rhs.evaluate bindings = some 0) ∧
      (d.Polynomial →
        (d.evaluate bindings).map Int64.toInt = (d.exact bindings).map fun x => x.bmod (2 ^ 64)) ∧
      ((∀ part ∈ d.parts, ∀ x ∈ part.exact bindings, -2 ^ 63 ≤ x ∧ x < 2 ^ 63) →
        (d.evaluate bindings).map Int64.toInt = d.exact bindings) :=
  ⟨evaluate_eq_none_iff, Polynomial.map_toInt_evaluate, map_toInt_evaluate⟩

/-- A product that can leave the range of a word, and five more. -/
def overrun : Dim := node .add (node .mul (const 4) (var "n")) (const 5)

/-- All seven operators. -/
def mixture : Dim :=
  node .max (node .min (node .div (var "n") (const 2)) (node .mod (var "n") (const 4)))
    (node .sub (node .mul (var "n") (const 3)) (node .add (var "n") (const 1)))

theorem evaluation_exact_overrun :
    (overrun.Polynomial ∧ overrun.exact (.ofList [("n", 4611686018427387904)]) = some (2 ^ 64 + 5) ∧
        (overrun.evaluate (.ofList [("n", 4611686018427387904)])).map Int64.toInt = some 5) ∧
      (∀ part ∈ mixture.parts, ∀ x ∈ part.exact (.ofList [("n", -7)]), -2 ^ 63 ≤ x ∧ x < 2 ^ 63) ∧
      (mixture.evaluate (.ofList [("n", -7)])).map Int64.toInt = some (-3) := by
  have hpolynomial : overrun.Polynomial := by decide
  have hexact : overrun.exact (.ofList [("n", 4611686018427387904)]) = some (2 ^ 64 + 5) := by
    decide
  have hwithin : ∀ part ∈ mixture.parts, ∀ x ∈ part.exact (.ofList [("n", -7)]), -2 ^ 63 ≤ x ∧
      x < 2 ^ 63 := by
    decide
  refine ⟨⟨hpolynomial, hexact, ?_⟩, hwithin, ?_⟩
  · rw [(evaluation_exact overrun _).2.1 hpolynomial, hexact]
    rfl
  · rw [(evaluation_exact mixture _).2.2 hwithin]
    rfl

end Dim

end TensorDataflow
