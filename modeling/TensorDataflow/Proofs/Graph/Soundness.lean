import TensorDataflow.Graph.Validity
import TensorDataflow.Proofs.Graph.Takings
import TensorDataflow.Proofs.Graph.Links
/-!
# What a checked graph has

The check of a graph passes over numbers, tensors and operators and stops at the first flaw.
`Graph.checkValid_eq_ok_iff` says which graphs it lets through, link by link.
-/

namespace TensorDataflow

namespace Graph

/-- No number is used twice, every tensor is used, and every link leads to something that answers
it. -/
structure Valid (g : Graph) : Prop where
  tensorIds : (g.tensors.map Tensor.id).Nodup
  opIds : (g.ops.map Operator.id).Nodup
  used : ∀ t ∈ g.tensors, t.source ≠ none ∨ t.targets ≠ []
  source : ∀ t ∈ g.tensors, ∀ n, t.source = some n → ∃ a, g.operator? n = some a ∧ t.id ∈ a.outputs
  targets : ∀ t ∈ g.tensors, ∀ n ∈ t.targets, ∃ c, g.operator? n = some c ∧ t.id ∈ c.inputs
  inputs : ∀ op ∈ g.ops, ∀ id ∈ op.inputs, ∃ t, g.tensor? id = some t ∧ op.id ∈ t.targets
  outputs : ∀ op ∈ g.ops, ∀ id ∈ op.outputs, ∃ t, g.tensor? id = some t ∧ t.source = some op.id
  predecessors : ∀ op ∈ g.ops, ∀ n ∈ op.predecessors, ∃ a, g.operator? n = some a ∧
    op.id ∈ a.successors
  successors : ∀ op ∈ g.ops, ∀ n ∈ op.successors, ∃ c, g.operator? n = some c ∧
    op.id ∈ c.predecessors

theorem firstRepeat?_eq_none_iff {seen xs : List Nat} :
    firstRepeat? seen xs = none ↔ xs.Nodup ∧ ∀ x ∈ xs, x ∉ seen := by
  induction xs generalizing seen with
  | nil => simp [firstRepeat?]
  | cons x xs ih =>
      rw [firstRepeat?]
      by_cases hx : x ∈ seen
      · simp [hx]
      · simp only [List.contains_iff_mem, hx, if_false, ih, List.nodup_cons, List.mem_cons, not_or,
          forall_eq_or_imp, not_false_eq_true, true_and]
        constructor
        · rintro ⟨hnodup, hall⟩
          exact ⟨⟨fun hmem => (hall x hmem).1 rfl, hnodup⟩, fun y hy => (hall y hy).2⟩
        · rintro ⟨⟨hfresh, hnodup⟩, hall⟩
          exact ⟨hnodup, fun y hy => ⟨fun heq => hfresh (heq ▸ hy), hall y hy⟩⟩

theorem tensorFlaw?_eq_none_iff {g : Graph} {t : Tensor} :
    g.tensorFlaw? t = none ↔ (t.source ≠ none ∨ t.targets ≠ []) ∧
    (∀ n, t.source = some n → ∃ a, g.operator? n = some a ∧ t.id ∈ a.outputs) ∧
      ∀ n ∈ t.targets, ∃ c, g.operator? n = some c ∧ t.id ∈ c.inputs := by
  rw [tensorFlaw?]
  by_cases hisolated : t.source = none ∧ t.targets = []
  · simp [hisolated]
  · rw [if_neg (by simpa using hisolated)]
    have hused : t.source ≠ none ∨ t.targets ≠ [] := by
      rwa [not_and_or] at hisolated
    simp only [Option.or_eq_none_iff, Option.bind_eq_none_iff, List.findSome?_eq_none_iff,
      hused, true_and]
    refine and_congr (forall₂_congr fun n _ => ?_) (forall₂_congr fun n _ => ?_)
    · cases g.operator? n <;> simp
    · cases g.operator? n <;> simp

theorem operatorFlaw?_eq_none_iff {g : Graph} {op : Operator} :
    g.operatorFlaw? op = none ↔ (∀ id ∈ op.inputs, ∃ t, g.tensor? id = some t ∧ op.id ∈ t.targets) ∧
      (∀ id ∈ op.outputs, ∃ t, g.tensor? id = some t ∧ t.source = some op.id) ∧
      (∀ n ∈ op.predecessors, ∃ a, g.operator? n = some a ∧ op.id ∈ a.successors) ∧
      ∀ n ∈ op.successors, ∃ c, g.operator? n = some c ∧ op.id ∈ c.predecessors := by
  rw [operatorFlaw?]
  simp only [Option.or_eq_none_iff, List.findSome?_eq_none_iff]
  refine and_congr (forall₂_congr fun id _ => ?_) (and_congr (forall₂_congr fun id _ => ?_)
      (and_congr (forall₂_congr fun n _ => ?_) (forall₂_congr fun n _ => ?_)))
  · cases g.tensor? id <;> simp
  · cases g.tensor? id <;> simp
  · cases g.operator? n <;> simp
  · cases g.operator? n <;> simp

theorem checkValid_eq_ok_iff {g : Graph} : g.checkValid = .ok () ↔ g.Valid := by
  have hflaw : g.checkValid = .ok () ↔ g.flaw? = none := by
    rw [checkValid]
    cases g.flaw? <;> simp
  rw [hflaw, flaw?]
  simp only [Option.or_eq_none_iff, Option.map_eq_none_iff, List.findSome?_eq_none_iff,
    firstRepeat?_eq_none_iff, tensorFlaw?_eq_none_iff, operatorFlaw?_eq_none_iff]
  constructor
  · rintro ⟨⟨htensors, _⟩, ⟨hops, _⟩, htensor, hop⟩
    exact ⟨htensors, hops, fun t ht => (htensor t ht).1, fun t ht => (htensor t ht).2.1,
      fun t ht => (htensor t ht).2.2,
      fun op h => (hop op h).1, fun op h => (hop op h).2.1, fun op h => (hop op h).2.2.1,
      fun op h => (hop op h).2.2.2⟩
  · intro h
    exact ⟨⟨h.tensorIds, fun _ _ => List.not_mem_nil⟩, ⟨h.opIds, fun _ _ => List.not_mem_nil⟩,
      fun t ht => ⟨h.used t ht, h.source t ht, h.targets t ht⟩,
      fun op hop => ⟨h.inputs op hop, h.outputs op hop, h.predecessors op hop, h.successors op hop⟩⟩

theorem checkBeforeRun_eq_ok_iff {g : Graph} :
    g.checkBeforeRun = .ok () ↔ g.Valid ∧ g.sorted = true ∧ checkConcrete g.tensors = .ok () := by
  rw [← checkValid_eq_ok_iff, checkBeforeRun]
  cases g.checkValid with
  | error e => simp [bind, Except.bind]
  | ok _ =>
      cases hsorted : g.sorted <;> simp [bind, Except.bind, throw, throwThe, MonadExceptOf.throw]

end Graph

end TensorDataflow
