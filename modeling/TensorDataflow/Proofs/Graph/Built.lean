import TensorDataflow.Proofs.Graph.Arrangement
/-!
# Built graphs

In a graph that has only been built, nothing taken away from it, every link leads to something that
answers it. Where no tensor is made by two operators, the producer that a tensor names is the
operator that has it for an output, so links are even towards every operator that no other tells
twice for one slot.
-/

namespace TensorDataflow

namespace Graph

/-- Every link leads to something in the graph. -/
structure Closed (g : Graph) : Prop where
  sources : ∀ t ∈ g.tensors, ∀ n, t.source = some n → ∃ a ∈ g.ops, a.id = n
  targets : ∀ t ∈ g.tensors, ∀ n ∈ t.targets, ∃ c ∈ g.ops, c.id = n
  inputs : ∀ c ∈ g.ops, ∀ id ∈ c.inputs, ∃ t ∈ g.tensors, t.id = id
  outputs : ∀ a ∈ g.ops, ∀ id ∈ a.outputs, ∃ t ∈ g.tensors, t.id = id ∧ t.source ≠ none
  predecessors : ∀ c ∈ g.ops, ∀ n ∈ c.predecessors, ∃ a ∈ g.ops, a.id = n ∧ c.id ∈ a.successors
  successors : ∀ a ∈ g.ops, ∀ n ∈ a.successors, ∃ c ∈ g.ops, c.id = n

namespace Closed

theorem empty : Closed .empty := by
  constructor <;> simp [Graph.empty]

theorem tensor {g : Graph} (h : Closed g) {t : Tensor} (hsource : t.source = none)
    (htargets : t.targets = []) :
    Closed { g with tensors := g.tensors ++ [t] } where
  sources u hu n hn := by
    rcases List.mem_append.1 hu with hu | hu
    · exact h.sources u hu n hn
    · rw [List.mem_singleton.1 hu, hsource] at hn
      cases hn
  targets u hu n hn := by
    rcases List.mem_append.1 hu with hu | hu
    · exact h.targets u hu n hn
    · rw [List.mem_singleton.1 hu, htargets] at hn
      cases hn
  inputs c hc id hin := by
    obtain ⟨u, hu, hid⟩ := h.inputs c hc id hin
    exact ⟨u, List.mem_append_left _ hu, hid⟩
  outputs a ha id hout := by
    obtain ⟨u, hu, hid⟩ := h.outputs a ha id hout
    exact ⟨u, List.mem_append_left _ hu, hid⟩
  predecessors := h.predecessors
  successors := h.successors

section Connect

variable {g : Graph} {op : Operator} (hpreds : op.predecessors = []) (hsuccs : op.successors = [])

theorem old_mem_connect {a : Operator} (ha : a ∈ g.ops) :
    preceded op.id (g.followersOf op) (g.followed op.id op.inputs a) ∈ (g.connect op).ops := by
  rw [connect_eq]
  exact List.mem_append_left _ (List.mem_map_of_mem ha)

theorem tensor_mem_connect {t : Tensor} (ht : t ∈ g.tensors) :
    produced op.id op.outputs (consumed op.id op.inputs t) ∈ (g.connect op).tensors := by
  rw [connect_eq]
  exact List.mem_map_of_mem ht

theorem exists_mem_tensors_connect {id : TensorId} {t : Tensor} (ht : g.tensor? id = some t) :
    ∃ u ∈ (g.connect op).tensors, u.id = id :=
  ⟨_, tensor_mem_connect (mem_of_tensor? ht), (id_of_tensor? ht : t.id = id)⟩

include hpreds hsuccs

theorem new_mem_connect :
    { op with predecessors := op.inputs.filterMap g.sourceOf, successors := g.followersOf op } ∈
      (g.connect op).ops := by
  rw [connect_eq, hpreds, hsuccs]
  exact List.mem_append_right _ List.mem_cons_self

theorem exists_mem_ops_connect {n : OpId} (hn : (∃ a ∈ g.ops, a.id = n) ∨ n = op.id) :
    ∃ a ∈ (g.connect op).ops, a.id = n := by
  rcases hn with ⟨a, ha, rfl⟩ | rfl
  · exact ⟨_, old_mem_connect ha, rfl⟩
  · exact ⟨_, new_mem_connect hpreds hsuccs, rfl⟩

/-- A connection leads everything that it links to something that answers. -/
theorem connect (h : Closed g) (hinputs : ∀ id ∈ op.inputs, ∃ t, g.tensor? id = some t)
    (houtputs : ∀ id ∈ op.outputs, ∃ t, g.tensor? id = some t) : Closed (g.connect op) := by
  have htarget : ∀ t ∈ g.tensors, ∀ n ∈ (consumed op.id op.inputs t).targets,
      ∃ a ∈ (g.connect op).ops, a.id = n := by
    intro t ht n hn
    rcases List.mem_append.1 hn with hn | hn
    · exact exists_mem_ops_connect hpreds hsuccs (.inl (h.targets t ht n hn))
    · exact exists_mem_ops_connect hpreds hsuccs (.inr (List.eq_of_mem_replicate hn))
  constructor
  case sources =>
    intro t ht n hn
    obtain ⟨t₀, ht₀, rfl⟩ := mem_tensors_connect op ht
    rcases (source_produced _ _ _ _).1 hn with ⟨_, rfl⟩ | ⟨_, hn⟩
    · exact exists_mem_ops_connect hpreds hsuccs (.inr rfl)
    · exact exists_mem_ops_connect hpreds hsuccs (.inl (h.sources t₀ ht₀ n hn))
  case targets =>
    intro t ht n hn
    obtain ⟨t₀, ht₀, rfl⟩ := mem_tensors_connect op ht
    exact htarget t₀ ht₀ n hn
  case inputs =>
    intro c hc id hin
    rcases mem_ops_connect op hpreds hsuccs hc with ⟨c₀, hc₀, rfl⟩ | rfl
    · obtain ⟨t, ht, rfl⟩ := h.inputs c₀ hc₀ id hin
      exact ⟨_, tensor_mem_connect ht, rfl⟩
    · obtain ⟨t, ht⟩ := hinputs id hin
      exact exists_mem_tensors_connect ht
  case outputs =>
    intro a ha id hout
    rcases mem_ops_connect op hpreds hsuccs ha with ⟨a₀, ha₀, rfl⟩ | rfl
    · obtain ⟨t, ht, rfl, hsource⟩ := h.outputs a₀ ha₀ id hout
      refine ⟨_, tensor_mem_connect ht, rfl, ?_⟩
      by_cases hagain : t.id ∈ op.outputs
      · simp [produced, consumed, hagain]
      · simpa [produced, consumed, hagain] using hsource
    · obtain ⟨t, ht⟩ := houtputs id hout
      refine ⟨_, tensor_mem_connect (mem_of_tensor? ht), (id_of_tensor? ht : t.id = id), ?_⟩
      have hagain : t.id ∈ op.outputs := id_of_tensor? ht ▸ hout
      simp [produced, consumed, hagain]
  case predecessors =>
    intro c hc n hn
    rcases mem_ops_connect op hpreds hsuccs hc with ⟨c₀, hc₀, rfl⟩ | rfl
    · rcases List.mem_append.1 hn with hn | hn
      · obtain ⟨a, ha, rfl, hsucc⟩ := h.predecessors c₀ hc₀ n hn
        exact ⟨_, old_mem_connect ha, rfl, List.mem_append_left _ hsucc⟩
      · obtain ⟨hpos, rfl⟩ := List.mem_replicate.1 hn
        exact ⟨_, new_mem_connect hpreds hsuccs, rfl,
          List.count_pos_iff.1 (Nat.pos_of_ne_zero hpos)⟩
    · obtain ⟨id, hin, hsource⟩ := List.mem_filterMap.1 hn
      obtain ⟨t, ht, hn⟩ := Option.bind_eq_some_iff.1 hsource
      obtain ⟨a, ha, rfl⟩ := h.sources t (mem_of_tensor? ht) n hn
      refine ⟨_, old_mem_connect ha, rfl, List.mem_append_right _ (List.mem_replicate.2 ⟨?_, rfl⟩)⟩
      exact Nat.ne_of_gt (List.countP_pos_iff.2 ⟨id, hin, by simpa using hsource⟩)
  case successors =>
    intro a ha n hn
    rcases mem_ops_connect op hpreds hsuccs ha with ⟨a₀, ha₀, rfl⟩ | rfl
    · rcases List.mem_append.1 hn with hn | hn
      · exact exists_mem_ops_connect hpreds hsuccs (.inl (h.successors a₀ ha₀ n hn))
      · exact exists_mem_ops_connect hpreds hsuccs (.inr (List.eq_of_mem_replicate hn))
    · obtain ⟨id, hout, hn⟩ := List.mem_flatMap.1 hn
      obtain ⟨t, ht⟩ := houtputs id hout
      rw [targetsOf, tensor?_withInputs, ht] at hn
      exact htarget t (mem_of_tensor? ht) n hn

end Connect

end Closed

/-- No tensor is made by two operators. -/
def SingleProducer (g : Graph) : Prop :=
  ∀ a ∈ g.ops, ∀ b ∈ g.ops, ∀ id ∈ a.outputs, id ∈ b.outputs → a = b

instance (g : Graph) : Decidable g.SingleProducer :=
  inferInstanceAs (Decidable (∀ a ∈ g.ops, ∀ b ∈ g.ops, ∀ id ∈ a.outputs, id ∈ b.outputs → a = b))

section Even

variable {ids : IdSupply} {g : Graph} (hwired : Wired ids g) (hclosed : Closed g)
  (hsingle : g.SingleProducer)

include hwired hclosed hsingle

theorem sourceOf_eq_some_iff_mem_outputs {a : Operator} (ha : a ∈ g.ops) {id : TensorId} :
    g.sourceOf id = some a.id ↔ id ∈ a.outputs := by
  rw [sourceOf_eq_some_iff hwired.tensorIds]
  constructor
  · rintro ⟨t, ht, rfl, hsource⟩
    exact hwired.source a ha t ht hsource
  · intro hout
    obtain ⟨t, ht, rfl, hsome⟩ := hclosed.outputs a ha id hout
    obtain ⟨n, hn⟩ := Option.ne_none_iff_exists'.1 hsome
    obtain ⟨b, hb, rfl⟩ := hclosed.sources t ht n hn
    exact ⟨t, ht, rfl, by rw [hn, hsingle a ha b hb t.id hout (hwired.source b hb t ht hn)]⟩

theorem evenTo_of_not_doubles {c : Operator} (hc : c ∈ g.ops)
    (hdoubles : ∀ a ∈ g.ops, ¬ a.Doubles c) : g.EvenTo c := by
  intro a ha
  refine Nat.le_antisymm (Nat.le_trans (hwired.notTooMany a ha c hc (hdoubles a ha)) ?_)
    (hwired.enough a ha c hc)
  exact List.countP_mono_left fun id _ hout => by
    simpa [sourceOf_eq_some_iff_mem_outputs hwired hclosed hsingle ha] using hout

end Even

end Graph

namespace Draft

theorem Grows.closed {d d' : Draft} (h : Grows d d') (hclosed : d.graph.Closed) :
    d'.graph.Closed := by
  induction h with
  | refl => exact hclosed
  | elsewhere _ _ _ ih => exact ih
  | tensor _ hmake ih =>
      obtain ⟨_, rfl⟩ := Tensor.make_eq_ok hmake
      exact ih.tensor rfl rfl
  | operator _ hfits ih => exact ih.connect rfl rfl hfits.inputs_there hfits.outputs_there

theorem Grows.unsorted {d d' : Draft} (h : Grows d d') (hunsorted : d.graph.sorted = false) :
    d'.graph.sorted = false := by
  induction h with
  | refl => exact hunsorted
  | elsewhere _ _ _ ih => exact ih
  | tensor _ _ ih => exact ih
  | operator _ _ _ => rw [pushOperator, Graph.connect_eq]

theorem built_closed (steps : List BuildStep) : (built steps).graph.Closed :=
  (built_grows steps).closed .empty

theorem built_unsorted (steps : List BuildStep) : (built steps).graph.sorted = false :=
  (built_grows steps).unsorted rfl

end Draft

end TensorDataflow
