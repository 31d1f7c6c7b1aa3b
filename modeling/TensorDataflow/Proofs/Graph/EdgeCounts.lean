import Mathlib.Data.List.Perm.Basic
import Mathlib.Data.List.ProdSigma
import TensorDataflow.Proofs.Graph.Built
/-!
# How often operators are linked

An edge comes about in two ways. An operator that arrives finds the producer of each of its input
slots and is linked to it once for the slot; an operator that finds consumers at its outputs is
linked to each of them once for every pair of slots. `Graph.Counted` keeps both counts of a built
graph: which of the two applies shows in the numbers of the operators, and the two ends of an edge
name each other equally often, except that no operator names itself as predecessor.
-/

namespace TensorDataflow

/-- The pairs of an output slot of the one operator and an input slot of the other that hold the
same tensor. -/
def Operator.slotPairs (a c : Operator) : Nat :=
  (a.outputs.product c.inputs).countP fun pair => pair.1 = pair.2

theorem Operator.slotPairs_eq_sum (a c : Operator) :
    a.slotPairs c = (c.inputs.map a.outputs.count).sum := by
  have hrow : ∀ id,
      ((c.inputs.map (Prod.mk id)).countP fun pair => pair.1 = pair.2) = c.inputs.count id := by
    intro id
    rw [List.countP_map, List.count]
    refine List.countP_congr fun x _ => ?_
    simp only [Function.comp_apply, decide_eq_true_eq, beq_iff_eq]
    exact eq_comm
  have hswap := Graph.sum_count_swap (fun _ => True) a.outputs c.inputs
  simp only [if_true] at hswap
  rw [slotPairs, List.product, List.countP_flatMap, ← hswap]
  congr 1
  exact List.map_congr_left fun id _ => hrow id

theorem Operator.slotPairs_pos_iff {a c : Operator} :
    0 < a.slotPairs c ↔ ∃ id ∈ a.outputs, id ∈ c.inputs := by
  rw [slotPairs, List.countP_pos_iff]
  constructor
  · rintro ⟨⟨output, input⟩, hmem, heq⟩
    obtain ⟨hout, hin⟩ := List.mem_product.1 hmem
    have hsame : output = input := of_decide_eq_true heq
    exact ⟨output, hout, hsame ▸ hin⟩
  · rintro ⟨id, hout, hin⟩
    exact ⟨(id, id), List.mem_product.2 ⟨hout, hin⟩, decide_eq_true rfl⟩

namespace Graph

/-- The links between the operators of a graph, counted: an operator names one that was there before
it, or itself, once for each pair of slots, and the producers that were there before an operator
name it together once for each slot that they had filled. -/
structure Counted (ids : IdSupply) (g : Graph) : Prop where
  predecessorsKnown : ∀ c ∈ g.ops, ∀ n ∈ c.predecessors, n < ids.operator
  mirrored : ∀ a ∈ g.ops, ∀ c ∈ g.ops, c.predecessors.count a.id = if a.id = c.id then 0
    else a.successors.count c.id
  late : ∀ a ∈ g.ops, ∀ c ∈ g.ops, c.id ≤ a.id → a.successors.count c.id = a.slotPairs c
  early : ∀ c ∈ g.ops, (g.ops.map fun a => if a.id < c.id then a.successors.count c.id else 0).sum =
    c.inputs.countP fun id => ∃ a ∈ g.ops, a.id < c.id ∧ id ∈ a.outputs

theorem Counted.empty (ids : IdSupply) : Counted ids .empty := by
  constructor <;> simp [Graph.empty]

/-- Counts are a matter of the operators alone. -/
theorem Counted.congr {ids ids' : IdSupply} {g g' : Graph} (h : Counted ids g)
    (hops : g'.ops = g.ops) (hoperator : ids.operator ≤ ids'.operator) : Counted ids' g' where
  predecessorsKnown c hc n hn :=
    Nat.lt_of_lt_of_le (h.predecessorsKnown c (hops ▸ hc) n hn) hoperator
  mirrored := hops ▸ h.mirrored
  late := hops ▸ h.late
  early := hops ▸ h.early

/-- A slot holds something that an operator of the graph counts as having made exactly if one of
them has. -/
theorem sourceOf_any_iff {ids : IdSupply} {g : Graph} (hwired : Wired ids g) (hclosed : Closed g)
    (id : TensorId) :
    ((g.sourceOf id).any fun n => n ∈ g.ops.map Operator.id) = true ↔
    ∃ a ∈ g.ops, id ∈ a.outputs := by
  rw [Option.any_eq_true]
  constructor
  · rintro ⟨n, hsource, hn⟩
    obtain ⟨t, ht, rfl, hmade⟩ := (sourceOf_eq_some_iff hwired.tensorIds).1 hsource
    obtain ⟨a, ha, rfl⟩ := List.mem_map.1 (of_decide_eq_true hn)
    exact ⟨a, ha, hwired.source a ha t ht hmade⟩
  · rintro ⟨a, ha, hout⟩
    obtain ⟨t, ht, rfl, hsome⟩ := hclosed.outputs a ha id hout
    obtain ⟨n, hn⟩ := Option.ne_none_iff_exists'.1 hsome
    obtain ⟨b, hb, rfl⟩ := hclosed.sources t ht n hn
    exact ⟨b.id, (sourceOf_eq_some_iff hwired.tensorIds).2 ⟨t, ht, rfl, hn⟩,
      decide_eq_true (List.mem_map_of_mem hb)⟩

section Connect

variable {ids : IdSupply} {g : Graph} (hwired : Wired ids g) (h : Counted ids g) (op : Operator)
  (hid : op.id = ids.operator)
  (hpreds : op.predecessors = []) (hsuccs : op.successors = [])
  (houtputs : ∀ id ∈ op.outputs, ∃ t, g.tensor? id = some t)

include hwired hid

/-- A new operator names whoever takes what it makes once for each pair of slots. -/
theorem count_followersOf_eq (houtputs : ∀ id ∈ op.outputs, ∃ t, g.tensor? id = some t)
    {c : Operator} (hc : c ∈ g.ops ∨ c = op) :
    (g.followersOf op).count c.id = op.slotPairs c := by
  rw [count_followersOf hwired op hid hc, Operator.slotPairs_eq_sum]
  congr 1
  refine List.map_congr_left fun id _ => ?_
  by_cases hout : id ∈ op.outputs
  · obtain ⟨t, ht⟩ := houtputs id hout
    rw [ht, Option.isSome_some, if_pos rfl]
  · rw [List.count_eq_zero.2 hout, ite_self]

theorem sourceOf_ne_new (id : TensorId) : g.sourceOf id ≠ some op.id := by
  intro hsource
  obtain ⟨t, ht, _, hmade⟩ := (sourceOf_eq_some_iff hwired.tensorIds).1 hsource
  exact Nat.lt_irrefl _ (hid ▸ hwired.sourcesKnown t ht _ hmade)

include h hpreds hsuccs

theorem mirrored_connect {a c : Operator} (ha : a ∈ (g.connect op).ops)
    (hc : c ∈ (g.connect op).ops) :
    c.predecessors.count a.id = if a.id = c.id then 0 else a.successors.count c.id := by
  rcases mem_ops_connect op hpreds hsuccs ha with ⟨a₀, ha₀, rfl⟩ | rfl <;>
      rcases mem_ops_connect op hpreds hsuccs hc with ⟨c₀, hc₀, rfl⟩ | rfl
  · -- between operators that were there before nothing changes
    show (c₀.predecessors ++ List.replicate _ op.id).count a₀.id = if a₀.id = c₀.id then 0
      else (g.followed op.id op.inputs a₀).successors.count c₀.id
    rw [List.count_append, List.count_replicate,
      if_neg (by simpa using (id_ne_of_mem hwired op hid ha₀).symm), Nat.add_zero,
      count_successors_followed hwired op hid ha₀, if_neg (id_ne_of_mem hwired op hid hc₀)]
    exact h.mirrored a₀ ha₀ c₀ hc₀
  · show (op.inputs.filterMap g.sourceOf).count a₀.id = if a₀.id = op.id then 0
      else (g.followed op.id op.inputs a₀).successors.count op.id
    rw [if_neg (id_ne_of_mem hwired op hid ha₀), count_successors_followed hwired op hid ha₀,
      if_pos rfl, List.count_filterMap]
    exact List.countP_congr fun id _ => by simp
  · have hnone : op.id ∉ c₀.predecessors :=
      fun hmem => Nat.lt_irrefl _ (hid ▸ h.predecessorsKnown c₀ hc₀ _ hmem)
    show (c₀.predecessors ++ List.replicate ((g.followersOf op).count c₀.id) op.id).count op.id =
      if op.id = c₀.id then 0 else (g.followersOf op).count c₀.id
    rw [if_neg (id_ne_of_mem hwired op hid hc₀).symm, List.count_append, List.count_eq_zero.2 hnone,
      Nat.zero_add, List.count_replicate_self]
  · rw [if_pos rfl, List.count_filterMap, List.countP_eq_zero]
    intro id _
    simpa using sourceOf_ne_new hwired op hid id

include houtputs

theorem late_connect {a c : Operator} (ha : a ∈ (g.connect op).ops) (hc : c ∈ (g.connect op).ops)
    (hle : c.id ≤ a.id) :
    a.successors.count c.id = a.slotPairs c := by
  rcases mem_ops_connect op hpreds hsuccs ha with ⟨a₀, ha₀, rfl⟩ | rfl
  · have hlt : c.id < op.id := Nat.lt_of_le_of_lt hle (hid ▸ hwired.opsKnown a₀ ha₀)
    rcases mem_ops_connect op hpreds hsuccs hc with ⟨c₀, hc₀, rfl⟩ | rfl
    · show (g.followed op.id op.inputs a₀).successors.count c₀.id = _
      rw [count_successors_followed hwired op hid ha₀, if_neg (id_ne_of_mem hwired op hid hc₀)]
      exact h.late a₀ ha₀ c₀ hc₀ hle
    · exact absurd hlt (Nat.lt_irrefl _)
  · rcases mem_ops_connect op hpreds hsuccs hc with ⟨c₀, hc₀, rfl⟩ | rfl
    · exact count_followersOf_eq hwired op hid houtputs (c := c₀) (.inl hc₀)
    · exact count_followersOf_eq hwired op hid houtputs (c := op) (.inr rfl)

omit houtputs in
theorem early_connect (hclosed : Closed g) {c : Operator} (hc : c ∈ (g.connect op).ops) :
    ((g.connect op).ops.map fun a => if a.id < c.id then a.successors.count c.id else 0).sum =
      c.inputs.countP fun id => ∃ a ∈ (g.connect op).ops, a.id < c.id ∧ id ∈ a.outputs := by
  have hbefore : ∀ n ≤ op.id,
      ((g.connect op).ops.map fun a => if a.id < n then a.successors.count n else 0).sum =
      (g.ops.map fun a => if a.id < n then (g.followed op.id op.inputs a).successors.count n
          else 0).sum := by
    intro n hn
    rw [connect_eq, List.map_append, List.map_map, List.map_singleton, List.sum_append,
      List.sum_singleton, if_neg (Nat.not_lt.2 hn), Nat.add_zero]
    rfl
  have hmakers : ∀ n ≤ op.id, ∀ id, (∃ a ∈ (g.connect op).ops, a.id < n ∧ id ∈ a.outputs) ↔
      ∃ a ∈ g.ops, a.id < n ∧ id ∈ a.outputs := by
    intro n hn id
    constructor
    · rintro ⟨a, ha, hlt, hout⟩
      rcases mem_ops_connect op hpreds hsuccs ha with ⟨a₀, ha₀, rfl⟩ | rfl
      · exact ⟨a₀, ha₀, hlt, hout⟩
      · exact absurd hlt (Nat.not_lt.2 hn)
    · rintro ⟨a, ha, hlt, hout⟩
      exact ⟨_, Closed.old_mem_connect ha, hlt, hout⟩
  rcases mem_ops_connect op hpreds hsuccs hc with ⟨c₀, hc₀, rfl⟩ | rfl
  · have hle : c₀.id ≤ op.id := Nat.le_of_lt (hid ▸ hwired.opsKnown c₀ hc₀)
    show ((g.connect op).ops.map fun a => if a.id < c₀.id
      then a.successors.count c₀.id else 0).sum =
      c₀.inputs.countP fun id => ∃ a ∈ (g.connect op).ops, a.id < c₀.id ∧ id ∈ a.outputs
    simp only [hmakers _ hle]
    rw [hbefore _ hle, ← h.early c₀ hc₀]
    congr 1
    refine List.map_congr_left fun a ha => ?_
    rw [count_successors_followed hwired op hid ha, if_neg (id_ne_of_mem hwired op hid hc₀)]
  · simp only [hmakers _ (Nat.le_refl _)]
    rw [hbefore _ (Nat.le_refl _)]
    calc (g.ops.map fun a => if a.id < op.id
      then (g.followed op.id op.inputs a).successors.count op.id else 0).sum
        = ((g.ops.map Operator.id).map fun n => op.inputs.countP fun id =>
          g.sourceOf id = some n).sum := by
          rw [List.map_map]
          congr 1
          refine List.map_congr_left fun a ha => ?_
          rw [if_pos (hid ▸ hwired.opsKnown a ha),
            count_successors_followed hwired op hid ha, if_pos rfl]
          rfl
      _ = op.inputs.countP fun id => (g.sourceOf id).any fun n => n ∈ g.ops.map Operator.id :=
        sum_countP_eq op.inputs g.sourceOf hwired.opIds
      _ = op.inputs.countP fun id => ∃ a ∈ g.ops, a.id < op.id ∧ id ∈ a.outputs := by
          refine List.countP_congr fun id _ => ?_
          rw [sourceOf_any_iff hwired hclosed, decide_eq_true_eq]
          exact exists_congr fun a => and_congr_right fun ha =>
            (and_iff_right (hid ▸ hwired.opsKnown a ha)).symm

theorem Counted.connect (hclosed : Closed g) :
    Counted { ids with operator := ids.operator + 1 } (g.connect op) where
  predecessorsKnown c hc n hn := by
    rcases mem_ops_connect op hpreds hsuccs hc with ⟨c₀, hc₀, rfl⟩ | rfl
    · rcases List.mem_append.1 hn with hn | hn
      · exact Nat.lt_succ_of_lt (h.predecessorsKnown c₀ hc₀ n hn)
      · exact List.eq_of_mem_replicate hn ▸ hid ▸ Nat.lt_succ_self _
    · obtain ⟨id, _, hsource⟩ := List.mem_filterMap.1 hn
      obtain ⟨t, ht, _, hmade⟩ := (sourceOf_eq_some_iff hwired.tensorIds).1 hsource
      exact Nat.lt_succ_of_lt (hwired.sourcesKnown t ht n hmade)
  mirrored _ ha _ hc := mirrored_connect hwired h op hid hpreds hsuccs ha hc
  late _ ha _ hc := late_connect hwired h op hid hpreds hsuccs houtputs ha hc
  early _ hc := early_connect hwired h op hid hpreds hsuccs hclosed hc

end Connect

end Graph

/-! ### Built graphs -/

namespace Draft

/-- All that is known of the links of a draft that has only been built. -/
structure Linked (d : Draft) : Prop where
  wired : Graph.Wired d.ids d.graph
  closed : d.graph.Closed
  counted : Graph.Counted d.ids d.graph

theorem linked_empty : Linked empty := ⟨.empty _, .empty, .empty _⟩

theorem Linked.fresh {d : Draft} (h : d.Linked) : d.Fresh := h.wired.tensorsKnown

theorem Grows.linked {d d' : Draft} (hgrows : Grows d d') (h : d.Linked) : d'.Linked := by
  have hwired : ∀ {d' : Draft}, Grows d d' → Graph.Wired d'.ids d'.graph := fun hgrows => by
    have hnone := hgrows.wired [] (by rw [Graph.withLoose, List.append_nil]; exact h.wired)
    rwa [Graph.withLoose, List.append_nil] at hnone
  refine ⟨hwired hgrows, hgrows.closed h.closed, ?_⟩
  induction hgrows with
  | refl => exact h.counted
  | elsewhere _ _ _ ih => exact ih.congr rfl (Nat.le_add_right _ _)
  | tensor _ _ ih => exact ih.congr rfl (Nat.le_refl _)
  | operator hgrows hfits ih =>
      exact ih.connect (hwired hgrows) _ rfl rfl rfl hfits.outputs_there (hgrows.closed h.closed)

theorem built_linked (steps : List BuildStep) : (built steps).Linked :=
  (built_grows steps).linked linked_empty

end Draft

end TensorDataflow
