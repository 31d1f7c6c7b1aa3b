import TensorDataflow.Proofs.Graph.DependencyOrder
import TensorDataflow.Proofs.Graph.WellFormed
/-!
# Links do not depend on the order of arrival

Where no tensor has two producers and no operator takes what it makes, the links of a built graph
can be read off its operators: a tensor names the operator that lists it as output and, once for
each slot, those that list it as input, and two operators name each other once for each pair of an
output slot of the one and an input slot of the other that hold the same tensor. Nothing in this
says when an operator came, so the same operators added in another order have the same links, up to
their numbers and the order of the lists (`Draft.links_built`).

An operator that lists an output twice is the exception. A consumer that was there before it gets
both links, one that comes after it only one, since it asks the tensor for its producer:
`Draft.links_of_repeated_output`.
-/

namespace TensorDataflow

namespace Graph

/-- A graph in which every tensor has one producer at most, which does not take it, and which lists
it once if the tensor is taken by an operator added later. -/
structure Simple (g : Graph) : Prop where
  single : g.SingleProducer
  apart : g.Apart
  once : ∀ a ∈ g.ops, ∀ c ∈ g.ops, a.id < c.id → ∀ id ∈ c.inputs, a.outputs.count id ≤ 1

end Graph

/-! ### Counting links -/

namespace Draft

namespace Linked

variable {d : Draft} (h : d.Linked) (hsimple : d.graph.Simple)

include h hsimple

theorem source_iff {t : Tensor} (ht : t ∈ d.graph.tensors) (n : OpId) :
    t.source = some n ↔ ∃ a ∈ d.graph.ops, a.id = n ∧ t.id ∈ a.outputs := by
  constructor
  · intro hsource
    obtain ⟨a, ha, rfl⟩ := h.closed.sources t ht n hsource
    exact ⟨a, ha, rfl, h.wired.source a ha t ht hsource⟩
  · rintro ⟨a, ha, rfl, hout⟩
    have hsource :=
      (Graph.sourceOf_eq_some_iff_mem_outputs h.wired h.closed hsimple.single ha).2 hout
    rwa [Graph.sourceOf, Graph.tensor?_of_mem h.wired.tensorIds ht, Option.bind_some] at hsource

/-- An operator that comes before its consumer is linked to it once for each slot, which is once for
each pair of slots if it lists what it makes only once. -/
theorem count_successors_of_lt {a c : Operator} (ha : a ∈ d.graph.ops) (hc : c ∈ d.graph.ops)
    (hlt : a.id < c.id) : a.successors.count c.id = a.slotPairs c := by
  have hslots : a.successors.count c.id = c.inputs.countP fun id => id ∈ a.outputs := by
    refine Nat.le_antisymm
      (h.wired.notTooMany a ha c hc fun hdoubles => Nat.not_le.2 hlt hdoubles.1) ?_
    refine Nat.le_trans (List.countP_mono_left fun id _ hout => ?_) (h.wired.enough a ha c hc)
    simpa [Graph.sourceOf_eq_some_iff_mem_outputs h.wired h.closed hsimple.single ha] using hout
  rw [hslots, Operator.slotPairs_eq_sum]
  refine Nat.le_antisymm (Graph.countP_le_sum fun id _ hout => List.count_pos_iff.2 hout)
    (Graph.sum_le_countP fun id hin => ?_)
  split
  · exact hsimple.once a ha c hc hlt id hin
  · next hout => exact Nat.le_of_eq (List.count_eq_zero.2 hout)

theorem count_successors {a c : Operator} (ha : a ∈ d.graph.ops) (hc : c ∈ d.graph.ops) :
    a.successors.count c.id = a.slotPairs c := by
  rcases Nat.lt_or_ge a.id c.id with hlt | hle
  · exact h.count_successors_of_lt hsimple ha hc hlt
  · exact h.counted.late a ha c hc hle

theorem count_predecessors {a c : Operator} (ha : a ∈ d.graph.ops) (hc : c ∈ d.graph.ops) :
    c.predecessors.count a.id = a.slotPairs c := by
  rw [h.counted.mirrored a ha c hc]
  split
  · next hself =>
      obtain rfl := List.inj_on_of_nodup_map h.wired.opIds ha hc hself
      refine (Nat.eq_zero_of_not_pos fun hpos => ?_).symm
      obtain ⟨id, hout, hin⟩ := Operator.slotPairs_pos_iff.1 hpos
      exact hsimple.apart a ha id hin hout
  · exact h.count_successors hsimple ha hc

end Linked

end Draft

/-! ### Renaming -/

/-- What an operator computes, from what and into what. -/
def Operator.task (a : Operator) : OpKind × List TensorId × List TensorId :=
  (a.kind, a.inputs, a.outputs)

/-- The same with other names for the tensors. -/
def Operator.taskUnder (σ : TensorId → TensorId) (a : Operator) :
    OpKind × List TensorId × List TensorId :=
  (a.kind, a.inputs.map σ, a.outputs.map σ)

theorem Operator.task_eq_iff {σ : TensorId → TensorId} {a a' : Operator} :
    a'.task = a.taskUnder σ ↔
    a'.kind = a.kind ∧ a'.inputs = a.inputs.map σ ∧ a'.outputs = a.outputs.map σ := by
  rw [task, taskUnder, Prod.mk.injEq, Prod.mk.injEq]

theorem Operator.slotPairs_of_task {σ : TensorId → TensorId} (hσ : σ.Injective)
    {a a' c c' : Operator} (ha : a'.task = a.taskUnder σ) (hc : c'.task = c.taskUnder σ) :
    a'.slotPairs c' = a.slotPairs c := by
  rw [slotPairs_eq_sum, slotPairs_eq_sum, (task_eq_iff.1 ha).2.2,
    (task_eq_iff.1 hc).2.1, List.map_map]
  congr 1
  exact List.map_congr_left fun id _ => List.count_map_of_injective a.outputs σ hσ id

namespace Graph

/-- The second graph has the operators of the first under other numbers, and their links, up to the
order in each list. -/
structure Renames (σ : TensorId → TensorId) (ρ : OpId → OpId) (g g' : Graph) : Prop where
  numbers : (g.ops.map fun a => ρ a.id).Perm (g'.ops.map Operator.id)
  ops : ∀ a ∈ g.ops, ∃ a' ∈ g'.ops, a'.id = ρ a.id ∧ a'.task = a.taskUnder σ ∧
    a'.predecessors.Perm (a.predecessors.map ρ) ∧ a'.successors.Perm (a.successors.map ρ)
  tensors : ∀ t ∈ g.tensors, ∀ t' ∈ g'.tensors, t'.id = σ t.id →
    t'.source = t.source.map ρ ∧ t'.targets.Perm (t.targets.map ρ)

theorem forall₂_mem {α β : Type} {R : α → β → Prop} {xs : List α} {ys : List β}
    (h : List.Forall₂ R xs ys) : List.Forall₂ (fun a b => a ∈ xs ∧ b ∈ ys ∧ R a b) xs ys := by
  induction h with
  | nil => exact .nil
  | cons hR _ ih =>
      refine .cons ⟨List.mem_cons_self, List.mem_cons_self, hR⟩ (ih.imp ?_)
      rintro a b ⟨ha, hb, hR⟩
      exact ⟨List.mem_cons_of_mem _ ha, List.mem_cons_of_mem _ hb, hR⟩

/-- Operators with different numbers can be renamed to any partners. -/
theorem exists_renaming {R : Operator → Operator → Prop} {xs ys : List Operator}
    (hids : (xs.map Operator.id).Nodup) (h : List.Forall₂ R xs ys) :
    ∃ ρ : OpId → OpId, List.Forall₂ (fun a b => b.id = ρ a.id ∧ R a b) xs ys := by
  induction h with
  | nil => exact ⟨id, .nil⟩
  | @cons a b xs ys hR _ ih =>
      rw [List.map_cons, List.nodup_cons] at hids
      obtain ⟨ρ, hρ⟩ := ih hids.2
      refine ⟨Function.update ρ a.id b.id,
        .cons ⟨by rw [Function.update_self], hR⟩ ((forall₂_mem hρ).imp ?_)⟩
      rintro c c' ⟨hmem, _, hid, hR⟩
      have hne : c.id ≠ a.id := fun heq => hids.1 (heq ▸ List.mem_map_of_mem hmem)
      exact ⟨by rw [hid, Function.update_of_ne hne], hR⟩

/-- A list of operators' numbers is told, up to its order, by how often it holds each of them. -/
theorem perm_flatMap_replicate {ops : List Operator} (hids : (ops.map Operator.id).Nodup)
    {xs : List OpId} (hmem : ∀ n ∈ xs, ∃ a ∈ ops, a.id = n) :
    xs.Perm (ops.flatMap fun a => List.replicate (xs.count a.id) a.id) := by
  rw [List.perm_iff_count]
  intro n
  rw [List.count_flatMap]
  by_cases hn : n ∈ ops.map Operator.id
  · obtain ⟨a, ha, rfl⟩ := List.mem_map.1 hn
    obtain ⟨front, rest, rfl⟩ := List.append_of_mem ha
    have hothers : ∀ b ∈ front ++ rest, b.id ≠ a.id := by
      rw [List.map_append, List.map_cons, List.nodup_middle, List.nodup_cons] at hids
      exact fun b hb heq => hids.1 (heq ▸ List.map_append ▸ List.mem_map_of_mem hb)
    have hzero : ∀ bs : List Operator, (∀ b ∈ bs, b.id ≠ a.id) →
        (bs.map (List.count a.id ∘ fun b => List.replicate (xs.count b.id) b.id)).sum = 0 := by
      intro bs hbs
      refine List.sum_eq_zero fun k hk => ?_
      obtain ⟨b, hb, rfl⟩ := List.mem_map.1 hk
      exact List.count_eq_zero.2 fun hin => hbs b hb (List.eq_of_mem_replicate hin).symm
    rw [List.map_append, List.map_cons, List.sum_append, List.sum_cons,
      hzero front fun b hb => hothers b (List.mem_append_left _ hb),
      hzero rest fun b hb => hothers b (List.mem_append_right _ hb), Nat.zero_add, Nat.add_zero,
      Function.comp_apply, List.count_replicate_self]
  · have hnone : n ∉ xs := fun hin => by
      obtain ⟨a, ha, rfl⟩ := hmem n hin
      exact hn (List.mem_map_of_mem ha)
    rw [List.count_eq_zero.2 hnone, eq_comm]
    refine List.sum_eq_zero fun k hk => ?_
    obtain ⟨b, hb, rfl⟩ := List.mem_map.1 hk
    exact List.count_eq_zero.2 fun hin => hn (List.eq_of_mem_replicate hin ▸ List.mem_map_of_mem hb)

/-- Lists in which partners under a renaming stand equally often are the same up to the renaming and
their order. -/
theorem perm_map_of_count_eq {ops ops' partners : List Operator} {ρ : OpId → OpId}
    (hids : (ops.map Operator.id).Nodup) (hids' : (ops'.map Operator.id).Nodup)
    (hpartners : partners.Perm ops') {xs ys : List OpId} (hmem : ∀ n ∈ xs, ∃ a ∈ ops, a.id = n)
    (hmem' : ∀ n ∈ ys, ∃ a ∈ ops', a.id = n)
    (hcount : List.Forall₂ (fun a b => b.id = ρ a.id ∧ ys.count b.id = xs.count a.id)
      ops partners) : ys.Perm (xs.map ρ) := by
  have hsame : partners.flatMap (fun b => List.replicate (ys.count b.id) b.id) =
      (ops.flatMap fun a => List.replicate (xs.count a.id) a.id).map ρ := by
    clear hids hmem hpartners
    induction hcount with
    | nil => rfl
    | cons hhead _ ih =>
        rw [List.flatMap_cons, List.flatMap_cons, List.map_append, ih, List.map_replicate,
          hhead.2, hhead.1]
  calc List.Perm ys (ops'.flatMap fun b =>
    List.replicate (ys.count b.id) b.id) := perm_flatMap_replicate hids' hmem'
    List.Perm _ (partners.flatMap fun b => List.replicate (ys.count b.id) b.id) :=
      (hpartners.flatMap_right _).symm
    _ = (ops.flatMap fun a => List.replicate (xs.count a.id) a.id).map ρ := hsame
    List.Perm _ (xs.map ρ) := ((perm_flatMap_replicate hids hmem).map ρ).symm

end Graph

namespace Draft

section Reordering

variable {d d' : Draft} (h : d.Linked) (h' : d'.Linked) {σ : TensorId → TensorId} {ρ : OpId → OpId}
  {partners : List Operator} (hpartners : partners.Perm d'.graph.ops)
  (hρ : List.Forall₂ (fun a b => b.id = ρ a.id ∧ a ∈ d.graph.ops ∧ b ∈ partners ∧
      b.task = a.taskUnder σ) d.graph.ops partners)

include h h' hpartners hρ

/-- Lists of links that hold operators as often as their tasks say are the same under a renaming. -/
theorem perm_links {xs ys : List OpId} {f f' : Operator → Nat}
    (hxs : ∀ n ∈ xs, ∃ a ∈ d.graph.ops, a.id = n) (hys : ∀ n ∈ ys, ∃ a ∈ d'.graph.ops, a.id = n)
    (hf : ∀ a ∈ d.graph.ops, xs.count a.id = f a) (hf' : ∀ b ∈ d'.graph.ops, ys.count b.id = f' b)
    (hff' : ∀ a b, b.task = a.taskUnder σ → f' b = f a) : ys.Perm (xs.map ρ) := by
  refine Graph.perm_map_of_count_eq h.wired.opIds h'.wired.opIds hpartners hxs hys (hρ.imp ?_)
  rintro a b ⟨hid, ha, hb, htask⟩
  exact ⟨hid, by rw [hf a ha, hf' b (hpartners.mem_iff.1 hb), hff' a b htask]⟩

theorem targets_renamed (hσ : σ.Injective) {t t' : Tensor} (ht : t ∈ d.graph.tensors)
    (ht' : t' ∈ d'.graph.tensors) (hid : t'.id = σ t.id) : t'.targets.Perm (t.targets.map ρ) := by
  refine perm_links h h' hpartners hρ (h.closed.targets t ht) (h'.closed.targets t' ht')
    (fun c hc => h.wired.targets c hc t ht) (fun c hc => h'.wired.targets c hc t' ht')
    fun c c' htask => ?_
  rw [(Operator.task_eq_iff.1 htask).2.1, hid]
  exact List.count_map_of_injective c.inputs σ hσ t.id

variable (hsimple : d.graph.Simple) (hsimple' : d'.graph.Simple) (hσ : σ.Injective)

include hsimple hsimple' hσ

theorem source_renamed {t t' : Tensor} (ht : t ∈ d.graph.tensors) (ht' : t' ∈ d'.graph.tensors)
    (hid : t'.id = σ t.id) : t'.source = t.source.map ρ := by
  apply Option.ext
  intro n
  rw [h'.source_iff hsimple' ht', Option.map_eq_some_iff]
  constructor
  · rintro ⟨a', ha', rfl, hout⟩
    obtain ⟨a, _, hnumber, ha, _, htask⟩ :=
      exists_of_forall₂_of_mem hρ.flip (hpartners.mem_iff.2 ha')
    rw [(Operator.task_eq_iff.1 htask).2.2, hid, List.mem_map_of_injective hσ] at hout
    exact ⟨a.id, (h.source_iff hsimple ht _).2 ⟨a, ha, rfl, hout⟩, hnumber.symm⟩
  · rintro ⟨k, hsource, rfl⟩
    obtain ⟨a, ha, rfl, hout⟩ := (h.source_iff hsimple ht k).1 hsource
    obtain ⟨a', hmem, hnumber, _, _, htask⟩ := exists_of_forall₂_of_mem hρ ha
    refine ⟨a', hpartners.mem_iff.1 hmem, hnumber, ?_⟩
    rw [(Operator.task_eq_iff.1 htask).2.2, hid]
    exact List.mem_map_of_mem hout

theorem predecessors_renamed {a a' : Operator} (ha : a ∈ d.graph.ops) (ha' : a' ∈ d'.graph.ops)
    (htask : a'.task = a.taskUnder σ) : a'.predecessors.Perm (a.predecessors.map ρ) := by
  refine perm_links h h' hpartners hρ (fun n hn => ?_) (fun n hn => ?_) (fun c hc =>
      h.count_predecessors hsimple hc ha) (fun c hc => h'.count_predecessors hsimple' hc ha')
    fun c c' hc => Operator.slotPairs_of_task hσ hc htask
  · obtain ⟨b, hb, hn, _⟩ := h.closed.predecessors a ha n hn
    exact ⟨b, hb, hn⟩
  · obtain ⟨b, hb, hn, _⟩ := h'.closed.predecessors a' ha' n hn
    exact ⟨b, hb, hn⟩

theorem successors_renamed {a a' : Operator} (ha : a ∈ d.graph.ops) (ha' : a' ∈ d'.graph.ops)
    (htask : a'.task = a.taskUnder σ) : a'.successors.Perm (a.successors.map ρ) :=
  perm_links h h' hpartners hρ (h.closed.successors a ha) (h'.closed.successors a' ha')
    (fun _ hc => h.count_successors hsimple ha hc) (fun _ hc => h'.count_successors hsimple' ha' hc)
    fun _ _ hc => Operator.slotPairs_of_task hσ htask hc

omit hpartners hρ in
/-- Drafts with the same operators have the same links up to the numbers of the operators. -/
theorem exists_renames
    (hsame : (d'.graph.ops.map Operator.task).Perm (d.graph.ops.map (Operator.taskUnder σ))) :
    ∃ ρ : OpId → OpId, d.graph.Renames σ ρ d'.graph := by
  have hself : List.Forall₂ (fun task (b : Operator) => b.task = task)
      (d'.graph.ops.map Operator.task) d'.graph.ops :=
    List.forall₂_map_left_iff.2 (List.forall₂_same.2 fun _ _ => rfl)
  obtain ⟨partners, htasks, hpartners⟩ := List.perm_comp_forall₂ hsame.symm hself
  obtain ⟨ρ, hρ⟩ :=
    Graph.exists_renaming h.wired.opIds (Graph.forall₂_mem (List.forall₂_map_left_iff.1 htasks))
  refine ⟨ρ, ?_, fun a ha => ?_, fun t ht t' ht' hid => ⟨?_, ?_⟩⟩
  · have hnumbers : (d.graph.ops.map fun a => ρ a.id) = partners.map Operator.id := by
      rw [← List.forall₂_eq_eq_eq, List.forall₂_map_left_iff, List.forall₂_map_right_iff]
      exact hρ.imp fun _ _ hpair => hpair.1.symm
    rw [hnumbers]
    exact hpartners.map Operator.id
  · obtain ⟨a', hmem, hnumber, _, _, htask⟩ := exists_of_forall₂_of_mem hρ ha
    have ha' := hpartners.mem_iff.1 hmem
    exact ⟨a', ha', hnumber, htask,
      predecessors_renamed h h' hpartners hρ hsimple hsimple' hσ ha ha' htask,
      successors_renamed h h' hpartners hρ hsimple hsimple' hσ ha ha' htask⟩
  · exact source_renamed h h' hpartners hρ hsimple hsimple' hσ ht ht' hid
  · exact targets_renamed h h' hpartners hρ hσ ht ht' hid

end Reordering

/-- The links of a built graph, read off its operators, and the same operators in another order,
which have the same links. -/
theorem links_built (steps : List BuildStep) (hsimple : (built steps).graph.Simple) :
    (∀ t ∈ (built steps).graph.tensors, ∀ n, t.source = some n ↔
      ∃ a ∈ (built steps).graph.ops, a.id = n ∧ t.id ∈ a.outputs) ∧
      (∀ t ∈ (built steps).graph.tensors, ∀ a ∈ (built steps).graph.ops,
        t.targets.count a.id = a.inputs.count t.id) ∧
      (∀ a ∈ (built steps).graph.ops, ∀ c ∈ (built steps).graph.ops,
        a.successors.count c.id = a.slotPairs c ∧ c.predecessors.count a.id = a.slotPairs c) ∧
      ∀ (steps' : List BuildStep) (σ : TensorId → TensorId),
      (built steps').graph.Simple → σ.Injective →
        ((built steps').graph.ops.map Operator.task).Perm
          ((built steps).graph.ops.map (Operator.taskUnder σ)) →
        ∃ ρ : OpId → OpId, (built steps).graph.Renames σ ρ (built steps').graph := by
  have h := built_linked steps
  refine ⟨fun t ht n => h.source_iff hsimple ht n, fun t ht a ha => h.wired.targets a ha t ht,
    fun a ha c hc => ⟨?_, ?_⟩, fun steps' σ hsimple' hσ hsame => ?_⟩
  · exact h.count_successors hsimple ha hc
  · exact h.count_predecessors hsimple ha hc
  · exact exists_renames h (built_linked steps') hsimple hsimple' hσ hsame

/-- A consumer of one tensor in both slots and its producer, in the one order and in the other. -/
def consumerFirst : List BuildStep :=
  vectors 3 ++
    [.opWithOutputs (.pointwise .add) [2, 2] [3], .opWithOutputs (.pointwise .mul) [1, 1] [2]]

@[inherit_doc consumerFirst] def producerFirst : List BuildStep :=
  vectors 3 ++
    [.opWithOutputs (.pointwise .mul) [1, 1] [2], .opWithOutputs (.pointwise .add) [2, 2] [3]]

theorem links_reordered :
    (built consumerFirst).graph.Simple ∧ (built producerFirst).graph.Simple ∧ ∃ ρ : OpId →
    OpId, (built consumerFirst).graph.Renames id ρ (built producerFirst).graph := by
  have hconsumer : (built consumerFirst).graph.Simple :=
    ⟨by decide +kernel, by decide +kernel, by decide +kernel⟩
  have hproducer : (built producerFirst).graph.Simple :=
    ⟨by decide +kernel, by decide +kernel, by decide +kernel⟩
  exact ⟨hconsumer, hproducer, (links_built consumerFirst hconsumer).2.2.2 producerFirst id
    hproducer Function.injective_id (by decide +kernel)⟩

/-- An operator that lists its output twice. -/
def twice (input output : TensorId) : BuildStep :=
  .opWithOutputs (.declared ⟨.add, 1, 3, 2, .add, none, none⟩) [input] [output, output]

/-- With an output listed twice there are two pairs of slots, and both operators name each other
once or twice as the consumer comes after the producer or before it. -/
theorem links_of_repeated_output :
    let g := (built (vectors 3 ++ [twice 1 2, .opWithOutputs (.pointwise .add) [2, 1] [3]])).graph
    let g' := (built (vectors 3 ++ [.opWithOutputs (.pointwise .add) [2, 1] [3], twice 1 2])).graph
    (g.SingleProducer ∧ g.Apart ∧ ∃ a ∈ g.ops, ∃ c ∈ g.ops, a.slotPairs c = 2 ∧
      a.successors.count c.id = 1 ∧ c.predecessors.count a.id = 1) ∧
      g'.SingleProducer ∧ g'.Apart ∧ (g'.ops.map Operator.task).Perm (g.ops.map Operator.task) ∧
      ∃ a ∈ g'.ops, ∃ c ∈ g'.ops, a.slotPairs c = 2 ∧ a.successors.count c.id = 2 ∧
      c.predecessors.count a.id = 2 := by
  decide +kernel

end Draft

end TensorDataflow
