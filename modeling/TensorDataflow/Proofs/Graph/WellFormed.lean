import TensorDataflow.Proofs.Graph.EdgeCounts
import TensorDataflow.Proofs.Graph.History
import TensorDataflow.Proofs.Graph.Soundness
/-!
# What the check of a graph comes to

The check of a graph looks at every link from both ends. Of a graph that has only been built, and
whose variables may have been bound meanwhile, most of it cannot fail, and what is left can be said
without links: `Draft.checkValid_shaped_iff`. A second producer takes a tensor over from the first,
which still lists it as output; and an operator that takes what it makes is its own successor, but
comes too late to find itself as producer and so is not its own predecessor.
-/

namespace TensorDataflow

namespace Graph

/-- No operator takes what it makes. -/
def Apart (g : Graph) : Prop := ∀ op ∈ g.ops, ∀ id ∈ op.inputs, id ∉ op.outputs

instance (g : Graph) : Decidable g.Apart :=
  inferInstanceAs (Decidable (∀ op ∈ g.ops, ∀ id ∈ op.inputs, id ∉ op.outputs))

theorem Acyclic.apart {g : Graph} (h : g.Acyclic) : g.Apart :=
  fun op hop id hin hout => h op (.single ⟨hop, hop, id, hout, hin⟩)

/-! ### From the check -/

theorem Valid.mem_use {g : Graph} (h : g.Valid) {t : Tensor} (ht : t ∈ g.tensors) :
    ∃ op ∈ g.ops, t.id ∈ op.inputs ∨ t.id ∈ op.outputs := by
  rcases h.used t ht with hsource | htargets
  · obtain ⟨n, hn⟩ := Option.ne_none_iff_exists'.1 hsource
    obtain ⟨a, ha, hout⟩ := h.source t ht n hn
    exact ⟨a, mem_of_operator? ha, .inr hout⟩
  · obtain ⟨n, hn⟩ := List.exists_mem_of_ne_nil t.targets htargets
    obtain ⟨c, hc, hin⟩ := h.targets t ht n hn
    exact ⟨c, mem_of_operator? hc, .inl hin⟩

/-- Whoever lists a tensor as output is the producer that it names, so there is only one. -/
theorem Valid.singleProducer {g : Graph} (h : g.Valid) : g.SingleProducer := by
  intro a ha b hb id hout hout'
  obtain ⟨t, ht, hsource⟩ := h.outputs a ha id hout
  obtain ⟨u, hu, hsource'⟩ := h.outputs b hb id hout'
  obtain rfl : t = u := Option.some.inj (ht.symm.trans hu)
  exact List.inj_on_of_nodup_map h.opIds ha hb (Option.some.inj (hsource.symm.trans hsource'))

/-- Someone who takes what he makes is his own successor; the check asks for him among his own
predecessors, where he never is. -/
theorem Valid.apart {ids : IdSupply} {g : Graph} (h : g.Valid)
    (hcounted : Counted ids g) : g.Apart := by
  intro op hop id hin hout
  have hsucc : op.id ∈ op.successors := by
    rw [← List.count_pos_iff, hcounted.late op hop op hop (Nat.le_refl _),
      Operator.slotPairs_pos_iff]
    exact ⟨id, hout, hin⟩
  obtain ⟨c, hc, hpred⟩ := h.successors op hop op.id hsucc
  obtain rfl := Option.some.inj ((operator?_of_mem h.opIds hop).symm.trans hc)
  have hnone := hcounted.mirrored op hop op hop
  rw [if_pos rfl, List.count_eq_zero] at hnone
  exact hnone hpred

/-! ### To the check -/

section Linked

variable {ids : IdSupply} {g : Graph} (hwired : Wired ids g) (hclosed : Closed g)
  (hcounted : Counted ids g)

include hwired hclosed

theorem used_of_mem_use {t : Tensor} (ht : t ∈ g.tensors)
    (huse : ∃ op ∈ g.ops, t.id ∈ op.inputs ∨ t.id ∈ op.outputs) :
    t.source ≠ none ∨ t.targets ≠ [] := by
  obtain ⟨op, hop, hin | hout⟩ := huse
  · refine .inr fun hnil => ?_
    have hcount := hwired.targets op hop t ht
    rw [hnil, List.count_nil, eq_comm, List.count_eq_zero] at hcount
    exact hcount hin
  · obtain ⟨u, hu, hid, hsource⟩ := hclosed.outputs op hop t.id hout
    rw [List.inj_on_of_nodup_map hwired.tensorIds hu ht hid] at hsource
    exact .inl hsource

include hcounted

/-- A graph whose links all agree is valid if every tensor is used, none has two producers, and no
operator takes what it makes. -/
theorem valid_of_apart (hsingle : g.SingleProducer) (hapart : g.Apart)
    (hused : ∀ t ∈ g.tensors, ∃ op ∈ g.ops, t.id ∈ op.inputs ∨ t.id ∈ op.outputs) : g.Valid where
  tensorIds := hwired.tensorIds
  opIds := hwired.opIds
  used t ht := used_of_mem_use hwired hclosed ht (hused t ht)
  source t ht n hn := by
    obtain ⟨a, ha, rfl⟩ := hclosed.sources t ht n hn
    exact ⟨a, operator?_of_mem hwired.opIds ha, hwired.source a ha t ht hn⟩
  targets t ht n hn := by
    obtain ⟨c, hc, rfl⟩ := hclosed.targets t ht n hn
    refine ⟨c, operator?_of_mem hwired.opIds hc, ?_⟩
    rw [← List.count_pos_iff, ← hwired.targets c hc t ht, List.count_pos_iff]
    exact hn
  inputs op hop id hid := by
    obtain ⟨t, ht, rfl⟩ := hclosed.inputs op hop id hid
    refine ⟨t, tensor?_of_mem hwired.tensorIds ht, ?_⟩
    rw [← List.count_pos_iff, hwired.targets op hop t ht, List.count_pos_iff]
    exact hid
  outputs op hop id hid := by
    obtain ⟨t, ht, hsource⟩ := Option.bind_eq_some_iff.1
      ((sourceOf_eq_some_iff_mem_outputs hwired hclosed hsingle hop).2 hid)
    exact ⟨t, ht, hsource⟩
  predecessors op hop n hn := by
    obtain ⟨a, ha, rfl, hsucc⟩ := hclosed.predecessors op hop n hn
    exact ⟨a, operator?_of_mem hwired.opIds ha, hsucc⟩
  successors op hop n hn := by
    obtain ⟨c, hc, rfl⟩ := hclosed.successors op hop n hn
    refine ⟨c, operator?_of_mem hwired.opIds hc, hwired.answered op hop c hc hn fun hself => ?_⟩
    obtain rfl := List.inj_on_of_nodup_map hwired.opIds hop hc hself
    rw [← List.count_pos_iff, hcounted.late op hop op hop (Nat.le_refl _),
      Operator.slotPairs_pos_iff] at hn
    obtain ⟨id, hout, hin⟩ := hn
    exact hapart op hop id hin hout

end Linked

/-! ### Layouts do not matter -/

namespace SameWiring

variable {g g' : Graph} (h : SameWiring g g')

include h

theorem symm : SameWiring g' g := ⟨h.1.symm, h.2.1.symm, h.2.2.symm⟩

theorem exists_tensor {t : Tensor} (ht : t ∈ g'.tensors) : ∃ u ∈ g.tensors, u.links = t.links :=
  List.mem_map.1 (h.2.2 ▸ List.mem_map_of_mem ht)

theorem wired {ids : IdSupply} (hwired : Wired ids g) : Wired ids g' := by
  have hids : ∀ tensors : List Tensor,
      tensors.map Tensor.id = (tensors.map Tensor.links).map Prod.fst := fun tensors => by
    rw [List.map_map]
    rfl
  refine hwired.restrict ?_ (fun t ht => ?_) (h.1 ▸ hwired.opIds) fun op hop => h.1 ▸ hop
  · rw [hids, h.2.2, ← hids]
    exact hwired.tensorIds
  · obtain ⟨u, hu, hlinks⟩ := h.exists_tensor ht
    exact ⟨u, hu, congrArg Prod.fst hlinks, congrArg (Prod.fst ∘ Prod.snd) hlinks,
      congrArg (Prod.snd ∘ Prod.snd) hlinks⟩

theorem closed (hclosed : Closed g) : Closed g' where
  sources t ht n hn := by
    obtain ⟨u, hu, hlinks⟩ := h.exists_tensor ht
    exact h.1 ▸ hclosed.sources u hu n ((congrArg (Prod.fst ∘ Prod.snd) hlinks).trans hn)
  targets t ht n hn := by
    obtain ⟨u, hu, hlinks⟩ := h.exists_tensor ht
    have htargets : u.targets = t.targets := congrArg (Prod.snd ∘ Prod.snd) hlinks
    exact h.1 ▸ hclosed.targets u hu n (htargets ▸ hn)
  inputs c hc id hin := by
    obtain ⟨t, ht, rfl⟩ := hclosed.inputs c (h.1 ▸ hc) id hin
    obtain ⟨u, hu, hlinks⟩ := h.symm.exists_tensor ht
    exact ⟨u, hu, congrArg Prod.fst hlinks⟩
  outputs a ha id hout := by
    obtain ⟨t, ht, rfl, hsome⟩ := hclosed.outputs a (h.1 ▸ ha) id hout
    obtain ⟨u, hu, hlinks⟩ := h.symm.exists_tensor ht
    have hsource : u.source = t.source := congrArg (Prod.fst ∘ Prod.snd) hlinks
    exact ⟨u, hu, congrArg Prod.fst hlinks, hsource ▸ hsome⟩
  predecessors := h.1 ▸ hclosed.predecessors
  successors := h.1 ▸ hclosed.successors

end SameWiring

end Graph

namespace Draft

theorem Linked.valid_iff {d : Draft} (h : d.Linked) :
    d.graph.Valid ↔
    (∀ t ∈ d.graph.tensors, ∃ op ∈ d.graph.ops, t.id ∈ op.inputs ∨ t.id ∈ op.outputs) ∧
    d.graph.SingleProducer ∧ d.graph.Apart :=
  ⟨fun hvalid => ⟨fun _ ht => hvalid.mem_use ht, hvalid.singleProducer, hvalid.apart h.counted⟩,
    fun ⟨hused, hsingle, hapart⟩ =>
      Graph.valid_of_apart h.wired h.closed h.counted hsingle hapart hused⟩

/-- Builds a step further, or binds variables; a binding that fails leaves what it has done so
far. -/
def change (d : Draft) : BuildStep ⊕ Bindings → Draft
  | .inl step => d.step step
  | .inr bindings => { d with graph := (Graph.resolve bindings d.graph).2 }

/-- The draft that some changes make of nothing. -/
def shaped (changes : List (BuildStep ⊕ Bindings)) : Draft := changes.foldl change empty

theorem Linked.change {d : Draft} (h : d.Linked) (c : BuildStep ⊕ Bindings) :
    (d.change c).Linked := by
  cases c with
  | inl step => exact (step_grows h.fresh step).linked h
  | inr bindings =>
      have hsame := Graph.resolve_keeps bindings d.graph
      exact ⟨hsame.wired h.wired, hsame.closed h.closed, h.counted.congr hsame.1 (Nat.le_refl _)⟩

theorem shaped_linked (changes : List (BuildStep ⊕ Bindings)) : (shaped changes).Linked := by
  have hrun : ∀ d : Draft, d.Linked → (changes.foldl Draft.change d).Linked := by
    induction changes with
    | nil => exact fun _ h => h
    | cons c changes ih => exact fun d h => ih _ (h.change c)
  exact hrun empty linked_empty

/-- The check lets a graph that has been built, and whose variables may have been bound meanwhile,
through exactly if every tensor is an input or an output, none is an output of two operators, and no
operator takes what it makes. -/
theorem checkValid_shaped_iff (changes : List (BuildStep ⊕ Bindings)) :
    (shaped changes).graph.checkValid = .ok () ↔
      (∀ t ∈ (shaped changes).graph.tensors, ∃ op ∈ (shaped changes).graph.ops, t.id ∈ op.inputs ∨
        t.id ∈ op.outputs) ∧
        (∀ a ∈ (shaped changes).graph.ops, ∀ b ∈ (shaped changes).graph.ops, ∀ id ∈ a.outputs,
          id ∈ b.outputs → a = b) ∧
        ∀ op ∈ (shaped changes).graph.ops, ∀ id ∈ op.inputs, id ∉ op.outputs :=
  Graph.checkValid_eq_ok_iff.trans (shaped_linked changes).valid_iff

end Draft

end TensorDataflow
