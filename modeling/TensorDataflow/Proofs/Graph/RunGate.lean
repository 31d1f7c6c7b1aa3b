import TensorDataflow.Proofs.Graph.History
import TensorDataflow.Proofs.Graph.Soundness
/-!
# What the check before a run guarantees

A run trusts that the operators stand in dependency order, and the check before it trusts that a
graph which counts as sorted still does. After any history that trust is justified as far as the
last sort saw all inputs that have a producer and the links it followed were even, and links are
even where no operator has been put back and none names an output twice for which another was
waiting. Each of the three conditions is needed: without it the check lets a graph through in which
an operator stands before one that it depends on.
-/

namespace TensorDataflow

namespace Graph

/-- Every operator stands after the producer that each of its inputs names. -/
def Ordered (g : Graph) : Prop :=
  ∀ front c rest, g.ops = front ++ c :: rest → ∀ id ∈ c.inputs, ∀ n, g.sourceOf id = some n →
    ∃ a ∈ front, a.id = n

theorem mem_front_of_sublist {α : Type} {front rest before after : List α} {a c : α}
    (hsub : (front ++ c :: rest).Sublist (before ++ c :: after))
    (hnodup : (before ++ c :: after).Nodup) (hbefore : a ∈ before) (ha : a ∈ front ++ c :: rest) :
    a ∈ front := by
  obtain ⟨first, second, hsplit, hfirst, hsecond⟩ := List.sublist_append_iff.1 hsub
  rw [List.nodup_append] at hnodup
  rcases append_eq_append_cons hsplit.symm with ⟨rest', hmem⟩ | ⟨mid, hfront, hrest⟩
  · have hc : c ∈ before := hfirst.subset (hmem ▸ List.mem_append_right _ List.mem_cons_self)
    exact absurd rfl (hnodup.2.2 c hc c List.mem_cons_self)
  · rcases List.mem_append.1 ha with ha | ha
    · exact ha
    · have hlate : a ∈ c :: after := hsecond.subset (hrest ▸ List.mem_append_right _ ha)
      exact absurd rfl (hnodup.2.2 a hbefore a hlate)

end Graph

namespace Bench

section Checked

variable {b : Bench} (htidy : b.Tidy) (hsorted : b.graph.sorted = true) (hvalid : b.graph.Valid)

include htidy hsorted

theorem mem_arranged {c : Operator} (hc : c ∈ b.graph.ops) : c ∈ b.arranged.ops := by
  obtain ⟨order, _, hkept, _⟩ := htidy.settled hsorted
  obtain ⟨x, _, hx⟩ := List.mem_filterMap.1 (hkept.subset hc)
  exact Graph.mem_of_operator? hx

theorem mem_graph_of_operator? {a a' : Operator} (ha : a ∈ b.arranged.ops)
    (hfound : b.graph.operator? a.id = some a') : a ∈ b.graph.ops := by
  have ha' := Graph.mem_of_operator? hfound
  have heq := List.inj_on_of_nodup_map htidy.arrangedOpIds (mem_arranged htidy hsorted ha') ha
    (Graph.id_of_operator? hfound)
  exact heq ▸ ha'

include hvalid

/-- Inputs that name a producer named it at the last sort too, if they were there. -/
theorem sourceOf_arranged {c : Operator} (hc : c ∈ b.graph.ops) {id : TensorId}
    (hin : id ∈ c.inputs)
    (hthere : (b.graph.sourceOf id).isSome → (b.arranged.tensor? id).isSome) :
    b.arranged.sourceOf id = b.graph.sourceOf id := by
  obtain ⟨_, _, _, hsame⟩ := htidy.settled hsorted
  obtain ⟨t, ht, _⟩ := hvalid.inputs c hc id hin
  cases hu : b.arranged.tensor? id with
  | none =>
      have hnone : b.graph.sourceOf id = none := by simpa [hu] using hthere
      rw [hnone, Graph.sourceOf, hu]
      rfl
  | some u =>
      have hids : u.id = t.id := (Graph.id_of_tensor? hu).trans (Graph.id_of_tensor? ht).symm
      rw [Graph.sourceOf, Graph.sourceOf, hu, ht, Option.bind_some, Option.bind_some]
      exact hsame t (List.mem_append_left _ (Graph.mem_of_tensor? ht)) u
        (Graph.mem_of_tensor? hu) hids

theorem mem_graph_of_sourceOf {a : Operator} (ha : a ∈ b.arranged.ops) {id : TensorId}
    (hsource : b.graph.sourceOf id = some a.id) : a ∈ b.graph.ops := by
  obtain ⟨t, ht, hn⟩ := Option.bind_eq_some_iff.1 hsource
  obtain ⟨a', hfound, _⟩ := hvalid.source t (Graph.mem_of_tensor? ht) a.id hn
  exact mem_graph_of_operator? htidy hsorted ha hfound

/-- Operators towards which the links were even at the last sort are still in dependency order. -/
theorem ordered_of_even (hthere : ∀ c ∈ b.graph.ops, ∀ id ∈ c.inputs, (b.graph.sourceOf id).isSome →
      (b.arranged.tensor? id).isSome)
    (heven : ∀ c ∈ b.graph.ops, b.arranged.EvenTo c) : b.graph.Ordered := by
  obtain ⟨order, horder, hkept, _⟩ := htidy.settled hsorted
  have hself : b.arranged.SelfTold (b.graph.ops.map Operator.id) := by
    refine Graph.selfTold_of_even htidy.arrangedOpIds (fun c hc => mem_arranged htidy hsorted hc)
      heven fun c hc id hin a ha hsource => ?_
    rw [sourceOf_arranged htidy hsorted hvalid hc hin (hthere c hc id hin)] at hsource
    exact mem_graph_of_sourceOf htidy hsorted hvalid ha hsource
  intro front c rest hsplit id hin n hsource
  have hc : c ∈ b.graph.ops := hsplit ▸ List.mem_append_right _ List.mem_cons_self
  obtain ⟨t, ht, hn⟩ := Option.bind_eq_some_iff.1 hsource
  obtain ⟨a, hfound, _⟩ := hvalid.source t (Graph.mem_of_tensor? ht) n hn
  obtain rfl := Graph.id_of_operator? hfound
  have ha := Graph.mem_of_operator? hfound
  have hold := mem_arranged htidy hsorted ha
  rw [← sourceOf_arranged htidy hsorted hvalid hc hin (hthere c hc id hin)] at hsource
  have htells := Graph.mem_informed_of_source htidy.arrangedOpIds hold
    (mem_arranged htidy hsorted hc) (heven c hc) hin hsource
  obtain ⟨before, after, harranged⟩ := List.append_of_mem (hkept.subset hc)
  have hbefore := Graph.mem_front_of_arranged htidy.arrangedOpIds horder hself harranged
    (List.mem_map_of_mem hc) hold htells
  have hnodup : (order.eraseDups.filterMap b.arranged.operator?).Nodup := by
    refine List.Nodup.of_map Operator.id ?_
    rw [b.arranged.map_id_filterMap_operator? _ fun x hx =>
      (Graph.told_of_takingOrder? htidy.arrangedOpIds horder).2 x (List.mem_eraseDups.1 hx)]
    exact Graph.nodup_eraseDups order
  rw [harranged] at hnodup hkept
  rw [hsplit] at hkept ha
  exact ⟨a, Graph.mem_front_of_sublist hkept hnodup hbefore ha, rfl⟩

/-- Where no operator has been put back, the links were even towards every operator that none told
twice for one slot. -/
theorem even_of_linked (hlinked : b.Linked) (hthere : ∀ c ∈ b.graph.ops, ∀ id ∈ c.inputs,
      (b.graph.sourceOf id).isSome → (b.arranged.tensor? id).isSome)
    (hdoubles : ∀ a ∈ b.graph.ops, ∀ c ∈ b.graph.ops, ¬ a.Doubles c) {c : Operator}
    (hc : c ∈ b.graph.ops) : b.arranged.EvenTo c := by
  intro a ha
  have hold := mem_arranged htidy hsorted hc
  refine Nat.le_antisymm ?_ (hlinked.arranged.enough a ha c hold)
  by_cases hsucc : c.id ∈ a.successors
  · -- the predecessor that `c` names answers for `a`: it is still there, and so is what it makes
    have hkept : a ∈ b.graph.ops := by
      by_cases hself : a.id = c.id
      · exact List.inj_on_of_nodup_map htidy.arrangedOpIds ha hold hself ▸ hc
      · obtain ⟨a', hfound, _⟩ :=
          hvalid.predecessors c hc a.id (hlinked.arranged.answered a ha c hold hsucc hself)
        exact mem_graph_of_operator? htidy hsorted ha hfound
    refine Nat.le_trans (hlinked.arranged.notTooMany a ha c hold (hdoubles a hkept c hc))
      (List.countP_mono_left fun id hin hout => ?_)
    obtain ⟨t, ht, hsource⟩ := hvalid.outputs a hkept id (by simpa using hout)
    rw [sourceOf_arranged htidy hsorted hvalid hc hin (hthere c hc id hin), Graph.sourceOf, ht,
      Option.bind_some]
    simpa using hsource
  · rw [List.count_eq_zero.2 hsucc]
    exact Nat.zero_le _

end Checked

/-- After any history, a graph that passes the check before a run is in dependency order, if the
last sort saw all inputs that have a producer and followed even links. -/
theorem ordered_of_checkBeforeRun (edits : List Edit)
    (hrun : (after edits).graph.checkBeforeRun = .ok ())
    (hthere : ∀ c ∈ (after edits).graph.ops, ∀ id ∈ c.inputs,
      ((after edits).graph.sourceOf id).isSome → ((after edits).arranged.tensor? id).isSome)
    (hlinks : (∀ c ∈ (after edits).graph.ops, (after edits).arranged.EvenTo c) ∨
      (∀ n, Edit.reconnect n ∉ edits) ∧
      ∀ a ∈ (after edits).graph.ops, ∀ c ∈ (after edits).graph.ops, ¬ a.Doubles c) :
    (after edits).graph.Ordered := by
  obtain ⟨hvalid, hsorted, _⟩ := Graph.checkBeforeRun_eq_ok_iff.1 hrun
  have htidy := tidy_after edits
  refine ordered_of_even htidy hsorted hvalid hthere ?_
  rcases hlinks with heven | ⟨hedits, hdoubles⟩
  · exact heven
  · exact fun c hc => even_of_linked htidy hsorted hvalid (linked_after hedits) hthere hdoubles hc

/-- Some tensors of four elements. -/
def vectors (count : Nat) : List Edit :=
  List.replicate count (.build (.tensor ⟨[.const 4]⟩ none .f32))

/-- A sum into a tensor that is there. -/
def sum (inputs : List TensorId) (output : TensorId) : Edit :=
  .build (.opWithOutputs (.pointwise .add) inputs [output])

/-- A chain whose consumer comes first, sorted, and with a tensor that is away for a while. -/
def chain : List Edit :=
  vectors 3 ++
    [sum [2, 1] 3, sum [1, 1] 2, .sort, .removeTensor 2, .resolve .empty, .insertTensor 0]

theorem ordered_chain :
    (after chain).graph.checkBeforeRun = .ok () ∧ (after chain).graph.Ordered := by
  have hrun : (after chain).graph.checkBeforeRun = .ok () := by decide +kernel
  refine ⟨hrun, ordered_of_checkBeforeRun chain hrun (by decide +kernel)
    (.inr ⟨fun n => ?_, by decide +kernel⟩)⟩
  simp [chain, vectors, sum]

/-- A producer that an operator's input names does not stand before it. -/
theorem not_ordered {g : Graph} (h : ∃ i < g.ops.length, (g.ops[i]?).any fun c =>
      c.inputs.any fun id => (g.sourceOf id).any fun n => ¬ n ∈ (g.ops.take i).map Operator.id) :
    ¬ g.Ordered := by
  intro hordered
  obtain ⟨i, hi, hany⟩ := h
  rw [List.getElem?_eq_getElem hi] at hany
  simp only [Option.any_some, List.any_eq_true, Option.any_eq_true, decide_eq_true_eq] at hany
  obtain ⟨id, hin, n, hsource, hmiss⟩ := hany
  have hsplit : g.ops = g.ops.take i ++ g.ops[i] :: g.ops.drop (i + 1) := by simp
  obtain ⟨a, ha, hid⟩ := hordered _ _ _ hsplit id hin n hsource
  exact hmiss (List.mem_map.2 ⟨a, ha, hid⟩)

/-- A tensor that is away while the graph is sorted and comes back afterwards: the sort does not see
who waits for it. -/
theorem unordered_after_insertTensor :
    let b :=
  after (vectors 3 ++ [sum [2, 1] 3, sum [1, 1] 2, .removeTensor 2, .sort, .insertTensor 0])
    b.graph.checkBeforeRun = .ok () ∧ ¬ b.graph.Ordered :=
  ⟨by decide +kernel, not_ordered (by decide +kernel)⟩

/-- An operator that is taken out and put back is linked twice to what it takes from, and is told
twice. -/
theorem unordered_after_reconnect :
    let b :=
  after (vectors 5 ++ [sum [3, 4] 5, .removeOperator 1, sum [1, 1] 4, .reconnect 0, sum [2, 1] 3,
        sum [1, 1] 2, .sort])
    b.graph.checkBeforeRun = .ok () ∧ ¬ b.graph.Ordered :=
  ⟨by decide +kernel, not_ordered (by decide +kernel)⟩

/-- An operator that names an output twice tells those that have taken it twice. -/
theorem unordered_after_doubling :
    let b :=
  after (vectors 5 ++ [sum [3, 4] 5,
    .build (.opWithOutputs (.declared ⟨.add, 1, 3, 2, .add, none, none⟩) [1] [4, 4]), sum [2, 1] 3,
    sum [1, 1] 2, .sort])
    b.graph.checkBeforeRun = .ok () ∧ ¬ b.graph.Ordered :=
  ⟨by decide +kernel, not_ordered (by decide +kernel)⟩

end Bench

end TensorDataflow
