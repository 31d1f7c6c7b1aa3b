import TensorDataflow.Proofs.Graph.Built
import TensorDataflow.Proofs.Graph.Descriptors
import TensorDataflow.Proofs.Graph.Fitting
import TensorDataflow.Proofs.Graph.RunGate
/-!
# Graphs with buffers

What it takes to run a graph is added to it: buffers to its tensors and descriptors to its
operators. Neither is a link or a layout, so with them a graph is valid, in dependency order and
fitted as it was without, and validity is no matter of the order of the operators at all. A built
graph that has been sorted is in dependency order if it is valid and its operators have one output
each.
-/

namespace TensorDataflow

theorem Operator.fields_of_bare {a b : Operator} (h : a.bare = b.bare) :
    a.id = b.id ∧ a.kind = b.kind ∧ a.inputs = b.inputs ∧ a.outputs = b.outputs ∧
    a.predecessors = b.predecessors ∧ a.successors = b.successors := by
  obtain ⟨hid, hkind, hinputs, houtputs, hpredecessors, hsuccessors, _⟩ := Operator.mk.inj h
  exact ⟨hid, hkind, hinputs, houtputs, hpredecessors, hsuccessors⟩

theorem Tensor.links_eq_iff {t u : Tensor} :
    t.links = u.links ↔ t.id = u.id ∧ t.source = u.source ∧ t.targets = u.targets := by
  simp [Tensor.links]

namespace Graph

/-- Two graphs that have the same links. -/
structure SameLinks (s g : Graph) : Prop where
  tensors : g.tensors.map Tensor.links = s.tensors.map Tensor.links
  ops : g.ops.map Operator.bare = s.ops.map Operator.bare

namespace SameLinks

variable {s g : Graph} (h : SameLinks s g)

include h

theorem symm : SameLinks g s := ⟨h.tensors.symm, h.ops.symm⟩

theorem tensor? {id : TensorId} {t : Tensor} (ht : s.tensor? id = some t) :
    ∃ t', g.tensor? id = some t' ∧ t'.links = t.links := by
  have hfind : ∀ tensors : List Tensor, (tensors.find? fun t => t.id = id).map Tensor.links =
      (tensors.map Tensor.links).find? fun l => l.1 = id := by
    intro tensors
    rw [List.find?_map]
    rfl
  have hsame : (g.tensor? id).map Tensor.links = (s.tensor? id).map Tensor.links := by
    rw [Graph.tensor?, Graph.tensor?, hfind, hfind, h.tensors]
  rw [ht, Option.map_some, Option.map_eq_some_iff] at hsame
  exact hsame

theorem operator? {id : OpId} {op : Operator} (hop : s.operator? id = some op) :
    ∃ op', g.operator? id = some op' ∧ op'.bare = op.bare := by
  have hfind : ∀ ops : List Operator, (ops.find? fun op => op.id = id).map Operator.bare =
      (ops.map Operator.bare).find? fun op => op.id = id := by
    intro ops
    rw [List.find?_map]
    rfl
  have hsame : (g.operator? id).map Operator.bare = (s.operator? id).map Operator.bare := by
    rw [Graph.operator?, Graph.operator?, hfind, hfind, h.ops]
  rw [hop, Option.map_some, Option.map_eq_some_iff] at hsame
  exact hsame

theorem memTensor {t : Tensor} (ht : t ∈ s.tensors) : ∃ t' ∈ g.tensors, t'.links = t.links :=
  List.mem_map.1 (h.tensors ▸ List.mem_map_of_mem ht)

theorem memOp {op : Operator} (hop : op ∈ s.ops) : ∃ op' ∈ g.ops, op'.bare = op.bare :=
  List.mem_map.1 (h.ops ▸ List.mem_map_of_mem hop)

theorem sourceOf (id : TensorId) : g.sourceOf id = s.sourceOf id := by
  cases hs : s.tensor? id with
  | some t =>
      obtain ⟨t', ht', hsame⟩ := h.tensor? hs
      rw [Graph.sourceOf, Graph.sourceOf, hs, ht']
      exact (Tensor.links_eq_iff.1 hsame).2.1
  | none =>
      cases hg : g.tensor? id with
      | none => rw [Graph.sourceOf, Graph.sourceOf, hs, hg]
      | some t =>
          obtain ⟨t', ht', _⟩ := h.symm.tensor? hg
          rw [hs] at ht'
          cases ht'

theorem valid (hvalid : s.Valid) : g.Valid where
  tensorIds := by
    have hids : ∀ tensors : List Tensor,
        tensors.map Tensor.id = (tensors.map Tensor.links).map Prod.fst := fun tensors => by
      rw [List.map_map]
      rfl
    rw [hids, h.tensors, ← hids]
    exact hvalid.tensorIds
  opIds := by
    have hids : ∀ ops : List Operator,
        ops.map Operator.id = (ops.map Operator.bare).map Operator.id := fun ops => by
      rw [List.map_map]
      rfl
    rw [hids, h.ops, ← hids]
    exact hvalid.opIds
  used t ht := by
    obtain ⟨t₀, ht₀, hsame⟩ := h.symm.memTensor ht
    obtain ⟨_, hsource, htargets⟩ := Tensor.links_eq_iff.1 hsame
    rw [← hsource, ← htargets]
    exact hvalid.used t₀ ht₀
  source t ht n hn := by
    obtain ⟨t₀, ht₀, hsame⟩ := h.symm.memTensor ht
    obtain ⟨hid, hsource, _⟩ := Tensor.links_eq_iff.1 hsame
    obtain ⟨a, ha, hout⟩ := hvalid.source t₀ ht₀ n (hsource.trans hn)
    obtain ⟨a', ha', hbare⟩ := h.operator? ha
    obtain ⟨_, _, _, houtputs, _⟩ := Operator.fields_of_bare hbare
    exact ⟨a', ha', houtputs ▸ hid ▸ hout⟩
  targets t ht n hn := by
    obtain ⟨t₀, ht₀, hsame⟩ := h.symm.memTensor ht
    obtain ⟨hid, _, htargets⟩ := Tensor.links_eq_iff.1 hsame
    obtain ⟨c, hc, hin⟩ := hvalid.targets t₀ ht₀ n (htargets ▸ hn)
    obtain ⟨c', hc', hbare⟩ := h.operator? hc
    obtain ⟨_, _, hinputs, _⟩ := Operator.fields_of_bare hbare
    exact ⟨c', hc', hinputs ▸ hid ▸ hin⟩
  inputs op hop id hid := by
    obtain ⟨op₀, hop₀, hbare⟩ := h.symm.memOp hop
    obtain ⟨hnumber, _, hinputs, _⟩ := Operator.fields_of_bare hbare
    obtain ⟨t, ht, htarget⟩ := hvalid.inputs op₀ hop₀ id (hinputs ▸ hid)
    obtain ⟨t', ht', hsame⟩ := h.tensor? ht
    obtain ⟨_, _, htargets⟩ := Tensor.links_eq_iff.1 hsame
    exact ⟨t', ht', htargets ▸ hnumber ▸ htarget⟩
  outputs op hop id hid := by
    obtain ⟨op₀, hop₀, hbare⟩ := h.symm.memOp hop
    obtain ⟨hnumber, _, _, houtputs, _⟩ := Operator.fields_of_bare hbare
    obtain ⟨t, ht, hmade⟩ := hvalid.outputs op₀ hop₀ id (houtputs ▸ hid)
    obtain ⟨t', ht', hsame⟩ := h.tensor? ht
    obtain ⟨_, hsource, _⟩ := Tensor.links_eq_iff.1 hsame
    exact ⟨t', ht', hsource ▸ hnumber ▸ hmade⟩
  predecessors op hop n hn := by
    obtain ⟨op₀, hop₀, hbare⟩ := h.symm.memOp hop
    obtain ⟨hnumber, _, _, _, hpredecessors, _⟩ := Operator.fields_of_bare hbare
    obtain ⟨a, ha, hsucc⟩ := hvalid.predecessors op₀ hop₀ n (hpredecessors ▸ hn)
    obtain ⟨a', ha', hbare'⟩ := h.operator? ha
    obtain ⟨_, _, _, _, _, hsuccessors⟩ := Operator.fields_of_bare hbare'
    exact ⟨a', ha', hsuccessors ▸ hnumber ▸ hsucc⟩
  successors op hop n hn := by
    obtain ⟨op₀, hop₀, hbare⟩ := h.symm.memOp hop
    obtain ⟨hnumber, _, _, _, _, hsuccessors⟩ := Operator.fields_of_bare hbare
    obtain ⟨c, hc, hpred⟩ := hvalid.successors op₀ hop₀ n (hsuccessors ▸ hn)
    obtain ⟨c', hc', hbare'⟩ := h.operator? hc
    obtain ⟨_, _, _, _, hpredecessors, _⟩ := Operator.fields_of_bare hbare'
    exact ⟨c', hc', hpredecessors ▸ hnumber ▸ hpred⟩

theorem ordered (hordered : s.Ordered) : g.Ordered := by
  intro front c rest hsplit id hin n hsource
  have hmap : s.ops.map Operator.bare = front.map Operator.bare ++
      c.bare :: rest.map Operator.bare := by
    rw [← h.ops, hsplit, List.map_append, List.map_cons]
  obtain ⟨front', tail, hsplit', hfront, htail⟩ := List.map_eq_append_iff.1 hmap
  obtain ⟨c', rest', rfl, hbare, _⟩ := List.map_eq_cons_iff.1 htail
  rw [h.sourceOf] at hsource
  obtain ⟨a, ha, hid⟩ :=
    hordered front' c' rest' hsplit' id ((Operator.fields_of_bare hbare).2.2.1 ▸ hin) n hsource
  obtain ⟨a', ha', hbare'⟩ := List.mem_map.1 (hfront ▸ List.mem_map_of_mem ha)
  exact ⟨a', ha', (Operator.id_of_bare hbare').trans hid⟩

end SameLinks

theorem SameBare.sameLinks {g g' : Graph} (h : SameBare g g') : SameLinks g g' :=
  ⟨congrArg _ h.tensors, h.ops⟩

end Graph

/-- A tensor before it gets a buffer. -/
def Tensor.unallocated (t : Tensor) : Tensor := { t with device := .cpu, data := none }

namespace Graph

/-- The second graph is the first with other buffers and descriptors. -/
structure Furnishes (s g : Graph) : Prop where
  tensors : g.tensors.map Tensor.unallocated = s.tensors.map Tensor.unallocated
  ops : g.ops.map Operator.bare = s.ops.map Operator.bare
  sorted : g.sorted = s.sorted

namespace Furnishes

variable {s g : Graph} (h : Furnishes s g)

include h

theorem sameLinks : SameLinks s g := by
  have hlinks : ∀ tensors : List Tensor, tensors.map Tensor.links =
      (tensors.map Tensor.unallocated).map Tensor.links := fun tensors => by
    rw [List.map_map]
    rfl
  exact ⟨by rw [hlinks, h.tensors, ← hlinks], h.ops⟩

theorem fitted (hfitted : s.Fitted) : g.Fitted := by
  refine hfitted.congr ?_ fun op hop => ?_
  · have hbare : ∀ tensors : List Tensor, tensors.map Tensor.bare =
        (tensors.map Tensor.unallocated).map Tensor.bare := fun tensors => by
      rw [List.map_map]
      rfl
    rw [hbare, h.tensors, ← hbare]
  · obtain ⟨op', hop', hbare⟩ := h.sameLinks.symm.memOp hop
    obtain ⟨_, hkind, hinputs, houtputs, _⟩ := Operator.fields_of_bare hbare
    exact ⟨op', hop', hkind, hinputs, houtputs⟩

end Furnishes

/-! ### Other orders of the operators -/

theorem operator?_eq_some_iff {g : Graph} (hids : (g.ops.map Operator.id).Nodup) {n : OpId}
    {op : Operator} : g.operator? n = some op ↔ op ∈ g.ops ∧ op.id = n := by
  constructor
  · exact fun h => ⟨mem_of_operator? h, id_of_operator? h⟩
  · rintro ⟨hop, rfl⟩
    exact operator?_of_mem hids hop

theorem operator?_of_perm {g : Graph} (hids : (g.ops.map Operator.id).Nodup) {ops : List Operator}
    (hperm : ops.Perm g.ops) :
    ({ g with ops } : Graph).operator? = g.operator? := by
  funext n
  apply Option.ext
  intro op
  rw [operator?_eq_some_iff hids, operator?_eq_some_iff ((hperm.map Operator.id).nodup_iff.2 hids)]
  exact and_congr_left fun _ => hperm.mem_iff

theorem Valid.perm {g : Graph} (h : g.Valid) {ops : List Operator} (hperm : ops.Perm g.ops) :
    ({ g with ops } : Graph).Valid := by
  have hfind := operator?_of_perm h.opIds hperm
  refine ⟨h.tensorIds, (hperm.map Operator.id).nodup_iff.2 h.opIds, h.used, ?_, ?_, fun op hop =>
    h.inputs op (hperm.mem_iff.1 hop), fun op hop => h.outputs op (hperm.mem_iff.1 hop), ?_, ?_⟩
  · rw [hfind]
    exact h.source
  · rw [hfind]
    exact h.targets
  · rw [hfind]
    exact fun op hop => h.predecessors op (hperm.mem_iff.1 hop)
  · rw [hfind]
    exact fun op hop => h.successors op (hperm.mem_iff.1 hop)

end Graph

/-! ### Built graphs -/

theorem Draft.Grows.pristine {d d' : Draft} (h : Grows d d')
    (hd : (∀ t ∈ d.graph.tensors, t.data = none) ∧ ∀ op ∈ d.graph.ops, op.descriptor = none) :
    (∀ t ∈ d'.graph.tensors, t.data = none) ∧ ∀ op ∈ d'.graph.ops, op.descriptor = none := by
  induction h with
  | refl => exact hd
  | elsewhere _ _ _ ih => exact ih
  | tensor _ hmake ih =>
      obtain ⟨_, rfl⟩ := Tensor.make_eq_ok hmake
      refine ⟨fun t ht => ?_, ih.2⟩
      rcases List.mem_append.1 ht with ht | ht
      · exact ih.1 t ht
      · rw [List.mem_singleton.1 ht]
  | @operator d' kind inputs outputs _ _ ih =>
      refine ⟨fun t ht => ?_, fun op hop => ?_⟩
      · rw [pushOperator, Graph.connect_eq] at ht
        obtain ⟨t₀, ht₀, rfl⟩ := List.mem_map.1 ht
        exact ih.1 t₀ ht₀
      · rcases Graph.mem_ops_connect { id := d'.ids.operator, kind, inputs, outputs } rfl rfl hop
            with ⟨op₀, hop₀, rfl⟩ | rfl
        · exact ih.2 op₀ hop₀
        · rfl

theorem Draft.built_pristine (steps : List BuildStep) :
    (∀ t ∈ (built steps).graph.tensors, t.data = none) ∧
    ∀ op ∈ (built steps).graph.ops, op.descriptor = none :=
  (built_grows steps).pristine
    ⟨fun _ ht => absurd ht List.not_mem_nil, fun _ hop => absurd hop List.not_mem_nil⟩

/-! ### Sorted graphs -/

theorem Operator.not_doubles {a : Operator} (hone : a.outputs.length ≤ 1) (c : Operator) :
    ¬ a.Doubles c := by
  rintro ⟨_, id, _, hcount⟩
  exact absurd (Nat.le_trans List.count_le_length hone) (Nat.not_le.2 hcount)

namespace Draft

theorem after_builds (steps : List BuildStep) :
    Bench.after (steps.map .build) = { draft := built steps } := by
  have hrun : ∀ d : Draft, (steps.map Edit.build).foldl Bench.apply { draft := d } =
      { draft := steps.foldl step d } := by
    induction steps with
    | nil => exact fun _ => rfl
    | cons s steps ih =>
        intro d
        rw [List.map_cons, List.foldl_cons, List.foldl_cons]
        exact ih _
  exact hrun empty

variable {steps : List BuildStep} {s : Graph} {lost : List Operator}
  (hsort : (built steps).graph.topoSort = .ok (s, lost))

include hsort

theorem tensors_of_sorted : s.tensors = (built steps).graph.tensors ∧ s.sorted = true ∧
    ∀ op ∈ s.ops, op ∈ (built steps).graph.ops := by
  rcases Graph.topoSort_eq_ok hsort with ⟨hsorted, _⟩ | ⟨_, order, _, _, rfl⟩
  · rw [built_unsorted] at hsorted
    cases hsorted
  · refine ⟨rfl, rfl, fun op hop => ?_⟩
    obtain ⟨n, _, hn⟩ := List.mem_filterMap.1 hop
    exact Graph.mem_of_operator? hn

theorem sorted_fitted : s.Fitted := by
  obtain ⟨htensors, _, hops⟩ := tensors_of_sorted hsort
  exact (built_fitted steps).congr (by rw [htensors]) fun op hop => ⟨op, hops op hop, rfl, rfl, rfl⟩

/-- A sorted graph that is valid is in dependency order if every operator has one output. -/
theorem sorted_ordered (hvalid : s.Valid) (hone : ∀ op ∈ s.ops, op.outputs.length ≤ 1) :
    s.Ordered := by
  obtain ⟨htensors, hsorted, _⟩ := tensors_of_sorted hsort
  have hafter : Bench.after (steps.map .build ++ [.sort]) =
      { draft := { built steps with graph := s }, arranged := (built steps).graph } := by
    rw [Bench.after, List.foldl_append, List.foldl_cons, List.foldl_nil,
      show (steps.map Edit.build).foldl Bench.apply {} = _ from after_builds steps, Bench.apply]
    simp only [Bench.graph, hsort, built_unsorted]
    rfl
  have htidy := Bench.tidy_after (steps.map .build ++ [.sort])
  have hlinked := @Bench.linked_after (steps.map .build ++ [.sort]) (by simp)
  rw [hafter] at htidy hlinked
  have hthere : ∀ c ∈ s.ops, ∀ id ∈ c.inputs, (s.sourceOf id).isSome →
      ((built steps).graph.tensor? id).isSome := by
    intro c hc id hin _
    obtain ⟨t, ht, _⟩ := hvalid.inputs c hc id hin
    rw [Graph.tensor?, htensors] at ht
    rw [Graph.tensor?, ht]
    rfl
  have hdoubles : ∀ a ∈ s.ops, ∀ c ∈ s.ops, ¬ a.Doubles c :=
    fun a ha c _ => a.not_doubles (hone a ha) c
  exact Bench.ordered_of_even htidy hsorted hvalid hthere fun c hc =>
    Bench.even_of_linked htidy hsorted hvalid hlinked hthere hdoubles hc

end Draft

end TensorDataflow
