import Mathlib.Data.List.Perm.Subperm
import TensorDataflow.Proofs.Graph.Descriptors
import TensorDataflow.Proofs.Graph.History
import TensorDataflow.Proofs.Graph.Soundness
/-!
# Where links come from

Tensors and operators leave graphs and come back, to the same graph or to another, and they keep the
links that they have. What can be said of links after any such moves is said of all tensors and
operators at hand together, wherever they are: `Traced`. A link between two operators goes back to a
tensor that the one lists as output and the other as input, and where a tensor names a producer and
a consumer, one of the two names the other, since whoever was connected last found the other named
by the tensor. That the other was not there to be linked back shows only in the check: in a graph
that passes it the edges between operators are exactly those that its tensors make,
`Traced.mem_predecessors_iff`.
-/

namespace TensorDataflow

theorem nodup_map_of_subperm {α β : Type} {f : α → β} {xs ys : List α} (h : xs.Subperm ys)
    (hys : (ys.map f).Nodup) : (xs.map f).Nodup := by
  obtain ⟨zs, hperm, hsub⟩ := h
  exact (hperm.map f).nodup_iff.1 (hys.sublist (hsub.map f))

/-- The links of all tensors and operators at hand. -/
structure Traced (ids : IdSupply) (tensors : List Tensor) (ops : List Operator) : Prop where
  tensorIds : (tensors.map Tensor.id).Nodup
  tensorsKnown : ∀ t ∈ tensors, t.id < ids.tensor
  opIds : (ops.map Operator.id).Nodup
  opsKnown : ∀ op ∈ ops, op.id < ids.operator
  sourcesKnown : ∀ t ∈ tensors, ∀ n, t.source = some n → n < ids.operator
  targetsKnown : ∀ t ∈ tensors, ∀ n ∈ t.targets, n < ids.operator
  successorsKnown : ∀ op ∈ ops, ∀ n ∈ op.successors, n < ids.operator
  predecessorsKnown : ∀ op ∈ ops, ∀ n ∈ op.predecessors, n < ids.operator
  source : ∀ t ∈ tensors, ∀ a ∈ ops, t.source = some a.id → t.id ∈ a.outputs
  targets : ∀ t ∈ tensors, ∀ c ∈ ops, c.id ∈ t.targets → t.id ∈ c.inputs
  successors : ∀ a ∈ ops, ∀ c ∈ ops, c.id ∈ a.successors → ∃ id ∈ a.outputs, id ∈ c.inputs
  predecessors : ∀ a ∈ ops, ∀ c ∈ ops, a.id ∈ c.predecessors → ∃ id ∈ a.outputs, id ∈ c.inputs
  linked : ∀ t ∈ tensors, ∀ a ∈ ops, ∀ c ∈ ops, t.source = some a.id → c.id ∈ t.targets →
    c.id ∈ a.successors ∨ a.id ∈ c.predecessors

namespace Traced

variable {ids : IdSupply} {tensors : List Tensor} {ops : List Operator}

theorem empty (ids : IdSupply) : Traced ids [] [] := by
  constructor <;> simp

theorem moreIds (h : Traced ids tensors ops) {ids' : IdSupply} (htensor : ids.tensor ≤ ids'.tensor)
    (hoperator : ids.operator ≤ ids'.operator) :
    Traced ids' tensors ops :=
  { h with
    tensorsKnown := fun t ht => Nat.lt_of_lt_of_le (h.tensorsKnown t ht) htensor
    opsKnown := fun op hop => Nat.lt_of_lt_of_le (h.opsKnown op hop) hoperator
    sourcesKnown := fun t ht n hn => Nat.lt_of_lt_of_le (h.sourcesKnown t ht n hn) hoperator
    targetsKnown := fun t ht n hn => Nat.lt_of_lt_of_le (h.targetsKnown t ht n hn) hoperator
    successorsKnown :=
      fun op hop n hn => Nat.lt_of_lt_of_le (h.successorsKnown op hop n hn) hoperator
    predecessorsKnown :=
      fun op hop n hn => Nat.lt_of_lt_of_le (h.predecessorsKnown op hop n hn) hoperator }

/-- It does not matter in which order things are at hand, nor if some are given up. -/
theorem subperm (h : Traced ids tensors ops) {tensors' : List Tensor} {ops' : List Operator}
    (htensors : tensors'.Subperm tensors) (hops : ops'.Subperm ops) :
    Traced ids tensors' ops' := by
  have ht : ∀ t ∈ tensors', t ∈ tensors := fun t ht => htensors.subset ht
  have ho : ∀ op ∈ ops', op ∈ ops := fun op hop => hops.subset hop
  exact {
    tensorIds := nodup_map_of_subperm htensors h.tensorIds
    tensorsKnown := fun t hmem => h.tensorsKnown t (ht t hmem)
    opIds := nodup_map_of_subperm hops h.opIds
    opsKnown := fun op hmem => h.opsKnown op (ho op hmem)
    sourcesKnown := fun t hmem => h.sourcesKnown t (ht t hmem)
    targetsKnown := fun t hmem => h.targetsKnown t (ht t hmem)
    successorsKnown := fun op hmem => h.successorsKnown op (ho op hmem)
    predecessorsKnown := fun op hmem => h.predecessorsKnown op (ho op hmem)
    source := fun t hmem a ha => h.source t (ht t hmem) a (ho a ha)
    targets := fun t hmem c hc => h.targets t (ht t hmem) c (ho c hc)
    successors := fun a ha c hc => h.successors a (ho a ha) c (ho c hc)
    predecessors := fun a ha c hc => h.predecessors a (ho a ha) c (ho c hc)
    linked := fun t hmem a ha c hc => h.linked t (ht t hmem) a (ho a ha) c (ho c hc) }

/-- Layouts, buffers and descriptors do not matter. -/
theorem congr (h : Traced ids tensors ops) {tensors' : List Tensor} {ops' : List Operator}
    (htensors : tensors'.map Tensor.links = tensors.map Tensor.links)
    (hops : ops'.map Operator.bare = ops.map Operator.bare) : Traced ids tensors' ops' := by
  have ht : ∀ t' ∈ tensors', ∃ t ∈ tensors, t.id = t'.id ∧ t.source = t'.source ∧
      t.targets = t'.targets := by
    intro t' ht'
    obtain ⟨t, ht, hlinks⟩ := List.mem_map.1 (htensors ▸ List.mem_map_of_mem ht')
    exact ⟨t, ht, congrArg Prod.fst hlinks, congrArg (Prod.fst ∘ Prod.snd) hlinks,
      congrArg (Prod.snd ∘ Prod.snd) hlinks⟩
  have ho : ∀ op' ∈ ops', ∃ op ∈ ops, op.id = op'.id ∧ op.inputs = op'.inputs ∧ op.outputs =
      op'.outputs ∧ op.predecessors = op'.predecessors ∧ op.successors = op'.successors := by
    intro op' hop'
    obtain ⟨op, hop, hbare⟩ := List.mem_map.1 (hops ▸ List.mem_map_of_mem hop')
    obtain ⟨hid, -, hinputs, houtputs, hpreds, hsuccs, -⟩ := Operator.mk.inj hbare
    exact ⟨op, hop, hid, hinputs, houtputs, hpreds, hsuccs⟩
  have htensorIds : tensors'.map Tensor.id = tensors.map Tensor.id := by
    have hids := congrArg (List.map Prod.fst) htensors
    rwa [List.map_map, List.map_map] at hids
  have hopIds : ops'.map Operator.id = ops.map Operator.id := by
    have hids := congrArg (List.map Operator.id) hops
    rwa [List.map_map, List.map_map] at hids
  constructor
  case tensorIds => exact htensorIds ▸ h.tensorIds
  case opIds => exact hopIds ▸ h.opIds
  case tensorsKnown =>
    intro t' ht'
    obtain ⟨t, hmem, hid, -, -⟩ := ht t' ht'
    exact hid ▸ h.tensorsKnown t hmem
  case opsKnown =>
    intro op' hop'
    obtain ⟨op, hmem, hid, -⟩ := ho op' hop'
    exact hid ▸ h.opsKnown op hmem
  case sourcesKnown =>
    intro t' ht'
    obtain ⟨t, hmem, -, hsource, -⟩ := ht t' ht'
    exact hsource ▸ h.sourcesKnown t hmem
  case targetsKnown =>
    intro t' ht'
    obtain ⟨t, hmem, -, -, htargets⟩ := ht t' ht'
    exact htargets ▸ h.targetsKnown t hmem
  case successorsKnown =>
    intro op' hop'
    obtain ⟨op, hmem, -, -, -, -, hsuccs⟩ := ho op' hop'
    exact hsuccs ▸ h.successorsKnown op hmem
  case predecessorsKnown =>
    intro op' hop'
    obtain ⟨op, hmem, -, -, -, hpreds, -⟩ := ho op' hop'
    exact hpreds ▸ h.predecessorsKnown op hmem
  case source =>
    intro t' ht' a' ha'
    obtain ⟨t, hmem, hid, hsource, -⟩ := ht t' ht'
    obtain ⟨a, hmem', hid', -, houtputs, -⟩ := ho a' ha'
    exact hid ▸ hsource ▸ hid' ▸ houtputs ▸ h.source t hmem a hmem'
  case targets =>
    intro t' ht' c' hc'
    obtain ⟨t, hmem, hid, -, htargets⟩ := ht t' ht'
    obtain ⟨c, hmem', hid', hinputs, -⟩ := ho c' hc'
    exact hid ▸ htargets ▸ hid' ▸ hinputs ▸ h.targets t hmem c hmem'
  case successors =>
    intro a' ha' c' hc'
    obtain ⟨a, hmem, -, -, houtputs, -, hsuccs⟩ := ho a' ha'
    obtain ⟨c, hmem', hid', hinputs, -⟩ := ho c' hc'
    exact houtputs ▸ hsuccs ▸ hid' ▸ hinputs ▸ h.successors a hmem c hmem'
  case predecessors =>
    intro a' ha' c' hc'
    obtain ⟨a, hmem, hid, -, houtputs, -⟩ := ho a' ha'
    obtain ⟨c, hmem', -, hinputs, -, hpreds, -⟩ := ho c' hc'
    exact hid ▸ houtputs ▸ hinputs ▸ hpreds ▸ h.predecessors a hmem c hmem'
  case linked =>
    intro t' ht' a' ha' c' hc'
    obtain ⟨t, hmem, -, hsource, htargets⟩ := ht t' ht'
    obtain ⟨a, hmemA, hidA, -, -, -, hsuccs⟩ := ho a' ha'
    obtain ⟨c, hmemC, hidC, -, -, hpreds, -⟩ := ho c' hc'
    exact hsource ▸ htargets ▸ hidA ▸ hidC ▸ hsuccs ▸ hpreds ▸ h.linked t hmem a hmemA c hmemC

/-- A new tensor has no links. -/
theorem newTensor (h : Traced ids tensors ops) {t : Tensor} (hid : t.id = ids.tensor)
    (hsource : t.source = none) (htargets : t.targets = []) :
    Traced { ids with tensor := ids.tensor + 1 } (t :: tensors) ops := by
  have hcases : ∀ {P : Tensor → Prop}, P t → (∀ u ∈ tensors, P u) → ∀ u ∈ t :: tensors, P u :=
    fun ht hrest => List.forall_mem_cons.2 ⟨ht, hrest⟩
  exact { h with
    tensorIds := by
      refine List.nodup_cons.2 ⟨fun hmem => ?_, h.tensorIds⟩
      obtain ⟨u, hu, heq⟩ := List.mem_map.1 hmem
      exact Nat.lt_irrefl _ (hid ▸ heq ▸ h.tensorsKnown u hu)
    tensorsKnown :=
      hcases (hid ▸ Nat.lt_succ_self _) fun u hu => Nat.lt_succ_of_lt (h.tensorsKnown u hu)
    sourcesKnown := hcases (by simp [hsource]) h.sourcesKnown
    targetsKnown := hcases (by simp [htargets]) h.targetsKnown
    source := hcases (by simp [hsource]) h.source
    targets := hcases (by simp [htargets]) h.targets
    linked := hcases (by simp [hsource]) h.linked }

/-- Nothing is linked to a new operator yet. -/
theorem newOperator (h : Traced ids tensors ops) {op : Operator} (hid : op.id = ids.operator)
    (hpreds : op.predecessors = []) (hsuccs : op.successors = []) :
    Traced { ids with operator := ids.operator + 1 } tensors (op :: ops) := by
  have hcases : ∀ {P : Operator → Prop}, P op → (∀ a ∈ ops, P a) → ∀ a ∈ op :: ops, P a :=
    fun hop hrest => List.forall_mem_cons.2 ⟨hop, hrest⟩
  have hnew : ∀ {n}, n < ids.operator → n ≠ op.id := fun hn heq => Nat.lt_irrefl _ (hid ▸ heq ▸ hn)
  exact {
    tensorIds := h.tensorIds
    tensorsKnown := h.tensorsKnown
    opIds := by
      refine List.nodup_cons.2 ⟨fun hmem => ?_, h.opIds⟩
      obtain ⟨a, ha, heq⟩ := List.mem_map.1 hmem
      exact hnew (h.opsKnown a ha) heq
    opsKnown := hcases (hid ▸ Nat.lt_succ_self _) fun a ha => Nat.lt_succ_of_lt (h.opsKnown a ha)
    sourcesKnown := fun t ht n hn => Nat.lt_succ_of_lt (h.sourcesKnown t ht n hn)
    targetsKnown := fun t ht n hn => Nat.lt_succ_of_lt (h.targetsKnown t ht n hn)
    successorsKnown :=
      hcases (by simp [hsuccs]) fun a ha n hn => Nat.lt_succ_of_lt (h.successorsKnown a ha n hn)
    predecessorsKnown :=
      hcases (by simp [hpreds]) fun a ha n hn => Nat.lt_succ_of_lt (h.predecessorsKnown a ha n hn)
    source := fun t ht =>
      hcases (fun hsource => absurd rfl (hnew (h.sourcesKnown t ht _ hsource))) (h.source t ht)
    targets := fun t ht =>
      hcases (fun htarget => absurd rfl (hnew (h.targetsKnown t ht _ htarget))) (h.targets t ht)
    successors := hcases (by simp [hsuccs]) fun a ha =>
      hcases (fun hsucc => absurd rfl (hnew (h.successorsKnown a ha _ hsucc))) (h.successors a ha)
    predecessors := by
      intro a ha
      refine hcases (by simp [hpreds]) fun c hc hpred => ?_
      rcases List.mem_cons.1 ha with rfl | ha
      · exact absurd rfl (hnew (h.predecessorsKnown c hc _ hpred))
      · exact h.predecessors a ha c hc hpred
    linked := fun t ht =>
      hcases (fun _ _ hsource => absurd rfl (hnew (h.sourcesKnown t ht _ hsource))) fun a ha =>
        hcases (fun _ htarget => absurd rfl (hnew (h.targetsKnown t ht _ htarget)))
          (h.linked t ht a ha) }

end Traced

/-! ### Connecting an operator -/

namespace Graph

/-- Connecting an operator joins two numbers: one is its own, and it finds the other named by a
tensor. -/
def Joins (g : Graph) (op : Operator) (a c : OpId) : Prop :=
  (c = op.id ∧ ∃ id ∈ op.inputs, g.sourceOf id = some a) ∨ (a = op.id ∧ c ∈ g.followersOf op)

/-- What connecting an operator may do to one at hand. Not everyone whom it joins gains a link: one
who is elsewhere, or is the operator itself, is not found in the graph. -/
structure Gains (g : Graph) (op x x' : Operator) : Prop where
  id : x'.id = x.id
  inputs : x'.inputs = x.inputs
  outputs : x'.outputs = x.outputs
  keptSuccessors : ∀ n ∈ x.successors, n ∈ x'.successors
  keptPredecessors : ∀ n ∈ x.predecessors, n ∈ x'.predecessors
  successors : ∀ n ∈ x'.successors, n ∈ x.successors ∨ g.Joins op x.id n
  predecessors : ∀ n ∈ x'.predecessors, n ∈ x.predecessors ∨ g.Joins op n x.id

/-- What connecting an operator may do to a tensor at hand. -/
structure Marks (g : Graph) (op : Operator) (t t' : Tensor) : Prop where
  id : t'.id = t.id
  source : ∀ n, t'.source = some n → t.source = some n ∨ n = op.id ∧ t.id ∈ op.outputs
  targets : ∀ n ∈ t'.targets, n ∈ t.targets ∨ n = op.id ∧ t.id ∈ op.inputs
  linked : ∀ a c, t'.source = some a → c ∈ t'.targets →
    t.source = some a ∧ c ∈ t.targets ∨ g.Joins op a c

variable {g : Graph} {op : Operator}

theorem gains_self (x : Operator) : g.Gains op x x :=
  ⟨rfl, rfl, rfl, fun _ hn => hn, fun _ hn => hn, fun _ hn => .inl hn, fun _ hn => .inl hn⟩

theorem gains_there (x : Operator) :
    g.Gains op x (preceded op.id (g.followersOf op) (g.followed op.id op.inputs x)) where
  id := rfl
  inputs := rfl
  outputs := rfl
  keptSuccessors n hn := List.mem_append_left _ hn
  keptPredecessors n hn := List.mem_append_left _ hn
  successors n hn := by
    refine (List.mem_append.1 hn).imp_right fun hn => ?_
    obtain ⟨hpos, rfl⟩ := List.mem_replicate.1 hn
    obtain ⟨id, hin, hsource⟩ := List.countP_pos_iff.1 (Nat.pos_of_ne_zero hpos)
    exact .inl ⟨rfl, id, hin, of_decide_eq_true hsource⟩
  predecessors n hn := by
    refine (List.mem_append.1 hn).imp_right fun hn => ?_
    obtain ⟨hpos, rfl⟩ := List.mem_replicate.1 hn
    exact .inr ⟨rfl, List.count_pos_iff.1 (Nat.pos_of_ne_zero hpos)⟩

theorem gains_connected : g.Gains op op
      { op with
        predecessors := op.predecessors ++ op.inputs.filterMap g.sourceOf
        successors := op.successors ++ g.followersOf op }
    where
  id := rfl
  inputs := rfl
  outputs := rfl
  keptSuccessors n hn := List.mem_append_left _ hn
  keptPredecessors n hn := List.mem_append_left _ hn
  successors n hn := (List.mem_append.1 hn).imp_right fun hn => .inr ⟨rfl, hn⟩
  predecessors n hn := by
    refine (List.mem_append.1 hn).imp_right fun hn => ?_
    obtain ⟨id, hin, hsource⟩ := List.mem_filterMap.1 hn
    exact .inl ⟨rfl, id, hin, hsource⟩

/-- Every operator at hand after a connection was there before, with some of its links. -/
theorem exists_gains {elsewhere : List Operator} {x' : Operator}
    (hx' : x' ∈ (g.connect op).ops ++ elsewhere) :
    ∃ x ∈ g.ops ++ op :: elsewhere, g.Gains op x x' := by
  rw [connect_eq] at hx'
  rcases List.mem_append.1 hx' with hx' | hx'
  · rcases List.mem_append.1 hx' with hx' | hx'
    · obtain ⟨x, hx, rfl⟩ := List.mem_map.1 hx'
      exact ⟨x, List.mem_append_left _ hx, gains_there x⟩
    · rw [List.mem_singleton.1 hx']
      exact ⟨op, List.mem_append_right _ List.mem_cons_self, gains_connected⟩
  · exact ⟨x', List.mem_append_right _ (List.mem_cons_of_mem _ hx'), gains_self x'⟩

/-- The operator that is connected names everyone whom the connection joins it to. -/
theorem named_of_joins {elsewhere : List Operator}
    (hids : (((g.connect op).ops ++ elsewhere).map Operator.id).Nodup) {a c : Operator}
    (ha : a ∈ (g.connect op).ops ++ elsewhere) (hc : c ∈ (g.connect op).ops ++ elsewhere)
    (h : g.Joins op a.id c.id) : c.id ∈ a.successors ∨ a.id ∈ c.predecessors := by
  have hop :
      ({ op with
        predecessors := op.predecessors ++ op.inputs.filterMap g.sourceOf
        successors := op.successors ++ g.followersOf op } :
        Operator) ∈
      (g.connect op).ops ++ elsewhere := by
    rw [connect_eq]
    exact List.mem_append_left _ (List.mem_append_right _ List.mem_cons_self)
  rcases h with ⟨hself, id, hin, hsource⟩ | ⟨hself, hfollows⟩
  · obtain rfl := List.inj_on_of_nodup_map hids hc hop hself
    exact .inr (List.mem_append_right _ (List.mem_filterMap.2 ⟨id, hin, hsource⟩))
  · obtain rfl := List.inj_on_of_nodup_map hids ha hop hself
    exact .inl (List.mem_append_right _ hfollows)

theorem marks_self (t : Tensor) : g.Marks op t t :=
  ⟨rfl, fun _ hn => .inl hn, fun _ hn => .inl hn, fun _ _ ha hc => .inl ⟨ha, hc⟩⟩

theorem marks_there {t : Tensor} (ht : g.tensor? t.id = some t) :
    g.Marks op t (produced op.id op.outputs (consumed op.id op.inputs t)) := by
  have htargets : ∀ n ∈ (consumed op.id op.inputs t).targets, n ∈ t.targets ∨
      n = op.id ∧ t.id ∈ op.inputs := by
    intro n hn
    refine (List.mem_append.1 hn).imp_right fun hn => ?_
    obtain ⟨hpos, rfl⟩ := List.mem_replicate.1 hn
    exact ⟨rfl, List.count_pos_iff.1 (Nat.pos_of_ne_zero hpos)⟩
  refine ⟨rfl, fun n hn => ?_, htargets, fun a c ha hc => ?_⟩
  · rcases (source_produced _ _ _ _).1 hn with ⟨hout, rfl⟩ | ⟨_, hsource⟩
    · exact .inr ⟨rfl, hout⟩
    · exact .inl hsource
  · rcases (source_produced _ _ _ _).1 ha with ⟨hout, rfl⟩ | ⟨_, hsource⟩
    · exact .inr (.inr ⟨rfl, mem_followersOf_iff.2 ⟨t.id, hout, t, ht, htargets c hc⟩⟩)
    · rcases htargets c hc with hc | ⟨rfl, hin⟩
      · exact .inl ⟨hsource, hc⟩
      · exact .inr (.inl ⟨rfl, t.id, hin, by rw [sourceOf, ht]; exact hsource⟩)

theorem exists_marks {elsewhere : List Tensor} (hids : (g.tensors.map Tensor.id).Nodup)
    {t' : Tensor} (ht' : t' ∈ (g.connect op).tensors ++ elsewhere) :
    ∃ t ∈ g.tensors ++ elsewhere, g.Marks op t t' := by
  rw [connect_eq] at ht'
  rcases List.mem_append.1 ht' with ht' | ht'
  · obtain ⟨t, ht, rfl⟩ := List.mem_map.1 ht'
    exact ⟨t, List.mem_append_left _ ht, marks_there (tensor?_of_mem hids ht)⟩
  · exact ⟨t', List.mem_append_right _ ht', marks_self t'⟩

end Graph

namespace Traced

section Connect

variable {ids : IdSupply} {g : Graph} {op : Operator} {tensors : List Tensor} {ops : List Operator}
  (h : Traced ids (g.tensors ++ tensors) (g.ops ++ op :: ops))

include h

theorem joins_known {a c : OpId} (hjoins : g.Joins op a c) :
    a < ids.operator ∧ c < ids.operator := by
  have hop : op.id < ids.operator := h.opsKnown op (List.mem_append_right _ List.mem_cons_self)
  rcases hjoins with ⟨rfl, id, _, hsource⟩ | ⟨rfl, hfollows⟩
  · obtain ⟨t, ht, hmade⟩ := Option.bind_eq_some_iff.1 hsource
    exact ⟨h.sourcesKnown t (List.mem_append_left _ (Graph.mem_of_tensor? ht)) a hmade, hop⟩
  · obtain ⟨_, _, t, ht, hold | ⟨rfl, _⟩⟩ := Graph.mem_followersOf_iff.1 hfollows
    · exact ⟨hop, h.targetsKnown t (List.mem_append_left _ (Graph.mem_of_tensor? ht)) c hold⟩
    · exact ⟨hop, hop⟩

/-- Whoever a connection joins has a tensor between them. -/
theorem joins_feeds {a c : Operator} (ha : a ∈ g.ops ++ op :: ops) (hc : c ∈ g.ops ++ op :: ops)
    (hjoins : g.Joins op a.id c.id) : ∃ id ∈ a.outputs, id ∈ c.inputs := by
  have hop : op ∈ g.ops ++ op :: ops := List.mem_append_right _ List.mem_cons_self
  rcases hjoins with ⟨hself, id, hin, hsource⟩ | ⟨hself, hfollows⟩
  · obtain rfl := List.inj_on_of_nodup_map h.opIds hc hop hself
    obtain ⟨t, ht, hmade⟩ := Option.bind_eq_some_iff.1 hsource
    obtain rfl := Graph.id_of_tensor? ht
    exact ⟨t.id, h.source t (List.mem_append_left _ (Graph.mem_of_tensor? ht)) a ha hmade, hin⟩
  · obtain rfl := List.inj_on_of_nodup_map h.opIds ha hop hself
    obtain ⟨id, hout, t, ht, hold | ⟨hself, hin⟩⟩ := Graph.mem_followersOf_iff.1 hfollows
    · obtain rfl := Graph.id_of_tensor? ht
      exact ⟨t.id, hout, h.targets t (List.mem_append_left _ (Graph.mem_of_tensor? ht)) c hc hold⟩
    · obtain rfl := List.inj_on_of_nodup_map h.opIds hc hop hself
      exact ⟨id, hout, hin⟩

/-- Connecting an operator at hand keeps every link traced. -/
theorem connect : Traced ids ((g.connect op).tensors ++ tensors) ((g.connect op).ops ++ ops) := by
  have htensorIds : ((g.connect op).tensors ++ tensors).map Tensor.id =
      (g.tensors ++ tensors).map Tensor.id := by
    rw [List.map_append, List.map_append, Bench.ids_connect_tensors]
  have hopIds : ((g.connect op).ops ++ ops).map Operator.id =
      (g.ops ++ op :: ops).map Operator.id := by
    rw [List.map_append, List.map_append, Bench.ids_connect_ops, List.map_cons, List.append_assoc,
      List.singleton_append]
  have hnodup : (((g.connect op).ops ++ ops).map Operator.id).Nodup := hopIds ▸ h.opIds
  have hop : op ∈ g.ops ++ op :: ops := List.mem_append_right _ List.mem_cons_self
  have hmarks : ∀ t' ∈ (g.connect op).tensors ++ tensors, ∃ t ∈ g.tensors ++ tensors,
      g.Marks op t t' := by
    have hids := h.tensorIds
    rw [List.map_append, List.nodup_append] at hids
    exact fun t' ht' => Graph.exists_marks hids.1 ht'
  constructor
  case tensorIds => exact htensorIds ▸ h.tensorIds
  case opIds => exact hnodup
  case tensorsKnown =>
    intro t' ht'
    obtain ⟨t, ht, hmark⟩ := hmarks t' ht'
    exact hmark.id ▸ h.tensorsKnown t ht
  case opsKnown =>
    intro x' hx'
    obtain ⟨x, hx, hgain⟩ := Graph.exists_gains hx'
    exact hgain.id ▸ h.opsKnown x hx
  case sourcesKnown =>
    intro t' ht' n hn
    obtain ⟨t, ht, hmark⟩ := hmarks t' ht'
    rcases hmark.source n hn with hold | ⟨rfl, _⟩
    · exact h.sourcesKnown t ht n hold
    · exact h.opsKnown op hop
  case targetsKnown =>
    intro t' ht' n hn
    obtain ⟨t, ht, hmark⟩ := hmarks t' ht'
    rcases hmark.targets n hn with hold | ⟨rfl, _⟩
    · exact h.targetsKnown t ht n hold
    · exact h.opsKnown op hop
  case successorsKnown =>
    intro x' hx' n hn
    obtain ⟨x, hx, hgain⟩ := Graph.exists_gains hx'
    exact (hgain.successors n hn).elim (h.successorsKnown x hx n) fun hjoins =>
      (h.joins_known hjoins).2
  case predecessorsKnown =>
    intro x' hx' n hn
    obtain ⟨x, hx, hgain⟩ := Graph.exists_gains hx'
    exact (hgain.predecessors n hn).elim (h.predecessorsKnown x hx n) fun hjoins =>
      (h.joins_known hjoins).1
  case source =>
    intro t' ht' a' ha' hsource
    obtain ⟨t, ht, hmark⟩ := hmarks t' ht'
    obtain ⟨a, ha, hgain⟩ := Graph.exists_gains ha'
    rw [hmark.id, hgain.outputs]
    rw [hgain.id] at hsource
    rcases hmark.source _ hsource with hold | ⟨hself, hout⟩
    · exact h.source t ht a ha hold
    · rwa [List.inj_on_of_nodup_map h.opIds ha hop hself]
  case targets =>
    intro t' ht' c' hc' htarget
    obtain ⟨t, ht, hmark⟩ := hmarks t' ht'
    obtain ⟨c, hc, hgain⟩ := Graph.exists_gains hc'
    rw [hmark.id, hgain.inputs]
    rw [hgain.id] at htarget
    rcases hmark.targets _ htarget with hold | ⟨hself, hin⟩
    · exact h.targets t ht c hc hold
    · rwa [List.inj_on_of_nodup_map h.opIds hc hop hself]
  case successors =>
    intro a' ha' c' hc' hsucc
    obtain ⟨a, ha, hgain⟩ := Graph.exists_gains ha'
    obtain ⟨c, hc, hgain'⟩ := Graph.exists_gains hc'
    rw [hgain.outputs, hgain'.inputs]
    rw [hgain'.id] at hsucc
    exact (hgain.successors _ hsucc).elim (h.successors a ha c hc) (h.joins_feeds ha hc)
  case predecessors =>
    intro a' ha' c' hc' hpred
    obtain ⟨a, ha, hgain⟩ := Graph.exists_gains ha'
    obtain ⟨c, hc, hgain'⟩ := Graph.exists_gains hc'
    rw [hgain.outputs, hgain'.inputs]
    rw [hgain.id] at hpred
    exact (hgain'.predecessors _ hpred).elim (h.predecessors a ha c hc) (h.joins_feeds ha hc)
  case linked =>
    intro t' ht' a' ha' c' hc' hsource htarget
    obtain ⟨t, ht, hmark⟩ := hmarks t' ht'
    -- the tensor named both before, or one of them is connected now and finds the other on it
    rcases hmark.linked _ _ hsource htarget with ⟨hsource, htarget⟩ | hjoins
    · obtain ⟨a, ha, hgain⟩ := Graph.exists_gains ha'
      obtain ⟨c, hc, hgain'⟩ := Graph.exists_gains hc'
      rw [hgain.id] at hsource ⊢
      rw [hgain'.id] at htarget ⊢
      exact (h.linked t ht a ha c hc hsource htarget).imp (hgain.keptSuccessors _)
        (hgain'.keptPredecessors _)
    · exact Graph.named_of_joins hnodup ha' hc' hjoins

end Connect

end Traced

/-- Building on one graph keeps the links of all that is at hand traced. -/
theorem Draft.Grows.traced {d d' : Draft} (hgrows : Grows d d') {tensors : List Tensor}
    {ops : List Operator}
    (h : Traced d.ids (d.graph.tensors ++ tensors) (d.graph.ops ++ ops)) :
    Traced d'.ids (d'.graph.tensors ++ tensors) (d'.graph.ops ++ ops) := by
  induction hgrows with
  | refl => exact h
  | elsewhere _ _ _ ih => exact ih.moreIds (Nat.le_add_right _ _) (Nat.le_add_right _ _)
  | @tensor d' _ _ _ t _ hmake ih =>
      obtain ⟨_, ht⟩ := Tensor.make_eq_ok hmake
      refine (ih.newTensor (t := t) (by rw [ht]) (by rw [ht]) (by rw [ht])).subperm
        (List.Perm.subperm ?_) (List.Subperm.refl _)
      rw [pushTensor, List.append_assoc, List.singleton_append]
      exact List.perm_middle
  | operator _ _ ih =>
      exact ((ih.newOperator rfl rfl rfl).subperm (List.Subperm.refl _)
        List.perm_middle.subperm).connect

/-! ### In a graph that passes the check -/

/-- The check compares successors and predecessors with each other. -/
theorem Graph.Valid.mem_successors_iff {g : Graph} (h : g.Valid) {a c : Operator} (ha : a ∈ g.ops)
    (hc : c ∈ g.ops) : c.id ∈ a.successors ↔ a.id ∈ c.predecessors := by
  constructor
  · intro hsucc
    obtain ⟨x, hx, hpred⟩ := h.successors a ha c.id hsucc
    rwa [Option.some.inj ((operator?_of_mem h.opIds hc).symm.trans hx)]
  · intro hpred
    obtain ⟨x, hx, hsucc⟩ := h.predecessors c hc a.id hpred
    rwa [Option.some.inj ((operator?_of_mem h.opIds ha).symm.trans hx)]

namespace Traced

variable {ids : IdSupply} {g : Graph} (h : Traced ids g.tensors g.ops) (hvalid : g.Valid)

include h hvalid

/-- In a graph that passes the check an operator names another as predecessor exactly if a tensor of
the graph names that one as producer and is an input of the first. -/
theorem mem_predecessors_iff {a c : Operator} (ha : a ∈ g.ops) (hc : c ∈ g.ops) :
    a.id ∈ c.predecessors ↔ ∃ t ∈ g.tensors, t.source = some a.id ∧ t.id ∈ c.inputs := by
  constructor
  · intro hpred
    obtain ⟨id, hout, hin⟩ := h.predecessors a ha c hc hpred
    obtain ⟨t, ht, hsource⟩ := hvalid.outputs a ha id hout
    exact ⟨t, Graph.mem_of_tensor? ht, hsource, Graph.id_of_tensor? ht ▸ hin⟩
  · rintro ⟨t, ht, hsource, hin⟩
    obtain ⟨u, hu, htarget⟩ := hvalid.inputs c hc t.id hin
    obtain rfl : t = u := Option.some.inj ((Graph.tensor?_of_mem hvalid.tensorIds ht).symm.trans hu)
    -- only one end of the link is sure to be there, and the check has seen the other
    rcases h.linked t ht a ha c hc hsource htarget with hsucc | hpred
    · exact (hvalid.mem_successors_iff ha hc).1 hsucc
    · exact hpred

end Traced

end TensorDataflow
