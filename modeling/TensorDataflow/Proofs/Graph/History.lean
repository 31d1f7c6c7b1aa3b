import TensorDataflow.Graph.Inference
import TensorDataflow.Proofs.Graph.Arrangement
/-!
# Histories of a graph

A client builds a graph, takes tensors and operators out of it and puts them back, sorts it and
binds variables, in any order. `Bench.after` is where a history leaves the graph, together with what
the client has set aside and with the graph that was last put in order. Two invariants carry over a
history. `Bench.Tidy` holds after all of them: numbers stay unique, and a graph that counts as
sorted has lost operators at most since it was put in order, while its tensors have kept the
producers they name. `Graph.Wired` holds of the graph and of what is set aside as long as no
operator is put back.
-/

namespace TensorDataflow

namespace Tensor

/-- What a tensor is linked to. -/
def links (t : Tensor) : TensorId × Option OpId × List OpId := (t.id, t.source, t.targets)

end Tensor

namespace Graph

/-- The second graph differs from the first in layouts at most. -/
def SameWiring (g g' : Graph) : Prop :=
  g'.ops = g.ops ∧ g'.sorted = g.sorted ∧ g'.tensors.map Tensor.links = g.tensors.map Tensor.links

instance : IsPreorder Graph SameWiring where
  refl _ := ⟨rfl, rfl, rfl⟩
  trans _ _ _ h h' := ⟨h'.1.trans h.1, h'.2.1.trans h.2.1, h'.2.2.trans h.2.2⟩

theorem sameWiring_modifyTensor (g : Graph) (id : TensorId) {f : Tensor → Tensor}
    (hf : ∀ t, (f t).links = t.links) : SameWiring g (g.modifyTensor id f) := by
  refine ⟨rfl, rfl, ?_⟩
  rw [modifyTensor, List.map_map]
  refine List.map_congr_left fun t _ => ?_
  rw [Function.comp_apply]
  split
  · exact hf t
  · rfl

theorem setInferred_keeps (id : TensorId) (shape : Shape) :
    (setInferred id shape).Keeps SameWiring := by
  intro g
  rw [setInferred]
  simp only [Act.bind_apply, Act.get_apply, Act.ofExcept_apply]
  cases g.tensor id with
  | error e => exact refl_of SameWiring g
  | ok t =>
      by_cases hshape : t.shape = shape
      · simp only [hshape, if_true]
        exact refl_of SameWiring g
      · simp only [hshape, if_false]
        exact g.sameWiring_modifyTensor id fun _ => rfl

theorem inferOperator_keeps (op : Operator) : (inferOperator op).Keeps SameWiring := by
  unfold inferOperator
  refine Act.Keeps.bind Act.keeps_get fun g =>
    Act.Keeps.bind (Act.keeps_ofExcept _) fun shapes => ?_
  dsimp only
  split
  · refine Act.Keeps.bind (Act.keeps_throw _) fun _ =>
      Act.Keeps.bind (Act.Keeps.mapM (fun pair => ?_) _) fun _ => Act.keeps_pure _
    exact Act.Keeps.bind (setInferred_keeps _ _) fun _ => Act.keeps_pure _
  · refine Act.Keeps.bind (Act.Keeps.mapM (fun pair => ?_) _) fun _ => Act.keeps_pure _
    exact Act.Keeps.bind (setInferred_keeps _ _) fun _ => Act.keeps_pure _

theorem substituteFrom_links (bindings : Bindings) (tensors : List Tensor) :
    (substituteFrom bindings tensors).2.map Tensor.links = tensors.map Tensor.links := by
  induction tensors with
  | nil => rfl
  | cons t rest ih =>
      rw [substituteFrom]
      cases hsub : t.substitute bindings with
      | error e => rfl
      | ok t' =>
          obtain ⟨_, _, hpure⟩ := except_bind_eq_ok.1 hsub
          cases hpure
          simp only [List.map_cons, ih]
          rfl

theorem shapeInfer_keeps : shapeInfer.Keeps SameWiring :=
  Act.keeps_get.bind fun _ => (Act.Keeps.mapM inferOperator_keeps _).bind fun _ => Act.keeps_pure _

theorem resolve_keeps (bindings : Bindings) : (resolve bindings).Keeps SameWiring := by
  have hsubstitute : (substituteAll bindings).Keeps SameWiring :=
    fun g => ⟨rfl, rfl, substituteFrom_links bindings g.tensors⟩
  refine hsubstitute.bind fun _ => shapeInfer_keeps.bind fun changed => ?_
  refine Act.Keeps.bind (fun g => ?_) fun _ => Act.keeps_pure _
  show SameWiring g (changed.foldl (fun g id => g.modifyTensor id Tensor.resetStride) g)
  induction changed generalizing g with
  | nil => exact refl_of SameWiring g
  | cons id changed ih =>
      exact IsTrans.trans _ (g.modifyTensor id Tensor.resetStride)
        _ (g.sameWiring_modifyTensor id fun _ => rfl) (ih _)

end Graph

/-! ### Edits -/

/-- A change that a client makes. -/
inductive Edit where
  | build (step : BuildStep)
  | makeTensor (shape : Shape) (stride : Option Stride) (kind : ElementKind)
  | insertTensor (n : Nat)
  | removeTensor (id : TensorId)
  | removeOperator (id : OpId)
  | reconnect (n : Nat)
  | sort
  | resolve (bindings : Bindings)

/-- A graph with what a client has set aside, and the graph as it was before it was last put in
order. -/
structure Bench where
  draft : Draft := .empty
  loose : List Tensor := []
  removed : List Operator := []
  arranged : Graph := .empty

namespace Bench

def graph (b : Bench) : Graph := b.draft.graph

def withGraph (b : Bench) (graph : Graph) : Bench := { b with draft := { b.draft with graph } }

/-- Makes a change; one that fails leaves what it has done so far. -/
def apply (b : Bench) : Edit → Bench
  | .build step => { b with draft := b.draft.step step }
  | .makeTensor shape stride kind =>
      match Draft.makeTensor shape stride kind b.draft with
      | (.ok t, draft) => { b with draft, loose := b.loose ++ [t] }
      | (.error _, draft) => { b with draft }
  | .insertTensor n =>
      match b.loose[n]? with
      | some t => { b with draft := (Draft.insertTensor t b.draft).2, loose := b.loose.eraseIdx n }
      | none => b
  | .removeTensor id =>
      match b.graph.removeTensor id with
      | some (t, graph) => { b.withGraph graph with loose := b.loose ++ [t] }
      | none => b
  | .removeOperator id =>
      match b.graph.removeOperator id with
      | some (op, graph) => { b.withGraph graph with removed := b.removed ++ [op] }
      | none => b
  | .reconnect n =>
      match b.removed[n]? with
      | some op => { b.withGraph (b.graph.connect op) with removed := b.removed.eraseIdx n }
      | none => b
  | .sort =>
      match b.graph.topoSort with
      | .ok (graph, _) =>
          { b.withGraph graph with arranged := if b.graph.sorted then b.arranged else b.graph }
      | .error _ => b
  | .resolve bindings => b.withGraph (Graph.resolve bindings b.graph).2

/-- Where a history leads from nothing. -/
def after (edits : List Edit) : Bench := edits.foldl apply {}

/-- All tensors at hand, in the graph or not. -/
def pool (b : Bench) : List Tensor := b.graph.tensors ++ b.loose

/-- What a graph that counts as sorted still has of the order it was put in. -/
def Settled (b : Bench) : Prop :=
  ∃ order, (b.arranged.takingOrder? fun _ queue => queue) = some order ∧
    b.graph.ops.Sublist (order.eraseDups.filterMap b.arranged.operator?) ∧
    ∀ t ∈ b.pool, ∀ u ∈ b.arranged.tensors, u.id = t.id → u.source = t.source

/-- What holds after every history. -/
structure Tidy (b : Bench) : Prop where
  tensorIds : (b.pool.map Tensor.id).Nodup
  tensorsKnown : ∀ t ∈ b.pool, t.id < b.draft.ids.tensor
  opIds : ((b.graph.ops ++ b.removed).map Operator.id).Nodup
  opsKnown : ∀ op ∈ b.graph.ops ++ b.removed, op.id < b.draft.ids.operator
  arrangedTensorIds : (b.arranged.tensors.map Tensor.id).Nodup
  arrangedTensorsKnown : ∀ t ∈ b.arranged.tensors, t.id < b.draft.ids.tensor
  arrangedOpIds : (b.arranged.ops.map Operator.id).Nodup
  settled : b.graph.sorted = true → b.Settled

theorem tidy_empty : Tidy {} := by
  constructor <;> simp [pool, graph, Draft.empty, Graph.empty]

/-- Tensors and operators that change places, and operators that leave a sorted graph, keep a bench
tidy. -/
theorem Tidy.rearrange {b b' : Bench} (h : b.Tidy) (hids : b'.draft.ids = b.draft.ids)
    (harranged : b'.arranged = b.arranged)
    (htensors : (b'.pool.map Tensor.id).Perm (b.pool.map Tensor.id))
    (hops : ((b'.graph.ops ++ b'.removed).map Operator.id).Perm
        ((b.graph.ops ++ b.removed).map Operator.id))
    (hsorted : b'.graph.sorted = true → b.graph.sorted = true ∧ b'.graph.ops.Sublist b.graph.ops ∧
      ∀ t ∈ b'.pool, ∃ u ∈ b.pool, u.id = t.id ∧ u.source = t.source) :
    b'.Tidy where
  tensorIds := htensors.nodup_iff.2 h.tensorIds
  tensorsKnown t ht := by
    obtain ⟨u, hu, hid⟩ := List.mem_map.1 (htensors.mem_iff.1 (List.mem_map_of_mem ht))
    exact hids ▸ hid ▸ h.tensorsKnown u hu
  opIds := hops.nodup_iff.2 h.opIds
  opsKnown op hop := by
    obtain ⟨a, ha, hid⟩ := List.mem_map.1 (hops.mem_iff.1 (List.mem_map_of_mem hop))
    exact hids ▸ hid ▸ h.opsKnown a ha
  arrangedTensorIds := harranged ▸ h.arrangedTensorIds
  arrangedTensorsKnown := by
    rw [harranged, hids]
    exact h.arrangedTensorsKnown
  arrangedOpIds := harranged ▸ h.arrangedOpIds
  settled hs := by
    obtain ⟨hold, hsub, hsources⟩ := hsorted hs
    obtain ⟨order, horder, hkept, hsame⟩ := h.settled hold
    refine ⟨order, harranged ▸ horder, by rw [harranged]; exact hsub.trans hkept,
      fun t ht u hu hid => ?_⟩
    obtain ⟨t₀, ht₀, hid₀, hsource₀⟩ := hsources t ht
    exact (hsame t₀ ht₀ u (harranged ▸ hu) (hid.trans hid₀.symm)).trans hsource₀

theorem Tidy.moreTensors {b b' : Bench} (h : b.Tidy) {t : Tensor} (hid : t.id = b.draft.ids.tensor)
    (hids : b'.draft.ids = { b.draft.ids with tensor := b.draft.ids.tensor + 1 })
    (harranged : b'.arranged = b.arranged)
    (hpool : b'.pool.Perm (b.pool ++ [t])) (hops : b'.graph.ops = b.graph.ops)
    (hremoved : b'.removed = b.removed) (hsorted : b'.graph.sorted = b.graph.sorted) :
    b'.Tidy where
  tensorIds := by
    rw [(hpool.map Tensor.id).nodup_iff, List.map_append, List.map_singleton, List.nodup_append]
    refine ⟨h.tensorIds, List.nodup_singleton _, fun x hx y hy => ?_⟩
    obtain ⟨u, hu, rfl⟩ := List.mem_map.1 hx
    rw [List.mem_singleton] at hy
    rw [hy, hid]
    exact Nat.ne_of_lt (h.tensorsKnown u hu)
  tensorsKnown u hu := by
    rw [hids]
    rcases List.mem_append.1 (hpool.mem_iff.1 hu) with hu | hu
    · exact Nat.lt_succ_of_lt (h.tensorsKnown u hu)
    · exact List.mem_singleton.1 hu ▸ hid ▸ Nat.lt_succ_self _
  opIds := by
    rw [hops, hremoved]
    exact h.opIds
  opsKnown := by
    rw [hops, hremoved, hids]
    exact h.opsKnown
  arrangedTensorIds := harranged ▸ h.arrangedTensorIds
  arrangedTensorsKnown u hu := by
    rw [hids]
    exact Nat.lt_succ_of_lt (h.arrangedTensorsKnown u (harranged ▸ hu))
  arrangedOpIds := harranged ▸ h.arrangedOpIds
  settled hs := by
    obtain ⟨order, horder, hkept, hsame⟩ := h.settled (hsorted ▸ hs)
    refine ⟨order, harranged ▸ horder, by rw [harranged, hops]; exact hkept,
      fun v hv u hu heq => ?_⟩
    rcases List.mem_append.1 (hpool.mem_iff.1 hv) with hv | hv
    · exact hsame v hv u (harranged ▸ hu) heq
    · -- the new number is none of those that were there when the graph was put in order
      rw [List.mem_singleton.1 hv, hid] at heq
      exact absurd (h.arrangedTensorsKnown u (harranged ▸ hu)) (heq ▸ Nat.lt_irrefl _)

theorem ids_connect_tensors (g : Graph) (op : Operator) :
    (g.connect op).tensors.map Tensor.id = g.tensors.map Tensor.id := by
  rw [Graph.connect_eq, List.map_map]
  rfl

theorem ids_connect_ops (g : Graph) (op : Operator) :
    (g.connect op).ops.map Operator.id = g.ops.map Operator.id ++ [op.id] := by
  rw [Graph.connect_eq, List.map_append, List.map_map, List.map_singleton]
  rfl

theorem sorted_connect (g : Graph) (op : Operator) : (g.connect op).sorted = false := by
  rw [Graph.connect_eq]

theorem Tidy.skip {b : Bench} (h : b.Tidy) (tensors operators : Nat) :
    ({ b with draft := b.draft.skip tensors operators } : Bench).Tidy where
  tensorIds := h.tensorIds
  tensorsKnown t ht := Nat.lt_add_right _ (h.tensorsKnown t ht)
  opIds := h.opIds
  opsKnown op hop := Nat.lt_add_right _ (h.opsKnown op hop)
  arrangedTensorIds := h.arrangedTensorIds
  arrangedTensorsKnown t ht := Nat.lt_add_right _ (h.arrangedTensorsKnown t ht)
  arrangedOpIds := h.arrangedOpIds
  settled := h.settled

/-- A connected operator with a new number keeps a bench tidy; the graph does not count as sorted
then. -/
theorem Tidy.newOperator {b : Bench} (h : b.Tidy) (kind : OpKind) (inputs outputs : List TensorId) :
    ({ b with draft := b.draft.pushOperator kind inputs outputs } : Bench).Tidy := by
  have hops :
      ((b.draft.pushOperator kind inputs outputs).graph.ops ++ b.removed).map Operator.id |>.Perm
      ((b.graph.ops ++ b.removed).map Operator.id ++ [b.draft.ids.operator]) := by
    rw [List.map_append, List.map_append, Draft.pushOperator, ids_connect_ops, List.append_assoc,
      List.append_assoc]
    exact List.perm_append_comm.append_left _
  have htensors : (Bench.pool { b with draft := b.draft.pushOperator kind inputs outputs }).map
      Tensor.id = b.pool.map Tensor.id := by
    rw [pool, pool, List.map_append, List.map_append]
    exact congrArg (· ++ _) (ids_connect_tensors _ _)
  refine ⟨?_, fun t ht => ?_, ?_, fun op hop => ?_, h.arrangedTensorIds, h.arrangedTensorsKnown,
    h.arrangedOpIds, fun hsorted => ?_⟩
  · rw [htensors]
    exact h.tensorIds
  · obtain ⟨u, hu, hid⟩ := List.mem_map.1 (htensors ▸ List.mem_map_of_mem ht)
    exact hid ▸ h.tensorsKnown u hu
  · refine hops.nodup_iff.2
      (List.nodup_append.2 ⟨h.opIds, List.nodup_singleton _, fun x hx y hy => ?_⟩)
    obtain ⟨a, ha, rfl⟩ := List.mem_map.1 hx
    rw [List.mem_singleton] at hy
    exact hy ▸ Nat.ne_of_lt (h.opsKnown a ha)
  · show op.id < b.draft.ids.operator + 1
    rcases List.mem_append.1 (hops.mem_iff.1 (List.mem_map_of_mem hop)) with hold | hnew
    · obtain ⟨a, ha, hid⟩ := List.mem_map.1 hold
      exact hid ▸ Nat.lt_succ_of_lt (h.opsKnown a ha)
    · exact List.mem_singleton.1 hnew ▸ Nat.lt_succ_self _
  · rw [graph, Draft.pushOperator, sorted_connect] at hsorted
    cases hsorted

theorem Tidy.grow {b : Bench} (h : b.Tidy) {d : Draft} (hgrows : Draft.Grows b.draft d) :
    ({ b with draft := d } : Bench).Tidy := by
  induction hgrows with
  | refl => exact h
  | elsewhere tensors operators _ ih => exact ih.skip tensors operators
  | @tensor d _ _ _ t _ hmake ih =>
      obtain ⟨_, ht⟩ := Tensor.make_eq_ok hmake
      refine ih.moreTensors (t := t) (by rw [ht]) rfl rfl ?_ rfl rfl rfl
      simp only [pool, graph, Draft.pushTensor, List.append_assoc]
      exact List.perm_append_comm.append_left _
  | operator _ _ ih => exact ih.newOperator _ _ _

theorem perm_setAside {α : Type} {p : α → Bool} {xs : List α} {a : α} (h : xs.find? p = some a)
    (aside : List α) :
    (xs.eraseP p ++ (aside ++ [a])).Perm (xs ++ aside) := by
  obtain ⟨hp, front, rest, rfl, hfront⟩ := List.find?_eq_some_iff_append.1 h
  have hnone : ∀ b ∈ front, ¬ p b = true := fun b hb => by simpa using hfront b hb
  rw [List.eraseP_append_right _ hnone, List.eraseP_cons_of_pos hp, List.append_assoc,
    List.append_assoc, List.cons_append, ← List.append_assoc rest]
  exact (List.perm_append_singleton a (rest ++ aside)).append_left _

theorem perm_putBack {α : Type} (xs : List α) {aside : List α} {n : Nat} {a : α}
    (h : aside[n]? = some a) :
    (xs ++ [a] ++ aside.eraseIdx n).Perm (xs ++ aside) := by
  obtain ⟨hn, rfl⟩ := List.getElem?_eq_some_iff.1 h
  rw [List.append_assoc, List.singleton_append]
  exact (List.getElem_cons_eraseIdx_perm hn).append_left _

/-! ### One change -/

theorem Tidy.fresh {b : Bench} (h : b.Tidy) : b.draft.Fresh :=
  fun t ht => h.tensorsKnown t (List.mem_append_left _ ht)

/-- A loose tensor can always be put in: its number is not in the graph. -/
theorem insertTensor_apply {b : Bench} (h : b.Tidy) {t : Tensor} (ht : t ∈ b.loose) :
    (Draft.insertTensor t b.draft).2 =
      { b.draft with graph := { b.graph with tensors := b.graph.tensors ++ [t] } } := by
  have habsent : b.draft.graph.tensor? t.id = none := by
    rw [Option.eq_none_iff_forall_ne_some]
    intro u hu
    have hids := h.tensorIds
    rw [pool, List.map_append, List.nodup_append] at hids
    exact hids.2.2 _ (List.mem_map_of_mem (Graph.mem_of_tensor? hu)) _ (List.mem_map_of_mem ht)
      (Graph.id_of_tensor? hu)
  simp only [Draft.insertTensor_apply, habsent]
  rfl

theorem mem_pool_resolve {b : Bench} {bindings : Bindings} {t : Tensor}
    (ht : t ∈ (b.apply (.resolve bindings)).pool) : ∃ u ∈ b.pool, u.links = t.links := by
  obtain ⟨_, _, hlinks⟩ := Graph.resolve_keeps bindings b.graph
  rcases List.mem_append.1 ht with ht | ht
  · obtain ⟨u, hu, heq⟩ := List.mem_map.1 (hlinks ▸ List.mem_map_of_mem ht)
    exact ⟨u, List.mem_append_left _ hu, heq⟩
  · exact ⟨t, List.mem_append_right _ ht, rfl⟩

theorem Tidy.putInOrder {b : Bench} (h : b.Tidy) {order : List OpId}
    (horder : (b.graph.takingOrder? fun _ queue => queue) = some order) :
    ({ b.withGraph
        { b.graph with ops := order.eraseDups.filterMap b.graph.operator?, sorted := true } with
      arranged := b.graph } : Bench).Tidy := by
  have hopIds := h.opIds
  rw [List.map_append, List.nodup_append] at hopIds
  have htensorIds := h.tensorIds
  rw [pool, List.map_append, List.nodup_append] at htensorIds
  have hsubset : ∀ x ∈ order.eraseDups, x ∈ b.graph.ops.map Operator.id := fun x hx =>
    (Graph.told_of_takingOrder? hopIds.1 horder).2 x (List.mem_eraseDups.1 hx)
  refine ⟨h.tensorIds, h.tensorsKnown, ?_, fun op hop => ?_, htensorIds.1,
    fun t ht => h.tensorsKnown t (List.mem_append_left _ ht), hopIds.1,
    fun _ => ⟨order, horder, .refl _, fun t ht u hu hid => ?_⟩⟩
  · show ((order.eraseDups.filterMap b.graph.operator? ++ b.removed).map Operator.id).Nodup
    rw [List.map_append, b.graph.map_id_filterMap_operator? _ hsubset, List.nodup_append]
    exact ⟨Graph.nodup_eraseDups order, hopIds.2.1, fun x hx => hopIds.2.2 x (hsubset x hx)⟩
  · rcases List.mem_append.1 hop with hop | hop
    · obtain ⟨x, _, hx⟩ := List.mem_filterMap.1 hop
      exact h.opsKnown op (List.mem_append_left _ (Graph.mem_of_operator? hx))
    · exact h.opsKnown op (List.mem_append_right _ hop)
  · exact congrArg Tensor.source
      (List.inj_on_of_nodup_map h.tensorIds (List.mem_append_left _ hu) ht hid)

theorem Tidy.apply {b : Bench} (h : b.Tidy) (e : Edit) : (b.apply e).Tidy := by
  cases e with
  | build step => exact h.grow (Draft.step_grows h.fresh step)
  | makeTensor shape stride kind =>
      rw [Bench.apply, Draft.makeTensor_apply]
      cases hmake : Tensor.make b.draft.ids.tensor shape stride kind with
      | error e => exact h
      | ok t =>
          obtain ⟨_, ht⟩ := Tensor.make_eq_ok hmake
          refine h.moreTensors (t := t) (by rw [ht]) rfl rfl ?_ rfl rfl rfl
          simp [pool, graph]
  | insertTensor n =>
      rw [Bench.apply]
      cases hloose : b.loose[n]? with
      | none => exact h
      | some t =>
          have hmove : (b.graph.tensors ++ [t] ++ b.loose.eraseIdx n).Perm b.pool :=
            perm_putBack _ hloose
          simp only [insertTensor_apply h (List.mem_of_getElem? hloose)]
          exact h.rearrange rfl rfl (hmove.map _) (.refl _) fun hs =>
            ⟨hs, .refl _, fun u hu => ⟨u, hmove.mem_iff.1 hu, rfl, rfl⟩⟩
  | removeTensor id =>
      rw [Bench.apply, Graph.removeTensor]
      cases hfound : b.graph.tensor? id with
      | none => exact h
      | some t =>
          have hmove : (b.graph.tensors.eraseP (fun t => t.id = id) ++ (b.loose ++ [t])).Perm
              b.pool := perm_setAside hfound _
          exact h.rearrange rfl rfl (hmove.map _) (.refl _) fun hs =>
            ⟨hs, .refl _, fun u hu => ⟨u, hmove.mem_iff.1 hu, rfl, rfl⟩⟩
  | removeOperator id =>
      rw [Bench.apply, Graph.removeOperator]
      cases hfound : b.graph.operator? id with
      | none => exact h
      | some op =>
          have hmove : (b.graph.ops.eraseP (fun op => op.id = id) ++ (b.removed ++ [op])).Perm
              (b.graph.ops ++ b.removed) := perm_setAside hfound _
          exact h.rearrange rfl rfl (.refl _) (hmove.map _) fun hs =>
            ⟨hs, List.eraseP_sublist, fun u hu => ⟨u, hu, rfl, rfl⟩⟩
  | reconnect n =>
      rw [Bench.apply]
      cases hremoved : b.removed[n]? with
      | none => exact h
      | some op =>
          refine h.rearrange rfl rfl ?_ ?_ fun hs => ?_
          · rw [pool, pool, List.map_append, List.map_append]
            exact .of_eq (congrArg (· ++ _) (ids_connect_tensors _ _))
          · show ((b.graph.connect op).ops ++ b.removed.eraseIdx n).map Operator.id |>.Perm _
            rw [List.map_append, ids_connect_ops, ← List.map_singleton, ← List.map_append,
              ← List.map_append]
            exact (perm_putBack _ hremoved).map _
          · have htrue : (b.graph.connect op).sorted = true := hs
            rw [sorted_connect] at htrue
            cases htrue
  | sort =>
      rw [Bench.apply]
      cases hsort : b.graph.topoSort with
      | error e => exact h
      | ok result =>
          rcases Graph.topoSort_eq_ok hsort
              with ⟨hsorted, hsame⟩ | ⟨hsorted, order, horder, _, hnew⟩
          · simp only [hsorted, if_true, hsame]
            exact h
          · simp only [hsorted, Bool.false_eq_true, if_false, hnew]
            exact h.putInOrder horder
  | resolve bindings =>
      obtain ⟨hops, hsorted, hlinks⟩ := Graph.resolve_keeps bindings b.graph
      refine h.rearrange rfl rfl ?_ (.of_eq ?_) fun hs =>
        ⟨hsorted ▸ hs, hops ▸ .refl _, fun t ht => ?_⟩
      · have hids := congrArg (List.map Prod.fst) hlinks
        rw [List.map_map, List.map_map] at hids
        rw [pool, pool, List.map_append, List.map_append]
        exact .of_eq (congrArg (· ++ _) hids)
      · exact congrArg (fun ops => (ops ++ b.removed).map Operator.id) hops
      · obtain ⟨u, hu, heq⟩ := mem_pool_resolve ht
        exact ⟨u, hu, congrArg Prod.fst heq, congrArg (Prod.fst ∘ Prod.snd) heq⟩

theorem tidy_after (edits : List Edit) : (after edits).Tidy := by
  have hrun : ∀ b : Bench, b.Tidy → (edits.foldl apply b).Tidy := by
    induction edits with
    | nil => exact fun _ h => h
    | cons e edits ih => exact fun b h => ih _ (h.apply e)
  exact hrun {} tidy_empty

/-! ### Histories in which no operator comes back -/

/-- The links of all that is at hand agree, and did so when the graph was put in order. -/
structure Linked (b : Bench) : Prop where
  now : Graph.Wired b.draft.ids (b.graph.withLoose b.loose)
  arranged : Graph.Wired b.draft.ids b.arranged

theorem linked_empty : Linked {} := ⟨.empty _, .empty _⟩

/-- Tensors that change places or layouts, and operators that leave, keep the links in agreement. -/
theorem Linked.rearrange {b b' : Bench} (h : b.Linked) (htidy : b'.Tidy)
    (hids : b'.draft.ids = b.draft.ids) (harranged : Graph.Wired b.draft.ids b'.arranged)
    (htensors : ∀ t ∈ b'.pool, ∃ u ∈ b.pool, u.links = t.links)
    (hops : ∀ op ∈ b'.graph.ops, op ∈ b.graph.ops) : b'.Linked := by
  have hopIds := htidy.opIds
  rw [List.map_append, List.nodup_append] at hopIds
  refine ⟨?_, hids ▸ harranged⟩
  rw [hids]
  refine h.now.restrict htidy.tensorIds (fun t ht => ?_) hopIds.1 hops
  obtain ⟨u, hu, heq⟩ := htensors t ht
  exact ⟨u, hu, congrArg Prod.fst heq, congrArg (Prod.fst ∘ Prod.snd) heq,
    congrArg (Prod.snd ∘ Prod.snd) heq⟩

theorem Linked.apply {b : Bench} (h : b.Linked) (htidy : b.Tidy) {e : Edit}
    (he : ∀ n, e ≠ .reconnect n) : (b.apply e).Linked := by
  have hnext := htidy.apply e
  cases e with
  | build step =>
      have hgrows := Draft.step_grows htidy.fresh step
      exact ⟨hgrows.wired b.loose h.now, h.arranged.moreIds hgrows.ids_le.1 hgrows.ids_le.2⟩
  | makeTensor shape stride kind =>
      rw [Bench.apply, Draft.makeTensor_apply]
      cases hmake : Tensor.make b.draft.ids.tensor shape stride kind with
      | error e => exact h
      | ok t =>
          obtain ⟨_, ht⟩ := Tensor.make_eq_ok hmake
          have hpool := h.now.tensor (t := t) (by rw [ht]) (by rw [ht]) (by rw [ht])
          refine ⟨?_, h.arranged.moreIds (Nat.le_succ _) (Nat.le_refl _)⟩
          simpa [Graph.withLoose, graph] using hpool
  | insertTensor n =>
      rw [Bench.apply] at hnext ⊢
      cases hloose : b.loose[n]? with
      | none => exact h
      | some t =>
          simp only [hloose, insertTensor_apply htidy (List.mem_of_getElem? hloose)] at hnext ⊢
          exact h.rearrange hnext rfl h.arranged
            (fun u hu => ⟨u, (perm_putBack _ hloose).mem_iff.1 hu, rfl⟩) fun _ hop => hop
  | removeTensor id =>
      rw [Bench.apply, Graph.removeTensor] at hnext ⊢
      cases hfound : b.graph.tensor? id with
      | none => exact h
      | some t =>
          rw [hfound] at hnext
          exact h.rearrange hnext rfl h.arranged
            (fun u hu => ⟨u, (perm_setAside hfound _).mem_iff.1 hu, rfl⟩) fun _ hop => hop
  | removeOperator id =>
      rw [Bench.apply, Graph.removeOperator] at hnext ⊢
      cases hfound : b.graph.operator? id with
      | none => exact h
      | some op =>
          rw [hfound] at hnext
          exact h.rearrange hnext rfl h.arranged (fun u hu => ⟨u, hu, rfl⟩) fun _ hop =>
            List.mem_of_mem_eraseP hop
  | reconnect n => exact absurd rfl (he n)
  | sort =>
      rw [Bench.apply] at hnext ⊢
      cases hsort : b.graph.topoSort with
      | error e => exact h
      | ok result =>
          rcases Graph.topoSort_eq_ok hsort with ⟨hsorted, hsame⟩ | ⟨hsorted, order, _, _, hnew⟩
          · simp only [hsorted, if_true, hsame]
            exact h
          · simp only [hsort, hsorted, Bool.false_eq_true, if_false, hnew] at hnext ⊢
            have hgraph : Graph.Wired b.draft.ids b.graph :=
              h.now.restrict hnext.arrangedTensorIds (fun t ht =>
                ⟨t, List.mem_append_left _ ht, rfl, rfl, rfl⟩) hnext.arrangedOpIds fun _ hop => hop
            refine h.rearrange hnext rfl hgraph (fun t ht => ⟨t, ht, rfl⟩) fun op hop => ?_
            obtain ⟨x, _, hx⟩ := List.mem_filterMap.1 hop
            exact Graph.mem_of_operator? hx
  | resolve bindings =>
      exact h.rearrange hnext rfl h.arranged (fun t ht => mem_pool_resolve ht) fun op hop =>
        (Graph.resolve_keeps bindings b.graph).1 ▸ hop

theorem linked_after {edits : List Edit} (hedits : ∀ n, Edit.reconnect n ∉ edits) :
    (after edits).Linked := by
  have hrun : ∀ b : Bench, b.Tidy → b.Linked → (edits.foldl apply b).Linked := by
    induction edits with
    | nil => exact fun _ _ h => h
    | cons e edits ih =>
        intro b htidy h
        have he : ∀ n, e ≠ .reconnect n := fun n heq => hedits n (heq ▸ List.mem_cons_self)
        exact ih (fun n hmem => hedits n (List.mem_cons_of_mem _ hmem)) _ (htidy.apply e)
          (h.apply htidy he)
  exact hrun {} tidy_empty linked_empty

end Bench

end TensorDataflow
