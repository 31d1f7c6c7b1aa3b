import TensorDataflow.Proofs.Graph.Construction
import TensorDataflow.Proofs.Session.Custody
/-!
# Constructions in a session

Tensors and operators come to hand in constructions only; everything else that a client does to a
session moves them, changes what they are otherwise, or gives them up. So all numbers at hand have
been given out in whatever state a session can be, `Session.Reachable`, and a construction that
fails there leaves the session as it was: `Session.construct_atomic`.
-/

namespace TensorDataflow

theorem append_subset_append {α : Type} {xs xs' ys ys' : List α} (hxs : xs ⊆ xs') (hys : ys ⊆ ys') :
    xs ++ ys ⊆ xs' ++ ys' :=
  List.append_subset.2
    ⟨fun _ hx => List.mem_append_left _ (hxs hx), fun _ hy => List.mem_append_right _ (hys hy)⟩

theorem map_subset_of_perm {α β : Type} {f : α → β} {all all' part part' rest aside aside' : List α}
    (h : all.Perm (part ++ (rest ++ aside))) (h' : all'.Perm (part' ++ (rest ++ aside')))
    (hsub : (part' ++ aside').map f ⊆ (part ++ aside).map f) : all'.map f ⊆ all.map f := by
  intro n hn
  have hn' := (h'.map f).subset hn
  have hkept := @hsub n
  refine (h.map f).symm.subset ?_
  simp only [List.map_append, List.mem_append] at hn' hkept ⊢
  tauto

namespace Graph

/-- All numbers of the second graph are in the first as well. -/
structure AddsNothing (g g' : Graph) : Prop where
  tensors : g'.tensors.map Tensor.id ⊆ g.tensors.map Tensor.id
  ops : g'.ops.map Operator.id ⊆ g.ops.map Operator.id

theorem SameBare.addsNothing {g g' : Graph} (h : SameBare g g') : g.AddsNothing g' :=
  ⟨fun _ hn => h.tensors ▸ hn, fun _ hn => h.ids ▸ hn⟩

theorem SameWiring.addsNothing {g g' : Graph} (h : SameWiring g g') : g.AddsNothing g' := by
  obtain ⟨hops, -, hlinks⟩ := h
  have hids : ∀ tensors : List Tensor,
      tensors.map Tensor.id = (tensors.map Tensor.links).map Prod.fst := by
    intro tensors
    rw [List.map_map]
    rfl
  exact ⟨fun n hn => by rwa [hids, ← hlinks, ← hids], fun n hn => hops ▸ hn⟩

end Graph

namespace Session

open Draft (Construction)

variable {s s' : Session} {ε α : Type}

/-! ### Numbers at hand -/

/-- All numbers at hand have been given out. -/
structure Issued (s : Session) : Prop where
  tensors : ∀ t ∈ s.tensors, t.id < s.ids.tensor
  ops : ∀ op ∈ s.ops, op.id < s.ids.operator

/-- No tensor and no operator comes to hand that was not at hand, whatever else happens. -/
structure Handles (s s' : Session) : Prop where
  ids : s'.ids = s.ids
  tensors : s'.tensors.map Tensor.id ⊆ s.tensors.map Tensor.id
  ops : s'.ops.map Operator.id ⊆ s.ops.map Operator.id

/-- The states that a client can bring a session to. What becomes of tensors and operators that are
at hand is left open: they may be laid out anew, get buffers, be linked otherwise or go from one
graph to another. -/
inductive Reachable (emulated : List DeviceKind) : Session → Prop
  | start (rooms : List Nat) : Reachable emulated (start emulated rooms)
  | construct {s : Session} (g : Nat) (call : Construction) : call.Known s.ids →
      Reachable emulated s → Reachable emulated (onDraft g call.act s).2
  | makeLoose {s : Session} (shape : Shape) (stride : Option Stride) (kind : ElementKind) :
      Reachable emulated s → Reachable emulated (makeLoose shape stride kind s).2
  | handle {s s' : Session} : s.Handles s' → Reachable emulated s → Reachable emulated s'

theorem Issued.handle (h : s.Issued) (hhandles : s.Handles s') : s'.Issued where
  tensors t ht := by
    obtain ⟨u, hu, hid⟩ := List.mem_map.1 (hhandles.tensors (List.mem_map_of_mem ht))
    exact hhandles.ids ▸ hid ▸ h.tensors u hu
  ops op hop := by
    obtain ⟨a, ha, hid⟩ := List.mem_map.1 (hhandles.ops (List.mem_map_of_mem hop))
    exact hhandles.ids ▸ hid ▸ h.ops a ha

section Issued

variable (h : s.Issued) {g : Nat} {graph : Graph} (hgraph : s.graphs.get? g = some graph)

include h hgraph

theorem Issued.draft : Draft.Issued ⟨graph, s.ids⟩ := by
  obtain ⟨_, _, ⟨htensors, hops⟩, _⟩ := exists_elsewhere hgraph
  exact ⟨fun t ht => h.tensors t (htensors.symm.subset (List.mem_append_left _ ht)),
    fun op hop => h.ops op (hops.symm.subset (List.mem_append_left _ hop))⟩

/-- What is at hand in other graphs or in none has numbers that stay given out. -/
theorem Issued.change {d : Draft} (hissued : d.Issued)
    (hle : s.ids.tensor ≤ d.ids.tensor ∧ s.ids.operator ≤ d.ids.operator) :
    Issued { s with ids := d.ids, graphs := s.graphs.set g d.graph } := by
  obtain ⟨tensors, ops, ⟨htensors, hops⟩, hothers⟩ := exists_elsewhere hgraph
  obtain ⟨htensors', hops'⟩ :=
    hothers { s with ids := d.ids, graphs := s.graphs.set g d.graph } d.graph rfl
  refine ⟨fun t ht => ?_, fun op hop => ?_⟩
  · rcases List.mem_append.1 (htensors'.subset ht) with hthere | helsewhere
    · exact hissued.tensors t hthere
    · exact (h.tensors t (htensors.symm.subset (List.mem_append_right _ helsewhere))).trans_le hle.1
  · rcases List.mem_append.1 (hops'.subset hop) with hthere | helsewhere
    · exact hissued.ops op hthere
    · exact (h.ops op (hops.symm.subset (List.mem_append_right _ helsewhere))).trans_le hle.2

end Issued

theorem Issued.construct (h : s.Issued) (g : Nat) {call : Construction}
    (hknown : call.Known s.ids) : (onDraft g call.act s).2.Issued := by
  rw [onDraft_snd]
  cases hgraph : s.graphs.get? g with
  | none => exact h
  | some graph =>
      obtain ⟨hissued, hle⟩ := Construction.issued (h.draft hgraph) hknown
      exact h.change hgraph hissued hle

theorem Issued.makeLoose (h : s.Issued) (shape : Shape) (stride : Option Stride)
    (kind : ElementKind) : (makeLoose shape stride kind s).2.Issued := by
  rw [makeLoose_snd]
  cases hmake : Tensor.make s.ids.tensor shape stride kind with
  | error e => exact h
  | ok t =>
      obtain ⟨-, ht⟩ := Tensor.make_eq_ok hmake
      refine ⟨fun u hu => ?_, h.ops⟩
      show u.id < s.ids.tensor + 1
      have hmem : u ∈ s.tensors ++ [t] := by
        rw [Session.tensors, List.append_assoc, ← s.loose.held_add]
        exact hu
      rcases List.mem_append.1 hmem with hold | hnew
      · exact Nat.lt_succ_of_lt (h.tensors u hold)
      · rw [List.mem_singleton.1 hnew, ht]
        exact Nat.lt_succ_self _

theorem Reachable.issued {emulated : List DeviceKind} (h : Reachable emulated s) : s.Issued := by
  induction h with
  | start rooms =>
      exact ⟨fun _ ht => absurd ht List.not_mem_nil, fun _ hop => absurd hop List.not_mem_nil⟩
  | construct g call hknown _ ih => exact ih.construct g hknown
  | makeLoose shape stride kind _ ih => exact ih.makeLoose shape stride kind
  | handle hhandles _ ih => exact ih.handle hhandles

/-! ### What a client does to a session -/

theorem Handles.refl (s : Session) : s.Handles s := ⟨rfl, List.Subset.refl _, List.Subset.refl _⟩

theorem Handles.of_same (hids : s'.ids = s.ids) (hgraphs : s'.graphs = s.graphs)
    (hloose : s'.loose = s.loose) (hremoved : s'.removed = s.removed) : s.Handles s' where
  ids := hids
  tensors := by
    rw [Session.tensors, hgraphs, hloose]
    exact List.Subset.refl _
  ops := by
    rw [Session.ops, hgraphs, hremoved]
    exact List.Subset.refl _

section Change

variable {g : Nat} {graph graph' : Graph} (hgraph : s.graphs.get? g = some graph)
  (hset : s'.graphs = s.graphs.set g graph') (hids : s'.ids = s.ids)

include hgraph hset hids

/-- A change to one graph is judged with what is loose or removed. -/
theorem Handles.change (htensors : (graph'.tensors ++ s'.loose.held).map Tensor.id ⊆
        (graph.tensors ++ s.loose.held).map Tensor.id)
    (hops : (graph'.ops ++ s'.removed.held).map Operator.id ⊆
        (graph.ops ++ s.removed.held).map Operator.id) : s.Handles s' := by
  obtain ⟨_, _, ⟨htensorsBefore, hopsBefore⟩, hothers⟩ := exists_elsewhere hgraph
  obtain ⟨htensorsAfter, hopsAfter⟩ := hothers s' graph' hset
  exact ⟨hids, map_subset_of_perm htensorsBefore htensorsAfter htensors,
    map_subset_of_perm hopsBefore hopsAfter hops⟩

theorem Handles.inGraph (hnothing : graph.AddsNothing graph') (hloose : s'.loose = s.loose)
    (hremoved : s'.removed = s.removed) : s.Handles s' := by
  refine Handles.change hgraph hset hids ?_ ?_
  · rw [hloose, List.map_append, List.map_append]
    exact append_subset_append hnothing.tensors (List.Subset.refl _)
  · rw [hremoved, List.map_append, List.map_append]
    exact append_subset_append hnothing.ops (List.Subset.refl _)

end Change

theorem newGraph_handles : s.Handles (newGraph s).2 := by
  refine ⟨rfl, ?_, ?_⟩
  · rw [tensors_newGraph]
    exact List.Subset.refl _
  · rw [ops_newGraph]
    exact List.Subset.refl _

theorem insertLoose_handles (g n : Nat) : s.Handles (insertLoose g n s).2 := by
  rw [insertLoose_snd]
  cases hloose : s.loose.get? n with
  | none => exact .refl s
  | some t =>
      obtain ⟨rest, hheld, herase, -⟩ := Slots.exists_held hloose
      have hrest : rest ⊆ s.loose.held := fun u hu => hheld.symm.subset (List.mem_cons_of_mem _ hu)
      dsimp only
      rw [onDraft_snd]
      cases hgraph : s.graphs.get? g with
      | none =>
          exact ⟨rfl,
            List.map_subset _ (append_subset_append (List.Subset.refl _) (herase ▸ hrest)),
            List.Subset.refl _⟩
      | some graph =>
          dsimp only
          rw [Draft.insertTensor_apply]
          -- the tensor is given up if its number is taken
          split
          · refine Handles.change hgraph rfl rfl
              (List.map_subset _ (append_subset_append (List.Subset.refl _) ?_))
              (List.Subset.refl _)
            exact herase ▸ hrest
          · refine Handles.change hgraph rfl rfl (List.map_subset _ ?_) (List.Subset.refl _)
            show graph.tensors ++ [t] ++ (s.loose.erase n).held ⊆ _
            rw [herase, List.append_assoc, List.singleton_append]
            exact append_subset_append (List.Subset.refl _) hheld.symm.subset

theorem removeTensor_handles (g : Nat) (id : TensorId) : s.Handles (removeTensor g id s).2 := by
  rw [removeTensor_snd]
  cases hgraph : s.graphs.get? g with
  | none => exact .refl s
  | some graph =>
      rw [Option.bind_some, Graph.removeTensor]
      cases hfound : graph.tensor? id with
      | none => exact .refl s
      | some t =>
          refine Handles.change hgraph rfl rfl (List.map_subset _ ?_) (List.Subset.refl _)
          show graph.tensors.eraseP _ ++ (s.loose.add t).2.held ⊆ _
          rw [s.loose.held_add]
          exact (Bench.perm_setAside hfound _).subset

theorem removeOperator_handles (g : Nat) (id : OpId) : s.Handles (removeOperator g id s).2 := by
  rw [removeOperator_snd]
  cases hgraph : s.graphs.get? g with
  | none => exact .refl s
  | some graph =>
      rw [Option.bind_some, Graph.removeOperator]
      cases hfound : graph.operator? id with
      | none => exact .refl s
      | some op =>
          refine Handles.change hgraph rfl rfl (List.Subset.refl _) (List.map_subset _ ?_)
          show graph.ops.eraseP _ ++ (s.removed.add op).2.held ⊆ _
          rw [s.removed.held_add]
          exact (Bench.perm_setAside hfound _).subset

theorem reconnect_handles (g n : Nat) : s.Handles (reconnect g n s).2 := by
  rw [reconnect_snd]
  cases hremoved : s.removed.get? n with
  | none => exact .refl s
  | some op =>
      obtain ⟨rest, hheld, herase, -⟩ := Slots.exists_held hremoved
      cases hgraph : s.graphs.get? g with
      | none =>
          refine ⟨rfl, List.Subset.refl _,
            List.map_subset _ (append_subset_append (List.Subset.refl _) ?_)⟩
          rw [herase]
          exact fun a ha => hheld.symm.subset (List.mem_cons_of_mem _ ha)
      | some graph =>
          refine Handles.change hgraph rfl rfl ?_ ?_
          · rw [List.map_append, List.map_append, Bench.ids_connect_tensors]
            exact List.Subset.refl _
          · simp only [herase]
            rw [List.map_append, Bench.ids_connect_ops, List.append_assoc, List.singleton_append,
              ← List.map_cons, ← List.map_append]
            exact List.map_subset _ (append_subset_append (List.Subset.refl _) hheld.symm.subset)

theorem onGraph_handles {act : GraphAct ε α} (g : Nat) (wrap : ε → SessionError)
    (hnothing : ∀ graph : Graph, graph.AddsNothing (act (s.machine, graph)).2.2) :
    s.Handles (onGraph g wrap act s).2 := by
  rw [onGraph_snd]
  cases hgraph : s.graphs.get? g with
  | none => exact .refl s
  | some graph => exact Handles.inGraph hgraph rfl rfl (hnothing graph) rfl rfl

theorem onEngineGraph_handles {act : Engine → GraphAct EngineError α} (n g : Nat)
    (hnothing : ∀ e (graph : Graph), graph.AddsNothing (act e (s.machine, graph)).2.2) :
    s.Handles (onEngineGraph n g act s).2 := by
  rw [onEngineGraph_snd]
  cases s.engines.get? n with
  | none => exact .refl s
  | some e => exact onGraph_handles g .engine (hnothing e)

theorem dropGraph_handles (g : Nat) : s.Handles (dropGraph g s).2 := by
  rw [dropGraph_snd]
  cases hgraph : s.graphs.get? g with
  | none => exact .refl s
  | some graph =>
      obtain ⟨htensors, hops⟩ := @exists_remaining s
        { s with machine := _, graphs := s.graphs.erase g } g graph hgraph rfl rfl rfl
      exact ⟨rfl, List.map_subset _ fun t ht => htensors.symm.subset (List.mem_append_right _ ht),
        List.map_subset _ fun op hop => hops.symm.subset (List.mem_append_right _ hop)⟩

theorem tensorAt_snd (ref : TensorRef) (s : Session) : (tensorAt ref s).2 = s := by
  cases ref with
  | member g id =>
      simp only [tensorAt, askGraph, graphAt, Act.bind_apply, slot_apply]
      cases s.graphs.get? g <;> rfl
  | loose n =>
      rw [tensorAt, slot_apply]
      cases s.loose.get? n <;> rfl

/-- A tensor goes back where it was, whatever has been made of it. -/
theorem putTensor_handles {ref : TensorRef} {t t' : Tensor} (ht : tensorAt ref s = (.ok t, s))
    (hid : t'.id = t.id) : s.Handles (putTensor ref t' s) := by
  cases ref with
  | member g id =>
      simp only [tensorAt, askGraph, graphAt, Act.bind_apply, slot_apply] at ht
      cases hgraph : s.graphs.get? g with
      | none =>
          rw [hgraph] at ht
          cases ht
      | some graph =>
          rw [hgraph] at ht
          dsimp only at ht
          have hfound : graph.tensor id = .ok t := by
            cases hlook : graph.tensor id with
            | error e =>
                rw [hlook] at ht
                cases ht
            | ok u =>
                rw [hlook] at ht
                cases ht
                rfl
          rw [putTensor, hgraph]
          refine Handles.inGraph hgraph rfl rfl ⟨?_, List.Subset.refl _⟩ rfl rfl
          rw [Graph.modifyTensor, List.map_map]
          refine (List.Perm.of_eq (List.map_congr_left fun u _ => ?_)).subset
          rw [Function.comp_apply]
          split
          · next hu => rw [hid, Graph.id_of_tensor? (Graph.tensor_eq_ok_iff.1 hfound), hu]
          · rfl
  | loose n =>
      rw [tensorAt, slot_apply] at ht
      cases hloose : s.loose.get? n with
      | none =>
          rw [hloose] at ht
          cases ht
      | some u =>
          rw [hloose] at ht
          cases ht
          obtain ⟨others, hheld, -, hset⟩ := Slots.exists_held hloose
          refine ⟨rfl, ?_, List.Subset.refl _⟩
          rw [Session.tensors, Session.tensors, List.map_append, List.map_append]
          refine append_subset_append (List.Subset.refl _) ?_
          have hthere := ((hset t').map Tensor.id).subset
          rw [List.map_cons, hid, ← List.map_cons] at hthere
          exact List.Subset.trans hthere (hheld.map Tensor.id).symm.subset

theorem changeTensor_handles (ref : TensorRef) {change : Tensor → Except GraphError Tensor}
    (hchange : ∀ t t', change t = .ok t' → t'.id = t.id) :
    s.Handles (changeTensor ref change s).2 := by
  have hsame := tensorAt_snd ref s
  rcases htensor : tensorAt ref s with ⟨e | t, s₁⟩
  · rw [htensor] at hsame
    rw [changeTensor, Act.bind_of_error htensor]
    exact hsame ▸ .refl s
  · obtain rfl : s₁ = s := by rwa [htensor] at hsame
    rw [changeTensor, Act.bind_of_ok htensor]
    cases hresult : change t with
    | error e => exact .refl s₁
    | ok t' => exact putTensor_handles htensor (hchange t t' hresult)

theorem Serves.handles (h : s.Serves s') : s.Handles s' := .of_same h.ids h.graphs h.loose h.removed

namespace Reachable

variable {emulated : List DeviceKind} (h : Reachable emulated s)

include h

theorem apply (e : Edit) : Reachable emulated (s.apply e) := by
  cases e with
  | newGraph => exact h.handle newGraph_handles
  | addTensor g shape stride kind => exact h.construct g (.addTensor shape stride kind) trivial
  | addOp g kind inputs => exact h.construct g (.addOp kind inputs) trivial
  | addOpWithOutputs g kind inputs outputs =>
      exact h.construct g (.addOpWithOutputs kind inputs outputs) trivial
  | makeTensor shape stride kind => exact h.makeLoose shape stride kind
  | insertTensor g n => exact h.handle (insertLoose_handles g n)
  | removeTensor g id => exact h.handle (removeTensor_handles g id)
  | removeOperator g id => exact h.handle (removeOperator_handles g id)
  | reconnect g n => exact h.handle (reconnect_handles g n)
  | sort g =>
      refine h.handle (onGraph_handles g .graph fun graph => ?_)
      obtain ⟨htensors, hwithin⟩ := Graph.sort_within s.machine graph
      exact ⟨htensors ▸ List.Subset.refl _, List.map_subset _ hwithin⟩

theorem perform (job : Job) : Reachable emulated (s.perform job) := by
  cases job with
  | edit e => exact h.apply e
  | dropGraph g => exact h.handle (dropGraph_handles g)
  | layOut ref relayout =>
      exact h.handle
        (changeTensor_handles ref fun t t' hchange => congrArg Prod.fst (links_change hchange))
  | infer g =>
      exact h.handle
        (onGraph_handles g .graph fun graph => (Graph.shapeInfer_keeps graph).addsNothing)
  | resolve g bindings =>
      exact h.handle
        (onGraph_handles g .graph fun graph => (Graph.resolve_keeps bindings graph).addsNothing)
  | serve request => exact h.handle (answer_serves request s).handles
  | create g id device deviceId guarded =>
      exact h.handle (onGraph_handles g .graph fun graph =>
        ((Graph.tolerates_bare _).createDescriptor id device deviceId
          (s.machine, graph)).addsNothing)
  | release g id =>
      rcases releaseDescriptor_snd g id s with hsame | hdone
      · rwa [Session.perform, hsame]
      · rw [Session.perform, hdone]
        exact h.handle (onGraph_handles g .graph fun graph =>
          ((Graph.tolerates_bare ⟨ownBackend, true⟩).releaseDescriptor id
            (s.machine, graph)).addsNothing)
  | realise n g =>
      exact h.handle (onEngineGraph_handles n g fun e graph =>
          (@Engine.realiseData_keepsStock ownBackend e (s.machine, graph)).2.addsNothing)
  | run n g =>
      exact h.handle
        (onEngineGraph_handles n g fun e graph => (e.run_bare (s.machine, graph)).addsNothing)

theorem advance (move : Move) : Reachable emulated (s.advance move) := by
  cases move with
  | act thread job =>
      have hthread : s.Handles (s.onThread thread) := .of_same rfl rfl rfl rfl
      exact (h.handle hthread).perform job
  | plan fault =>
      have hplan : s.Handles (inject fault s).2 := .of_same rfl rfl rfl rfl
      exact h.handle hplan

end Reachable

/-- Whatever moves are made, and from whichever threads, a session stays reachable. -/
theorem reachable_played (emulated : List DeviceKind) (rooms : List Nat) (moves : List Move) :
    Reachable emulated (played emulated rooms moves) := by
  induction moves using List.reverseRecOn with
  | nil => exact .start rooms
  | append_singleton moves move ih =>
      rw [played_append]
      exact ih.advance move

/-! ### Failures -/

theorem onDraft_apply {g : Nat} {graph : Graph} (hgraph : s.graphs.get? g = some graph)
    (act : Act Draft GraphError α) :
    onDraft g act s = ((act ⟨graph, s.ids⟩).1.mapError .graph,
      { s with
        ids := (act ⟨graph, s.ids⟩).2.ids
        graphs := s.graphs.set g (act ⟨graph, s.ids⟩).2.graph }) := by
  simp only [onDraft, graphAt, Act.bind_apply, slot_apply, Act.get_apply, hgraph]
  rfl

/-- A construction that fails leaves a session as it was: the graph with all its links, every other
graph, and the numbers that are free. -/
theorem construct_atomic {emulated : List DeviceKind} (hreached : Reachable emulated s) (g : Nat)
    (call : Construction) (hbuiltin : ∀ kind, call.opKind? = some kind → kind.Builtin)
    {e : SessionError} (hfailed : onDraft g call.act s = (.error e, s')) : s' = s := by
  cases hgraph : s.graphs.get? g with
  | none =>
      have hsame := onDraft_snd g call.act s
      rw [hgraph, hfailed] at hsame
      exact hsame
  | some graph =>
      rw [onDraft_apply hgraph] at hfailed
      rcases hresult : call.act ⟨graph, s.ids⟩ with ⟨cause | n, d⟩
      · obtain rfl := Construction.atomic (hreached.issued.draft hgraph) hbuiltin _ _ hresult
        rw [hresult] at hfailed
        cases hfailed
        rw [Slots.set_self hgraph]
      · rw [hresult] at hfailed
        cases hfailed

/-- A tensor of a graph has lost all its elements since it was made. -/
def emptied : List Move :=
  [.act 0 (.edit (.addTensor 0 ⟨[.const 4]⟩ none .f32)),
    .act 0 (.layOut (.member 0 1) (.shape ⟨[.const 0]⟩))]

/-- What is inferred from it cannot be made. -/
theorem construct_atomic_emptied :
    onDraft 0 (Construction.build (.pointwise .add) [1, 1] none).act (played [] [] emptied) =
      (.error (.graph (.invalidDimension 0 0 ⟨[.const 0]⟩)), played [] [] emptied) := by
  have hfailed :
      (onDraft 0 (Construction.build (.pointwise .add) [1, 1] none).act (played [] [] emptied)).1 =
      .error (.graph (.invalidDimension 0 0 ⟨[.const 0]⟩)) := by
    decide +kernel
  refine Prod.ext hfailed (construct_atomic (reachable_played [] [] emptied) 0
      (.build (.pointwise .add) [1, 1] none) (fun kind hkind => ?_) (Prod.ext hfailed rfl))
  cases hkind
  exact trivial

end Session

end TensorDataflow
