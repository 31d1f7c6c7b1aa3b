import TensorDataflow.Proofs.Graph.Settlement
import TensorDataflow.Proofs.Session.Custody
/-!
# One pass of inference in a session

The operators at hand in a session are operators that a graph has once taken in, whatever has become
of its tensors since: a client may give tensors other shapes, move operators from graph to graph and
sort them, but never says what an operator reads, makes or is. So none of them is inferred two
shapes for one tensor, and one pass of inference settles every graph at hand that is in order:
`Session.inference_settled`.
-/

namespace TensorDataflow

/-- A graph has once taken the operator in. -/
def Operator.Admitted (op : Operator) : Prop := ∃ g : Graph, g.Fits op.kind op.inputs op.outputs

theorem Operator.Admitted.of_bare {a b : Operator} (h : a.Admitted) (hbare : a.bare = b.bare) :
    b.Admitted := by
  obtain ⟨_, hkind, hinputs, houtputs, _⟩ := Operator.fields_of_bare hbare
  rwa [Admitted, hkind, hinputs, houtputs] at h

theorem Graph.admitted_of_connect {g : Graph} {op : Operator} (hgraph : ∀ a ∈ g.ops, a.Admitted)
    (hop : op.Admitted) : ∀ a ∈ (g.connect op).ops, a.Admitted := by
  intro a ha
  rw [connect_eq] at ha
  rcases List.mem_append.1 ha with ha | ha
  · obtain ⟨a₀, ha₀, rfl⟩ := List.mem_map.1 ha
    exact hgraph a₀ ha₀
  · rw [List.mem_singleton.1 ha]
    exact hop

theorem Graph.SameLinks.admitted {g g' : Graph} (h : SameLinks g g')
    (hgraph : ∀ op ∈ g.ops, op.Admitted) : ∀ op ∈ g'.ops, op.Admitted := by
  intro op hop
  obtain ⟨op₀, hop₀, hbare⟩ :=
    List.mem_map.1 (h.ops ▸ List.mem_map_of_mem hop : op.bare ∈ g.ops.map Operator.bare)
  exact (hgraph op₀ hop₀).of_bare hbare

theorem Draft.Grows.admitted {d d' : Draft} (h : Grows d d')
    (hdraft : ∀ op ∈ d.graph.ops, op.Admitted) : ∀ op ∈ d'.graph.ops, op.Admitted := by
  induction h with
  | refl => exact hdraft
  | elsewhere _ _ _ ih => exact ih
  | tensor _ _ ih => exact ih
  | operator _ hfits ih => exact Graph.admitted_of_connect ih ⟨_, hfits⟩

namespace Session

variable {s s' : Session} {ε α : Type}

/-- All operators at hand have once been taken in. -/
def Admits (s : Session) : Prop := ∀ op ∈ s.ops, op.Admitted

namespace Admits

section Parts

variable (h : s.Admits) {g : Nat} {graph : Graph} (hgraph : s.graphs.get? g = some graph)

include h

theorem ofRemoved : ∀ op ∈ s.removed.held, op.Admitted :=
  fun op hop => h op (List.mem_append_right _ hop)

include hgraph

theorem ofGraph : ∀ op ∈ graph.ops, op.Admitted := by
  obtain ⟨_, _, ⟨-, hops⟩, -⟩ := exists_elsewhere hgraph
  exact fun op hop => h op (hops.mem_iff.2 (List.mem_append_left _ hop))

/-- After a change to one graph, and to what is removed, only these need to be looked at. -/
theorem change {graph' : Graph} (hset : s'.graphs = s.graphs.set g graph')
    (hops : ∀ op ∈ graph'.ops, op.Admitted) (hremoved : ∀ op ∈ s'.removed.held, op.Admitted) :
    s'.Admits := by
  obtain ⟨_, others, ⟨-, hbefore⟩, hothers⟩ := exists_elsewhere hgraph
  obtain ⟨-, hafter⟩ := hothers s' graph' hset
  intro op hop
  rcases List.mem_append.1 (hafter.mem_iff.1 hop) with hin | hout
  · exact hops op hin
  · rcases List.mem_append.1 hout with hother | hout
    · exact h op (hbefore.mem_iff.2 (List.mem_append_right _ (List.mem_append_left _ hother)))
    · exact hremoved op hout

end Parts

variable (h : s.Admits)

include h

theorem onDraft {act : Act Draft GraphError α} (g : Nat) (hgrows : ∀ graph,
      s.graphs.get? g = some graph → Draft.Grows ⟨graph, s.ids⟩ (act ⟨graph, s.ids⟩).2) :
    (Session.onDraft g act s).2.Admits := by
  rw [onDraft_snd]
  cases hgraph : s.graphs.get? g with
  | none => exact h
  | some graph =>
      exact h.change hgraph rfl ((hgrows graph hgraph).admitted (h.ofGraph hgraph)) h.ofRemoved

/-- An action on a graph that leaves no operators but those that were there. -/
theorem onGraph {act : GraphAct ε α} (g : Nat) (wrap : ε → SessionError)
    (hact : ∀ graph, s.graphs.get? g = some graph → (∀ op ∈ graph.ops, op.Admitted) →
      ∀ op ∈ (act (s.machine, graph)).2.2.ops, op.Admitted) :
    (Session.onGraph g wrap act s).2.Admits := by
  rw [onGraph_snd]
  cases hgraph : s.graphs.get? g with
  | none => exact h
  | some graph => exact h.change hgraph rfl (hact graph hgraph (h.ofGraph hgraph)) h.ofRemoved

theorem newGraph : (newGraph s).2.Admits := by
  rw [Admits, ops_newGraph]
  exact h

theorem makeLoose (shape : Shape) (stride : Option Stride) (kind : ElementKind) :
    (makeLoose shape stride kind s).2.Admits := by
  rw [makeLoose_snd]
  cases Tensor.make s.ids.tensor shape stride kind with
  | error cause => exact h
  | ok t => exact h

theorem insertLoose (g n : Nat) : (insertLoose g n s).2.Admits := by
  rw [insertLoose_snd]
  cases s.loose.get? n with
  | none => exact h
  | some t =>
      simp only [onDraft_snd, Draft.insertTensor_apply]
      cases hgraph : s.graphs.get? g with
      | none => exact h
      | some graph =>
          have hops := h.ofGraph hgraph
          refine h.change hgraph rfl ?_ h.ofRemoved
          cases (graph.tensor? t.id).isSome with
          | true => exact hops
          | false => exact hops

theorem removeTensor (g : Nat) (id : TensorId) : (removeTensor g id s).2.Admits := by
  rw [removeTensor_snd]
  cases hgraph : s.graphs.get? g with
  | none => exact h
  | some graph =>
      have hops := h.ofGraph hgraph
      rw [Option.bind_some, Graph.removeTensor]
      cases graph.tensor? id with
      | none => exact h
      | some t => exact h.change hgraph rfl hops h.ofRemoved

theorem removeOperator (g : Nat) (id : OpId) : (removeOperator g id s).2.Admits := by
  rw [removeOperator_snd]
  cases hgraph : s.graphs.get? g with
  | none => exact h
  | some graph =>
      rw [Option.bind_some, Graph.removeOperator]
      cases hfound : graph.operator? id with
      | none => exact h
      | some op =>
          refine h.change hgraph rfl (fun a ha => h.ofGraph hgraph a (List.mem_of_mem_eraseP ha))
            fun a ha => ?_
          have hheld : a ∈ s.removed.held ++ [op] := s.removed.held_add op ▸ ha
          rcases List.mem_append.1 hheld with ha | ha
          · exact h.ofRemoved a ha
          · rw [List.mem_singleton.1 ha]
            exact h.ofGraph hgraph op (List.mem_of_find?_eq_some hfound)

theorem reconnect (g n : Nat) : (reconnect g n s).2.Admits := by
  rw [reconnect_snd]
  cases hremoved : s.removed.get? n with
  | none => exact h
  | some op =>
      obtain ⟨rest, hheld, herase, -⟩ := Slots.exists_held hremoved
      have hrest : ∀ a ∈ (s.removed.erase n).held, a.Admitted :=
        fun a ha => h.ofRemoved a (hheld.mem_iff.2 (List.mem_cons_of_mem _ (herase ▸ ha)))
      cases hgraph : s.graphs.get? g with
      | none =>
          intro a ha
          rcases List.mem_append.1 ha with hin | hout
          · exact h a (List.mem_append_left _ hin)
          · exact hrest a hout
      | some graph =>
          exact h.change hgraph rfl (Graph.admitted_of_connect (h.ofGraph hgraph)
              (h.ofRemoved op (hheld.mem_iff.2 List.mem_cons_self))) hrest

theorem apply (htraced : s.Traced) (e : Edit) : (s.apply e).Admits := by
  have hfresh : ∀ {g graph}, s.graphs.get? g = some graph → Draft.Fresh ⟨graph, s.ids⟩ :=
    fun hgraph => (htraced.graph_traced hgraph).tensorsKnown
  cases e with
  | newGraph => exact h.newGraph
  | addTensor g shape stride kind =>
      exact h.onDraft g fun _ hgraph => Draft.addTensor_grows (hfresh hgraph) shape stride kind
  | addOp g kind inputs =>
      exact h.onDraft g fun _ hgraph => Draft.addOp_grows (hfresh hgraph) kind inputs
  | addOpWithOutputs g kind inputs outputs =>
      exact h.onDraft g fun graph _ =>
        Draft.addOpWithOutputs_grows ⟨graph, s.ids⟩ kind inputs outputs
  | makeTensor shape stride kind => exact h.makeLoose shape stride kind
  | insertTensor g n => exact h.insertLoose g n
  | removeTensor g id => exact h.removeTensor g id
  | removeOperator g id => exact h.removeOperator g id
  | reconnect g n => exact h.reconnect g n
  | sort g =>
      refine h.onGraph g .graph fun graph hgraph hold op hop => hold op ?_
      exact (Graph.sort_keeps s.machine (htraced.graph_traced hgraph).opIds).2.2 op hop

theorem dropGraph (g : Nat) : (dropGraph g s).2.Admits := by
  rw [dropGraph_snd]
  cases hgraph : s.graphs.get? g with
  | none => exact h
  | some graph =>
      obtain ⟨-, hops⟩ := @exists_remaining s { s with machine := _, graphs := s.graphs.erase g } g
        graph hgraph rfl rfl rfl
      exact fun op hop => h op (hops.mem_iff.2 (List.mem_append_right _ hop))

theorem layOut (ref : TensorRef) (relayout : Relayout) :
    (changeTensor ref (Relayout.change · relayout) s).2.Admits := by
  cases ref with
  | member g id =>
      rw [changeTensor_member]
      cases hgraph : s.graphs.get? g with
      | none => exact h
      | some graph =>
          have hops := h.ofGraph hgraph
          dsimp only
          cases (graph.tensor id).bind (Relayout.change · relayout) with
          | error cause => exact h
          | ok t => exact h.change hgraph rfl hops h.ofRemoved
  | loose n =>
      rw [changeTensor_loose]
      cases s.loose.get? n with
      | none => exact h
      | some t =>
          dsimp only
          cases Relayout.change t relayout with
          | error cause => exact h
          | ok t' => exact h

/-- An action that balances the accounts of every graph leaves its operators, apart from their
descriptors. -/
theorem onGraph_balances (hbalanced : s.Balanced 0 fun _ => True) {act : GraphAct ε α} (g : Nat)
    (wrap : ε → SessionError)
    (hact : act.Keeps (Graph.Balances ownBackend 0 fun _ => True)) :
    (Session.onGraph g wrap act s).2.Admits := by
  refine h.onGraph g wrap fun graph hgraph => ?_
  obtain ⟨_, hheld, -⟩ := exists_heldElsewhere hgraph
  obtain ⟨hbare, -⟩ := hact (s.machine, graph) _ (fun _ _ _ _ _ => trivial)
    (hbalanced.traced.graph_traced hgraph).opIds (hbalanced.accounts.congr hheld)
  exact hbare.sameLinks.admitted

theorem releaseDescriptor (hbalanced : s.Balanced 0 fun _ => True) (g : Nat) (id : OpId) :
    (releaseDescriptor g id s).2.Admits := by
  rcases releaseDescriptor_snd g id s with hsame | hdone
  · rwa [hsame]
  · rw [hdone]
    exact h.onGraph_balances hbalanced g .graph (Graph.releaseDescriptor_balances id)

theorem perform (hbalanced : s.Balanced 0 fun _ => True) (job : Job) : (s.perform job).Admits := by
  have hwiring : ∀ {act : Act Graph GraphError (List TensorId)} (g : Nat),
      act.Keeps Graph.SameWiring → (Session.onGraph g .graph (Graph.onGraph act) s).2.Admits := by
    refine fun g hact => h.onGraph g .graph fun graph _ hold => ?_
    rw [Graph.onGraph, Act.on_apply]
    exact (hact graph).1 ▸ hold
  cases job with
  | edit e => exact h.apply hbalanced.traced e
  | dropGraph g => exact h.dropGraph g
  | layOut ref relayout => exact h.layOut ref relayout
  | infer g => exact hwiring g Graph.shapeInfer_keeps
  | resolve g bindings => exact hwiring g (Graph.resolve_keeps bindings)
  | serve request =>
      have hserves := answer_serves request s
      rwa [Admits, ops, Session.perform, hserves.graphs, hserves.removed]
  | create g id device deviceId guarded =>
      exact h.onGraph_balances hbalanced g .graph
        (Graph.createDescriptor_balances id ⟨ownBackend, guarded⟩ device deviceId)
  | release g id => exact h.releaseDescriptor hbalanced g id
  | realise n g =>
      show (onEngineGraph n g Engine.realiseData s).2.Admits
      rw [onEngineGraph_snd]
      cases s.engines.get? n with
      | none => exact h
      | some e =>
          exact h.onGraph g .engine fun graph _ hold =>
            (@Engine.realiseData_keepsStock ownBackend e (s.machine, graph)).2.1 ▸ hold
  | run n g =>
      show (onEngineGraph n g Engine.run s).2.Admits
      rw [onEngineGraph_snd]
      cases hengine : s.engines.get? n with
      | none => exact h
      | some e =>
          exact h.onGraph_balances hbalanced g .engine (hbalanced.home n e hengine ▸ e.run_balances)

theorem advance (hbalanced : s.Balanced 0 fun _ => True) (move : Move) :
    (s.advance move).Admits := by
  cases move with
  | act thread job =>
      exact Admits.perform (s := s.onThread thread) h (hbalanced.onThread thread) job
  | plan fault => exact h

end Admits

theorem admits_played (emulated : List DeviceKind) (rooms : List Nat) (moves : List Move) :
    (played emulated rooms moves).Admits := by
  induction moves using List.reverseRecOn with
  | nil => exact fun _ hop => absurd hop List.not_mem_nil
  | append_singleton moves move ih =>
      rw [played_append]
      exact ih.advance (balanced_played emulated rooms moves) move

/-- A chain of operators, one of which makes a tensor twice over, whose input and output are then
given other shapes. -/
def stale : List Move :=
  [.act 0 (.edit (.addTensor 0 ⟨[.const 4]⟩ none .f32)),
    .act 0 (.edit (.addTensor 0 ⟨[.const 4]⟩ none .f32)),
    .act 0 (.edit (.addOp 0 (.pointwise .add) [1, 1])),
    .act 0 (.edit (.addOpWithOutputs 0 (.declared ⟨.add, 1, 1, 2, .add, none, none⟩) [3] [2, 2])),
    .act 0 (.edit (.addOp 0 (.pointwise .mul) [2, 3])),
    .act 0 (.layOut (.member 0 1) (.shape ⟨[.const 6]⟩)),
    .act 0 (.layOut (.member 0 4) (.shape ⟨[.const 9]⟩))]

end Session

end TensorDataflow
