import Mathlib.Data.List.ReduceOption
import TensorDataflow.Proofs.Graph.Provenance
import TensorDataflow.Proofs.Graph.Retention
import TensorDataflow.Proofs.Graph.WellFormed
import TensorDataflow.Session.Graphs
/-!
# Graphs that exchange what they hold

A client of a session adds to its graphs, takes tensors and operators out of them, puts them back
where they were or elsewhere, and sorts. `Session.after` is where such edits lead. The tensors and
operators at hand are those of all graphs, the loose tensors and the removed operators; an edit adds
to them, moves them or gives them up, and connects one operator at a time, so their links stay
traced: `Session.traced_after`. With the check of a graph this settles its edges,
`Session.edges_of_checkValid`.
-/

namespace TensorDataflow

namespace Slots

variable {α : Type}

/-- All values that have not been used up. -/
def held (s : Slots α) : List α := s.entries.reduceOption

theorem held_add (s : Slots α) (a : α) : (s.add a).2.held = s.held ++ [a] := by
  simp [held, add, List.reduceOption_append]

theorem exists_held {s : Slots α} {n : Nat} {a : α} (h : s.get? n = some a) :
    ∃ others, s.held.Perm (a :: others) ∧ (s.erase n).held = others ∧
    ∀ b, (s.set n b).held.Perm (b :: others) := by
  have hentry : s.entries[n]? = some (some a) := Option.join_eq_some_iff.1 h
  obtain ⟨hn, ha⟩ := List.getElem?_eq_some_iff.1 hentry
  have hset : ∀ o, (s.entries.set n o).reduceOption = (s.entries.take n).reduceOption ++ o.toList ++
      (s.entries.drop (n + 1)).reduceOption := by
    intro o
    rw [List.set_eq_take_append_cons_drop, if_pos hn]
    cases o <;> simp [List.reduceOption_append]
  have hmiddle : ∀ b,
      ((s.entries.take n).reduceOption ++ [b] ++ (s.entries.drop (n + 1)).reduceOption).Perm
      (b :: ((s.entries.take n).reduceOption ++ (s.entries.drop (n + 1)).reduceOption)) := by
    intro b
    rw [List.append_assoc, List.singleton_append]
    exact List.perm_middle
  refine ⟨(s.entries.take n).reduceOption ++ (s.entries.drop (n + 1)).reduceOption, ?_,
    ?_, fun b => ?_⟩
  · have hself : s.held = (s.entries.set n (some a)).reduceOption := by
      rw [held, ← ha, List.set_getElem_self]
    rw [hself, hset]
    exact hmiddle a
  · rw [held, erase, hset]
    simp
  · rw [held, set, hset]
    exact hmiddle b

end Slots

namespace Session

/-! ### Edits -/

/-- A change that a client makes to its graphs. -/
inductive Edit where
  | newGraph
  | addTensor (g : Nat) (shape : Shape) (stride : Option Stride) (kind : ElementKind)
  | addOp (g : Nat) (kind : OpKind) (inputs : List TensorId)
  | addOpWithOutputs (g : Nat) (kind : OpKind) (inputs outputs : List TensorId)
  | makeTensor (shape : Shape) (stride : Option Stride) (kind : ElementKind)
  | insertTensor (g n : Nat)
  | removeTensor (g : Nat) (id : TensorId)
  | removeOperator (g : Nat) (id : OpId)
  | reconnect (g n : Nat)
  | sort (g : Nat)

/-- Makes a change; one that fails leaves what it has done so far. -/
def apply (s : Session) : Edit → Session
  | .newGraph => (newGraph s).2
  | .addTensor g shape stride kind => (onDraft g (Draft.addTensor shape stride kind) s).2
  | .addOp g kind inputs => (onDraft g (Draft.addOp kind inputs) s).2
  | .addOpWithOutputs g kind inputs outputs =>
      (onDraft g (Draft.addOpWithOutputs kind inputs outputs) s).2
  | .makeTensor shape stride kind => (makeLoose shape stride kind s).2
  | .insertTensor g n => (insertLoose g n s).2
  | .removeTensor g id => (removeTensor g id s).2
  | .removeOperator g id => (removeOperator g id s).2
  | .reconnect g n => (reconnect g n s).2
  | .sort g => (onGraph g .graph Graph.sort s).2

/-- Where edits lead from the start of a session. -/
def after (emulated : List DeviceKind) (edits : List Edit) : Session :=
  edits.foldl apply (start emulated)

/-! ### What is at hand -/

def tensors (s : Session) : List Tensor := s.graphs.held.flatMap Graph.tensors ++ s.loose.held

def ops (s : Session) : List Operator := s.graphs.held.flatMap Graph.ops ++ s.removed.held

/-- The links of all that is at hand are traced. -/
def Traced (s : Session) : Prop := TensorDataflow.Traced s.ids s.tensors s.ops

/-- What is at hand besides the graph with a number does not change with that graph. -/
theorem exists_elsewhere {s : Session} {g : Nat} {graph : Graph}
    (hgraph : s.graphs.get? g = some graph) :
    ∃ tensors ops, (s.tensors.Perm (graph.tensors ++ (tensors ++ s.loose.held)) ∧
      s.ops.Perm (graph.ops ++ (ops ++ s.removed.held))) ∧
      ∀ (s' : Session) (graph' : Graph), s'.graphs = s.graphs.set g graph' →
        s'.tensors.Perm (graph'.tensors ++ (tensors ++ s'.loose.held)) ∧
        s'.ops.Perm (graph'.ops ++ (ops ++ s'.removed.held)) := by
  obtain ⟨others, hheld, _, hothers⟩ := Slots.exists_held hgraph
  have hperm : ∀ {α : Type} (part : Graph → List α) {held : List Graph} {x : Graph} (rest : List α),
      held.Perm (x :: others) →
      (held.flatMap part ++ rest).Perm (part x ++ (others.flatMap part ++ rest)) := by
    intro α part held x rest hheld
    rw [← List.append_assoc, ← List.flatMap_cons]
    exact (hheld.flatMap_right part).append_right rest
  refine ⟨others.flatMap Graph.tensors, others.flatMap Graph.ops,
    ⟨hperm _ _ hheld, hperm _ _ hheld⟩, fun s' graph' hset => ?_⟩
  have hheld' : s'.graphs.held.Perm (graph' :: others) := hset ▸ hothers graph'
  exact ⟨hperm _ _ hheld', hperm _ _ hheld'⟩

namespace Traced

variable {s s' : Session} (h : s.Traced) {g : Nat} {graph graph' : Graph}
  (hgraph : s.graphs.get? g = some graph)

include h hgraph

/-- A change to one graph, and to what is loose or removed, is judged with whatever else is at
hand. -/
theorem change (hset : s'.graphs = s.graphs.set g graph')
    (hchange : ∀ tensors ops, TensorDataflow.Traced s.ids
        (graph.tensors ++ (tensors ++ s.loose.held)) (graph.ops ++ (ops ++ s.removed.held)) →
      TensorDataflow.Traced s'.ids (graph'.tensors ++ (tensors ++ s'.loose.held))
      (graph'.ops ++ (ops ++ s'.removed.held))) : s'.Traced := by
  obtain ⟨tensors, ops, ⟨htensors, hops⟩, hothers⟩ := exists_elsewhere hgraph
  obtain ⟨htensors', hops'⟩ := hothers s' graph' hset
  exact (hchange tensors ops (h.subperm htensors.symm.subperm hops.symm.subperm)).subperm
    htensors'.subperm hops'.subperm

theorem graph_traced : TensorDataflow.Traced s.ids graph.tensors graph.ops := by
  obtain ⟨_, _, ⟨htensors, hops⟩, _⟩ := exists_elsewhere hgraph
  exact h.subperm ((List.sublist_append_left _ _).subperm.trans htensors.symm.subperm)
    ((List.sublist_append_left _ _).subperm.trans hops.symm.subperm)

end Traced

/-! ### The operations applied -/

variable {ε α : Type}

theorem slot_apply (kind : HandleKind) (slots : Session → Slots α) (n : Nat) (s : Session) :
    slot kind slots n s = match (slots s).get? n with
      | some a => (.ok a, s)
      | none => (.error (.noHandle kind), s) := by
  simp only [slot, Act.bind_apply, Act.get_apply]
  cases (slots s).get? n <;> rfl

theorem onDraft_snd (g : Nat) (act : Act Draft GraphError α) (s : Session) :
    (onDraft g act s).2 = match s.graphs.get? g with
      | some graph =>
          { s with
            ids := (act ⟨graph, s.ids⟩).2.ids
            graphs := s.graphs.set g (act ⟨graph, s.ids⟩).2.graph }
      | none => s := by
  simp only [onDraft, graphAt, Act.bind_apply, slot_apply, Act.get_apply]
  cases s.graphs.get? g <;> rfl

theorem onGraph_snd (g : Nat) (wrap : ε → SessionError) (act : GraphAct ε α) (s : Session) :
    (onGraph g wrap act s).2 = match s.graphs.get? g with
      | some graph =>
          { s with
            machine := (act (s.machine, graph)).2.1
            graphs := s.graphs.set g (act (s.machine, graph)).2.2 }
      | none => s := by
  simp only [onGraph, graphAt, Act.bind_apply, slot_apply, Act.get_apply]
  cases s.graphs.get? g <;> rfl

theorem makeLoose_snd (shape : Shape) (stride : Option Stride) (kind : ElementKind) (s : Session) :
    (makeLoose shape stride kind s).2 = match Tensor.make s.ids.tensor shape stride kind with
      | .ok t =>
          { s with ids := { s.ids with tensor := s.ids.tensor + 1 }, loose := (s.loose.add t).2 }
      | .error _ => s := by
  simp only [makeLoose, Act.bind_apply, Act.get_apply, Draft.makeTensor_apply]
  cases Tensor.make s.ids.tensor shape stride kind <;> rfl

theorem insertLoose_snd (g n : Nat) (s : Session) :
    (insertLoose g n s).2 = match s.loose.get? n with
      | some t => (onDraft g (Draft.insertTensor t) { s with loose := s.loose.erase n }).2
      | none => s := by
  simp only [insertLoose, takeLoose, Act.bind_apply, slot_apply, Act.modify_apply]
  cases s.loose.get? n <;> rfl

theorem removeTensor_snd (g : Nat) (id : TensorId) (s : Session) :
    (removeTensor g id s).2 = match (s.graphs.get? g).bind (·.removeTensor id) with
      | some (t, graph) => { s with graphs := s.graphs.set g graph, loose := (s.loose.add t).2 }
      | none => s := by
  simp only [removeTensor, graphAt, Act.bind_apply, slot_apply]
  cases s.graphs.get? g with
  | none => rfl
  | some graph =>
      simp only [Option.bind_some]
      cases graph.removeTensor id <;> rfl

theorem removeOperator_snd (g : Nat) (id : OpId) (s : Session) :
    (removeOperator g id s).2 = match (s.graphs.get? g).bind (·.removeOperator id) with
      | some (op, graph) =>
          { s with graphs := s.graphs.set g graph, removed := (s.removed.add op).2 }
      | none => s := by
  simp only [removeOperator, graphAt, Act.bind_apply, slot_apply]
  cases s.graphs.get? g with
  | none => rfl
  | some graph =>
      simp only [Option.bind_some]
      cases graph.removeOperator id <;> rfl

theorem reconnect_snd (g n : Nat) (s : Session) :
    (reconnect g n s).2 = match s.removed.get? n with
      | some op =>
          match s.graphs.get? g with
          | some graph =>
              { s with removed := s.removed.erase n, graphs := s.graphs.set g (graph.connect op) }
          | none =>
              { s with
                removed := s.removed.erase n
                machine := ((Operator.dropAll [op] : Act Machine SessionError Unit) s.machine).2 }
      | none => s := by
  simp only [reconnect, graphAt, Act.bind_apply, slot_apply, Act.modify_apply, Act.get_apply]
  cases s.removed.get? n with
  | none => rfl
  | some op =>
      simp only
      cases hgraph : s.graphs.get? g with
      | none =>
          simp only [Act.bind_apply, onMachine, Act.on_apply, Act.mapError_apply,
            Operator.dropAll_apply, Except.mapError, slot_apply, hgraph]
      | some graph =>
          simp only [Act.bind_apply, Act.modify_apply, slot_apply]
          cases (s.graphs.set g (graph.connect op)).get? g <;> rfl

/-- An empty graph adds nothing to what is at hand. -/
theorem tensors_newGraph (s : Session) : (newGraph s).2.tensors = s.tensors := by
  show (s.graphs.add .empty).2.held.flatMap Graph.tensors ++ s.loose.held = s.tensors
  rw [Slots.held_add, List.flatMap_append]
  simp [tensors, Graph.empty]

theorem ops_newGraph (s : Session) : (newGraph s).2.ops = s.ops := by
  show (s.graphs.add .empty).2.held.flatMap Graph.ops ++ s.removed.held = s.ops
  rw [Slots.held_add, List.flatMap_append]
  simp [ops, Graph.empty]

/-! ### One edit -/

namespace Traced

variable {s : Session} (h : s.Traced)

include h

theorem onDraft {act : Act Draft GraphError α}
    (hgrows : ∀ d : Draft, d.Fresh → Draft.Grows d (act d).2) (g : Nat) :
    (onDraft g act s).2.Traced := by
  rw [onDraft_snd]
  cases hgraph : s.graphs.get? g with
  | none => exact h
  | some graph =>
      have hfresh : Draft.Fresh ⟨graph, s.ids⟩ := (h.graph_traced hgraph).tensorsKnown
      exact h.change hgraph rfl fun tensors ops hall => (hgrows ⟨graph, s.ids⟩ hfresh).traced hall

theorem newGraph : (newGraph s).2.Traced := by
  rw [Session.Traced, tensors_newGraph, ops_newGraph]
  exact h

theorem makeLoose (shape : Shape) (stride : Option Stride) (kind : ElementKind) :
    (makeLoose shape stride kind s).2.Traced := by
  rw [makeLoose_snd]
  cases hmake : Tensor.make s.ids.tensor shape stride kind with
  | error e => exact h
  | ok t =>
      obtain ⟨_, ht⟩ := Tensor.make_eq_ok hmake
      refine (TensorDataflow.Traced.newTensor h (t := t) (by rw [ht]) (by rw [ht])
          (by rw [ht])).subperm (List.Perm.subperm ?_) (List.Subperm.refl _)
      show (s.graphs.held.flatMap Graph.tensors ++ (s.loose.add t).2.held).Perm (t :: s.tensors)
      rw [s.loose.held_add, ← List.append_assoc]
      exact List.perm_append_singleton t s.tensors

theorem insertLoose (g n : Nat) : (insertLoose g n s).2.Traced := by
  rw [insertLoose_snd]
  cases hloose : s.loose.get? n with
  | none => exact h
  | some t =>
      obtain ⟨rest, hheld, herase, _⟩ := Slots.exists_held hloose
      have htaken : rest.Subperm s.loose.held :=
        (List.sublist_cons_self t rest).subperm.trans hheld.symm.subperm
      simp only [onDraft_snd, Draft.insertTensor_apply]
      cases hgraph : s.graphs.get? g with
      | none =>
          exact h.subperm ((List.subperm_append_left _).2 (herase ▸ htaken)) (List.Subperm.refl _)
      | some graph =>
          refine h.change hgraph rfl fun tensors ops hall => ?_
          simp only [herase]
          -- the tensor is given up if its number is taken
          cases (graph.tensor? t.id).isSome with
          | true =>
              exact hall.subperm ((List.subperm_append_left _).2
                  ((List.subperm_append_left _).2 htaken)) (List.Subperm.refl _)
          | false =>
              refine hall.subperm (List.Perm.subperm ?_) (List.Subperm.refl _)
              show (graph.tensors ++ [t] ++ (tensors ++ rest)).Perm _
              rw [List.append_assoc, List.singleton_append]
              exact (List.perm_middle.symm.trans (hheld.symm.append_left tensors)).append_left _

theorem removeTensor (g : Nat) (id : TensorId) : (removeTensor g id s).2.Traced := by
  rw [removeTensor_snd]
  cases hgraph : s.graphs.get? g with
  | none => exact h
  | some graph =>
      rw [Option.bind_some, Graph.removeTensor]
      cases hfound : graph.tensor? id with
      | none => exact h
      | some t =>
          refine h.change hgraph rfl fun tensors ops hall =>
            hall.subperm (List.Perm.subperm ?_) (List.Subperm.refl _)
          show (graph.tensors.eraseP _ ++ (tensors ++ (s.loose.add t).2.held)).Perm _
          rw [s.loose.held_add, ← List.append_assoc tensors]
          exact Bench.perm_setAside hfound _

theorem removeOperator (g : Nat) (id : OpId) : (removeOperator g id s).2.Traced := by
  rw [removeOperator_snd]
  cases hgraph : s.graphs.get? g with
  | none => exact h
  | some graph =>
      rw [Option.bind_some, Graph.removeOperator]
      cases hfound : graph.operator? id with
      | none => exact h
      | some op =>
          refine h.change hgraph rfl fun tensors ops hall =>
            hall.subperm (List.Subperm.refl _) (List.Perm.subperm ?_)
          show (graph.ops.eraseP _ ++ (ops ++ (s.removed.add op).2.held)).Perm _
          rw [s.removed.held_add, ← List.append_assoc ops]
          exact Bench.perm_setAside hfound _

theorem reconnect (g n : Nat) : (reconnect g n s).2.Traced := by
  rw [reconnect_snd]
  cases hremoved : s.removed.get? n with
  | none => exact h
  | some op =>
      obtain ⟨rest, hheld, herase, _⟩ := Slots.exists_held hremoved
      cases hgraph : s.graphs.get? g with
      | none =>
          have htaken : rest.Subperm s.removed.held :=
            (List.sublist_cons_self op rest).subperm.trans hheld.symm.subperm
          exact h.subperm (List.Subperm.refl _) ((List.subperm_append_left _).2 (herase ▸ htaken))
      | some graph =>
          refine h.change hgraph rfl fun tensors ops hall => ?_
          simp only [herase]
          refine (hall.subperm (List.Subperm.refl _) (List.Perm.subperm ?_)).connect
          exact (List.perm_middle.symm.trans (hheld.symm.append_left ops)).append_left _

theorem sort (g : Nat) : (onGraph g .graph Graph.sort s).2.Traced := by
  rw [onGraph_snd]
  cases hgraph : s.graphs.get? g with
  | none => exact h
  | some graph =>
      obtain ⟨htensors, hids, hsubset⟩ := Graph.sort_keeps s.machine (h.graph_traced hgraph).opIds
      refine h.change hgraph rfl fun tensors ops hall => ?_
      rw [htensors]
      exact hall.subperm (List.Subperm.refl _)
        ((List.subperm_append_right _).2 (List.subperm_of_subset (hids.of_map _) hsubset))

theorem apply (e : Edit) : (s.apply e).Traced := by
  cases e with
  | newGraph => exact h.newGraph
  | addTensor g shape stride kind =>
      exact h.onDraft (fun _ hfresh => Draft.addTensor_grows hfresh shape stride kind) g
  | addOp g kind inputs => exact h.onDraft (fun _ hfresh => Draft.addOp_grows hfresh kind inputs) g
  | addOpWithOutputs g kind inputs outputs =>
      exact h.onDraft (fun d _ => Draft.addOpWithOutputs_grows d kind inputs outputs) g
  | makeTensor shape stride kind => exact h.makeLoose shape stride kind
  | insertTensor g n => exact h.insertLoose g n
  | removeTensor g id => exact h.removeTensor g id
  | removeOperator g id => exact h.removeOperator g id
  | reconnect g n => exact h.reconnect g n
  | sort g => exact h.sort g

end Traced

/-! ### All edits -/

theorem traced_after (emulated : List DeviceKind) (edits : List Edit) :
    (after emulated edits).Traced := by
  have hstart : (start emulated).Traced := .empty _
  have hrun : ∀ s : Session, s.Traced → (edits.foldl apply s).Traced := by
    induction edits with
    | nil => exact fun _ h => h
    | cons e edits ih => exact fun s h => ih _ (h.apply e)
  exact hrun _ hstart

/-- If a graph passes the check, whatever has been done to it, two operators are linked to each
other exactly if a tensor of the graph has the one as source and is an input of the other, and a
tensor is an output of its source alone, if of any. -/
theorem edges_of_checkValid (emulated : List DeviceKind) (edits : List Edit) (g : Nat)
    (graph : Graph) (hgraph : (after emulated edits).graphs.get? g = some graph)
    (hvalid : graph.checkValid = .ok ()) :
    (∀ a ∈ graph.ops, ∀ c ∈ graph.ops, (c.id ∈ a.successors ↔ a.id ∈ c.predecessors) ∧
        (a.id ∈ c.predecessors ↔ ∃ t ∈ graph.tensors, t.source = some a.id ∧ t.id ∈ c.inputs)) ∧
      ∀ t ∈ graph.tensors, ∀ a ∈ graph.ops, t.id ∈ a.outputs →
      t.source = some a.id ∧ ∀ b ∈ graph.ops, t.id ∈ b.outputs → b = a := by
  have htraced := (traced_after emulated edits).graph_traced hgraph
  rw [Graph.checkValid_eq_ok_iff] at hvalid
  refine ⟨fun a ha c hc =>
    ⟨hvalid.mem_successors_iff ha hc, htraced.mem_predecessors_iff hvalid ha hc⟩,
    fun t ht a ha hout => ?_⟩
  refine ⟨?_, fun b hb hout' => hvalid.singleProducer b hb a ha t.id hout' hout⟩
  obtain ⟨u, hu, hsource⟩ := hvalid.outputs a ha t.id hout
  rwa [Option.some.inj ((Graph.tensor?_of_mem hvalid.tensorIds ht).symm.trans hu)]

/-- An operator stays behind while what it makes goes to another graph and is taken there, and then
follows. -/
def moved : List Edit :=
  List.replicate 3 (.addTensor 0 ⟨[.const 4]⟩ none .f32) ++
    [.addOpWithOutputs 0 (.pointwise .add) [1, 1] [2], .newGraph, .removeTensor 0 1,
      .removeTensor 0 2, .removeTensor 0 3, .insertTensor 1 0, .insertTensor 1 1,
      .insertTensor 1 2, .addOpWithOutputs 1 (.pointwise .mul) [2, 1] [3], .removeOperator 0 1,
      .reconnect 1 0, .sort 1]

theorem edges_of_moved :
    ∃ graph, (after [] moved).graphs.get? 1 = some graph ∧ graph.checkValid = .ok () ∧
    graph.ops.map Operator.id = [1, 2] ∧
      ∀ a ∈ graph.ops, ∀ c ∈ graph.ops, (c.id ∈ a.successors ↔ a.id ∈ c.predecessors) ∧
        (a.id ∈ c.predecessors ↔ ∃ t ∈ graph.tensors, t.source = some a.id ∧ t.id ∈ c.inputs) := by
  have hvalid : ((after [] moved).graphs.get? 1).map Graph.checkValid = some (.ok ()) := by
    decide +kernel
  have hops : ((after [] moved).graphs.get? 1).map (fun graph => graph.ops.map Operator.id) =
      some [1, 2] := by
    decide +kernel
  cases hgraph : (after [] moved).graphs.get? 1 with
  | none =>
      rw [hgraph] at hvalid
      cases hvalid
  | some graph =>
      rw [hgraph, Option.map_some, Option.some.injEq] at hvalid hops
      exact ⟨graph, rfl, hvalid, hops, (edges_of_checkValid [] moved 1 graph hgraph hvalid).1⟩

end Session

end TensorDataflow
