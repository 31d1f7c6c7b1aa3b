import TensorDataflow.Proofs.Engine.Inventory
import TensorDataflow.Proofs.Graph.History
import TensorDataflow.Proofs.Session.Bindings
/-!
# What operators hold in a session

The client of a session edits its graphs, gives them up, lays tensors out anew, infers shapes and
binds variables, opens engines and gives them up, asks for descriptors and releases them, and runs
graphs, from any threads, while any native call may fail that does not destroy a descriptor. Through
all of it the library of the client has in stock what the operators at hand hold, and nothing else:
`Session.Balanced.advance`.
-/

namespace TensorDataflow

namespace Session

/-! ### Moves -/

/-- A way to lay a tensor out anew. -/
inductive Relayout where
  | shape (extents : Shape)
  | stride (steps : Stride)
  | contiguous
  | substitute (bindings : Bindings)

def Relayout.change (t : Tensor) : Relayout → Except GraphError Tensor
  | .shape extents => .ok (t.setShape extents)
  | .stride steps => t.setStride steps
  | .contiguous => .ok t.resetStride
  | .substitute bindings => t.substitute bindings

/-- What a thread does. A removed operator is given up by putting it into a graph that is not
there. -/
inductive Job where
  | edit (e : Edit)
  | dropGraph (g : Nat)
  | layOut (ref : TensorRef) (relayout : Relayout)
  | infer (g : Nat)
  | resolve (g : Nat) (bindings : Bindings)
  | serve (request : Request)
  | create (g : Nat) (id : OpId) (device : DeviceKind) (deviceId : Nat) (guarded : Bool)
  | release (g : Nat) (id : OpId)
  | realise (n g : Nat)
  | run (n g : Nat)

/-- Does a job; one that fails leaves what it has done so far. -/
def perform (s : Session) : Job → Session
  | .edit e => s.apply e
  | .dropGraph g => (dropGraph g s).2
  | .layOut ref relayout => (changeTensor ref (Relayout.change · relayout) s).2
  | .infer g => (onGraph g .graph (Graph.onGraph Graph.shapeInfer) s).2
  | .resolve g bindings => (onGraph g .graph (Graph.onGraph (Graph.resolve bindings)) s).2
  | .serve request => (answer request s).2
  | .create g id device deviceId guarded => (createDescriptor g id device deviceId guarded s).2
  | .release g id => (releaseDescriptor g id s).2
  | .realise n g => (onEngineGraph n g Engine.realiseData s).2
  | .run n g => (onEngineGraph n g Engine.run s).2

/-- A thread does a job, or a fault is planned for a call that destroys nothing. -/
inductive Move where
  | act (thread : ThreadId) (job : Job)
  | plan (fault : { fault : Fault // fault.call ∉ NativeCall.destroys })

def advance (s : Session) : Move → Session
  | .act thread job => (s.onThread thread).perform job
  | .plan fault => (inject fault s).2

/-- Where moves lead from the start of a session, over a host that offers some places for blocks. -/
def played (emulated : List DeviceKind) (rooms : List Nat) (moves : List Move) : Session :=
  moves.foldl advance (start emulated rooms)

/-! ### The jobs applied -/

variable {s s' : Session} {ε α : Type}

theorem dropGraph_snd (g : Nat) (s : Session) :
    (dropGraph g s).2 = match s.graphs.get? g with
      | some graph =>
          { s with
            machine := ((Operator.dropAll graph.ops : Act Machine SessionError Unit) s.machine).2
            graphs := s.graphs.erase g }
      | none => s := by
  simp only [dropGraph, graphAt, Act.bind_apply, slot_apply]
  cases s.graphs.get? g with
  | none => rfl
  | some graph =>
      simp only [onMachine, Act.on_apply, Act.mapError_apply, Operator.dropAll_apply,
        Except.mapError, Act.modify_apply]

theorem changeTensor_member (g : Nat) (id : TensorId) (change : Tensor → Except GraphError Tensor)
    (s : Session) :
    (changeTensor (.member g id) change s).2 = match s.graphs.get? g with
      | some graph => match (graph.tensor id).bind change with
          | .ok t => { s with graphs := s.graphs.set g (graph.modifyTensor id fun _ => t) }
          | .error _ => s
      | none => s := by
  simp only [changeTensor, tensorAt, askGraph, graphAt, Act.bind_apply, slot_apply]
  cases hgraph : s.graphs.get? g with
  | none => rfl
  | some graph =>
      simp only [Act.ofExcept_apply]
      cases graph.tensor id with
      | error cause => rfl
      | ok t =>
          simp only [Except.mapError, Except.bind]
          cases change t with
          | error cause => rfl
          | ok t' => simp only [Act.modify_apply, putTensor, hgraph]

theorem changeTensor_loose (n : Nat) (change : Tensor → Except GraphError Tensor) (s : Session) :
    (changeTensor (.loose n) change s).2 = match s.loose.get? n with
      | some t => match change t with
          | .ok t' => { s with loose := s.loose.set n t' }
          | .error _ => s
      | none => s := by
  simp only [changeTensor, tensorAt, Act.bind_apply, slot_apply]
  cases s.loose.get? n with
  | none => rfl
  | some t =>
      simp only [Act.ofExcept_apply]
      cases change t <;> rfl

theorem releaseDescriptor_snd (g : Nat) (id : OpId) (s : Session) :
    (releaseDescriptor g id s).2 = s ∨
    (releaseDescriptor g id s).2 = (onGraph g .graph (Graph.releaseDescriptor id) s).2 := by
  rw [releaseDescriptor]
  simp only [askGraph, graphAt, Act.bind_apply, slot_apply]
  cases hgraph : s.graphs.get? g with
  | none => exact .inl rfl
  | some graph =>
      simp only [Act.ofExcept_apply]
      cases graph.operator id with
      | error cause => exact .inl rfl
      | ok op => exact .inr rfl

theorem onEngineGraph_snd (n g : Nat) (act : Engine → GraphAct EngineError α) (s : Session) :
    (onEngineGraph n g act s).2 = match s.engines.get? n with
      | some e => (onGraph g .engine (act e) s).2
      | none => s := by
  rw [onEngineGraph]
  cases hengine : s.engines.get? n with
  | none => rw [Act.bind_of_error (engineAt_of_none hengine)]
  | some e => rw [Act.bind_of_ok (engineAt_apply hengine)]

theorem links_change {t t' : Tensor} {relayout : Relayout}
    (h : Relayout.change t relayout = .ok t') : t'.links = t.links := by
  cases relayout with
  | shape extents =>
      cases h
      rfl
  | contiguous =>
      cases h
      rfl
  | stride steps =>
      rw [Relayout.change, Tensor.setStride] at h
      obtain ⟨_, _, h⟩ := except_bind_eq_ok.1 h
      cases h
      rfl
  | substitute bindings =>
      rw [Relayout.change, Tensor.substitute] at h
      obtain ⟨_, _, h⟩ := except_bind_eq_ok.1 h
      cases h
      rfl

/-! ### Engines that come and go -/

/-- Every engine works on the client's own backend. -/
def AtHome (s : Session) : Prop := ∀ n e, s.engines.get? n = some e → e.backend = ownBackend

/-- Nothing happens to what is at hand and to what is in stock, and engines stay at home. -/
structure Serves (s s' : Session) : Prop where
  ids : s'.ids = s.ids
  graphs : s'.graphs = s.graphs
  loose : s'.loose = s.loose
  removed : s'.removed = s.removed
  stock : s.machine.KeepsStock ownBackend s'.machine
  engines : s.AtHome → s'.AtHome

instance : IsPreorder Session Serves where
  refl s := ⟨rfl, rfl, rfl, rfl, refl_of (Machine.KeepsStock ownBackend) s.machine, id⟩
  trans _ _ _ h h' := ⟨h'.ids.trans h.ids, h'.graphs.trans h.graphs, h'.loose.trans h.loose,
      h'.removed.trans h.removed, IsTrans.trans _ _ _ h.stock h'.stock, h'.engines ∘ h.engines⟩

section Serves

/-- The machine, the contexts at hand and those with a number matter only as far as the stock
goes. -/
theorem serves_of_stock {machine : Machine} (h : s.machine.KeepsStock ownBackend machine)
    (contexts : Slots Context) (cache : ContextCache) :
    s.Serves { s with machine, contexts, cache } := ⟨rfl, rfl, rfl, rfl, h, id⟩

theorem AtHome.add (h : s.AtHome) {e : Engine} (he : e.backend = ownBackend) :
    ({ s with engines := (s.engines.add e).2 } : Session).AtHome := by
  intro k e' hget
  rw [Slots.get?_add] at hget
  split at hget
  · cases hget
    exact he
  · exact h k e' hget

theorem AtHome.set (h : s.AtHome) {n : Nat} {e e' : Engine} (hengine : s.engines.get? n = some e)
    (he : e'.backend = e.backend) :
    ({ s with engines := s.engines.set n e' } : Session).AtHome := by
  intro k e'' hget
  rw [Slots.get?_set _ _ _ (Slots.lt_of_get? hengine)] at hget
  split at hget
  · cases hget
    exact he.trans (h n e hengine)
  · exact h k e'' hget

theorem AtHome.erase (h : s.AtHome) (n : Nat) :
    ({ s with engines := s.engines.erase n } : Session).AtHome := by
  intro k e hget
  rw [Slots.get?_erase] at hget
  split at hget
  · cases hget
  · exact h k e hget

theorem onMachine_serves {wrap : ε → SessionError} {act : Act Machine ε α}
    (h : act.Keeps (Machine.KeepsStock ownBackend)) : (onMachine wrap act).Keeps Serves :=
  (h.mapError wrap).on fun s _ hkeeps => s.serves_of_stock hkeeps s.contexts s.cache

theorem engineAt_serves (n : Nat) : (engineAt n).Keeps Serves := by
  intro s
  cases hengine : s.engines.get? n with
  | none =>
      rw [engineAt_of_none hengine]
      exact refl_of Serves s
  | some e =>
      rw [engineAt_apply hengine]
      exact refl_of Serves s

theorem cachedContext_serves (n : Nat) : (cachedContext n).Keeps Serves := by
  intro s
  rw [cachedContext_apply]
  split
  · exact refl_of Serves s
  · exact s.serves_of_stock (refl_of _ s.machine) s.contexts _

theorem cacheContext_serves (n : Nat) (c : Context) : (cacheContext n c).Keeps Serves :=
  fun s => s.serves_of_stock (refl_of _ s.machine) s.contexts _

theorem keepContext_serves (c : Context) : (keepContext c).Keeps Serves :=
  fun s => s.serves_of_stock (refl_of _ s.machine) _ s.cache

theorem currentContext_serves (n : Nat) : (currentContext n).Keeps Serves := by
  refine (engineAt_serves n).bind fun e => (cachedContext_serves n).bind fun cached => ?_
  cases cached with
  | some c => exact Act.keeps_pure c
  | none =>
      exact (onMachine_serves e.currentContext_keepsStock).bind fun c =>
        (cacheContext_serves n c).bind fun _ => Act.keeps_pure c

theorem onEngine_serves (n : Nat) {act : EngineAct α} (h : act.Keeps (Engine.Retains ownBackend)) :
    (onEngine n act).Keeps Serves := by
  intro s
  cases hengine : s.engines.get? n with
  | none =>
      rw [onEngine, Act.bind_of_error (engineAt_of_none hengine)]
      exact refl_of Serves s
  | some e =>
      obtain ⟨hstock, hbackend⟩ := h (s.machine, e)
      rw [onEngine_apply hengine]
      exact ⟨rfl, rfl, rfl, rfl, hstock, fun hhome => hhome.set hengine hbackend⟩

theorem addEngine_serves {e : Engine} (he : e.backend = ownBackend) : (addEngine e).Keeps Serves :=
  fun s => ⟨rfl, rfl, rfl, rfl, refl_of _ s.machine, fun h => h.add he⟩

theorem openEngine_serves (kernels : KernelRegistry) (config : Config) :
    (openEngine kernels config).Keeps Serves := by
  refine Act.Keeps.bind_of (onMachine_serves (Engine.create_keepsStock kernels config))
    fun s e s' hcreate => ?_
  obtain ⟨m, hmachine, -⟩ := Act.on_eq_ok hcreate
  have hhome := Engine.backend_of_create (Act.mapError_eq_ok.1 hmachine)
  exact ((addEngine_serves hhome).bind fun n => (currentContext_serves n).bind fun _ =>
      Act.keeps_pure n) s'

/-- Nothing that a thread asks of engines touches what is held. -/
theorem answer_serves (request : Request) : (answer request).Keeps Serves := by
  cases request with
  | create kernels config =>
      exact (openEngine_serves kernels config).bind fun n => (currentContext_serves n).bind fun _ =>
        Act.keeps_pure _
  | look n => exact (currentContext_serves n).bind fun _ => Act.keeps_pure _
  | bind n device deviceId =>
      refine Act.Keeps.bind ((engineAt_serves n).bind fun _ =>
          (cachedContext_serves n).bind fun cached => ?_) fun _ => Act.keeps_pure _
      cases cached with
      | some c => exact keepContext_serves c
      | none =>
          exact (onEngine_serves n (Engine.enter_retains device deviceId)).bind fun c =>
            (cacheContext_serves n c).bind fun _ => keepContext_serves c
  | switch n device deviceId =>
      refine Act.Keeps.bind ((currentContext_serves n).bind fun old => ?_) fun _ => Act.keeps_pure _
      split
      · exact keepContext_serves old
      · exact (onEngine_serves n (Engine.replaceContext_retains old device deviceId)).bind fun c =>
          (cacheContext_serves n c).bind fun _ => keepContext_serves c
  | drop n =>
      refine Act.Keeps.bind ((engineAt_serves n).bind fun e =>
          (onMachine_serves e.close_keepsStock).bind fun _ => ?_) fun _ => Act.keeps_pure _
      exact fun s => ⟨rfl, rfl, rfl, rfl, refl_of _ s.machine, fun h => h.erase n⟩

end Serves

/-! ### Balance -/

/-- The links of what is at hand are traced, what operators hold is in stock and nothing else, and
engines are at home. -/
structure Balanced (floor : Nat) (Q : Entry → Prop) (s : Session) : Prop where
  traced : s.Traced
  accounts : s.machine.Accounts ownBackend floor Q (heldBy s.ops)
  home : s.AtHome

/-- Every kernel that a graph at hand compiles now would be as it should be, under a new number. -/
def Warrants (s : Session) (floor : Nat) (Q : Entry → Prop) : Prop :=
  ∀ g graph, s.graphs.get? g = some graph → graph.Warrants floor Q

/-- What the operators of one graph hold, and all others. -/
theorem exists_heldElsewhere {g : Nat} {graph : Graph} (hgraph : s.graphs.get? g = some graph) :
    ∃ ops, (heldBy s.ops).Perm (heldBy graph.ops ++ heldBy (ops ++ s.removed.held)) ∧
      ∀ (s' : Session) graph', s'.graphs = s.graphs.set g graph' →
      (heldBy s'.ops).Perm (heldBy graph'.ops ++ heldBy (ops ++ s'.removed.held)) := by
  obtain ⟨_, ops, ⟨-, hops⟩, hothers⟩ := exists_elsewhere hgraph
  refine ⟨ops, heldBy_append graph.ops _ ▸ heldBy_perm hops, fun s' graph' hset => ?_⟩
  obtain ⟨-, hops'⟩ := hothers s' graph' hset
  exact heldBy_append graph'.ops _ ▸ heldBy_perm hops'

/-- What is at hand without one of the graphs. -/
theorem exists_remaining {g : Nat} {graph : Graph} (hgraph : s.graphs.get? g = some graph)
    (herase : s'.graphs = s.graphs.erase g) (hloose : s'.loose = s.loose)
    (hremoved : s'.removed = s.removed) :
    s.tensors.Perm (graph.tensors ++ s'.tensors) ∧ s.ops.Perm (graph.ops ++ s'.ops) := by
  obtain ⟨others, hheld, herased, -⟩ := Slots.exists_held hgraph
  rw [tensors, tensors, ops, ops, herase, hloose, hremoved, herased, ← List.append_assoc,
    ← List.append_assoc, ← List.flatMap_cons, ← List.flatMap_cons]
  exact ⟨(hheld.flatMap_right _).append_right _, (hheld.flatMap_right _).append_right _⟩

theorem Traced.relink (h : s.Traced) {g : Nat} {graph graph' : Graph}
    (hgraph : s.graphs.get? g = some graph) (hlinks : Graph.SameLinks graph graph')
    (hset : s'.graphs = s.graphs.set g graph') (hids : s'.ids = s.ids) (hloose : s'.loose = s.loose)
    (hremoved : s'.removed = s.removed) : s'.Traced := by
  refine h.change hgraph hset fun tensors ops hall => ?_
  rw [hids, hloose, hremoved]
  refine hall.congr ?_ ?_
  · rw [List.map_append, hlinks.tensors, ← List.map_append]
  · rw [List.map_append, hlinks.ops, ← List.map_append]

namespace Balanced

variable {floor : Nat} {Q : Entry → Prop} (h : s.Balanced floor Q)

include h

theorem serves (hserves : s.Serves s') : s'.Balanced floor Q where
  traced := by
    rw [Session.Traced, Session.tensors, Session.ops, hserves.graphs, hserves.loose,
      hserves.removed, hserves.ids]
    exact h.traced
  accounts := by
    rw [Session.ops, hserves.graphs, hserves.removed]
    exact h.accounts.keepsStock hserves.stock
  home := hserves.engines h.home

/-- As long as nothing is done to the machine, it matters only what is held. -/
theorem same (hmachine : s'.machine = s.machine) (hengines : s'.engines = s.engines)
    (htraced : s'.Traced) (hheld : (heldBy s.ops).Perm (heldBy s'.ops)) : s'.Balanced floor Q where
  traced := htraced
  accounts := hmachine ▸ h.accounts.congr hheld
  home := by
    rw [AtHome, hengines]
    exact h.home

section Change

variable {g : Nat} {graph graph' : Graph} (hgraph : s.graphs.get? g = some graph)
  (hset : s'.graphs = s.graphs.set g graph') (hengines : s'.engines = s.engines)
  (htraced : s'.Traced)

include hgraph hset hengines htraced

/-- A change to one graph, and to what is removed, is settled with whatever else is held. -/
theorem change (hchange : ∀ ops,
      s.machine.Accounts ownBackend floor Q (heldBy graph.ops ++ heldBy (ops ++ s.removed.held)) →
      s'.machine.Accounts ownBackend floor Q
        (heldBy graph'.ops ++ heldBy (ops ++ s'.removed.held))) : s'.Balanced floor Q := by
  obtain ⟨ops, hbefore, hafter⟩ := exists_heldElsewhere hgraph
  refine ⟨htraced, (hchange ops (h.accounts.congr hbefore)).congr (hafter s' graph' hset).symm, ?_⟩
  rw [AtHome, hengines]
  exact h.home

/-- Operators that change places keep what they hold. -/
theorem rearrange (hmachine : s'.machine = s.machine)
    (hheld : ∀ ops, (heldBy graph.ops ++ heldBy (ops ++ s.removed.held)).Perm
        (heldBy graph'.ops ++ heldBy (ops ++ s'.removed.held))) :
    s'.Balanced floor Q :=
  h.change hgraph hset hengines htraced fun ops haccounts => hmachine ▸ haccounts.congr (hheld ops)

end Change

/-! ### Edits and descriptors -/

theorem onDraft {act : Act Draft GraphError α} (g : Nat) (htraced : (onDraft g act s).2.Traced)
    (hheld : ∀ graph, s.graphs.get? g = some graph →
      heldBy (act ⟨graph, s.ids⟩).2.graph.ops = heldBy graph.ops) :
    (Session.onDraft g act s).2.Balanced floor Q := by
  rw [onDraft_snd] at htraced ⊢
  cases hgraph : s.graphs.get? g with
  | none => exact h
  | some graph =>
      rw [hgraph] at htraced
      exact h.rearrange hgraph rfl rfl htraced rfl fun ops => by rw [hheld graph hgraph]

/-- An action on a graph that keeps its links and settles what is held. -/
theorem onGraph {act : GraphAct ε α} (g : Nat) (wrap : ε → SessionError)
    (hact : ∀ graph rest, s.graphs.get? g = some graph →
      s.machine.Accounts ownBackend floor Q (heldBy graph.ops ++ rest) →
      Graph.SameLinks graph (act (s.machine, graph)).2.2 ∧ (act (s.machine, graph)).2.1.Accounts
        ownBackend floor Q (heldBy (act (s.machine, graph)).2.2.ops ++ rest)) :
    (onGraph g wrap act s).2.Balanced floor Q := by
  rw [onGraph_snd]
  cases hgraph : s.graphs.get? g with
  | none => exact h
  | some graph =>
      obtain ⟨_, hheld, -⟩ := exists_heldElsewhere hgraph
      obtain ⟨hlinks, -⟩ := hact graph _ hgraph (h.accounts.congr hheld)
      exact h.change hgraph rfl rfl (h.traced.relink hgraph hlinks rfl rfl rfl rfl)
        fun ops haccounts => (hact graph _ hgraph haccounts).2

theorem reconnect (g n : Nat) : (reconnect g n s).2.Balanced floor Q := by
  have htraced := h.traced.reconnect g n
  rw [reconnect_snd] at htraced ⊢
  cases hremoved : s.removed.get? n with
  | none => exact h
  | some op =>
      obtain ⟨rest, hheld, herase, -⟩ := Slots.exists_held hremoved
      rw [hremoved] at htraced
      cases hgraph : s.graphs.get? g with
      | none =>
          rw [hgraph] at htraced
          refine ⟨htraced,
            @Machine.Accounts.dropAll _ _ _ _ _ [op] (h.accounts.congr ?_) SessionError, h.home⟩
          have hops : s.ops.Perm
              ([op] ++ (s.graphs.held.flatMap Graph.ops ++ (s.removed.erase n).held)) := by
            rw [herase]
            exact (hheld.append_left _).trans List.perm_middle
          rw [← heldBy_append]
          exact heldBy_perm hops
      | some graph =>
          rw [hgraph] at htraced
          refine h.rearrange hgraph rfl rfl htraced rfl fun ops => ?_
          simp only [herase]
          rw [heldBy_connect, ← heldBy_append, ← heldBy_append, List.append_assoc]
          exact heldBy_perm (((hheld.append_left ops).trans List.perm_middle).append_left graph.ops)

theorem removeOperator (g : Nat) (id : OpId) : (removeOperator g id s).2.Balanced floor Q := by
  have htraced := h.traced.removeOperator g id
  rw [removeOperator_snd] at htraced ⊢
  cases hgraph : s.graphs.get? g with
  | none => exact h
  | some graph =>
      rw [hgraph] at htraced
      rw [Option.bind_some, Graph.removeOperator] at htraced ⊢
      cases hfound : graph.operator? id with
      | none => exact h
      | some op =>
          rw [hfound] at htraced
          refine h.rearrange hgraph rfl rfl htraced rfl fun ops => ?_
          rw [← heldBy_append, ← heldBy_append]
          refine heldBy_perm ?_
          show (graph.ops ++ (ops ++ s.removed.held)).Perm
            (graph.ops.eraseP _ ++ (ops ++ (s.removed.add op).2.held))
          rw [s.removed.held_add, ← List.append_assoc ops]
          exact (Bench.perm_setAside hfound _).symm

theorem insertLoose (g n : Nat) : (insertLoose g n s).2.Balanced floor Q := by
  have htraced := h.traced.insertLoose g n
  rw [insertLoose_snd] at htraced ⊢
  cases hloose : s.loose.get? n with
  | none => exact h
  | some t =>
      rw [hloose] at htraced
      simp only [onDraft_snd, Draft.insertTensor_apply] at htraced ⊢
      cases hgraph : s.graphs.get? g with
      | none =>
          rw [hgraph] at htraced
          exact h.same rfl rfl htraced (.refl _)
      | some graph =>
          rw [hgraph] at htraced
          refine h.rearrange hgraph rfl rfl htraced rfl fun ops => .of_eq ?_
          cases (graph.tensor? t.id).isSome <;> rfl

theorem removeTensor (g : Nat) (id : TensorId) : (removeTensor g id s).2.Balanced floor Q := by
  have htraced := h.traced.removeTensor g id
  rw [removeTensor_snd] at htraced ⊢
  cases hgraph : s.graphs.get? g with
  | none => exact h
  | some graph =>
      rw [hgraph] at htraced
      rw [Option.bind_some, Graph.removeTensor] at htraced ⊢
      cases hfound : graph.tensor? id with
      | none => exact h
      | some t =>
          rw [hfound] at htraced
          exact h.rearrange hgraph rfl rfl htraced rfl fun ops => .refl _

theorem makeLoose (shape : Shape) (stride : Option Stride) (kind : ElementKind) :
    (makeLoose shape stride kind s).2.Balanced floor Q := by
  have htraced := h.traced.makeLoose shape stride kind
  rw [makeLoose_snd] at htraced ⊢
  cases hmake : Tensor.make s.ids.tensor shape stride kind with
  | error cause => exact h
  | ok t =>
      rw [hmake] at htraced
      exact h.same rfl rfl htraced (.refl _)

theorem sort (g : Nat) : (Session.onGraph g .graph Graph.sort s).2.Balanced floor Q := by
  have htraced := h.traced.sort g
  rw [onGraph_snd] at htraced ⊢
  cases hgraph : s.graphs.get? g with
  | none => exact h
  | some graph =>
      rw [hgraph] at htraced
      exact h.change hgraph rfl rfl htraced fun ops haccounts =>
        Graph.sort_settles (h.traced.graph_traced hgraph).opIds haccounts

theorem newGraph : (newGraph s).2.Balanced floor Q :=
  h.same rfl rfl h.traced.newGraph (.of_eq (congrArg heldBy s.ops_newGraph.symm))

theorem apply (e : Edit) : (s.apply e).Balanced floor Q := by
  have htraced := h.traced.apply e
  have hfresh : ∀ {g graph}, s.graphs.get? g = some graph → Draft.Fresh ⟨graph, s.ids⟩ :=
    fun hgraph => (h.traced.graph_traced hgraph).tensorsKnown
  cases e with
  | newGraph => exact h.newGraph
  | addTensor g shape stride kind =>
      exact h.onDraft g htraced fun _ hgraph =>
        (Draft.addTensor_grows (hfresh hgraph) shape stride kind).heldBy
  | addOp g kind inputs =>
      exact h.onDraft g htraced fun _ hgraph =>
        (Draft.addOp_grows (hfresh hgraph) kind inputs).heldBy
  | addOpWithOutputs g kind inputs outputs =>
      exact h.onDraft g htraced fun graph _ =>
        (Draft.addOpWithOutputs_grows ⟨graph, s.ids⟩ kind inputs outputs).heldBy
  | makeTensor shape stride kind => exact h.makeLoose shape stride kind
  | insertTensor g n => exact h.insertLoose g n
  | removeTensor g id => exact h.removeTensor g id
  | removeOperator g id => exact h.removeOperator g id
  | reconnect g n => exact h.reconnect g n
  | sort g => exact h.sort g

theorem dropGraph (g : Nat) : (dropGraph g s).2.Balanced floor Q := by
  rw [dropGraph_snd]
  cases hgraph : s.graphs.get? g with
  | none => exact h
  | some graph =>
      obtain ⟨htensors, hops⟩ := @exists_remaining s
        { s with machine := _, graphs := s.graphs.erase g } g graph hgraph rfl rfl rfl
      refine ⟨h.traced.subperm ?_ ?_, Machine.Accounts.dropAll (h.accounts.congr ?_), h.home⟩
      · exact (List.sublist_append_right _ _).subperm.trans htensors.symm.subperm
      · exact (List.sublist_append_right _ _).subperm.trans hops.symm.subperm
      · rw [← heldBy_append]
        exact heldBy_perm hops

theorem layOut (ref : TensorRef) (relayout : Relayout) :
    (changeTensor ref (Relayout.change · relayout) s).2.Balanced floor Q := by
  cases ref with
  | member g id =>
      rw [changeTensor_member]
      cases hgraph : s.graphs.get? g with
      | none => exact h
      | some graph =>
          dsimp only
          cases hchange : (graph.tensor id).bind (Relayout.change · relayout) with
          | error cause => exact h
          | ok t' =>
              obtain ⟨t, ht, hnew⟩ := except_bind_eq_ok.1 hchange
              have hlinks : Graph.SameLinks graph (graph.modifyTensor id fun _ => t') := by
                refine ⟨?_, rfl⟩
                rw [Graph.modifyTensor, List.map_map]
                refine List.map_congr_left fun u hu => ?_
                rw [Function.comp_apply]
                split
                · -- a number stands for one tensor, so this is the one that was laid out anew
                  next hid =>
                    have hfound := Graph.tensor_eq_ok_iff.1 ht
                    rw [List.inj_on_of_nodup_map (h.traced.graph_traced hgraph).tensorIds hu
                      (Graph.mem_of_tensor? hfound) (hid.trans (Graph.id_of_tensor? hfound).symm)]
                    exact links_change hnew
                · rfl
              exact h.rearrange hgraph rfl rfl (h.traced.relink hgraph hlinks rfl rfl rfl rfl) rfl
                fun ops => .refl _
  | loose n =>
      rw [changeTensor_loose]
      cases hloose : s.loose.get? n with
      | none => exact h
      | some t =>
          dsimp only
          cases hchange : Relayout.change t relayout with
          | error cause => exact h
          | ok t' =>
              obtain ⟨others, hheld, -, hset⟩ := Slots.exists_held hloose
              refine h.same rfl rfl ?_ (.refl _)
              have hfirst : TensorDataflow.Traced s.ids
                  (t :: (s.graphs.held.flatMap Graph.tensors ++ others)) s.ops :=
                h.traced.subperm
                  ((List.perm_middle.symm.trans (hheld.symm.append_left _)).subperm) (.refl _)
              have hthen : TensorDataflow.Traced s.ids
                  (t' :: (s.graphs.held.flatMap Graph.tensors ++ others)) s.ops :=
                hfirst.congr (by rw [List.map_cons, List.map_cons, links_change hchange]) rfl
              exact hthen.subperm
                (((hset t').append_left _).trans List.perm_middle).subperm (.refl _)

/-- An action that balances the accounts of every graph. -/
theorem onGraph_balances {act : GraphAct ε α} (g : Nat) (wrap : ε → SessionError)
    (hwarrants : s.Warrants floor Q) (hact : act.Keeps (Graph.Balances ownBackend floor Q)) :
    (Session.onGraph g wrap act s).2.Balanced floor Q := by
  refine h.onGraph g wrap fun graph rest hgraph haccounts => ?_
  obtain ⟨hbare, haccounts'⟩ := hact (s.machine, graph) rest (hwarrants g graph hgraph)
    (h.traced.graph_traced hgraph).opIds haccounts
  exact ⟨hbare.sameLinks, haccounts'⟩

theorem releaseDescriptor (hwarrants : s.Warrants floor Q) (g : Nat) (id : OpId) :
    (releaseDescriptor g id s).2.Balanced floor Q := by
  rcases releaseDescriptor_snd g id s with hsame | hdone
  · rwa [hsame]
  · rw [hdone]
    exact h.onGraph_balances g .graph hwarrants (Graph.releaseDescriptor_balances id)

/-- An action on a graph alone that keeps its wiring. -/
theorem onGraph_wiring {act : Act Graph ε α} (g : Nat)
    (wrap : ε → SessionError) (hact : act.Keeps Graph.SameWiring) :
    (Session.onGraph g wrap (Graph.onGraph act) s).2.Balanced floor Q := by
  refine h.onGraph g wrap fun graph rest hgraph haccounts => ?_
  obtain ⟨hops, -, hlinks⟩ := hact graph
  rw [Graph.onGraph, Act.on_apply]
  exact ⟨⟨hlinks, congrArg _ hops⟩, hops ▸ haccounts⟩

theorem realise (n g : Nat) : (onEngineGraph n g Engine.realiseData s).2.Balanced floor Q := by
  rw [onEngineGraph_snd]
  cases s.engines.get? n with
  | none => exact h
  | some e =>
      refine h.onGraph g .engine fun graph rest hgraph haccounts => ?_
      obtain ⟨hstock, hops, -, hlinks⟩ := e.realiseData_keepsStock (s.machine, graph)
      exact ⟨⟨hlinks, congrArg _ hops⟩, hops ▸ haccounts.keepsStock hstock⟩

theorem run (hwarrants : s.Warrants floor Q) (n g : Nat) :
    (onEngineGraph n g Engine.run s).2.Balanced floor Q := by
  rw [onEngineGraph_snd]
  cases hengine : s.engines.get? n with
  | none => exact h
  | some e => exact h.onGraph_balances g .engine hwarrants (h.home n e hengine ▸ e.run_balances)

theorem perform (hwarrants : s.Warrants floor Q) (job : Job) :
    (s.perform job).Balanced floor Q := by
  cases job with
  | edit e => exact h.apply e
  | dropGraph g => exact h.dropGraph g
  | layOut ref relayout => exact h.layOut ref relayout
  | infer g => exact h.onGraph_wiring g .graph Graph.shapeInfer_keeps
  | resolve g bindings => exact h.onGraph_wiring g .graph (Graph.resolve_keeps bindings)
  | serve request => exact h.serves (answer_serves request s)
  | create g id device deviceId guarded =>
      exact h.onGraph_balances g .graph hwarrants
        (Graph.createDescriptor_balances id ⟨ownBackend, guarded⟩ device deviceId)
  | release g id => exact h.releaseDescriptor hwarrants g id
  | realise n g => exact h.realise n g
  | run n g => exact h.run hwarrants n g

theorem onThread (thread : ThreadId) : (s.onThread thread).Balanced floor Q :=
  h.serves ⟨rfl, rfl, rfl, rfl,
    fun _ _ _ _ hstocked => ⟨⟨hstocked.spares.there, hstocked.spares.faults⟩, hstocked.stocks⟩, id⟩

/-- A move leaves in stock what operators hold then. -/
theorem advance (hwarrants : s.Warrants floor Q) (move : Move) :
    (s.advance move).Balanced floor Q := by
  cases move with
  | act thread job => exact (h.onThread thread).perform hwarrants job
  | plan fault =>
      refine h.serves ⟨rfl, rfl, rfl, rfl, fun _ _ _ _ hstocked => ?_, id⟩
      -- one more fault is due, and it still spares the calls that destroy
      refine (hstocked.spares.leaves fun f hf => ?_).stocked hstocked.stocks
      rcases List.mem_append.1 hf with hold | hnew
      · exact hstocked.spares.faults f hold
      · rw [List.mem_singleton.1 hnew]
        exact fault.2

end Balanced

/-! ### All moves -/

theorem balanced_start (emulated : List DeviceKind) (rooms : List Nat) (Q : Entry → Prop) :
    (start emulated rooms).Balanced 0 Q where
  traced := .empty _
  accounts := ⟨[], .nil, ⟨⟨Nat.zero_lt_one, nofun⟩, .empty⟩, nofun⟩
  home _ _ hget := nomatch hget

theorem played_append (emulated : List DeviceKind) (rooms : List Nat) (moves : List Move)
    (move : Move) :
    played emulated rooms (moves ++ [move]) = (played emulated rooms moves).advance move := by
  rw [played, List.foldl_concat, played]

theorem balanced_played (emulated : List DeviceKind) (rooms : List Nat) (moves : List Move) :
    (played emulated rooms moves).Balanced 0 fun _ => True := by
  induction moves using List.reverseRecOn with
  | nil => exact balanced_start emulated rooms _
  | append_singleton moves move ih =>
      rw [played_append]
      exact ih.advance (fun _ _ _ _ _ _ _ _ => trivial) move

/-! ### Midway -/

/-- A graph with the machine, as they are at hand or as the run of an engine at hand has them before
one of its calls. -/
def Midway (s : Session) (g : Nat) (now : Machine × Graph) : Prop :=
  ∃ graph, s.graphs.get? g = some graph ∧
    (now = (s.machine, graph) ∨ ∃ n e, s.engines.get? n = some e ∧ e.Passes (s.machine, graph) now)

theorem midway_onThread {g : Nat} {graph : Graph} (hgraph : s.graphs.get? g = some graph)
    (thread : ThreadId) : (s.onThread thread).Midway g ((s.onThread thread).machine, graph) :=
  ⟨graph, hgraph, .inl rfl⟩

theorem Midway.balances {g : Nat} {now : Machine × Graph} (h : s.Midway g now) (hhome : s.AtHome) :
    ∃ graph, s.graphs.get? g = some graph ∧ ∀ {floor : Nat} {Q : Entry → Prop},
    Graph.Balances ownBackend floor Q (s.machine, graph) now := by
  obtain ⟨graph, hgraph, rfl | ⟨n, e, hengine, hpasses⟩⟩ := h
  · exact ⟨graph, hgraph, refl_of (Graph.Balances ownBackend _ _) _⟩
  · exact ⟨graph, hgraph, hhome n e hengine ▸ e.upholds_balances.passes hpasses⟩

section Midway

variable {floor : Nat} {Q : Entry → Prop} (h : s.Balanced floor Q) {g : Nat} {m : Machine}
  {graph : Graph} (hmidway : s.Midway g (m, graph))

include h hmidway

/-- The accounts balance midway, where kernels are as they should be or as the graph compiles
them. -/
theorem Balanced.midway : (graph.ops.map Operator.id).Nodup ∧ ∃ rest, m.Accounts ownBackend floor
      (fun e => Q e ∨ graph.Compiled e.op e.compiled) (heldBy graph.ops ++ rest) := by
  obtain ⟨start, hstart, hbalances⟩ := hmidway.balances h.home
  obtain ⟨_, hheld, -⟩ := exists_heldElsewhere hstart
  have hids := (h.traced.graph_traced hstart).opIds
  -- a run builds only what its graph compiles, and leaves the layouts of the graph alone
  have haccounts : s.machine.Accounts ownBackend floor (fun e => Q e ∨
      start.Compiled e.op e.compiled) _ := (h.accounts.congr hheld).mono fun _ _ hQ => .inl hQ
  obtain ⟨hbare, hnow⟩ := hbalances _ (fun _ _ _ _ hcompiled => .inr hcompiled) hids haccounts
  exact ⟨hbare.ids ▸ hids, _, hnow.mono fun _ _ hQ => hQ.imp_right hbare.symm.compiled⟩

/-- Whoever asks for a descriptor midway is answered as the accounts have it. -/
theorem Balanced.asked {x : OpId} {guarded : Bool} {device : DeviceKind} {deviceId : Nat}
    {result : Except GraphError Nat} {m' : Machine} {graph' : Graph}
    (hanswer : Graph.createDescriptor x ⟨ownBackend, guarded⟩ device deviceId (m, graph) =
        (result, m', graph')) :
    Graph.Asked ⟨ownBackend, guarded⟩ device deviceId x m graph result m' graph' := by
  obtain ⟨hids, rest, haccounts⟩ := h.midway hmidway
  have hlib : (⟨ownBackend, guarded⟩ : LibraryRef).backend = ownBackend := rfl
  obtain ⟨_, _, _, hsettled, -, -, hasked⟩ := Graph.createDescriptor_settles (x := x) hids haccounts
    hlib (fun _ _ _ _ hcompiled => .inr hcompiled) device deviceId
  cases hanswer.symm.trans hsettled
  exact hasked

end Midway

/-- After any moves as many handles and kernels are in stock as there are operators with
descriptors, and no tensor descriptors; where asking for a descriptor fails, even midway through a
run, the operator has none. -/
theorem descriptors_counted (emulated : List DeviceKind) (rooms : List Nat) (moves : List Move) :
    (played emulated rooms moves).own.library.live =
        ((played emulated rooms moves).ops.countP fun op => op.descriptor.isSome, 0,
          (played emulated rooms moves).ops.countP fun op => op.descriptor.isSome) ∧
      ∀ thread g now x device deviceId guarded cause m' graph',
      ((played emulated rooms moves).onThread thread).Midway g now →
        Graph.createDescriptor x ⟨ownBackend, guarded⟩ device deviceId now =
          (.error cause, m', graph') → ∀ op ∈ graph'.ops, op.id = x → op.descriptor = none := by
  have hbalanced := balanced_played emulated rooms moves
  refine ⟨length_heldBy _ ▸ hbalanced.accounts.live,
    fun thread g now x device deviceId guarded cause m' graph' hmidway hfailed => ?_⟩
  cases (hbalanced.onThread thread).asked hmidway hfailed with
  | refused hnone => exact hnone

/-- An operator that has been compiled is to be compiled again for the library's outside, where a
fault is planned. -/
def thwarted : List Move :=
  [.act 0 (.edit (.addTensor 0 ⟨[.const 4]⟩ none .f32)),
    .act 0 (.edit (.addOp 0 (.pointwise .add) [1, 1])), .act 0 (.create 0 1 .cpu 0 false),
    .plan ⟨⟨.createOp, .internalError, 0, 1⟩, by decide⟩]

theorem descriptors_counted_thwarted : (played [] [] thwarted).own.library.live = (1, 0, 1) ∧
    ∃ now cause m' graph', ((played [] [] thwarted).onThread 0).Midway 0 now ∧
    Graph.createDescriptor 1 ⟨ownBackend, true⟩ .cpu 0 now = (.error cause, m', graph') ∧
      (∃ op ∈ graph'.ops, op.id = 1) ∧ ∀ op ∈ graph'.ops, op.id = 1 → op.descriptor = none := by
  obtain ⟨hlive, hfailures⟩ := descriptors_counted [] [] thwarted
  have hcount : (played [] [] thwarted).ops.countP (fun op => op.descriptor.isSome) = 1 := by
    decide +kernel
  have hanswer : ((played [] [] thwarted).graphs.get? 0).map (fun graph =>
      (Graph.createDescriptor 1 ⟨ownBackend, true⟩ .cpu 0
        (((played [] [] thwarted).onThread 0).machine, graph)).1) =
      some (.error (.device (.native .internalError))) := by decide +kernel
  have hthere : ((played [] [] thwarted).graphs.get? 0).map (fun graph =>
      (Graph.createDescriptor 1 ⟨ownBackend, true⟩ .cpu 0
        (((played [] [] thwarted).onThread 0).machine, graph)).2.2.ops.map Operator.id) =
      some [1] := by
    decide +kernel
  obtain ⟨graph, hgraph, hfailed⟩ := Option.map_eq_some_iff.1 hanswer
  rw [hcount] at hlive
  rw [hgraph] at hthere
  have hmidway := midway_onThread hgraph 0
  rcases hresult : Graph.createDescriptor 1 ⟨ownBackend, true⟩ .cpu 0
      (((played [] [] thwarted).onThread 0).machine, graph) with ⟨answer, m', graph'⟩
  rw [hresult] at hfailed
  obtain rfl : answer = _ := hfailed
  rw [Option.map_some, hresult] at hthere
  refine ⟨hlive, _, _, m', graph', hmidway, hresult, ?_,
    hfailures 0 0 _ 1 .cpu 0 true _ m' graph' hmidway hresult⟩
  exact List.mem_map.1 (Option.some.inj hthere ▸ List.mem_singleton_self 1)

end Session

end TensorDataflow
