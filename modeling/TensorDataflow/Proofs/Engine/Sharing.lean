import Mathlib.Logic.Function.Basic
import Mathlib.Logic.Relation
import TensorDataflow.Proofs.Engine.Outcomes
/-!
# Engines that share a backend

Several engines work on one backend, and threads call them in any order. Every call in which no
native call fails is a chain of moves, each of which either binds the thread to a device or houses
one tensor, so what all moves keep is kept by all calls.
-/

namespace TensorDataflow

namespace HostDevice

/-- What is left of a device on which blocks were placed and at most the one at an address was given
up. -/
structure Follows (gone : Option Address) (d d' : HostDevice) : Prop where
  laid : d.Laid → d'.Laid
  kept : d.Laid → ∀ a b, d.blockAt? a = some b → gone ≠ some a → d'.blockAt? a = some b

theorem follows_of_blocks {d d' : HostDevice} (hblocks : d'.blocks = d.blocks)
    (hnext : d'.nextAddress = d.nextAddress) : d.Follows none d' where
  laid h := h.sublist (hblocks ▸ List.Sublist.refl _) (Nat.le_of_eq hnext.symm)
  kept _ a b hb _ := by
    rw [blockAt?] at hb ⊢
    rw [hblocks, hb]

theorem follows_choosing (d : HostDevice) (thread : ThreadId) (kind : DeviceKind) (id : Nat) :
    d.Follows none (d.choosing thread kind id) :=
  follows_of_blocks (d := d) rfl rfl

theorem follows_extended (d : HostDevice) (size : Nat) (location : Location) :
    d.Follows none (d.extended size location) where
  laid h := h.extended size location
  kept h _ _ hb _ :=
    (d.blockAt?_extended_of_ne size location (h.ne_room_of_blockAt? hb size)).trans hb

theorem Follows.trans {d d' d'' : HostDevice} (h : d.Follows none d') (h' : d'.Follows none d'') :
    d.Follows none d'' where
  laid hlaid := h'.laid (h.laid hlaid)
  kept hlaid a b hb hgone := h'.kept (h.laid hlaid) a b (h.kept hlaid a b hb hgone) hgone

theorem Replaced.follows {gone : Option Address} {size : Nat} {location : Location}
    {d d' : HostDevice} (h : d.Replaced gone size location d') : d.Follows gone d' where
  laid hlaid := (hlaid.extended size location).sublist h.blocks (Nat.le_of_eq h.next.symm)
  kept hlaid a b hb hgone := by
    rw [h.kept a hgone,
      d.blockAt?_extended_of_ne size location (hlaid.ne_room_of_blockAt? hb size), hb]

theorem selection_congr {d d' : HostDevice} (h : d'.selected = d.selected) :
    d'.selection = d.selection := by
  funext thread
  rw [selection, selection, h]

theorem selection_choosing_eq (d : HostDevice) (thread : ThreadId) (kind : DeviceKind) (id : Nat) :
    (d.choosing thread kind id).selection = Function.update d.selection thread (kind, id) := by
  funext other
  by_cases h : other = thread
  · rw [h, selection_choosing, Function.update_self]
  · rw [d.selection_choosing_of_ne h, Function.update_of_ne h]

theorem selection_extended (d : HostDevice) (size : Nat) (location : Location) :
    (d.extended size location).selection = d.selection :=
  selection_congr rfl

end HostDevice

/-- Engines that share a backend, and the graphs whose tensors they give buffers. -/
structure Workshop where
  machine : Machine
  engines : List Engine := []
  graphs : List Graph := []

namespace Workshop

/-- What threads ask for: a new engine, a context of an engine for the thread or another one in its
place, and buffers for the tensors of a graph. -/
inductive Call where
  | create (kernels : KernelRegistry) (config : Config)
  | bind (engine : Nat) (device : DeviceKind) (deviceId : Nat)
  | switch (engine : Nat) (device : DeviceKind) (deviceId : Nat)
  | realise (engine graph : Nat)

def on (w : Workshop) (thread : ThreadId) : Workshop :=
  { w with machine := { w.machine with thread } }

def onEngine {α : Type} (w : Workshop) (n : Nat) (act : EngineAct α) : Option Workshop := do
  let e ← w.engines[n]?
  let (machine, e) ← settled (act (w.machine, e))
  return { w with machine, engines := w.engines.set n e }

/-- A call of the running thread; none if a native call fails in it. -/
def step (w : Workshop) : Call → Option Workshop
  | .create kernels config =>
      match Engine.create 0 kernels config w.machine with
      | (.ok e, machine) => some { w with machine, engines := w.engines ++ [e] }
      | (.error _, _) => none
  | .bind n device deviceId => w.onEngine n (Engine.openContext device deviceId)
  | .switch n device deviceId => w.onEngine n (Engine.switchContext device deviceId)
  | .realise n j => do
      let e ← w.engines[n]?
      let g ← w.graphs[j]?
      let (machine, g) ← settled (e.realiseData (w.machine, g))
      return { w with machine, graphs := w.graphs.set j g }

/-- Calls of any threads, one after the other. -/
def run (w : Workshop) : List (ThreadId × Call) → Option Workshop
  | [] => some w
  | (thread, call) :: rest => do
      let w ← (w.on thread).step call
      w.run rest

def device (w : Workshop) : HostDevice := w.machine.device 0

/-- The context that an engine has for a thread. -/
def contextAt (w : Workshop) (p : Nat × ThreadId) : Option Context :=
  w.engines[p.1]?.bind fun e => e.contexts.lookup p.2

def tensorAt (w : Workshop) (p : Nat × Nat) : Option Tensor :=
  w.graphs[p.1]?.bind fun g => g.tensors[p.2]?

def bufferAt (w : Workshop) (p : Nat × Nat) : Option Buffer := (w.tensorAt p).bind Tensor.data

/-! ### Moves -/

/-- A move that gives the running thread a context of an engine and selects its device. -/
structure Binding (n : Nat) (c : Context) (w w' : Workshop) : Prop where
  calm : w'.machine.Calm 0
  backends : ∀ e ∈ w'.engines, e.backend = 0
  contexts : w'.contextAt = Function.update w.contextAt (n, w.machine.thread) (some c)
  graphs : w'.graphs = w.graphs
  device : w.device.Follows none w'.device
  selection : w'.device.selection =
    Function.update w.device.selection w.machine.thread (c.device, c.deviceId)

/-- A move that gives one tensor a new buffer: its tag comes from the engine, its location from the
selection. A tensor that has a buffer gets another one only on its way from the processor to an
accelerator. -/
structure Housing (n : Nat) (c : Context) (p : Nat × Nat) (t : Tensor) (size : Nat)
    (w w' : Workshop) : Prop where
  calm : w'.machine.Calm 0
  thread : w'.machine.thread = w.machine.thread
  engines : w'.engines = w.engines
  context : w.contextAt (n, w.machine.thread) = some c
  tensor : w.tensorAt p = some t
  promotes : ∀ b, t.data = some b → t.device.isCpu = true ∧ c.device.isCpu = false
  tensors : w'.tensorAt = Function.update w.tensorAt p
    (some { t with device := c.device, data := some ⟨⟨w.device.room size⟩, size⟩ })
  device :
    w.device.Replaced (t.data.map Buffer.address) size (w.device.landing w.machine.thread) w'.device

def Houses (n : Nat) (w w' : Workshop) : Prop := ∃ c p t size, Housing n c p t size w w'

inductive Move (w w' : Workshop) : Prop where
  | binding (n : Nat) (c : Context) (h : Binding n c w w')
  | housing (n : Nat) (h : Houses n w w')

/-! ### Calls are chains of moves -/

theorem set_of_getElem? {α : Type} {xs : List α} {n : Nat} {x : α} (h : xs[n]? = some x) :
    xs.set n x = xs := by
  obtain ⟨hn, rfl⟩ := List.getElem?_eq_some_iff.1 h
  exact List.set_getElem_self hn

theorem contextAt_set {w : Workshop} {n : Nat} {e : Engine} (he : w.engines[n]? = some e)
    (m : Machine) (thread : ThreadId) (c : Context) :
    contextAt { w with machine := m, engines := w.engines.set n (e.bindThread thread c) } =
      Function.update w.contextAt (n, thread) (some c) := by
  have hn : n < w.engines.length := (List.getElem?_eq_some_iff.1 he).1
  refine Function.eq_update_iff.2 ⟨?_, fun ⟨k, other⟩ hne => ?_⟩
  · rw [contextAt, List.getElem?_set_self hn, Option.bind_some, Engine.bindThread,
      List.lookup_cons_self]
  · rw [contextAt, contextAt]
    by_cases hk : n = k
    · subst hk
      have hother : other ≠ thread := fun h => hne (by rw [h])
      rw [List.getElem?_set_self hn, he, Option.bind_some, Option.bind_some, Engine.bindThread,
        List.lookup_cons, beq_eq_false_iff_ne.2 hother]
      exact lookup_filter_ne hother _
    · rw [List.getElem?_set_ne hk]

theorem contextAt_append {w : Workshop} {e : Engine} {thread : ThreadId} {c : Context}
    (he : e.contexts = [(thread, c)]) (m : Machine) :
    contextAt { w with machine := m, engines := w.engines ++ [e] } =
      Function.update w.contextAt (w.engines.length, thread) (some c) := by
  refine Function.eq_update_iff.2 ⟨?_, fun ⟨k, other⟩ hne => ?_⟩
  · rw [contextAt, List.getElem?_concat_length, Option.bind_some, he, List.lookup_cons_self]
  · rw [contextAt, contextAt]
    rcases Nat.lt_trichotomy k w.engines.length with hlt | rfl | hgt
    · rw [List.getElem?_append_left hlt]
    · have hother : other ≠ thread := fun h => hne (by rw [h])
      rw [List.getElem?_concat_length, List.getElem?_eq_none (Nat.le_refl _), Option.bind_some, he,
        List.lookup_cons, beq_eq_false_iff_ne.2 hother]
      rfl
    · rw [List.getElem?_eq_none (Nat.le_of_lt hgt),
        List.getElem?_eq_none (by rw [List.length_append, List.length_singleton]; exact hgt)]

theorem tensorAt_set {w : Workshop} {j i : Nat} {g : Graph} (hg : w.graphs[j]? = some g)
    (hi : i < g.tensors.length) (m : Machine) (t : Tensor) :
    tensorAt
      { w with machine := m, graphs := w.graphs.set j { g with tensors := g.tensors.set i t } } =
      Function.update w.tensorAt (j, i) (some t) := by
  have hj : j < w.graphs.length := (List.getElem?_eq_some_iff.1 hg).1
  refine Function.eq_update_iff.2 ⟨?_, fun ⟨k, l⟩ hne => ?_⟩
  · rw [tensorAt, List.getElem?_set_self hj, Option.bind_some, List.getElem?_set_self hi]
  · rw [tensorAt, tensorAt]
    by_cases hk : j = k
    · subst hk
      have hl : i ≠ l := fun h => hne (by rw [h])
      rw [List.getElem?_set_self hj, hg, Option.bind_some, Option.bind_some,
        List.getElem?_set_ne hl]
    · rw [List.getElem?_set_ne hk]

section Realise

variable {n j : Nat} {e : Engine} (hzero : e.backend = 0) {g : Graph}

include hzero

theorem realise_houses {w : Workshop} (hcalm : w.machine.Calm 0)
    (he : w.engines[n]? = some e) {pre rest : List Tensor} {t : Tensor}
    (hg : w.graphs[j]? = some { g with tensors := pre ++ t :: rest })
    {m₁ : Machine} {t₁ : Tensor}
    (h : settled (Tensor.realise e.memory (w.machine, t)) = some (m₁, t₁)) :
    Relation.ReflTransGen (Houses n) w
      { w with machine := m₁, graphs := w.graphs.set j { g with tensors := pre ++ t₁ :: rest } } ∧
    m₁.Calm 0 := by
  obtain hidle | ⟨c, size, d, hcontext, hpromotes, rfl, hrenewed, hswapped⟩ :=
    Engine.realise_settled (hzero ▸ hcalm) h
  · obtain ⟨rfl, rfl⟩ := Prod.mk.inj hidle
    rw [set_of_getElem? hg]
    exact ⟨.refl, hcalm⟩
  · rw [hzero] at hrenewed hswapped
    refine ⟨.single
      ⟨c, (j, pre.length), t, size, hrenewed.calm, hrenewed.thread, rfl, ?_, ?_, hpromotes, ?_, ?_⟩,
      hrenewed.calm⟩
    · rw [contextAt, he, Option.bind_some]
      rw [Engine.contextOf] at hcontext
      split at hcontext
      · next hlookup => rw [hlookup, Except.ok.inj hcontext]
      · cases hcontext
    · rw [tensorAt, hg, Option.bind_some, List.getElem?_append_right (Nat.le_refl _), Nat.sub_self,
        List.getElem?_cons_zero]
    · have hset := tensorAt_set hg (i := pre.length) (by simp) m₁
        { t with device := c.device, data := some ⟨⟨w.device.room size⟩, size⟩ }
      rw [List.set_append_right _ _ (Nat.le_refl _), Nat.sub_self, List.set_cons_zero] at hset
      rw [hzero]
      exact hset
    · rw [Workshop.device, Workshop.device, hrenewed.device]
      exact hswapped.replaced

theorem eachTensor_houses {w : Workshop} (hcalm : w.machine.Calm 0) (he : w.engines[n]? = some e)
    (hg : w.graphs[j]? = some g) {m' : Machine} {g' : Graph}
    (h : settled (e.realiseData (w.machine, g)) = some (m', g')) :
    Relation.ReflTransGen (Houses n) w { w with machine := m', graphs := w.graphs.set j g' } := by
  have hj : j < w.graphs.length := (List.getElem?_eq_some_iff.1 hg).1
  have hstep : ∀ m pre t rest m₁ t₁, (Relation.ReflTransGen (Houses n)
      w { w with machine := m, graphs := w.graphs.set j { g with tensors := pre ++ t :: rest } } ∧
      m.Calm 0) →
      settled (Tensor.realise e.memory (m, t)) = some (m₁, t₁) →
      Relation.ReflTransGen (Houses n) w
        { w with machine := m₁, graphs := w.graphs.set j { g with tensors := pre ++ t₁ :: rest } } ∧
      m₁.Calm 0 := by
    rintro m pre t rest m₁ t₁ ⟨hmoves, hcalm₁⟩ hsettled
    obtain ⟨hnext, hcalm₂⟩ := @realise_houses n j e hzero g
      { w with machine := m, graphs := w.graphs.set j { g with tensors := pre ++ t :: rest } }
      hcalm₁ he pre rest t
      (List.getElem?_set_self hj) m₁ t₁ hsettled
    dsimp only at hnext
    rw [List.set_set] at hnext
    exact ⟨hmoves.trans hnext, hcalm₂⟩
  have hstart : Relation.ReflTransGen (Houses n) w { w with graphs := w.graphs.set j g } ∧
      w.machine.Calm 0 := by
    rw [set_of_getElem? hg]
    exact ⟨.refl, hcalm⟩
  obtain ⟨tensors, rfl, hmoves, -⟩ := @Graph.eachTensor_induct _
    (fun m tensors => Relation.ReflTransGen (Houses n) w
        { w with machine := m, graphs := w.graphs.set j { g with tensors } } ∧
      m.Calm 0) hstep w.machine m' g g' hstart h
  exact hmoves

end Realise

section Calls

variable {w w' : Workshop} (hbackends : ∀ e ∈ w.engines, e.backend = 0)

include hbackends

theorem Binding.of_choosing {n : Nat} {e : Engine} {c : Context} {m' : Machine} {d : HostDevice}
    (he : w.engines[n]? = some e)
    (hrenewed : w.machine.Renewed 0 d m')
    (hundisturbed : (w.device.choosing w.machine.thread c.device c.deviceId).Undisturbed d) :
    Binding n c w
      { w with machine := m', engines := w.engines.set n (e.bindThread w.machine.thread c) } where
  calm := hrenewed.calm
  backends e' he' := by
    rcases List.mem_or_eq_of_mem_set he' with hold | rfl
    · exact hbackends e' hold
    · exact hbackends e (List.mem_of_getElem? he)
  contexts := contextAt_set he m' w.machine.thread c
  graphs := rfl
  device := by
    rw [Workshop.device, Workshop.device, hrenewed.device]
    exact HostDevice.follows_of_blocks hundisturbed.blocks hundisturbed.next
  selection := by
    rw [Workshop.device, hrenewed.device, HostDevice.selection_congr hundisturbed.selected,
      HostDevice.selection_choosing_eq]

variable (hcalm : w.machine.Calm 0)

include hcalm

theorem onEngine_moves {α : Type} {n : Nat} {act : EngineAct α}
    (hact : ∀ m m' e e', m.Calm e.backend → settled (act (m, e)) = some (m', e') →
      (m' = m ∧ e' = e) ∨
      ∃ c d, e' = e.bindThread m.thread c ∧ m.Renewed e.backend d m' ∧
      ((m.device e.backend).choosing m.thread c.device c.deviceId).Undisturbed d)
    (h : w.onEngine n act = some w') : w' = w ∨ ∃ c, Binding n c w w' := by
  obtain ⟨e, he, h⟩ := Option.bind_eq_some_iff.1 h
  obtain ⟨⟨m', e'⟩, hsettled, h⟩ := Option.bind_eq_some_iff.1 h
  obtain rfl := Option.some.inj h
  have hzero : e.backend = 0 := hbackends e (List.mem_of_getElem? he)
  obtain ⟨rfl, rfl⟩ | ⟨c, d, rfl, hrenewed, hundisturbed⟩ :=
    hact w.machine m' e e' (hzero ▸ hcalm) hsettled
  · left
    rw [set_of_getElem? he]
  · rw [hzero] at hrenewed hundisturbed
    exact .inr ⟨c, .of_choosing hbackends he hrenewed hundisturbed⟩

theorem create_moves {kernels : KernelRegistry} {config : Config}
    (h : w.step (.create kernels config) = some w') : ∃ c, Binding w.engines.length c w w' := by
  rw [step] at h
  rcases hcreate : Engine.create 0 kernels config w.machine with ⟨cause | e, m'⟩
  · rw [hcreate] at h
    cases h
  · rw [hcreate] at h
    obtain rfl := Option.some.inj h
    obtain ⟨c, d, hzero, -, hcontexts, hrenewed, hundisturbed⟩ :=
      Engine.create_settled hcalm hcreate
    refine ⟨c, hrenewed.calm, fun e' he' => ?_, contextAt_append hcontexts m', rfl, ?_, ?_⟩
    · rcases List.mem_append.1 he' with hold | hnew
      · exact hbackends e' hold
      · rw [List.mem_singleton.1 hnew, hzero]
    · rw [Workshop.device, Workshop.device, hrenewed.device]
      exact (HostDevice.follows_choosing _ _ _ _).trans ((HostDevice.follows_extended _ _ _).trans
        (HostDevice.follows_of_blocks hundisturbed.blocks hundisturbed.next))
    · -- the device is selected for the workspace and again for the context
      rw [Workshop.device, hrenewed.device, HostDevice.selection_congr hundisturbed.selected,
        HostDevice.selection_choosing_eq,
        HostDevice.selection_extended, HostDevice.selection_choosing_eq, Function.update_idem,
        Workshop.device]

theorem realise_moves {n j : Nat} (h : w.step (.realise n j) = some w') :
    Relation.ReflTransGen (Houses n) w w' := by
  obtain ⟨e, he, h⟩ := Option.bind_eq_some_iff.1 h
  obtain ⟨g, hg, h⟩ := Option.bind_eq_some_iff.1 h
  obtain ⟨⟨m', g'⟩, hsettled, h⟩ := Option.bind_eq_some_iff.1 h
  obtain rfl := Option.some.inj h
  exact eachTensor_houses (hbackends e (List.mem_of_getElem? he)) hcalm he hg hsettled

theorem step_moves {call : Call} (h : w.step call = some w') : Relation.ReflTransGen Move w w' := by
  cases call with
  | create kernels config =>
      obtain ⟨c, hbinding⟩ := create_moves hbackends hcalm h
      exact .single (.binding _ c hbinding)
  | bind n device deviceId =>
      obtain rfl | ⟨c, hbinding⟩ := onEngine_moves hbackends hcalm
        (fun m m' e e' hm hopen => Engine.openContext_settled hm hopen) h
      · exact .refl
      · exact .single (.binding n c hbinding)
  | switch n device deviceId =>
      obtain rfl | ⟨c, hbinding⟩ := onEngine_moves hbackends hcalm
        (fun m m' e e' hm hswitch => Engine.switchContext_settled hm hswitch) h
      · exact .refl
      · exact .single (.binding n c hbinding)
  | realise n j =>
      exact Relation.ReflTransGen.mono (fun _ _ hhouses => Move.housing n hhouses)
        _ _ (realise_moves hbackends hcalm h)

end Calls

end Workshop

end TensorDataflow
