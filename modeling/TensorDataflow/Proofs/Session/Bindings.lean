import TensorDataflow.Proofs.Engine.Streams
import TensorDataflow.Proofs.Session.Holdings
import TensorDataflow.Session.Engines
/-!
# Threads and the engines of a session

Each request that a thread makes of the engines of a session is taken apart once: `Session.outcome`
says what it answers and what it leaves. What threads have at hand agrees with the engines as long
as the engines live, so a request is answered by the engine's own record, and what is left at hand
for engines that are gone is never seen.
-/

namespace TensorDataflow

namespace Slots

variable {α : Type} {s : Slots α} {n : Nat} {a : α}

theorem lt_of_get? (h : s.get? n = some a) : n < s.entries.length := by
  have hentry : s.entries[n]? = some (some a) := Option.join_eq_some_iff.1 h
  exact (List.getElem?_eq_some_iff.1 hentry).1

theorem set_self (h : s.get? n = some a) : s.set n a = s := by
  have hentry : s.entries[n]? = some (some a) := Option.join_eq_some_iff.1 h
  obtain ⟨hn, ha⟩ := List.getElem?_eq_some_iff.1 hentry
  rw [set, ← ha, List.set_getElem_self]

theorem get?_add_self (s : Slots α) (a : α) : (s.add a).2.get? s.entries.length = some a :=
  (get?_add s a _).trans (if_pos rfl)

end Slots

namespace Engine

theorem lookup_bindThread (e : Engine) (thread : ThreadId) (c : Context) (t : ThreadId) :
    (e.bindThread thread c).contexts.lookup t = if t = thread then some c
      else e.contexts.lookup t := by
  rw [bindThread, List.lookup_cons]
  by_cases hsame : t = thread
  · rw [if_pos hsame, hsame, beq_self_eq_true]
  · rw [if_neg hsame, beq_eq_false_iff_ne.2 hsame]
    exact lookup_filter_ne hsame _

end Engine

namespace ContextCache

variable (cache : ContextCache) (alive : Nat → Bool) (thread : ThreadId) (n : Nat)

theorem find?_prune (t : ThreadId) (k : Nat) : (cache.prune thread alive).find? t k =
      if t ≠ thread ∨ alive k = true then cache.find? t k else none := by
  rw [find?, prune]
  dsimp only
  rw [lookup_filter (fun key : ThreadId × Nat => key.1 ≠ thread || alive key.2)]
  simp [find?]

theorem find?_forget (t : ThreadId) (k : Nat) :
    (cache.forget thread n).find? t k = if t = thread ∧ k = n then none else cache.find? t k := by
  rw [find?, forget]
  dsimp only
  rw [lookup_filter (fun key : ThreadId × Nat => decide (key ≠ (thread, n)))]
  by_cases hsame : t = thread ∧ k = n
  · rw [if_pos hsame, if_neg (by simp [hsame])]
  · have hne : (t, k) ≠ (thread, n) := fun heq => hsame (Prod.mk.inj heq)
    rw [if_neg hsame, if_pos (decide_eq_true hne), find?]

theorem find?_keep (c : Context) (t : ThreadId) (k : Nat) :
    (cache.keep thread alive n c).find? t k = if t = thread ∧ k = n then some c
      else if t ≠ thread ∨ alive k = true then cache.find? t k else none := by
  rw [find?, keep, List.lookup_cons]
  by_cases hsame : t = thread ∧ k = n
  · rw [if_pos hsame, hsame.1, hsame.2, beq_self_eq_true]
  · rw [if_neg hsame, beq_eq_false_iff_ne.2 (by simpa using hsame)]
    exact (find?_forget (cache.prune thread alive) thread n t k).trans
      ((if_neg hsame).trans (cache.find?_prune alive thread t k))

/-- What threads have at hand for the engines that live is what these have for them, and nothing is
at hand for engines to come. -/
structure Agrees (engines : Slots Engine) (cache : ContextCache) : Prop where
  cached : ∀ n e t, engines.get? n = some e → cache.find? t n = e.contexts.lookup t
  unmet : ∀ n t, engines.entries.length ≤ n → cache.find? t n = none

section Agrees

variable {cache : ContextCache} {engines : Slots Engine} (h : cache.Agrees engines)
  {alive : Nat → Bool} (halive : ∀ n e, engines.get? n = some e → alive n = true)

include h halive

theorem Agrees.prune (thread : ThreadId) : (cache.prune thread alive).Agrees engines where
  cached k e t hengine := by
    rw [find?_prune, if_pos (.inr (halive k e hengine))]
    exact h.cached k e t hengine
  unmet k t hlength := by rw [find?_prune, h.unmet k t hlength, ite_self]

theorem Agrees.bindThread {n : Nat} {e : Engine} (hengine : engines.get? n = some e)
    (thread : ThreadId) (c : Context) :
    (cache.keep thread alive n c).Agrees (engines.set n (e.bindThread thread c)) where
  cached k e' t hget := by
    rw [Slots.get?_set _ _ _ (Slots.lt_of_get? hengine)] at hget
    split at hget
    · next hk =>
        cases hget
        rw [find?_keep, Engine.lookup_bindThread, hk, if_congr (and_iff_left rfl) rfl rfl]
        split
        · rfl
        · rw [if_pos (.inr (halive n e hengine)), h.cached n e t hengine]
    · next hk =>
        rw [find?_keep, if_neg fun hsame => hk hsame.2, if_pos (.inr (halive k e' hget)),
          h.cached k e' t hget]
  unmet k t hlength := by
    rw [Slots.set, List.length_set] at hlength
    have hne : ¬ (t = thread ∧ k = n) :=
      fun hsame => absurd (Slots.lt_of_get? hengine) (Nat.not_lt.2 (hsame.2 ▸ hlength))
    rw [find?_keep, if_neg hne, h.unmet k t hlength, ite_self]

theorem Agrees.add (e : Engine) {thread : ThreadId} {c : Context}
    (hcontexts : e.contexts = [(thread, c)]) :
    (cache.keep thread alive engines.entries.length c).Agrees (engines.add e).2 where
  cached k e' t hget := by
    rw [Slots.get?_add] at hget
    split at hget
    · next hk =>
        obtain rfl : k = engines.entries.length := hk
        cases hget
        rw [find?_keep, h.unmet _ t (Nat.le_refl _), ite_self, hcontexts, List.lookup_cons,
          List.lookup_nil]
        by_cases ht : t = thread
        · simp [ht]
        · simp [ht, beq_eq_false_iff_ne.2 ht]
    · next hk =>
        rw [find?_keep, if_neg fun hsame => hk hsame.2, if_pos (.inr (halive k e' hget)),
          h.cached k e' t hget]
  unmet k t hlength := by
    rw [Slots.add, List.length_append, List.length_singleton] at hlength
    rw [find?_keep, if_neg fun hsame => absurd hlength (by omega), h.unmet k t (by omega), ite_self]

omit halive in
theorem Agrees.erase (thread : ThreadId) (n : Nat) :
    (cache.forget thread n).Agrees (engines.erase n) where
  cached k e t hget := by
    rw [Slots.get?_erase] at hget
    split at hget
    · cases hget
    · next hk => rw [find?_forget, if_neg fun hsame => hk hsame.2, h.cached k e t hget]
  unmet k t hlength := by
    rw [Slots.erase, List.length_set] at hlength
    rw [find?_forget, h.unmet k t hlength, ite_self]

end Agrees

end ContextCache

namespace Session

/-! ### Contexts at hand -/

/-- The session with another thread running. -/
def onThread (s : Session) (thread : ThreadId) : Session :=
  { s with machine := { s.machine with thread } }

/-- The context that an engine has for a thread. -/
def contextOn (s : Session) (n : Nat) (t : ThreadId) : Option Context :=
  (s.engines.get? n).bind fun e => e.contexts.lookup t

variable {s : Session} {n : Nat} {e : Engine} {α : Type}

theorem alive_of_get? (s : Session) (n : Nat) (e : Engine) (h : s.engines.get? n = some e) :
    s.alive n = true := by
  rw [alive, h, Option.isSome_some]

theorem contextOn_of_get? (h : s.engines.get? n = some e) (t : ThreadId) :
    s.contextOn n t = e.contexts.lookup t := by
  rw [contextOn, h, Option.bind_some]

theorem engineAt_apply (h : s.engines.get? n = some e) : engineAt n s = (.ok e, s) := by
  rw [engineAt, slot_apply, h]

theorem engineAt_of_none (h : s.engines.get? n = none) :
    engineAt n s = (.error (.noHandle .engine), s) := by
  rw [engineAt, slot_apply, h]

theorem cachedContext_apply (n : Nat) (s : Session) :
    cachedContext n s = match s.cache.find? s.machine.thread n with
    | some c => (.ok (some c), s)
    | none => (.ok none, { s with cache := s.cache.prune s.machine.thread s.alive }) := by
  simp only [cachedContext, Act.bind_apply, Act.get_apply]
  cases s.cache.find? s.machine.thread n <;> rfl

/-- What a thread has at hand decides; where it has nothing, the engine does, and its answer is at
hand from then on. -/
theorem currentContext_eq (h : s.engines.get? n = some e) : currentContext n s =
      match s.cache.find? s.machine.thread n, e.contexts.lookup s.machine.thread with
    | some c, _ => (.ok c, s)
    | none, some c =>
        (.ok c,
          { s with
            cache := (s.cache.prune s.machine.thread s.alive).keep s.machine.thread s.alive n c })
    | none, none =>
        (.error (.engine .noContext),
          { s with cache := s.cache.prune s.machine.thread s.alive }) := by
  rw [currentContext, Act.bind_of_ok (engineAt_apply h), Act.bind_apply, cachedContext_apply]
  cases s.cache.find? s.machine.thread n with
  | some c => rfl
  | none =>
      simp only [Act.bind_apply, onMachine, Act.on_apply, Act.mapError_apply, Engine.currentContext,
        Act.get_apply, Act.ofExcept_apply, Engine.contextOf]
      cases e.contexts.lookup s.machine.thread <;> rfl

/-- A thread is answered what the engine has for it. -/
theorem currentContext_agrees (h : s.cache.Agrees s.engines) (n : Nat) :
    ∃ cache, cache.Agrees s.engines ∧ (currentContext n s).2 = { s with cache } ∧
    ∀ c, (currentContext n s).1 = .ok c ↔ s.contextOn n s.machine.thread = some c := by
  cases hengine : s.engines.get? n with
  | none =>
      rw [currentContext, Act.bind_of_error (engineAt_of_none hengine), contextOn, hengine]
      exact ⟨s.cache, h, rfl, fun c => ⟨(nomatch ·), (nomatch ·)⟩⟩
  | some e =>
      rw [currentContext_eq hengine, h.cached n e _ hengine, contextOn_of_get? hengine]
      cases e.contexts.lookup s.machine.thread with
      | none => exact ⟨_, h.prune s.alive_of_get? _, rfl, fun c => ⟨(nomatch ·), (nomatch ·)⟩⟩
      | some c => exact ⟨s.cache, h, rfl, fun c' => by simp⟩

/-! ### Requests -/

/-- What a thread asks of the engines of a session. -/
inductive Request where
  | create (kernels : KernelRegistry) (config : Config)
  | bind (n : Nat) (device : DeviceKind) (deviceId : Nat)
  | look (n : Nat)
  | switch (n : Nat) (device : DeviceKind) (deviceId : Nat)
  | drop (n : Nat)

/-- The number of the engine that a request is about, and the context that it answers. -/
def answer : Request → SessionAct (Nat × Option Context)
  | .create kernels config => do
      let n ← openEngine kernels config
      return (n, some (← currentContext n))
  | .bind n device deviceId => do return (n, some (← openContext n device deviceId).2)
  | .look n => do return (n, some (← currentContext n))
  | .switch n device deviceId => do return (n, some (← switchContext n device deviceId).2)
  | .drop n => do
      dropEngine n
      return (n, none)

/-- The calls that give back what an engine has taken. -/
def releases : List NativeCall := [.free, .streamDestroy]

/-- The live streams are those of the contexts, one for each. -/
structure StreamsOwned (s : Session) : Prop where
  distinct : s.own.device.streams.Nodup
  last : ∀ x ∈ s.own.device.streams, x ≤ s.own.device.lastStream
  live : ∀ x, x ∈ s.own.device.streams ↔ ∃ n t c, s.contextOn n t = some c ∧ c.stream = x
  owned : ∀ n n' t t' c c', s.contextOn n t = some c → s.contextOn n' t' = some c' →
    c.stream = c'.stream → n = n' ∧ t = t'

/-- Every engine has a block for its workspace that no other engine has, and there are no other
blocks. -/
structure WorkspacesOwned (s : Session) : Prop where
  laid : s.own.device.Laid
  resident : ∀ b ∈ s.own.device.blocks, b.location.deviceResident = true
  placed : ∀ n e, s.engines.get? n = some e →
    ∃ b, s.own.device.blockAt? e.workspace.address = some b
  apart : ∀ n n' e e', s.engines.get? n = some e → s.engines.get? n' = some e' →
    e.workspace.address = e'.workspace.address → n = n'
  accounted : ∀ b ∈ s.own.device.blocks,
    ∃ n e, s.engines.get? n = some e ∧ e.workspace.address.val = b.start

/-- The engines, what threads have at hand and what is live on the device fit together. -/
structure Orderly (s : Session) : Prop where
  agrees : s.cache.Agrees s.engines
  spares : s.machine.Spares ownBackend releases
  engine : ∀ n e, s.engines.get? n = some e →
    e.backend = ownBackend ∧ (e.contexts.map Prod.fst).Nodup
  streams : s.StreamsOwned
  workspaces : s.WorkspacesOwned

/-- What a request leaves: the engines, the streams and the blocks. -/
structure Leaves (engines : Slots Engine) (streams : List Nat) (blocks : List Block)
    (s s' : Session) : Prop where
  agrees : s'.cache.Agrees engines
  engines : s'.engines = engines
  spares : s'.machine.Spares ownBackend releases
  device : s.own.device.Becomes streams blocks s'.own.device

def Stays (s s' : Session) : Prop := s.Leaves s.engines s.own.device.streams s.own.device.blocks s'

/-- What can come of a request of a thread. -/
inductive Outcome (thread : ThreadId) (s s' : Session) :
    Request → Except SessionError (Nat × Option Context) → Prop where
  | refused {request : Request} {cause : SessionError} (hstays : s.Stays s') :
      Outcome thread s s' request (.error cause)
  | looked {n : Nat} {c : Context} (hcontext : s.contextOn n thread = some c)
      (hstays : s.Stays s') : Outcome thread s s' (.look n) (.ok (n, some c))
  | kept {n : Nat} {device : DeviceKind} {deviceId : Nat} {c : Context}
      (hcontext : s.contextOn n thread = some c) (hstays : s.Stays s') :
      Outcome thread s s' (.bind n device deviceId) (.ok (n, some c))
  | remained {n : Nat} {c : Context} (hcontext : s.contextOn n thread = some c)
      (hstays : s.Stays s') : Outcome thread s s' (.switch n c.device c.deviceId) (.ok (n, some c))
  | bound {n : Nat} {e : Engine} {c : Context} (hengine : s.engines.get? n = some e)
      (hnone : e.contexts.lookup thread = none) (hstream : c.stream = s.own.device.lastStream + 1)
      (hleaves : s.Leaves (s.engines.set n (e.bindThread thread c))
        (c.stream :: s.own.device.streams) s.own.device.blocks s') (hlast : c.stream ≤
          s'.own.device.lastStream) :
      Outcome thread s s' (.bind n c.device c.deviceId) (.ok (n, some c))
  | switched {n : Nat} {e : Engine} {old c : Context}
      (hengine : s.engines.get? n = some e) (hold : e.contexts.lookup thread = some old)
      (hother : ¬ (old.device = c.device ∧ old.deviceId = c.deviceId))
      (hstream : c.stream = s.own.device.lastStream + 1)
      (hleaves : s.Leaves (s.engines.set n (e.bindThread thread c))
        ((c.stream :: s.own.device.streams).filter (· ≠ old.stream)) s.own.device.blocks s')
      (hlast : c.stream ≤ s'.own.device.lastStream) :
      Outcome thread s s' (.switch n c.device c.deviceId) (.ok (n, some c))
  | came {kernels : KernelRegistry} {config : Config} {e : Engine} {c : Context} {size : Nat}
      {location : Location} (hbackend : e.backend = ownBackend)
      (hcontexts : e.contexts = [(thread, c)])
      (hdevice : c.device = config.device ∧ c.deviceId = config.deviceId)
      (hstream : c.stream = s.own.device.lastStream + 1)
      (hworkspace : e.workspace.address = ⟨s.own.device.room size⟩)
      (hresident : location.deviceResident = true)
      (hleaves : s.Leaves (s.engines.add e).2 (c.stream :: s.own.device.streams)
        (s.own.device.extended size location).blocks s')
      (hlast : c.stream ≤ s'.own.device.lastStream)
      (hnext : (s.own.device.extended size location).nextAddress ≤ s'.own.device.nextAddress) :
      Outcome thread s s' (.create kernels config) (.ok (s.engines.entries.length, some c))
  | dropped {n : Nat} {e : Engine} (hengine : s.engines.get? n = some e)
      (hleaves : s.Leaves (s.engines.erase n)
        (s.own.device.streams.filter fun x => ∀ b ∈ e.contexts, x ≠ b.2.stream)
        (s.own.device.blocks.filter fun b => b.start ≠ e.workspace.address.val) s') :
      Outcome thread s s' (.drop n) (.ok (n, none))

theorem onEngine_apply (h : s.engines.get? n = some e) (act : EngineAct α) :
    onEngine n act s = ((act (s.machine, e)).1.mapError .engine,
      { s with
        machine := (act (s.machine, e)).2.1
        engines := s.engines.set n (act (s.machine, e)).2.2 }) := by
  rw [onEngine, Act.bind_of_ok (engineAt_apply h), Act.bind_of_ok (Act.get_apply _)]
  rfl

theorem Orderly.stays (h : s.Orderly) {cache : ContextCache} (hagrees : cache.Agrees s.engines)
    (contexts : Slots Context) : s.Stays { s with cache, contexts } :=
  ⟨hagrees, rfl, h.spares, rfl, rfl, Nat.le_refl _, Nat.le_refl _, List.suffix_refl _⟩

theorem look_outcome (h : s.Orderly) (n : Nat) :
    Outcome s.machine.thread s (answer (.look n) s).2 (.look n) (answer (.look n) s).1 := by
  obtain ⟨cache, hagrees, hstate, hanswer⟩ := currentContext_agrees h.agrees n
  rw [answer]
  rcases hresult : currentContext n s with ⟨cause | c, s'⟩
  · rw [Act.bind_of_error hresult]
    rw [hresult] at hstate
    obtain rfl := hstate
    exact .refused (h.stays hagrees s.contexts)
  · rw [Act.bind_of_ok hresult]
    rw [hresult] at hstate hanswer
    obtain rfl := hstate
    exact .looked ((hanswer c).1 rfl) (h.stays hagrees s.contexts)

section Install

variable (hengine : s.engines.get? n = some e) {act : EngineAct Context} {m' : Machine}
  (cache : ContextCache)

include hengine

theorem install_of_error {cause : EngineError} (hact : act (s.machine, e) = (.error cause, m', e)) :
    (do let c ← onEngine n act; cacheContext n c; keepContext c) { s with cache } =
      (.error (.engine cause), { s with machine := m', cache }) := by
  have hdone : onEngine n act { s with cache } =
      (.error (.engine cause), { s with machine := m', cache }) := by
    rw [@onEngine_apply { s with cache } n e _ hengine, hact]
    dsimp only
    rw [Slots.set_self hengine]
    rfl
  exact Act.bind_of_error hdone _

variable {cache} in
theorem install_of_ok (hagrees : cache.Agrees s.engines) {c : Context}
    (hact : act (s.machine, e) = (.ok c, m', e.bindThread s.machine.thread c))
    (hthread : m'.thread = s.machine.thread) :
    ∃ k s', (do let c ← onEngine n act; cacheContext n c; keepContext c) { s with cache } =
      (.ok (k, c), s') ∧ s'.machine = m' ∧
      s'.engines = s.engines.set n (e.bindThread s.machine.thread c) ∧
      s'.cache.Agrees (s.engines.set n (e.bindThread s.machine.thread c)) := by
  have hdone : onEngine n act { s with cache } = (.ok c,
      { s with machine := m', cache, engines := s.engines.set n (e.bindThread m'.thread c) }) := by
    rw [@onEngine_apply { s with cache } n e _ hengine, hact, hthread]
    rfl
  rw [← hthread]
  refine ⟨_, _, (Act.bind_of_ok hdone _).trans rfl, rfl, rfl,
    hagrees.bindThread (fun k e' hget => ?_) hengine m'.thread c⟩
  rw [alive, Slots.get?_set _ _ _ (Slots.lt_of_get? hengine)]
  split
  · rfl
  · rw [hget, Option.isSome_some]

end Install

theorem bind_outcome (h : s.Orderly) (n : Nat) (device : DeviceKind) (deviceId : Nat) :
    Outcome s.machine.thread s (answer (.bind n device deviceId) s).2 (.bind n device deviceId)
    (answer (.bind n device deviceId) s).1 := by
  rw [answer, openContext]
  cases hengine : s.engines.get? n with
  | none =>
      rw [Act.bind_of_error (Act.bind_of_error (engineAt_of_none hengine) _)]
      exact .refused (h.stays h.agrees s.contexts)
  | some e =>
      rw [Act.bind_apply, Act.bind_of_ok (engineAt_apply hengine), Act.bind_apply,
        cachedContext_apply, h.agrees.cached n e _ hengine]
      cases hlookup : e.contexts.lookup s.machine.thread with
      | some c => exact .kept ((contextOn_of_get? hengine _).trans hlookup) (h.stays h.agrees _)
      | none =>
          obtain ⟨hbackend, -⟩ := h.engine n e hengine
          have hagrees := h.agrees.prune s.alive_of_get? s.machine.thread
          dsimp only
          obtain ⟨cause, m', d, henter, hleaves, hsteady⟩ | ⟨c, m', d, henter, hc, hleaves,
                hbecomes, hlast⟩ := Engine.enter_outcome (hbackend.symm ▸ h.spares) device deviceId
          · rw [install_of_error hengine _ henter]
            rw [hbackend] at hleaves hsteady
            obtain rfl := hleaves.device
            exact .refused ⟨hagrees, rfl, hleaves.spares, hsteady⟩
          · rw [hbackend] at hleaves hbecomes hc
            obtain ⟨k, s', hdone, rfl, hengines, hkept⟩ :=
              install_of_ok hengine hagrees henter hleaves.thread
            rw [hdone]
            obtain ⟨rfl, rfl⟩ : c.device = device ∧ c.deviceId = deviceId := by
              rw [hc]; exact ⟨rfl, rfl⟩
            obtain rfl := hleaves.device
            exact .bound hengine hlookup (congrArg Context.stream hc)
              ⟨hkept, hengines, hleaves.spares, hbecomes⟩ hlast

theorem switch_outcome (h : s.Orderly) (n : Nat) (device : DeviceKind) (deviceId : Nat) :
    Outcome s.machine.thread s (answer (.switch n device deviceId) s).2 (.switch n device deviceId)
    (answer (.switch n device deviceId) s).1 := by
  obtain ⟨cache, hagrees, hstate, hanswer⟩ := currentContext_agrees h.agrees n
  rw [answer, switchContext]
  rcases hresult : currentContext n s with ⟨cause | old, s₁⟩
  · rw [Act.bind_of_error (Act.bind_of_error hresult _)]
    rw [hresult] at hstate
    obtain rfl := hstate
    exact .refused (h.stays hagrees s.contexts)
  · rw [hresult] at hstate hanswer
    obtain rfl := hstate
    have hold := (hanswer old).1 rfl
    obtain ⟨e, hengine, hlookup⟩ := Option.bind_eq_some_iff.1 hold
    obtain ⟨hbackend, -⟩ := h.engine n e hengine
    rw [Act.bind_apply, Act.bind_of_ok hresult]
    by_cases hsame : old.device = device ∧ old.deviceId = deviceId
    · rw [if_pos hsame]
      obtain ⟨rfl, rfl⟩ := hsame
      exact .remained hold (h.stays hagrees _)
    · rw [if_neg hsame]
      have hthere : old.stream ∈ (s.machine.device e.backend).streams := by
        rw [hbackend]
        exact (h.streams.live old.stream).2 ⟨n, s.machine.thread, old, hold, rfl⟩
      obtain ⟨cause, m', d, hreplace, hleaves, hsteady⟩ | ⟨c, m', d, hreplace, hc, hleaves,
          hbecomes, hlast⟩ :=
        Engine.replaceContext_outcome (hbackend.symm ▸ h.spares) device deviceId (by decide) hthere
      · rw [install_of_error hengine _ hreplace]
        rw [hbackend] at hleaves hsteady
        obtain rfl := hleaves.device
        exact .refused ⟨hagrees, rfl, hleaves.spares, hsteady⟩
      · rw [hbackend] at hleaves hbecomes hc
        obtain ⟨k, s', hdone, rfl, hengines, hkept⟩ :=
          install_of_ok hengine hagrees hreplace hleaves.thread
        rw [hdone]
        obtain ⟨rfl, rfl⟩ : c.device = device ∧ c.deviceId = deviceId := by
          rw [hc]; exact ⟨rfl, rfl⟩
        obtain rfl := hleaves.device
        exact .switched hengine hlookup hsame (congrArg Context.stream hc)
          ⟨hkept, hengines, hleaves.spares, hbecomes⟩ hlast

/-- An engine that has come up is taken in with the context of the running thread at hand. -/
theorem takeIn_of_ok (hagrees : s.cache.Agrees s.engines) {create : Act Machine EngineError Engine}
    {m' : Machine} {c : Context} (hcreate : create s.machine = (.ok e, m'))
    (hcontexts : e.contexts = [(m'.thread, c)]) :
    ∃ cache, takeIn create s = (.ok s.engines.entries.length,
      { s with machine := m', engines := (s.engines.add e).2, cache }) ∧
    cache.Agrees (s.engines.add e).2 := by
  obtain ⟨s', hs'⟩ : ∃ s' : Session,
      s' = { s with machine := m', engines := (s.engines.add e).2 } := ⟨_, rfl⟩
  have hdone : onMachine .engine create s = (.ok e, { s with machine := m' }) := by
    rw [onMachine, Act.on_apply, Act.mapError_apply, hcreate]
    rfl
  have hadd : addEngine e { s with machine := m' } = (.ok s.engines.entries.length, s') := by
    rw [hs']
    rfl
  have hget : s'.engines.get? s.engines.entries.length = some e := by
    rw [hs']
    exact s.engines.get?_add_self e
  -- the engine is new, so the thread has nothing at hand for it yet
  have hmissed : s'.cache.find? s'.machine.thread s.engines.entries.length = none := by
    rw [hs']
    exact hagrees.unmet _ _ (Nat.le_refl _)
  have hlookup : e.contexts.lookup s'.machine.thread = some c := by
    rw [hs', hcontexts, List.lookup_cons_self]
  have halive : ∀ k e', s.engines.get? k = some e' → s'.alive k = true := by
    intro k e' hk
    rw [alive, hs', Slots.get?_add]
    split
    · rfl
    · rw [hk, Option.isSome_some]
  refine ⟨(s.cache.prune m'.thread s'.alive).keep m'.thread s'.alive s.engines.entries.length c, ?_,
    (hagrees.prune halive _).add halive e hcontexts⟩
  rw [takeIn, Act.bind_of_ok hdone, Act.bind_of_ok hadd, Act.bind_apply, currentContext_eq hget,
    hmissed, hlookup, hs']
  rfl

theorem create_outcome (h : s.Orderly) (kernels : KernelRegistry) (config : Config) :
    Outcome s.machine.thread s (answer (.create kernels config) s).2 (.create kernels config)
    (answer (.create kernels config) s).1 := by
  rw [answer, openEngine]
  obtain ⟨cause, m', d, hcreate, hleaves, hsteady⟩ |
      ⟨e, c, m', d, hcreate, hc, he, hleaves, hbecomes, hlast⟩ :=
    Engine.create_outcome h.spares (by decide) (by decide) h.workspaces.laid kernels config
  · have hfailed : onMachine .engine (Engine.create ownBackend kernels config) s =
        (.error (.engine cause), { s with machine := m' }) := by
      rw [onMachine, Act.on_apply, Act.mapError_apply, hcreate]
      rfl
    rw [takeIn, Act.bind_of_error (Act.bind_of_error hfailed _)]
    obtain rfl := hleaves.device
    exact .refused ⟨h.agrees, rfl, hleaves.spares, hsteady⟩
  · have hcontexts : e.contexts = [(s.machine.thread, c)] := by rw [he]
    obtain ⟨cache, htaken, hagrees⟩ :=
      takeIn_of_ok h.agrees hcreate (by rw [hcontexts, hleaves.thread])
    obtain ⟨s₁, hs₁⟩ : ∃ s₁ : Session,
        s₁ = { s with machine := m', engines := (s.engines.add e).2, cache } := ⟨_, rfl⟩
    rw [← hs₁] at htaken
    have hengines : s₁.engines = (s.engines.add e).2 := by rw [hs₁]
    have hcontext : s₁.contextOn s.engines.entries.length s₁.machine.thread = some c := by
      rw [contextOn_of_get? (hengines ▸ s.engines.get?_add_self e), hcontexts, hs₁,
        ← hleaves.thread, List.lookup_cons_self]
    obtain ⟨cache', hagrees', hstate, hanswer⟩ :=
      @currentContext_agrees s₁ (by rw [hs₁]; exact hagrees) s.engines.entries.length
    rw [hengines] at hagrees'
    rw [Act.bind_of_ok htaken, Act.bind_of_ok (Prod.ext ((hanswer c).2 hcontext) hstate)]
    obtain rfl := hleaves.device
    subst hs₁
    have hdevice := s.own.device.nextAddress_le_extended config.workspace.bytes
      (.device config.device config.deviceId)
    have hrooms := s.own.device.rooms_extended config.workspace.bytes
      (.device config.device config.deviceId)
    exact .came (by rw [he]) hcontexts (by rw [hc]; exact ⟨rfl, rfl⟩) (congrArg Context.stream hc)
      (by rw [he]; rfl) rfl
      ⟨hagrees', rfl, hleaves.spares, hbecomes.streams, hbecomes.blocks, hbecomes.last,
        Nat.le_trans hdevice hbecomes.next, hbecomes.rooms.trans hrooms⟩ hlast hbecomes.next

theorem drop_outcome (h : s.Orderly) (n : Nat) :
    Outcome s.machine.thread s (answer (.drop n) s).2 (.drop n) (answer (.drop n) s).1 := by
  rw [answer, dropEngine]
  cases hengine : s.engines.get? n with
  | none =>
      rw [Act.bind_of_error (Act.bind_of_error (engineAt_of_none hengine) _)]
      exact .refused (h.stays h.agrees s.contexts)
  | some e =>
      obtain ⟨hbackend, -⟩ := h.engine n e hengine
      obtain ⟨block, hblock⟩ := h.workspaces.placed n e hengine
      have hresident := h.workspaces.resident block (HostDevice.mem_of_blockAt? hblock)
      obtain ⟨m', d, hclose, hleaves, hbecomes⟩ :=
        @Engine.close_leaves SessionError s.machine releases e (hbackend.symm ▸ h.spares)
          (by decide) (by decide) block (hbackend.symm ▸ hblock) hresident
      rw [hbackend] at hleaves hbecomes
      have hdone : onMachine (fun e : SessionError => e) e.close s =
          (.ok (), { s with machine := m' }) := by
        rw [onMachine, Act.on_apply, Act.mapError_apply, hclose]
        rfl
      rw [Act.bind_apply, Act.bind_of_ok (engineAt_apply hengine), Act.bind_of_ok hdone]
      obtain rfl := hleaves.device
      exact .dropped hengine ⟨h.agrees.erase _ n, rfl, hleaves.spares, hbecomes⟩

/-- What comes of any request. -/
theorem outcome (h : s.Orderly) (request : Request) :
    Outcome s.machine.thread s (answer request s).2 request (answer request s).1 := by
  cases request with
  | create kernels config => exact create_outcome h kernels config
  | bind n device deviceId => exact bind_outcome h n device deviceId
  | look n => exact look_outcome h n
  | switch n device deviceId => exact switch_outcome h n device deviceId
  | drop n => exact drop_outcome h n

end Session

end TensorDataflow
