import TensorDataflow.Proofs.Session.Bindings
/-!
# Contexts belong to one thread and one engine

Threads make engines, bind themselves to them, switch devices and give engines up, in any order,
while native calls may fail. The replies they are given say which context each thread has on each
engine, `Session.installed`: the first that binds it, and after that the latest that switches it to
another device. Whatever the history, a thread is answered that context and no other, the live
streams of the device are those of the contexts of the engines that live, one for each, its blocks
are their workspaces, wherever the host has had room, and an engine that is given up, or does not
come up, leaves nothing on the device: `Session.contexts_isolated`.
-/

namespace TensorDataflow

namespace Session

/-! ### Histories -/

/-- What a thread has asked, and what it was answered. -/
structure Reply where
  thread : ThreadId
  request : Request
  answer : Except SessionError (Nat × Option Context)

/-- One turn of a history: a thread asks something, or a fault is planned for a call that gives
nothing back. -/
inductive Turn where
  | ask (thread : ThreadId) (request : Request)
  | plan (fault : { fault : Fault // fault.call ∉ releases })

/-- A session with all replies so far, the oldest first. -/
structure History where
  session : Session
  replies : List Reply := []

def History.next (h : History) : Turn → History
  | .ask thread request =>
      ⟨(answer request (h.session.onThread thread)).2,
        h.replies ++ [⟨thread, request, (answer request (h.session.onThread thread)).1⟩]⟩
  | .plan fault => { h with session := (inject fault h.session).2 }

/-- Where turns lead from the start of a session whose host is going to offer some places. -/
def history (emulated : List DeviceKind) (rooms : List Nat) (turns : List Turn) : History :=
  turns.foldl History.next ⟨start emulated rooms, []⟩

namespace Reply

/-- The context that a thread has on an engine after a reply, from the one that it had before. -/
def install (n : Nat) (t : ThreadId) (had : Option Context) (r : Reply) : Option Context :=
  match r.request, r.answer with
  | .create _ config, .ok (k, some c) =>
      if n = k ∧ t = r.thread then some ⟨config.device, config.deviceId, c.stream⟩ else had
  | .bind k device deviceId, .ok (_, some c) =>
      if n = k ∧ t = r.thread then had.or (some ⟨device, deviceId, c.stream⟩) else had
  | .switch k device deviceId, .ok (_, some c) =>
      if n = k ∧ t = r.thread then had.map fun old => if old.device = device ∧
        old.deviceId = deviceId then old else ⟨device, deviceId, c.stream⟩ else had
  | .drop k, .ok _ => if n = k then none else had
  | _, _ => had

/-- The thread has made the engine, or was bound to it. -/
def Binds (n : Nat) (t : ThreadId) (r : Reply) : Prop :=
  match r.request, r.answer with
  | .create _ _, .ok (k, _) => n = k ∧ t = r.thread
  | .bind k _ _, .ok _ => n = k ∧ t = r.thread
  | _, _ => False

/-- The engine was given up. -/
def Drops (n : Nat) (r : Reply) : Prop :=
  match r.request, r.answer with
  | .drop k, .ok _ => n = k
  | _, _ => False

end Reply

/-- The context that a thread has on an engine according to the replies. -/
def installed (replies : List Reply) (n : Nat) (t : ThreadId) : Option Context :=
  replies.foldl (Reply.install n t) none

/-- What a thread is answered that asks for its context on an engine. -/
def contextFor (s : Session) (n : Nat) (t : ThreadId) : Except SessionError Context :=
  (currentContext n (s.onThread t)).1

/-! ### What one request changes -/

variable {s s' : Session} {n : Nat} {e : Engine} {thread : ThreadId} {c : Context}

/-- A thread gets a context on a new stream, in place of the one it may have. -/
structure Installs (n : Nat) (thread : ThreadId) (c : Context) (s s' : Session) : Prop where
  context : ∀ k t, s'.contextOn k t = if k = n ∧ t = thread then some c else s.contextOn k t
  fresh : c.stream = s.own.device.lastStream + 1
  last : c.stream ≤ s'.own.device.lastStream
  distinct : s.own.device.streams.Nodup → c.stream ∉ s.own.device.streams →
    s'.own.device.streams.Nodup
  live : ∀ x, x ∈ s'.own.device.streams ↔ x = c.stream ∨
    x ∈ s.own.device.streams ∧ ∀ old, s.contextOn n thread = some old → old.stream ≠ x

/-- An engine goes with all its contexts. -/
structure Loses (n : Nat) (s s' : Session) : Prop where
  context : ∀ k t, s'.contextOn k t = if k = n then none else s.contextOn k t
  last : s.own.device.lastStream ≤ s'.own.device.lastStream
  sublist : s'.own.device.streams.Sublist s.own.device.streams
  live : ∀ x, x ∈ s'.own.device.streams ↔
    x ∈ s.own.device.streams ∧ ∀ t old, s.contextOn n t = some old → old.stream ≠ x

theorem contextOn_of_set (hengine : s.engines.get? n = some e)
    (hengines : s'.engines = s.engines.set n (e.bindThread thread c)) (k : Nat) (t : ThreadId) :
    s'.contextOn k t = if k = n ∧ t = thread then some c else s.contextOn k t := by
  rw [contextOn, hengines, Slots.get?_set _ _ _ (Slots.lt_of_get? hengine)]
  by_cases hk : k = n
  · rw [if_pos hk, Option.bind_some, Engine.lookup_bindThread, hk, contextOn_of_get? hengine]
    simp
  · rw [if_neg hk, if_neg fun hsame => hk hsame.1, contextOn]

theorem get?_length (s : Session) : s.engines.get? s.engines.entries.length = none := by
  rw [Slots.get?, List.getElem?_eq_none (Nat.le_refl _)]
  rfl

theorem contextOn_of_add (hcontexts : e.contexts = [(thread, c)])
    (hengines : s'.engines = (s.engines.add e).2) (k : Nat) (t : ThreadId) :
    s'.contextOn k t = if k = s.engines.entries.length ∧ t = thread then some c
      else s.contextOn k t := by
  rw [contextOn, hengines, show (s.engines.add e).2.get? k = if k = s.engines.entries.length
    then some e else s.engines.get? k from Slots.get?_add _ _ _]
  by_cases hk : k = s.engines.entries.length
  · rw [if_pos hk, Option.bind_some, hcontexts, hk, contextOn, s.get?_length, List.lookup_cons,
      List.lookup_nil]
    by_cases ht : t = thread
    · simp [ht]
    · simp [ht, beq_eq_false_iff_ne.2 ht]
  · rw [if_neg hk, if_neg fun hsame => hk hsame.1, contextOn]

theorem contextOn_of_erase (hengines : s'.engines = s.engines.erase n) (k : Nat) (t : ThreadId) :
    s'.contextOn k t = if k = n then none else s.contextOn k t := by
  rw [contextOn, hengines, Slots.get?_erase]
  split
  · rfl
  · rfl

theorem lookup_of_mem {contexts : List (ThreadId × Context)} (hkeys : (contexts.map Prod.fst).Nodup)
    {t : ThreadId} (h : (t, c) ∈ contexts) : contexts.lookup t = some c := by
  induction contexts with
  | nil => cases h
  | cons b contexts ih =>
      obtain ⟨hnew, hrest⟩ := List.nodup_cons.1 hkeys
      rcases List.mem_cons.1 h with rfl | h
      · exact List.lookup_cons_self
      · have hne : t ≠ b.1 := fun hsame => hnew (hsame ▸ List.mem_map_of_mem h)
        rw [List.lookup_cons, beq_eq_false_iff_ne.2 hne, ih hrest h]

namespace StreamsOwned

variable (h : s.StreamsOwned)

include h

theorem lt_fresh {k : Nat} {t : ThreadId} (hcontext : s.contextOn k t = some c) :
    c.stream < s.own.device.lastStream + 1 :=
  Nat.lt_succ_of_le (h.last _ ((h.live _).2 ⟨k, t, c, hcontext, rfl⟩))

theorem stays (hcontext : ∀ k t, s'.contextOn k t = s.contextOn k t)
    (hstreams : s'.own.device.streams = s.own.device.streams)
    (hlast : s.own.device.lastStream ≤ s'.own.device.lastStream) :
    s'.StreamsOwned where
  distinct := hstreams ▸ h.distinct
  last x hx := Nat.le_trans (h.last x (hstreams ▸ hx)) hlast
  live x := by
    simp only [hcontext, hstreams]
    exact h.live x
  owned := by
    simp only [hcontext]
    exact h.owned

theorem installs (hnew : Installs n thread c s s') : s'.StreamsOwned := by
  have hfresh : c.stream ∉ s.own.device.streams :=
    fun hold => absurd (h.last _ hold) (by have := hnew.fresh; omega)
  refine ⟨hnew.distinct h.distinct hfresh, fun x hx => ?_, fun x => ?_,
    fun k k' t t' c₁ c₂ h₁ h₂ hsame => ?_⟩
  · rcases (hnew.live x).1 hx with rfl | ⟨hold, -⟩
    · exact hnew.last
    · have := h.last x hold
      have := hnew.fresh
      have := hnew.last
      omega
  · rw [hnew.live]
    constructor
    · rintro (rfl | ⟨hold, hothers⟩)
      · exact ⟨n, thread, c, by rw [hnew.context, if_pos ⟨rfl, rfl⟩], rfl⟩
      · obtain ⟨k, t, c', hcontext, rfl⟩ := (h.live x).1 hold
        refine ⟨k, t, c', ?_, rfl⟩
        rw [hnew.context, if_neg, hcontext]
        rintro ⟨rfl, rfl⟩
        exact hothers c' hcontext rfl
    · rintro ⟨k, t, c', hcontext, rfl⟩
      rw [hnew.context] at hcontext
      split at hcontext
      · cases hcontext
        exact .inl rfl
      · next hother =>
          refine .inr ⟨(h.live _).2 ⟨k, t, c', hcontext, rfl⟩, fun old hold hsame => hother ?_⟩
          obtain ⟨rfl, rfl⟩ := h.owned _ _ _ _ _ _ hold hcontext hsame
          exact ⟨rfl, rfl⟩
  · -- the new stream has a number that no context had before
    rw [hnew.context] at h₁ h₂
    split at h₁
    · next hsame₁ =>
        cases h₁
        split at h₂
        · next hsame₂ => exact ⟨hsame₁.1.trans hsame₂.1.symm, hsame₁.2.trans hsame₂.2.symm⟩
        · exact absurd (h.lt_fresh h₂) (by have := hnew.fresh; omega)
    · split at h₂
      · cases h₂
        exact absurd (h.lt_fresh h₁) (by have := hnew.fresh; omega)
      · exact h.owned _ _ _ _ _ _ h₁ h₂ hsame

theorem loses (hlost : Loses n s s') : s'.StreamsOwned := by
  refine ⟨h.distinct.sublist hlost.sublist,
    fun x hx => Nat.le_trans (h.last x (hlost.sublist.subset hx)) hlost.last, fun x => ?_,
    fun k k' t t' c₁ c₂ h₁ h₂ hsame => ?_⟩
  · rw [hlost.live]
    constructor
    · rintro ⟨hold, hothers⟩
      obtain ⟨k, t, c', hcontext, rfl⟩ := (h.live x).1 hold
      refine ⟨k, t, c', ?_, rfl⟩
      rw [hlost.context, if_neg, hcontext]
      rintro rfl
      exact hothers t c' hcontext rfl
    · rintro ⟨k, t, c', hcontext, rfl⟩
      rw [hlost.context] at hcontext
      split at hcontext
      · cases hcontext
      · next hother =>
          refine ⟨(h.live _).2 ⟨k, t, c', hcontext, rfl⟩, fun u old hold hsame => hother ?_⟩
          exact (h.owned _ _ _ _ _ _ hold hcontext hsame).1.symm
  · rw [hlost.context] at h₁ h₂
    split at h₁
    · cases h₁
    · split at h₂
      · cases h₂
      · exact h.owned _ _ _ _ _ _ h₁ h₂ hsame

end StreamsOwned

namespace WorkspacesOwned

variable (h : s.WorkspacesOwned)

include h

/-- No block comes or goes, and no engine comes or goes. -/
theorem stays (hblocks : s'.own.device.blocks = s.own.device.blocks)
    (hnext : s.own.device.nextAddress ≤ s'.own.device.nextAddress)
    (hengines : ∀ k, (s'.engines.get? k).map Engine.workspace =
      (s.engines.get? k).map Engine.workspace) : s'.WorkspacesOwned := by
  have hold : ∀ k e', s'.engines.get? k = some e' →
      ∃ e, s.engines.get? k = some e ∧ e.workspace = e'.workspace := by
    intro k e' hget
    have hsame := hengines k
    rw [hget] at hsame
    exact Option.map_eq_some_iff.1 hsame.symm
  refine ⟨h.laid.sublist (hblocks ▸ List.Sublist.refl _) hnext, hblocks ▸ h.resident,
    fun k e' hget => ?_, fun k k' e₁ e₂ h₁ h₂ hsame => ?_, fun b hb => ?_⟩
  · obtain ⟨e, hget', hworkspace⟩ := hold k e' hget
    obtain ⟨b, hb⟩ := h.placed k e hget'
    exact ⟨b, by rw [← hworkspace, HostDevice.blockAt?, hblocks]; exact hb⟩
  · obtain ⟨e₁', hold₁, hworkspace₁⟩ := hold k e₁ h₁
    obtain ⟨e₂', hold₂, hworkspace₂⟩ := hold k' e₂ h₂
    exact h.apart k k' e₁' e₂' hold₁ hold₂ (by rw [hworkspace₁, hworkspace₂, hsame])
  · obtain ⟨k, e, hget, hstart⟩ := h.accounted b (hblocks ▸ hb)
    have hsame := hengines k
    rw [hget] at hsame
    obtain ⟨e', hget', hworkspace⟩ := Option.map_eq_some_iff.1 hsame
    exact ⟨k, e', hget', by rw [hworkspace, hstart]⟩

theorem came {size : Nat} {location : Location}
    (hworkspace : e.workspace.address = ⟨s.own.device.room size⟩)
    (hresident : location.deviceResident = true) (hengines : s'.engines = (s.engines.add e).2)
    (hblocks : s'.own.device.blocks = (s.own.device.extended size location).blocks)
    (hnext : (s.own.device.extended size location).nextAddress ≤ s'.own.device.nextAddress) :
    s'.WorkspacesOwned := by
  have hget : ∀ k e', s'.engines.get? k = some e' →
      (k = s.engines.entries.length ∧ e' = e) ∨ s.engines.get? k = some e' := by
    intro k e' hk
    rw [hengines, Slots.get?_add] at hk
    split at hk
    · next hlength => exact .inl ⟨hlength, (Option.some.inj hk).symm⟩
    · exact .inr hk
  have hne : ∀ k e', s.engines.get? k = some e' →
      e'.workspace.address.val ≠ s.own.device.room size := by
    intro k e' hk
    obtain ⟨b, hb⟩ := h.placed k e' hk
    exact h.laid.ne_room_of_blockAt? hb size
  have hsame : ∀ a,
      s'.own.device.blockAt? a = (s.own.device.extended size location).blockAt? a := by
    intro a
    rw [HostDevice.blockAt?, hblocks, HostDevice.blockAt?]
  refine ⟨(h.laid.extended size location).sublist (hblocks ▸ List.Sublist.refl _) hnext,
    fun b hb => ?_, fun k e' hk => ?_, fun k k' e₁ e₂ h₁ h₂ hshared => ?_, fun b hb => ?_⟩
  · rw [hblocks] at hb
    obtain rfl | hb := HostDevice.mem_blocks_placed.1 hb
    · exact hresident
    · exact h.resident b hb
  · rw [hsame]
    rcases hget k e' hk with ⟨-, rfl⟩ | hold
    · rw [hworkspace]
      exact ⟨_, s.own.device.blockAt?_extended size location⟩
    · obtain ⟨b, hb⟩ := h.placed k e' hold
      exact ⟨b, (s.own.device.blockAt?_extended_of_ne size location (hne k e' hold)).trans hb⟩
  · rcases hget k e₁ h₁ with ⟨rfl, rfl⟩ | hold₁
    · rcases hget k' e₂ h₂ with ⟨rfl, rfl⟩ | hold₂
      · rfl
      · exact absurd (congrArg Address.val (hshared.symm.trans hworkspace)) (hne k' e₂ hold₂)
    · rcases hget k' e₂ h₂ with ⟨rfl, rfl⟩ | hold₂
      · exact absurd (congrArg Address.val (hshared.trans hworkspace)) (hne k e₁ hold₁)
      · exact h.apart k k' e₁ e₂ hold₁ hold₂ hshared
  · rw [hblocks] at hb
    rw [hengines]
    obtain rfl | hb := HostDevice.mem_blocks_placed.1 hb
    · exact ⟨_, e, s.engines.get?_add_self e, congrArg Address.val hworkspace⟩
    · obtain ⟨k, e', hk, hstart⟩ := h.accounted b hb
      refine ⟨k, e', ?_, hstart⟩
      rw [Slots.get?_add, ← hk]
      exact if_neg (Nat.ne_of_lt (Slots.lt_of_get? hk))

theorem dropped (hengine : s.engines.get? n = some e) (hengines : s'.engines = s.engines.erase n)
    (hblocks : s'.own.device.blocks = s.own.device.blocks.filter fun b => b.start ≠
        e.workspace.address.val) (hnext : s.own.device.nextAddress ≤ s'.own.device.nextAddress) :
    s'.WorkspacesOwned := by
  have hget : ∀ k e', s'.engines.get? k = some e' → k ≠ n ∧ s.engines.get? k = some e' := by
    intro k e' hk
    rw [hengines, Slots.get?_erase] at hk
    split at hk
    · cases hk
    · next hne => exact ⟨hne, hk⟩
  have hsublist : s'.own.device.blocks.Sublist s.own.device.blocks := hblocks ▸ List.filter_sublist
  refine ⟨h.laid.sublist hsublist hnext, fun b hb => h.resident b (hsublist.subset hb),
    fun k e' hk => ?_, fun k k' e₁ e₂ h₁ h₂ hsame => ?_, fun b hb => ?_⟩
  · obtain ⟨hne, hold⟩ := hget k e' hk
    obtain ⟨b, hb⟩ := h.placed k e' hold
    refine ⟨b, (HostDevice.blockAt?_filter hblocks fun hsame => hne ?_).trans hb⟩
    exact h.apart k n e' e hold hengine (congrArg Address.mk hsame)
  · exact h.apart k k' e₁ e₂ (hget k e₁ h₁).2 (hget k' e₂ h₂).2 hsame
  · rw [hblocks] at hb
    obtain ⟨hb, hother⟩ := List.mem_filter.1 hb
    obtain ⟨k, e', hk, hstart⟩ := h.accounted b hb
    refine ⟨k, e', ?_, hstart⟩
    rw [hengines, Slots.get?_erase, if_neg, hk]
    rintro rfl
    cases hk.symm.trans hengine
    exact absurd hstart.symm (of_decide_eq_true hother)

end WorkspacesOwned

/-! ### What every request keeps -/

theorem Stays.contextOn (h : s.Stays s') (k : Nat) (t : ThreadId) :
    s'.contextOn k t = s.contextOn k t := by
  rw [Session.contextOn, Session.contextOn, h.engines]

theorem nodup_bindThread (hkeys : (e.contexts.map Prod.fst).Nodup) (thread : ThreadId)
    (c : Context) : ((e.bindThread thread c).contexts.map Prod.fst).Nodup := by
  rw [Engine.bindThread, List.map_cons, List.nodup_cons]
  refine ⟨fun hmem => ?_, hkeys.sublist (List.filter_sublist.map _)⟩
  obtain ⟨b, hb, hsame⟩ := List.mem_map.1 hmem
  exact absurd hsame (by simpa using (List.mem_filter.1 hb).2)

section Effects

variable (h : s.Orderly)

theorem installs_of_bound (hengine : s.engines.get? n = some e)
    (hnone : e.contexts.lookup thread = none) (hstream : c.stream = s.own.device.lastStream + 1)
    {blocks : List Block}
    (hleaves : s.Leaves (s.engines.set n (e.bindThread thread c)) (c.stream :: s.own.device.streams)
      blocks s') (hlast : c.stream ≤ s'.own.device.lastStream) :
    Installs n thread c s s' where
  context := contextOn_of_set hengine hleaves.engines
  fresh := hstream
  last := hlast
  distinct hdistinct hnew := by
    rw [hleaves.device.streams]
    exact List.nodup_cons.2 ⟨hnew, hdistinct⟩
  live x := by
    rw [hleaves.device.streams, List.mem_cons, contextOn_of_get? hengine, hnone]
    simp

theorem installs_of_came (hcontexts : e.contexts = [(thread, c)])
    (hstream : c.stream = s.own.device.lastStream + 1) {blocks : List Block}
    (hleaves : s.Leaves (s.engines.add e).2 (c.stream :: s.own.device.streams) blocks s')
    (hlast : c.stream ≤ s'.own.device.lastStream) :
    Installs s.engines.entries.length thread c s s' where
  context := contextOn_of_add hcontexts hleaves.engines
  fresh := hstream
  last := hlast
  distinct hdistinct hnew := by
    rw [hleaves.device.streams]
    exact List.nodup_cons.2 ⟨hnew, hdistinct⟩
  live x := by
    rw [hleaves.device.streams, List.mem_cons, contextOn, s.get?_length]
    simp

include h in
theorem installs_of_switched {old : Context} (hengine : s.engines.get? n = some e)
    (hold : e.contexts.lookup thread = some old) (hstream : c.stream = s.own.device.lastStream + 1)
    {blocks : List Block}
    (hleaves : s.Leaves (s.engines.set n (e.bindThread thread c))
      ((c.stream :: s.own.device.streams).filter (· ≠ old.stream)) blocks s')
    (hlast : c.stream ≤ s'.own.device.lastStream) :
    Installs n thread c s s' where
  context := contextOn_of_set hengine hleaves.engines
  fresh := hstream
  last := hlast
  distinct hdistinct hnew := by
    rw [hleaves.device.streams]
    exact (List.nodup_cons.2 ⟨hnew, hdistinct⟩).filter _
  live x := by
    have hcontext : s.contextOn n thread = some old := (contextOn_of_get? hengine thread).trans hold
    have hne : c.stream ≠ old.stream := by
      have := h.streams.lt_fresh hcontext
      omega
    rw [hleaves.device.streams, List.mem_filter, List.mem_cons, hcontext]
    constructor
    · rintro ⟨rfl | hx, hother⟩
      · exact .inl rfl
      · refine .inr ⟨hx, fun old' hsame => ?_⟩
        cases hsame
        exact Ne.symm (of_decide_eq_true hother)
    · rintro (rfl | ⟨hx, hother⟩)
      · exact ⟨.inl rfl, decide_eq_true hne⟩
      · exact ⟨.inr hx, decide_eq_true (hother old rfl).symm⟩

include h in
theorem loses_of_dropped (hengine : s.engines.get? n = some e) {blocks : List Block}
    (hleaves : s.Leaves (s.engines.erase n) (s.own.device.streams.filter fun x =>
        ∀ b ∈ e.contexts, x ≠ b.2.stream) blocks s') : Loses n s s' where
  context := contextOn_of_erase hleaves.engines
  last := hleaves.device.last
  sublist := by
    rw [hleaves.device.streams]
    exact List.filter_sublist
  live x := by
    obtain ⟨-, hkeys⟩ := h.engine n e hengine
    rw [hleaves.device.streams, List.mem_filter, decide_eq_true_iff]
    refine and_congr_right fun _ => ⟨fun hall t old hold hsame => ?_, fun hall b hb hsame => ?_⟩
    · rw [contextOn_of_get? hengine] at hold
      obtain ⟨before, after, hsplit, -⟩ := List.lookup_eq_some_iff.1 hold
      exact hall (t, old) (by simp [hsplit]) hsame.symm
    · exact hall b.1 b.2 ((contextOn_of_get? hengine b.1).trans (lookup_of_mem hkeys hb)) hsame.symm

end Effects

theorem Orderly.stays_orderly (h : s.Orderly) (hstays : s.Stays s') : s'.Orderly where
  agrees := hstays.engines ▸ hstays.agrees
  spares := hstays.spares
  engine := hstays.engines ▸ h.engine
  streams := h.streams.stays hstays.contextOn hstays.device.streams hstays.device.last
  workspaces := h.workspaces.stays hstays.device.blocks hstays.device.next fun _ => by
    rw [hstays.engines]

theorem Orderly.set_orderly (h : s.Orderly) (hengine : s.engines.get? n = some e)
    {streams : List Nat}
    (hleaves : s.Leaves (s.engines.set n (e.bindThread thread c)) streams s.own.device.blocks s')
    (hinstalls : Installs n thread c s s') : s'.Orderly := by
  have hget : ∀ k e', s'.engines.get? k = some e' →
      (k = n ∧ e' = e.bindThread thread c) ∨ s.engines.get? k = some e' := by
    intro k e' hk
    rw [hleaves.engines, Slots.get?_set _ _ _ (Slots.lt_of_get? hengine)] at hk
    split at hk
    · next hn => exact .inl ⟨hn, (Option.some.inj hk).symm⟩
    · exact .inr hk
  refine ⟨hleaves.engines ▸ hleaves.agrees, hleaves.spares, fun k e' hk => ?_,
    h.streams.installs hinstalls,
    h.workspaces.stays hleaves.device.blocks hleaves.device.next fun k => ?_⟩
  · rcases hget k e' hk with ⟨rfl, rfl⟩ | hold
    · obtain ⟨hbackend, hkeys⟩ := h.engine k e hengine
      exact ⟨hbackend, nodup_bindThread hkeys thread c⟩
    · exact h.engine k e' hold
  · rw [hleaves.engines, Slots.get?_set _ _ _ (Slots.lt_of_get? hengine)]
    split
    · next hk =>
        rw [hk, hengine]
        rfl
    · rfl

/-- Every request leaves a session in order. -/
theorem Outcome.orderly {request : Request} {result : Except SessionError (Nat × Option Context)}
    (houtcome : Outcome thread s s' request result) (h : s.Orderly) : s'.Orderly := by
  cases houtcome with
  | refused hstays => exact h.stays_orderly hstays
  | looked _ hstays => exact h.stays_orderly hstays
  | kept _ hstays => exact h.stays_orderly hstays
  | remained _ hstays => exact h.stays_orderly hstays
  | bound hengine hnone hstream hleaves hlast =>
      exact h.set_orderly hengine hleaves (installs_of_bound hengine hnone hstream hleaves hlast)
  | switched hengine hold _ hstream hleaves hlast =>
      exact h.set_orderly hengine hleaves
        (installs_of_switched h hengine hold hstream hleaves hlast)
  | came hbackend hcontexts _ hstream hworkspace hresident hleaves hlast hnext =>
      refine ⟨hleaves.engines ▸ hleaves.agrees, hleaves.spares, fun k e' hk => ?_,
        h.streams.installs (installs_of_came hcontexts hstream hleaves hlast),
        h.workspaces.came hworkspace hresident hleaves.engines hleaves.device.blocks hnext⟩
      rw [hleaves.engines, Slots.get?_add] at hk
      split at hk
      · cases hk
        rw [hcontexts]
        exact ⟨hbackend, List.nodup_singleton _⟩
      · exact h.engine k e' hk
  | dropped hengine hleaves =>
      refine ⟨hleaves.engines ▸ hleaves.agrees, hleaves.spares, fun k e' hk => ?_,
        h.streams.loses (loses_of_dropped h hengine hleaves),
        h.workspaces.dropped hengine hleaves.engines hleaves.device.blocks hleaves.device.next⟩
      rw [hleaves.engines, Slots.get?_erase] at hk
      split at hk
      · cases hk
      · exact h.engine k e' hk

/-- The reply to a request says which contexts there are after it. -/
theorem Outcome.context {request : Request} {result : Except SessionError (Nat × Option Context)}
    (houtcome : Outcome thread s s' request result) (n : Nat) (t : ThreadId) :
    s'.contextOn n t = Reply.install n t (s.contextOn n t) ⟨thread, request, result⟩ := by
  cases houtcome with
  | refused hstays =>
      rw [hstays.contextOn]
      cases request <;> rfl
  | looked _ hstays => exact hstays.contextOn n t
  | @kept k _ _ c hcontext hstays =>
      rw [hstays.contextOn, Reply.install]
      dsimp only
      split
      · next hsame => rw [hsame.1, hsame.2, hcontext, Option.some_or]
      · rfl
  | @remained k c hcontext hstays =>
      rw [hstays.contextOn, Reply.install]
      dsimp only
      split
      · next hsame => rw [hsame.1, hsame.2, hcontext, Option.map_some, if_pos ⟨rfl, rfl⟩]
      · rfl
  | @bound k e c hengine hnone _ hleaves _ =>
      rw [contextOn_of_set hengine hleaves.engines, Reply.install]
      dsimp only
      split
      · next hsame => rw [hsame.1, hsame.2, contextOn_of_get? hengine, hnone, Option.none_or]
      · rfl
  | @switched k e old c hengine hold hother _ hleaves _ =>
      rw [contextOn_of_set hengine hleaves.engines, Reply.install]
      dsimp only
      split
      · next hsame =>
          rw [hsame.1, hsame.2, contextOn_of_get? hengine, hold, Option.map_some, if_neg hother]
      · rfl
  | @came _ _ e c _ _ _ hcontexts hdevice _ _ _ hleaves _ _ =>
      rw [contextOn_of_add hcontexts hleaves.engines, Reply.install]
      dsimp only
      rw [← hdevice.1, ← hdevice.2]
  | dropped _ hleaves => exact contextOn_of_erase hleaves.engines n t

/-! ### What an engine has taken -/

/-- A stream that was taken for an engine is live only as long as it belongs to one of the engine's
contexts. -/
structure TakenStream (n x : Nat) (s : Session) : Prop where
  met : n < s.engines.entries.length
  taken : x ≤ s.own.device.lastStream
  held : x ∈ s.own.device.streams → ∃ t c, s.contextOn n t = some c ∧ c.stream = x

/-- A place that was taken for an engine is in use only as long as it is the engine's workspace,
unless the host is going to offer it again. -/
structure TakenPlace (n : Nat) (a : Address) (s : Session) : Prop where
  met : n < s.engines.entries.length
  taken : a.val < s.own.device.nextAddress
  unoffered : a.val ∉ s.own.device.rooms
  held : ∀ b ∈ s.own.device.blocks, b.start = a.val →
    ∃ e, s.engines.get? n = some e ∧ e.workspace.address = a

section Taken

variable {x : Nat} {a : Address} {request : Request}
  {result : Except SessionError (Nat × Option Context)}
  (houtcome : Outcome thread s s' request result)

include houtcome

/-- Numbers of engines are not used again. -/
theorem Outcome.length_le : s.engines.entries.length ≤ s'.engines.entries.length := by
  cases houtcome with
  | refused hstays | looked _ hstays | kept _ hstays | remained _ hstays => rw [hstays.engines]
  | bound _ _ _ hleaves _ | switched _ _ _ _ hleaves _ =>
      rw [hleaves.engines, Slots.set, List.length_set]
  | came _ _ _ _ _ _ hleaves _ _ =>
      rw [hleaves.engines, Slots.add, List.length_append]
      exact Nat.le_add_right _ _
  | dropped _ hleaves => rw [hleaves.engines, Slots.erase, List.length_set]

/-- An engine keeps its workspace until it is given up. -/
theorem Outcome.engine (hmet : n < s.engines.entries.length) :
    (∀ e, s.engines.get? n = some e → ¬ Reply.Drops n ⟨thread, request, result⟩ →
      ∃ e', s'.engines.get? n = some e' ∧ e'.workspace = e.workspace) ∧
    (s.engines.get? n = none → s'.engines.get? n = none) := by
  cases houtcome with
  | refused hstays | looked _ hstays | kept _ hstays | remained _ hstays =>
      rw [hstays.engines]
      exact ⟨fun e he _ => ⟨e, he, rfl⟩, id⟩
  | bound hengine _ _ hleaves _ | switched hengine _ _ _ hleaves _ =>
      rw [hleaves.engines, Slots.get?_set _ _ _ (Slots.lt_of_get? hengine)]
      refine ⟨fun e he _ => ?_, fun hnone => ?_⟩
      · split
        · next hn =>
            rw [hn, hengine] at he
            cases he
            exact ⟨_, rfl, rfl⟩
        · exact ⟨e, he, rfl⟩
      · rw [if_neg fun hn => by rw [hn, hengine] at hnone; cases hnone]
        exact hnone
  | came _ _ _ _ _ _ hleaves _ _ =>
      have hsame : s'.engines.get? n = s.engines.get? n := by
        rw [hleaves.engines, Slots.get?_add]
        exact if_neg (Nat.ne_of_lt hmet)
      rw [hsame]
      exact ⟨fun e he _ => ⟨e, he, rfl⟩, id⟩
  | @dropped k _ _ hleaves =>
      rw [hleaves.engines, Slots.get?_erase]
      refine ⟨fun e he hkept => ?_, fun hnone => by rw [hnone, ite_self]⟩
      rw [if_neg (show ¬ n = k from hkept)]
      exact ⟨e, he, rfl⟩

theorem Outcome.takenStream (h : s.Orderly) (htaken : s.TakenStream n x) : s'.TakenStream n x := by
  have hmet := Nat.lt_of_lt_of_le htaken.met houtcome.length_le
  have hinstalls : ∀ {k : Nat} {c : Context}, Installs k thread c s s' → s'.TakenStream n x := by
    intro k c hnew
    have hfresh := hnew.fresh
    have hlast := hnew.last
    have htook := htaken.taken
    refine ⟨hmet, by omega, fun hx => ?_⟩
    rcases (hnew.live x).1 hx with rfl | ⟨hold, hothers⟩
    · omega
    · obtain ⟨t, c', hcontext, rfl⟩ := htaken.held hold
      refine ⟨t, c', ?_, rfl⟩
      rw [hnew.context, if_neg, hcontext]
      rintro ⟨rfl, rfl⟩
      exact hothers c' hcontext rfl
  cases houtcome with
  | refused hstays | looked _ hstays | kept _ hstays | remained _ hstays =>
      refine ⟨hmet, Nat.le_trans htaken.taken hstays.device.last, fun hx => ?_⟩
      rw [hstays.device.streams] at hx
      simpa only [hstays.contextOn] using htaken.held hx
  | bound hengine hnone hstream hleaves hlast =>
      exact hinstalls (installs_of_bound hengine hnone hstream hleaves hlast)
  | switched hengine hold _ hstream hleaves hlast =>
      exact hinstalls (installs_of_switched h hengine hold hstream hleaves hlast)
  | came _ hcontexts _ hstream _ _ hleaves hlast _ =>
      exact hinstalls (installs_of_came hcontexts hstream hleaves hlast)
  | dropped hengine hleaves =>
      have hlost := loses_of_dropped h hengine hleaves
      refine ⟨hmet, Nat.le_trans htaken.taken hlost.last, fun hx => ?_⟩
      obtain ⟨hold, hothers⟩ := (hlost.live x).1 hx
      obtain ⟨t, c', hcontext, rfl⟩ := htaken.held hold
      refine ⟨t, c', ?_, rfl⟩
      rw [hlost.context, if_neg, hcontext]
      rintro rfl
      exact hothers t c' hcontext rfl

/-- Places that were offered are used up. -/
theorem Outcome.rooms_suffix : s'.own.device.rooms <:+ s.own.device.rooms := by
  cases houtcome with
  | refused hstays | looked _ hstays | kept _ hstays | remained _ hstays =>
      exact hstays.device.rooms
  | bound _ _ _ hleaves _ | switched _ _ _ _ hleaves _ => exact hleaves.device.rooms
  | came _ _ _ _ _ _ hleaves _ _ => exact hleaves.device.rooms
  | dropped _ hleaves => exact hleaves.device.rooms

theorem Outcome.takenPlace (htaken : s.TakenPlace n a) : s'.TakenPlace n a := by
  have hmet := Nat.lt_of_lt_of_le htaken.met houtcome.length_le
  have hkept : ∀ {b : Block}, b ∈ s.own.device.blocks →
      b.start = a.val → ¬ Reply.Drops n ⟨thread, request, result⟩ →
      ∃ e, s'.engines.get? n = some e ∧ e.workspace.address = a := by
    intro b hb hstart hdrops
    obtain ⟨e, hengine, haddress⟩ := htaken.held b hb hstart
    obtain ⟨e', hengine', hworkspace⟩ := (houtcome.engine htaken.met).1 e hengine hdrops
    exact ⟨e', hengine', by rw [hworkspace, haddress]⟩
  have hnever : ∀ {streams : List Nat} {blocks : List Block},
      s.own.device.Becomes streams blocks s'.own.device →
        a.val < s'.own.device.nextAddress ∧ a.val ∉ s'.own.device.rooms :=
    fun hdevice => ⟨Nat.lt_of_lt_of_le htaken.taken hdevice.next,
      fun ha => htaken.unoffered (hdevice.rooms.subset ha)⟩
  cases houtcome with
  | @refused request _ hstays =>
      refine ⟨hmet, (hnever hstays.device).1, (hnever hstays.device).2,
        fun b hb hstart => hkept (hstays.device.blocks ▸ hb) hstart ?_⟩
      cases request <;> exact id
  | looked _ hstays | kept _ hstays | remained _ hstays =>
      exact ⟨hmet, (hnever hstays.device).1, (hnever hstays.device).2,
        fun b hb hstart => hkept (hstays.device.blocks ▸ hb) hstart id⟩
  | bound _ _ _ hleaves _ | switched _ _ _ _ hleaves _ =>
      exact ⟨hmet, (hnever hleaves.device).1, (hnever hleaves.device).2,
        fun b hb hstart => hkept (hleaves.device.blocks ▸ hb) hstart id⟩
  | @came _ _ _ _ size _ _ _ _ _ _ _ hleaves _ _ =>
      refine ⟨hmet, (hnever hleaves.device).1, (hnever hleaves.device).2, fun b hb hstart => ?_⟩
      rw [hleaves.device.blocks] at hb
      obtain rfl | hb := HostDevice.mem_blocks_placed.1 hb
      · -- the new workspace is at an offered place, or above all places so far
        have hroom : s.own.device.room size = a.val := hstart
        obtain hoffer | ⟨-, hnext⟩ := s.own.device.room_cases size
        · exact absurd (hroom ▸ (HostDevice.offer?_eq_some hoffer).1) htaken.unoffered
        · exact absurd (hroom.symm.trans hnext) (Nat.ne_of_lt htaken.taken)
      · exact hkept hb hstart id
  | @dropped k e hengine hleaves =>
      refine ⟨hmet, (hnever hleaves.device).1, (hnever hleaves.device).2, fun b hb hstart => ?_⟩
      rw [hleaves.device.blocks] at hb
      obtain ⟨hb, hne⟩ := List.mem_filter.1 hb
      refine hkept hb hstart fun hdropped => ?_
      obtain rfl : n = k := hdropped
      obtain ⟨e', hengine', haddress⟩ := htaken.held b hb hstart
      rw [hengine] at hengine'
      cases hengine'
      exact absurd (hstart.trans (congrArg Address.val haddress.symm)) (of_decide_eq_true hne)

theorem Outcome.gone_of_drops (hdrops : Reply.Drops n ⟨thread, request, result⟩) :
    n < s'.engines.entries.length ∧ s'.engines.get? n = none := by
  have hlength := houtcome.length_le
  cases houtcome with
  | @refused request => cases request <;> exact hdrops.elim
  | looked | kept | remained | bound | switched | came => exact hdrops.elim
  | @dropped k e hengine hleaves =>
      obtain rfl : n = k := hdrops
      refine ⟨Nat.lt_of_lt_of_le (Slots.lt_of_get? hengine) hlength, ?_⟩
      rw [hleaves.engines, Slots.get?_erase, if_pos rfl]

theorem Outcome.isSome_of_binds {t : ThreadId}
    (hbinds : Reply.Binds n t ⟨thread, request, result⟩) : (s'.contextOn n t).isSome = true := by
  cases houtcome with
  | @refused request => cases request <;> exact hbinds.elim
  | looked | remained | switched | dropped => exact hbinds.elim
  | kept hcontext hstays =>
      obtain ⟨rfl, rfl⟩ := hbinds
      rw [hstays.contextOn, hcontext, Option.isSome_some]
  | bound hengine _ _ hleaves _ =>
      dsimp only [Reply.Binds] at hbinds
      rw [contextOn_of_set hengine hleaves.engines, if_pos hbinds, Option.isSome_some]
  | came _ hcontexts _ _ _ _ hleaves _ _ =>
      dsimp only [Reply.Binds] at hbinds
      rw [contextOn_of_add hcontexts hleaves.engines, if_pos hbinds, Option.isSome_some]

theorem Outcome.isSome_iff {t : ThreadId} (hbinds : ¬ Reply.Binds n t ⟨thread, request, result⟩)
    (hdrops : ¬ Reply.Drops n ⟨thread, request, result⟩) :
    (s'.contextOn n t).isSome = true ↔ (s.contextOn n t).isSome = true := by
  cases houtcome with
  | refused hstays | looked _ hstays | kept _ hstays | remained _ hstays => rw [hstays.contextOn]
  | bound hengine _ _ hleaves _ =>
      dsimp only [Reply.Binds] at hbinds
      rw [contextOn_of_set hengine hleaves.engines, if_neg hbinds]
  | switched hengine hold _ _ hleaves _ =>
      rw [contextOn_of_set hengine hleaves.engines]
      split
      · next hsame =>
          rw [hsame.1, hsame.2, contextOn_of_get? hengine, hold, Option.isSome_some,
            Option.isSome_some]
      · rfl
  | came _ hcontexts _ _ _ _ hleaves _ _ =>
      dsimp only [Reply.Binds] at hbinds
      rw [contextOn_of_add hcontexts hleaves.engines, if_neg hbinds]
  | dropped _ hleaves =>
      dsimp only [Reply.Drops] at hdrops
      rw [contextOn_of_erase hleaves.engines, if_neg hdrops]

end Taken

/-! ### Whole histories -/

theorem Orderly.onThread (h : s.Orderly) (t : ThreadId) : (s.onThread t).Orderly :=
  ⟨h.agrees, ⟨h.spares.there, h.spares.faults⟩, h.engine, ⟨h.streams.distinct, h.streams.last,
    h.streams.live, h.streams.owned⟩, ⟨h.workspaces.laid, h.workspaces.resident,
    h.workspaces.placed, h.workspaces.apart, h.workspaces.accounted⟩⟩

theorem inject_stays (h : s.Orderly) (fault : { fault : Fault // fault.call ∉ releases }) :
    s.Stays (inject fault s).2 := by
  have hfaults : ∀ f ∈ s.own.faults ++ [fault.1], f.call ∉ releases := by
    intro f hf
    rcases List.mem_append.1 hf with hold | hnew
    · exact h.spares.faults f hold
    · rw [List.mem_singleton.1 hnew]
      exact fault.2
  have hleaves : s.machine.Leaves ownBackend releases s.own.device s.own.library
      (inject fault s).2.machine := h.spares.leaves hfaults
  have hdevice : (inject fault s).2.own.device = s.own.device := hleaves.device
  refine ⟨h.agrees, rfl, hleaves.spares, ?_⟩
  rw [hdevice]
  exact ⟨rfl, rfl, Nat.le_refl _, Nat.le_refl _, List.suffix_refl _⟩

/-- A session in order, with replies that tell its contexts. -/
structure History.Recorded (h : History) : Prop where
  orderly : h.session.Orderly
  context : ∀ n t, h.session.contextOn n t = installed h.replies n t
  gone : ∀ r ∈ h.replies, ∀ n, r.Drops n →
    n < h.session.engines.entries.length ∧ h.session.engines.get? n = none
  bound : ∀ n t, (h.session.contextOn n t).isSome = true ↔
    (∃ r ∈ h.replies, r.Binds n t) ∧ ¬ ∃ r ∈ h.replies, r.Drops n

theorem History.Recorded.ask {h : History} (hrecorded : h.Recorded) (thread : ThreadId)
    (request : Request) : (h.next (.ask thread request)).Recorded := by
  have houtcome := outcome (hrecorded.orderly.onThread thread) request
  generalize hs' : (answer request (h.session.onThread thread)).2 = s' at houtcome
  generalize hresult : (answer request (h.session.onThread thread)).1 = result at houtcome
  have hnext : h.next (.ask thread request) = ⟨s', h.replies ++ [⟨thread, request, result⟩]⟩ := by
    rw [History.next, hs', hresult]
  rw [hnext]
  have hgone : ∀ r ∈ h.replies, ∀ n, r.Drops n →
      n < s'.engines.entries.length ∧ s'.engines.get? n = none := by
    intro r hr n hdrops
    obtain ⟨hmet, hnone⟩ := hrecorded.gone r hr n hdrops
    exact ⟨Nat.lt_of_lt_of_le hmet houtcome.length_le, (houtcome.engine hmet).2 hnone⟩
  refine ⟨houtcome.orderly (hrecorded.orderly.onThread thread), fun n t => ?_,
    fun r hr n hdrops => ?_, fun n t => ?_⟩
  · rw [installed, List.foldl_append, ← installed, ← hrecorded.context]
    exact houtcome.context n t
  · rcases List.mem_append.1 hr with hr | hr
    · exact hgone r hr n hdrops
    · obtain rfl := List.mem_singleton.1 hr
      exact houtcome.gone_of_drops hdrops
  · simp only [List.mem_append, List.mem_singleton, or_and_right, exists_or, exists_eq_left]
    by_cases hdrops : Reply.Drops n ⟨thread, request, result⟩
    · have hcontext : s'.contextOn n t = none := by
        rw [contextOn, (houtcome.gone_of_drops hdrops).2, Option.bind_none]
      simp [hcontext, hdrops]
    · by_cases hbinds : Reply.Binds n t ⟨thread, request, result⟩
      · -- a thread is bound only to an engine that is there, which was not given up before
        have hsome := houtcome.isSome_of_binds hbinds
        have hnever : ¬ ∃ r ∈ h.replies, r.Drops n := by
          rintro ⟨r, hr, hdropped⟩
          rw [contextOn, (hgone r hr n hdropped).2] at hsome
          cases hsome
        simp [hsome, hbinds, hdrops, hnever]
      · have hbound : ((h.session.onThread thread).contextOn n t).isSome = true ↔ _ :=
          hrecorded.bound n t
        rw [houtcome.isSome_iff hbinds hdrops]
        simpa [hbinds, hdrops] using hbound

/-- What one turn keeps. -/
theorem History.Recorded.next {h : History} (hrecorded : h.Recorded) (turn : Turn) :
    (h.next turn).Recorded ∧
      (h.next turn).session.own.device.rooms <:+ h.session.own.device.rooms ∧
      (∀ n x, h.session.TakenStream n x → (h.next turn).session.TakenStream n x) ∧
      ∀ n a, h.session.TakenPlace n a → (h.next turn).session.TakenPlace n a := by
  cases turn with
  | ask thread request =>
      have houtcome := outcome (hrecorded.orderly.onThread thread) request
      refine ⟨hrecorded.ask thread request, houtcome.rooms_suffix, fun n x htaken => ?_,
        fun n a htaken => ?_⟩
      · exact houtcome.takenStream (hrecorded.orderly.onThread thread)
          ⟨htaken.met, htaken.taken, htaken.held⟩
      · exact houtcome.takenPlace ⟨htaken.met, htaken.taken, htaken.unoffered, htaken.held⟩
  | plan fault =>
      have hstays := inject_stays hrecorded.orderly fault
      have houtcome : Outcome 0 h.session (inject fault h.session).2 (.look 0)
          (.error (.noHandle .engine)) := .refused hstays
      refine ⟨⟨houtcome.orderly hrecorded.orderly, fun n t => ?_,
          fun r hr n hdrops => hrecorded.gone r hr n hdrops, fun n t => ?_⟩, houtcome.rooms_suffix,
        fun n x htaken => houtcome.takenStream hrecorded.orderly htaken,
        fun n a htaken => houtcome.takenPlace htaken⟩
      · exact (hstays.contextOn n t).trans (hrecorded.context n t)
      · exact (congrArg (fun c => c.isSome = true) (hstays.contextOn n t)).to_iff.trans
          (hrecorded.bound n t)

/-- What a history keeps. -/
theorem History.Recorded.run {h : History} (hrecorded : h.Recorded) (turns : List Turn) :
    (turns.foldl History.next h).Recorded ∧
      (turns.foldl History.next h).session.own.device.rooms <:+ h.session.own.device.rooms ∧
      (∀ n x, h.session.TakenStream n x → (turns.foldl History.next h).session.TakenStream n x) ∧
      ∀ n a, h.session.TakenPlace n a → (turns.foldl History.next h).session.TakenPlace n a := by
  induction turns generalizing h with
  | nil => exact ⟨hrecorded, List.suffix_refl _, fun _ _ => id, fun _ _ => id⟩
  | cons turn turns ih =>
      obtain ⟨hnext, hroom, hstream, hplace⟩ := hrecorded.next turn
      obtain ⟨hrun, hrooms, hstreams, hplaces⟩ := ih hnext
      exact ⟨hrun, hrooms.trans hroom, fun n x htaken => hstreams n x (hstream n x htaken),
        fun n a htaken => hplaces n a (hplace n a htaken)⟩

theorem recorded_start (emulated : List DeviceKind) (rooms : List Nat) :
    History.Recorded ⟨start emulated rooms, []⟩ := by
  have hget : ∀ n e, (start emulated rooms).engines.get? n ≠ some e := by
    intro n e h
    rw [show (start emulated rooms).engines.get? n = none from Slots.get?_empty n] at h
    cases h
  have hcontext : ∀ n t, (start emulated rooms).contextOn n t = none := by
    intro n t
    rw [contextOn, show (start emulated rooms).engines.get? n = none from Slots.get?_empty n,
      Option.bind_none]
  have hnone : ∀ n t c, (start emulated rooms).contextOn n t ≠ some c := by
    intro n t c h
    rw [hcontext] at h
    cases h
  have hnobody : ∀ x, ¬ ∃ n t c, (start emulated rooms).contextOn n t = some c ∧ c.stream = x := by
    rintro x ⟨n, t, c, h, -⟩
    exact hnone n t c h
  have horderly : (start emulated rooms).Orderly :=
    { agrees := ⟨fun n e t h => absurd h (hget n e), fun _ _ _ => rfl⟩
      spares := ⟨Nat.zero_lt_one, fun _ hf => absurd hf List.not_mem_nil⟩
      engine := fun n e h => absurd h (hget n e)
      streams := ⟨List.nodup_nil, fun _ hx => absurd hx List.not_mem_nil,
        fun x => ⟨fun hx => absurd hx List.not_mem_nil, fun hx => absurd hx (hnobody x)⟩,
        fun n _ t _ c _ h => absurd h (hnone n t c)⟩
      workspaces := ⟨⟨List.Pairwise.nil, fun _ hb => absurd hb List.not_mem_nil⟩,
        fun _ hb => absurd hb List.not_mem_nil, fun n e h => absurd h (hget n e),
        fun n _ e _ h => absurd h (hget n e),
        fun _ hb => absurd hb List.not_mem_nil⟩ }
  exact ⟨horderly, hcontext, fun _ hr => absurd hr List.not_mem_nil, fun n t => by simp [hcontext]⟩

/-- A thread is answered the context that the replies tell. -/
theorem History.Recorded.contextFor_eq_ok_iff {h : History} (hrecorded : h.Recorded) (n : Nat)
    (t : ThreadId) (c : Context) :
    h.session.contextFor n t = .ok c ↔ h.session.contextOn n t = some c := by
  obtain ⟨_, _, _, hanswer⟩ := currentContext_agrees (hrecorded.orderly.onThread t).agrees n
  exact hanswer c

/-- What an engine had at some time is gone once it is given up; its place is used again only if the
host offers it again. -/
theorem nothing_left {h : History} (hrecorded : h.Recorded) (later : List Turn)
    (hengine : h.session.engines.get? n = some e)
    (hdropped : ∃ r ∈ (later.foldl History.next h).replies, r.Drops n) :
    (∀ t c, e.contexts.lookup t = some c →
        c.stream ∉ (later.foldl History.next h).session.own.device.streams) ∧
      (e.workspace.address.val ∉ h.session.own.device.rooms →
        (later.foldl History.next h).session.own.device.blockAt? e.workspace.address = none) := by
  obtain ⟨hlater, -, hstreams, hplaces⟩ := hrecorded.run later
  obtain ⟨r, hr, hdrops⟩ := hdropped
  have hnone := (hlater.gone r hr n hdrops).2
  refine ⟨fun t c hlookup hlive => ?_, fun hunoffered => List.find?_eq_none.2 fun b hb hstart => ?_⟩
  · have hcontext : h.session.contextOn n t = some c := (contextOn_of_get? hengine t).trans hlookup
    have htaken : h.session.TakenStream n c.stream :=
      ⟨Slots.lt_of_get? hengine, Nat.le_of_lt_succ (hrecorded.orderly.streams.lt_fresh hcontext),
        fun _ => ⟨t, c, hcontext, rfl⟩⟩
    obtain ⟨t', c', hheld, -⟩ := (hstreams n c.stream htaken).held hlive
    rw [contextOn, hnone] at hheld
    cases hheld
  · obtain ⟨block, hblock⟩ := hrecorded.orderly.workspaces.placed n e hengine
    have hbelow := hrecorded.orderly.workspaces.laid.lt_of_blockAt? hblock
    have htaken : h.session.TakenPlace n e.workspace.address :=
      ⟨Slots.lt_of_get? hengine, hbelow, hunoffered, fun _ _ _ => ⟨e, hengine, rfl⟩⟩
    obtain ⟨e', hheld, -⟩ := (hplaces n _ htaken).held b hb (of_decide_eq_true hstart)
    rw [hnone] at hheld
    cases hheld

/-- A block is live exactly where an engine that lives has its workspace. -/
theorem WorkspacesOwned.blockAt?_iff (h : s.WorkspacesOwned) (a : Address) :
    (∃ b, s.own.device.blockAt? a = some b) ↔
      ∃ n e, s.engines.get? n = some e ∧ e.workspace.address = a := by
  constructor
  · rintro ⟨b, hb⟩
    obtain ⟨n, e, hengine, haddress⟩ := h.accounted b (HostDevice.mem_of_blockAt? hb)
    have hstart := HostDevice.start_of_blockAt? hb
    exact ⟨n, e, hengine, congrArg Address.mk (haddress.trans hstart)⟩
  · rintro ⟨n, e, hengine, rfl⟩
    exact h.placed n e hengine

theorem nothing_taken (h : s.Orderly) {kernels : KernelRegistry}
    {config : Config} {cause : SessionError}
    (hfailed : (openEngine kernels config (s.onThread thread)).1 = .error cause) :
    (openEngine kernels config (s.onThread thread)).2.own.device.streams = s.own.device.streams ∧
    (openEngine kernels config (s.onThread thread)).2.own.device.blocks = s.own.device.blocks := by
  have houtcome := create_outcome (h.onThread thread) kernels config
  rw [answer, Act.bind_of_error (Prod.ext hfailed rfl)] at houtcome
  cases houtcome with
  | refused hstays => exact ⟨hstays.device.streams, hstays.device.blocks⟩

/-- Whatever threads do, and wherever the host offers room, each thread has on each engine the
context that it was given there, on a stream of its own; the live streams are those of these
contexts and the live blocks are the workspaces of the engines that live, and an engine that is
given up or does not come up leaves neither a stream nor its workspace. The place of a workspace is
used again only if the host offers it again. -/
theorem contexts_isolated (emulated : List DeviceKind) (rooms : List Nat) (turns : List Turn) :
    let s := (history emulated rooms turns).session
    let replies := (history emulated rooms turns).replies
    (∀ n t c, s.contextFor n t = .ok c ↔ installed replies n t = some c) ∧
    (∀ n t, (∃ c, s.contextFor n t = .ok c) ↔
      (∃ r ∈ replies, r.Binds n t) ∧ ¬ ∃ r ∈ replies, r.Drops n) ∧
    (s.own.device.streams.Nodup ∧
      ∀ x, x ∈ s.own.device.streams ↔ ∃ n t c, s.contextFor n t = .ok c ∧ c.stream = x) ∧
    (∀ n n' t t' c c', s.contextFor n t = .ok c → s.contextFor n' t' = .ok c' →
      c.stream = c'.stream → n = n' ∧ t = t') ∧
    (∀ a, (∃ b, s.own.device.blockAt? a = some b) ↔
      ∃ n e, s.engines.get? n = some e ∧ e.workspace.address = a) ∧
    s.own.device.rooms <:+ rooms ∧
    (∀ later n e, s.engines.get? n = some e →
      (∃ r ∈ (history emulated rooms (turns ++ later)).replies, r.Drops n) →
      (∀ t c, e.contexts.lookup t = some c →
        c.stream ∉ (history emulated rooms (turns ++ later)).session.own.device.streams) ∧
      (e.workspace.address.val ∉ s.own.device.rooms →
        (history emulated rooms (turns ++ later)).session.own.device.blockAt?
          e.workspace.address = none)) ∧
    ∀ thread kernels config cause,
      (openEngine kernels config (s.onThread thread)).1 = .error cause →
      (openEngine kernels config (s.onThread thread)).2.own.device.streams = s.own.device.streams ∧
        (openEngine kernels config (s.onThread thread)).2.own.device.blocks =
          s.own.device.blocks := by
  intro s replies
  obtain ⟨hrecorded, hrooms, -⟩ := (recorded_start emulated rooms).run turns
  have hanswer : ∀ n t c, s.contextFor n t = .ok c ↔ s.contextOn n t = some c :=
    hrecorded.contextFor_eq_ok_iff
  refine ⟨fun n t c => ?_, fun n t => ?_, ⟨hrecorded.orderly.streams.distinct, fun x => ?_⟩,
    fun n n' t t' c c' => ?_, hrecorded.orderly.workspaces.blockAt?_iff, hrooms,
    fun later n e hengine hdropped => ?_, fun thread kernels config cause hfailed => ?_⟩
  · rw [hanswer, show s.contextOn n t = installed replies n t from hrecorded.context n t]
  · simp only [hanswer, ← Option.isSome_iff_exists]
    exact hrecorded.bound n t
  · simp only [hanswer]
    exact hrecorded.orderly.streams.live x
  · rw [hanswer, hanswer]
    exact hrecorded.orderly.streams.owned n n' t t' c c'
  · have hlater : history emulated rooms (turns ++ later) =
        later.foldl History.next (history emulated rooms turns) := List.foldl_append
    rw [hlater] at hdropped ⊢
    exact nothing_left hrecorded later hengine hdropped
  · exact nothing_taken hrecorded.orderly hfailed

end Session

end TensorDataflow
