import TensorDataflow.Proofs.Engine.Sharing
/-!
# Where buffers lie

A buffer is tagged with the device of the engine that asked for it, but it lies on the device that
was selected last for the thread, and any engine that binds the thread selects its own. The two are
the same where the engines of a thread agree; where they do not, a buffer may be tagged with the
processor and lie on an accelerator, and then it cannot be released.

No two tensors share a block and no new block starts where one is live, so a buffer stays where it
is until its tensor is moved. A tensor is moved at most once, from the processor to an accelerator,
so even where the host hands out a place again it never comes back to a buffer that it has given up.
-/

namespace TensorDataflow

namespace Workshop

/-! ### Every buffer has a block of its own -/

/-- Every buffer is a block, and no two tensors share one. -/
structure Housed (w : Workshop) : Prop where
  laid : w.device.Laid
  live : ∀ p b, w.bufferAt p = some b → ∃ block, w.device.blockAt? b.address = some block
  apart : ∀ p q b b', w.bufferAt p = some b → w.bufferAt q = some b' →
    b.address = b'.address → p = q

theorem Housed.ne_room {w : Workshop} (h : w.Housed) {p : Nat × Nat} {b : Buffer}
    (hb : w.bufferAt p = some b) (size : Nat) : b.address.val ≠ w.device.room size := by
  obtain ⟨block, hblock⟩ := h.live p b hb
  exact h.laid.ne_room_of_blockAt? hblock size

theorem Binding.bufferAt {n : Nat} {c : Context} {w w' : Workshop} (h : Binding n c w w') :
    w'.bufferAt = w.bufferAt := by
  funext p
  rw [Workshop.bufferAt, Workshop.bufferAt, tensorAt, tensorAt, h.graphs]

theorem Binding.housed {n : Nat} {c : Context} {w w' : Workshop} (h : Binding n c w w')
    (hw : w.Housed) : w'.Housed where
  laid := h.device.laid hw.laid
  live p b hb := by
    rw [h.bufferAt] at hb
    obtain ⟨block, hblock⟩ := hw.live p b hb
    exact ⟨block, h.device.kept hw.laid b.address block hblock (Option.some_ne_none _).symm⟩
  apart := by
    rw [h.bufferAt]
    exact hw.apart

namespace Housing

variable {n : Nat} {c : Context} {p : Nat × Nat} {t : Tensor} {size : Nat} {w w' : Workshop}
  (h : Housing n c p t size w w')

include h

theorem bufferAt :
    w'.bufferAt = Function.update w.bufferAt p (some ⟨⟨w.device.room size⟩, size⟩) := by
  funext q
  rw [Workshop.bufferAt, h.tensors]
  by_cases hq : q = p
  · rw [hq, Function.update_self, Function.update_self]
    rfl
  · rw [Function.update_of_ne hq, Function.update_of_ne hq, Workshop.bufferAt]

theorem bufferAt_of_ne {q : Nat × Nat} (hq : q ≠ p) : w'.bufferAt q = w.bufferAt q := by
  rw [h.bufferAt, Function.update_of_ne hq]

theorem bufferAt_self {b : Buffer} (hb : w'.bufferAt p = some b) :
    b = ⟨⟨w.device.room size⟩, size⟩ := by
  rw [h.bufferAt, Function.update_self] at hb
  exact (Option.some.inj hb).symm

theorem contextAt : w'.contextAt = w.contextAt := by
  funext q
  rw [Workshop.contextAt, Workshop.contextAt, h.engines]

theorem selection : w'.device.selection = w.device.selection :=
  HostDevice.selection_congr h.device.selected

theorem bufferAt_of_gone {a : Address} (ha : t.data.map Buffer.address = some a) :
    ∃ b, w.bufferAt p = some b ∧ b.address = a := by
  obtain ⟨b, hb, haddress⟩ := Option.map_eq_some_iff.1 ha
  exact ⟨b, by rw [Workshop.bufferAt, h.tensor, Option.bind_some, hb], haddress⟩

variable (hw : w.Housed)

include hw

theorem blockAt? : ∃ block, w'.device.blockAt? ⟨w.device.room size⟩ = some block ∧
    block.location = w.device.landing w.machine.thread := by
  have hgone : t.data.map Buffer.address ≠ some ⟨w.device.room size⟩ := by
    intro hmap
    obtain ⟨b, hb, haddress⟩ := h.bufferAt_of_gone hmap
    exact hw.ne_room hb size (congrArg Address.val haddress)
  exact ⟨_, (h.device.kept _ hgone).trans (w.device.blockAt?_extended _ _), rfl⟩

theorem blockAt?_of_ne {q : Nat × Nat} (hq : q ≠ p) {b : Buffer} (hb : w.bufferAt q = some b)
    {block : Block} (hblock : w.device.blockAt? b.address = some block) :
    w'.device.blockAt? b.address = some block := by
  refine h.device.follows.kept hw.laid b.address block hblock fun hmap => hq ?_
  obtain ⟨b', hb', haddress⟩ := h.bufferAt_of_gone hmap
  exact hw.apart q p b b' hb hb' haddress.symm

theorem address_ne {q : Nat × Nat} (hq : q ≠ p) {b b' : Buffer} (hb : w'.bufferAt p = some b)
    (hb' : w'.bufferAt q = some b') : b.address ≠ b'.address := by
  intro hsame
  rw [h.bufferAt_of_ne hq] at hb'
  rw [h.bufferAt_self hb] at hsame
  exact hw.ne_room hb' size (congrArg Address.val hsame).symm

theorem housed : w'.Housed where
  laid := h.device.follows.laid hw.laid
  live q b hb := by
    by_cases hq : q = p
    · obtain ⟨block, hblock, -⟩ := h.blockAt? hw
      rw [hq] at hb
      rw [h.bufferAt_self hb]
      exact ⟨block, hblock⟩
    · rw [h.bufferAt_of_ne hq] at hb
      obtain ⟨block, hblock⟩ := hw.live q b hb
      exact ⟨block, h.blockAt?_of_ne hw hq hb hblock⟩
  apart q q' b b' hb hb' hsame := by
    by_cases hq : q = p
    · by_cases hq' : q' = p
      · rw [hq, hq']
      · exact absurd hsame (h.address_ne hw hq' (hq ▸ hb) hb')
    · by_cases hq' : q' = p
      · exact absurd hsame.symm (h.address_ne hw hq (hq' ▸ hb') hb)
      · rw [h.bufferAt_of_ne hq] at hb
        rw [h.bufferAt_of_ne hq'] at hb'
        exact hw.apart q q' b b' hb hb' hsame

end Housing

/-! ### What is selected -/

/-- The device selected for a thread is that of a context which some engine has for it. -/
def Chosen (w : Workshop) (thread : ThreadId) : Prop :=
  ∃ n c, w.contextAt (n, thread) = some c ∧ w.device.selection thread = (c.device, c.deviceId)

theorem Binding.chosen {n : Nat} {c : Context} {w w' : Workshop} (h : Binding n c w w')
    (hw : ∀ k thread c', w.contextAt (k, thread) = some c' → w.Chosen thread) {k : Nat}
    {thread : ThreadId} {c' : Context}
    (hc' : w'.contextAt (k, thread) = some c') : w'.Chosen thread := by
  by_cases hthread : thread = w.machine.thread
  · -- the engine that binds the thread overrides whatever another one has selected for it
    rw [hthread]
    exact ⟨n, c, by rw [h.contexts, Function.update_self],
      by rw [h.selection, Function.update_self]⟩
  · have hcontexts : ∀ l, w'.contextAt (l, thread) = w.contextAt (l, thread) :=
      fun l => by rw [h.contexts, Function.update_of_ne (by simp [hthread])]
    rw [hcontexts] at hc'
    obtain ⟨l, c₁, hc₁, hselected⟩ := hw k thread c' hc'
    exact ⟨l, c₁, (hcontexts l).trans hc₁,
      by rw [h.selection, Function.update_of_ne hthread, hselected]⟩

/-! ### Sound states -/

/-- What every state has that calls lead to. -/
structure Sound (w : Workshop) : Prop where
  calm : w.machine.Calm 0
  backends : ∀ e ∈ w.engines, e.backend = 0
  housed : w.Housed
  chosen : ∀ n thread c, w.contextAt (n, thread) = some c → w.Chosen thread

theorem Sound.on {w : Workshop} (h : w.Sound) (thread : ThreadId) : (w.on thread).Sound :=
  ⟨⟨h.calm.there, h.calm.faults⟩, h.backends,
    ⟨h.housed.laid, h.housed.live, h.housed.apart⟩, h.chosen⟩

theorem Move.sound {w w' : Workshop} (h : Move w w') (hw : w.Sound) : w'.Sound := by
  cases h with
  | binding n c h =>
      exact ⟨h.calm, h.backends, h.housed hw.housed, fun k thread c' hc' => h.chosen hw.chosen hc'⟩
  | housing n h =>
      obtain ⟨c, p, t, size, h⟩ := h
      refine ⟨h.calm, h.engines ▸ hw.backends, h.housed hw.housed, ?_⟩
      rw [h.contextAt]
      intro k thread c' hc'
      rw [Chosen, h.contextAt, h.selection]
      exact hw.chosen k thread c' hc'

section Induct

variable {P : Workshop → Prop} (hmove : ∀ w w', w.Sound → Move w w' → P w → P w')

include hmove

theorem moves_induct {w w' : Workshop} (h : Relation.ReflTransGen Move w w') (hw : w.Sound ∧ P w) :
    w'.Sound ∧ P w' := by
  induction h with
  | refl => exact hw
  | tail _ hlast ih => exact ⟨hlast.sound ih.1, hmove _ _ ih.1 hlast ih.2⟩

/-- A property that every move keeps in sound states is kept by every run. -/
theorem run_induct (hon : ∀ w thread, P w → P (w.on thread)) {calls : List (ThreadId × Call)}
    {w w' : Workshop} (hw : w.Sound ∧ P w) (h : w.run calls = some w') : w'.Sound ∧ P w' := by
  induction calls generalizing w with
  | nil =>
      obtain rfl := Option.some.inj h
      exact hw
  | cons call calls ih =>
      obtain ⟨w₁, hstep, hrest⟩ := Option.bind_eq_some_iff.1 h
      have hon₁ : (w.on call.1).Sound ∧ P (w.on call.1) := ⟨hw.1.on call.1, hon w call.1 hw.2⟩
      exact ih (moves_induct hmove (step_moves hon₁.1.backends hon₁.1.calm hstep) hon₁) hrest

end Induct

theorem step_sound {w w' : Workshop} (hw : w.Sound) {call : Call}
    (h : w.step call = some w') : w'.Sound :=
  (moves_induct (fun _ _ _ _ _ => trivial) (step_moves hw.backends hw.calm h) ⟨hw, trivial⟩).1

theorem run_sound {w w' : Workshop} (hw : w.Sound) {calls : List (ThreadId × Call)}
    (h : w.run calls = some w') : w'.Sound :=
  (run_induct (fun _ _ _ _ _ => trivial) (fun _ _ _ => trivial) ⟨hw, trivial⟩ h).1

/-! ### A buffer stays where it is -/

/-- A tensor that holds a buffer, with its tag and the location of its block. -/
def Lodged (p : Nat × Nat) (b : Buffer) (tag : DeviceKind) (location : Location)
    (w : Workshop) : Prop :=
  (∃ t, w.tensorAt p = some t ∧ t.data = some b ∧ t.device = tag) ∧
  ∃ block, w.device.blockAt? b.address = some block ∧ block.location = location

/-- A tensor that has been moved to an accelerator, to another buffer. -/
def Outgrown (p : Nat × Nat) (b : Buffer) (w : Workshop) : Prop :=
  ∃ t b', w.tensorAt p = some t ∧ t.data = some b' ∧ b' ≠ b ∧ t.device.isCpu = false

theorem Lodged.bufferAt {p : Nat × Nat} {b : Buffer} {tag : DeviceKind} {location : Location}
    {w : Workshop} (h : Lodged p b tag location w) : w.bufferAt p = some b := by
  obtain ⟨⟨t, ht, hdata, -⟩, -⟩ := h
  rw [Workshop.bufferAt, ht, Option.bind_some, hdata]

section Lodged

variable {q : Nat × Nat} {b : Buffer} {tag : DeviceKind} {location : Location} {w w' : Workshop}

theorem Binding.lodged {n : Nat} {c : Context} (h : Binding n c w w') (hw : w.Housed)
    (hlodged : Lodged q b tag location w) : Lodged q b tag location w' := by
  obtain ⟨⟨t, ht, hdata, htag⟩, block, hblock, hlocation⟩ := hlodged
  refine ⟨⟨t, ?_, hdata, htag⟩, block, ?_, hlocation⟩
  · rw [tensorAt, h.graphs]
    exact ht
  · exact h.device.kept hw.laid b.address block hblock (Option.some_ne_none _).symm

section Housing

variable {n : Nat} {c : Context} {p : Nat × Nat} {t : Tensor} {size : Nat}
  (h : Housing n c p t size w w') (hw : w.Housed)

include h hw

theorem Housing.lodged_of_ne (hq : q ≠ p) (hlodged : Lodged q b tag location w) :
    Lodged q b tag location w' := by
  have hbuffer := hlodged.bufferAt
  obtain ⟨⟨t, ht, hdata, htag⟩, block, hblock, hlocation⟩ := hlodged
  refine ⟨⟨t, ?_, hdata, htag⟩, block, h.blockAt?_of_ne hw hq hbuffer hblock, hlocation⟩
  rw [h.tensors, Function.update_of_ne hq, ht]

theorem Housing.outgrown (hb : w.bufferAt p = some b) : Outgrown p b w' := by
  have hdata : t.data = some b := by
    rw [Workshop.bufferAt, h.tensor] at hb
    exact hb
  refine ⟨_, _, by rw [h.tensors, Function.update_self], rfl, fun hsame => ?_,
    (h.promotes b hdata).2⟩
  exact hw.ne_room hb size (congrArg (fun b : Buffer => b.address.val) hsame).symm

/-- The tensor that a move houses has the engine's tag and lies where the thread's blocks do. -/
theorem Housing.lodged_self (hb : w'.bufferAt p = some b) :
    Lodged p b c.device (w.device.landing w.machine.thread) w' := by
  obtain rfl := h.bufferAt_self hb
  exact ⟨⟨_, by rw [h.tensors, Function.update_self], rfl, rfl⟩, h.blockAt? hw⟩

theorem Housing.tracked (htracked : Lodged q b tag location w ∨ Outgrown q b w) :
    Lodged q b tag location w' ∨ Outgrown q b w' := by
  by_cases hq : q = p
  · right
    subst hq
    rcases htracked with hlodged | ⟨t', b', ht', hdata, -, haccelerator⟩
    · exact h.outgrown hw hlodged.bufferAt
    · -- a tensor on an accelerator that has a buffer is not given another one
      obtain rfl : t' = t := Option.some.inj (ht'.symm.trans h.tensor)
      rw [(h.promotes b' hdata).1] at haccelerator
      cases haccelerator
  · rcases htracked with hlodged | ⟨t', b', ht', houtgrown⟩
    · exact .inl (h.lodged_of_ne hw hq hlodged)
    · exact .inr ⟨t', b', by rw [h.tensors, Function.update_of_ne hq, ht'], houtgrown⟩

end Housing

theorem Move.tracked (h : Move w w') (hw : w.Housed)
    (htracked : Lodged q b tag location w ∨ Outgrown q b w) :
    Lodged q b tag location w' ∨ Outgrown q b w' := by
  cases h with
  | binding n c h =>
      rcases htracked with hlodged | ⟨t, b', ht, houtgrown⟩
      · exact .inl (h.lodged hw hlodged)
      · refine .inr ⟨t, b', ?_, houtgrown⟩
        rw [tensorAt, h.graphs]
        exact ht
  | housing n h =>
      obtain ⟨c, p, t, size, h⟩ := h
      exact h.tracked hw htracked

end Lodged

/-- What houses a tensor's new buffer in a call: the engine's context gives the tag, and what is
selected for the thread gives the location. -/
theorem houses_lodged {n : Nat} {w w' : Workshop} (hw : w.Sound)
    (h : Relation.ReflTransGen (Houses n) w w') {p : Nat × Nat} {b : Buffer}
    (hfresh : w.bufferAt p ≠ some b) (hb : w'.bufferAt p = some b) :
    ∃ c, w.contextAt (n, w.machine.thread) = some c ∧
    Lodged p b c.device (w.device.landing w.machine.thread) w' := by
  have hchain : w'.Sound ∧ w'.machine.thread = w.machine.thread ∧ w'.contextAt = w.contextAt ∧
      w'.device.selection = w.device.selection ∧
      (w'.bufferAt p = some b → ∃ c, w.contextAt (n, w.machine.thread) = some c ∧
        Lodged p b c.device (w.device.landing w.machine.thread) w') := by
    clear hb
    -- contexts and selection are those of the start all along, so every
    -- new buffer gets the same tag and location
    induction h with
    | refl => exact ⟨hw, rfl, rfl, rfl, fun hb => absurd hb hfresh⟩
    | @tail w₁ w₂ _ hlast ih =>
        obtain ⟨hsound, hthread, hcontexts, hselection, hlodged⟩ := ih
        obtain ⟨c, q, t, size, hlast⟩ := hlast
        refine ⟨Move.sound (.housing n ⟨c, q, t, size, hlast⟩) hsound, hlast.thread.trans hthread,
          hlast.contextAt.trans hcontexts, hlast.selection.trans hselection, fun hb => ?_⟩
        by_cases hq : p = q
        · subst hq
          have hself := hlast.lodged_self hsound.housed hb
          rw [HostDevice.landing, hselection, hthread] at hself
          exact ⟨c, by rw [← hcontexts, ← hthread, hlast.context], hself⟩
        · rw [hlast.bufferAt_of_ne hq] at hb
          obtain ⟨c', hc', hlodged⟩ := hlodged hb
          exact ⟨c', hc', hlast.lodged_of_ne hsound.housed hq hlodged⟩
  exact hchain.2.2.2.2 hb

/-! ### The device of a buffer -/

/-- Before any call: there is no engine yet, and a buffer that a tensor has is a block of its
own. -/
structure Start (w : Workshop) : Prop where
  engines : w.engines = []
  calm : w.machine.Calm 0
  housed : w.Housed

theorem Start.sound {w : Workshop} (h : w.Start) : w.Sound := by
  refine ⟨h.calm, ?_, h.housed, fun n thread c hc => ?_⟩
  · rw [h.engines]
    intro e he
    cases he
  · rw [contextAt, h.engines] at hc
    cases hc

theorem start_fresh (emulated : List DeviceKind) (origin : Nat) (rooms : List Nat)
    {graphs : List Graph} (hfree : ∀ g ∈ graphs, ∀ t ∈ g.tensors, t.data = none) :
    Start { machine := ⟨[.fresh emulated origin rooms], 0⟩, graphs } := by
  have hnone : ∀ p b,
      bufferAt { machine := ⟨[.fresh emulated origin rooms], 0⟩, graphs } p ≠ some b := by
    intro p b hb
    obtain ⟨t, ht, hdata⟩ := Option.bind_eq_some_iff.1 hb
    obtain ⟨g, hg, ht⟩ := Option.bind_eq_some_iff.1 ht
    rw [hfree g (List.mem_of_getElem? hg) t (List.mem_of_getElem? ht)] at hdata
    cases hdata
  refine ⟨rfl, ⟨Nat.zero_lt_one, rfl⟩, ⟨.nil, fun b hb => ?_⟩, fun p b hb => absurd hb (hnone p b),
    fun p _ b _ hb => absurd hb (hnone p b)⟩
  cases hb

/-- Whatever engines and threads have been called before, a call that gives a tensor a new buffer
tags it with the device of the engine's context, and the buffer lies on the device that is selected
for the thread, which is that of a context some engine has for the thread. Both stay so as long as
the tensor keeps the buffer, whatever is called later, and the buffer can then be released exactly
if it is not the case that the tag is the processor and the device an accelerator. -/
theorem realise_lodges {w₀ w w' w'' : Workshop} (hstart : w₀.Start)
    {before after : List (ThreadId × Call)} (hbefore : w₀.run before = some w)
    {thread : ThreadId} {n j : Nat}
    (hcall : (w.on thread).step (.realise n j) = some w') {p : Nat × Nat}
    {b : Buffer} (hfresh : w.bufferAt p ≠ some b) (hb : w'.bufferAt p = some b)
    (hafter : w'.run after = some w'') :
    ∃ c, w.contextAt (n, thread) = some c ∧ w.Chosen thread ∧
      ((∀ k c', w.contextAt (k, thread) = some c' → c'.device = c.device) →
        (w.device.selection thread).1 = c.device) ∧
      ∀ t, w''.tensorAt p = some t → t.data = some b →
        t.device = c.device ∧ w''.device.location? b.address =
          some (.device (w.device.selection thread).1 (w.device.selection thread).2) ∧
          ∀ e ∈ w''.engines, ∀ other, (Tensor.releaseData e.memory ((w''.on other).machine, t)).1 =
            .ok () ↔ (c.device.isCpu = true → (w.device.selection thread).1.isCpu = true) := by
  have hsound : w.Sound := run_sound hstart.sound hbefore
  have hon := hsound.on thread
  obtain ⟨c, hc, hlodged⟩ := houses_lodged hon (realise_moves hon.backends hon.calm hcall) hfresh hb
  obtain ⟨hsound'', htracked⟩ := run_induct (fun _ _ hw hmove => hmove.tracked hw.housed)
    (fun _ _ htracked => htracked) ⟨step_sound hon hcall, .inl hlodged⟩ hafter
  refine ⟨c, hc, hsound.chosen n thread c hc, fun hagree => ?_, fun t ht hdata => ?_⟩
  · obtain ⟨k, c', hc', hselected⟩ := hsound.chosen n thread c hc
    rw [hselected]
    exact hagree k c' hc'
  · rcases htracked with ⟨⟨t', ht', _, htag⟩, block, hblock, hlocation⟩ | ⟨t', b', ht', hb', hne, -⟩
    · obtain rfl : t' = t := Option.some.inj (ht'.symm.trans ht)
      change block.location =
        .device (w.device.selection thread).1 (w.device.selection thread).2 at hlocation
      refine ⟨htag, ?_, fun e he other => ?_⟩
      · rw [hsound''.housed.laid.location?_of_blockAt? hblock, hlocation]
      · have hzero : e.backend = 0 := hsound''.backends e he
        have hblock' : ((w''.on other).machine.device e.backend).blockAt? b.address =
            some block := by
          rw [hzero]
          exact hblock
        rw [Engine.releaseData_eq_ok_iff (hzero ▸ (hsound''.on other).calm) hdata hblock',
          htag, hlocation]
        cases c.device.isCpu with
        | true => simp [Location.hostAccessible]
        | false => simp [Location.deviceResident]
    · -- the buffer on the accelerator is not the one that the tensor holds
      obtain rfl : t' = t := Option.some.inj (ht'.symm.trans ht)
      exact absurd (Option.some.inj (hb'.symm.trans hdata)) hne

def after (w : Workshop) (calls : List (ThreadId × Call)) : Workshop := (w.run calls).getD w

theorem run_eq_after {w : Workshop} {calls : List (ThreadId × Call)}
    (h : (w.run calls).isSome = true) : w.run calls = some (w.after calls) := by
  obtain ⟨w', hw'⟩ := Option.isSome_iff_exists.1 h
  rw [after, hw', Option.getD_some]

theorem step_eq_after {w : Workshop} {thread : ThreadId}
    {call : Call} (h : (w.run [(thread, call)]).isSome = true) :
    (w.on thread).step call = some (w.after [(thread, call)]) := by
  rw [← run_eq_after h, run]
  cases (w.on thread).step call with
  | none => rfl
  | some w' => rfl

/-- One tensor without data, and a device that emulates an accelerator. -/
def bench : Workshop :=
  { machine := ⟨[.fresh [.nvidia] 0x10000], 0⟩
    graphs :=
      [{ tensors := [{ id := 1, kind := .f32, shape := ⟨[.const 4]⟩, stride := ⟨[.const 1]⟩ }] }] }

def engineOn (device : DeviceKind) : Call := .create .builtin ⟨device, 0, ⟨64⟩, false⟩

def agreed : Workshop :=
  bench.after [(0, engineOn .cpu), (0, engineOn .nvidia), (0, .switch 0 .nvidia 0)]

/-- Where the engines of a thread agree, the buffer lies on their device and can be released later,
also when one of them has moved on. -/
theorem realise_lodges_agreed :
    bench.Start ∧ bench.run [(0, engineOn .cpu), (0, engineOn .nvidia), (0, .switch 0 .nvidia 0)] =
      some agreed ∧ agreed.contextAt (0, 0) = some ⟨.nvidia, 0, 3⟩ ∧
      ∃ w' w'' b, (agreed.on 0).step (.realise 0 0) = some w' ∧ agreed.bufferAt (0, 0) ≠ some b ∧
      w'.bufferAt (0, 0) = some b ∧ w'.run [(0, .switch 1 .cpu 0), (1, .bind 1 .cpu 0)] = some w'' ∧
        ∃ t, w''.tensorAt (0, 0) = some t ∧ t.data = some b ∧ t.device = .nvidia ∧
        w''.device.location? b.address = some (.device .nvidia 0) ∧
          ∀ e ∈ w''.engines, ∀ other,
          (Tensor.releaseData e.memory ((w''.on other).machine, t)).1 = .ok () := by
  have hstart : bench.Start := start_fresh [.nvidia] 0x10000 [] (by decide)
  have hbefore : bench.run [(0, engineOn .cpu), (0, engineOn .nvidia), (0, .switch 0 .nvidia 0)] =
      some agreed := run_eq_after (by decide +kernel)
  have hcontext : agreed.contextAt (0, 0) = some ⟨.nvidia, 0, 3⟩ := by decide +kernel
  have hselected : agreed.device.selection 0 = (.nvidia, 0) := by decide +kernel
  have hcall : (agreed.on 0).step (.realise 0 0) = some (agreed.after [(0, .realise 0 0)]) :=
    step_eq_after (by decide +kernel)
  have hfresh : agreed.bufferAt (0, 0) ≠ some ⟨⟨196864⟩, 16⟩ := by decide +kernel
  have hb : (agreed.after [(0, .realise 0 0)]).bufferAt (0, 0) = some ⟨⟨196864⟩, 16⟩ := by
    decide +kernel
  have hafter := @run_eq_after (agreed.after [(0, .realise 0 0)])
    [(0, .switch 1 .cpu 0), (1, .bind 1 .cpu 0)] (by decide +kernel)
  obtain ⟨c, hc, _, _, hlater⟩ := realise_lodges hstart hbefore hcall hfresh hb hafter
  obtain rfl : c = ⟨.nvidia, 0, 3⟩ := Option.some.inj (hc.symm.trans hcontext)
  obtain ⟨htag, hlocation, hrelease⟩ := hlater
    { id := 1
      kind := .f32
      shape := ⟨[.const 4]⟩
      stride := ⟨[.const 1]⟩
      device := .nvidia
      data := some ⟨⟨196864⟩, 16⟩ }
    (by decide +kernel) rfl
  rw [hselected] at hlocation hrelease
  exact ⟨hstart, hbefore, hcontext, _, _, _, hcall, hfresh, hb, hafter, _, by decide +kernel, rfl,
    htag, hlocation, fun e he other => (hrelease e he other).2 id⟩

/-- The second engine has selected its own device for the thread: the first one's buffer is tagged
with the processor, lies on the accelerator and cannot be released. -/
theorem realise_lodges_elsewhere :
    ∃ w w' t b, bench.run [(0, engineOn .cpu), (0, engineOn .nvidia)] = some w ∧
    w.contextAt (0, 0) = some ⟨.cpu, 0, 1⟩ ∧ w.bufferAt (0, 0) = none ∧
      (w.on 0).step (.realise 0 0) = some w' ∧ w'.tensorAt (0, 0) = some t ∧ t.data = some b ∧
      t.device = .cpu ∧ w'.device.location? b.address = some (.device .nvidia 0) ∧
      w'.engines[0]?.map (fun e => (Tensor.releaseData e.memory (w'.machine, t)).1) =
        some (.error (.device (.native .badParam))) := by
  refine ⟨bench.after [(0, engineOn .cpu), (0, engineOn .nvidia)],
    (bench.after [(0, engineOn .cpu), (0, engineOn .nvidia)]).after [(0, .realise 0 0)],
    { id := 1
      kind := .f32
      shape := ⟨[.const 4]⟩
      stride := ⟨[.const 1]⟩
      data := some ⟨⟨196864⟩, 16⟩ },
    ⟨⟨196864⟩, 16⟩, run_eq_after ?_, ?_, ?_, step_eq_after ?_, ?_, rfl, rfl, ?_, ?_⟩
  · decide +kernel
  · decide +kernel
  · decide +kernel
  · decide +kernel
  · decide +kernel
  · decide +kernel
  · decide +kernel

end Workshop

end TensorDataflow
