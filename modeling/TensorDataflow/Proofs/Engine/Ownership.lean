import TensorDataflow.Proofs.Engine.Keeping
import TensorDataflow.Proofs.Engine.Sharing
/-!
# Every buffer has one owner

One engine serves all threads, and tensors get buffers, move them between the host and devices and
give them up, one at a time or a graph at a time. With one engine the device that is selected for a
thread is that of its context, so a buffer lies where its tensor's tag says; every buffer is then a
block of its own, and a graph's buffers can be given up from any thread.
-/

namespace TensorDataflow

namespace Location

/-- Where the tag of a tensor says that its buffer is: in reach of the host for the processor, on
the device itself for an accelerator. -/
def Fits (tag : DeviceKind) (location : Location) : Prop :=
  (location.hostAccessible = true ↔ tag.isCpu = true) ∧
  (tag.isCpu = false → ∃ id, location = device tag id)

theorem fits_device (kind : DeviceKind) (id : Nat) : (device kind id).Fits kind :=
  ⟨Iff.rfl, fun _ => ⟨id, rfl⟩⟩

theorem fits_host : host.Fits .cpu := ⟨⟨fun _ => rfl, fun _ => rfl⟩, fun h => Bool.noConfusion h⟩

theorem Fits.accepted {tag : DeviceKind} {location : Location} (h : location.Fits tag) :
    (if tag.isCpu then location.hostAccessible else location.deviceResident) = true := by
  cases htag : tag.isCpu with
  | true =>
      rw [if_pos rfl]
      exact h.1.2 htag
  | false =>
      obtain ⟨id, rfl⟩ := h.2 htag
      rfl

end Location

/-! ### Holdings -/

/-- The tag and the buffer of a tensor that has one. -/
def Tensor.holding (t : Tensor) : Option (DeviceKind × Buffer) := t.data.map fun b => (t.device, b)

theorem Tensor.holding_map (t : Tensor) :
    t.holding.map (fun h => h.2.address) = t.data.map Buffer.address := by
  rw [holding, Option.map_map]
  rfl

/-- Every buffer that is held is a block of its own, as large as it says and where its tag says; so
is the workspace, and there are no other blocks. -/
structure Owned (d : HostDevice) (workspace : Buffer)
    (holding : Nat × Nat → Option (DeviceKind × Buffer)) : Prop where
  laid : d.Laid
  live : ∀ p tag b, holding p = some (tag, b) →
    ∃ block, d.blockAt? b.address = some block ∧ block.size = max b.size 1 ∧ block.location.Fits tag
  apart : ∀ p q tag tag' b b', holding p = some (tag, b) → holding q = some (tag', b') →
    b.address = b'.address → p = q
  scratch : ∃ block, d.blockAt? workspace.address = some block ∧ block.size = max workspace.size 1
  aside : ∀ p tag b, holding p = some (tag, b) → b.address ≠ workspace.address
  accounted : ∀ block ∈ d.blocks, block.start = workspace.address.val ∨
    ∃ p tag b, holding p = some (tag, b) ∧ block.start = b.address.val

namespace Owned

variable {d d' : HostDevice} {workspace : Buffer}
  {holding : Nat × Nat → Option (DeviceKind × Buffer)} (h : Owned d workspace holding)

include h

theorem congr (hblocks : d'.blocks = d.blocks) (hnext : d'.nextAddress = d.nextAddress) :
    Owned d' workspace holding where
  laid := h.laid.sublist (hblocks ▸ List.Sublist.refl _) (Nat.le_of_eq hnext.symm)
  live := by
    simp only [HostDevice.blockAt?, hblocks]
    exact h.live
  apart := h.apart
  scratch := by
    simp only [HostDevice.blockAt?, hblocks]
    exact h.scratch
  aside := h.aside
  accounted := hblocks ▸ h.accounted

theorem ne_room {p : Nat × Nat} {tag : DeviceKind} {b : Buffer} (hb : holding p = some (tag, b))
    (size : Nat) : b.address ≠ ⟨d.room size⟩ := by
  obtain ⟨block, hblock, -⟩ := h.live p tag b hb
  exact fun hsame => h.laid.ne_room_of_blockAt? hblock size (congrArg Address.val hsame)

theorem workspace_ne_room (size : Nat) : workspace.address ≠ ⟨d.room size⟩ := by
  obtain ⟨block, hblock, -⟩ := h.scratch
  exact fun hsame => h.laid.ne_room_of_blockAt? hblock size (congrArg Address.val hsame)

/-- A tensor gives its block up. -/
theorem rid {p : Nat × Nat} {tag : DeviceKind} {b : Buffer} (hb : holding p = some (tag, b))
    (hrid : d.Rid b.address d') : Owned d' workspace (Function.update holding p none) := by
  have hblocks : d'.blocks = d.blocks.filter fun c => c.start ≠ b.address.val :=
    hrid.blocks.trans (d.blocksBut_some b.address)
  have hothers : ∀ {q tag' b'}, Function.update holding p none q = some (tag', b') →
      q ≠ p ∧ holding q = some (tag', b') := by
    intro q tag' b' hq
    by_cases hqp : q = p
    · rw [hqp, Function.update_self] at hq
      cases hq
    · rw [Function.update_of_ne hqp] at hq
      exact ⟨hqp, hq⟩
  have hkept : ∀ a : Address, a ≠ b.address → d'.blockAt? a = d.blockAt? a :=
    fun a ha => HostDevice.blockAt?_filter hblocks fun hsame => ha (congrArg Address.mk hsame)
  refine ⟨h.laid.sublist (hblocks ▸ List.filter_sublist) (Nat.le_of_eq hrid.next.symm),
    fun q tag' b' hq => ?_, fun q q' tag' tag'' b' b'' hq hq' => ?_, ?_, fun q tag' b' hq => ?_,
    fun block hblock => ?_⟩
  · obtain ⟨hqp, hq⟩ := hothers hq
    rw [hkept _ fun hsame => hqp (h.apart q p _ _ _ _ hq hb hsame)]
    exact h.live q tag' b' hq
  · exact h.apart q q' tag' tag'' b' b'' (hothers hq).2 (hothers hq').2
  · rw [hkept _ (h.aside p tag b hb).symm]
    exact h.scratch
  · exact h.aside q tag' b' (hothers hq).2
  · rw [hblocks] at hblock
    obtain ⟨hmem, hstart⟩ := List.mem_filter.1 hblock
    obtain hworkspace | ⟨q, tag', b', hq, hsame⟩ := h.accounted block hmem
    · exact .inl hworkspace
    · refine .inr ⟨q, tag', b', ?_, hsame⟩
      have hqp : q ≠ p := by
        rintro rfl
        rw [hb] at hq
        cases hq
        exact absurd hsame (of_decide_eq_true hstart)
      rw [Function.update_of_ne hqp, hq]

/-- A tensor gets a block, in place of the one that it may have. -/
theorem swapped {p : Nat × Nat} {tag : DeviceKind} {location : Location}
    (hfits : location.Fits tag) {size : Nat}
    (hswapped : d.Swapped ((holding p).map fun held => held.2.address) size location d') :
    Owned d' workspace (Function.update holding p (some (tag, ⟨⟨d.room size⟩, size⟩))) := by
  have hcases : ∀ {q tag' b'},
      Function.update holding p (some (tag, ⟨⟨d.room size⟩, size⟩)) q = some (tag', b') →
        (q = p ∧ tag' = tag ∧ b' = ⟨⟨d.room size⟩, size⟩) ∨
        (q ≠ p ∧ holding q = some (tag', b')) := by
    intro q tag' b' hq
    by_cases hqp : q = p
    · rw [hqp, Function.update_self] at hq
      cases hq
      exact .inl ⟨hqp, rfl, rfl⟩
    · rw [Function.update_of_ne hqp] at hq
      exact .inr ⟨hqp, hq⟩
  have hgone : ∀ {a : Address}, (holding p).map (fun held => held.2.address) = some a →
      ∃ tag' b', holding p = some (tag', b') ∧ b'.address = a := by
    intro a ha
    obtain ⟨⟨tag', b'⟩, hb', haddress⟩ := Option.map_eq_some_iff.1 ha
    exact ⟨tag', b', hb', haddress⟩
  -- what is neither new nor given up is found as before
  have hkept : ∀ {a : Address} {block}, d.blockAt? a = some block →
      (holding p).map (fun held => held.2.address) ≠ some a → d'.blockAt? a = some block :=
    fun {a block} hblock ha => hswapped.replaced.follows.kept h.laid a block hblock ha
  have hnew : d'.blockAt? ⟨d.room size⟩ = some ⟨d.room size, max size 1, location⟩ := by
    refine (hswapped.replaced.kept _ fun ha => ?_).trans (d.blockAt?_extended size location)
    obtain ⟨tag', b', hb', haddress⟩ := hgone ha
    exact h.ne_room hb' size haddress
  refine ⟨hswapped.replaced.follows.laid h.laid, fun q tag' b' hq => ?_,
    fun q q' tag' tag'' b' b'' hq hq' hsame => ?_, ?_, fun q tag' b' hq => ?_,
    fun block hblock => ?_⟩
  · obtain ⟨-, rfl, rfl⟩ | ⟨hqp, hq⟩ := hcases hq
    · exact ⟨_, hnew, rfl, hfits⟩
    · obtain ⟨block, hblock, hsound⟩ := h.live q tag' b' hq
      refine ⟨block, hkept hblock fun ha => hqp ?_, hsound⟩
      obtain ⟨_, _, hb, haddress⟩ := hgone ha
      exact h.apart q p _ _ _ _ hq hb haddress.symm
  · obtain ⟨rfl, rfl, rfl⟩ | ⟨-, hq⟩ := hcases hq
    · obtain ⟨rfl, -⟩ | ⟨-, hq'⟩ := hcases hq'
      · rfl
      · exact absurd hsame.symm (h.ne_room hq' size)
    · obtain ⟨-, -, rfl⟩ | ⟨-, hq'⟩ := hcases hq'
      · exact absurd hsame (h.ne_room hq size)
      · exact h.apart q q' tag' tag'' b' b'' hq hq' hsame
  · obtain ⟨block, hblock, hsize⟩ := h.scratch
    refine ⟨block, hkept hblock fun ha => ?_, hsize⟩
    obtain ⟨tag', b', hb', haddress⟩ := hgone ha
    exact h.aside p tag' b' hb' haddress
  · obtain ⟨-, -, rfl⟩ | ⟨-, hq⟩ := hcases hq
    · exact (h.workspace_ne_room size).symm
    · exact h.aside q tag' b' hq
  · rw [hswapped.blocks, HostDevice.blocksBut, List.mem_filter] at hblock
    obtain ⟨hmem, hstays⟩ := hblock
    obtain rfl | hmem := HostDevice.mem_blocks_placed.1 hmem
    · exact .inr ⟨p, tag, _, Function.update_self .., rfl⟩
    · obtain hworkspace | ⟨q, tag', b', hq, hsame⟩ := h.accounted block hmem
      · exact .inl hworkspace
      · have hqp : q ≠ p := by
          rintro rfl
          refine of_decide_eq_true hstays ?_
          rw [hq, hsame]
          rfl
        exact .inr ⟨q, tag', b', by rw [Function.update_of_ne hqp, hq], hsame⟩

end Owned

/-! ### What is asked for one tensor -/

/-- What can be asked for one tensor. -/
inductive Deed where
  | realise | release | toHost | toDevice
  | write (host : ElementKind) (values : List (Word host.size))

def Deed.act (e : Engine) : Deed → TensorAct EngineError Unit
  | realise => Tensor.realise e.memory
  | release => Tensor.releaseData e.memory
  | toHost => Tensor.copyToHost e.memory
  | toDevice => Tensor.copyToDevice e.memory
  | write host values => Tensor.write e.memory host values

section Deed

variable {e : Engine} {m m' : Machine} {t t' : Tensor} {workspace : Buffer}
  {holding : Nat × Nat → Option (DeviceKind × Buffer)} {p : Nat × Nat}
  (hcalm : m.Calm e.backend) (howned : Owned (m.device e.backend) workspace holding)
  (hp : holding p = t.holding)

include hcalm howned hp

omit hcalm in
theorem Owned.housed {tag : DeviceKind} {location : Location} (hfits : location.Fits tag)
    {size : Nat} {d : HostDevice} (hrenewed : m.Renewed e.backend d m')
    (hswapped : (m.device e.backend).Swapped (t.data.map Buffer.address) size location d)
    (ht' : t' = { t with device := tag, data := some ⟨⟨(m.device e.backend).room size⟩, size⟩ }) :
    m'.Calm e.backend ∧ (m'.device e.backend).selected = (m.device e.backend).selected ∧
    Owned (m'.device e.backend) workspace (Function.update holding p t'.holding) := by
  rw [← t.holding_map, ← hp] at hswapped
  rw [hrenewed.device, ht']
  exact ⟨hrenewed.calm, hswapped.selected, howned.swapped hfits hswapped⟩

theorem Owned.idle (hidle : (m', t') = (m, t)) :
    m'.Calm e.backend ∧ (m'.device e.backend).selected = (m.device e.backend).selected ∧
    Owned (m'.device e.backend) workspace (Function.update holding p t'.holding) := by
  obtain ⟨rfl, rfl⟩ := Prod.mk.inj hidle
  rw [← hp, Function.update_eq_self]
  exact ⟨hcalm, rfl, howned⟩

/-- Whatever is asked for a tensor, if no native call fails every buffer that is then held is a
block of its own again. -/
theorem Owned.deed (hselected : ∀ c, e.contextOf m.thread = .ok c →
      (m.device e.backend).selection m.thread = (c.device, c.deviceId)) {deed : Deed}
    (h : settled (deed.act e (m, t)) = some (m', t')) :
    m'.Calm e.backend ∧ (m'.device e.backend).selected = (m.device e.backend).selected ∧
    Owned (m'.device e.backend) workspace (Function.update holding p t'.holding) := by
  -- what is placed on the device of the thread's context lies where the context's tag says
  have hlanding : ∀ c, e.contextOf m.thread = .ok c →
      ((m.device e.backend).landing m.thread).Fits c.device := by
    intro c hc
    rw [HostDevice.landing, hselected c hc]
    exact Location.fits_device c.device c.deviceId
  cases deed with
  | realise =>
      obtain hidle | ⟨c, n, d, hcontext, -, ht', hrenewed, hswapped⟩ :=
        Engine.realise_settled hcalm h
      · exact howned.idle hcalm hp hidle
      · exact howned.housed hp (hlanding c hcontext) hrenewed hswapped ht'
  | release =>
      obtain ⟨-, hidle⟩ | ⟨b, d, hdata, rfl, hrenewed, hrid⟩ := Engine.releaseData_settled hcalm h
      · exact howned.idle hcalm hp hidle
      · have hheld : holding p = some (t.device, b) := by
          rw [hp, Tensor.holding, hdata, Option.map_some]
        rw [hrenewed.device]
        exact ⟨hrenewed.calm, hrid.selected, howned.rid hheld hrid⟩
  | toHost =>
      obtain hidle | ⟨n, d, ht', hrenewed, hswapped⟩ := Engine.copyToHost_settled hcalm h
      · exact howned.idle hcalm hp hidle
      · exact howned.housed hp Location.fits_host hrenewed hswapped ht'
  | toDevice =>
      obtain hidle | ⟨c, n, d, hcontext, ht', hrenewed, hswapped⟩ :=
        Engine.copyToDevice_settled hcalm h
      · exact howned.idle hcalm hp hidle
      · exact howned.housed hp (hlanding c hcontext) hrenewed hswapped ht'
  | write host values =>
      obtain hidle | ⟨d, rfl, hrenewed, hundisturbed⟩ := Engine.write_settled hcalm h
      · exact howned.idle hcalm hp hidle
      · rw [← hp, Function.update_eq_self, hrenewed.device]
        exact ⟨hrenewed.calm, hundisturbed.selected,
          howned.congr hundisturbed.blocks hundisturbed.next⟩

end Deed

/-! ### Giving up all buffers of a graph -/

section Release

variable {e : Engine}

theorem releaseData_of_fits {m : Machine} (hcalm : m.Calm e.backend) {t : Tensor}
    (hlive : ∀ b, t.data = some b → ∃ block, (m.device e.backend).blockAt? b.address = some block ∧
      block.location.Fits t.device) :
    ∃ m', Tensor.releaseData e.memory (m, t) = (.ok (), m', { t with data := none }) ∧
    m'.Calm e.backend ∧
    (m'.device e.backend).blocks = (m.device e.backend).blocksBut (t.data.map Buffer.address) := by
  cases hdata : t.data with
  | none =>
      refine ⟨m, ?_, hcalm, (HostDevice.blocksBut_none _).symm⟩
      rw [Tensor.releaseData, Act.bind_of_ok (Act.get_apply _)]
      simp only [hdata]
      rw [← hdata]
      rfl
  | some b =>
      obtain ⟨block, hblock, hfits⟩ := hlive b hdata
      have hok := (Engine.releaseData_eq_ok_iff hcalm hdata hblock).2 hfits.accepted
      rcases hrelease : Tensor.releaseData e.memory (m, t) with ⟨result, m', t'⟩
      rw [hrelease] at hok
      obtain rfl : result = .ok () := hok
      obtain ⟨hnone, -⟩ | ⟨b', d, hdata', rfl, hrenewed, hrid⟩ :=
        Engine.releaseData_settled hcalm (congrArg settled hrelease)
      · rw [hdata] at hnone
        cases hnone
      · obtain rfl : b' = b := Option.some.inj (hdata'.symm.trans hdata)
        refine ⟨m', rfl, hrenewed.calm, ?_⟩
        rw [hrenewed.device]
        exact hrid.blocks

/-- Whether a block is none of the buffers of some tensors. -/
def spares (tensors : List Tensor) (block : Block) : Bool :=
  tensors.all fun t => t.data.map Buffer.address ≠ some ⟨block.start⟩

theorem eachTensorOf_release {tensors : List Tensor} {m : Machine} (hcalm : m.Calm e.backend)
    (hlive : ∀ t ∈ tensors, ∀ b, t.data = some b →
      ∃ block, (m.device e.backend).blockAt? b.address = some block ∧ block.location.Fits t.device)
    (hapart : tensors.Pairwise fun t t' => ∀ b b', t.data = some b → t'.data = some b' →
      b.address ≠ b'.address) :
    ∃ m', Graph.eachTensorOf (Tensor.releaseData e.memory) m tensors =
      (.ok (), m', tensors.map fun t => { t with data := none }) ∧
      (m'.device e.backend).blocks = (m.device e.backend).blocks.filter (spares tensors) := by
  induction tensors generalizing m with
  | nil => exact ⟨m, rfl, (List.filter_eq_self.2 fun _ _ => rfl).symm⟩
  | cons t rest ih =>
      obtain ⟨hfirst, hlater⟩ := List.forall_mem_cons.1 hlive
      obtain ⟨hothers, hapart⟩ := List.pairwise_cons.1 hapart
      obtain ⟨m₁, hrelease, hcalm₁, hblocks₁⟩ := releaseData_of_fits hcalm hfirst
      have hlive₁ : ∀ t' ∈ rest, ∀ b', t'.data = some b' →
          ∃ block, (m₁.device e.backend).blockAt? b'.address = some block ∧
          block.location.Fits t'.device := by
        intro t' ht' b' hb'
        obtain ⟨block, hblock, hfits⟩ := hlater t' ht' b' hb'
        refine ⟨block, ?_, hfits⟩
        cases hdata : t.data with
        | none =>
            rw [hdata] at hblocks₁
            rw [← hblock, HostDevice.blockAt?, hblocks₁, Option.map_none, HostDevice.blocksBut_none,
              HostDevice.blockAt?]
        | some b =>
            rw [hdata] at hblocks₁
            rw [← hblock]
            exact HostDevice.blockAt?_filter (hblocks₁.trans (HostDevice.blocksBut_some _ _))
              fun hsame => hothers t' ht' b b' hdata hb' (congrArg Address.mk hsame.symm)
      obtain ⟨m', hrest, hblocks⟩ := ih hcalm₁ hlive₁ hapart
      refine ⟨m', ?_, ?_⟩
      · rw [Graph.eachTensorOf, hrelease]
        dsimp only
        rw [hrest]
        rfl
      · rw [hblocks, hblocks₁, HostDevice.blocksBut, List.filter_filter]
        refine List.filter_congr fun block _ => ?_
        rw [spares, spares, List.all_cons, Bool.and_comm]

end Release

/-! ### One engine -/

namespace Workshop

/-- What threads ask of the one engine: a context for the thread or another one in its place,
buffers for all tensors of a graph, their release, a run, or something for a single tensor. -/
inductive Task where
  | bind (device : DeviceKind) (deviceId : Nat)
  | switch (device : DeviceKind) (deviceId : Nat)
  | realise (graph : Nat)
  | release (graph : Nat)
  | run (graph : Nat)
  | tensor (graph tensor : Nat) (deed : Deed)

def onGraph {α : Type} (w : Workshop) (j : Nat) (act : Engine → GraphAct EngineError α) :
    Option Workshop := do
  let e ← w.engines[0]?
  let g ← w.graphs[j]?
  let (machine, g) ← settled (act e (w.machine, g))
  return { w with machine, graphs := w.graphs.set j g }

def onTensor (w : Workshop) (j i : Nat) (deed : Deed) : Option Workshop := do
  let e ← w.engines[0]?
  let g ← w.graphs[j]?
  let t ← g.tensors[i]?
  let (machine, t) ← settled (deed.act e (w.machine, t))
  return { w with machine, graphs := w.graphs.set j { g with tensors := g.tensors.set i t } }

/-- A task of the running thread; none if a native call fails in it. -/
def perform (w : Workshop) : Task → Option Workshop
  | .bind device deviceId => w.onEngine 0 (Engine.openContext device deviceId)
  | .switch device deviceId => w.onEngine 0 (Engine.switchContext device deviceId)
  | .realise j => w.onGraph j Engine.realiseData
  | .release j => w.onGraph j Engine.releaseData
  | .run j => w.onGraph j Engine.run
  | .tensor j i deed => w.onTensor j i deed

/-- Tasks of any threads, one after the other. -/
def carryOut (w : Workshop) : List (ThreadId × Task) → Option Workshop
  | [] => some w
  | (thread, task) :: rest => do
      let w ← (w.on thread).perform task
      w.carryOut rest

/-- The tags and the buffers of all tensors. -/
def holding (w : Workshop) (p : Nat × Nat) : Option (DeviceKind × Buffer) :=
  (w.tensorAt p).bind Tensor.holding

theorem holding_set {w : Workshop} {j i : Nat} {g : Graph} (hg : w.graphs[j]? = some g)
    (hi : i < g.tensors.length) (m : Machine) (t : Tensor) :
    holding
      { w with machine := m, graphs := w.graphs.set j { g with tensors := g.tensors.set i t } } =
      Function.update w.holding (j, i) t.holding := by
  funext q
  rw [holding, tensorAt_set hg hi]
  by_cases hq : q = (j, i)
  · rw [hq, Function.update_self, Function.update_self, Option.bind_some]
  · rw [Function.update_of_ne hq, Function.update_of_ne hq, holding]

/-- One engine that has selected for each of its threads the device of the thread's context, and
buffers that have one owner each. -/
structure Kept (e : Engine) (w : Workshop) : Prop where
  calm : w.machine.Calm e.backend
  engines : w.engines = [e]
  selected : ∀ thread c, e.contextOf thread = .ok c →
    (w.machine.device e.backend).selection thread = (c.device, c.deviceId)
  owned : Owned (w.machine.device e.backend) e.workspace w.holding

namespace Kept

variable {e : Engine} {w : Workshop} (h : Kept e w)

include h

theorem first : w.engines[0]? = some e := by
  rw [h.engines]
  rfl

theorem on (thread : ThreadId) : Kept e (w.on thread) :=
  ⟨⟨h.calm.there, h.calm.faults⟩, h.engines, h.selected, h.owned⟩

theorem tensor {j i : Nat} {g : Graph} {t : Tensor} (hg : w.graphs[j]? = some g)
    (ht : g.tensors[i]? = some t) {deed : Deed} {m' : Machine} {t' : Tensor}
    (hsettled : settled (deed.act e (w.machine, t)) = some (m', t')) : Kept e
      { w with
        machine := m'
        graphs := w.graphs.set j { g with tensors := g.tensors.set i t' } } := by
  have hheld : w.holding (j, i) = t.holding := by
    rw [holding, tensorAt, hg, Option.bind_some, ht, Option.bind_some]
  obtain ⟨hcalm, hselected, howned⟩ :=
    h.owned.deed h.calm hheld (h.selected w.machine.thread) hsettled
  refine ⟨hcalm, h.engines, ?_, ?_⟩
  · rw [HostDevice.selection_congr hselected]
    exact h.selected
  · rw [holding_set hg (List.getElem?_eq_some_iff.1 ht).1]
    exact howned

theorem eachTensor {j : Nat} {g : Graph} (hg : w.graphs[j]? = some g) (deed : Deed)
    {m' : Machine} {g' : Graph}
    (hsettled : settled (Graph.eachTensor (deed.act e) (w.machine, g)) = some (m', g')) :
    Kept e { w with machine := m', graphs := w.graphs.set j g' } := by
  have hj : j < w.graphs.length := (List.getElem?_eq_some_iff.1 hg).1
  have hstep : ∀ m pre t rest m₁ t₁, Kept e
      { w with machine := m, graphs := w.graphs.set j { g with tensors := pre ++ t :: rest } } →
      settled (deed.act e (m, t)) = some (m₁, t₁) →
      Kept e { w with
        machine := m₁
        graphs := w.graphs.set j { g with tensors := pre ++ t₁ :: rest } } := by
    intro m pre t rest m₁ t₁ hkept hone
    have hturn : (pre ++ t :: rest)[pre.length]? = some t := by
      rw [List.getElem?_append_right (Nat.le_refl _), Nat.sub_self, List.getElem?_cons_zero]
    have hnext := hkept.tensor (List.getElem?_set_self hj) hturn hone
    dsimp only at hnext
    rw [List.set_set, List.set_append_right _ _ (Nat.le_refl _), Nat.sub_self,
      List.set_cons_zero] at hnext
    exact hnext
  have hstart : Kept e { w with graphs := w.graphs.set j g } := by
    rw [set_of_getElem? hg]
    exact h
  obtain ⟨tensors, rfl, hkept⟩ := @Graph.eachTensor_induct
    _ (fun m tensors => Kept e { w with machine := m, graphs := w.graphs.set j { g with tensors } })
    hstep w.machine m' g g' hstart hsettled
  exact hkept

theorem run {j : Nat} {g : Graph} (hg : w.graphs[j]? = some g)
    {result : Except EngineError RunMetrics} {m' : Machine} {g' : Graph}
    (hrun : e.run (w.machine, g) = (result, m', g')) :
    Kept e { w with machine := m', graphs := w.graphs.set j g' } := by
  have hquiet := e.run_quiet (w.machine, g)
  rw [hrun] at hquiet
  obtain ⟨hmachine, htensors⟩ := hquiet
  obtain ⟨hcalm, -, hundisturbed⟩ := hmachine h.calm
  have hsame : holding { w with machine := m', graphs := w.graphs.set j g' } = w.holding := by
    funext q
    rw [holding, holding, tensorAt, tensorAt]
    by_cases hj : j = q.1
    · rw [← hj, List.getElem?_set_self (List.getElem?_eq_some_iff.1 hg).1, hg, Option.bind_some,
        Option.bind_some, htensors]
    · rw [List.getElem?_set_ne hj]
  refine ⟨hcalm, h.engines, ?_, ?_⟩
  · rw [HostDevice.selection_congr hundisturbed.selected]
    exact h.selected
  · rw [hsame]
    exact h.owned.congr hundisturbed.blocks hundisturbed.next

theorem bound {c : Context} {m' : Machine} {d : HostDevice}
    (hrenewed : w.machine.Renewed e.backend d m')
    (hundisturbed :
      ((w.machine.device e.backend).choosing w.machine.thread c.device c.deviceId).Undisturbed d) :
    Kept (e.bindThread w.machine.thread c)
    { w with machine := m', engines := [e.bindThread w.machine.thread c] } := by
  refine ⟨hrenewed.calm, rfl, fun thread c' hc' => ?_, ?_⟩
  · have hbackend : (e.bindThread w.machine.thread c).backend = e.backend := rfl
    rw [hbackend, hrenewed.device, HostDevice.selection_congr hundisturbed.selected,
      HostDevice.selection_choosing_eq]
    rw [Engine.contextOf, Engine.bindThread] at hc'
    dsimp only at hc'
    by_cases hthread : thread = w.machine.thread
    · rw [hthread, List.lookup_cons_self] at hc'
      rw [hthread, Function.update_self, Except.ok.inj hc']
    · rw [List.lookup_cons, beq_eq_false_iff_ne.2 hthread] at hc'
      dsimp only at hc'
      rw [lookup_filter_ne hthread] at hc'
      rw [Function.update_of_ne hthread]
      exact h.selected thread c' hc'
  · show Owned (m'.device e.backend) e.workspace w.holding
    rw [hrenewed.device]
    exact h.owned.congr hundisturbed.blocks hundisturbed.next

theorem onEngine {α : Type} {act : EngineAct α}
    (hact : ∀ m m' e e', m.Calm e.backend → settled (act (m, e)) = some (m', e') →
      (m' = m ∧ e' = e) ∨
      ∃ c d, e' = e.bindThread m.thread c ∧ m.Renewed e.backend d m' ∧
      ((m.device e.backend).choosing m.thread c.device c.deviceId).Undisturbed d)
    {w' : Workshop} (hdone : w.onEngine 0 act = some w') :
    ∃ e', e'.backend = e.backend ∧ Kept e' w' := by
  obtain ⟨_, he, hdone⟩ := Option.bind_eq_some_iff.1 hdone
  obtain rfl := Option.some.inj (h.first.symm.trans he)
  obtain ⟨⟨m', e'⟩, hsettled, hw'⟩ := Option.bind_eq_some_iff.1 hdone
  obtain rfl := Option.some.inj hw'
  obtain ⟨rfl, rfl⟩ | ⟨c, d, rfl, hrenewed, hundisturbed⟩ := hact w.machine m' e e' h.calm hsettled
  · rw [set_of_getElem? h.first]
    exact ⟨e', rfl, h⟩
  · rw [h.engines, List.set_cons_zero]
    exact ⟨e.bindThread w.machine.thread c, rfl, h.bound hrenewed hundisturbed⟩

theorem onGraph {α : Type} {j : Nat} {act : Engine → GraphAct EngineError α} {w' : Workshop}
    (hdone : w.onGraph j act = some w') :
    ∃ g m' g', w.graphs[j]? = some g ∧ settled (act e (w.machine, g)) = some (m', g') ∧
    w' = { w with machine := m', graphs := w.graphs.set j g' } := by
  obtain ⟨_, he, hdone⟩ := Option.bind_eq_some_iff.1 hdone
  obtain rfl := Option.some.inj (h.first.symm.trans he)
  obtain ⟨g, hg, hdone⟩ := Option.bind_eq_some_iff.1 hdone
  obtain ⟨⟨m', g'⟩, hsettled, hw'⟩ := Option.bind_eq_some_iff.1 hdone
  exact ⟨g, m', g', hg, hsettled, (Option.some.inj hw').symm⟩

theorem perform {task : Task} {w' : Workshop} (hdone : w.perform task = some w') :
    ∃ e', e'.backend = e.backend ∧ Kept e' w' := by
  cases task with
  | bind device deviceId =>
      exact h.onEngine (fun m m' e e' hm hopen => Engine.openContext_settled hm hopen) hdone
  | switch device deviceId =>
      exact h.onEngine (fun m m' e e' hm hswitch => Engine.switchContext_settled hm hswitch) hdone
  | realise j =>
      obtain ⟨g, m', g', hg, hsettled, rfl⟩ := h.onGraph hdone
      exact ⟨e, rfl, h.eachTensor hg .realise hsettled⟩
  | release j =>
      obtain ⟨g, m', g', hg, hsettled, rfl⟩ := h.onGraph hdone
      exact ⟨e, rfl, h.eachTensor hg .release hsettled⟩
  | run j =>
      obtain ⟨g, m', g', hg, hsettled, rfl⟩ := h.onGraph hdone
      rcases hrun : e.run (w.machine, g) with ⟨result, m₁, g₁⟩
      rw [hrun] at hsettled
      obtain ⟨rfl, rfl⟩ := Prod.mk.inj (eq_of_settled hsettled)
      exact ⟨e, rfl, h.run hg hrun⟩
  | tensor j i deed =>
      obtain ⟨_, he, hdone⟩ := Option.bind_eq_some_iff.1 hdone
      obtain rfl := Option.some.inj (h.first.symm.trans he)
      obtain ⟨g, hg, hdone⟩ := Option.bind_eq_some_iff.1 hdone
      obtain ⟨t, ht, hdone⟩ := Option.bind_eq_some_iff.1 hdone
      obtain ⟨⟨m', t'⟩, hsettled, hw'⟩ := Option.bind_eq_some_iff.1 hdone
      obtain rfl := Option.some.inj hw'
      exact ⟨e, rfl, h.tensor hg ht hsettled⟩

theorem carryOut {tasks : List (ThreadId × Task)} {w' : Workshop}
    (hdone : w.carryOut tasks = some w') : ∃ e', e'.backend = e.backend ∧ Kept e' w' := by
  induction tasks generalizing e w with
  | nil =>
      obtain rfl := Option.some.inj hdone
      exact ⟨e, rfl, h⟩
  | cons task tasks ih =>
      obtain ⟨w₁, hfirst, hrest⟩ := Option.bind_eq_some_iff.1 hdone
      obtain ⟨e₁, hbackend₁, hkept₁⟩ := (h.on task.1).perform hfirst
      obtain ⟨e', hbackend, hkept⟩ := ih hkept₁ hrest
      exact ⟨e', hbackend.trans hbackend₁, hkept⟩

theorem releaseData {j : Nat} {g : Graph} (hg : w.graphs[j]? = some g) :
    ∃ m', e.releaseData (w.machine, g) =
      (.ok (), m', { g with tensors := g.tensors.map fun t => { t with data := none } }) ∧
    (m'.device e.backend).blocks =
      (w.machine.device e.backend).blocks.filter (spares g.tensors) := by
  have hheld : ∀ i t b, g.tensors[i]? = some t → t.data = some b →
      w.holding (j, i) = some (t.device, b) := by
    intro i t b ht hb
    rw [holding, tensorAt, hg, Option.bind_some, ht, Option.bind_some, Tensor.holding, hb,
      Option.map_some]
  have hlive : ∀ t ∈ g.tensors, ∀ b, t.data = some b →
      ∃ block, (w.machine.device e.backend).blockAt? b.address = some block ∧
      block.location.Fits t.device := by
    intro t ht b hb
    obtain ⟨i, hi⟩ := List.mem_iff_getElem?.1 ht
    obtain ⟨block, hblock, -, hfits⟩ := h.owned.live (j, i) t.device b (hheld i t b hi hb)
    exact ⟨block, hblock, hfits⟩
  have hapart : g.tensors.Pairwise fun t t' => ∀ b b', t.data = some b → t'.data = some b' →
      b.address ≠ b'.address := by
    refine List.pairwise_iff_getElem.2 fun i k hi hk hlt b b' hb hb' hsame => ?_
    have hplace :=
      h.owned.apart (j, i) (j, k) _ _ b b' (hheld i _ b (List.getElem?_eq_getElem hi) hb)
        (hheld k _ b' (List.getElem?_eq_getElem hk) hb') hsame
    exact Nat.ne_of_lt hlt (Prod.mk.inj hplace).2
  obtain ⟨m', hall, hblocks⟩ := eachTensorOf_release h.calm hlive hapart
  refine ⟨m', ?_, hblocks⟩
  rw [Engine.releaseData, Graph.eachTensor, hall]

end Kept

theorem kept_create {emulated : List DeviceKind} {origin : Nat} {rooms : List Nat}
    {thread : ThreadId} {graphs : List Graph} (hfree : ∀ g ∈ graphs, ∀ t ∈ g.tensors, t.data = none)
    {kernels : KernelRegistry} {config : Config} {w : Workshop}
    (h : step { machine := ⟨[.fresh emulated origin rooms], thread⟩, graphs }
      (.create kernels config) = some w) : ∃ e, e.backend = 0 ∧ Kept e w := by
  rw [step] at h
  rcases hcreate : Engine.create 0 kernels config ⟨[.fresh emulated origin rooms], thread⟩
    with ⟨cause | e, m'⟩
  · rw [hcreate] at h
    cases h
  rw [hcreate] at h
  obtain rfl := Option.some.inj h
  obtain ⟨c, d, hbackend, hworkspace, hcontexts, hrenewed, hundisturbed⟩ :=
    Engine.create_settled ⟨Nat.zero_lt_one, rfl⟩ hcreate
  have hnone : ∀ p tag b, holding { machine := m', engines := [e], graphs } p ≠ some (tag, b) := by
    intro p tag b hheld
    obtain ⟨t, ht, hheld⟩ := Option.bind_eq_some_iff.1 hheld
    obtain ⟨g, hg, ht⟩ := Option.bind_eq_some_iff.1 ht
    rw [Tensor.holding, hfree g (List.mem_of_getElem? hg) t (List.mem_of_getElem? ht)] at hheld
    cases hheld
  have hblocks : d.blocks = [⟨(HostDevice.fresh emulated origin rooms).room config.workspace.bytes,
      max config.workspace.bytes 1, .device config.device config.deviceId⟩] := by
    rw [hundisturbed.blocks, ← HostDevice.room_choosing]
    rfl
  have hnext : (HostDevice.fresh emulated origin rooms).room config.workspace.bytes <
      d.nextAddress := by
    rw [hundisturbed.next, ← HostDevice.room_choosing]
    exact HostDevice.room_lt_extended _ config.workspace.bytes
      (.device config.device config.deviceId)
  refine ⟨e, hbackend, ?_, rfl, fun thread' c' hc' => ?_, ?_⟩
  · rw [hbackend]
    exact hrenewed.calm
  · rw [Engine.contextOf, hcontexts] at hc'
    by_cases hthread : thread' = thread
    · rw [hthread, List.lookup_cons_self] at hc'
      rw [hbackend, hrenewed.device, HostDevice.selection_congr hundisturbed.selected, hthread,
        HostDevice.selection_choosing, Except.ok.inj hc']
    · rw [List.lookup_cons, beq_eq_false_iff_ne.2 hthread] at hc'
      cases hc'
  · rw [hbackend, hrenewed.device, hworkspace]
    refine ⟨⟨?_, ?_⟩, fun p tag b hheld => absurd hheld (hnone p tag b),
      fun p q tag tag' b b' hheld => absurd hheld (hnone p tag b),
      ⟨⟨(HostDevice.fresh emulated origin rooms).room config.workspace.bytes, _,
        .device config.device config.deviceId⟩, ?_, rfl⟩,
      fun p tag b hheld => absurd hheld (hnone p tag b), ?_⟩
    · rw [hblocks]
      exact List.pairwise_singleton _ _
    · rw [hblocks]
      exact List.forall_mem_singleton.2 hnext
    · rw [HostDevice.blockAt?, hblocks]
      exact List.find?_cons_of_pos (decide_eq_true rfl)
    · rw [hblocks]
      exact List.forall_mem_singleton.2 (.inl rfl)

/-- One engine on a fresh device, whose host offers room wherever it likes, and tensors without
data: whatever threads ask for, in any order and as long as no native call fails, every buffer is a
live block of its own, as large as it says and where its tensor's tag says, apart from the
workspace, and there are no other blocks. The buffers of a graph can then be given up from any
thread, and just their blocks are gone. -/
theorem buffers_owned {emulated : List DeviceKind} {origin : Nat} {rooms : List Nat}
    {first : ThreadId} {graphs : List Graph} (hfree : ∀ g ∈ graphs, ∀ t ∈ g.tensors, t.data = none)
    {kernels : KernelRegistry} {config : Config} {w₀ w : Workshop}
    (hcreate : step { machine := ⟨[.fresh emulated origin rooms], first⟩, graphs }
      (.create kernels config) = some w₀) {tasks : List (ThreadId × Task)}
      (htasks : w₀.carryOut tasks = some w) :
    ∃ e, w.engines = [e] ∧ Owned w.device e.workspace w.holding ∧
      ∀ thread (j : Nat) g, w.graphs[j]? = some g → ∃ m', e.releaseData ((w.on thread).machine, g) =
        (.ok (), m', { g with tensors := g.tensors.map fun t => { t with data := none } }) ∧
        (m'.device 0).blocks = w.device.blocks.filter fun block =>
          g.tensors.all fun t => t.data.map Buffer.address ≠ some ⟨block.start⟩ := by
  obtain ⟨e₀, hzero₀, hkept₀⟩ := kept_create hfree hcreate
  obtain ⟨e, hzero, hkept⟩ := hkept₀.carryOut htasks
  rw [hzero₀] at hzero
  refine ⟨e, hkept.engines, ?_, fun thread j g hg => ?_⟩
  · rw [device, ← hzero]
    exact hkept.owned
  · have hreleased := (hkept.on thread).releaseData hg
    rw [hzero] at hreleased
    exact hreleased

/-- Two tensors without data, and a device that emulates an accelerator. -/
def pair : Workshop :=
  { machine := ⟨[.fresh [.nvidia] 0x10000], 0⟩
    graphs :=
      [{ tensors :=
          [{ id := 1, kind := .f32, shape := ⟨[.const 4]⟩, stride := ⟨[.const 1]⟩ },
            { id := 2, kind := .f64, shape := ⟨[.const 3]⟩, stride := ⟨[.const 1]⟩ }] }] }

def opened : Workshop := (pair.step (.create .builtin ⟨.cpu, 0, ⟨64⟩, false⟩)).getD pair

/-- Two threads move the two tensors to and fro. -/
def journey : List (ThreadId × Task) :=
  [(0, .realise 0), (1, .bind .nvidia 0), (1, .tensor 0 0 .toDevice), (0, .tensor 0 0 .toHost),
    (1, .tensor 0 1 .realise), (0, .switch .nvidia 0),
    (0, .tensor 0 1 .release), (0, .tensor 0 1 .realise), (1, .run 0), (0, .tensor 0 1 .toHost),
    (1, .tensor 0 0 .toDevice)]

def arrived : Workshop := (opened.carryOut journey).getD pair

/-- After all moves each tensor has one block; a third thread gives both up, and the workspace alone
is left. -/
theorem buffers_owned_journey :
    pair.step (.create .builtin ⟨.cpu, 0, ⟨64⟩, false⟩) = some opened ∧
    opened.carryOut journey = some arrived ∧
      arrived.holding (0, 0) = some (.nvidia, ⟨⟨590400⟩, 16⟩) ∧
      arrived.holding (0, 1) = some (.cpu, ⟨⟨524800⟩, 24⟩) ∧
      ∃ e g m', arrived.engines = [e] ∧ Owned arrived.device e.workspace arrived.holding ∧
      arrived.graphs[0]? = some g ∧
        e.releaseData ((arrived.on 2).machine, g) =
          (.ok (), m', { g with tensors := g.tensors.map fun t => { t with data := none } }) ∧
        (m'.device 0).blocks = [⟨65536, 64, .device .cpu 0⟩] := by
  have hcreate : pair.step (.create .builtin ⟨.cpu, 0, ⟨64⟩, false⟩) = some opened := by
    obtain ⟨w, hw⟩ := Option.isSome_iff_exists.1
      (show (pair.step (.create .builtin ⟨.cpu, 0, ⟨64⟩, false⟩)).isSome = true by decide +kernel)
    rw [opened, hw, Option.getD_some]
  have htasks : opened.carryOut journey = some arrived := by
    obtain ⟨w, hw⟩ :=
      Option.isSome_iff_exists.1 (show (opened.carryOut journey).isSome = true by decide +kernel)
    rw [arrived, hw, Option.getD_some]
  obtain ⟨e, he, howned, hrelease⟩ := @buffers_owned [.nvidia] 0x10000 [] 0 pair.graphs (by decide)
    _ _ opened arrived hcreate journey htasks
  obtain ⟨g, hg⟩ :=
    Option.isSome_iff_exists.1 (show arrived.graphs[0]?.isSome = true by decide +kernel)
  obtain ⟨m', hdone, hblocks⟩ := hrelease 2 0 g hg
  have hleft : arrived.graphs[0]?.map (fun g => arrived.device.blocks.filter (spares g.tensors)) =
      some [⟨65536, 64, .device .cpu 0⟩] := by
    decide +kernel
  rw [hg] at hleft
  exact ⟨hcreate, htasks, by decide +kernel, by decide +kernel, e, g, m', he, howned, hg, hdone,
    hblocks.trans (Option.some.inj hleft)⟩

end Workshop

end TensorDataflow
