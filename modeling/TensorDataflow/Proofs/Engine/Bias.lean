import TensorDataflow.Proofs.Engine.Dispatch
import TensorDataflow.Proofs.Graph.Resolution
import TensorDataflow.Proofs.Graph.Storage
/-!
# The bias of a product

Before a product is launched its bias is copied into the output, byte for byte from the start of one
storage to the start of the other; the only condition is that both span the same number of bytes. So
what the launch accumulates on is the bias, element by element, only where both tensors put their
elements in the same places, that is where they step alike along every axis with more than one
place. `Engine.copyBias_elementwise_iff` says that this is also necessary: under any other two
layouts some contents of the memory are carried to the wrong elements, and no failure tells.
-/

namespace TensorDataflow

theorem ElementKind.size_pos (kind : ElementKind) : 0 < kind.size := by
  cases kind <;> decide

namespace OperandLayout

/-- The bytes of the element with the given row-major number, in storage that starts at an
address. -/
def element (l : OperandLayout) (memory : Memory) (start : Address) (index : Nat) : List UInt8 :=
  memory.read (start.val + l.place index * l.kind.size) l.kind.size

def storageBytes (l : OperandLayout) : Nat := Tensor.extentOf l.shape l.strides * l.kind.size

/-- After a copy of all of it, storage holds in each place what stood that far behind the start of
the source. -/
theorem Spread.element_copy {k : OperandLayout} (h : k.Spread) (memory : Memory)
    (target source : Address) (index : Nat) :
    k.element (memory.copy target.val source.val k.storageBytes) target index =
      memory.read (source.val + k.place index * k.kind.size) k.kind.size := by
  have hplace : (k.place index + 1) * k.kind.size ≤ k.storageBytes :=
    Nat.mul_le_mul_right k.kind.size (h.sized.place_lt index)
  rw [Nat.succ_mul] at hplace
  exact memory.read_copy target.val source.val hplace

section Copy

variable {l k : OperandLayout} (hl : l.Spread) (hk : k.Spread) (hshape : l.shape = k.shape)
  (target source : Address)

include hl hk hshape

/-- A copy of bytes carries every element to the one with its number, whatever the memory holds,
exactly if elements are equally wide and the layouts step alike. -/
theorem copy_elementwise_iff : (∀ memory : Memory, ∀ index < k.count,
      k.element (memory.copy target.val source.val k.storageBytes) target index =
        l.element memory source index) ↔
    l.kind.size = k.kind.size ∧ l.StepsAlike k := by
  constructor
  · intro h
    have hsize : l.kind.size = k.kind.size := by
      have hlength := congrArg List.length (h .empty 0 hk.sized.count_pos)
      rw [element, element, Memory.length_read, Memory.length_read] at hlength
      exact hlength.symm
    refine ⟨hsize, (place_eq_iff hl hk hshape).1 fun index hindex => ?_⟩
    -- a memory whose only byte stands where the bias has this
    -- element shows where the output takes it from
    have hmarked := h (Memory.empty.setByte (source.val + l.place index * k.kind.size) 1) index
      (by rwa [count, ← hshape])
    rw [hk.element_copy, element, hsize] at hmarked
    have hpos := k.kind.size_pos
    have hfirst := congrArg (·[0]?) hmarked
    simp only [Memory.getElem?_read, if_pos hpos, Nat.add_zero, Memory.byte_setByte, if_true,
      Memory.byte_empty] at hfirst
    split at hfirst
    · next hsame => exact Nat.eq_of_mul_eq_mul_right hpos (Nat.add_left_cancel hsame)
    · exact absurd hfirst (by decide)
  · rintro ⟨hsize, halike⟩ memory index hindex
    have hplace := (place_eq_iff hl hk hshape).2 halike index (by rwa [count, hshape])
    rw [hk.element_copy, element, hplace, hsize]

end Copy

end OperandLayout

theorem Tensor.totalBytes_of_layout {t : Tensor} {l : OperandLayout} (h : t.layout = .ok l) :
    t.totalBytes = .ok l.storageBytes := by
  obtain ⟨hshape, hstride, hkind⟩ := layout_eq_ok_iff.1 h
  rw [totalBytes_of_values? hshape hstride, OperandLayout.storageBytes, hkind]

theorem Tensor.spread_of_layout {t : Tensor} (hcheck : checkLayout t.shape t.stride = .ok ())
    {l : OperandLayout} (h : t.layout = .ok l) : l.Spread ∧ t.totalBytes = .ok l.storageBytes := by
  obtain ⟨hshape, hstride, -⟩ := layout_eq_ok_iff.1 h
  obtain ⟨hrank, hbad⟩ := checkLayout_eq_ok_iff.1 hcheck
  refine ⟨⟨?_, Axes.extents_of_values? hbad hshape⟩, totalBytes_of_layout h⟩
  calc l.shape.length = t.shape.rank := (Axes.values?_eq_some_iff.1 hshape).length_eq.symm
    _ = t.stride.rank := hrank
    _ = l.strides.length := (Axes.values?_eq_some_iff.1 hstride).length_eq

/-- A product with a bias that inference accepts, over concrete tensors: `l` is the layout of the
bias and `k` that of the output. -/
structure Graph.Biased (g : Graph) (op : Operator) (attributes : Gemm) (a b bias output : TensorId)
    (l k : OperandLayout) : Prop where
  kind : op.kind = .gemm attributes
  inputs : op.inputs = [a, b, bias]
  outputs : op.outputs = [output]
  fits : g.Fits op.kind op.inputs op.outputs
  source : ∃ t, g.tensor? bias = some t ∧ Tensor.checkLayout t.shape t.stride = .ok () ∧
    t.layout = .ok l
  target : ∃ u, g.tensor? output = some u ∧ Tensor.checkLayout u.shape u.stride = .ok () ∧
    u.layout = .ok k

theorem Graph.Biased.shape {g : Graph} {op : Operator}
    {attributes : Gemm} {a b bias output : TensorId} {l k : OperandLayout}
    (h : g.Biased op attributes a b bias output l k) :
    l.shape = k.shape := by
  obtain ⟨t, ht, _, hl⟩ := h.source
  obtain ⟨u, hu, _, hk⟩ := h.target
  obtain ⟨tensors, shapes, htensors, _, hshapes, _, houtputs⟩ := h.fits
  rw [h.inputs, Graph.tensorsOf_eq_ok_iff] at htensors
  rw [h.outputs] at houtputs
  rw [h.kind] at hshapes
  rcases htensors with _ | ⟨ha, _ | ⟨hb, _ | ⟨hbias, _ | _⟩⟩⟩
  obtain ⟨s, hs, hshapes⟩ := except_bind_eq_ok.1 hshapes
  cases hshapes
  -- inference asks that the bias have the shape that it answers
  obtain ⟨_, _, _, _, _, _, _, hagree, rfl⟩ := OpKind.gemmShape_eq_ok_iff.1 hs
  rcases houtputs with _ | ⟨⟨u', hu', hushape⟩, _⟩
  obtain rfl := Option.some.inj (hu.symm.trans hu')
  obtain rfl := Option.some.inj (ht.symm.trans hbias)
  have hsame : t.shape = u.shape := (hagree t rfl).trans hushape.symm
  have hlshape := (Tensor.layout_eq_ok_iff.1 hl).1
  rw [hsame, (Tensor.layout_eq_ok_iff.1 hk).1] at hlshape
  exact (Option.some.inj hlshape).symm

def Machine.withMemory (m : Machine) (id : BackendId) (memory : Memory) : Machine :=
  m.setBackend id { m.backend id with device := { m.device id with memory } }

theorem Machine.backend_withMemory {m : Machine} {id : BackendId} (h : id < m.backends.length)
    (memory : Memory) :
    (m.withMemory id memory).backend id =
      { m.backend id with device := { m.device id with memory } } :=
  backend_setBackend h _

namespace Engine

theorem Copies.there {m : Machine} {id : BackendId} {g : Graph} {bias output : TensorId}
    {target source : Address} {size : Nat}
    (h : Copies (m.device id) g bias output target source size) : id < m.backends.length := by
  obtain ⟨_, _, _, _, _, _, _, _, hrange, _⟩ := h.spans
  -- a backend that is not there has no blocks
  by_contra hmissing
  have hdevice : m.device id = default := by
    rw [Machine.device, Machine.backend, List.getD_eq_getElem?_getD,
      List.getElem?_eq_none (Nat.le_of_not_lt hmissing)]
    rfl
  rw [hdevice] at hrange
  cases hrange

theorem copyBias_withMemory {e : Engine} {m : Machine} {g : Graph} {bias output : TensorId}
    {target source : Address} {size : Nat} {faults : List Fault}
    (hcopies : Copies (m.device e.backend) g bias output target source size)
    (hstrike : Fault.strike .memcpy (m.backend e.backend).faults = (none, faults))
    (memory : Memory) :
    ∃ m', e.copyBias bias output (m.withMemory e.backend memory, g) = (.ok (), m', g) ∧
    (m'.device e.backend).memory = memory.copy target.val source.val size := by
  have hbackend := Machine.backend_withMemory hcopies.there memory
  have hcopies' : Copies ((m.withMemory e.backend memory).device e.backend) g bias output target
      source size := by
    refine hcopies.congr (.refl g) ?_
    rw [Machine.device, hbackend]
  refine ⟨_, copyBias_eq_ok_iff.2 ⟨target, source, size, faults, hcopies', ?_, rfl⟩, ?_⟩
  · rw [hbackend]
    exact hstrike
  · rw [Machine.device, Machine.backend_setBackend hcopies'.there, Machine.device, hbackend]

/-- Computing a product with a bias is copying the bias and then launching. Wherever that copy goes
through, it goes through whatever the memory holds, and it changes no byte outside the storage of
the output; and it sets every element of the output to the element of the bias with the same number,
whatever these are, exactly if elements of both are equally wide and both layouts step alike along
every axis with more than one place. -/
theorem copyBias_elementwise_iff (e : Engine) (c : Context) {m : Machine} {g : Graph}
    {op : Operator} {attributes : Gemm} {a b bias output : TensorId} {l k : OperandLayout}
    (h : g.Biased op attributes a b bias output l k)
    (hcopy : (e.copyBias bias output (m, g)).1 = .ok ()) :
    e.compute c .gemm op =
      (do e.copyBias bias output; e.launch c op [a, b] (.scale attributes.alpha attributes.beta)) ∧
      ∃ source target, dataAddress g bias = .ok source ∧ dataAddress g output = .ok target ∧
        (∀ memory, ∃ m',
          e.copyBias bias output (m.withMemory e.backend memory, g) = (.ok (), m', g) ∧
          Memory.AgreeOn (span target.val k.storageBytes)ᶜ (m'.device e.backend).memory memory) ∧
        ((∀ memory m', e.copyBias bias output (m.withMemory e.backend memory, g) = (.ok (), m', g) →
            ∀ index < k.count,
            k.element (m'.device e.backend).memory target index = l.element memory source index) ↔
          l.kind.size = k.kind.size ∧ l.StepsAlike k) := by
  have hplan : plan? .gemm op = some
      { inputs := [a, b]
        args := .scale attributes.alpha attributes.beta
        bias := some (bias, output) } := by
    unfold plan?
    rw [h.kind, h.inputs, h.outputs]
  refine ⟨e.compute_of_plan c hplan, ?_⟩
  obtain ⟨target, source, size, faults, hcopies, hstrike, _⟩ :=
    copyBias_eq_ok_iff.1 (Prod.ext hcopy rfl)
  obtain ⟨t, _, hcheck, hl⟩ := h.source
  obtain ⟨u, hu, hcheck', hk⟩ := h.target
  obtain ⟨hspread, _⟩ := Tensor.spread_of_layout hcheck hl
  obtain ⟨hspread', hbytes⟩ := Tensor.spread_of_layout hcheck' hk
  obtain rfl : size = k.storageBytes := by
    obtain ⟨_, u', _, hu', _, hsize, _⟩ := hcopies.spans
    obtain rfl := Option.some.inj (hu.symm.trans (Graph.tensor_eq_ok_iff.1 hu'))
    exact Except.ok.inj (hsize.symm.trans hbytes)
  have hcopied := copyBias_withMemory hcopies hstrike
  refine ⟨source, target, hcopies.source, hcopies.target, fun memory => ?_, ?_⟩
  · obtain ⟨m', hcall, hmemory⟩ := hcopied memory
    refine ⟨m', hcall, fun address haddress => ?_⟩
    rw [hmemory, Memory.byte_copy]
    exact if_neg haddress
  · rw [← OperandLayout.copy_elementwise_iff hspread hspread' h.shape target source]
    refine forall_congr' fun memory => ?_
    obtain ⟨m', hcall, hmemory⟩ := hcopied memory
    constructor
    · intro helements
      rw [← hmemory]
      exact helements m' hcall
    · intro helements m'' hcall'
      obtain rfl : m' = m'' := congrArg (fun outcome => outcome.2.1) (hcall.symm.trans hcall')
      rw [hmemory]
      exact helements

/-- A product of a column and a row, with a bias of the given steps; the output is row-major. -/
def biasedSteps (steps : List Int64) : List BuildStep :=
  [.tensor ⟨[.const 2, .const 1]⟩ none .f32, .tensor ⟨[.const 1, .const 2]⟩ none .f32,
    .tensor ⟨[.const 1, .const 2, .const 2]⟩ (some (.ofWords steps)) .f32,
    .op (.gemm .standard) [1, 2, 3]]

def biasedOp : Operator := { id := 1, kind := .gemm .standard, inputs := [1, 2, 3], outputs := [4] }

def hostEngine : Engine :=
  { backend := 0
    kernels := .builtin
    config := .standard
    workspace := ⟨⟨0x1000⟩, 8⟩
    contexts := [(0, ⟨.cpu, 0, 1⟩)] }

/-- The machine and the graph of such a product once all tensors have buffers. -/
def biasedState (steps : List Int64) : Machine × Graph :=
  (hostEngine.realiseData
      (⟨[{ device := .fresh [] 0x10000 }], 0⟩, (Draft.built (biasedSteps steps)).graph)).2

/-- The step along an axis with one place does not matter: each element of this bias reaches its
own. -/
theorem copyBias_otherBatchStep :
    (biasedState [9, 2, 1]).2.Biased biasedOp .standard 1 2 3 4 ⟨[1, 2, 2], [9, 2, 1], .f32⟩
      ⟨[1, 2, 2], [4, 2, 1], .f32⟩ ∧
      (hostEngine.copyBias 3 4 (biasedState [9, 2, 1])).1 = .ok () ∧
      ∃ source target, dataAddress (biasedState [9, 2, 1]).2 3 = .ok source ∧
      dataAddress (biasedState [9, 2, 1]).2 4 = .ok target ∧
        ∀ memory m', hostEngine.copyBias 3 4 ((biasedState [9, 2, 1]).1.withMemory 0 memory,
          (biasedState [9, 2, 1]).2) = (.ok (), m', (biasedState [9, 2, 1]).2) →
          ∀ index < 4,
          OperandLayout.element ⟨[1, 2, 2], [4, 2, 1], .f32⟩ (m'.device 0).memory target index =
            OperandLayout.element ⟨[1, 2, 2], [9, 2, 1], .f32⟩ memory source index := by
  have hbiased : (biasedState [9, 2, 1]).2.Biased biasedOp .standard 1 2 3 4
      ⟨[1, 2, 2], [9, 2, 1], .f32⟩ ⟨[1, 2, 2], [4, 2, 1], .f32⟩ :=
    ⟨rfl, rfl, rfl, ⟨_, _, rfl, rfl, rfl, rfl, .cons ⟨_, rfl, rfl⟩ .nil⟩, ⟨_, rfl, rfl, rfl⟩,
      ⟨_, rfl, rfl, rfl⟩⟩
  have hcopy : (hostEngine.copyBias 3 4 (biasedState [9, 2, 1])).1 = .ok () := by decide +kernel
  obtain ⟨_, source, target, hsource, htarget, _, hiff⟩ :=
    copyBias_elementwise_iff hostEngine ⟨.cpu, 0, 1⟩ hbiased hcopy
  exact ⟨hbiased, hcopy, source, target, hsource, htarget, hiff.2 ⟨rfl, by decide⟩⟩

def oneToFour : List UInt8 := [0, 0, 0x80, 0x3f, 0, 0, 0, 0x40, 0, 0, 0x40, 0x40, 0, 0, 0x80, 0x40]

/-- A bias that is stored column by column spans as many bytes as an output that is stored row by
row, and it is transposed on the way: the second element of the bias is three, and that of the
output becomes two. -/
theorem copyBias_transposes :
    (biasedState [4, 1, 2]).2.Biased biasedOp .standard 1 2 3 4 ⟨[1, 2, 2], [4, 1, 2], .f32⟩
      ⟨[1, 2, 2], [4, 2, 1], .f32⟩ ∧
      ∃ source target, dataAddress (biasedState [4, 1, 2]).2 3 = .ok source ∧
      dataAddress (biasedState [4, 1, 2]).2 4 = .ok target ∧
        (hostEngine.copyBias 3 4 ((biasedState [4, 1, 2]).1.withMemory 0
            (Memory.empty.write source.val oneToFour), (biasedState [4, 1, 2]).2)).1 = .ok () ∧
        OperandLayout.element ⟨[1, 2, 2], [4, 1, 2], .f32⟩ (Memory.empty.write source.val oneToFour)
        source 1 = [0, 0, 0x40, 0x40] ∧
        OperandLayout.element ⟨[1, 2, 2], [4, 2, 1], .f32⟩
          ((hostEngine.copyBias 3 4 ((biasedState [4, 1, 2]).1.withMemory
              0 (Memory.empty.write source.val oneToFour),
              (biasedState [4, 1, 2]).2)).2.1.device 0).memory target 1 = [0, 0, 0, 0x40] := by
  refine ⟨⟨rfl, rfl, rfl, ⟨_, _, rfl, rfl, rfl, rfl, .cons ⟨_, rfl, rfl⟩ .nil⟩, ⟨_, rfl, rfl, rfl⟩,
    ⟨_, rfl, rfl, rfl⟩⟩, ⟨_⟩, ⟨_⟩, rfl, rfl, ?_, ?_, ?_⟩
  · decide +kernel
  · decide +kernel
  · decide +kernel

end Engine

end TensorDataflow
