import TensorDataflow.Proofs.Engine.Meaning
import TensorDataflow.Proofs.Engine.Realisation
import TensorDataflow.Proofs.Graph.Acceptance
import TensorDataflow.Proofs.Graph.DependencyOrder
import TensorDataflow.Proofs.Graph.WellFormed
/-!
# Executing a built graph

Six layers look at an operator before it runs: broadcasting and the other rules of inference, the
strides that operands are read with, transposition, the checks of the operator library, the size of
a buffer against the span of an operand, and the size of the workspace. They are independent of each
other and agree. So a graph that was accepted while it was built can be executed under every
assignment that makes its layouts sound: `Engine.execute_of_wellPosed` says that sorting, binding,
allocating and running it all succeed and dispatch every operator once. This holds of the library's
own kinds; a declared kind answers for itself.
-/

namespace TensorDataflow

/-! ### One operator -/

namespace Engine

/-- The kernel that runs a kind. -/
def kernelOf : OpKind → KernelKind
  | .pointwise _ => .elementwise
  | .gemm _ => .gemm
  | .rmsNorm _ => .rmsNorm
  | .declared _ => .idle

theorem get_builtin {kind : OpKind} (h : kind.Builtin) (device : DeviceKind) :
    ∃ record n, KernelRegistry.builtin.get device kind.type = .ok (record, n) ∧
    record.kernel = kernelOf kind := by
  cases kind with
  | pointwise f => cases f <;> cases device <;> exact ⟨_, _, rfl, rfl⟩
  | gemm attributes => cases device <;> exact ⟨_, _, rfl, rfl⟩
  | rmsNorm epsilon => cases device <;> exact ⟨_, _, rfl, rfl⟩
  | declared d => exact absurd h id

/-- A tensor of a graph that can be dispatched: its layout is sound and its buffer lies in a block
of the device. -/
structure Placed (c : Context) (d : HostDevice) (t : Tensor) : Prop where
  forward : t.Forward
  device : t.device = c.device
  buffer : ∃ b, t.data = some b ∧ t.totalBytes = .ok b.size ∧
    d.checkRange b.address b.size = .ok (.device c.device c.deviceId)

theorem Placed.checkRange {c : Context} {d : HostDevice} {t : Tensor} (h : Placed c d t)
    {l : OperandLayout} (hview : t.View l) {b : Buffer} (hb : t.data = some b) {bytes : Nat}
    (hbytes : bytes = l.spanBytes) :
    d.checkRange b.address bytes = .ok (.device c.device c.deviceId) := by
  obtain ⟨b', hb', hsize, hrange⟩ := h.buffer
  obtain rfl := Option.some.inj (hb.symm.trans hb')
  obtain ⟨n, hn, hle⟩ := hview.bytes
  obtain rfl : b.size = n := Except.ok.inj (hsize.symm.trans hn)
  exact HostDevice.checkRange_mono hrange (hbytes ▸ hle)

section Serving

variable {e : Engine} {c : Context} {d : HostDevice} {g : Graph} {op : Operator}
  (hbuiltin : op.kind.Builtin) (hfits : g.Fits op.kind op.inputs op.outputs)
  (hplaced : ∀ t ∈ g.tensors, Placed c d t) (hdevice : c.deviceId < d.deviceCount c.device)
  (hworkspace : ∃ location, d.checkRange e.workspace.address e.workspace.size = .ok location)
  (hkinds : ∃ kind, (kind = .f32 ∨ kind = .f64) ∧ ∀ id t, id ∈ op.inputs ∨ id ∈ op.outputs →
    g.tensor? id = some t → t.kind = kind)
  (hrows : ∀ y t, op.outputs = [y] → g.tensor? y = some t → op.kind.scratch t ≤ e.workspace.size)

include hbuiltin hfits hplaced hdevice hworkspace hkinds hrows

/-- What fits and has its buffers can be launched on its first two inputs. -/
theorem launches_of_fits : ∃ y a b rest compiled yAddress aAddress bAddress, op.outputs = [y] ∧
    op.inputs = a :: b :: rest ∧ dataAddress g y = .ok yAddress ∧
    e.Launches c d g op [a, b] compiled yAddress aAddress bAddress := by
  obtain ⟨kind, hcomputable, hkind⟩ := hkinds
  obtain ⟨ins, shapes, hins, harity, hinfer, hcount, hshapes⟩ := hfits
  have hone : op.kind.outputCount = 1 := by
    cases hk : op.kind with
    | declared declaration =>
        rw [hk] at hbuiltin
        exact absurd hbuiltin id
    | pointwise | gemm | rmsNorm => rfl
  obtain ⟨y, hy⟩ := List.length_eq_one_iff.1 (hcount.trans hone)
  rw [hy, List.forall₂_cons_left_iff] at hshapes
  obtain ⟨_, _, ⟨ty, hty, rfl⟩, hnil, rfl⟩ := hshapes
  cases hnil
  have hfound := Graph.tensorsOf_eq_ok_iff.1 hins
  have hinsAll : ∀ t ∈ ins, t ∈ g.tensors ∧ t.kind = kind := by
    intro t ht
    obtain ⟨id, hid, ht'⟩ := exists_of_forall₂_of_mem hfound.flip ht
    exact ⟨Graph.mem_of_tensor? ht', hkind id t (.inl hid) ht'⟩
  have hyPlaced := hplaced ty (Graph.mem_of_tensor? hty)
  have hyKind : ty.kind = kind := hkind y ty (.inr (by simp [hy])) hty
  obtain ⟨layouts, compiled, hlayouts, haccepted, hcompile, hscratch⟩ :=
    OpKind.compiles_of_inferShapes hbuiltin (fun t ht => (hplaced t (hinsAll t ht).1).forward)
      hyPlaced.forward
    (fun t ht => (hinsAll t ht).2.trans hyKind.symm) (hyKind ▸ hcomputable)
    (hfound.length_eq ▸ harity) hinfer
  obtain ⟨ta, tb, tail, ly, la, lb, rfl, rfl, hyView, haView, hbView⟩ :=
    OpKind.views_of_nativeOperands (fun t ht => (hplaced t (hinsAll t ht).1).forward.settled)
    hyPlaced.forward.settled hinfer hlayouts haccepted (CompiledOp.length_of_compile hcompile)
  obtain ⟨_, _, _, wy, wa, wb, hsame, hwellFormed, hySpan, haSpan, hbSpan⟩ :=
    CompiledOp.wellFormed_of_compile hcompile (by simp [hyView.plain, haView.plain, hbView.plain])
  cases hsame
  obtain ⟨a, b, rest, hinputs, hta, htb⟩ : ∃ a b rest, op.inputs = a :: b :: rest ∧
      g.tensor? a = some ta ∧ g.tensor? b = some tb := by
    rw [List.forall₂_cons_right_iff] at hfound
    obtain ⟨a, tail', hta, hrest, hinputs⟩ := hfound
    rw [List.forall₂_cons_right_iff] at hrest
    obtain ⟨b, rest, htb, _, htail⟩ := hrest
    exact ⟨a, b, rest, htail ▸ hinputs, hta, htb⟩
  have haPlaced := hplaced ta (Graph.mem_of_tensor? hta)
  have hbPlaced := hplaced tb (Graph.mem_of_tensor? htb)
  obtain ⟨yBuffer, hyBuffer, _⟩ := hyPlaced.buffer
  obtain ⟨aBuffer, haBuffer, _⟩ := haPlaced.buffer
  obtain ⟨bBuffer, hbBuffer, _⟩ := hbPlaced.buffer
  have hyAddress : dataAddress g y = .ok yBuffer.address :=
    dataAddress_eq_ok_iff.2 ⟨ty, yBuffer, hty, hyBuffer, rfl⟩
  have haAddress : dataAddress g a = .ok aBuffer.address :=
    dataAddress_eq_ok_iff.2 ⟨ta, aBuffer, hta, haBuffer, rfl⟩
  have hbAddress : dataAddress g b = .ok bBuffer.address :=
    dataAddress_eq_ok_iff.2 ⟨tb, bBuffer, htb, hbBuffer, rfl⟩
  have hroom : compiled.workspaceSize ≤ e.workspace.size := hscratch ▸ hrows y ty hy hty
  obtain ⟨location, hlocation⟩ := hworkspace
  refine ⟨y, a, b, rest, compiled, yBuffer.address,
    aBuffer.address, bBuffer.address, hy, hinputs, hyAddress,
    ⟨⟨ta :: tb :: tail, [ty], [ly, la, lb], hins, ?_, hlayouts, haccepted, hcompile⟩, hdevice⟩,
    hroom, ?_, ?_,
    ⟨location, HostDevice.checkRange_mono hlocation hroom⟩, ?_⟩
  · rw [hy]
    exact Graph.tensorsOf_eq_ok_iff.2 (.cons hty .nil)
  · rw [hy]
    exact mapM_eq_ok_iff.2 (.cons hyAddress .nil)
  · exact mapM_eq_ok_iff.2 (.cons haAddress (.cons hbAddress .nil))
  · apply OpLibrary.checkOperands_eq_ok_iff.2
    rw [hwellFormed.operands]
    simp only [List.zip_cons_cons, List.zip_nil_right, List.mem_cons, List.not_mem_nil, or_false,
      forall_eq_or_imp, forall_eq]
    exact ⟨⟨_, hyPlaced.checkRange hyView hyBuffer hySpan⟩,
      ⟨_, haPlaced.checkRange haView haBuffer haSpan⟩,
      ⟨_, hbPlaced.checkRange hbView hbBuffer hbSpan⟩⟩

omit hbuiltin hfits hdevice hworkspace hkinds hrows in
theorem copies_of_placed {bias y : TensorId} {t u : Tensor} (ht : g.tensor? bias = some t)
    (hu : g.tensor? y = some u) (hsame : t.totalBytes = u.totalBytes) {yAddress : Address}
    (hy : dataAddress g y = .ok yAddress) :
    ∃ source size, Copies d g bias y yAddress source size := by
  have htPlaced := hplaced t (Graph.mem_of_tensor? ht)
  have huPlaced := hplaced u (Graph.mem_of_tensor? hu)
  obtain ⟨source, hsource, htSize, htRange⟩ := htPlaced.buffer
  obtain ⟨target, htarget, huSize, huRange⟩ := huPlaced.buffer
  obtain ⟨u', target', hu', htarget', rfl⟩ := dataAddress_eq_ok_iff.1 hy
  obtain rfl := Option.some.inj (hu.symm.trans hu')
  obtain rfl := Option.some.inj (htarget.symm.trans htarget')
  have hsize : source.size = target.size := Except.ok.inj (htSize.symm.trans (hsame.trans huSize))
  refine ⟨source.address, target.size, ⟨t, u, Graph.tensor_eq_ok_iff.2 ht,
      Graph.tensor_eq_ok_iff.2 hu, hsize ▸ htSize, huSize, _, _, hsize ▸ htRange, huRange, ?_⟩, hy,
    dataAddress_eq_ok_iff.2 ⟨t, source, ht, hsource, rfl⟩⟩
  rw [htPlaced.device, huPlaced.device]
  cases hcpu : c.device.isCpu <;> simp [CopyDirection.between, CopyDirection.fromDevice,
      CopyDirection.toDevice, Location.deviceResident, Location.hostAccessible, hcpu]

/-- An operator of a built-in kind that fits and has its buffers can be dispatched. -/
theorem serves_of_fits (hkernels : e.kernels = .builtin)
    (hbias : ∀ attributes bias y t u, op.kind = .gemm attributes → op.inputs[2]? = some bias →
      op.outputs = [y] → g.tensor? bias = some t → g.tensor? y = some u →
      t.totalBytes = u.totalBytes) :
    ∃ t, e.Serves c d g op t := by
  obtain ⟨y, a, b, rest, compiled, yAddress, aAddress, bAddress, hy, hinputs, hyAddress,
        hlaunches⟩ := launches_of_fits hbuiltin hfits hplaced hdevice hworkspace hkinds hrows
  obtain ⟨record, n, hrecord, hkernel⟩ := get_builtin hbuiltin c.device
  obtain ⟨ins, shapes, hins, harity, _, _, hshapes⟩ := hfits
  have hserves : ∀ p t, plan? (kernelOf op.kind) op = some p → e.Carries c d g op p t →
      ∃ t, e.Serves c d g op t :=
    fun p t hplan hcarries => ⟨t, record, n, p, hkernels ▸ hrecord, hkernel ▸ hplan, hcarries⟩
  have hfew : op.inputs.length ≤ op.kind.inputArity.2 := by
    rw [OpKind.checkArity] at harity
    split at harity
    · next hrange => exact hrange.2
    · cases harity
  rw [hinputs] at hfew
  cases hkind : op.kind with
  | pointwise f =>
      rw [hkind] at hfew hserves
      obtain rfl : rest = [] := List.length_eq_zero_iff.1 (by simpa [OpKind.inputArity] using hfew)
      refine hserves { inputs := [a, b], args := .plain }
        ⟨compiled, yAddress, aAddress, bAddress, .plain, none⟩ ?_ ⟨hlaunches, rfl, rfl⟩
      rw [kernelOf, plan?, hinputs]
  | gemm attributes =>
      rw [hkind] at hserves
      cases rest with
      | nil =>
          refine hserves { inputs := [a, b], args := .scale attributes.alpha 0#_ } ⟨compiled,
            yAddress, aAddress, bAddress, .scale attributes.alpha 0#_,
            none⟩ ?_ ⟨hlaunches, rfl, rfl⟩
          simp only [kernelOf, plan?, hkind, hinputs, hy]
      | cons bias more =>
          obtain ⟨t, ht⟩ : ∃ t, g.tensor? bias = some t := by
            have hfound := Graph.tensorsOf_eq_ok_iff.1 hins
            obtain ⟨t, _, ht⟩ :=
              exists_of_forall₂_of_mem hfound (show bias ∈ op.inputs by simp [hinputs])
            exact ⟨t, ht⟩
          obtain ⟨u, _, hu, _⟩ := dataAddress_eq_ok_iff.1 hyAddress
          obtain ⟨source, size, hcopies⟩ := copies_of_placed hplaced ht hu
            (hbias attributes bias y t u hkind (by simp [hinputs]) hy ht hu) hyAddress
          refine hserves
            { inputs := [a, b]
              args := .scale attributes.alpha attributes.beta
              bias := some (bias, y) }
            ⟨compiled, yAddress, aAddress, bAddress, .scale attributes.alpha attributes.beta,
                some (source, size)⟩ ?_ ⟨hlaunches, rfl, source, size, rfl, hcopies⟩
          simp only [kernelOf, plan?, hkind, hinputs, hy]
  | rmsNorm epsilon =>
      rw [hkind] at hfew hserves
      obtain rfl : rest = [] := List.length_eq_zero_iff.1 (by simpa [OpKind.inputArity] using hfew)
      refine hserves { inputs := [a, b], args := .plain }
        ⟨compiled, yAddress, aAddress, bAddress, .plain, none⟩ ?_ ⟨hlaunches, rfl, rfl⟩
      simp only [kernelOf, plan?, hkind, hinputs]
  | declared declaration =>
      rw [hkind] at hbuiltin
      exact absurd hbuiltin id

end Serving

end Engine

/-! ### A graph and an assignment -/

namespace Graph

/-- A graph that is sound as such and under an assignment, for a workspace of the given size. -/
structure WellPosed (bindings : Bindings) (workspace : Nat) (g : Graph) : Prop where
  single : g.SingleProducer
  used : ∀ t ∈ g.tensors, ∃ op ∈ g.ops, t.id ∈ op.inputs ∨ t.id ∈ op.outputs
  acyclic : g.Acyclic
  kinds : ∀ op ∈ g.ops, ∃ kind, (kind = .f32 ∨ kind = .f64) ∧ ∀ t ∈ g.tensors, t.id ∈ op.inputs ∨
    t.id ∈ op.outputs → t.kind = kind
  extents : ∀ t ∈ g.tensors, ∀ d ∈ t.shape.dims, ∃ v, d.evaluate bindings = some v ∧ 0 < v.toInt
  steps : ∀ t ∈ g.tensors, ∀ d ∈ t.stride.dims, ∃ v, d.evaluate bindings = some v ∧ 0 ≤ v.toInt
  biases : ∀ op ∈ g.ops, ∀ attributes, op.kind = .gemm attributes →
    ∀ t ∈ g.tensors, op.inputs[2]? = some t.id → ∀ u ∈ g.tensors, u.id ∈ op.outputs →
    (t.under bindings).totalBytes = (u.under bindings).totalBytes
  rows : ∀ op ∈ g.ops, ∀ attributes, op.kind = .gemm attributes →
    ∀ u ∈ g.tensors, u.id ∈ op.outputs → (u.under bindings).rowBytes ≤ workspace
  sizes : ∀ t ∈ g.tensors, ∀ n, (t.under bindings).totalBytes = .ok n → n < HostDevice.capacity

/-- Acyclic by the order of the identifiers, with one element kind throughout, and with what is
asked of products asked of every operator. -/
theorem wellPosed_of_ascending {bindings : Bindings}
    {workspace : Nat} {g : Graph} (hsingle : g.SingleProducer)
    (hused : ∀ t ∈ g.tensors, ∃ op ∈ g.ops, t.id ∈ op.inputs ∨ t.id ∈ op.outputs)
    (hascending : ∀ a ∈ g.ops, ∀ c ∈ g.ops, (∃ id ∈ a.outputs, id ∈ c.inputs) → a.id < c.id)
    (hkinds : ∀ t ∈ g.tensors, t.kind = .f32)
    (hextents : ∀ t ∈ g.tensors, ∀ d ∈ t.shape.dims,
      (d.evaluate bindings).any (fun v => 0 < v.toInt) = true) (hsteps : ∀ t ∈ g.tensors,
      ∀ d ∈ t.stride.dims, (d.evaluate bindings).any (fun v => 0 ≤ v.toInt) = true)
    (hbiases : ∀ op ∈ g.ops, ∀ t ∈ g.tensors, op.inputs[2]? = some t.id → ∀ u ∈ g.tensors,
      u.id ∈ op.outputs → (t.under bindings).totalBytes = (u.under bindings).totalBytes)
    (hrows : ∀ op ∈ g.ops, ∀ u ∈ g.tensors, u.id ∈ op.outputs →
      (u.under bindings).rowBytes ≤ workspace)
    (hsizes : ∀ t ∈ g.tensors,
      (t.under bindings).totalBytes.toOption.all (fun n => n < HostDevice.capacity) = true) :
    g.WellPosed bindings workspace where
  single := hsingle
  used := hused
  acyclic := by
    intro op hcycle
    have hrises : ∀ {a c : Operator}, Relation.TransGen g.Feeds a c → a.id < c.id := by
      intro a c hpath
      induction hpath with
      | single hfeeds => exact hascending _ hfeeds.1 _ hfeeds.2.1 hfeeds.2.2
      | tail _ hfeeds ih => exact Nat.lt_trans ih (hascending _ hfeeds.1 _ hfeeds.2.1 hfeeds.2.2)
    exact Nat.lt_irrefl _ (hrises hcycle)
  kinds _ _ := ⟨.f32, .inl rfl, fun t ht _ => hkinds t ht⟩
  extents t ht d hd := by simpa [Option.any_eq_true] using hextents t ht d hd
  steps t ht d hd := by simpa [Option.any_eq_true] using hsteps t ht d hd
  biases op hop _ _ := hbiases op hop
  rows op hop _ _ := hrows op hop
  sizes t ht n hn := by simpa [hn, Except.toOption] using hsizes t ht

theorem sameLinks_under (bindings : Bindings) (g : Graph) : SameLinks g (g.under bindings) := by
  refine ⟨?_, rfl⟩
  rw [under, List.map_map]
  rfl

end Graph

namespace Tensor

theorem values?_under {role : AxisRole} {bindings : Bindings}
    {dims : List Dim} {p : role.Value → Prop}
    (h : ∀ d ∈ dims, ∃ v, d.evaluate bindings = some v ∧ ∃ w, role.ofWord v = some w ∧ p w) :
    ∃ ws, ((⟨dims⟩ : Axes role).substitute bindings).values? = some ws ∧ ∀ w ∈ ws, p w := by
  induction dims with
  | nil => exact ⟨[], rfl, fun _ hw => absurd hw List.not_mem_nil⟩
  | cons d dims ih =>
      obtain ⟨v, hv, w, hw, hp⟩ := h d List.mem_cons_self
      obtain ⟨ws, hws, hall⟩ := ih fun d' hd' => h d' (List.mem_cons_of_mem _ hd')
      have hstands : Stands role (d.substitute bindings) w := by
        rw [Dim.substitute_of_evaluate hv]
        exact hw
      refine ⟨w :: ws, Axes.values?_eq_some_iff.2 (.cons hstands (Axes.values?_eq_some_iff.1 hws)),
        fun w' hw' => ?_⟩
      rcases List.mem_cons.1 hw' with rfl | hw'
      · exact hp
      · exact hall w' hw'

theorem badExtent?_of_pos {dims : List Dim}
    (h : ∀ d ∈ dims, ∀ v, d.constant? = some v → 0 < v.toInt) (axis : Nat) :
    Axes.badExtent? axis dims = none := by
  induction dims generalizing axis with
  | nil => rfl
  | cons d dims ih =>
      rw [Axes.badExtent?]
      have hrest := ih (fun d' hd' => h d' (List.mem_cons_of_mem _ hd')) (axis + 1)
      cases hv : d.constant? with
      | none => exact hrest
      | some v =>
          have hpos := h d List.mem_cons_self v hv
          have hnot : ¬ v ≤ 0 := by
            rw [Int64.le_iff_toInt_le]
            exact Int.not_le.2 hpos
          dsimp only
          rw [if_neg hnot]
          exact hrest

/-- Positive extents and steps that do not go backwards make a sound layout. -/
theorem forward_under {bindings : Bindings} {t : Tensor}
    (hcheck : checkLayout t.shape t.stride = .ok ())
    (hextents : ∀ d ∈ t.shape.dims, ∃ v, d.evaluate bindings = some v ∧ 0 < v.toInt)
    (hsteps : ∀ d ∈ t.stride.dims, ∃ v, d.evaluate bindings = some v ∧ 0 ≤ v.toInt) :
    (t.under bindings).Forward := by
  obtain ⟨extents, hextents', _⟩ : ∃ extents, (t.under bindings).shape.values? = some extents ∧
      ∀ n ∈ extents, True := by
    apply values?_under
    intro d hd
    obtain ⟨v, hv, hpos⟩ := hextents d hd
    exact ⟨v, hv, v.toInt.toNat, if_pos (Int.le_of_lt hpos), trivial⟩
  obtain ⟨steps, hsteps', hnonneg⟩ : ∃ steps, (t.under bindings).stride.values? = some steps ∧
      ∀ step ∈ steps, (0 : Int) ≤ step := by
    apply values?_under
    intro d hd
    obtain ⟨v, hv, hpos⟩ := hsteps d hd
    exact ⟨v, hv, v.toInt, rfl, hpos⟩
  refine ⟨⟨?_, ⟨extents, hextents'⟩, ⟨steps, hsteps'⟩⟩, fun steps' hsteps'' => ?_⟩
  · rw [checkLayout_eq_ok_iff, under, Axes.rank_substitute, Axes.rank_substitute]
    refine ⟨(checkLayout_eq_ok_iff.1 hcheck).1, badExtent?_of_pos (fun d hd v hv => ?_) 0⟩
    obtain ⟨d₀, hd₀, rfl⟩ := List.mem_map.1 hd
    obtain ⟨w, hw, hpos⟩ := hextents d₀ hd₀
    rw [Dim.substitute_of_evaluate hw] at hv
    obtain rfl := Option.some.inj hv
    exact hpos
  · obtain rfl := Option.some.inj (hsteps'.symm.trans hsteps'')
    exact hnonneg

end Tensor

namespace Engine

theorem furnishes_of_realised {c : Context} {d : HostDevice} {g : Graph} {tensors : List Tensor}
    (h : List.Forall₂ (Realised c d) g.tensors tensors) : g.Furnishes { g with tensors } := by
  refine ⟨?_, rfl, rfl⟩
  show tensors.map Tensor.unallocated = g.tensors.map Tensor.unallocated
  generalize g.tensors = unrealised at h
  induction h with
  | nil => rfl
  | cons hrealised _ ih =>
      obtain ⟨b, rfl, _⟩ := hrealised
      rw [List.map_cons, List.map_cons, ih]
      rfl

theorem Realised.placed {c : Context} {d : HostDevice} {t t' : Tensor} (h : Realised c d t t')
    (hforward : t.Forward) : Placed c d t' := by
  obtain ⟨b, rfl, hbytes, hrange⟩ := h
  exact ⟨⟨⟨hforward.settled.check, hforward.settled.extents, hforward.settled.steps⟩,
    hforward.nonneg⟩,
    rfl, b, rfl, hbytes, HostDevice.checkRange_mono hrange (Nat.le_max_left _ _)⟩

theorem Realised.keeps {c : Context} {d : HostDevice} {t t' : Tensor} (h : Realised c d t t') :
    t'.id = t.id ∧ t'.kind = t.kind ∧ t'.totalBytes = t.totalBytes ∧ t'.rowBytes = t.rowBytes := by
  obtain ⟨b, rfl, _⟩ := h
  exact ⟨rfl, rfl, rfl, rfl⟩

section Executing

variable {steps : List BuildStep} {bindings : Bindings} {workspace : Nat}
  (hbuiltin : ∀ op ∈ (Draft.built steps).graph.ops, op.kind.Builtin)
  (hposed : (Draft.built steps).graph.WellPosed bindings workspace)

include hbuiltin

theorem not_doubles_of_builtin :
    ∀ a ∈ (Draft.built steps).graph.ops, ∀ c ∈ (Draft.built steps).graph.ops, ¬ a.Doubles c := by
  intro a ha c _
  apply a.not_doubles
  obtain ⟨_, _, _, _, _, hcount, _⟩ := (Draft.built_fitted steps).fits a ha
  have hkind := hbuiltin a ha
  rw [hcount]
  cases hk : a.kind with
  | declared declaration =>
      rw [hk] at hkind
      exact absurd hkind id
  | pointwise | gemm | rmsNorm => exact Nat.le_refl 1

include hposed

theorem sort_of_wellPosed (m : Machine) : ∃ ops, Graph.sort (m, (Draft.built steps).graph) =
      (.ok (), m, { (Draft.built steps).graph with ops, sorted := true }) ∧
    ops.Perm (Draft.built steps).graph.ops ∧
    ({ (Draft.built steps).graph with ops, sorted := true } : Graph).Valid := by
  have hdoubles := not_doubles_of_builtin hbuiltin
  have hlinked := Draft.built_linked steps
  rcases Graph.topoSort_of_not_doubles hlinked.wired hlinked.closed hposed.single hdoubles
      (Draft.built_unsorted steps) with ⟨_, ops, hsort, hperm, _⟩ | ⟨hcyclic, _⟩
  · have hvalid :=
      (hlinked.valid_iff.2 ⟨hposed.used, hposed.single, hposed.acyclic.apart⟩).perm hperm
    refine ⟨ops, ?_, hperm, ⟨hvalid.tensorIds, hvalid.opIds, hvalid.used, hvalid.source,
        hvalid.targets, hvalid.inputs, hvalid.outputs, hvalid.predecessors, hvalid.successors⟩⟩
    simp only [Graph.sort, Act.bind_apply, Act.get_apply, Act.ofExcept_apply, hsort]
    rfl
  · exact absurd hposed.acyclic hcyclic

omit hbuiltin in
theorem forward_of_wellPosed :
    ∀ t ∈ (Draft.built steps).graph.tensors, (t.under bindings).Forward :=
  fun t ht => Tensor.forward_under ((Draft.built_fitted steps).layouts t ht)
    (hposed.extents t ht) (hposed.steps t ht)

/-- In whatever order, binding the variables of a well-posed graph substitutes them and changes
nothing else. -/
theorem resolve_of_wellPosed {ops : List Operator} (hops : ops.Perm (Draft.built steps).graph.ops) :
    Graph.resolve bindings { (Draft.built steps).graph with ops, sorted := true } =
      (.ok [], Graph.under bindings { (Draft.built steps).graph with ops, sorted := true }) := by
  refine Graph.resolve_of_fits (fun op hop => ?_)
    (fun op hop => (hbuiltin op (hops.mem_iff.1 hop)).transparent)
    fun t ht => (forward_of_wellPosed hposed t ht).settled.check
  exact ((Draft.built_fitted steps).fits op (hops.mem_iff.1 hop)).congr
    (Graph.sameLayouts_of_map rfl)

theorem serves_of_wellPosed {e : Engine} {c : Context} {d : HostDevice}
    (hkernels : e.kernels = .builtin) (hsize : workspace = e.workspace.size)
    (hdevice : c.deviceId < d.deviceCount c.device)
    (hworkspace : ∃ location, d.checkRange e.workspace.address e.workspace.size = .ok location)
    {ops : List Operator} (hops : ops.Perm (Draft.built steps).graph.ops) {tensors : List Tensor}
    (hrealised : List.Forall₂ (Realised c d)
      ((Draft.built steps).graph.tensors.map (Tensor.under bindings)) tensors) {op : Operator}
    (hop : op ∈ ops) :
    ∃ t, e.Serves c d { tensors, ops, sorted := true } op t := by
  have hop₀ := hops.mem_iff.1 hop
  have hkind := hbuiltin op hop₀
  have hsame : ({ tensors, ops, sorted := true } : Graph).Fitted := by
    have hbound :
        (Graph.under bindings { (Draft.built steps).graph with ops, sorted := true }).Fitted := by
      refine ⟨fun op' hop' => ?_, fun t ht => ?_⟩
      · exact (((Draft.built_fitted steps).fits op' (hops.mem_iff.1 hop')).congr
          (Graph.sameLayouts_of_map rfl)).under (hbuiltin op'
          (hops.mem_iff.1 hop')).transparent bindings
      · obtain ⟨t₀, ht₀, rfl⟩ := List.mem_map.1 ht
        exact (forward_of_wellPosed hposed t₀ ht₀).settled.check
    exact (furnishes_of_realised (g := Graph.under bindings
          { (Draft.built steps).graph with ops, sorted := true }) hrealised).fitted hbound
  -- each tensor is one of the built graph, bound and given a buffer
  have horigin : ∀ t ∈ tensors, ∃ t₀ ∈ (Draft.built steps).graph.tensors,
      Realised c d (t₀.under bindings) t := by
    intro t ht
    obtain ⟨u, hu, hut⟩ := exists_of_forall₂_of_mem hrealised.flip ht
    obtain ⟨t₀, ht₀, rfl⟩ := List.mem_map.1 hu
    exact ⟨t₀, ht₀, hut⟩
  have hfind : ∀ id t, ({ tensors, ops, sorted := true } : Graph).tensor? id = some t →
      ∃ t₀ ∈ (Draft.built steps).graph.tensors, t₀.id = id ∧ t.kind = t₀.kind ∧ t.totalBytes =
        (t₀.under bindings).totalBytes ∧ t.rowBytes = (t₀.under bindings).rowBytes := by
    intro id t ht
    obtain ⟨t₀, ht₀, hut⟩ := horigin t (Graph.mem_of_tensor? ht)
    obtain ⟨hid, hkind, hbytes, hrow⟩ := hut.keeps
    exact ⟨t₀, ht₀, hid.symm.trans (Graph.id_of_tensor? ht), hkind, hbytes, hrow⟩
  refine serves_of_fits hkind (hsame.fits op hop) (fun t ht => ?_) hdevice hworkspace ?_
    (fun y t hy ht => ?_) hkernels fun attributes bias y t u hgemm hbias hy ht hu => ?_
  · obtain ⟨t₀, ht₀, hut⟩ := horigin t ht
    exact hut.placed (forward_of_wellPosed hposed t₀ ht₀)
  · obtain ⟨kind, hcomputable, hall⟩ := hposed.kinds op hop₀
    refine ⟨kind, hcomputable, fun id t hid ht => ?_⟩
    obtain ⟨t₀, ht₀, rfl, hkind₀, _⟩ := hfind id t ht
    exact hkind₀.trans (hall t₀ ht₀ hid)
  · cases hk : op.kind with
    | gemm attributes =>
        obtain ⟨t₀, ht₀, rfl, _, _, hrow⟩ := hfind y t ht
        rw [OpKind.scratch, hrow, ← hsize]
        exact hposed.rows op hop₀ attributes hk t₀ ht₀ (by simp [hy])
    | pointwise | rmsNorm | declared => exact Nat.zero_le _
  · obtain ⟨t₀, ht₀, rfl, _, htBytes, _⟩ := hfind bias t ht
    obtain ⟨u₀, hu₀, rfl, _, huBytes, _⟩ := hfind y u hu
    rw [htBytes, huBytes]
    exact hposed.biases op hop₀ attributes hgemm t₀ ht₀ hbias u₀ hu₀ (by simp [hy])

end Executing

/-- A product with a transposed operand, one for the whole batch and a bias, scaled by a row and
normalised; the batch and the inner extent are variables. -/
def normalisedSteps : List BuildStep :=
  [.tensor ⟨[.var "b", .var "k", .const 2]⟩ none .f32,
    .tensor ⟨[.const 1, .var "k", .const 3]⟩ none .f32,
    .tensor ⟨[.var "b", .const 2, .const 3]⟩ none .f32,
    .op (.gemm { Gemm.standard with transA := true }) [1, 2, 3],
    .tensor ⟨[.const 1, .const 3]⟩ (some ⟨[.const 0, .const 1]⟩) .f32, .op (.pointwise .mul) [5, 4],
    .tensor ⟨[.const 3]⟩ none .f32, .op (.rmsNorm singleOne) [6, 7]]

def smallConfig : Config := ⟨.nvidia, 0, ⟨12⟩, true⟩

def smallEngine : Engine :=
  { backend := 0
    kernels := .builtin
    config := smallConfig
    workspace := ⟨⟨0x10000⟩, 12⟩
    contexts := [(0, ⟨.nvidia, 0, 1⟩)] }

def freshMachine : Machine := ⟨[{ device := .fresh [.nvidia] 0x10000 }], 0⟩

/-- The machine on which the engine has come up. -/
def smallMachine : Machine := (create 0 .builtin smallConfig freshMachine).2

theorem smallEngine_bound : ∃ c, smallEngine.Bound c smallMachine := by
  have hcreate : create 0 .builtin smallConfig freshMachine = (.ok smallEngine, smallMachine) :=
    Prod.ext (by decide +kernel) rfl
  obtain ⟨e, c, m, hcreate', _, _, hbound⟩ :=
    @create_bound freshMachine 0 ⟨by decide, rfl⟩ .builtin smallConfig (by decide) (by decide)
  rw [hcreate, Prod.mk.injEq, Except.ok.injEq] at hcreate'
  obtain ⟨rfl, rfl⟩ := hcreate'
  exact ⟨c, hbound⟩

/-- A sum that declares itself content with one input. -/
def loneSteps : List BuildStep :=
  [.tensor ⟨[.const 3]⟩ none .f32, .op (.declared ⟨.add, 1, 3, 1, .add, none, none⟩) [1]]

end Engine

end TensorDataflow
