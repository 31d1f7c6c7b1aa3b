import TensorDataflow.Graph.Validity
import TensorDataflow.Proofs.Graph.Drafting
import TensorDataflow.Proofs.Layout.Broadcasting
import TensorDataflow.Proofs.Layout.Coordinates
import TensorDataflow.Proofs.Library.Compiled
import TensorDataflow.Proofs.Machine.Calls
/-!
# Operands inside their tensors

A tensor's storage reaches from its lowest to its highest element, a native operand from its base to
the end of its furthest. An operand that the library accepts is a view of its tensor: the tensor's
own layout, with two axes exchanged, or read through a larger shape. Whichever it is, it never spans
more bytes than the tensor's storage has.
-/

namespace TensorDataflow

namespace Axes

theorem values?_eq_some_iff {role : AxisRole} {axes : Axes role} {vs : List role.Value} :
    axes.values? = some vs ↔
    List.Forall₂ (fun d v => d.constant?.bind role.ofWord = some v) axes.dims vs :=
  mapM_eq_some_iff

theorem pos_of_badExtent? {axis : Nat} {dims : List Dim} (h : badExtent? axis dims = none) :
    ∀ d ∈ dims, ∀ v, d.constant? = some v → 0 < v.toInt := by
  induction dims generalizing axis with
  | nil => exact fun d hd => absurd hd List.not_mem_nil
  | cons d dims ih =>
      rw [badExtent?] at h
      intro d' hd' v hv
      rcases List.mem_cons.1 hd' with rfl | hd'
      · rw [hv] at h
        dsimp only at h
        split at h
        · cases h
        · next hpos =>
            rw [Int64.le_iff_toInt_le] at hpos
            exact Int.lt_of_not_ge hpos
      · split at h
        · split at h
          · cases h
          · exact ih h d' hd' v hv
        · exact ih h d' hd' v hv

/-- The extents of a shape that has passed the check are neither empty nor too long for a signed
word. -/
theorem extents_of_values? {shape : Shape} {axis : Nat} (hcheck : badExtent? axis shape.dims = none)
    {extents : List Nat} (h : shape.values? = some extents) :
    ∀ n ∈ extents, 0 < n ∧ n < 0x8000000000000000 := by
  have hvalues := values?_eq_some_iff.1 h
  have hpos := pos_of_badExtent? hcheck
  clear h hcheck
  generalize shape.dims = dims at hvalues hpos
  induction hvalues with
  | nil => exact fun n hn => absurd hn List.not_mem_nil
  | @cons d n dims extents hd _ ih =>
      intro n' hn'
      rcases List.mem_cons.1 hn' with rfl | hn'
      · obtain ⟨v, hv, hword⟩ := Option.bind_eq_some_iff.1 hd
        have hvpos := hpos d List.mem_cons_self v hv
        have hvlt : v.toInt < 0x8000000000000000 := v.toInt_lt
        rw [AxisRole.ofWord_extent_eq_some_iff.1 hword] at hvpos hvlt
        omega
      · exact ih (fun d' hd' => hpos d' (List.mem_cons_of_mem _ hd')) n' hn'

end Axes

namespace OperandLayout

theorem Accepted.plain {l : OperandLayout} (h : l.Accepted)
    (hextents : ∀ n ∈ l.shape, 0 < n ∧ n < 0x8000000000000000) : l.Plain :=
  ⟨h.1, h.2, hextents⟩

/-! ### Storage -/

/-- Axes that reach no further than those of a tensor stay inside its storage. -/
theorem reach_lt_extentOf {axes : List (Nat × Int)} {shape : List Nat} {stride : List Int}
    (hpos : ∀ n ∈ shape, 0 < n)
    (h : List.Forall₂ (fun axis axis' => (((axis.1 - 1) * axis.2.natAbs : Nat) : Int) ≤
        max 0 (((axis'.1 : Int) - 1) * axis'.2)) axes (shape.zip stride)) :
    reach axes < Tensor.extentOf shape stride := by
  have hlow := lowest_nonpos (shape.zip stride)
  have hhigh : (reach axes : Int) ≤ highest (shape.zip stride) := by
    clear hpos hlow
    generalize shape.zip stride = axes' at h
    induction h with
    | nil => exact Int.le_refl 0
    | @cons axis axis' axes axes' haxis _ ih =>
        rw [reach_cons, highest_cons]
        omega
  have hextent := extentOf_eq hpos stride
  omega

/-! ### Exchanged axes -/

theorem exchangeAt_perm {α : Type} (i : Nat) (xs : List α) : (exchangeAt i xs).Perm xs := by
  fun_induction exchangeAt i xs with
  | case1 a b rest => exact .swap a b rest
  | case2 i a rest ih => exact ih.cons a
  | case3 => exact .refl _

theorem zip_exchangeAt {α β : Type} (i : Nat) {xs : List α}
    {ys : List β} (h : xs.length = ys.length) :
    (exchangeAt i xs).zip (exchangeAt i ys) = exchangeAt i (xs.zip ys) := by
  induction xs generalizing i ys with
  | nil =>
      obtain rfl := List.length_eq_zero_iff.1 h.symm
      cases i <;> rfl
  | cons x xs ih =>
      cases ys with
      | nil => cases h
      | cons y ys =>
          rw [List.length_cons, List.length_cons, Nat.add_right_cancel_iff] at h
          cases i with
          | succ i => simp only [exchangeAt, List.zip_cons_cons, ih i h]
          | zero =>
              cases xs with
              | nil =>
                  obtain rfl := List.length_eq_zero_iff.1 h.symm
                  rfl
              | cons x' xs =>
                  cases ys with
                  | nil => cases h
                  | cons y' ys => rfl

theorem Plain.transposed {l : OperandLayout} (h : l.Plain) :
    l.transposed.Plain ∧ l.transposed.lastOffset = l.lastOffset := by
  unfold OperandLayout.transposed
  split
  · exact ⟨h, rfl⟩
  · refine ⟨⟨by rw [length_exchangeAt, length_exchangeAt, h.rank],
      fun step hstep => h.steps step ((exchangeAt_perm _ _).mem_iff.1 hstep),
      fun extent hextent => h.extents extent ((exchangeAt_perm _ _).mem_iff.1 hextent)⟩, ?_⟩
    rw [lastOffset_eq, lastOffset_eq, zip_exchangeAt _ h.rank, reach, reach]
    exact ((exchangeAt_perm _ _).map _).sum_eq

theorem kind_transposed (l : OperandLayout) : l.transposed.kind = l.kind := by
  unfold transposed
  split <;> rfl

theorem Plain.spanBytes_transposed {l : OperandLayout} (h : l.Plain) :
    l.transposed.spanBytes = l.spanBytes := by
  rw [h.transposed.1.spanBytes_eq, h.spanBytes_eq, h.transposed.2, kind_transposed]

end OperandLayout

/-! ### Views -/

/-- An operand that lies inside the storage of a tensor. -/
structure Tensor.View (t : Tensor) (l : OperandLayout) : Prop where
  kind : l.kind = t.kind
  plain : l.Plain
  bytes : ∃ n, t.totalBytes = .ok n ∧ l.spanBytes ≤ n

namespace Tensor

/-- A tensor of singles with constant extents and steps. -/
def ofWords (shape stride : List Int64) : Tensor :=
  { id := 0, kind := .f32, shape := .ofWords shape, stride := .ofWords stride }

theorem checkLayout_eq_ok_iff {shape : Shape} {stride : Stride} : checkLayout shape stride =
      .ok () ↔ shape.rank = stride.rank ∧ Axes.badExtent? 0 shape.dims = none := by
  rw [checkLayout]
  by_cases hrank : shape.rank = stride.rank
  · rw [if_neg (not_not.2 hrank)]
    cases Axes.badExtent? 0 shape.dims with
    | none => simp [hrank]
    | some bad => simp
  · rw [if_pos hrank]
    simp [hrank]

theorem concreteShape_eq_ok_iff {t : Tensor} {extents : List Nat} :
    t.concreteShape = .ok extents ↔ t.shape.values? = some extents := by
  rw [concreteShape]
  cases t.shape.values? <;> simp

theorem concreteStride_eq_ok_iff {t : Tensor} {steps : List Int} :
    t.concreteStride = .ok steps ↔ t.stride.values? = some steps := by
  rw [concreteStride]
  cases t.stride.values? <;> simp

theorem layout_eq_ok_iff {t : Tensor} {l : OperandLayout} : t.layout = .ok l ↔
    t.shape.values? = some l.shape ∧ t.stride.values? = some l.strides ∧ l.kind = t.kind := by
  rw [← concreteShape_eq_ok_iff, ← concreteStride_eq_ok_iff, layout]
  obtain ⟨shape, strides, kind⟩ := l
  cases t.concreteShape with
  | error e => simp [bind, Except.bind]
  | ok extents => cases t.concreteStride <;> simp [bind, Except.bind, pure, Except.pure, eq_comm]

theorem totalBytes_of_values? {t : Tensor} {extents : List Nat} {steps : List Int}
    (hextents : t.shape.values? = some extents) (hsteps : t.stride.values? = some steps) :
    t.totalBytes = .ok (extentOf extents steps * t.kind.size) := by
  rw [totalBytes, storageSize, concreteShape_eq_ok_iff.2 hextents,
    concreteStride_eq_ok_iff.2 hsteps]
  rfl

theorem axis_le {extent : Nat} {step : Int} (hextent : 0 < extent) (hstep : 0 ≤ step) :
    (((extent - 1) * step.natAbs : Nat) : Int) ≤ max 0 (((extent : Int) - 1) * step) := by
  rw [Nat.cast_mul, Int.natAbs_of_nonneg hstep, Nat.cast_sub hextent]
  exact Int.le_max_right _ _

theorem view_of_layout {t : Tensor} (hcheck : checkLayout t.shape t.stride = .ok ())
    {l : OperandLayout} (h : t.layout = .ok l) (haccepted : l.Accepted) : t.View l := by
  obtain ⟨hshape, hstride, hkind⟩ := layout_eq_ok_iff.1 h
  have hplain := haccepted.plain (Axes.extents_of_values? (checkLayout_eq_ok_iff.1 hcheck).2 hshape)
  refine ⟨hkind, hplain, _, totalBytes_of_values? hshape hstride, ?_⟩
  rw [hplain.spanBytes_eq, OperandLayout.lastOffset_eq, hkind]
  apply Nat.mul_le_mul_right
  apply OperandLayout.reach_lt_extentOf fun n hn => (hplain.extents n hn).1
  refine List.forall₂_same.2 fun axis haxis => ?_
  obtain ⟨hextent, hstep⟩ := hplain.axes axis haxis
  exact axis_le hextent.1 hstep

theorem View.transposed {t : Tensor} {l : OperandLayout} (h : t.View l) : t.View l.transposed := by
  refine ⟨(OperandLayout.kind_transposed l).trans h.kind, h.plain.transposed.1, ?_⟩
  rw [h.plain.spanBytes_transposed]
  exact h.bytes

theorem view_of_matrixOperand {t : Tensor} (hcheck : checkLayout t.shape t.stride = .ok ())
    {l : OperandLayout} {transposed : Bool} (h : OpKind.matrixOperand t transposed = .ok l)
    (haccepted : l.Accepted) : t.View l := by
  obtain ⟨l₀, hl₀, hl⟩ := except_bind_eq_ok.1 h
  cases transposed with
  | false =>
      obtain rfl : l₀ = l := Except.ok.inj hl
      exact view_of_layout hcheck hl₀ haccepted
  | true =>
      obtain rfl : l₀.transposed = l := Except.ok.inj hl
      apply View.transposed
      apply view_of_layout hcheck hl₀
      unfold OperandLayout.transposed at haccepted
      split at haccepted
      · exact haccepted
      · obtain ⟨hrank, hsteps⟩ := haccepted
        rw [OperandLayout.length_exchangeAt, OperandLayout.length_exchangeAt] at hrank
        exact ⟨hrank,
          fun step hstep => hsteps step ((OperandLayout.exchangeAt_perm _ _).mem_iff.2 hstep)⟩

/-- The word that an entry stands for. -/
abbrev Stands (role : AxisRole) (d : Dim) (v : role.Value) : Prop :=
  d.constant?.bind role.ofWord = some v

theorem lt_of_stands {d : Dim} {n : Nat} (h : Stands .extent d n) : n < 0x8000000000000000 := by
  obtain ⟨v, _, hword⟩ := Option.bind_eq_some_iff.1 h
  have hlt : v.toInt < 0x8000000000000000 := v.toInt_lt
  rw [AxisRole.ofWord_extent_eq_some_iff.1 hword] at hlt
  omega

/-- The extents of a concrete layout are words, so they are not too long. -/
theorem sized_of_layout {t : Tensor} {l : OperandLayout} (h : t.layout = .ok l)
    (hpos : ∀ extent ∈ l.shape, 0 < extent) : l.Sized := by
  intro extent hextent
  have hvalues := Axes.values?_eq_some_iff.1 (layout_eq_ok_iff.1 h).1
  obtain ⟨d, _, hd⟩ := exists_of_forall₂_of_mem hvalues.flip hextent
  exact ⟨hpos extent hextent, lt_of_stands hd⟩

theorem Stands.unique {role : AxisRole} {d : Dim} {v w : role.Value} (h : Stands role d v)
    (h' : Stands role d w) : v = w :=
  Option.some.inj (h.symm.trans h')

/-! ### Reading through a larger shape -/

theorem isOne_iff_of_stands {d : Dim} {n : Nat} (h : Stands .extent d n) : d.isOne ↔ n = 1 := by
  obtain ⟨v, hv, hword⟩ := Option.bind_eq_some_iff.1 h
  have hone : v = 1 ↔ v.toInt = 1 := Int64.toInt_inj.symm
  rw [Dim.isOne, hv, beq_iff_eq, Option.some_inj, hone, AxisRole.ofWord_extent_eq_some_iff.1 hword,
    Nat.cast_eq_one]

theorem stands_replicate_zero (count : Nat) :
    List.Forall₂ (Stands .step) (List.replicate count (.const 0)) (List.replicate count 0) := by
  induction count with
  | zero => exact .nil
  | succ count ih => exact .cons rfl ih

theorem stands_stepsAlong {extentDims stepDims : List Dim} {extents : List Nat} {steps : List Int}
    (hextents : List.Forall₂ (Stands .extent) extentDims extents)
    (hsteps : List.Forall₂ (Stands .step) stepDims steps) : List.Forall₂ (Stands .step)
    (Axes.stepsAlong extentDims stepDims) (OperandLayout.ownSteps extents steps) := by
  induction hextents generalizing stepDims steps with
  | nil => exact .nil
  | @cons d extent extentDims extents hextent _ ih =>
      cases hsteps with
      | nil => exact .nil
      | @cons e step stepDims steps hstep hrest =>
          refine .cons ?_ (ih hrest)
          have hone := isOne_iff_of_stands hextent
          dsimp only
          split
          · next hd =>
              rw [if_pos (hone.1 hd)]
              rfl
          · next hd =>
              rw [if_neg fun hextent => hd (hone.2 hextent)]
              exact hstep

theorem readsAs_values {input output : Shape} (h : input.ReadsAs output) {extents reads : List Nat}
    (hinput : input.values? = some extents) (houtput : output.values? = some reads) :
    OperandLayout.ReadsAs extents reads := by
  obtain ⟨front, back, hdims, hback⟩ := h
  have hextents := Axes.values?_eq_some_iff.1 hinput
  have hdrop := List.forall₂_drop front.length (Axes.values?_eq_some_iff.1 houtput)
  rw [hdims, List.drop_left] at hdrop
  refine ⟨reads.take front.length, reads.drop front.length, (List.take_append_drop _ _).symm, ?_⟩
  generalize reads.drop front.length = own at hdrop
  generalize input.dims = dims at hback hextents
  clear hinput houtput hdims
  induction hback generalizing extents own with
  | nil =>
      cases hextents
      cases hdrop
      exact .nil
  | @cons a d as ds had _ ih =>
      cases hextents with
      | @cons _ extent _ extents hextent hextents =>
          cases hdrop with
          | @cons _ read _ reads hread hdrop =>
              refine .cons (had.imp ?_ (isOne_iff_of_stands hextent).1) (ih _ hdrop hextents)
              intro hsame
              exact (hsame ▸ hextent : Stands .extent d extent).unique hread

/-- An input of an element-wise operator is its own layout, expanded to the output's shape. -/
theorem broadcastOperand_eq {t : Tensor} {l : OperandLayout} (h : t.layout = .ok l)
    (hrank : l.shape.length = l.strides.length) (y : OperandLayout) :
    OpKind.broadcastOperand y t = .ok (l.expanded y.shape) := by
  obtain ⟨hshape, hstride, hkind⟩ := layout_eq_ok_iff.1 h
  have hextents := Axes.values?_eq_some_iff.1 hshape
  have hsteps := Axes.values?_eq_some_iff.1 hstride
  have hranks : t.shape.rank = t.stride.rank := by
    rw [Axes.rank, Axes.rank, hextents.length_eq, hsteps.length_eq, hrank]
  have hread : Axes.values? (⟨List.replicate (y.shape.length - t.shape.rank) (.const 0) ++
          Axes.stepsAlong t.shape.dims t.stride.dims⟩ : Stride) =
      some (l.expanded y.shape).strides := by
    apply Axes.values?_eq_some_iff.2
    rw [Axes.rank, hextents.length_eq]
    exact List.rel_append (stands_replicate_zero _) (stands_stepsAlong hextents hsteps)
  rw [OpKind.broadcastOperand, Axes.broadcastStride_of_rank hranks]
  simp only [Except.mapError, bind, Except.bind, hread]
  rw [← hkind]
  rfl

/-- Along the axes that a shape has, reading it as another steps no further than its own steps
do. -/
theorem axes_le_of_reads {extents reads : List Nat}
    (hreads : List.Forall₂ (fun extent read => extent = read ∨ extent = 1) extents reads)
    {steps : List Int} (hrank : extents.length = steps.length)
    (hpos : ∀ n ∈ extents, 0 < n)
    (hnonneg : ∀ step ∈ OperandLayout.ownSteps extents steps, 0 ≤ step) :
    List.Forall₂ (fun axis axis' =>
      (((axis.1 - 1) * axis.2.natAbs : Nat) : Int) ≤ max 0 (((axis'.1 : Int) - 1) * axis'.2))
    (reads.zip (OperandLayout.ownSteps extents steps)) (extents.zip steps) := by
  induction hreads generalizing steps with
  | nil => exact .nil
  | @cons extent read extents reads hextent _ ih =>
      cases steps with
      | nil => cases hrank
      | cons step steps =>
          rw [OperandLayout.ownSteps, List.zipWith_cons_cons, List.forall_mem_cons] at hnonneg
          refine .cons ?_
            (ih (by simpa using hrank) (fun n hn => hpos n (List.mem_cons_of_mem _ hn)) hnonneg.2)
          dsimp only
          by_cases hone : extent = 1
          · simp [hone]
          · obtain rfl := hextent.resolve_right hone
            rw [if_neg hone]
            exact axis_le (hpos extent List.mem_cons_self) (by simpa [hone] using hnonneg.1)

theorem reach_zip_replicate_zero (reads : List Nat) (k : Nat) :
    OperandLayout.reach (reads.zip (List.replicate k 0)) = 0 := by
  induction reads generalizing k with
  | nil => rfl
  | cons read reads ih =>
      cases k with
      | zero => rfl
      | succ k =>
          rw [List.replicate_succ, List.zip_cons_cons, OperandLayout.reach_cons, ih]
          simp

theorem view_of_broadcastOperand {t : Tensor} (hcheck : checkLayout t.shape t.stride = .ok ())
    {extents : List Nat} {steps : List Int} (hextents : t.shape.values? = some extents)
    (hsteps : t.stride.values? = some steps) {y l : OperandLayout} {shape : Shape}
    (hshape : shape.values? = some y.shape) (hy : ∀ n ∈ y.shape, 0 < n ∧ n < 0x8000000000000000)
    (hreads : t.shape.ReadsAs shape) (h : OpKind.broadcastOperand y t = .ok l)
    (haccepted : l.Accepted) : t.View l := by
  obtain ⟨hrank, hbad⟩ := checkLayout_eq_ok_iff.1 hcheck
  have hpos : ∀ n ∈ extents, 0 < n := fun n hn => (Axes.extents_of_values? hbad hextents n hn).1
  have hcount : extents.length = steps.length := by
    rw [← (Axes.values?_eq_some_iff.1 hextents).length_eq,
      ← (Axes.values?_eq_some_iff.1 hsteps).length_eq]
    exact hrank
  have hlayout : t.layout = .ok ⟨extents, steps, t.kind⟩ :=
    layout_eq_ok_iff.2 ⟨hextents, hsteps, rfl⟩
  rw [broadcastOperand_eq hlayout hcount] at h
  obtain rfl := Except.ok.inj h
  have hplain := haccepted.plain hy
  refine ⟨rfl, hplain, _, totalBytes_of_values? hextents hsteps, ?_⟩
  rw [hplain.spanBytes_eq, OperandLayout.lastOffset_eq]
  apply Nat.mul_le_mul_right
  obtain ⟨front, back, hfront, hback⟩ := readsAs_values hreads hextents hshape
  have hlead : y.shape.length - extents.length = front.length := by
    rw [hfront, List.length_append, hback.length_eq, Nat.add_sub_cancel]
  have hzip : y.shape.zip (OperandLayout.expanded ⟨extents, steps, t.kind⟩ y.shape).strides =
      front.zip (List.replicate front.length 0) ++
      back.zip (OperandLayout.ownSteps extents steps) := by
    rw [OperandLayout.expanded, hlead, hfront, List.zip_append List.length_replicate.symm]
  show OperandLayout.reach
    (y.shape.zip (OperandLayout.expanded ⟨extents, steps, t.kind⟩ y.shape).strides) < _
  rw [hzip, OperandLayout.reach_append, reach_zip_replicate_zero, Nat.zero_add]
  exact OperandLayout.reach_lt_extentOf hpos (axes_le_of_reads hback hcount hpos fun step hstep =>
      haccepted.2 step (List.mem_append_right _ hstep))

/-- A tensor with a checked layout of constants. -/
structure Settled (t : Tensor) : Prop where
  check : checkLayout t.shape t.stride = .ok ()
  extents : ∃ extents, t.shape.values? = some extents
  steps : ∃ steps, t.stride.values? = some steps

end Tensor

theorem Graph.checkConcrete_eq_ok_iff {tensors : List Tensor} :
    checkConcrete tensors = .ok () ↔ ∀ t ∈ tensors, (∃ extents, t.shape.values? = some extents) ∧
    ∃ steps, t.stride.values? = some steps := by
  induction tensors with
  | nil => simp [checkConcrete]
  | cons t tensors ih =>
      rw [checkConcrete, except_bind_eq_ok, List.forall_mem_cons, ← ih]
      simp only [except_bind_eq_ok, Tensor.concreteShape_eq_ok_iff, Tensor.concreteStride_eq_ok_iff,
        exists_and_right, and_assoc]

namespace OpKind

open Tensor

/-- The operands of an operator with one output are views of that output and of the first two
inputs. -/
theorem views_of_nativeOperands {kind : OpKind} {inputs : List Tensor} {y : Tensor}
    {layouts : List OperandLayout} (hinputs : ∀ t ∈ inputs, t.Settled) (hy : y.Settled)
    (hinfer : kind.inferShapes inputs = .ok [y.shape])
    (h : kind.nativeOperands inputs [y] = .ok layouts) (haccepted : ∀ l ∈ layouts, l.Accepted)
    (hthree : layouts.length = 3) :
    ∃ a b rest ly la lb, inputs = a :: b :: rest ∧ layouts = [ly, la, lb] ∧ y.View ly ∧ a.View la ∧
    b.View lb := by
  cases kind with
  | pointwise f =>
      obtain ⟨ly, hly, h⟩ := except_bind_eq_ok.1 h
      obtain ⟨operands, hoperands, h⟩ := except_bind_eq_ok.1 h
      cases h
      have hviews := mapM_eq_ok_iff.1 hoperands
      obtain ⟨la, lb, rfl⟩ := List.length_eq_two.1 (Nat.succ.inj hthree)
      obtain ⟨a, b, rfl⟩ := List.length_eq_two.1 hviews.length_eq
      obtain ⟨hla, hlb⟩ : broadcastOperand ly a = .ok la ∧ broadcastOperand ly b = .ok lb := by
        simpa using hviews
      simp only [List.mem_cons, List.not_mem_nil, or_false, forall_eq_or_imp,
        forall_eq] at hinputs haccepted
      have hyView := view_of_layout hy.check hly haccepted.1
      have hbroadcast : a.shape.broadcast b.shape = .ok y.shape := by
        rw [inferShapes] at hinfer
        split at hinfer
        · next s hs =>
            cases hinfer
            exact hs
        · cases hinfer
      obtain ⟨haReads, hbReads⟩ := Axes.readsAs_of_broadcast hbroadcast
      obtain ⟨⟨haCheck, ⟨_, haExtents⟩, _, haSteps⟩, hbCheck, ⟨_, hbExtents⟩, _, hbSteps⟩ := hinputs
      have hyShape := (layout_eq_ok_iff.1 hly).1
      exact ⟨a, b, [], ly, la, lb, rfl, rfl, hyView, view_of_broadcastOperand haCheck haExtents
        haSteps hyShape hyView.plain.extents haReads hla haccepted.2.1,
        view_of_broadcastOperand hbCheck hbExtents hbSteps hyShape hyView.plain.extents hbReads hlb
          haccepted.2.2⟩
  | gemm attributes =>
      match inputs with
      | a :: b :: rest =>
          obtain ⟨ly, hly, h⟩ := except_bind_eq_ok.1 h
          obtain ⟨la, hla, h⟩ := except_bind_eq_ok.1 h
          obtain ⟨lb, hlb, h⟩ := except_bind_eq_ok.1 h
          cases h
          simp only [List.mem_cons, List.not_mem_nil, or_false, forall_eq_or_imp,
              forall_eq] at hinputs haccepted
          exact ⟨a, b, rest, ly, la, lb, rfl, rfl, view_of_layout hy.check hly haccepted.1,
            view_of_matrixOperand hinputs.1.check hla haccepted.2.1,
            view_of_matrixOperand hinputs.2.1.check hlb haccepted.2.2⟩
      | [] => cases h
      | [_] => cases h
  | rmsNorm epsilon =>
      match inputs with
      | a :: b :: rest =>
          obtain ⟨ly, hly, h⟩ := except_bind_eq_ok.1 h
          obtain ⟨la, hla, h⟩ := except_bind_eq_ok.1 h
          obtain ⟨lb, hlb, h⟩ := except_bind_eq_ok.1 h
          cases h
          simp only [List.mem_cons, List.not_mem_nil, or_false, forall_eq_or_imp,
              forall_eq] at hinputs haccepted
          exact ⟨a, b, rest, ly, la, lb, rfl, rfl, view_of_layout hy.check hly haccepted.1,
            view_of_layout hinputs.1.check hla haccepted.2.1,
            view_of_layout hinputs.2.1.check hlb haccepted.2.2⟩
      | [] => cases h
      | [_] => cases h
  | declared d =>
      have hviews := mapM_eq_ok_iff.1 h
      obtain ⟨ly, la, lb, rfl⟩ := List.length_eq_three.1 hthree
      obtain ⟨a, b, rfl⟩ := List.length_eq_two.1 (Nat.succ.inj hviews.length_eq)
      obtain ⟨hly, hla, hlb⟩ : y.layout = .ok ly ∧ a.layout = .ok la ∧ b.layout = .ok lb := by
        simpa using hviews
      simp only [List.mem_cons, List.not_mem_nil, or_false, forall_eq_or_imp,
        forall_eq] at hinputs haccepted
      exact ⟨a, b, [], ly, la, lb, rfl, rfl, view_of_layout hy.check hly haccepted.1,
        view_of_layout hinputs.1.check hla haccepted.2.1,
        view_of_layout hinputs.2.check hlb haccepted.2.2⟩

end OpKind

end TensorDataflow
