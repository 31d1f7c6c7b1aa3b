import TensorDataflow.Proofs.Library.Addressing
import TensorDataflow.Proofs.Machine.Act
/-!
# Fenced kernels

A fenced kernel takes the steps of a kernel one by one, and stops at the first element that the
layout of its operand does not span and at the first accumulator outside the scratch space that was
checked. On operands that fit together no fence is ever hit: the fenced kernel runs to its end,
leaves the very memory that the kernel leaves, and changes no byte but those of the output's
elements and of the scratch space. `CompiledOp.confined_run` says so for every operator, however its
operands overlap.
-/

namespace TensorDataflow

/-- An access outside what was checked for it. -/
inductive Trespass where
  | element (l : OperandLayout) (offset : Int)
  | accumulator (slot : Nat)
  deriving DecidableEq, Repr

/-- A computation on memory that stops at the first trespass. -/
abbrev Fenced := Act Memory Trespass

/-- The bytes of scratch space that were checked. -/
structure Scratch where
  start : Nat
  size : Nat

namespace Fenced

variable {width : Nat}

/-- Reads the element at an offset. -/
def load (width : Nat) (o : Operand) (offset : Int) : Fenced (Word width) := fun m =>
  if o.layout.Spans offset then (.ok (m.load width (o.address width offset)), m)
  else (.error (.element o.layout offset), m)

/-- Writes the element at an offset. -/
def store (o : Operand) (offset : Int) (w : Word width) : Fenced Unit := fun m =>
  if o.layout.Spans offset then (.ok (), m.store (o.address width offset) w)
  else (.error (.element o.layout offset), m)

/-- Reads an accumulator. -/
def loadSum (width : Nat) (r : Scratch) (slot : Nat) : Fenced (Word width) := fun m =>
  if (slot + 1) * width ≤ r.size then (.ok (m.load width (r.start + slot * width)), m)
  else (.error (.accumulator slot), m)

/-- Writes an accumulator. -/
def storeSum (r : Scratch) (slot : Nat) (w : Word width) : Fenced Unit := fun m =>
  if (slot + 1) * width ≤ r.size then (.ok (), m.store (r.start + slot * width) w)
  else (.error (.accumulator slot), m)

/-- Runs a step for each number below `count`, in ascending order. -/
def forEach (count : Nat) (step : Nat → Fenced Unit) : Fenced Unit := (List.range count).forM step

/-! ### The kernels -/

def elementwise (f : Word width → Word width → Word width) (y a b : Operand) : Fenced Unit :=
  forEach y.layout.count fun i => do
    let left ← load width a (a.offset i)
    let right ← load width b (b.offset i)
    store y (y.offset i) (f left right)

def gemmRow (s : Arithmetic width) (y a b : Operand) (alpha beta : Word width) (r : Scratch)
    (n k batch i : Nat) : Fenced Unit := do
  forEach n fun j => storeSum r j s.zero
  forEach k fun p => do
    let left ← load width a (a.coordinateOffset [batch, i, p])
    forEach n fun j => do
      let right ← load width b (b.coordinateOffset [batch, p, j])
      let sum ← loadSum width r j
      storeSum r j (s.add sum (s.mul left right))
  forEach n fun j => do
    let target := y.coordinateOffset [batch, i, j]
    let sum ← loadSum width r j
    let product := s.mul alpha sum
    if s.isZero beta then store y target product
    else do
      let old ← load width y target
      store y target (s.add product (s.mul beta old))

/-- Every row is visited, also where it has no elements. -/
def gemm (s : Arithmetic width) (y a b : Operand) (alpha beta : Word width) (r : Scratch) :
    Fenced Unit :=
  match y.layout.shape, a.layout.shape with
  | [batches, rows, n], [_, _, k] =>
      forEach batches fun batch => forEach rows fun i => gemmRow s y a b alpha beta r n k batch i
  | _, _ => pure ()

def rmsRow (s : Arithmetic width) (y x w : Operand) (epsilon : Word width) (last row : Nat) :
    Fenced Unit := do
  let xStart := x.offset (row * last)
  let yStart := y.offset (row * last)
  let squares ← (List.range last).foldlM (fun sum j => do
    let v ← load width x (xStart + signedWord j * x.lastStep)
    return s.add sum (s.mul v v)) s.zero
  let scale := s.div s.one (s.sqrt (s.add (s.div squares (s.ofCount last)) epsilon))
  forEach last fun j => do
    let v ← load width x (xStart + signedWord j * x.lastStep)
    let weight ← load width w (signedWord j * w.lastStep)
    store y (yStart + signedWord j * y.lastStep) (s.mul (s.mul v scale) weight)

def rmsNorm (s : Arithmetic width) (y x w : Operand) (epsilon : Word width) : Fenced Unit :=
  match x.layout.shape.getLast? with
  | none | some 0 => pure ()
  | some last => forEach (x.layout.count / last) fun row => rmsRow s y x w epsilon last row

end Fenced

namespace CompiledOp

/-- Runs the fenced kernel with the given arithmetic, on as much of the workspace as the operator
asks for. -/
def fencedWith {width : Nat} (s : Arithmetic width) (c : CompiledOp) (addresses : List Address)
    (workspace : Address) (args : LaunchArgs) : Fenced Unit :=
  match c.operands, addresses with
  | [yLayout, aLayout, bLayout], [yBase, aBase, bBase] =>
      let y : Operand := ⟨yBase, yLayout⟩
      let a : Operand := ⟨aBase, aLayout⟩
      let b : Operand := ⟨bBase, bLayout⟩
      match c.op with
      | .add => Fenced.elementwise s.add y a b
      | .sub => Fenced.elementwise s.sub y a b
      | .mul => Fenced.elementwise s.mul y a b
      | .gemm =>
          match args with
          | .plain => Fenced.gemm s y a b s.one s.zero ⟨workspace.val, c.workspaceSize⟩
          | .scale alpha beta =>
              Fenced.gemm s y a b (s.ofSingle alpha) (s.ofSingle beta)
                ⟨workspace.val, c.workspaceSize⟩
      | .rmsNorm epsilon => Fenced.rmsNorm s y a b (s.ofSingle epsilon)
  | _, _ => pure ()

/-- Runs the fenced kernel on singles or doubles, as the kind of the output says. -/
def fenced (c : CompiledOp) (addresses : List Address) (workspace : Address) (args : LaunchArgs) :
    Fenced Unit :=
  match c.operands.head?.map OperandLayout.kind with
  | some .f32 => c.fencedWith singleArithmetic addresses workspace args
  | some .f64 => c.fencedWith doubleArithmetic addresses workspace args
  | _ => pure ()

end CompiledOp

/-! ### Confinement -/

namespace Fenced

open OperandLayout

/-- From one memory to another a fenced computation runs to its end, and changes no byte outside
some places. -/
structure Confined {α : Type} (places : Set Nat) (act : Fenced α) (m : Memory) (a : α)
    (m' : Memory) : Prop where
  runs : act m = (.ok a, m')
  kept : ∀ x, x ∉ places → m'.byte x = m.byte x

variable {α β : Type} {width : Nat} {places : Set Nat}

theorem confined_pure (a : α) (m : Memory) : Confined places (pure a) m a m := ⟨rfl, fun _ _ => rfl⟩

theorem Confined.bind {act : Fenced α} {f : α → Fenced β} {m m' m'' : Memory} {a : α} {b : β}
    (h : Confined places act m a m') (h' : Confined places (f a) m' b m'') :
    Confined places (act >>= f) m b m'' where
  runs := (Act.bind_of_ok h.runs f).trans h'.runs
  kept x hx := (h'.kept x hx).trans (h.kept x hx)

theorem confined_load {o : Operand} {offset : Int} (h : o.layout.Spans offset) (m : Memory) :
    Confined places (load width o offset) m (m.load width (o.address width offset)) m :=
  ⟨if_pos h, fun _ _ => rfl⟩

theorem confined_store {o : Operand} {offset : Int} (h : o.layout.Spans offset)
    (hplaces : span (o.address width offset) width ⊆ places) (w : Word width) (m : Memory) :
    Confined places (store o offset w) m () (m.store (o.address width offset) w) :=
  ⟨if_pos h, fun _ hx => Memory.byte_store_of_notMem fun hmem => hx (hplaces hmem)⟩

section Accumulators

variable {r : Scratch} {slot : Nat} (h : (slot + 1) * width ≤ r.size)

include h

theorem confined_loadSum (m : Memory) :
    Confined places (loadSum width r slot) m (m.load width (r.start + slot * width)) m :=
  ⟨if_pos h, fun _ _ => rfl⟩

theorem confined_storeSum (hplaces : span r.start r.size ⊆ places) (w : Word width) (m : Memory) :
    Confined places (storeSum r slot w) m () (m.store (r.start + slot * width) w) := by
  refine ⟨if_pos h, fun x hx => Memory.byte_store_of_notMem fun hmem =>
    hx (hplaces (span_subset (Nat.le_add_right _ _) ?_ hmem))⟩
  rw [Nat.succ_mul] at h
  omega

end Accumulators

theorem confined_forM {step : Nat → Fenced Unit} {plain : Memory → Nat → Memory} {xs : List Nat}
    (h : ∀ i ∈ xs, ∀ m, Confined places (step i) m () (plain m i)) (m : Memory) :
    Confined places (xs.forM step) m () (xs.foldl plain m) := by
  induction xs generalizing m with
  | nil => exact confined_pure () m
  | cons i xs ih =>
      exact (h i List.mem_cons_self m).bind
        (ih (fun j hj => h j (List.mem_cons_of_mem i hj)) (plain m i))

theorem confined_forEach {count : Nat} {step : Nat → Fenced Unit} {plain : Memory → Nat → Memory}
    (h : ∀ i < count, ∀ m, Confined places (step i) m () (plain m i)) (m : Memory) :
    Confined places (forEach count step) m () (m.forEach count plain) :=
  confined_forM (fun i hi => h i (List.mem_range.1 hi)) m

/-- A fold that only reads. -/
theorem confined_foldlM {step : α → Nat → Fenced α} {plain : α → Nat → α} {xs : List Nat}
    {m : Memory} (h : ∀ i ∈ xs, ∀ a, Confined places (step a i) m (plain a i) m) (a : α) :
    Confined places (xs.foldlM step a) m (xs.foldl plain a) m := by
  induction xs generalizing a with
  | nil => exact confined_pure a m
  | cons i xs ih =>
      rw [List.foldlM_cons, List.foldl_cons]
      exact (h i List.mem_cons_self a).bind
        (ih (fun j hj => h j (List.mem_cons_of_mem i hj)) (plain a i))

/-! ### Confinement of the kernels -/

section Kernels

variable {y a b : Operand} (hy : y.layout.Bounded) (ha : a.layout.Bounded) (hb : b.layout.Bounded)

include hy ha hb

theorem confined_elementwise (haShape : a.layout.shape = y.layout.shape)
    (hbShape : b.layout.shape = y.layout.shape) (hplaces : y.elements width ⊆ places)
    (f : Word width → Word width → Word width) (m : Memory) :
    Confined places (elementwise f y a b) m () (Kernel.elementwise f y a b m) := by
  apply confined_forEach
  intro i hi m
  have haCount : a.layout.count = y.layout.count := congrArg elementTotal haShape
  have hbCount : b.layout.count = y.layout.count := congrArg elementTotal hbShape
  have haElement := ha.element_linearOffset (haCount ▸ hi)
  have hbElement := hb.element_linearOffset (hbCount ▸ hi)
  have hyElement := hy.element_linearOffset hi
  exact (confined_load (ha.spans_of_element haElement) m).bind
    ((confined_load (hb.spans_of_element hbElement) m).bind
    (confined_store (hy.spans_of_element hyElement)
      ((Operand.span_element_subset hyElement width).trans hplaces) _ m))

theorem confined_gemmRow (s : Arithmetic width) (alpha beta : Word width) {r : Scratch}
    {n k batch i : Nat} (hrow : n * width ≤ r.size) (hscratch : span r.start r.size ⊆ places)
    (hplaces : y.elements width ⊆ places)
    (hyElement : ∀ j < n, y.layout.Element (y.coordinateOffset [batch, i, j]))
    (haElement : ∀ p < k, a.layout.Element (a.coordinateOffset [batch, i, p]))
    (hbElement : ∀ p < k, ∀ j < n, b.layout.Element (b.coordinateOffset [batch, p, j]))
    (m : Memory) :
    Confined places (gemmRow s y a b alpha beta r n k batch i) m ()
    (Kernel.gemmRow s y a b alpha beta r.start n k batch i m) := by
  have hslot : ∀ j < n, (j + 1) * width ≤ r.size :=
    fun j hj => (Nat.mul_le_mul_right width hj).trans hrow
  refine (confined_forEach (fun j hj m => confined_storeSum (hslot j hj) hscratch _ m) m).bind
    ((confined_forEach (fun p hp m => ?_) _).bind (confined_forEach (fun j hj m => ?_) _))
  · refine (confined_load (ha.spans_of_element (haElement p hp)) m).bind
      (confined_forEach (fun j hj m => ?_) m)
    exact (confined_load (hb.spans_of_element (hbElement p hp j hj)) m).bind
      ((confined_loadSum (hslot j hj) m).bind (confined_storeSum (hslot j hj) hscratch _ m))
  · have hspans := hy.spans_of_element (hyElement j hj)
    have hsubset := (Operand.span_element_subset (hyElement j hj) width).trans hplaces
    refine (confined_loadSum (hslot j hj) m).bind ?_
    dsimp only
    split
    · exact confined_store hspans hsubset _ m
    · exact (confined_load hspans m).bind (confined_store hspans hsubset _ m)

theorem confined_gemm (s : Arithmetic width) (alpha beta : Word width)
    {r : Scratch} {batch aBatch bBatch rows n k : Nat} (hrow : n * width ≤ r.size)
    (hscratch : span r.start r.size ⊆ places)
    (hplaces : y.elements width ⊆ places) (hyShape : y.layout.Batched batch rows n)
    (haShape : a.layout.Batched aBatch rows k) (hbShape : b.layout.Batched bBatch k n)
    (haBatch : aBatch = batch ∨ aBatch = 1) (hbBatch : bBatch = batch ∨ bBatch = 1) (m : Memory) :
    Confined places (gemm s y a b alpha beta r) m ()
    (Kernel.gemm s y a b alpha beta r.start m) := by
  have haReads : ∀ l < batch, l < aBatch ∨ aBatch = 1 :=
    fun l hl => haBatch.imp_left fun hsame => by rwa [hsame]
  have hbReads : ∀ l < batch, l < bBatch ∨ bBatch = 1 :=
    fun l hl => hbBatch.imp_left fun hsame => by rwa [hsame]
  rw [Kernel.gemm_eq_forEach s alpha beta r.start hyShape.shape haShape.shape, gemm, hyShape.shape,
    haShape.shape]
  refine confined_forEach (fun l hl m => confined_forEach (fun i hi m => ?_) m) m
  apply confined_gemmRow hy ha hb s alpha beta hrow hscratch hplaces
  · exact fun j hj => Operand.element_batched hy hyShape (.inl hl) hi hj
  · exact fun p hp => Operand.element_batched ha haShape (haReads l hl) hi hp
  · exact fun p hp j hj => Operand.element_batched hb hbShape (hbReads l hl) hp hj

theorem confined_rmsRow (s : Arithmetic width) (epsilon : Word width)
    (hplaces : y.elements width ⊆ places) {last row : Nat}
    (hyElement : ∀ j < last, y.layout.Element (y.offset (row * last) + signedWord j * y.lastStep))
    (haElement : ∀ j < last, a.layout.Element (a.offset (row * last) + signedWord j * a.lastStep))
    (hbElement : ∀ j < last, b.layout.Element (signedWord j * b.lastStep)) (m : Memory) :
    Confined places (rmsRow s y a b epsilon last row) m ()
    (Kernel.rmsRow s y a b epsilon last row m) := by
  have haSpans : ∀ j < last, a.layout.Spans (a.offset (row * last) + signedWord j * a.lastStep) :=
    fun j hj => ha.spans_of_element (haElement j hj)
  let element (j : Nat) : Word width :=
    m.load width (a.address width (a.offset (row * last) + signedWord j * a.lastStep))
  have hsquares : Confined places ((List.range last).foldlM (fun sum j => do
      let v ← load width a (a.offset (row * last) + signedWord j * a.lastStep)
      return s.add sum (s.mul v v)) s.zero) m
      ((List.range last).foldl (fun sum j => s.add sum (s.mul (element j) (element j))) s.zero) m :=
    confined_foldlM (fun j hj sum => (confined_load (haSpans j (List.mem_range.1 hj)) m).bind
      (confined_pure (s.add sum (s.mul (element j) (element j))) m)) s.zero
  refine hsquares.bind (confined_forEach (fun j hj m => ?_) m)
  exact (confined_load (haSpans j hj) m).bind
    ((confined_load (hb.spans_of_element (hbElement j hj)) m).bind
    (confined_store (hy.spans_of_element (hyElement j hj))
      ((Operand.span_element_subset (hyElement j hj) width).trans hplaces) _ m))

theorem confined_rmsNorm (s : Arithmetic width) (epsilon : Word width)
    (hplaces : y.elements width ⊆ places) (hshape : y.layout.shape = a.layout.shape) {last : Nat}
    (hlast : a.layout.shape.getLast? = some last) (hweight : b.layout.shape = [last]) (m : Memory) :
    Confined places (rmsNorm s y a b epsilon) m () (Kernel.rmsNorm s y a b epsilon m) := by
  rw [rmsNorm, Kernel.rmsNorm, hlast]
  cases last with
  | zero => exact confined_pure () m
  | succ last =>
      have hyCount : y.layout.count = a.layout.count := congrArg elementTotal hshape
      refine confined_forEach (fun row hrow m => ?_) m
      apply confined_rmsRow hy ha hb s epsilon hplaces
      · exact fun j hj => Operand.element_row hy (hshape ▸ hlast) (hyCount ▸ hrow) hj
      · exact fun j hj => Operand.element_row ha hlast hrow hj
      · exact fun j hj => Operand.element_weight hb hweight hj

end Kernels

end Fenced

namespace CompiledOp

open Fenced OperandLayout

variable {c : CompiledOp} {y a b : OperandLayout} (hc : c.Fitted y a b) (hy : y.Bounded)
  (ha : a.Bounded) (hb : b.Bounded) (yBase aBase bBase workspace : Address)
  (args : LaunchArgs) (m : Memory)

include hc hy ha hb

theorem confined_runWith {places : Set Nat} {width : Nat} (s : Arithmetic width)
    (hwidth : y.kind.size = width) (hplaces : Operand.elements ⟨yBase, y⟩ width ⊆ places)
    (hscratch : span workspace.val c.workspaceSize ⊆ places) :
    Confined places (c.fencedWith s [yBase, aBase, bBase] workspace args) m ()
    (c.runWith s [yBase, aBase, bBase] workspace args m) := by
  obtain ⟨op, operands⟩ := c
  obtain rfl : operands = [y, a, b] := hc.operands
  have hfits := hc.fits
  have hpointwise := @confined_elementwise width places ⟨yBase, y⟩ ⟨aBase, a⟩ ⟨bBase, b⟩ hy ha hb
  cases op with
  | add => exact hpointwise hfits.1 hfits.2 hplaces s.add m
  | sub => exact hpointwise hfits.1 hfits.2 hplaces s.sub m
  | mul => exact hpointwise hfits.1 hfits.2 hplaces s.mul m
  | gemm =>
      obtain ⟨batch, aBatch, bBatch, rows, n, k, hyShape, haShape, hbShape, haBatch, hbBatch⟩ :=
        hfits
      have hrow : n * width ≤ workspaceSize ⟨.gemm, [y, a, b]⟩ := by
        simp [workspaceSize, hyShape.shape, hwidth]
      have hproduct :=
        fun alpha beta => @confined_gemm width places ⟨yBase, y⟩ ⟨aBase, a⟩ ⟨bBase, b⟩ hy ha hb s
          alpha beta ⟨workspace.val, workspaceSize ⟨.gemm, [y, a, b]⟩⟩ _ _ _ _ _ _ hrow hscratch
        hplaces hyShape haShape hbShape haBatch hbBatch m
      cases args with
      | plain => exact hproduct s.one s.zero
      | scale alpha beta => exact hproduct (s.ofSingle alpha) (s.ofSingle beta)
  | rmsNorm epsilon =>
      obtain ⟨hshape, last, hlast, hweight⟩ := hfits
      exact confined_rmsNorm (y := ⟨yBase, y⟩) (a := ⟨aBase, a⟩) (b := ⟨bBase, b⟩) hy ha hb s
        (s.ofSingle epsilon) hplaces hshape hlast hweight m

/-- No access of a fitted operator is outside what was checked for it, and nothing but the elements
of its output and its workspace changes. -/
theorem confined_run : Confined
    (Operand.elements ⟨yBase, y⟩ y.kind.size ∪ span workspace.val c.workspaceSize)
    (c.fenced [yBase, aBase, bBase] workspace args) m ()
    (c.run [yBase, aBase, bBase] workspace args m) := by
  rw [fenced, run, hc.operands]
  rcases hc.computable with hkind | hkind
  · simp only [List.head?_cons, Option.map_some, hkind]
    exact confined_runWith hc hy ha hb yBase aBase bBase workspace args m singleArithmetic
      (by rw [hkind]; rfl) Set.subset_union_left Set.subset_union_right
  · simp only [List.head?_cons, Option.map_some, hkind]
    exact confined_runWith hc hy ha hb yBase aBase bBase workspace args m doubleArithmetic
      (by rw [hkind]; rfl) Set.subset_union_left Set.subset_union_right

end CompiledOp

end TensorDataflow
