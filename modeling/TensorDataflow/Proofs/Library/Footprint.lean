import Mathlib.Order.Interval.Set.Basic
import TensorDataflow.Library.Kernel
/-!
# Footprints of computations

A computation on memory writes into an output and perhaps into scratch space, and what it writes is
settled by its inputs. This is said of two runs at once: from memories that agree on the inputs,
both runs keep all that lies outside, and a byte of the output either ends up the same in both or is
left alone by both. The last alternative is what lets a computation leave gaps in its output; it is
also why running it a second time over its own result changes nothing.
-/

namespace TensorDataflow

/-- The addresses of some bytes in a row. -/
def span (start length : Nat) : Set Nat := Set.Ico start (start + length)

@[simp] theorem mem_span {start length a : Nat} :
    a ∈ span start length ↔ start ≤ a ∧ a < start + length :=
  Iff.rfl

theorem span_subset {start length start' length' : Nat} (hstart : start' ≤ start)
    (hend : start + length ≤ start' + length') :
    span start length ⊆ span start' length' := by
  intro a ha
  rw [mem_span] at ha ⊢
  omega

namespace Memory

/-- Two memories hold the same bytes at some addresses. -/
def AgreeOn (places : Set Nat) (m m' : Memory) : Prop := ∀ a ∈ places, m.byte a = m'.byte a

theorem AgreeOn.subset {places places' : Set Nat} {m m' : Memory} (h : AgreeOn places m m')
    (hsub : places' ⊆ places) : AgreeOn places' m m' :=
  fun a ha => h a (hsub ha)

theorem AgreeOn.symm {places : Set Nat} {m m' : Memory} (h : AgreeOn places m m') :
    AgreeOn places m' m :=
  fun a ha => (h a ha).symm

theorem AgreeOn.trans {places : Set Nat} {m m' m'' : Memory} (h : AgreeOn places m m')
    (h' : AgreeOn places m' m'') : AgreeOn places m m'' :=
  fun a ha => (h a ha).trans (h' a ha)

theorem read_congr {m m' : Memory} {start length : Nat} (h : AgreeOn (span start length) m m') :
    m.read start length = m'.read start length := by
  apply List.ext_getElem?
  intro i
  rw [getElem?_read, getElem?_read]
  by_cases hi : i < length
  · rw [if_pos hi, if_pos hi, h (start + i) (by rw [mem_span]; omega)]
  · rw [if_neg hi, if_neg hi]

/-- A copy leaves what it does not cover as it was. -/
theorem read_copy_of_disjoint (m : Memory) {a length target size : Nat}
    (h : a + length ≤ target ∨ target + size ≤ a) (source : Nat) :
    (m.copy target source size).read a length = m.read a length := by
  apply read_congr
  intro c hc
  rw [mem_span] at hc
  rw [byte_copy, if_neg (by omega)]

/-- What is not cleared is left as it was. -/
theorem read_clear_of_disjoint (m : Memory) {a length start size : Nat}
    (h : a + length ≤ start ∨ start + size ≤ a) :
    (m.clear start size).read a length = m.read a length := by
  apply read_congr
  intro c hc
  rw [mem_span] at hc
  rw [byte_clear, if_neg (by omega)]

/-- Before what was written nothing has changed. -/
theorem read_write_of_le (m : Memory) {a length target : Nat} (h : a + length ≤ target)
    (bytes : List UInt8) : (m.write target bytes).read a length = m.read a length := by
  apply read_congr
  intro c hc
  rw [mem_span] at hc
  exact byte_write_of_lt _ _ (by omega)

theorem read_empty (start length : Nat) : empty.read start length = List.replicate length 0 := by
  induction length generalizing start with
  | zero => rfl
  | succ length ih => rw [read, ih, byte_empty, List.replicate_succ]

theorem load_congr {m m' : Memory} {width address : Nat} (h : AgreeOn (span address width) m m') :
    m.load width address = m'.load width address := by
  have hread : m.read address width = m'.read address width := read_congr h
  simp only [load, hread]

theorem length_toBytes (width n : Nat) : (toBytes width n).length = width := by
  induction width generalizing n with
  | zero => rfl
  | succ width ih => simp [toBytes, ih]

theorem byte_store {width : Nat} (m : Memory) (address : Nat) (w : Word width) (a : Nat) :
    (m.store address w).byte a = if address ≤ a ∧ a < address + width
      then (toBytes width w.toNat).getD (a - address) 0 else m.byte a := by
  rw [store, byte_write, length_toBytes]

theorem byte_store_of_notMem {width : Nat} {m : Memory} {address : Nat} {w : Word width} {a : Nat}
    (h : a ∉ span address width) :
    (m.store address w).byte a = m.byte a := by
  rw [mem_span] at h
  rw [byte_store, if_neg h]

theorem byte_store_congr {width : Nat} (m m' : Memory) {address : Nat} (w : Word width) {a : Nat}
    (h : a ∈ span address width) :
    (m.store address w).byte a = (m'.store address w).byte a := by
  rw [mem_span] at h
  rw [byte_store, byte_store, if_pos h, if_pos h]

theorem AgreeOn.store {places : Set Nat} {m m' : Memory} (h : AgreeOn places m m') {width : Nat}
    (address : Nat) (w : Word width) :
    AgreeOn places (m.store address w) (m'.store address w) := by
  intro a ha
  by_cases hmem : a ∈ span address width
  · exact byte_store_congr m m' w hmem
  · rw [byte_store_of_notMem hmem, byte_store_of_notMem hmem]
    exact h a ha

theorem forEach_succ (m : Memory) (count : Nat) (f : Memory → Nat → Memory) :
    m.forEach (count + 1) f = f (m.forEach count f) count := by
  rw [forEach, forEach, List.range_succ, List.foldl_append]
  rfl

/-- Two loops that run side by side, with what holds after each round. -/
theorem forEach_index {R : Nat → Memory → Memory → Prop} {m m' : Memory} {count : Nat}
    {f f' : Memory → Nat → Memory} (hstart : R 0 m m')
    (hstep : ∀ i < count, ∀ s s', R i s s' → R (i + 1) (f s i) (f' s' i)) :
    R count (m.forEach count f) (m'.forEach count f') := by
  induction count with
  | zero => exact hstart
  | succ count ih =>
      rw [forEach_succ, forEach_succ]
      apply hstep count (Nat.lt_succ_self count)
      exact ih fun i hi => hstep i (Nat.lt_succ_of_lt hi)

theorem forEach_rel {R : Memory → Memory → Prop} {m m' : Memory} {count : Nat}
    {f f' : Memory → Nat → Memory} (hstart : R m m')
    (hstep : ∀ i < count, ∀ s s', R s s' → R (f s i) (f' s' i)) :
    R (m.forEach count f) (m'.forEach count f') :=
  forEach_index (R := fun _ => R) hstart hstep

/-- How far two runs have got, from two memories, if they write to an output and to scratch
space. -/
structure Alike (output scratch : Set Nat) (m m' s s' : Memory) : Prop where
  kept : ∀ a, a ∉ output → a ∉ scratch → s.byte a = m.byte a
  kept' : ∀ a, a ∉ output → a ∉ scratch → s'.byte a = m'.byte a
  settled : ∀ a ∈ output, s.byte a = s'.byte a ∨ s.byte a = m.byte a ∧ s'.byte a = m'.byte a

namespace Alike

variable {output scratch : Set Nat} {m m' s s' : Memory}

theorem refl (output scratch : Set Nat) (m m' : Memory) : Alike output scratch m m' m m' :=
  ⟨fun _ _ _ => rfl, fun _ _ _ => rfl, fun _ _ => .inr ⟨rfl, rfl⟩⟩

theorem agreeOn (h : Alike output scratch m m' s s') {places : Set Nat}
    (hagree : AgreeOn places m m') (houtput : ∀ a ∈ places, a ∉ output)
    (hscratch : ∀ a ∈ places, a ∉ scratch) : AgreeOn places s s' := by
  intro a ha
  rw [h.kept a (houtput a ha) (hscratch a ha), h.kept' a (houtput a ha) (hscratch a ha)]
  exact hagree a ha

theorem agreeOn_output (h : Alike output scratch m m' s s') (hagree : AgreeOn output m m') :
    AgreeOn output s s' := by
  intro a ha
  rcases h.settled a ha with hsame | ⟨hleft, hright⟩
  · exact hsame
  · rw [hleft, hright]
    exact hagree a ha

theorem store (h : Alike output scratch m m' s s') {width address : Nat} (w : Word width)
    (hplace : span address width ⊆ output) :
    Alike output scratch m m' (s.store address w) (s'.store address w) := by
  have hkeep : ∀ a, a ∉ output → a ∉ span address width := fun a ha hmem => ha (hplace hmem)
  refine ⟨fun a ha hs => ?_, fun a ha hs => ?_, fun a ha => ?_⟩
  · rw [byte_store_of_notMem (hkeep a ha)]
    exact h.kept a ha hs
  · rw [byte_store_of_notMem (hkeep a ha)]
    exact h.kept' a ha hs
  · by_cases hmem : a ∈ span address width
    · exact .inl (byte_store_congr s s' w hmem)
    · rw [byte_store_of_notMem hmem, byte_store_of_notMem hmem]
      exact h.settled a ha

theorem store_scratch (h : Alike output scratch m m' s s') {width address : Nat} (w w' : Word width)
    (hplace : span address width ⊆ scratch)
    (hapart : ∀ a ∈ output, a ∉ scratch) :
    Alike output scratch m m' (s.store address w) (s'.store address w') := by
  have hkeep : ∀ a, a ∉ scratch → a ∉ span address width := fun a ha hmem => ha (hplace hmem)
  refine ⟨fun a ha hs => ?_, fun a ha hs => ?_, fun a ha => ?_⟩
  · rw [byte_store_of_notMem (hkeep a hs)]
    exact h.kept a ha hs
  · rw [byte_store_of_notMem (hkeep a hs)]
    exact h.kept' a ha hs
  · rw [byte_store_of_notMem (hkeep a (hapart a ha)), byte_store_of_notMem (hkeep a (hapart a ha))]
    exact h.settled a ha

/-- What is true of a smaller output and less scratch space is true of larger ones that keep
apart. -/
theorem widen (h : Alike output scratch m m' s s') {output' scratch' : Set Nat}
    (houtput : output ⊆ output') (hscratch : scratch ⊆ scratch')
    (hapart : ∀ a ∈ output', a ∉ scratch') :
    Alike output' scratch' m m' s s' := by
  refine ⟨fun a ha hs => h.kept a (fun hmem => ha (houtput hmem)) fun hmem => hs (hscratch hmem),
    fun a ha hs => h.kept' a (fun hmem => ha (houtput hmem)) fun hmem => hs (hscratch hmem),
    fun a ha => ?_⟩
  have hfree : a ∉ scratch := fun hmem => hapart a ha (hscratch hmem)
  by_cases hmem : a ∈ output
  · exact h.settled a hmem
  · exact .inr ⟨h.kept a hmem hfree, h.kept' a hmem hfree⟩

/-- Runs whose output was filled alike beforehand settle it. -/
theorem of_filled {f f' : Memory} (h : Alike output scratch f f' s s')
    (hleft : ∀ a, a ∉ output → f.byte a = m.byte a)
    (hright : ∀ a, a ∉ output → f'.byte a = m'.byte a)
    (hfilled : AgreeOn output f f') : Alike output scratch m m' s s' :=
  ⟨fun a ha hs => (h.kept a ha hs).trans (hleft a ha), fun a ha hs =>
    (h.kept' a ha hs).trans (hright a ha), fun a ha => .inl (h.agreeOn_output hfilled a ha)⟩

end Alike

end Memory

/-! ### The kernels -/

namespace Kernel

open Memory

/-- An accumulator lies in the scratch space for a row of them. -/
theorem span_slot_subset (accumulators : Nat) {width n j : Nat} (hj : j < n) :
    span (accumulators + j * width) width ⊆ span accumulators (n * width) := by
  apply span_subset (Nat.le_add_right _ _)
  have hle : (j + 1) * width ≤ n * width := Nat.mul_le_mul_right width hj
  rw [Nat.succ_mul] at hle
  omega

/-- Rows without elements leave memory as it is, so it makes no difference whether they are
visited. -/
theorem gemm_eq_forEach {width : Nat} (s : Arithmetic width) {y a b : Operand}
    (alpha beta : Word width) (accumulators : Nat) {batches rows n aBatches aRows k : Nat}
    (hyShape : y.layout.shape = [batches, rows, n])
    (haShape : a.layout.shape = [aBatches, aRows, k]) (m : Memory) :
    gemm s y a b alpha beta accumulators m = m.forEach batches fun m batch =>
      m.forEach rows fun m i => gemmRow s y a b alpha beta accumulators n k batch i m := by
  have hidle : ∀ (count : Nat) (m : Memory), m.forEach count (fun m _ => m) = m := by
    intro count m
    induction count with
    | zero => rfl
    | succ count ih => rw [forEach_succ, ih]
  have hempty : ∀ batch i m, gemmRow s y a b alpha beta accumulators 0 k batch i m = m := by
    intro batch i m
    exact hidle k m
  rw [gemm, hyShape, haShape]
  dsimp only
  split
  · next hcount =>
      have hproduct : batches = 0 ∨ rows = 0 ∨ n = 0 := by
        simpa [OperandLayout.count, hyShape, elementTotal, Nat.mul_eq_zero] using hcount
      rcases hproduct with rfl | rfl | rfl
      · rfl
      · exact (hidle batches m).symm
      · simp only [hempty, hidle]
  · rfl

section Loops

variable {width : Nat} {output scratch inputs : Set Nat} {m m' : Memory}
  (hagree : AgreeOn inputs m m')
  (houtput : ∀ a ∈ inputs, a ∉ output) (hscratch : ∀ a ∈ inputs, a ∉ scratch)

include hagree houtput hscratch

theorem elementwise_alike (f : Word width → Word width → Word width) {y a b : Operand}
    (hy : ∀ i < y.layout.count, span (y.address width (y.offset i)) width ⊆ output)
    (ha : ∀ i < y.layout.count, span (a.address width (a.offset i)) width ⊆ inputs)
    (hb : ∀ i < y.layout.count, span (b.address width (b.offset i)) width ⊆ inputs) :
    Alike output scratch m m' (elementwise f y a b m) (elementwise f y a b m') := by
  apply forEach_rel (.refl _ _ _ _)
  intro i hi s s' hs
  have hinputs := hs.agreeOn hagree houtput hscratch
  rw [load_congr (hinputs.subset (ha i hi)), load_congr (hinputs.subset (hb i hi))]
  exact hs.store _ (hy i hi)

theorem rmsRow_alike (s : Arithmetic width) {y x w : Operand} (epsilon : Word width)
    (last row : Nat) {t t' : Memory}
    (hstart : Alike output scratch m m' t t')
    (hy : ∀ j < last,
      span (y.address width (y.offset (row * last) + signedWord j * y.lastStep)) width ⊆ output)
    (hx : ∀ j < last,
      span (x.address width (x.offset (row * last) + signedWord j * x.lastStep)) width ⊆ inputs)
    (hw : ∀ j < last, span (w.address width (signedWord j * w.lastStep)) width ⊆ inputs) :
    Alike output scratch m m' (rmsRow s y x w epsilon last row t)
    (rmsRow s y x w epsilon last row t') := by
  have helement : ∀ j < last, ∀ u u', Alike output scratch m m' u u' →
      u.load width (x.address width (x.offset (row * last) + signedWord j * x.lastStep)) =
        u'.load width (x.address width (x.offset (row * last) + signedWord j * x.lastStep)) := by
    intro j hj u u' hu
    exact load_congr ((hu.agreeOn hagree houtput hscratch).subset (hx j hj))
  have hsquares : ∀ xs : List Nat, (∀ j ∈ xs, j < last) → ∀ sum : Word width,
      xs.foldl (fun sum j => s.add sum (s.mul
          (t.load width (x.address width (x.offset (row * last) + signedWord j * x.lastStep)))
          (t.load width (x.address width (x.offset (row * last) + signedWord j * x.lastStep)))))
          sum =
        xs.foldl (fun sum j => s.add sum (s.mul
            (t'.load width (x.address width (x.offset (row * last) + signedWord j * x.lastStep)))
          (t'.load width (x.address width (x.offset (row * last) + signedWord j * x.lastStep)))))
          sum := by
    intro xs
    induction xs with
    | nil => exact fun _ _ => rfl
    | cons j xs ih =>
        intro hxs sum
        rw [List.foldl_cons, List.foldl_cons, helement j (hxs j List.mem_cons_self) t t' hstart]
        exact ih (fun k hk => hxs k (List.mem_cons_of_mem _ hk)) _
  simp only [rmsRow]
  rw [hsquares _ (fun j hj => List.mem_range.1 hj)]
  apply forEach_rel hstart
  intro j hj u u' hu
  rw [helement j hj u u' hu, load_congr ((hu.agreeOn hagree houtput hscratch).subset (hw j hj))]
  exact hu.store _ (hy j hj)

theorem rmsNorm_alike (s : Arithmetic width) {y x w : Operand} (epsilon : Word width)
    (hy : ∀ last, x.layout.shape.getLast? = some last → ∀ row < x.layout.count / last, ∀ j < last,
      span (y.address width (y.offset (row * last) + signedWord j * y.lastStep)) width ⊆ output)
    (hx : ∀ last, x.layout.shape.getLast? = some last → ∀ row < x.layout.count / last, ∀ j < last,
      span (x.address width (x.offset (row * last) + signedWord j * x.lastStep)) width ⊆ inputs)
    (hw : ∀ last, x.layout.shape.getLast? = some last →
      ∀ j < last, span (w.address width (signedWord j * w.lastStep)) width ⊆ inputs) :
    Alike output scratch m m' (rmsNorm s y x w epsilon m) (rmsNorm s y x w epsilon m') := by
  unfold rmsNorm
  cases hlast : x.layout.shape.getLast? with
  | none => exact .refl _ _ _ _
  | some last =>
      cases last with
      | zero => exact .refl _ _ _ _
      | succ k =>
          apply forEach_rel (.refl _ _ _ _)
          intro row hrow t t' ht
          exact rmsRow_alike hagree houtput hscratch s epsilon (k + 1) row ht (hy _ hlast row hrow)
            (hx _ hlast row hrow) (hw _ hlast)

/-- In a row of a product the accumulators are the same in both runs from the moment they are
cleared. -/
theorem gemmRow_alike (s : Arithmetic width) {y a b : Operand} (alpha beta : Word width)
    {accumulators n k batch i : Nat} {t t' : Memory}
    (hstart : Alike output scratch m m' t t') (hapart : ∀ a ∈ output, a ∉ scratch)
    (haccumulators : span accumulators (n * width) ⊆ scratch)
    (hold : s.isZero beta = true ∨ AgreeOn output m m')
    (hy : ∀ j < n, span (y.address width (y.coordinateOffset [batch, i, j])) width ⊆ output)
    (ha : ∀ p < k, span (a.address width (a.coordinateOffset [batch, i, p])) width ⊆ inputs)
    (hb : ∀ p < k, ∀ j < n,
      span (b.address width (b.coordinateOffset [batch, p, j])) width ⊆ inputs) :
    Alike output scratch m m' (gemmRow s y a b alpha beta accumulators n k batch i t)
    (gemmRow s y a b alpha beta accumulators n k batch i t') := by
  have hslot : ∀ j < n, span (accumulators + j * width) width ⊆ span accumulators (n * width) :=
    fun j hj => span_slot_subset accumulators hj
  have hcleared :
      Alike output scratch m m' (t.forEach n fun t j => t.store (accumulators + j * width) s.zero)
      (t'.forEach n fun t j => t.store (accumulators + j * width) s.zero) ∧
      AgreeOn (span accumulators (n * width))
      (t.forEach n fun t j => t.store (accumulators + j * width) s.zero)
        (t'.forEach n fun t j => t.store (accumulators + j * width) s.zero) := by
    apply forEach_index (R := fun j u u' => Alike output scratch m m' u u' ∧
      AgreeOn (span accumulators (j * width)) u u')
    · refine ⟨hstart, fun x hx => ?_⟩
      rw [mem_span] at hx
      omega
    · rintro j hj u u' ⟨hu, hclear⟩
      refine ⟨hu.store_scratch _ _ ((hslot j hj).trans haccumulators) hapart, fun x hx => ?_⟩
      by_cases hnew : x ∈ span (accumulators + j * width) width
      · exact byte_store_congr u u' s.zero hnew
      · rw [byte_store_of_notMem hnew, byte_store_of_notMem hnew]
        apply hclear
        rw [mem_span] at hx hnew ⊢
        rw [Nat.succ_mul] at hx
        omega
  simp only [gemmRow]
  refine (forEach_rel (R := fun u u' => Alike output scratch m m' u u' ∧
      AgreeOn (span accumulators (n * width)) u u') ?_ ?_).1
  · apply forEach_rel (R := fun u u' => Alike output scratch m m' u u' ∧
        AgreeOn (span accumulators (n * width)) u u') hcleared
    intro p hp u u' hu
    rw [load_congr ((hu.1.agreeOn hagree houtput hscratch).subset (ha p hp))]
    apply forEach_rel (R := fun u u' => Alike output scratch m m' u u' ∧
        AgreeOn (span accumulators (n * width)) u u') hu
    rintro j hj v v' ⟨hv, hsums⟩
    rw [load_congr ((hv.agreeOn hagree houtput hscratch).subset (hb p hp j hj)),
      load_congr (hsums.subset (hslot j hj))]
    exact ⟨hv.store_scratch _ _ ((hslot j hj).trans haccumulators) hapart, hsums.store _ _⟩
  · rintro j hj u u' ⟨hu, hsums⟩
    rw [load_congr (hsums.subset (hslot j hj))]
    rcases hold with hzero | hsame
    · rw [if_pos hzero, if_pos hzero]
      exact ⟨hu.store _ (hy j hj), hsums.store _ _⟩
    · rw [load_congr ((hu.agreeOn_output hsame).subset (hy j hj))]
      exact ⟨hu.store _ (hy j hj), hsums.store _ _⟩

theorem gemm_alike (s : Arithmetic width) {y a b : Operand} (alpha beta : Word width)
    {accumulators : Nat} {batches rows n k : Nat}
    (hyShape : y.layout.shape = [batches, rows, n]) {batches' rows' : Nat}
    (haShape : a.layout.shape = [batches', rows', k])
    (hapart : ∀ a ∈ output, a ∉ scratch) (haccumulators : span accumulators (n * width) ⊆ scratch)
    (hold : s.isZero beta = true ∨ AgreeOn output m m')
    (hy : ∀ batch < batches, ∀ i < rows, ∀ j < n,
      span (y.address width (y.coordinateOffset [batch, i, j])) width ⊆ output)
    (ha : ∀ batch < batches, ∀ i < rows, ∀ p < k,
      span (a.address width (a.coordinateOffset [batch, i, p])) width ⊆ inputs)
    (hb : ∀ batch < batches, ∀ p < k, ∀ j < n,
      span (b.address width (b.coordinateOffset [batch, p, j])) width ⊆ inputs) :
    Alike output scratch m m' (gemm s y a b alpha beta accumulators m)
    (gemm s y a b alpha beta accumulators m') := by
  rw [gemm_eq_forEach s alpha beta accumulators hyShape haShape,
    gemm_eq_forEach s alpha beta accumulators hyShape haShape]
  apply forEach_rel (.refl _ _ _ _)
  intro batch hbatch t t' ht
  apply forEach_rel ht
  intro i hi u u' hu
  exact gemmRow_alike hagree houtput hscratch s alpha beta hu hapart haccumulators hold
    (hy batch hbatch i hi) (ha batch hbatch i hi) (hb batch hbatch)

end Loops

end Kernel

end TensorDataflow
