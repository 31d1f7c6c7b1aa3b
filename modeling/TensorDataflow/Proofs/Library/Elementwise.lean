import TensorDataflow.Proofs.Layout.Coordinates
import TensorDataflow.Proofs.Library.Filling
/-!
# What element-wise loops compute

An element-wise loop stores one word in each round, at places that no other round touches. If the
words that a round reads lie outside all these places, it reads what was there before the loop. So
after an element-wise loop every element of the output is the function of the two elements that
stood in its inputs at the start: `Kernel.elementAt_elementwise`.
-/

namespace TensorDataflow

namespace OperandLayout

theorem Plain.spread {l : OperandLayout} (h : l.Plain) : l.Spread := ⟨h.rank, h.extents⟩

end OperandLayout

/-! ### Elements by their coordinates -/

namespace Operand

open OperandLayout

/-- The bytes of the element at some coordinates. -/
def bytesAt (o : Operand) (width : Nat) (coordinates : List Nat) : Set Nat :=
  span (o.address width (o.layout.offsetAt coordinates)) width

theorem offset_numberOf {o : Operand} (h : o.layout.Spread) {shape coordinates : List Nat}
    (hshape : o.layout.shape = shape) (hwithin : Within shape coordinates) :
    o.offset (numberOf shape coordinates) = o.layout.offsetAt coordinates := by
  subst hshape
  exact h.addressable.linearOffset_numberOf hwithin

theorem bytesAt_subset {o : Operand} (h : o.layout.Plain) (width : Nat) {coordinates : List Nat}
    (hwithin : Within o.layout.shape coordinates) :
    o.bytesAt width coordinates ⊆ span o.base.val ((o.layout.lastOffset + 1) * width) := by
  rw [bytesAt, ← offset_numberOf h.spread rfl hwithin]
  exact span_offset_subset h width _

/-- Elements at different offsets share no byte. -/
theorem address_apart (o : Operand) (width : Nat) {k l : Int} (hk : 0 ≤ k) (hl : 0 ≤ l)
    (hne : k ≠ l) : ∀ a ∈ span (o.address width k) width, a ∉ span (o.address width l) width := by
  obtain ⟨k, rfl⟩ := Int.eq_ofNat_of_zero_le hk
  obtain ⟨l, rfl⟩ := Int.eq_ofNat_of_zero_le hl
  have haddress : ∀ n : Nat, o.address width n = o.base.val + n * width := by
    intro n
    rw [address, ← Nat.cast_mul, ← Nat.cast_add, Int.toNat_natCast]
  have hbelow : ∀ {n n' : Nat}, n < n' → n * width + width ≤ n' * width := by
    intro n n' hlt
    rw [← Nat.succ_mul]
    exact Nat.mul_le_mul_right width hlt
  intro a ha ha'
  rw [haddress, mem_span] at ha ha'
  rcases Nat.lt_or_gt_of_ne fun hsame : k = l => hne (congrArg Nat.cast hsame) with hlt | hlt
  · have hrow := hbelow hlt
    omega
  · have hrow := hbelow hlt
    omega

end Operand

/-- The element of an operand at some coordinates. -/
def Memory.elementAt (m : Memory) (width : Nat) (o : Operand)
    (coordinates : List Nat) : Word width :=
  m.load width (o.address width (o.layout.offsetAt coordinates))

namespace Kernel

open Memory OperandLayout

section Elementwise

variable {width : Nat} {y a b : Operand} {m : Memory} (hy : y.layout.Plain)
  (hdistinct : y.layout.Distinct)

include hy hdistinct

theorem filled_elementwise (f : Word width → Word width → Word width)
    (ha : ∀ i < y.layout.count, ∀ j < y.layout.count, ∀ x ∈ span (a.address width (a.offset i))
      width, x ∉ span (y.address width (y.offset j)) width)
    (hb : ∀ i < y.layout.count, ∀ j < y.layout.count, ∀ x ∈ span (b.address width (b.offset i))
      width, x ∉ span (y.address width (y.offset j)) width) :
    Filled ∅ (fun i => y.address width (y.offset i)) (fun i =>
      f (m.load width (a.address width (a.offset i))) (m.load width (b.address width (b.offset i))))
    m (Set.Iio y.layout.count)
      (elementwise f y a b m) := by
  apply filled_forEach
  · intro j hj i hij
    apply y.address_apart width (hy.linearOffset_bounds i).1 (hy.linearOffset_bounds j).1
    intro hsame
    exact Nat.ne_of_lt hij (hy.spread.linearOffset_injOn hdistinct (hij.trans hj) hj hsame)
  · intro i hi s hs
    rw [hs.load_eq (fun x _ => Set.notMem_empty x) fun j hj => ha i hi j (hj.trans hi),
      hs.load_eq (fun x _ => Set.notMem_empty x) fun j hj => hb i hi j (hj.trans hi)]

/-- Inputs of the output's shape that keep apart from the output are combined element by element. -/
theorem elementAt_elementwise (f : Word width → Word width → Word width) (ha : a.layout.Spread)
    (hb : b.layout.Spread) (haShape : a.layout.shape = y.layout.shape)
    (hbShape : b.layout.shape = y.layout.shape)
    (haApart : ∀ i j, Within y.layout.shape i → Within y.layout.shape j →
      ∀ x ∈ a.bytesAt width i, x ∉ y.bytesAt width j)
    (hbApart : ∀ i j, Within y.layout.shape i → Within y.layout.shape j →
      ∀ x ∈ b.bytesAt width i, x ∉ y.bytesAt width j)
    {coordinates : List Nat} (hwithin : Within y.layout.shape coordinates) :
    (elementwise f y a b m).elementAt width y coordinates =
      f (m.elementAt width a coordinates) (m.elementAt width b coordinates) := by
  have hplaces : ∀ o : Operand, o.layout.Spread → o.layout.shape = y.layout.shape →
      (∀ i j, Within y.layout.shape i → Within y.layout.shape j →
        ∀ x ∈ o.bytesAt width i, x ∉ y.bytesAt width j) →
      ∀ i < y.layout.count, ∀ j < y.layout.count, ∀ x ∈ span (o.address width (o.offset i)) width,
      x ∉ span (y.address width (y.offset j)) width := by
    intro o ho hshape hapart i hi j hj
    obtain ⟨source, hsource, rfl⟩ := exists_numberOf hi
    obtain ⟨target, htarget, rfl⟩ := exists_numberOf hj
    rw [Operand.offset_numberOf ho hshape hsource, Operand.offset_numberOf hy.spread rfl htarget]
    exact hapart source target hsource htarget
  have hfilled := filled_elementwise (m := m) hy hdistinct f (hplaces a ha haShape haApart)
    (hplaces b hb hbShape hbApart)
  have hstored := hfilled.stored _ (numberOf_lt hwithin)
  rwa [Operand.offset_numberOf hy.spread rfl hwithin, Operand.offset_numberOf ha haShape hwithin,
      Operand.offset_numberOf hb hbShape hwithin] at hstored

end Elementwise

end Kernel

end TensorDataflow
