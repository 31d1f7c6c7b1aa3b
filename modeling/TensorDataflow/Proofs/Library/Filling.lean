import TensorDataflow.Proofs.Library.Footprint
/-!
# Loops that fill places

A computation that stores one word in each of some places, and uses scratch space of its own
besides, has got so far when some of the places are done: each holds its word, and all bytes outside
the scratch space and the places that are done are as they were. A place that is still to come, or
that is none of them, is therefore read as it was at the start. Rounds that each store one word do
one place after the other; a part that does several places at once may follow on what is done
already.
-/

namespace TensorDataflow

theorem ofBytes_toBytes (width n : Nat) :
    ofBytes (toBytes width n) = n % Nat.pow 2 (8 * width) := by
  induction width generalizing n with
  | zero => exact (Nat.mod_one n).symm
  | succ width ih =>
      have hbyte : (UInt8.ofNat n).toNat = n % 256 := UInt8.toNat_ofNat'
      have hpow : Nat.pow 2 (8 * (width + 1)) = 256 * Nat.pow 2 (8 * width) := by
        rw [Nat.mul_succ, Nat.add_comm]
        exact Nat.pow_add 2 8 (8 * width)
      rw [toBytes, ofBytes, ih, hbyte, hpow]
      exact (Nat.mod_mul (x := n)).symm

namespace Memory

theorem load_store {width : Nat} (m : Memory) (address : Nat) (w : Word width) :
    (m.store address w).load width address = w := by
  have hread : (m.store address w).read address width = toBytes width w.toNat := by
    have hbytes := m.read_write address (toBytes width w.toNat)
    rwa [length_toBytes] at hbytes
  apply BitVec.eq_of_toNat_eq
  rw [load, BitVec.toNat_ofNatLT, hread, ofBytes_toBytes]
  exact Nat.mod_eq_of_lt w.isLt

theorem load_store_of_apart {width : Nat} (m : Memory) {address address' : Nat} (w : Word width)
    (h : ∀ a ∈ span address width, a ∉ span address' width) :
    (m.store address' w).load width address = m.load width address :=
  load_congr fun a ha => byte_store_of_notMem (h a ha)

/-- What holds at the start and is carried on by each round holds at the end. -/
theorem forEach_invariant {P : Nat → Memory → Prop} {m : Memory} {count : Nat}
    {step : Memory → Nat → Memory} (hstart : P 0 m)
    (hstep : ∀ i < count, ∀ s, P i s → P (i + 1) (step s i)) : P count (m.forEach count step) := by
  induction count with
  | zero => exact hstart
  | succ count ih =>
      rw [forEach_succ]
      apply hstep count (Nat.lt_succ_self count)
      exact ih fun i hi => hstep i (Nat.lt_succ_of_lt hi)

section Filling

variable {ι : Type} {width : Nat} {scratch : Set Nat} {address : ι → Nat} {value : ι → Word width}
  {m s s' : Memory} {done : Set ι}

/-- How far a computation has got that stores one word in each of some places. -/
structure Filled (scratch : Set Nat) (address : ι → Nat) (value : ι → Word width) (m : Memory)
    (done : Set ι) (s : Memory) : Prop where
  kept : ∀ a, a ∉ scratch → (∀ i ∈ done, a ∉ span (address i) width) → s.byte a = m.byte a
  stored : ∀ i ∈ done, s.load width (address i) = value i

theorem filled_empty : Filled scratch address value m ∅ m :=
  ⟨fun _ _ _ => rfl, fun _ hi => absurd hi (Set.notMem_empty _)⟩

/-- A word apart from the scratch space and from the places that are done is read as before. -/
theorem Filled.load_eq (h : Filled scratch address value m done s) {other : Nat}
    (hscratch : ∀ a ∈ span other width, a ∉ scratch)
    (hapart : ∀ i ∈ done, ∀ a ∈ span other width, a ∉ span (address i) width) :
    s.load width other = m.load width other :=
  load_congr fun a ha => h.kept a (hscratch a ha) fun i hi => hapart i hi a ha

theorem Filled.store (h : Filled scratch address value m done s) {i : ι}
    (hscratch : ∀ j ∈ done, ∀ a ∈ span (address j) width, a ∉ span (address i) width) :
    Filled scratch address value m (insert i done) (s.store (address i) (value i)) where
  kept a hfree ha := by
    rw [byte_store_of_notMem (ha i (Set.mem_insert i done)),
      h.kept a hfree fun j hj => ha j (Set.mem_insert_of_mem i hj)]
  stored j hj := by
    rcases hj with rfl | hj
    · exact load_store s _ _
    · rw [load_store_of_apart s _ (hscratch j hj), h.stored j hj]

/-- What follows on some places does others. -/
theorem Filled.extend (h : Filled scratch address value m done s)
    {κ : Type} {place : κ → ι} {part : Set κ}
    (h' : Filled scratch (fun k => address (place k)) (fun k => value (place k)) s part s')
    (hscratch : ∀ i ∈ done, ∀ a ∈ span (address i) width, a ∉ scratch) (hapart : ∀ i ∈ done,
      ∀ k ∈ part, ∀ a ∈ span (address i) width, a ∉ span (address (place k)) width) :
    Filled scratch address value m (done ∪ place '' part) s' where
  kept a hfree ha := by
    rw [h'.kept a hfree fun k hk => ha _ (.inr (Set.mem_image_of_mem place hk)),
      h.kept a hfree fun i hi => ha i (.inl hi)]
  stored i hi := by
    rcases hi with hi | ⟨k, hk, rfl⟩
    · rw [h'.load_eq (hscratch i hi) (hapart i hi), h.stored i hi]
    · exact h'.stored k hk

/-- Places that are filled a second time hold the later words. -/
theorem Filled.overwrite {value' : ι → Word width} (h : Filled scratch address value m done s)
    (h' : Filled scratch address value' s done s') : Filled scratch address value' m done s' where
  kept a hfree ha := (h'.kept a hfree ha).trans (h.kept a hfree ha)
  stored := h'.stored

/-- Scratch space may be used before the filling starts. -/
theorem Filled.after {between : Memory} (h : Filled ∅ address value between done s)
    (hbetween : ∀ a, a ∉ scratch → between.byte a = m.byte a) :
    Filled scratch address value m done s where
  kept a hfree ha := (h.kept a (Set.notMem_empty a) ha).trans (hbetween a hfree)
  stored := h.stored

theorem Filled.congr {value' : ι → Word width} (h : Filled scratch address value m done s)
    (hvalue : ∀ i ∈ done, value i = value' i) : Filled scratch address value' m done s where
  kept := h.kept
  stored i hi := (h.stored i hi).trans (hvalue i hi)

theorem filled_forEach {count : Nat} {address : Nat → Nat} {value : Nat → Word width}
    {step : Memory → Nat → Memory}
    (hapart : ∀ j < count, ∀ i < j, ∀ a ∈ span (address i) width, a ∉ span (address j) width)
    (hstep : ∀ i < count, ∀ s, Filled scratch address value m (Set.Iio i) s →
      step s i = s.store (address i) (value i)) :
    Filled scratch address value m (Set.Iio count) (m.forEach count step) := by
  apply forEach_invariant (P := fun i => Filled scratch address value m (Set.Iio i))
  · have hnone : Set.Iio 0 = (∅ : Set Nat) := Set.eq_empty_of_forall_notMem Nat.not_lt_zero
    rw [hnone]
    exact filled_empty
  · intro i hi s hs
    have hnext : Set.Iio (i + 1) = insert i (Set.Iio i) := by
      ext j
      rw [Set.mem_insert_iff, Set.mem_Iio, Set.mem_Iio]
      omega
    rw [hstep i hi s hs, hnext]
    exact hs.store (hapart i hi)

end Filling

end Memory

end TensorDataflow
