import TensorDataflow.Proofs.Graph.Product
import TensorDataflow.Proofs.Library.Normalisation
/-!
# Normalisations

The library compiles a normalisation if the output has the shape of the input, and the weights are
as many as the last axis is long. Whatever the steps of the three layouts are, the compiled operator
then turns every element of the output into the element of the input at the same coordinates,
divided by the root of its row's mean square and times its weight, and so does a launch of it, with
the arithmetic of the kind: `CompiledOp.rmsNorm_normalises`. It is enough that the output puts its
elements at different offsets in memory that neither input uses; what keeps its elements apart
cannot be longer along any axis than memory has room for, so every coordinate is scaled by its step
as it should be.
-/

namespace TensorDataflow

namespace CompiledOp

open OperandLayout

variable {epsilon : Word 4} {ly lx lw : OperandLayout} {c : CompiledOp}

/-- A normalisation is compiled as it is, and the shapes of its operands fit. -/
theorem shapes_of_compile_rmsNorm (hcompile : compile (.rmsNorm epsilon) [ly, lx, lw] = .ok c) :
    c = ⟨.rmsNorm epsilon, [ly, lx, lw]⟩ ∧ (ly.kind = .f32 ∨ ly.kind = .f64) ∧
    ∃ outer last, ly.shape = outer ++ [last] ∧ lx.shape = outer ++ [last] ∧ lw.shape = [last] := by
  unfold compile at hcompile
  dsimp only at hcompile
  split at hcompile
  · cases hcompile
  · next hkinds =>
      have hkind : ly.kind = .f32 ∨ ly.kind = .f64 := by
        have hall : (ly.kind = .f32 ∨ ly.kind = .f64) ∧ lx.kind = ly.kind ∧ lw.kind = ly.kind := by
          simpa [isComputable, and_assoc, or_iff_not_imp_left] using hkinds
        exact hall.1
      split at hcompile
      · next last hlast =>
          split at hcompile
          · next hshapes =>
              cases hcompile
              obtain ⟨outer, houter⟩ := List.getLast?_eq_some_iff.1 hlast
              exact ⟨rfl, hkind, outer, last, hshapes.1.trans houter, houter, hshapes.2⟩
          · cases hcompile
      · cases hcompile

/-- An output with an element, which has its own place in memory, bounds the extents of all three
layouts. -/
theorem addressable_of_within (hy : ly.Accepted) (hx : lx.Accepted) (hw : lw.Accepted)
    (hdistinct : ly.Distinct) (hwide : 1 < ly.kind.size) (hspan : ly.spanBytes < Address.limit)
    {outer : List Nat} {last : Nat}
    (hyShape : ly.shape = outer ++ [last]) (hxShape : lx.shape = outer ++ [last])
    (hwShape : lw.shape = [last]) {coordinates : List Nat} (hwithin : Within ly.shape coordinates) :
    ly.Addressable ∧ lx.Addressable ∧ lw.Addressable := by
  have hextents := hdistinct.extents hy.2 hwide hspan hwithin
  have hxSpread : lx.Spread := ⟨hx.1, by rw [hxShape, ← hyShape]; exact hextents⟩
  have hwSpread : lw.Spread := by
    refine ⟨hw.1, fun extent hextent => ?_⟩
    rw [hwShape, List.mem_singleton] at hextent
    exact hextents extent
      (by rw [hyShape, hextent]; exact List.mem_append_right _ (List.mem_singleton.2 rfl))
  exact ⟨Spread.addressable ⟨hy.1, hextents⟩, hxSpread.addressable, hwSpread.addressable⟩

/-- A compiled normalisation normalises each row of the last axis: run with any arithmetic, on an
output that puts its elements at different offsets and has room in memory apart from what the
elements of the inputs take up, it leaves in every element of the output the element of `x` at the
same coordinates, times the reciprocal root of its row's mean square, times the weight of its
column, each element found by the layout of its own tensor, and it changes no other byte; and that
is what a launch does that goes through, with the arithmetic of the kind. -/
theorem rmsNorm_normalises (hy : ly.Accepted) (hx : lx.Accepted) (hw : lw.Accepted)
    (hcompile : compile (.rmsNorm epsilon) [ly, lx, lw] = .ok c) (hdistinct : ly.Distinct)
    (hspan : ly.spanBytes < Address.limit)
    (yBase xBase wBase : Address)
    (hapart : ∀ a ∈ Operand.elements ⟨yBase, ly⟩ ly.kind.size,
      a ∉ Operand.elements ⟨xBase, lx⟩ ly.kind.size ∪ Operand.elements ⟨wBase, lw⟩ ly.kind.size) :
    ∃ outer last, ly.shape = outer ++ [last] ∧ lx.shape = outer ++ [last] ∧ lw.shape = [last] ∧
    ∀ (workspace : Address) (args : LaunchArgs),
      (∀ (s : Arithmetic ly.kind.size) (m : Memory),
        Kernel.Normalised s (s.ofSingle epsilon) ⟨yBase, ly⟩ ⟨xBase, lx⟩ ⟨wBase, lw⟩ outer last m
          (c.runWith s [yBase, xBase, wBase] workspace args m)) ∧
      ∀ (l : OpLibrary) (d d' : HostDevice) (desc size : Nat), l.compiled desc = .ok c →
      l.launch d desc workspace size [yBase] [xBase, wBase] args = .ok d' →
        ∃ s : Arithmetic ly.kind.size, ly.kind.Computes s ∧ Kernel.Normalised s (s.ofSingle epsilon)
        ⟨yBase, ly⟩ ⟨xBase, lx⟩ ⟨wBase, lw⟩ outer last d.memory d'.memory := by
  obtain ⟨rfl, hkind, outer, last, hyShape, hxShape, hwShape⟩ := shapes_of_compile_rmsNorm hcompile
  have hwide : 1 < ly.kind.size := by rcases hkind with h | h <;> rw [h] <;> decide
  refine ⟨outer, last, hyShape, hxShape, hwShape, fun workspace args => ?_⟩
  have hnormalised : ∀ (s : Arithmetic ly.kind.size) (m : Memory),
      Kernel.Normalised s (s.ofSingle epsilon) ⟨yBase, ly⟩ ⟨xBase, lx⟩ ⟨wBase, lw⟩ outer last m
        (runWith s ⟨.rmsNorm epsilon, [ly, lx, lw]⟩ [yBase, xBase, wBase] workspace args m) :=
    fun s m =>
      Kernel.normalised_rmsNorm s (s.ofSingle epsilon) m (addressable_of_within hy hx hw hdistinct
        hwide hspan hyShape hxShape hwShape) hy.2 hyShape hxShape hwShape hdistinct hapart
  refine ⟨hnormalised, fun l d d' desc size hcompiled hlaunch => ?_⟩
  obtain ⟨s, hs, hrun⟩ := exists_run (c := ⟨.rmsNorm epsilon, [ly, lx, lw]⟩) rfl rfl hkind
  obtain ⟨-, -, -, -, rfl⟩ :=
    (OpLibrary.launch_eq_ok_iff (OpLibrary.compiled_eq_ok_iff.1 hcompiled)).1 hlaunch
  refine ⟨s, hs, ?_⟩
  rw [hrun]
  exact hnormalised s d.memory

theorem distinct_square : OperandLayout.Distinct ⟨[2, 2], [1, 2], .f32⟩ := by
  intro coordinates coordinates' h h' hsame
  rcases h with _ | ⟨hi, _ | ⟨hj, _ | _⟩⟩
  rcases h' with _ | ⟨hi', _ | ⟨hj', _ | _⟩⟩
  simp only [offsetAt, weighted, List.zipWith_cons_cons, List.zipWith_nil_left, List.sum_cons,
    List.sum_nil] at hsame
  simp only [List.cons.injEq, and_true]
  omega

/-- Two rows with a gap between them, normalised into the columns of a square, with every second
weight. -/
theorem rmsNorm_normalises_columns :
    ∃ c, compile (.rmsNorm singleOne)
    [⟨[2, 2], [1, 2], .f32⟩, ⟨[2, 2], [3, 1], .f32⟩, ⟨[2], [2], .f32⟩] = .ok c ∧
      ∀ m : Memory,
        let s := singleArithmetic
        ∃ d', OpLibrary.launch { lastId := 5, ops := [(5, c)] } (.page m) 5 ⟨0x1300⟩ 0 [⟨0x1000⟩]
          [⟨0x1100⟩, ⟨0x1200⟩] .plain = .ok d' ∧
          d'.memory.load 4 0x100c =
            s.mul (s.mul (m.load 4 0x1110) (s.div s.one (s.sqrt
                (s.add (s.div (s.add (s.add s.zero (s.mul (m.load 4 0x110c) (m.load 4 0x110c)))
                (s.mul (m.load 4 0x1110) (m.load 4 0x1110)))
              (s.ofCount 2)) (s.ofSingle singleOne))))) (m.load 4 0x1208) := by
  refine ⟨_, rfl, fun m => ⟨_, rfl, ?_⟩⟩
  have hyPlain : OperandLayout.Plain ⟨[2, 2], [1, 2], .f32⟩ := ⟨rfl, by decide, by decide⟩
  have hxPlain : OperandLayout.Plain ⟨[2, 2], [3, 1], .f32⟩ := ⟨rfl, by decide, by decide⟩
  have hwPlain : OperandLayout.Plain ⟨[2], [2], .f32⟩ := ⟨rfl, by decide, by decide⟩
  have hapart : ∀ a ∈ Operand.elements ⟨⟨0x1000⟩, ⟨[2, 2], [1, 2], .f32⟩⟩ 4, a ∉ Operand.elements
      ⟨⟨0x1100⟩, ⟨[2, 2], [3, 1], .f32⟩⟩ 4 ∪ Operand.elements ⟨⟨0x1200⟩, ⟨[2], [2], .f32⟩⟩ 4 := by
    rintro a ⟨i, hi, ha⟩ (⟨j, hj, hother⟩ | ⟨j, hj, hother⟩)
    · have hyIn : a ∈ span 0x1000 16 := Operand.bytesAt_subset (o := ⟨⟨0x1000⟩, _⟩) hyPlain 4 hi ha
      have hxIn : a ∈ span 0x1100 20 :=
        Operand.bytesAt_subset (o := ⟨⟨0x1100⟩, _⟩) hxPlain 4 hj hother
      rw [mem_span] at hyIn hxIn
      omega
    · have hyIn : a ∈ span 0x1000 16 := Operand.bytesAt_subset (o := ⟨⟨0x1000⟩, _⟩) hyPlain 4 hi ha
      have hwIn : a ∈ span 0x1200 12 :=
        Operand.bytesAt_subset (o := ⟨⟨0x1200⟩, _⟩) hwPlain 4 hj hother
      rw [mem_span] at hyIn hwIn
      omega
  obtain ⟨outer, last, hshape, -, -, hlaunch⟩ :=
    @rmsNorm_normalises singleOne _ _ _ _ ⟨rfl, by decide⟩ ⟨rfl, by decide⟩ ⟨rfl, by decide⟩ rfl
      distinct_square (by decide) ⟨0x1000⟩ ⟨0x1100⟩ ⟨0x1200⟩ hapart
  obtain ⟨rfl, hlast⟩ := List.append_inj' (show [2] ++ [2] = outer ++ [last] from hshape) rfl
  cases hlast
  obtain ⟨-, hlaunch⟩ := hlaunch ⟨0x1300⟩ .plain
  obtain ⟨s, rfl, hnormalised⟩ := hlaunch { lastId := 5, ops := [(5, _)] } (.page m) _ 5 0 rfl rfl
  exact hnormalised.elements [1] 1 (.cons (by decide) .nil) (by decide)

end CompiledOp

end TensorDataflow
