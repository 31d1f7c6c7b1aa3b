import TensorDataflow.Proofs.Session.Custody
/-!
# The layouts behind a descriptor

A descriptor is compiled from the layouts that the tensors of its operator have at that moment. As
long as the operator has it, it is the answer to whoever asks for one for the same library and
device, and what has been done to the tensors since is not seen: `Session.stale_layouts`. So a
descriptor that is answered is built then and there, or it was built by an earlier move, from the
layouts of that time, and the operator has had it ever since: `Session.kernels_dated`.
-/

namespace TensorDataflow

namespace Session

variable {emulated : List DeviceKind} {rooms : List Nat} {moves : List Move} {move : Move}
  {e : Entry}

/-- A descriptor was built by a certain move: the operator did not have it before, a graph that was
at hand compiled the operator to the kernel behind it, and the operator has had it ever since. -/
structure BuiltBy (emulated : List DeviceKind) (rooms : List Nat) (moves : List Move) (k : Nat)
    (e : Entry) : Prop where
  made : k < moves.length
  compiled : ∃ g graph, (played emulated rooms (moves.take k)).graphs.get? g = some graph ∧
    graph.Compiled e.op e.compiled
  absent : e.held ∉ heldBy (played emulated rooms (moves.take k)).ops
  since : ∀ i, k < i → i ≤ moves.length → e.held ∈ heldBy (played emulated rooms (moves.take i)).ops

/-- What is held after another move was built by it, or by an earlier one. -/
theorem BuiltBy.append {k : Nat} (h : BuiltBy emulated rooms moves k e)
    (hheld : e.held ∈ heldBy ((played emulated rooms moves).advance move).ops) :
    BuiltBy emulated rooms (moves ++ [move]) k e := by
  have hlength : (moves ++ [move]).length = moves.length + 1 := List.length_append
  have hbefore : ∀ i, i ≤ moves.length → (moves ++ [move]).take i = moves.take i :=
    fun i hi => List.take_append_of_le_length hi
  refine ⟨hlength ▸ Nat.lt_succ_of_lt h.made, ?_, ?_, fun i hk hi => ?_⟩
  · rw [hbefore k (Nat.le_of_lt h.made)]
    exact h.compiled
  · rw [hbefore k (Nat.le_of_lt h.made)]
    exact h.absent
  · rcases Nat.lt_or_ge moves.length i with hlast | hold
    · rwa [List.take_of_length_le (hlength ▸ hlast), played_append]
    · rw [hbefore i hold]
      exact h.since i hk hold

theorem builtBy_last
    (hcompiled : ∃ g graph, (played emulated rooms moves).graphs.get? g = some graph ∧
      graph.Compiled e.op e.compiled) (habsent : e.held ∉ heldBy (played emulated rooms moves).ops)
    (hheld : e.held ∈ heldBy ((played emulated rooms moves).advance move).ops) :
    BuiltBy emulated rooms (moves ++ [move]) moves.length e := by
  have hlength : (moves ++ [move]).length = moves.length + 1 := List.length_append
  have hbefore : (moves ++ [move]).take moves.length = moves := List.take_left
  refine ⟨hlength ▸ Nat.lt_succ_self _, ?_, ?_, fun i hk hi => ?_⟩
  · rwa [hbefore]
  · rwa [hbefore]
  · rwa [List.take_of_length_le (hlength ▸ hk), played_append]

/-- Whatever operators have after some moves was built by one of them. -/
theorem built_played (emulated : List DeviceKind) (rooms : List Nat) (moves : List Move) :
    ∃ floor, (played emulated rooms moves).Balanced floor fun e =>
      ∃ k, BuiltBy emulated rooms moves k e := by
  induction moves using List.reverseRecOn with
  | nil => exact ⟨0, balanced_start emulated rooms _⟩
  | append_singleton moves move ih =>
      obtain ⟨_, hbalanced⟩ := ih
      -- what is built now gets a number above all that have been given out, so nobody has it yet
      let built (e : Entry) : Prop := (∃ k, BuiltBy emulated rooms moves k e) ∨
        (played emulated rooms moves).own.library.lastId < e.descriptor.desc ∧ ∃ g graph,
        (played emulated rooms moves).graphs.get? g = some graph ∧ graph.Compiled e.op e.compiled
      have hraised : (played emulated rooms moves).Balanced
          (played emulated rooms moves).own.library.lastId built :=
        ⟨hbalanced.traced, hbalanced.accounts.raise.mono fun _ _ hbuilt => .inl hbuilt,
          hbalanced.home⟩
      have hwarrants : (played emulated rooms moves).Warrants
          (played emulated rooms moves).own.library.lastId built :=
        fun g graph hgraph _ _ _ hnew hcompiled => .inr ⟨hnew, g, graph, hgraph, hcompiled⟩
      have hafter := hraised.advance hwarrants move
      rw [played_append]
      refine ⟨_, hafter.traced, hafter.accounts.mono fun e hheld hbuilt => ?_, hafter.home⟩
      rcases hbuilt with ⟨k, hbuilt⟩ | ⟨hnew, hcompiled⟩
      · exact ⟨k, hbuilt.append hheld⟩
      · exact ⟨moves.length, builtBy_last hcompiled
          (fun hold => absurd (hbalanced.accounts.known hold) (Nat.not_le.2 hnew)) hheld⟩

/-- Whenever a descriptor is answered, even midway through a run, the kernel behind it is what the
operator compiles to now, unless the operator has had this descriptor for this library and device
before: then the kernel is what it compiled to when the descriptor was built. -/
theorem kernels_dated (emulated : List DeviceKind) (rooms : List Nat) (moves : List Move)
    (thread : ThreadId) (g : Nat) (m : Machine) (graph : Graph)
    (hmidway : ((played emulated rooms moves).onThread thread).Midway g (m, graph))
    (x : OpId) (guarded : Bool) (device : DeviceKind) (deviceId desc : Nat) (m' : Machine)
    (graph' : Graph)
    (hanswer : Graph.createDescriptor x ⟨ownBackend, guarded⟩ device deviceId (m, graph) =
        (.ok desc, m', graph')) :
    ∃ c, (m'.library ownBackend).ops.lookup desc = some c ∧
      (graph.Compiled x c ∨ ∃ op ∈ graph.ops, op.id = x ∧
        ∃ handle, op.descriptor = some ⟨⟨ownBackend, guarded⟩, handle, desc, device, deviceId⟩ ∧
        ∃ k, BuiltBy emulated rooms moves k
          ⟨x, ⟨⟨ownBackend, guarded⟩, handle, desc, device, deviceId⟩, c⟩) := by
  obtain ⟨_, hbalanced⟩ := built_played emulated rooms moves
  have hnow := hbalanced.onThread thread
  cases hnow.asked hmidway hanswer with
  | @built handle _ op c _ _ _ ho hid hnew hcompiled hlookup => exact ⟨c, hlookup, .inl hcompiled⟩
  | @kept handle _ op _ _ hmachine _ ho hid hfits =>
      obtain ⟨-, rest, haccounts⟩ := hnow.midway hmidway
      have hheld : (x, _) ∈ heldBy graph.ops :=
        List.mem_filterMap.2 ⟨op, ho, by rw [Operator.held, hfits, hid, Option.map_some]⟩
      obtain ⟨c, hlookup, hbuilt | hcompiled⟩ := haccounts.kernel (List.mem_append_left rest hheld)
      · exact ⟨c, hmachine ▸ hlookup, .inr ⟨op, ho, hid, handle, hfits, hbuilt⟩⟩
      · exact ⟨c, hmachine ▸ hlookup, .inl hcompiled⟩

/-- The sum of a square with itself is compiled, and then the square is laid out by columns. -/
def transposed : List Move :=
  [.act 0 (.edit (.addTensor 0 ⟨[.const 2, .const 2]⟩ none .f32)),
    .act 0 (.edit (.addOp 0 (.pointwise .add) [1, 1])), .act 0 (.create 0 1 .cpu 0 true),
    .act 0 (.layOut (.member 0 1) (.stride ⟨[.const 1, .const 2]⟩))]

/-- A sum of squares that are laid out by rows. -/
def sumByRows : CompiledOp := ⟨.add, List.replicate 3 ⟨[2, 2], [2, 1], .f32⟩⟩

theorem createDescriptor_transposed :
    ∃ graph m' graph', (played [] [] transposed).graphs.get? 0 = some graph ∧
    Graph.createDescriptor 1 ⟨ownBackend, true⟩ .cpu 0
      (((played [] [] transposed).onThread 0).machine, graph) = (.ok 5, m', graph') ∧
      (m'.library ownBackend).ops.lookup 5 = some sumByRows := by
  have hanswer : ((played [] [] transposed).graphs.get? 0).map (fun graph =>
      (Graph.createDescriptor 1 ⟨ownBackend, true⟩ .cpu 0
        (((played [] [] transposed).onThread 0).machine, graph)).1) =
      some (.ok 5) := by decide +kernel
  have hkernel : ((played [] [] transposed).graphs.get? 0).map (fun graph =>
      ((Graph.createDescriptor 1 ⟨ownBackend, true⟩ .cpu 0
        (((played [] [] transposed).onThread 0).machine, graph)).2.1.library
          ownBackend).ops.lookup 5) = some (some sumByRows) := by
    decide +kernel
  obtain ⟨graph, hgraph, hok⟩ := Option.map_eq_some_iff.1 hanswer
  rw [hgraph] at hkernel
  rcases hresult : Graph.createDescriptor 1 ⟨ownBackend, true⟩ .cpu 0
      (((played [] [] transposed).onThread 0).machine, graph) with ⟨answer, m', graph'⟩
  rw [hresult] at hok
  rw [Option.map_some, hresult] at hkernel
  obtain rfl : answer = _ := hok
  exact ⟨graph, m', graph', hgraph, hresult, Option.some.inj hkernel⟩

theorem not_compiled_transposed {graph : Graph}
    (hgraph : (played [] [] transposed).graphs.get? 0 = some graph) :
    ¬ graph.Compiled 1 sumByRows := by
  have hlayouts : ((played [] [] transposed).graphs.get? 0).map (fun graph =>
      (graph.nativeOperandsOf 1).toOption.map fun (op, layouts) => (op.kind.nativeOp, layouts)) =
      some (some (.add, ⟨[2, 2], [2, 1], .f32⟩ :: List.replicate 2 ⟨[2, 2], [1, 2], .f32⟩)) := by
    decide +kernel
  rintro ⟨op, layouts, hoperands, hcompile⟩
  rw [hgraph, Option.map_some, hoperands] at hlayouts
  obtain ⟨hkind, rfl⟩ := Prod.mk.inj (Option.some.inj (Option.some.inj hlayouts))
  rw [hkind] at hcompile
  exact absurd hcompile (by decide)

theorem kernels_dated_transposed : ∃ graph m' graph',
    ((played [] [] transposed).onThread 0).Midway 0
      (((played [] [] transposed).onThread 0).machine, graph) ∧
    Graph.createDescriptor 1 ⟨ownBackend, true⟩ .cpu 0
      (((played [] [] transposed).onThread 0).machine, graph) = (.ok 5, m', graph') ∧
      (m'.library ownBackend).ops.lookup 5 = some sumByRows ∧
      ∃ handle k,
      BuiltBy [] [] transposed k ⟨1, ⟨⟨ownBackend, true⟩, handle, 5, .cpu, 0⟩, sumByRows⟩ := by
  obtain ⟨graph, m', graph', hgraph, hanswer, hkernel⟩ := createDescriptor_transposed
  have hmidway := midway_onThread hgraph 0
  refine ⟨graph, m', graph', hmidway, hanswer, hkernel, ?_⟩
  obtain ⟨c, hlookup, hdated⟩ :=
    kernels_dated [] [] transposed 0 0 _ graph hmidway 1 true .cpu 0 5 m' graph' hanswer
  obtain rfl := Option.some.inj (hkernel.symm.trans hlookup)
  obtain hcompiled | ⟨-, -, -, handle, -, k, hbuilt⟩ := hdated
  · exact absurd hcompiled (not_compiled_transposed hgraph)
  · exact ⟨handle, k, hbuilt⟩

/-- The layouts behind the descriptor that is answered are not those that the tensors have. -/
theorem stale_layouts :
    ∃ graph desc m' graph' c, (played [] [] transposed).graphs.get? 0 = some graph ∧
    Graph.createDescriptor 1 ⟨ownBackend, true⟩ .cpu 0
      (((played [] [] transposed).onThread 0).machine, graph) = (.ok desc, m', graph') ∧
      (m'.library ownBackend).ops.lookup desc = some c ∧ ¬ graph.Compiled 1 c := by
  obtain ⟨graph, m', graph', hgraph, hanswer, hkernel⟩ := createDescriptor_transposed
  exact ⟨graph, 5, m', graph', sumByRows, hgraph, hanswer, hkernel, not_compiled_transposed hgraph⟩

end Session

end TensorDataflow
