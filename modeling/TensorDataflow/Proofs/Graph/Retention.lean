import TensorDataflow.Graph.Descriptor
import TensorDataflow.Proofs.Graph.DependencyOrder
import TensorDataflow.Proofs.Graph.EdgeCounts
/-!
# What a sort keeps

A sort that fails changes nothing. One that succeeds has taken at least as often as there are
operators, but an operator may be taken more than once, so others can be missing. In a built graph
those that are missing have a cycle before them, and none is missing if every tensor that is taken
before it is made is made once: `Draft.sort_retains`. Where two operators make a tensor that a third
was waiting for, the third is taken twice, which can make up for an operator that is never taken:
`Draft.sort_loses_operator`.
-/

namespace TensorDataflow

/-! ### The sort as an action -/

theorem Descriptor.destroy_apply {ε : Type} (d : Descriptor) (m : Machine) :
    ((d.destroy : Act Machine ε Unit) m).1 = .ok () := by
  simp only [destroy, Act.bind_apply, Act.attempt_apply]

theorem Operator.dropAll_apply {ε : Type} (ops : List Operator) (m : Machine) :
    ((dropAll ops : Act Machine ε Unit) m).1 = .ok () := by
  rw [dropAll, List.forM_eq_forM]
  induction ops.filterMap Operator.descriptor generalizing m with
  | nil => rfl
  | cons d ds ih =>
      rw [List.forM_cons, Act.bind_apply]
      rcases hdestroy : (d.destroy : Act Machine ε Unit) m with ⟨_ | _, m'⟩
      · have hok := d.destroy_apply (ε := ε) m
        rw [hdestroy] at hok
        cases hok
      · exact ih m'

namespace Graph

theorem sort_apply (m : Machine) (g : Graph) :
    sort (m, g) = match g.topoSort with
      | .error e => (.error e, m, g)
      | .ok (sorted, lost) =>
          (.ok (), ((Operator.dropAll lost : Act Machine GraphError Unit) m).2, sorted) := by
  cases hsort : g.topoSort with
  | error e => simp only [sort, Act.bind_apply, Act.get_apply, Act.ofExcept_apply, hsort]
  | ok result =>
      simp only [sort, Act.bind_apply, Act.get_apply, Act.ofExcept_apply, Act.modify_apply,
        onMachine, Act.on_apply, hsort, Operator.dropAll_apply]

/-- Whatever becomes of a sort, the tensors stay as they are, and no operator appears. -/
theorem sort_within (m : Machine) (g : Graph) :
    (sort (m, g)).2.2.tensors = g.tensors ∧ ∀ op ∈ (sort (m, g)).2.2.ops, op ∈ g.ops := by
  rw [sort_apply]
  cases hsort : g.topoSort with
  | error e => exact ⟨rfl, fun _ hop => hop⟩
  | ok result =>
      obtain ⟨g', lost⟩ := result
      rcases topoSort_eq_ok hsort with ⟨_, rfl⟩ | ⟨_, order, horder, _, rfl⟩
      · exact ⟨rfl, fun _ hop => hop⟩
      · refine ⟨rfl, fun op hop => ?_⟩
        obtain ⟨x, _, hx⟩ := List.mem_filterMap.1 hop
        exact mem_of_operator? hx

/-- No operator is there twice after a sort. -/
theorem sort_keeps (m : Machine) {g : Graph} (hids : (g.ops.map Operator.id).Nodup) :
    (sort (m, g)).2.2.tensors = g.tensors ∧ ((sort (m, g)).2.2.ops.map Operator.id).Nodup ∧
    ∀ op ∈ (sort (m, g)).2.2.ops, op ∈ g.ops := by
  obtain ⟨htensors, hwithin⟩ := sort_within m g
  refine ⟨htensors, ?_, hwithin⟩
  rw [sort_apply]
  cases hsort : g.topoSort with
  | error e => exact hids
  | ok result =>
      obtain ⟨g', lost⟩ := result
      rcases topoSort_eq_ok hsort with ⟨_, rfl⟩ | ⟨_, order, horder, _, rfl⟩
      · exact hids
      · show ((order.eraseDups.filterMap g.operator?).map Operator.id).Nodup
        rw [g.map_id_filterMap_operator? _ fun x hx =>
          (told_of_takingOrder? hids horder).2 x (List.mem_eraseDups.1 hx)]
        exact nodup_eraseDups order

/-- A sort parts the operators: those that it puts in order and those that it loses. -/
theorem topoSort_perm {g g' : Graph} (hids : (g.ops.map Operator.id).Nodup) {lost : List Operator}
    (h : g.topoSort = .ok (g', lost)) : (g'.ops ++ lost).Perm g.ops := by
  rw [topoSort_eq] at h
  split at h
  · cases h
    rw [List.append_nil]
  · cases horder : g.takingOrder? fun _ queue => queue with
    | none =>
        rw [horder] at h
        cases h
    | some order =>
        rw [horder, arrange] at h
        split at h
        · cases h
        · cases h
          obtain ⟨-, hsubset⟩ := told_of_takingOrder? hids horder
          have hsorted : ((order.eraseDups.filterMap g.operator?).map Operator.id).Nodup := by
            rw [g.map_id_filterMap_operator? _ fun x hx => hsubset x (List.mem_eraseDups.1 hx)]
            exact nodup_eraseDups order
          have hkept : (order.eraseDups.filterMap g.operator?).Perm
              (g.ops.filter fun op => order.contains op.id) := by
            refine (List.perm_ext_iff_of_nodup (hsorted.of_map _) ((hids.of_map _).filter _)).2
              fun op => ?_
            rw [List.mem_filterMap, List.mem_filter, List.contains_iff_mem]
            constructor
            · rintro ⟨x, hx, hop⟩
              exact ⟨mem_of_operator? hop, id_of_operator? hop ▸ List.mem_eraseDups.1 hx⟩
            · rintro ⟨hop, hx⟩
              exact ⟨op.id, List.mem_eraseDups.2 hx, operator?_of_mem hids hop⟩
          exact (hkept.append_right _).trans (List.filter_append_perm _ g.ops)

/-! ### Who is taken -/

/-- A tensor that an operator takes before it is made, or takes and makes, is made once. -/
def AwaitedOnce (g : Graph) : Prop :=
  ∀ a ∈ g.ops, ∀ c ∈ g.ops, c.id ≤ a.id → ∀ id ∈ a.outputs, id ∈ c.inputs →
    a.outputs.count id = 1 ∧ ∀ b ∈ g.ops, id ∈ b.outputs → b = a

instance (g : Graph) : Decidable g.AwaitedOnce :=
  inferInstanceAs (Decidable (∀ a ∈ g.ops, ∀ c ∈ g.ops, c.id ≤ a.id →
    ∀ id ∈ a.outputs, id ∈ c.inputs → a.outputs.count id = 1 ∧ ∀ b ∈ g.ops, id ∈ b.outputs → b = a))

/-- Two properties that exclude each other and imply a third are counted apart. -/
theorem countP_add_countP_le {xs : List TensorId} {p q r : TensorId → Bool}
    (hp : ∀ x ∈ xs, p x → r x ∧ ¬ q x) (hq : ∀ x ∈ xs, q x → r x) :
    xs.countP p + xs.countP q ≤ xs.countP r := by
  rw [List.countP_eq_countP_filter_add xs r q, Nat.add_comm, List.countP_filter, List.countP_filter]
  refine Nat.add_le_add (List.countP_mono_left fun x hx hxq => ?_)
    (List.countP_mono_left fun x hx hxp => ?_)
  · simp [hxq, hq x hx hxq]
  · simp [hp x hx hxp]

section Linked

variable {ids : IdSupply} {g : Graph} (hwired : Wired ids g) (hclosed : Closed g)
  (hcounted : Counted ids g)

include hwired

/-- The producers that slots name tell an operator at least once for each slot. -/
theorem waiting_le_tellings {c : Operator} (hc : c ∈ g.ops) :
    g.waiting.count c.id ≤ g.tellings (g.ops.map Operator.id) c.id := by
  rw [count_waiting, operator?_of_mem hwired.opIds hc, Option.elim_some, inDegree_eq,
    ← sum_countP_eq c.inputs g.sourceOf hwired.opIds, tellings_eq_sum, List.map_map, List.map_map]
  refine List.sum_le_sum fun a ha => ?_
  rw [Function.comp_apply, Function.comp_apply, count_informed hwired.opIds ha hc]
  exact hwired.enough a ha c hc

include hcounted

theorem feeds_of_informed {a c : Operator} (ha : a ∈ g.ops) (hc : c ∈ g.ops)
    (htells : c.id ∈ g.informed a.id) : g.Feeds a c := by
  have hcount := List.count_pos_iff.2 htells
  rw [count_informed hwired.opIds ha hc] at hcount
  refine ⟨ha, hc, ?_⟩
  rcases Nat.lt_or_ge a.id c.id with hlt | hle
  · have hle := hwired.notTooMany a ha c hc fun hdoubles => Nat.not_le.2 hlt hdoubles.1
    obtain ⟨id, hin, hout⟩ := List.countP_pos_iff.1 (Nat.lt_of_lt_of_le hcount hle)
    exact ⟨id, of_decide_eq_true hout, hin⟩
  · rw [hcounted.late a ha c hc hle] at hcount
    exact Operator.slotPairs_pos_iff.1 hcount

/-- Every operator that no cycle leads to is taken. -/
theorem mem_order_of_not_tangled {order : List OpId}
    (horder : (g.takingOrder? fun _ queue => queue) = some order) {c : Operator} (hc : c ∈ g.ops)
    (hfree : ¬ g.Tangled c) : c.id ∈ order := by
  have henter : ∀ x ∈ g.ops, (∀ a, g.Feeds a x → a ∈ g.ops.filter (·.id ∈ order)) →
      x ∈ g.ops.filter (·.id ∈ order) := by
    intro x hx hfeeders
    refine List.mem_filter.2 ⟨hx, decide_eq_true ?_⟩
    refine mem_order_of_tellers hwired.opIds horder (List.mem_map_of_mem hx)
      (waiting_le_tellings hwired hx) fun n htells => ?_
    obtain ⟨a, ha, rfl⟩ := List.mem_map.1 (teller_mem htells)
    exact of_decide_eq_true
      (List.mem_filter.1 (hfeeders a (feeds_of_informed hwired hcounted ha hx htells))).2
  exact of_decide_eq_true
    (List.mem_filter.1 (mem_order_of_untangled henter (fun _ _ hfeeds => hfeeds.1) hc hfree)).2

include hclosed

/-- Where awaited tensors are made once, the operators that come after a consumer tell it only for
slots that name them. -/
theorem late_le_countP (hawaited : g.AwaitedOnce) {a c : Operator} (ha : a ∈ g.ops)
    (hc : c ∈ g.ops) :
    (if a.id < c.id then 0 else a.successors.count c.id) ≤
      c.inputs.countP fun id => (g.sourceOf id).filter (c.id ≤ ·) = some a.id := by
  split
  · exact Nat.zero_le _
  · next hlt =>
      have hle : c.id ≤ a.id := Nat.le_of_not_lt hlt
      rw [hcounted.late a ha c hc hle, Operator.slotPairs_eq_sum]
      refine sum_le_countP fun id hin => ?_
      by_cases hout : id ∈ a.outputs
      · -- nobody else makes what the slot holds, so it is `a` that the slot names
        obtain ⟨honce, halone⟩ := hawaited a ha c hc hle id hout hin
        obtain ⟨t, ht, rfl, hsome⟩ := hclosed.outputs a ha id hout
        obtain ⟨n, hn⟩ := Option.ne_none_iff_exists'.1 hsome
        obtain ⟨b, hb, rfl⟩ := hclosed.sources t ht n hn
        have hsource : g.sourceOf t.id = some a.id :=
          (sourceOf_eq_some_iff hwired.tensorIds).2
            ⟨t, ht, rfl, by rw [hn, halone b hb (hwired.source b hb t ht hn)]⟩
        rw [honce, if_pos (by simp [hsource, hle])]
      · rw [List.count_eq_zero.2 hout]
        exact Nat.zero_le _

/-- The producers before a consumer and those after it tell it for different slots. -/
theorem tellings_le_waiting (hawaited : g.AwaitedOnce) {c : Operator} (hc : c ∈ g.ops) :
    g.tellings (g.ops.map Operator.id) c.id ≤ g.waiting.count c.id := by
  have hlate : (g.ops.map fun a => if a.id < c.id then 0 else a.successors.count c.id).sum ≤
      c.inputs.countP fun id =>
        ((g.sourceOf id).filter (c.id ≤ ·)).any fun n => n ∈ g.ops.map Operator.id := by
    rw [← sum_countP_eq c.inputs (fun id => (g.sourceOf id).filter (c.id ≤ ·)) hwired.opIds,
      List.map_map]
    exact List.sum_le_sum fun a ha => late_le_countP hwired hclosed hcounted hawaited ha hc
  have hslots : (c.inputs.countP fun id => ∃ a ∈ g.ops, a.id < c.id ∧ id ∈ a.outputs) +
      (c.inputs.countP fun id => ((g.sourceOf id).filter (c.id ≤ ·)).any fun n =>
        n ∈ g.ops.map Operator.id) ≤
        c.inputs.countP fun id => (g.sourceOf id).any fun n => n ∈ g.ops.map Operator.id := by
    refine countP_add_countP_le (fun id hin hearly => ?_) fun id _ hlater => ?_
    · -- a producer after `c` would be the only one, and here is one before it
      obtain ⟨b, hb, hlt, hout⟩ := of_decide_eq_true hearly
      refine ⟨(sourceOf_any_iff hwired hclosed id).2 ⟨b, hb, hout⟩, fun hlater => ?_⟩
      obtain ⟨n, hsource, hn⟩ := (Option.any_eq_true _ _).1 hlater
      obtain ⟨hsource, hle⟩ := Option.filter_eq_some_iff.1 hsource
      obtain ⟨a, ha, rfl⟩ := List.mem_map.1 (of_decide_eq_true hn)
      obtain ⟨t, ht, rfl, hmade⟩ := (sourceOf_eq_some_iff hwired.tensorIds).1 hsource
      rw [(hawaited a ha c hc (of_decide_eq_true hle) _ (hwired.source a ha t ht hmade) hin).2 b
        hb hout] at hlt
      exact Nat.not_le.2 hlt (of_decide_eq_true hle)
    · obtain ⟨n, hsource, hn⟩ := (Option.any_eq_true _ _).1 hlater
      exact (Option.any_eq_true _ _).2 ⟨n, (Option.filter_eq_some_iff.1 hsource).1, hn⟩
  calc g.tellings (g.ops.map Operator.id) c.id
      = (g.ops.map fun a => (if a.id < c.id then a.successors.count c.id else 0) + if a.id < c.id
          then 0 else a.successors.count c.id).sum := by
        rw [tellings_eq_sum, List.map_map]
        congr 1
        refine List.map_congr_left fun a ha => (count_informed hwired.opIds ha hc).trans ?_
        split <;> simp
    _ ≤ c.inputs.countP fun id => (g.sourceOf id).any fun n => n ∈ g.ops.map Operator.id := by
        rw [List.sum_map_add, hcounted.early c hc]
        exact Nat.le_trans (Nat.add_le_add_left hlate _) hslots
    _ = g.waiting.count c.id := by
      rw [count_waiting, operator?_of_mem hwired.opIds hc, Option.elim_some, inDegree_eq]

theorem selfTold_of_awaitedOnce (hawaited : g.AwaitedOnce) :
    g.SelfTold (g.ops.map Operator.id) where
  subset _ hx := hx
  closed _ _ _ htells := teller_mem htells
  even x hx := by
    obtain ⟨c, hc, rfl⟩ := List.mem_map.1 hx
    exact Nat.le_antisymm (tellings_le_waiting hwired hclosed hcounted hawaited hc)
      (waiting_le_tellings hwired hc)

/-- Where awaited tensors are made once no operator is taken twice, so enough takings are takings of
all. -/
theorem length_le_of_awaitedOnce (hawaited : g.AwaitedOnce) {s : Graph} {lost : List Operator}
    (hsort : g.topoSort = .ok (s, lost)) : g.ops.length ≤ s.ops.length := by
  rcases topoSort_eq_ok hsort with ⟨_, rfl⟩ | ⟨_, order, horder, hlength, rfl⟩
  · exact Nat.le_refl _
  · obtain ⟨taken, htaken, hnodup, hsubset, _⟩ :=
      exists_takingOrder hwired.opIds (selfTold_of_awaitedOnce hwired hclosed hcounted hawaited)
    obtain rfl := Option.some.inj (horder.symm.trans htaken)
    have hall := congrArg List.length (g.map_id_filterMap_operator? order hsubset)
    rw [List.length_map] at hall
    show g.ops.length ≤ (order.eraseDups.filterMap g.operator?).length
    rwa [eraseDups_of_nodup hnodup, hall]

omit hclosed in
theorem mem_sorted_of_not_tangled {s : Graph} {lost : List Operator}
    (hsort : g.topoSort = .ok (s, lost)) {c : Operator} (hc : c ∈ g.ops) (hfree : ¬ g.Tangled c) :
    c ∈ s.ops := by
  rcases topoSort_eq_ok hsort with ⟨_, rfl⟩ | ⟨_, order, horder, _, rfl⟩
  · exact hc
  · have htaken := mem_order_of_not_tangled hwired hcounted horder hc hfree
    exact List.mem_filterMap.2 ⟨c.id, List.mem_eraseDups.2 htaken, operator?_of_mem hwired.opIds hc⟩

end Linked

end Graph

namespace Draft

/-- What a sort makes of a built graph. If it fails, nothing changes. If it succeeds, no operator is
there twice and none that was not there before, those that are missing have a cycle before them, and
none is missing if there is no cycle or all awaited tensors are made once. -/
theorem sort_retains (steps : List BuildStep) (m : Machine) :
    (∀ e, (Graph.sort (m, (built steps).graph)).1 = .error e →
      (Graph.sort (m, (built steps).graph)).2 = (m, (built steps).graph)) ∧
      ((Graph.sort (m, (built steps).graph)).1 = .ok () →
        (Graph.sort (m, (built steps).graph)).2.2.ops.Subperm (built steps).graph.ops ∧
          (∀ op ∈ (built steps).graph.ops, op ∉ (Graph.sort (m, (built steps).graph)).2.2.ops →
            (built steps).graph.Tangled op) ∧
          ((built steps).graph.Acyclic ∨ (built steps).graph.AwaitedOnce →
            (Graph.sort (m, (built steps).graph)).2.2.ops.Perm (built steps).graph.ops)) := by
  obtain ⟨hwired, hclosed, hcounted⟩ := built_linked steps
  obtain ⟨_, hids, hsubset⟩ := Graph.sort_keeps m hwired.opIds
  have hsubperm := List.subperm_of_subset (hids.of_map _) hsubset
  rw [Graph.sort_apply] at hsubperm ⊢
  cases hsort : (built steps).graph.topoSort with
  | error e => exact ⟨fun _ _ => rfl, fun hok => (nomatch hok)⟩
  | ok result =>
      obtain ⟨s, lost⟩ := result
      rw [hsort] at hsubperm
      refine ⟨fun _ herror => (nomatch herror), fun _ => ⟨hsubperm, fun op hop hmissing => ?_, ?_⟩⟩
      · by_contra hfree
        exact hmissing (Graph.mem_sorted_of_not_tangled hwired hcounted hsort hop hfree)
      · rintro (hacyclic | hawaited)
        · refine hsubperm.antisymm (List.subperm_of_subset (hwired.opIds.of_map _) fun op hop => ?_)
          exact Graph.mem_sorted_of_not_tangled hwired hcounted hsort hop
            (Graph.acyclic_iff.1 hacyclic op hop)
        · exact hsubperm.perm_of_length_le
            (Graph.length_le_of_awaitedOnce hwired hclosed hcounted hawaited hsort)

/-- Two operators that make one tensor, its consumer after them, and before that a consumer of a
tensor that the last one makes. -/
def shared : List BuildStep :=
  vectors 4 ++ [.opWithOutputs (.pointwise .add) [3, 1] [4],
      .opWithOutputs (.pointwise .add) [1, 1] [2], .opWithOutputs (.pointwise .mul) [1, 1] [2],
    .opWithOutputs (.pointwise .add) [2, 2] [3]]

theorem sort_retains_shared :
    ¬ (built shared).graph.SingleProducer ∧ (built shared).graph.AwaitedOnce ∧
    (Graph.sort (⟨[], 0⟩, (built shared).graph)).1 = .ok () ∧
      (Graph.sort (⟨[], 0⟩, (built shared).graph)).2.2.ops.Perm (built shared).graph.ops := by
  have hawaited : (built shared).graph.AwaitedOnce := by decide +kernel
  have hsorts : (Graph.sort (⟨[], 0⟩, (built shared).graph)).1 = .ok () := by decide +kernel
  exact ⟨by decide +kernel, hawaited, hsorts,
    ((sort_retains shared ⟨[], 0⟩).2 hsorts).2.2 (.inr hawaited)⟩

/-- A consumer of a tensor that two operators after it make, and an operator that feeds itself. -/
def overtold : List BuildStep :=
  vectors 4 ++ [.opWithOutputs (.pointwise .add) [2, 1] [3],
      .opWithOutputs (.pointwise .add) [1, 1] [2], .opWithOutputs (.pointwise .mul) [1, 1] [2],
    .opWithOutputs (.pointwise .mul) [4, 1] [4]]

/-- The consumer is taken twice, which makes up for the operator that feeds itself: the sort
succeeds and loses it. -/
theorem sort_loses_operator :
    (built overtold).graph.ops.map Operator.id = [1, 2, 3, 4] ∧
    (Graph.sort (⟨[], 0⟩, (built overtold).graph)).1 = .ok () ∧
      (Graph.sort (⟨[], 0⟩, (built overtold).graph)).2.2.ops.map Operator.id = [2, 3, 1] ∧
      ¬ (Graph.sort (⟨[], 0⟩, (built overtold).graph)).2.2.ops.Perm (built overtold).graph.ops := by
  have hbefore : (built overtold).graph.ops.map Operator.id = [1, 2, 3, 4] := by decide +kernel
  have hafter : (Graph.sort (⟨[], 0⟩, (built overtold).graph)).2.2.ops.map Operator.id =
      [2, 3, 1] := by
    decide +kernel
  have hsorts : (Graph.sort (⟨[], 0⟩, (built overtold).graph)).1 = .ok () := by decide +kernel
  refine ⟨hbefore, hsorts, hafter, fun hperm => ?_⟩
  have hlength := (hperm.map Operator.id).length_eq
  rw [hbefore, hafter] at hlength
  exact absurd hlength (by decide)

end Draft

end TensorDataflow
