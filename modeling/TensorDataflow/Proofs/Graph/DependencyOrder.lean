import TensorDataflow.Graph.Descriptor
import TensorDataflow.Proofs.Graph.Built
/-!
# Sorting built graphs

The sort of a graph that has only been built, where no tensor is made by two operators. It ends; it
succeeds exactly when no operator depends on itself through others, and then it reorders the
operators so that each stands after all that it depends on; otherwise it changes nothing and says
how many operators no cycle leads to. The one thing to keep away from is an operator that names an
output twice for which another was waiting already: the other is then told twice for one slot, goes
before its turn, and can cover up a cycle (`Draft.sort_covers_cycle`).
-/

namespace TensorDataflow

namespace Graph

section Sorting

variable {ids : IdSupply} {g : Graph} (hwired : Wired ids g) (hclosed : Closed g)
  (hsingle : g.SingleProducer)
  (hdoubles : ∀ a ∈ g.ops, ∀ c ∈ g.ops, ¬ a.Doubles c)

include hwired hclosed hsingle hdoubles

theorem mem_informed_iff_feeds {a c : Operator} (ha : a ∈ g.ops) (hc : c ∈ g.ops) :
    c.id ∈ g.informed a.id ↔ g.Feeds a c := by
  rw [← List.count_pos_iff, count_informed hwired.opIds ha hc,
    evenTo_of_not_doubles hwired hclosed hsingle hc (fun a ha => hdoubles a ha c hc) a ha,
    List.countP_pos_iff]
  simp only [decide_eq_true_eq, sourceOf_eq_some_iff_mem_outputs hwired hclosed hsingle ha]
  constructor
  · rintro ⟨id, hin, hout⟩
    exact ⟨ha, hc, id, hout, hin⟩
  · rintro ⟨_, _, id, hout, hin⟩
    exact ⟨id, hin, hout⟩

theorem selfTold : g.SelfTold (g.ops.map Operator.id) :=
  selfTold_of_even hwired.opIds (fun _ hc => hc)
    (fun c hc => evenTo_of_not_doubles hwired hclosed hsingle hc fun a ha => hdoubles a ha c hc)
    fun _ _ _ _ _ ha _ => ha

/-- The takings, as operators: each once, after all that it depends on, and exactly those that no
cycle leads to. -/
theorem exists_order :
    ∃ order : List Operator,
    (g.takingOrder? fun _ queue => queue) = some (order.map Operator.id) ∧ order.Nodup ∧
      (∀ c, c ∈ order ↔ c ∈ g.ops ∧ ¬ g.Tangled c) ∧ ∀ front c rest, order = front ++ c :: rest →
      ∀ a, g.Feeds a c → a ∈ front := by
  have hself := selfTold hwired hclosed hsingle hdoubles
  obtain ⟨numbers, hnumbers, hnodup, hsubset, htold, henter⟩ :=
    exists_takingOrder hwired.opIds hself
  have hmap := g.map_id_filterMap_operator? numbers hsubset
  have hmem : ∀ c ∈ numbers.filterMap g.operator?, c ∈ g.ops := by
    intro c hc
    obtain ⟨x, _, hx⟩ := List.mem_filterMap.1 hc
    exact mem_of_operator? hx
  have hnumber : ∀ c ∈ g.ops, c.id ∈ numbers → c ∈ numbers.filterMap g.operator? := fun c hc hx =>
    List.mem_filterMap.2 ⟨c.id, hx, operator?_of_mem hwired.opIds hc⟩
  have hfront : ∀ front c rest, numbers.filterMap g.operator? = front ++ c :: rest →
      ∀ a, g.Feeds a c → a ∈ front := by
    intro front c rest hsplit a hfeeds
    have hc := hmem c (hsplit ▸ List.mem_append_right _ List.mem_cons_self)
    rw [← eraseDups_of_nodup hnodup] at hsplit
    exact mem_front_of_arranged hwired.opIds hnumbers hself hsplit (List.mem_map_of_mem hc) hfeeds.1
      ((mem_informed_iff_feeds hwired hclosed hsingle hdoubles hfeeds.1 hc).2 hfeeds)
  have hall : ∀ c ∈ g.ops, (∀ a, g.Feeds a c → a ∈ numbers.filterMap g.operator?) →
      c ∈ numbers.filterMap g.operator? := by
    intro c hc hfeeders
    refine hnumber c hc (henter c.id (List.mem_map_of_mem hc) fun n htells => ?_)
    obtain ⟨a, ha, rfl⟩ := List.mem_map.1 (teller_mem htells)
    exact hmap ▸ List.mem_map_of_mem
      (hfeeders a ((mem_informed_iff_feeds hwired hclosed hsingle hdoubles ha hc).1 htells))
  refine ⟨numbers.filterMap g.operator?, by rw [hmap]; exact hnumbers, ?_, fun c => ?_, hfront⟩
  · exact (hmap.symm ▸ hnodup).of_map _
  · constructor
    · exact fun hc =>
        ⟨hmem c hc, (mem_order_iff hfront hall (fun _ _ hfeeds => hfeeds.1) (hmem c hc)).1 hc⟩
    · exact fun hc => (mem_order_iff hfront hall (fun _ _ hfeeds => hfeeds.1) hc.1).2 hc.2

open scoped Classical in
/-- A sort takes all operators that no cycle leads to; with these alone it fails, and with all of
them it succeeds and reaches every one. -/
theorem topoSort_of_not_doubles (hunsorted : g.sorted = false) :
    (g.Acyclic ∧ ∃ ops, g.topoSort = .ok ({ g with ops, sorted := true }, []) ∧ ops.Perm g.ops ∧
        ∀ front c rest, ops = front ++ c :: rest → ∀ a, g.Feeds a c → a ∈ front) ∨
      ¬ g.Acyclic ∧
      g.topoSort = .error (.cycle (g.ops.filter fun op => ¬ g.Tangled op).length g.ops.length) := by
  obtain ⟨order, horder, hnodup, hmem, hfront⟩ := exists_order hwired hclosed hsingle hdoubles
  have hops : g.ops.Nodup := hwired.opIds.of_map _
  have hfree : order.Perm (g.ops.filter fun op => ¬ g.Tangled op) := by
    rw [List.perm_ext_iff_of_nodup hnodup (hops.filter _)]
    simp [hmem]
  have hnumbers : (order.map Operator.id).Nodup :=
    (List.nodup_map_iff_inj_on hnodup).2 fun a ha b hb =>
      List.inj_on_of_nodup_map hwired.opIds ((hmem a).1 ha).1 ((hmem b).1 hb).1
  rw [topoSort_eq, if_neg (by simp [hunsorted]), horder, arrange, List.length_map, hfree.length_eq]
  by_cases hacyclic : g.Acyclic
  · have hall : (g.ops.filter fun op => ¬ g.Tangled op) = g.ops :=
      List.filter_eq_self.2 fun op hop => by simpa using acyclic_iff.1 hacyclic op hop
    rw [hall] at hfree
    refine .inl ⟨hacyclic, order, ?_, hfree, hfront⟩
    have hback : (order.map Operator.id).filterMap g.operator? = order := by
      rw [List.filterMap_map]
      refine (List.filterMap_congr fun c hc => ?_).trans List.filterMap_some
      exact operator?_of_mem hwired.opIds ((hmem c).1 hc).1
    have hlost : (g.ops.filter fun op => !(order.map Operator.id).contains op.id) = [] := by
      refine List.filter_eq_nil_iff.2 fun op hop => ?_
      simpa using ⟨op, hfree.mem_iff.2 hop, rfl⟩
    rw [hall, if_neg (Nat.lt_irrefl _), eraseDups_of_nodup hnumbers, hback, hlost]
  · refine .inr ⟨hacyclic, ?_⟩
    rw [acyclic_iff] at hacyclic
    push Not at hacyclic
    obtain ⟨op, hop, htangled⟩ := hacyclic
    have hshort : (g.ops.filter fun op => ¬ g.Tangled op).length < g.ops.length := by
      refine List.length_filter_lt_length_iff_exists.2 ⟨op, hop, ?_⟩
      simpa using htangled
    rw [if_pos hshort]

end Sorting

end Graph

namespace Draft

open scoped Classical in
/-- Sorting a built graph in which no tensor has two producers, and none is named twice by a
producer that comes after its consumer. -/
theorem sort_built (steps : List BuildStep) (m : Machine)
    (hsingle : (built steps).graph.SingleProducer)
    (hdoubles : ∀ a ∈ (built steps).graph.ops, ∀ c ∈ (built steps).graph.ops, ¬ a.Doubles c) :
    ((built steps).graph.Acyclic ∧ ∃ ops, Graph.sort (m, (built steps).graph) =
        (.ok (), m, { (built steps).graph with ops, sorted := true }) ∧
        ops.Perm (built steps).graph.ops ∧ ∀ front c rest, ops = front ++ c :: rest →
        ∀ a, (built steps).graph.Feeds a c → a ∈ front) ∨
      ¬ (built steps).graph.Acyclic ∧
        Graph.sort (m, (built steps).graph) =
          (.error (.cycle ((built steps).graph.ops.filter fun op =>
              ¬ (built steps).graph.Tangled op).length (built steps).graph.ops.length), m,
            (built steps).graph) := by
  rcases Graph.topoSort_of_not_doubles (built_wired steps) (built_closed steps) hsingle hdoubles
      (built_unsorted steps) with
    ⟨hacyclic, ops, hsort, hperm, hfront⟩ | ⟨hcyclic, hsort⟩
  · refine .inl ⟨hacyclic, ops, ?_, hperm, hfront⟩
    simp only [Graph.sort, Act.bind_apply, Act.get_apply, Act.ofExcept_apply, hsort]
    rfl
  · refine .inr ⟨hcyclic, ?_⟩
    simp only [Graph.sort, Act.bind_apply, Act.get_apply, Act.ofExcept_apply, hsort]

/-- Some tensors of four elements. -/
def vectors (count : Nat) : List BuildStep := List.replicate count (.tensor ⟨[.const 4]⟩ none .f32)

/-- A consumer of one tensor in both slots, its producer after it, and an operator that feeds
itself. -/
def backwards : List BuildStep :=
  vectors 4 ++ [.opWithOutputs (.pointwise .add) [2, 2] [3],
      .opWithOutputs (.pointwise .add) [1, 1] [2], .opWithOutputs (.pointwise .mul) [4, 1] [4]]

open scoped Classical in
theorem sort_backwards :
    (built backwards).graph.SingleProducer ∧
    (∀ a ∈ (built backwards).graph.ops, ∀ c ∈ (built backwards).graph.ops, ¬ a.Doubles c) ∧
      ¬ (built backwards).graph.Acyclic ∧ ((built backwards).graph.ops.filter fun op =>
        ¬ (built backwards).graph.Tangled op).length = 2 := by
  have hsingle : (built backwards).graph.SingleProducer := by decide +kernel
  have hdoubles : ∀ a ∈ (built backwards).graph.ops, ∀ c ∈ (built backwards).graph.ops,
      ¬ a.Doubles c := by
    decide +kernel
  have hfails : (Graph.sort (⟨[], 0⟩, (built backwards).graph)).1 = .error (.cycle 2 3) := by
    decide +kernel
  rcases sort_built backwards ⟨[], 0⟩ hsingle hdoubles with ⟨_, ops, hsort, _⟩ | ⟨hcyclic, hsort⟩
  · rw [hsort] at hfails
    cases hfails
  · rw [hsort, Except.error.injEq, GraphError.cycle.injEq] at hfails
    exact ⟨hsingle, hdoubles, hcyclic, hfails.1⟩

/-- An operator that names its output twice after another has taken it, and beside them one that
feeds itself. -/
def doubled : List BuildStep :=
  vectors 4 ++ [.opWithOutputs (.pointwise .add) [2, 1] [3],
      .opWithOutputs (.declared ⟨.add, 1, 3, 2, .add, none, none⟩) [1] [2, 2],
    .opWithOutputs (.pointwise .mul) [4, 1] [4]]

/-- The output named twice is told twice for, which makes up for the operator that the sort never
takes: it succeeds and loses it. -/
theorem sort_covers_cycle :
    (built doubled).graph.SingleProducer ∧ ¬ (built doubled).graph.Acyclic ∧
    (built doubled).graph.ops.map Operator.id = [1, 2, 3] ∧
      (Graph.sort (⟨[], 0⟩, (built doubled).graph)).1 = .ok () ∧
      (Graph.sort (⟨[], 0⟩, (built doubled).graph)).2.2.ops.map Operator.id = [2, 1] := by
  refine ⟨by decide +kernel,
    fun hacyclic => ?_, by decide +kernel, by decide +kernel, by decide +kernel⟩
  have hself : ∃ op ∈ (built doubled).graph.ops, ∃ id ∈ op.outputs, id ∈ op.inputs := by
    decide +kernel
  obtain ⟨op, hop, hfeeds⟩ := hself
  exact hacyclic op (.single ⟨hop, hop, hfeeds⟩)

end Draft

end TensorDataflow
