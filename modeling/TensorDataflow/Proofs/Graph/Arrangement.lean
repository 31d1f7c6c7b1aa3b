import Mathlib.Data.Set.Finite.List
import Mathlib.Logic.Relation
import Mathlib.Order.WellFounded
import TensorDataflow.Proofs.Graph.Takings
import TensorDataflow.Proofs.Graph.Wiring
/-!
# What sorting makes of even links

Links are even towards an operator when every operator of the graph tells it exactly as often as it
fills one of its slots. `Graph.even_arranged` is about some operators towards which all links are
even and whose inputs come from among them: whatever else is sorted with them, each stands after all
that it depends on. Where the links of a whole graph are even, the sort ends, and it leaves out
exactly the operators that a cycle leads to.
-/

namespace TensorDataflow

namespace Graph

/-- Every operator of the graph tells this one once for each of its slots that it fills. -/
def EvenTo (g : Graph) (c : Operator) : Prop :=
  ∀ a ∈ g.ops, a.successors.count c.id = c.inputs.countP fun id => g.sourceOf id = some a.id

theorem countP_any_cons (xs : List TensorId) (f : TensorId → Option OpId) {n : OpId}
    {places : List OpId} (hn : n ∉ places) :
    (xs.countP fun x => (f x).any fun k => k ∈ n :: places) =
      (xs.countP fun x => f x = some n) + xs.countP fun x => (f x).any fun k => k ∈ places := by
  induction xs with
  | nil => rfl
  | cons x xs ih =>
      have hsplit : (if (f x).any (fun k => decide (k ∈ n :: places)) then 1 else 0) =
          (if decide (f x = some n) = true then 1 else 0) +
            if (f x).any (fun k => decide (k ∈ places)) then 1 else 0 := by
        cases hx : f x with
        | none => simp
        | some k =>
            by_cases hk : k = n
            · subst hk
              simp [hn]
            · simp [hk]
      simp only [List.countP_cons, hsplit, ih]
      omega

/-- Slots that hold something from one of several distinct places, counted place by place. -/
theorem sum_countP_eq (xs : List TensorId) (f : TensorId → Option OpId) {places : List OpId}
    (hnodup : places.Nodup) :
    (places.map fun n => xs.countP fun x => f x = some n).sum =
      xs.countP fun x => (f x).any fun n => n ∈ places := by
  induction places with
  | nil => simp
  | cons n places ih =>
      rw [List.nodup_cons] at hnodup
      rw [List.map_cons, List.sum_cons, ih hnodup.2, countP_any_cons xs f hnodup.1]

theorem inDegree_eq (g : Graph) (op : Operator) : g.inDegree op = op.inputs.countP fun id =>
    (g.sourceOf id).any fun n => n ∈ g.ops.map Operator.id := by
  rw [inDegree]
  congr 1
  funext id
  rw [sourceOf]
  congr 1
  funext n
  rw [Bool.eq_iff_iff, operator?_isSome_iff, decide_eq_true_eq]

section Numbered

variable {g : Graph} (hids : (g.ops.map Operator.id).Nodup)

include hids

theorem count_informed {a c : Operator} (ha : a ∈ g.ops) (hc : c ∈ g.ops) :
    (g.informed a.id).count c.id = a.successors.count c.id := by
  rw [informed, operator?_of_mem hids ha, Option.elim_some, List.count_filter]
  exact operator?_isSome_iff.2 (List.mem_map_of_mem hc)

theorem EvenTo.tellings_eq {c : Operator} (h : g.EvenTo c) (hc : c ∈ g.ops) :
    g.tellings (g.ops.map Operator.id) c.id = g.waiting.count c.id := by
  rw [count_waiting, operator?_of_mem hids hc, Option.elim_some, inDegree_eq,
    ← sum_countP_eq c.inputs g.sourceOf hids, tellings_eq_sum, List.map_map, List.map_map]
  congr 1
  refine List.map_congr_left fun a ha => ?_
  exact (count_informed hids ha hc).trans (h a ha)

/-- Operators towards which links are even, and that depend on no others, tell themselves. -/
theorem selfTold_of_even {part : List Operator} (hpart : ∀ c ∈ part, c ∈ g.ops)
    (heven : ∀ c ∈ part, g.EvenTo c)
    (hclosed : ∀ c ∈ part, ∀ id ∈ c.inputs, ∀ a ∈ g.ops, g.sourceOf id = some a.id → a ∈ part) :
    g.SelfTold (part.map Operator.id) where
  subset x hx := by
    obtain ⟨c, hc, rfl⟩ := List.mem_map.1 hx
    exact List.mem_map_of_mem (hpart c hc)
  closed x hx n htells := by
    obtain ⟨c, hc, rfl⟩ := List.mem_map.1 hx
    obtain ⟨a, ha, rfl⟩ := List.mem_map.1 (teller_mem htells)
    have hcount := List.count_pos_iff.2 htells
    rw [count_informed hids ha (hpart c hc), heven c hc a ha] at hcount
    obtain ⟨id, hin, hsource⟩ := List.countP_pos_iff.1 hcount
    exact List.mem_map_of_mem (hclosed c hc id hin a ha (by simpa using hsource))
  even x hx := by
    obtain ⟨c, hc, rfl⟩ := List.mem_map.1 hx
    exact (heven c hc).tellings_eq hids (hpart c hc)

theorem mem_informed_of_source {a c : Operator} (ha : a ∈ g.ops) (hc : c ∈ g.ops)
    (heven : g.EvenTo c) {id : TensorId} (hin : id ∈ c.inputs)
    (hsource : g.sourceOf id = some a.id) : c.id ∈ g.informed a.id := by
  rw [← List.count_pos_iff, count_informed hids ha hc, heven a ha]
  exact List.countP_pos_iff.2 ⟨id, hin, by simpa using hsource⟩

end Numbered

/-! ### The order of first takings -/

/-- Before its first standing in a list a member has only those before it that stand before it when
repetitions are left out. -/
theorem eraseDups_eq_append_cons {xs front rest : List OpId} {x : OpId}
    (h : xs.eraseDups = front ++ x :: rest) :
    ∃ before after, xs = before ++ x :: after ∧ ∀ a ∈ before, a ∈ front := by
  induction xs using List.reverseRecOn generalizing rest with
  | nil => simp at h
  | append_singleton xs y ih =>
      rw [List.eraseDups_append] at h
      rcases append_eq_append_cons h with ⟨rest', hold⟩ | ⟨mid, rfl, hnew⟩
      · obtain ⟨before, after, rfl, hbefore⟩ := ih hold
        exact ⟨before, after ++ [y], by simp, hbefore⟩
      · have hmem : x ∈ ([y].removeAll xs).eraseDups :=
          hnew ▸ List.mem_append_right _ List.mem_cons_self
        have hxy : x = y := by
          have := (List.mem_filter.1 (List.mem_eraseDups.1 hmem)).1
          simpa using this
        exact ⟨xs, [], by rw [hxy], fun a ha => List.mem_append_left _ (List.mem_eraseDups.2 ha)⟩

theorem nodup_eraseDups (xs : List OpId) : xs.eraseDups.Nodup := by
  induction xs using List.reverseRecOn with
  | nil => simp
  | append_singleton xs y ih =>
      rw [List.eraseDups_append]
      by_cases hy : y ∈ xs
      · simpa [List.removeAll, hy] using ih
      · have hkeep : [y].removeAll xs = [y] := by simp [List.removeAll, hy]
        rw [hkeep, List.eraseDups_cons, List.nodup_append]
        refine ⟨ih, by simp, fun a ha b hb => ?_⟩
        rintro rfl
        simp only [List.filter_nil, List.eraseDups_nil, List.mem_singleton] at hb
        exact hy (hb ▸ List.mem_eraseDups.1 ha)

theorem eraseDups_of_nodup {xs : List OpId} (h : xs.Nodup) : xs.eraseDups = xs := by
  induction xs with
  | nil => rfl
  | cons x xs ih =>
      rw [List.nodup_cons] at h
      have hfilter : xs.filter (fun y => !(y == x)) = xs := List.filter_eq_self.2 fun y hy => by
        have hne : y ≠ x := fun heq => h.1 (heq ▸ hy)
        simpa using hne
      rw [List.eraseDups_cons, hfilter, ih h.2]

theorem map_id_filterMap_operator? (g : Graph) (ids : List OpId)
    (h : ∀ x ∈ ids, x ∈ g.ops.map Operator.id) :
    (ids.filterMap g.operator?).map Operator.id = ids := by
  induction ids with
  | nil => rfl
  | cons x ids ih =>
      obtain ⟨op, hop⟩ :=
        Option.isSome_iff_exists.1 (operator?_isSome_iff.2 (h x List.mem_cons_self))
      rw [List.filterMap_cons_some hop, List.map_cons,
        ih fun y hy => h y (List.mem_cons_of_mem _ hy), id_of_operator? hop]

theorem told_of_takingOrder? {g : Graph} (hids : (g.ops.map Operator.id).Nodup) {order : List OpId}
    (h : (g.takingOrder? fun _ queue => queue) = some order) :
    g.Told order ∧ ∀ x ∈ order, x ∈ g.ops.map Operator.id := by
  rw [takingOrder?_eq] at h
  split at h
  · next hempty =>
      cases h
      have htold := (Sound.iterate (count_idle_le hids) g.ops.length).told
      rw [hempty, List.append_nil] at htold
      exact ⟨htold, fun x hx => g.stage_subset g.ops.length x (List.mem_append_left _ hx)⟩
  · cases h

/-- In the order of first takings each of some operators that tell themselves stands after all that
tell it. -/
theorem mem_front_of_arranged {g : Graph} (hids : (g.ops.map Operator.id).Nodup) {order : List OpId}
    (horder : (g.takingOrder? fun _ queue => queue) = some order) {part : List OpId}
    (hpart : g.SelfTold part)
    {front rest : List Operator} {a c : Operator}
    (hsplit : order.eraseDups.filterMap g.operator? = front ++ c :: rest)
    (hc : c.id ∈ part) (ha : a ∈ g.ops) (htells : c.id ∈ g.informed a.id) : a ∈ front := by
  obtain ⟨htold, hsubset⟩ := told_of_takingOrder? hids horder
  have hnumbers : order.eraseDups = front.map Operator.id ++ c.id :: rest.map Operator.id := by
    rw [← g.map_id_filterMap_operator? order.eraseDups fun x hx =>
      hsubset x (List.mem_eraseDups.1 hx), hsplit]
    simp
  obtain ⟨before, after, hbefore, hsub⟩ := eraseDups_eq_append_cons hnumbers
  obtain ⟨b, hb, hid⟩ := List.mem_map.1 (hsub _ (hpart.mem_front htold hbefore hc htells))
  have hmem : b ∈ order.eraseDups.filterMap g.operator? := hsplit ▸ List.mem_append_left _ hb
  obtain ⟨x, _, hx⟩ := List.mem_filterMap.1 hmem
  exact List.inj_on_of_nodup_map hids (mem_of_operator? hx) ha hid ▸ hb

/-- Sorting gives the operators in the order of first takings, unless they count as sorted. -/
theorem topoSort_eq_ok {g g' : Graph} {lost : List Operator} (h : g.topoSort = .ok (g', lost)) :
    (g.sorted = true ∧ g' = g) ∨
      g.sorted = false ∧ ∃ order, (g.takingOrder? fun _ queue => queue) = some order ∧
      g.ops.length ≤ order.length ∧
        g' = { g with ops := order.eraseDups.filterMap g.operator?, sorted := true } := by
  rw [topoSort_eq] at h
  cases hsorted : g.sorted with
  | true =>
      rw [hsorted, if_pos rfl] at h
      cases h
      exact .inl ⟨rfl, rfl⟩
  | false =>
      rw [hsorted, if_neg Bool.false_ne_true] at h
      cases horder : g.takingOrder? fun _ queue => queue with
      | none =>
          rw [horder] at h
          cases h
      | some order =>
          rw [horder, arrange] at h
          split at h
          · cases h
          · next hlength =>
              cases h
              exact .inr ⟨rfl, order, rfl, Nat.le_of_not_lt hlength, rfl⟩

/-! ### Cycles -/

/-- Some output of the one operator is an input of the other. -/
def Feeds (g : Graph) (a c : Operator) : Prop :=
  a ∈ g.ops ∧ c ∈ g.ops ∧ ∃ id ∈ a.outputs, id ∈ c.inputs

def Acyclic (g : Graph) : Prop := ∀ op, ¬ Relation.TransGen g.Feeds op op

/-- A cycle leads to the operator. -/
def Tangled (g : Graph) (c : Operator) : Prop :=
  ∃ b, Relation.TransGen g.Feeds b b ∧ Relation.ReflTransGen g.Feeds b c

theorem acyclic_iff {g : Graph} : g.Acyclic ↔ ∀ op ∈ g.ops, ¬ g.Tangled op := by
  constructor
  · rintro hacyclic op _ ⟨b, hcycle, _⟩
    exact hacyclic b hcycle
  · intro hfree op hcycle
    obtain ⟨b, hfeeds, _⟩ := Relation.TransGen.head'_iff.1 hcycle
    exact hfree op hfeeds.1 ⟨op, hcycle, .refl⟩

section Untangled

variable {α : Type} {r : α → α → Prop} {ops order : List α}

/-- Whatever leads to a member stands before it, if this holds for what leads to it directly. -/
theorem mem_front_of_transGen
    (hfront : ∀ front x rest, order = front ++ x :: rest → ∀ a, r a x → a ∈ front)
    {b c : α} (h : Relation.TransGen r b c) {front rest : List α}
    (hsplit : order = front ++ c :: rest) : b ∈ front := by
  induction h generalizing front rest with
  | single hbc => exact hfront front _ rest hsplit b hbc
  | @tail a c _ hac ih =>
      obtain ⟨before, after, rfl⟩ := List.append_of_mem (hfront front c rest hsplit a hac)
      have hb : b ∈ before := @ih before (after ++ c :: rest) (by rw [hsplit]; simp)
      exact List.mem_append_left _ hb

/-- An order that every operator enters once all that leads to it directly is in it has the
operators that no cycle leads to. -/
theorem mem_order_of_untangled (henter : ∀ x ∈ ops, (∀ a, r a x → a ∈ order) → x ∈ order)
    (hfield : ∀ a x, r a x → a ∈ ops) {c : α} (hc : c ∈ ops)
    (hfree : ¬ ∃ b, Relation.TransGen r b b ∧ Relation.ReflTransGen r b c) : c ∈ order := by
  -- what leads to `c` is finite and has no cycle, so it can be entered from its beginnings on
  let up : { a // a ∈ ops ∧ Relation.ReflTransGen r a c } →
      { a // a ∈ ops ∧ Relation.ReflTransGen r a c } → Prop := fun a x => Relation.TransGen r a x
  have hfinite : Finite { a // a ∈ ops ∧ Relation.ReflTransGen r a c } :=
    ((List.finite_toSet ops).subset fun a (ha : a ∈ ops ∧ _) => ha.1).to_subtype
  have htrans : IsTrans _ up := ⟨fun _ _ _ => Relation.TransGen.trans⟩
  have hirrefl : Std.Irrefl up := ⟨fun a hcycle => hfree ⟨a, hcycle, a.2.2⟩⟩
  have hall : ∀ x : { a // a ∈ ops ∧ Relation.ReflTransGen r a c }, x.1 ∈ order := by
    intro x
    induction x using (Finite.wellFounded_of_trans_of_irrefl up).induction with
    | h x ih =>
        refine henter x.1 x.2.1 fun a hax => ?_
        exact ih ⟨a, hfield a x.1 hax, .head hax x.2.2⟩ (.single hax)
  exact hall ⟨c, hc, .refl⟩

/-- If every operator enters it then and not before, it has no others. -/
theorem mem_order_iff (hfront : ∀ front x rest, order = front ++ x :: rest → ∀ a, r a x → a ∈ front)
    (henter : ∀ x ∈ ops, (∀ a, r a x → a ∈ order) → x ∈ order) (hfield : ∀ a x, r a x → a ∈ ops)
    {c : α} (hc : c ∈ ops) :
    c ∈ order ↔ ¬ ∃ b, Relation.TransGen r b b ∧ Relation.ReflTransGen r b c := by
  refine ⟨?_, mem_order_of_untangled henter hfield hc⟩
  rintro hmem ⟨b, hcycle, hreach⟩
  have hb : b ∈ order := by
    rcases Relation.reflTransGen_iff_eq_or_transGen.1 hreach with rfl | htrans
    · exact hmem
    · obtain ⟨front, rest, hsplit⟩ := List.append_of_mem hmem
      exact hsplit ▸ List.mem_append_left _ (mem_front_of_transGen hfront htrans hsplit)
  obtain ⟨front, rest, hsplit, hfirst⟩ := List.eq_append_cons_of_mem hb
  exact hfirst (mem_front_of_transGen hfront hcycle hsplit)

end Untangled

end Graph

end TensorDataflow
