import Mathlib.Algebra.Order.BigOperators.Group.List
import Mathlib.Algebra.Order.Ring.Nat
import Mathlib.Data.List.Nodup
import TensorDataflow.Proofs.Graph.Drafting
/-!
# Links that agree

How often an operator has to be told is read off the producers of its input slots, how often it is
told off the successors of those producers. `Graph.Wired` says that the two accounts agree as far as
they can: the consumers of a tensor are those whose slots hold it, a producer names each consumer at
least once for each slot that it fills, and no more often unless it names an output twice that the
consumer was already waiting for. Connecting a new operator keeps this, and so does taking tensors
or operators away.
-/

namespace TensorDataflow

/-- An operator names an output twice that another, there before it, takes. -/
def Operator.Doubles (a c : Operator) : Prop :=
  c.id ≤ a.id ∧ ∃ id ∈ c.inputs, 1 < a.outputs.count id

instance (a c : Operator) : Decidable (a.Doubles c) :=
  inferInstanceAs (Decidable (c.id ≤ a.id ∧ ∃ id ∈ c.inputs, 1 < a.outputs.count id))

namespace Graph

/-- The links of a graph whose numbers have all been given out. -/
structure Wired (ids : IdSupply) (g : Graph) : Prop where
  tensorIds : (g.tensors.map Tensor.id).Nodup
  tensorsKnown : ∀ t ∈ g.tensors, t.id < ids.tensor
  opIds : (g.ops.map Operator.id).Nodup
  opsKnown : ∀ op ∈ g.ops, op.id < ids.operator
  sourcesKnown : ∀ t ∈ g.tensors, ∀ id, t.source = some id → id < ids.operator
  targetsKnown : ∀ t ∈ g.tensors, ∀ id ∈ t.targets, id < ids.operator
  successorsKnown : ∀ op ∈ g.ops, ∀ id ∈ op.successors, id < ids.operator
  inputsKnown : ∀ op ∈ g.ops, ∀ id ∈ op.inputs, id < ids.tensor
  targets : ∀ c ∈ g.ops, ∀ t ∈ g.tensors, t.targets.count c.id = c.inputs.count t.id
  source : ∀ a ∈ g.ops, ∀ t ∈ g.tensors, t.source = some a.id → t.id ∈ a.outputs
  answered : ∀ a ∈ g.ops, ∀ c ∈ g.ops, c.id ∈ a.successors → a.id ≠ c.id → a.id ∈ c.predecessors
  enough : ∀ a ∈ g.ops, ∀ c ∈ g.ops,
    (c.inputs.countP fun id => g.sourceOf id = some a.id) ≤ a.successors.count c.id
  notTooMany : ∀ a ∈ g.ops, ∀ c ∈ g.ops, ¬ a.Doubles c →
    a.successors.count c.id ≤ c.inputs.countP fun id => id ∈ a.outputs

theorem tensor?_of_mem {g : Graph} (hids : (g.tensors.map Tensor.id).Nodup) {t : Tensor}
    (ht : t ∈ g.tensors) : g.tensor? t.id = some t := by
  obtain ⟨found, hfound⟩ :=
    Option.isSome_iff_exists.1 (tensor?_isSome_iff.2 (List.mem_map_of_mem ht))
  rw [hfound, Option.some.injEq]
  exact List.inj_on_of_nodup_map hids (mem_of_tensor? hfound) ht (id_of_tensor? hfound)

theorem sourceOf_eq_some_iff {g : Graph} (hids : (g.tensors.map Tensor.id).Nodup)
    {id : TensorId} {op : OpId} :
    g.sourceOf id = some op ↔ ∃ t ∈ g.tensors, t.id = id ∧ t.source = some op := by
  rw [sourceOf, Option.bind_eq_some_iff]
  constructor
  · rintro ⟨t, ht, hsource⟩
    exact ⟨t, mem_of_tensor? ht, id_of_tensor? ht, hsource⟩
  · rintro ⟨t, ht, rfl, hsource⟩
    exact ⟨t, tensor?_of_mem hids ht, hsource⟩

namespace Wired

theorem empty (ids : IdSupply) : Wired ids .empty := by
  constructor <;> simp [Graph.empty]

theorem moreIds {ids ids' : IdSupply} {g : Graph} (h : Wired ids g)
    (htensor : ids.tensor ≤ ids'.tensor) (hoperator : ids.operator ≤ ids'.operator) :
    Wired ids' g where
  tensorIds := h.tensorIds
  tensorsKnown t ht := Nat.lt_of_lt_of_le (h.tensorsKnown t ht) htensor
  opIds := h.opIds
  opsKnown op hop := Nat.lt_of_lt_of_le (h.opsKnown op hop) hoperator
  sourcesKnown t ht id hid := Nat.lt_of_lt_of_le (h.sourcesKnown t ht id hid) hoperator
  targetsKnown t ht id hid := Nat.lt_of_lt_of_le (h.targetsKnown t ht id hid) hoperator
  successorsKnown op hop id hid := Nat.lt_of_lt_of_le (h.successorsKnown op hop id hid) hoperator
  inputsKnown op hop id hid := Nat.lt_of_lt_of_le (h.inputsKnown op hop id hid) htensor
  targets := h.targets
  source := h.source
  answered := h.answered
  enough := h.enough
  notTooMany := h.notTooMany

/-- Less of a graph is still wired; layouts and buffers do not matter. -/
theorem restrict {ids : IdSupply} {g g' : Graph} (h : Wired ids g)
    (htensorIds : (g'.tensors.map Tensor.id).Nodup) (htensors : ∀ t ∈ g'.tensors, ∃ u ∈ g.tensors,
      u.id = t.id ∧ u.source = t.source ∧ u.targets = t.targets)
    (hopIds : (g'.ops.map Operator.id).Nodup) (hops : ∀ op ∈ g'.ops, op ∈ g.ops) :
    Wired ids g' where
  tensorIds := htensorIds
  tensorsKnown t ht := by
    obtain ⟨u, hu, hid, _⟩ := htensors t ht
    exact hid ▸ h.tensorsKnown u hu
  opIds := hopIds
  opsKnown op hop := h.opsKnown op (hops op hop)
  sourcesKnown t ht := by
    obtain ⟨u, hu, _, hsource, _⟩ := htensors t ht
    exact hsource ▸ h.sourcesKnown u hu
  targetsKnown t ht := by
    obtain ⟨u, hu, _, _, htargets⟩ := htensors t ht
    exact htargets ▸ h.targetsKnown u hu
  successorsKnown op hop := h.successorsKnown op (hops op hop)
  inputsKnown op hop := h.inputsKnown op (hops op hop)
  targets c hc t ht := by
    obtain ⟨u, hu, hid, _, htargets⟩ := htensors t ht
    exact htargets ▸ hid ▸ h.targets c (hops c hc) u hu
  source a ha t ht := by
    obtain ⟨u, hu, hid, hsource, _⟩ := htensors t ht
    exact hsource ▸ hid ▸ h.source a (hops a ha) u hu
  answered a ha c hc := h.answered a (hops a ha) c (hops c hc)
  enough a ha c hc := by
    refine Nat.le_trans (List.countP_mono_left fun id _ hid => ?_)
      (h.enough a (hops a ha) c (hops c hc))
    simp only [decide_eq_true_eq] at hid ⊢
    obtain ⟨t, ht, rfl, hsource⟩ := (sourceOf_eq_some_iff htensorIds).1 hid
    obtain ⟨u, hu, hid, hsame, _⟩ := htensors t ht
    exact (sourceOf_eq_some_iff h.tensorIds).2 ⟨u, hu, hid, hsame.trans hsource⟩
  notTooMany a ha c hc := h.notTooMany a (hops a ha) c (hops c hc)

theorem reorder {ids : IdSupply} {g : Graph} (h : Wired ids g) {tensors : List Tensor}
    (hperm : tensors.Perm g.tensors) : Wired ids { g with tensors } :=
  h.restrict ((hperm.map Tensor.id).nodup_iff.2 h.tensorIds)
    (fun t ht => ⟨t, hperm.mem_iff.1 ht, rfl, rfl, rfl⟩) h.opIds fun _ hop => hop

theorem tensor {ids : IdSupply} {g : Graph} (h : Wired ids g) {t : Tensor} (hid : t.id = ids.tensor)
    (hsource : t.source = none) (htargets : t.targets = []) :
    Wired { ids with tensor := ids.tensor + 1 } { g with tensors := g.tensors ++ [t] } := by
  have hids : ((g.tensors ++ [t]).map Tensor.id).Nodup := by
    rw [List.map_append, List.map_singleton, List.nodup_append]
    refine ⟨h.tensorIds, List.nodup_singleton _, fun a ha b hb => ?_⟩
    obtain ⟨u, hu, rfl⟩ := List.mem_map.1 ha
    rw [List.mem_singleton] at hb
    rw [hb, hid]
    exact Nat.ne_of_lt (h.tensorsKnown u hu)
  have hcases : ∀ u ∈ g.tensors ++ [t], u ∈ g.tensors ∨ u = t := by simp
  refine ⟨hids, fun u hu => ?_, h.opIds, h.opsKnown, fun u hu => ?_, fun u hu => ?_,
    h.successorsKnown,
    fun op hop id hin => Nat.lt_succ_of_lt (h.inputsKnown op hop id hin), fun c hc u hu => ?_,
    fun a ha u hu => ?_, h.answered, fun a ha c hc => ?_, h.notTooMany⟩
  · rcases hcases u hu with hu | rfl
    · exact Nat.lt_succ_of_lt (h.tensorsKnown u hu)
    · exact hid ▸ Nat.lt_succ_self _
  · rcases hcases u hu with hu | rfl
    · exact h.sourcesKnown u hu
    · simp [hsource]
  · rcases hcases u hu with hu | rfl
    · exact h.targetsKnown u hu
    · simp [htargets]
  · rcases hcases u hu with hu | rfl
    · exact h.targets c hc u hu
    · have hnone : u.id ∉ c.inputs := fun hmem => Nat.lt_irrefl _ (hid ▸ h.inputsKnown c hc _ hmem)
      rw [htargets, List.count_nil, List.count_eq_zero.2 hnone]
  · rcases hcases u hu with hu | rfl
    · exact h.source a ha u hu
    · simp [hsource]
  · refine Nat.le_trans (List.countP_mono_left fun id _ hfrom => ?_) (h.enough a ha c hc)
    simp only [decide_eq_true_eq] at hfrom ⊢
    obtain ⟨u, hu, huid, husource⟩ := (sourceOf_eq_some_iff hids).1 hfrom
    rcases hcases u hu with hu | rfl
    · exact (sourceOf_eq_some_iff h.tensorIds).2 ⟨u, hu, huid, husource⟩
    · rw [hsource] at husource
      cases husource

end Wired

/-! ### Connecting a new operator -/

theorem countP_le_sum {xs : List TensorId} {p : TensorId → Prop} [DecidablePred p]
    {f : TensorId → Nat} (h : ∀ x ∈ xs, p x → 1 ≤ f x) :
    (xs.countP fun x => p x) ≤ (xs.map f).sum := by
  induction xs with
  | nil => simp
  | cons x xs ih =>
      have hrest := ih fun y hy => h y (List.mem_cons_of_mem _ hy)
      rw [List.countP_cons, List.map_cons, List.sum_cons]
      by_cases hx : p x
      · have := h x List.mem_cons_self hx
        simp only [hx, decide_true, if_true]
        omega
      · simp only [hx, decide_false, Bool.false_eq_true, if_false]
        omega

theorem sum_le_countP {xs : List TensorId} {p : TensorId → Prop} [DecidablePred p]
    {f : TensorId → Nat} (h : ∀ x ∈ xs, f x ≤ if p x then 1 else 0) :
    (xs.map f).sum ≤ xs.countP fun x => p x := by
  induction xs with
  | nil => simp
  | cons x xs ih =>
      have hrest := ih fun y hy => h y (List.mem_cons_of_mem _ hy)
      have hhead := h x List.mem_cons_self
      rw [List.countP_cons, List.map_cons, List.sum_cons]
      simp only [decide_eq_true_eq]
      omega

theorem count_eq_sum (xs : List TensorId) (y : TensorId) :
    xs.count y = (xs.map fun x => if x = y then 1 else 0).sum := by
  induction xs with
  | nil => rfl
  | cons x xs ih =>
      rw [List.count_cons, List.map_cons, List.sum_cons, ih]
      simp [Nat.add_comm]

/-- Counting the pairs of equal members of two lists from either side. -/
theorem sum_count_swap (p : TensorId → Prop) [DecidablePred p] (xs ys : List TensorId) :
    (xs.map fun x => if p x then ys.count x else 0).sum =
      (ys.map fun y => if p y then xs.count y else 0).sum := by
  induction ys with
  | nil => simp
  | cons y ys ih =>
      have hsplit : ∀ x, (if p x then (y :: ys).count x else 0) =
          (if p y then if x = y then 1 else 0 else 0) + if p x then ys.count x else 0 := by
        intro x
        by_cases hxy : x = y
        · subst hxy
          by_cases hx : p x <;> simp [hx, Nat.add_comm]
        · simp [hxy, List.count_cons_of_ne (Ne.symm hxy)]
      simp only [hsplit, List.sum_map_add]
      rw [List.map_cons, List.sum_cons, ← ih]
      congr 1
      by_cases hy : p y
      · simp only [hy, if_true]
        exact (count_eq_sum xs y).symm
      · simp [hy]

section Connect

variable {ids : IdSupply} {g : Graph} (h : Wired ids g) (op : Operator) (hid : op.id = ids.operator)

include h hid

theorem id_ne_of_mem {c : Operator} (hc : c ∈ g.ops) : c.id ≠ op.id :=
  fun heq => Nat.lt_irrefl _ (hid ▸ heq ▸ h.opsKnown c hc)

theorem count_targets_consumed {c : Operator} (hc : c ∈ g.ops ∨ c = op) {t : Tensor}
    (ht : t ∈ g.tensors) :
    (consumed op.id op.inputs t).targets.count c.id = c.inputs.count t.id := by
  rw [consumed, List.count_append, List.count_replicate]
  rcases hc with hc | rfl
  · simp [(id_ne_of_mem h op hid hc).symm, h.targets c hc t ht]
  · have hnone : c.id ∉ t.targets := fun hmem => Nat.lt_irrefl _ (hid ▸ h.targetsKnown t ht _ hmem)
    simp [List.count_eq_zero.2 hnone]

/-- How often a new operator has another for a successor: once for each slot of the other and each
time it names what the slot holds. -/
theorem count_followersOf {c : Operator} (hc : c ∈ g.ops ∨ c = op) :
    (g.followersOf op).count c.id =
      (c.inputs.map fun id => if (g.tensor? id).isSome then op.outputs.count id else 0).sum := by
  rw [followersOf, List.count_flatMap, ← sum_count_swap]
  congr 1
  refine List.map_congr_left fun id _ => ?_
  rw [Function.comp_apply, targetsOf, tensor?_withInputs]
  cases ht : g.tensor? id with
  | none => simp
  | some t =>
      have hcount := count_targets_consumed h op hid hc (mem_of_tensor? ht)
      rw [id_of_tensor? ht] at hcount
      simpa using hcount

theorem count_followersOf_le {c : Operator} (hc : c ∈ g.ops ∨ c = op)
    (honce : ∀ id ∈ c.inputs, op.outputs.count id ≤ 1) :
    (g.followersOf op).count c.id ≤ c.inputs.countP fun id => id ∈ op.outputs := by
  rw [count_followersOf h op hid hc]
  refine sum_le_countP fun id hin => ?_
  have hle := honce id hin
  by_cases hout : id ∈ op.outputs
  · simp only [hout, if_true]
    split <;> omega
  · simp [hout, List.count_eq_zero.2 hout]

theorem le_count_followersOf {c : Operator} (hc : c ∈ g.ops ∨ c = op) :
    (c.inputs.countP fun id => (g.tensor? id).isSome ∧ id ∈ op.outputs) ≤
      (g.followersOf op).count c.id := by
  rw [count_followersOf h op hid hc]
  refine countP_le_sum fun id _ hboth => ?_
  rw [if_pos hboth.1]
  exact List.count_pos_iff.2 hboth.2

omit h hid in
theorem tensor?_connect (id : TensorId) : (g.connect op).tensor? id = (g.tensor? id).map fun t =>
    produced op.id op.outputs (consumed op.id op.inputs t) := by
  rw [connect_eq]
  exact find?_map_of_id Tensor.id (fun t => produced op.id op.outputs (consumed op.id op.inputs t))
    (fun _ => rfl) g.tensors id

omit h hid in
theorem source_produced (n : OpId) (slots : List TensorId) (t : Tensor) (id : OpId) :
    (produced n slots t).source = some id ↔
    (t.id ∈ slots ∧ n = id) ∨ (t.id ∉ slots ∧ t.source = some id) := by
  by_cases hout : t.id ∈ slots <;> simp [produced, hout]

omit h hid in
theorem sourceOf_connect (id : TensorId) (n : OpId) :
    (g.connect op).sourceOf id = some n ↔ ((g.tensor? id).isSome ∧ id ∈ op.outputs ∧ op.id = n) ∨
    (id ∉ op.outputs ∧ g.sourceOf id = some n) := by
  rw [sourceOf, sourceOf, tensor?_connect]
  cases ht : g.tensor? id with
  | none => simp
  | some t =>
      rw [Option.map_some, Option.bind_some, source_produced]
      simp [consumed, id_of_tensor? ht]

omit hid h in
/-- The operators after a connection are those before it with more links, and the new one. -/
theorem mem_ops_connect {c : Operator} (hpreds : op.predecessors = []) (hsuccs : op.successors = [])
    (hc : c ∈ (g.connect op).ops) :
    (∃ c₀ ∈ g.ops, c = preceded op.id (g.followersOf op) (g.followed op.id op.inputs c₀)) ∨
      c =
        { op with
          predecessors := op.inputs.filterMap g.sourceOf
          successors := g.followersOf op } := by
  rw [connect_eq] at hc
  rcases List.mem_append.1 hc with hc | hc
  · obtain ⟨c₀, hc₀, rfl⟩ := List.mem_map.1 hc
    exact .inl ⟨c₀, hc₀, rfl⟩
  · rw [List.mem_singleton, hpreds, hsuccs] at hc
    exact .inr hc

theorem count_successors_followed {a : Operator} (ha : a ∈ g.ops) (c : OpId) :
    (g.followed op.id op.inputs a).successors.count c =
      if c = op.id then op.inputs.countP fun id => g.sourceOf id = some a.id
        else a.successors.count c := by
  rw [followed, List.count_append, List.count_replicate]
  by_cases hc : c = op.id
  · have hnone : c ∉ a.successors :=
      fun hmem => Nat.lt_irrefl _ (hid ▸ hc ▸ h.successorsKnown a ha c hmem)
    simp [hc ▸ List.count_eq_zero.2 hnone, hc]
  · have hne : ¬ op.id = c := fun heq => hc heq.symm
    simp [hc, hne]

theorem lt_of_mem_followersOf {c : OpId} (hc : c ∈ g.followersOf op) : c < ids.operator + 1 := by
  obtain ⟨_, _, t, ht, hold | ⟨rfl, _⟩⟩ := mem_followersOf_iff.1 hc
  · exact Nat.lt_succ_of_lt (h.targetsKnown t (mem_of_tensor? ht) c hold)
  · exact hid ▸ Nat.lt_succ_self _

omit h hid in
theorem mem_tensors_connect {t : Tensor} (ht : t ∈ (g.connect op).tensors) :
    ∃ t₀ ∈ g.tensors, t = produced op.id op.outputs (consumed op.id op.inputs t₀) := by
  rw [connect_eq] at ht
  obtain ⟨t₀, ht₀, rfl⟩ := List.mem_map.1 ht
  exact ⟨t₀, ht₀, rfl⟩

theorem sourceOf_connect_self {id : TensorId} (hsource : (g.connect op).sourceOf id = some op.id) :
    (g.tensor? id).isSome ∧ id ∈ op.outputs := by
  rcases (sourceOf_connect op id _).1 hsource with ⟨hthere, hout, _⟩ | ⟨_, hsource⟩
  · exact ⟨hthere, hout⟩
  · obtain ⟨t, ht, _, hsource⟩ := (sourceOf_eq_some_iff h.tensorIds).1 hsource
    exact absurd (h.sourcesKnown t ht _ hsource) (hid ▸ Nat.lt_irrefl _)

section Links

variable (hpreds : op.predecessors = []) (hsuccs : op.successors = [])

include hpreds hsuccs

theorem answered_connect {a c : Operator} (ha : a ∈ (g.connect op).ops)
    (hc : c ∈ (g.connect op).ops) (hsucc : c.id ∈ a.successors) (hne : a.id ≠ c.id) :
    a.id ∈ c.predecessors := by
  rcases mem_ops_connect op hpreds hsuccs ha with ⟨a₀, ha₀, rfl⟩ | rfl
  · have hcount : 0 < (g.followed op.id op.inputs a₀).successors.count c.id :=
      List.count_pos_iff.2 hsucc
    rw [count_successors_followed h op hid ha₀] at hcount
    rcases mem_ops_connect op hpreds hsuccs hc with ⟨c₀, hc₀, rfl⟩ | rfl
    · rw [preceded_id, followed_id, if_neg (id_ne_of_mem h op hid hc₀)] at hcount
      exact List.mem_append_left _ (h.answered a₀ ha₀ c₀ hc₀ (List.count_pos_iff.1 hcount) hne)
    · rw [if_pos rfl] at hcount
      obtain ⟨id, hin, hsource⟩ := List.countP_pos_iff.1 hcount
      rw [preceded_id, followed_id]
      exact List.mem_filterMap.2 ⟨id, hin, by simpa using hsource⟩
  · rcases mem_ops_connect op hpreds hsuccs hc with ⟨c₀, hc₀, rfl⟩ | rfl
    · have hpos : (g.followersOf op).count c₀.id ≠ 0 := Nat.ne_of_gt (List.count_pos_iff.2 hsucc)
      exact List.mem_append_right _ (List.mem_replicate.2 ⟨hpos, rfl⟩)
    · exact absurd rfl hne

/-- A producer has its consumer for a successor at least once for each slot. -/
theorem enough_connect {a c : Operator} (ha : a ∈ (g.connect op).ops)
    (hc : c ∈ (g.connect op).ops) :
    (c.inputs.countP fun id => (g.connect op).sourceOf id = some a.id) ≤
      a.successors.count c.id := by
  rcases mem_ops_connect op hpreds hsuccs ha with ⟨a₀, ha₀, rfl⟩ | rfl
  · have hold : ∀ id, (g.connect op).sourceOf id = some a₀.id → g.sourceOf id = some a₀.id := by
      intro id hsource
      rcases (sourceOf_connect op id _).1 hsource with ⟨_, _, heq⟩ | ⟨_, hsource⟩
      · exact absurd heq.symm (id_ne_of_mem h op hid ha₀)
      · exact hsource
    have hle : (c.inputs.countP fun id => (g.connect op).sourceOf id = some a₀.id) ≤
        c.inputs.countP fun id => g.sourceOf id = some a₀.id :=
      List.countP_mono_left fun id _ hsource => by simpa using hold id (by simpa using hsource)
    refine Nat.le_trans hle ?_
    show _ ≤ (g.followed op.id op.inputs a₀).successors.count c.id
    rw [count_successors_followed h op hid ha₀]
    rcases mem_ops_connect op hpreds hsuccs hc with ⟨c₀, hc₀, rfl⟩ | rfl
    · rw [preceded_id, followed_id, if_neg (id_ne_of_mem h op hid hc₀)]
      exact h.enough a₀ ha₀ c₀ hc₀
    · rw [if_pos rfl]
  · have hle : (c.inputs.countP fun id => (g.connect op).sourceOf id = some op.id) ≤
        c.inputs.countP fun id => (g.tensor? id).isSome ∧ id ∈ op.outputs :=
      List.countP_mono_left fun id _ hsource => by
        simpa using sourceOf_connect_self h op hid (by simpa using hsource)
    refine Nat.le_trans hle ?_
    rcases mem_ops_connect op hpreds hsuccs hc with ⟨c₀, hc₀, rfl⟩ | rfl
    · exact le_count_followersOf h op hid (c := c₀) (.inl hc₀)
    · exact le_count_followersOf h op hid (c := op) (.inr rfl)

/-- An operator that names no output twice tells a consumer at most once for each slot. -/
theorem notTooMany_connect {a c : Operator} (ha : a ∈ (g.connect op).ops)
    (hc : c ∈ (g.connect op).ops) (hdoubles : ¬ a.Doubles c) :
    a.successors.count c.id ≤ c.inputs.countP fun id => id ∈ a.outputs := by
  rcases mem_ops_connect op hpreds hsuccs ha with ⟨a₀, ha₀, rfl⟩ | rfl
  · show (g.followed op.id op.inputs a₀).successors.count c.id ≤ _
    rw [count_successors_followed h op hid ha₀]
    rcases mem_ops_connect op hpreds hsuccs hc with ⟨c₀, hc₀, rfl⟩ | rfl
    · rw [preceded_id, followed_id, if_neg (id_ne_of_mem h op hid hc₀)]
      exact h.notTooMany a₀ ha₀ c₀ hc₀ hdoubles
    · rw [if_pos rfl]
      refine List.countP_mono_left fun id _ hsource => ?_
      obtain ⟨t, ht, rfl, hfrom⟩ := (sourceOf_eq_some_iff h.tensorIds).1 (by simpa using hsource)
      exact decide_eq_true (h.source a₀ ha₀ t ht hfrom)
  · have honce : c.id ≤ op.id → ∀ id ∈ c.inputs, op.outputs.count id ≤ 1 := fun hle id hin =>
      Nat.le_of_not_lt fun htwice => hdoubles ⟨hle, id, hin, htwice⟩
    rcases mem_ops_connect op hpreds hsuccs hc with ⟨c₀, hc₀, rfl⟩ | rfl
    · exact count_followersOf_le h op hid (c := c₀) (.inl hc₀)
        (honce (Nat.le_of_lt (hid ▸ h.opsKnown c₀ hc₀)))
    · exact count_followersOf_le h op hid (c := op) (.inr rfl) (honce (Nat.le_refl _))

theorem Wired.connect (hinputs : ∀ id ∈ op.inputs, id < ids.tensor) :
    Wired { ids with operator := ids.operator + 1 } (g.connect op) where
  tensorIds := by
    rw [connect_eq, List.map_map]
    exact h.tensorIds
  tensorsKnown t ht := by
    obtain ⟨t₀, ht₀, rfl⟩ := mem_tensors_connect op ht
    exact h.tensorsKnown t₀ ht₀
  opIds := by
    rw [connect_eq, List.map_append, List.map_map, List.map_singleton, List.nodup_append]
    refine ⟨h.opIds, List.nodup_singleton _, fun a ha b hb => ?_⟩
    obtain ⟨c, hc, rfl⟩ := List.mem_map.1 ha
    rw [List.mem_singleton] at hb
    exact hb ▸ id_ne_of_mem h op hid hc
  opsKnown c hc := by
    rcases mem_ops_connect op hpreds hsuccs hc with ⟨c₀, hc₀, rfl⟩ | rfl
    · exact Nat.lt_succ_of_lt (h.opsKnown c₀ hc₀)
    · exact hid ▸ Nat.lt_succ_self _
  sourcesKnown t ht id hsource := by
    obtain ⟨t₀, ht₀, rfl⟩ := mem_tensors_connect op ht
    rcases (source_produced _ _ _ _).1 hsource with ⟨_, rfl⟩ | ⟨_, hsource⟩
    · exact hid ▸ Nat.lt_succ_self _
    · exact Nat.lt_succ_of_lt (h.sourcesKnown t₀ ht₀ id hsource)
  targetsKnown t ht id htarget := by
    obtain ⟨t₀, ht₀, rfl⟩ := mem_tensors_connect op ht
    rcases List.mem_append.1 htarget with htarget | htarget
    · exact Nat.lt_succ_of_lt (h.targetsKnown t₀ ht₀ id htarget)
    · exact List.eq_of_mem_replicate htarget ▸ hid ▸ Nat.lt_succ_self _
  successorsKnown a ha id hsucc := by
    rcases mem_ops_connect op hpreds hsuccs ha with ⟨a₀, ha₀, rfl⟩ | rfl
    · rcases List.mem_append.1 hsucc with hsucc | hsucc
      · exact Nat.lt_succ_of_lt (h.successorsKnown a₀ ha₀ id hsucc)
      · exact List.eq_of_mem_replicate hsucc ▸ hid ▸ Nat.lt_succ_self _
    · exact lt_of_mem_followersOf h op hid hsucc
  inputsKnown c hc := by
    rcases mem_ops_connect op hpreds hsuccs hc with ⟨c₀, hc₀, rfl⟩ | rfl
    · exact h.inputsKnown c₀ hc₀
    · exact hinputs
  targets c hc t ht := by
    obtain ⟨t₀, ht₀, rfl⟩ := mem_tensors_connect op ht
    rcases mem_ops_connect op hpreds hsuccs hc with ⟨c₀, hc₀, rfl⟩ | rfl
    · exact count_targets_consumed h op hid (.inl hc₀) ht₀
    · exact count_targets_consumed h op hid (.inr rfl) ht₀
  source a ha t ht hsource := by
    obtain ⟨t₀, ht₀, rfl⟩ := mem_tensors_connect op ht
    rcases mem_ops_connect op hpreds hsuccs ha with ⟨a₀, ha₀, rfl⟩ | rfl
    · rcases (source_produced _ _ _ _).1 hsource with ⟨_, heq⟩ | ⟨_, hsource⟩
      · exact (id_ne_of_mem h op hid ha₀ heq.symm).elim
      · exact h.source a₀ ha₀ t₀ ht₀ hsource
    · rcases (source_produced _ _ _ _).1 hsource with ⟨hout, _⟩ | ⟨_, hsource⟩
      · exact hout
      · exact absurd (h.sourcesKnown t₀ ht₀ _ hsource) (hid ▸ Nat.lt_irrefl _)
  answered _ ha _ hc := answered_connect h op hid hpreds hsuccs ha hc
  enough _ ha _ hc := enough_connect h op hid hpreds hsuccs ha hc
  notTooMany _ ha _ hc := notTooMany_connect h op hid hpreds hsuccs ha hc

end Links

end Connect

/-! ### Tensors set aside -/

/-- A graph together with tensors that are not in it. -/
def withLoose (g : Graph) (loose : List Tensor) : Graph := { g with tensors := g.tensors ++ loose }

theorem tensor?_withLoose {g : Graph} {id : TensorId} {t : Tensor} (h : g.tensor? id = some t)
    (loose : List Tensor) :
    (g.withLoose loose).tensor? id = some t := tensor?_append h loose

theorem connect_withLoose {g : Graph} {op : Operator} {loose : List Tensor}
    (hids : ((g.withLoose loose).tensors.map Tensor.id).Nodup)
    (hinputs : ∀ id ∈ op.inputs, ∃ t, g.tensor? id = some t)
    (houtputs : ∀ id ∈ op.outputs, ∃ t, g.tensor? id = some t) :
    (g.connect op).withLoose loose = (g.withLoose loose).connect op := by
  have hapart : ∀ u ∈ loose, ∀ id t, g.tensor? id = some t → u.id ≠ id := by
    intro u hu id t ht
    rw [withLoose, List.map_append, List.nodup_append] at hids
    exact (hids.2.2 id (List.mem_map.2 ⟨t, mem_of_tensor? ht, id_of_tensor? ht⟩) u.id
      (List.mem_map_of_mem hu)).symm
  have hloose :
      loose.map (fun t => produced op.id op.outputs (consumed op.id op.inputs t)) = loose := by
    refine (List.map_congr_left fun u hu => ?_).trans loose.map_id
    have hin : u.id ∉ op.inputs :=
      fun hmem => (hinputs _ hmem).elim fun t ht => hapart u hu _ t ht rfl
    have hout : u.id ∉ op.outputs :=
      fun hmem => (houtputs _ hmem).elim fun t ht => hapart u hu _ t ht rfl
    simp [produced, consumed, hout, List.count_eq_zero.2 hin]
  have hsource : ∀ id ∈ op.inputs, (g.withLoose loose).sourceOf id = g.sourceOf id := by
    intro id hin
    obtain ⟨t, ht⟩ := hinputs id hin
    rw [sourceOf, sourceOf, tensor?_withLoose ht, ht]
  have hfollowed : (g.withLoose loose).followed op.id op.inputs = g.followed op.id op.inputs := by
    funext x
    rw [followed, followed]
    congr 3
    exact List.countP_congr fun id hin => by rw [hsource id hin]
  have hfollowers : (g.withLoose loose).followersOf op = g.followersOf op := by
    rw [followersOf, followersOf]
    refine List.flatMap_congr fun id hout => ?_
    obtain ⟨t, ht⟩ := houtputs id hout
    rw [targetsOf, targetsOf, tensor?_withInputs, tensor?_withInputs, tensor?_withLoose ht, ht]
  rw [connect_eq, connect_eq, hfollowed, hfollowers, List.filterMap_congr hsource]
  simp [withLoose, hloose]

end Graph

namespace Draft

/-- Growing keeps the links in agreement, those of tensors set aside included. -/
theorem Grows.wired {d d' : Draft} (h : Grows d d') (loose : List Tensor)
    (hwired : Graph.Wired d.ids (d.graph.withLoose loose)) :
    Graph.Wired d'.ids (d'.graph.withLoose loose) := by
  induction h with
  | refl => exact hwired
  | elsewhere tensors operators _ ih =>
      exact ih.moreIds (Nat.le_add_right _ _) (Nat.le_add_right _ _)
  | @tensor d' _ _ _ t _ hmake ih =>
      obtain ⟨_, ht⟩ := Tensor.make_eq_ok hmake
      refine (ih.tensor (t := t) (by rw [ht]) (by rw [ht]) (by rw [ht])).reorder ?_
      simp only [pushTensor, Graph.withLoose, List.append_assoc]
      exact List.perm_append_comm.append_left _
  | @operator d' kind inputs outputs _ hfits ih =>
      have hinputs : ∀ id ∈ inputs, id < d'.ids.tensor := by
        intro id hin
        obtain ⟨t, ht⟩ := hfits.inputs_there id hin
        exact Graph.id_of_tensor? ht ▸
          ih.tensorsKnown t (List.mem_append_left _ (Graph.mem_of_tensor? ht))
      have hnext := ih.connect { id := d'.ids.operator, kind, inputs, outputs } rfl rfl rfl hinputs
      rw [← Graph.connect_withLoose ih.tensorIds hfits.inputs_there hfits.outputs_there] at hnext
      exact hnext

theorem built_wired (steps : List BuildStep) :
    Graph.Wired (built steps).ids (built steps).graph := by
  have h := (built_grows steps).wired [] (.empty _)
  rwa [Graph.withLoose, List.append_nil] at h

end Draft

end TensorDataflow
