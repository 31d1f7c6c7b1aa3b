import Mathlib.Algebra.Order.BigOperators.Group.List
import Mathlib.Algebra.Order.Ring.Nat
import Mathlib.Data.List.Induction
import Mathlib.Data.List.Nodup
import Mathlib.Data.List.Perm.Subperm
import Mathlib.Logic.Function.Iterate
import TensorDataflow.Graph.Rounds
/-!
# Takings round by round

A sort is a sequence of stages: what has been taken, what the next round takes, and how often each
operator still has to be told. Three counts hold at every stage, whatever the graph (`Graph.Sound`):
how long an operator still waits, how often it has been released, and that whoever stands in the
takings has been told often enough by those before it. From these alone follows what the sort does
to a set of operators that only its own members tell, each exactly as often as it waits: its members
are taken at most once, and only after all that tell them.
-/

namespace TensorDataflow

theorem count_tell (waiting : Tally) (xs : List OpId) (s : OpId) :
    (tell waiting xs).1.count s = waiting.count s - xs.count s := by
  induction xs generalizing waiting with
  | nil => rfl
  | cons a xs ih =>
      rw [tell_cons, ih, Tally.count_put]
      by_cases has : a = s
      · subst has
        rw [if_pos rfl, List.count_cons_self]
        omega
      · rw [if_neg has, List.count_cons_of_ne has]

/-- An operator is released each time it is told after its wait has come down to one. -/
theorem count_ready (waiting : Tally) (xs : List OpId) (s : OpId) :
    (tell waiting xs).2.count s = xs.count s - (waiting.count s - 1) := by
  induction xs generalizing waiting with
  | nil => simp [tell]
  | cons a xs ih =>
      rw [tell_cons]
      have hrest := ih (waiting.put a (waiting.count a - 1))
      rw [Tally.count_put] at hrest
      by_cases has : a = s
      · subst has
        rw [if_pos rfl] at hrest
        rw [List.count_cons_self]
        by_cases hzero : waiting.count a - 1 = 0
        · rw [if_pos hzero, List.count_cons_self, hrest]
          omega
        · rw [if_neg hzero, hrest]
          omega
      · rw [if_neg has] at hrest
        rw [List.count_cons_of_ne has]
        by_cases hzero : waiting.count a - 1 = 0
        · rw [if_pos hzero, List.count_cons_of_ne has, hrest]
        · rw [if_neg hzero, hrest]

/-- A sort between two rounds. -/
structure Stage where
  taken : List OpId
  queue : List OpId
  waiting : Tally

namespace Graph

/-- The operators that wait for nothing from the start. -/
def idle (g : Graph) : List OpId := (g.ops.filter fun op => g.inDegree op = 0).map Operator.id

def firstStage (g : Graph) : Stage := ⟨[], g.idle, g.waiting⟩

def nextStage (g : Graph) (s : Stage) : Stage :=
  ⟨s.taken ++ s.queue, (tell s.waiting (s.queue.flatMap g.informed)).2,
    (tell s.waiting (s.queue.flatMap g.informed)).1⟩

/-- How often the operators of a list tell another. -/
def tellings (g : Graph) (tellers : List OpId) (s : OpId) : Nat :=
  (tellers.flatMap g.informed).count s

theorem tellings_append (g : Graph) (xs ys : List OpId) (s : OpId) :
    g.tellings (xs ++ ys) s = g.tellings xs s + g.tellings ys s := by
  simp [tellings, List.count_append]

theorem tellings_eq_sum (g : Graph) (xs : List OpId) (s : OpId) :
    g.tellings xs s = (xs.map fun a => (g.informed a).count s).sum := by
  induction xs with
  | nil => rfl
  | cons a xs ih => rw [← List.singleton_append, tellings_append, ih]; simp [tellings]

theorem iterate_nextStage_of_queue_eq_nil (g : Graph) (rounds : Nat) {s : Stage}
    (hqueue : s.queue = []) :
    (g.nextStage^[rounds] s).taken = s.taken ∧ (g.nextStage^[rounds] s).queue = [] := by
  induction rounds generalizing s with
  | zero => exact ⟨rfl, hqueue⟩
  | succ rounds ih =>
      have hnext : (g.nextStage s).queue = [] := by simp [nextStage, hqueue, tell]
      rw [Function.iterate_succ_apply]
      refine ⟨(ih hnext).1.trans ?_, (ih hnext).2⟩
      simp [nextStage, hqueue]

/-- All takings are those of the stages, if the last of them has an empty queue. -/
theorem takings_eq_iterate (g : Graph) (rounds : Nat) (s : Stage) :
    (g.takings (fun _ queue => queue) rounds s.queue s.waiting).map (s.taken ++ ·) =
      if (g.nextStage^[rounds] s).queue = [] then some (g.nextStage^[rounds] s).taken
        else none := by
  induction rounds generalizing s with
  | zero =>
      rw [Function.iterate_zero, id]
      cases hqueue : s.queue with
      | nil => simp [takings]
      | cons a queue => simp [takings]
  | succ rounds ih =>
      cases hqueue : s.queue with
      | nil =>
          obtain ⟨htaken, hempty⟩ := g.iterate_nextStage_of_queue_eq_nil (rounds + 1) hqueue
          rw [htaken, hempty]
          simp [takings]
      | cons a queue =>
          have hnext := ih (g.nextStage s)
          rw [Function.iterate_succ_apply, ← hnext, takings_cons, ← hqueue]
          simp only [nextStage, Option.map_map]
          congr 1
          funext rest
          simp

theorem takingOrder?_eq (g : Graph) :
    (g.takingOrder? fun _ queue => queue) =
      if (g.nextStage^[g.ops.length] g.firstStage).queue = []
      then some (g.nextStage^[g.ops.length] g.firstStage).taken else none := by
  rw [← takings_eq_iterate, takingOrder?]
  simp [firstStage, idle]

/-- Whoever is taken has been told by those before it as often as it waits, and once more for each
time it was taken before. -/
def Told (g : Graph) (order : List OpId) : Prop :=
  ∀ front x rest, order = front ++ x :: rest →
    g.waiting.count x + front.count x ≤ g.tellings front x

/-- What holds of the counts at every stage. -/
structure Sound (g : Graph) (s : Stage) : Prop where
  waiting : ∀ x, s.waiting.count x = g.waiting.count x - g.tellings s.taken x
  released : ∀ x,
    (s.taken ++ s.queue).count x = g.idle.count x + (g.tellings s.taken x - (g.waiting.count x - 1))
  told : g.Told (s.taken ++ s.queue)

theorem append_eq_append_cons {α : Type} {xs ys front rest : List α} {x : α}
    (h : xs ++ ys = front ++ x :: rest) :
    (∃ rest', xs = front ++ x :: rest') ∨ ∃ mid, front = xs ++ mid ∧ ys = mid ++ x :: rest := by
  rcases List.append_eq_append_iff.1 h with ⟨mid, hfront, hys⟩ | ⟨mid, hxs, hrest⟩
  · exact .inr ⟨mid, hfront, hys⟩
  · cases mid with
    | nil =>
        rw [List.append_nil] at hxs
        exact .inr ⟨[], by rw [hxs, List.append_nil], by simpa using hrest.symm⟩
    | cons b mid =>
        rw [List.cons_append, List.cons.injEq] at hrest
        exact .inl ⟨mid, by rw [hxs, hrest.1]⟩

theorem Sound.next {g : Graph} {s : Stage} (h : g.Sound s)
    (hidle : ∀ x, g.idle.count x ≤ if g.waiting.count x = 0 then 1 else 0) :
    g.Sound (g.nextStage s) := by
  have hready : ∀ x, (g.nextStage s).queue.count x = g.tellings s.queue x -
      (s.waiting.count x - 1) := fun x => count_ready _ _ x
  refine ⟨fun x => ?_, fun x => ?_, fun front x rest hsplit => ?_⟩
  · show (tell s.waiting _).1.count x = _
    rw [count_tell, h.waiting, nextStage, tellings_append]
    simp only [tellings]
    omega
  · have hreleased := h.released x
    have hwaiting := h.waiting x
    show (s.taken ++ s.queue ++ (g.nextStage s).queue).count x = _ +
      (g.tellings (s.taken ++ s.queue) x - _)
    rw [List.count_append, hready, tellings_append]
    omega
  · change s.taken ++ s.queue ++ (g.nextStage s).queue = _ at hsplit
    rcases append_eq_append_cons hsplit with ⟨rest', hold⟩ | ⟨mid, rfl, hnew⟩
    · exact h.told front x rest' hold
    · -- `x` is released in this round, as often as it is told beyond its wait
      have hcount := hready x
      rw [hnew, List.count_append, List.count_cons_self] at hcount
      have hreleased := h.released x
      have hwaiting := h.waiting x
      have hfirst := hidle x
      rw [List.count_append, tellings_append, tellings_append]
      split at hfirst <;> omega

theorem Sound.iterate {g : Graph}
    (hidle : ∀ x, g.idle.count x ≤ if g.waiting.count x = 0 then 1 else 0) (rounds : Nat) :
    g.Sound (g.nextStage^[rounds] g.firstStage) := by
  induction rounds with
  | zero =>
      refine ⟨fun x => by simp [firstStage, tellings], fun x => by simp [firstStage, tellings],
        fun front x rest hsplit => ?_⟩
      change g.idle = front ++ x :: rest at hsplit
      have hcount := hidle x
      rw [hsplit, List.count_append, List.count_cons_self] at hcount
      split at hcount <;> omega
  | succ rounds ih =>
      rw [Function.iterate_succ_apply']
      exact ih.next hidle

/-! ### Numbers and operators -/

theorem id_of_operator? {g : Graph} {id : OpId} {op : Operator} (h : g.operator? id = some op) :
    op.id = id := by
  have := List.find?_some h
  simpa using this

theorem mem_of_operator? {g : Graph} {id : OpId} {op : Operator}
    (h : g.operator? id = some op) : op ∈ g.ops :=
  List.mem_of_find?_eq_some h

theorem operator?_isSome_iff {g : Graph} {id : OpId} :
    (g.operator? id).isSome ↔ id ∈ g.ops.map Operator.id := by
  simp [operator?, List.find?_isSome, List.mem_map]

theorem operator?_of_mem {g : Graph} (hids : (g.ops.map Operator.id).Nodup) {op : Operator}
    (hop : op ∈ g.ops) : g.operator? op.id = some op := by
  obtain ⟨found, hfound⟩ :=
    Option.isSome_iff_exists.1 (operator?_isSome_iff.2 (List.mem_map_of_mem hop))
  rw [hfound, Option.some.injEq]
  exact List.inj_on_of_nodup_map hids (mem_of_operator? hfound) hop (id_of_operator? hfound)

theorem count_waiting (g : Graph) (x : OpId) :
    g.waiting.count x = (g.operator? x).elim 0 g.inDegree := by
  unfold waiting operator?
  generalize g.inDegree = degree
  induction g.ops with
  | nil => simp
  | cons op ops ih =>
      rw [List.foldr_cons, Tally.count_put, List.find?_cons]
      by_cases hop : op.id = x
      · simp [hop]
      · simp [hop, ih]

theorem count_idle_le {g : Graph} (hids : (g.ops.map Operator.id).Nodup) (x : OpId) :
    g.idle.count x ≤ if g.waiting.count x = 0 then 1 else 0 := by
  have hnodup : g.idle.Nodup := hids.sublist (List.filter_sublist.map Operator.id)
  by_cases hx : x ∈ g.idle
  · obtain ⟨op, hop, rfl⟩ := List.mem_map.1 hx
    rw [List.mem_filter] at hop
    rw [if_pos]
    · exact List.nodup_iff_count_le_one.1 hnodup op.id
    · rw [count_waiting, operator?_of_mem hids hop.1]
      simpa using hop.2
  · rw [List.count_eq_zero.2 hx]
    exact Nat.zero_le _

theorem mem_idle_iff {g : Graph} (hids : (g.ops.map Operator.id).Nodup) {x : OpId} :
    x ∈ g.idle ↔ x ∈ g.ops.map Operator.id ∧ g.waiting.count x = 0 := by
  simp only [idle, List.mem_map, List.mem_filter, decide_eq_true_eq]
  constructor
  · rintro ⟨op, ⟨hop, hzero⟩, rfl⟩
    exact ⟨⟨op, hop, rfl⟩, by rw [count_waiting, operator?_of_mem hids hop]; exact hzero⟩
  · rintro ⟨⟨op, hop, rfl⟩, hzero⟩
    rw [count_waiting, operator?_of_mem hids hop] at hzero
    exact ⟨op, ⟨hop, hzero⟩, rfl⟩

theorem mem_informed_iff {g : Graph} {a x : OpId} :
    x ∈ g.informed a ↔
    (∃ op, g.operator? a = some op ∧ x ∈ op.successors) ∧ x ∈ g.ops.map Operator.id := by
  rw [informed, List.mem_filter, operator?_isSome_iff]
  cases h : g.operator? a with
  | none => simp
  | some op => simp

theorem teller_mem {g : Graph} {a x : OpId} (h : x ∈ g.informed a) : a ∈ g.ops.map Operator.id := by
  obtain ⟨⟨op, hop, _⟩, _⟩ := mem_informed_iff.1 h
  exact operator?_isSome_iff.1 (by rw [hop]; rfl)

theorem stage_subset (g : Graph) (rounds : Nat) :
    ∀ x ∈ (g.nextStage^[rounds] g.firstStage).taken ++ (g.nextStage^[rounds] g.firstStage).queue,
    x ∈ g.ops.map Operator.id := by
  induction rounds with
  | zero =>
      intro x hx
      obtain ⟨op, hop, rfl⟩ := List.mem_map.1 (show x ∈ g.idle from hx)
      exact List.mem_map_of_mem (List.mem_filter.1 hop).1
  | succ rounds ih =>
      rw [Function.iterate_succ_apply']
      generalize g.nextStage^[rounds] g.firstStage = s at ih ⊢
      intro x hx
      rcases List.mem_append.1 hx with hx | hx
      · exact ih x hx
      · have hcount := List.count_pos_iff.2 hx
        change 0 < (tell s.waiting _).2.count x at hcount
        rw [count_ready] at hcount
        obtain ⟨a, _, ha⟩ := List.mem_flatMap.1
          (List.count_pos_iff.1 (show 0 < (s.queue.flatMap g.informed).count x by omega))
        exact (mem_informed_iff.1 ha).2

/-! ### A part that tells itself -/

/-- Some operators of a graph that none outside them tells, and that are told, all in all, exactly
as often as they wait. -/
structure SelfTold (g : Graph) (part : List OpId) : Prop where
  subset : ∀ x ∈ part, x ∈ g.ops.map Operator.id
  closed : ∀ x ∈ part, ∀ a, x ∈ g.informed a → a ∈ part
  even : ∀ x ∈ part, g.tellings (g.ops.map Operator.id) x = g.waiting.count x

theorem tellings_le_of_subset (g : Graph) {xs ys : List OpId} (hnodup : xs.Nodup)
    (hsubset : ∀ a ∈ xs, a ∈ ys) (x : OpId) :
    g.tellings xs x ≤ g.tellings ys x := by
  obtain ⟨zs, hperm, hsub⟩ := List.subperm_of_subset hnodup hsubset
  calc g.tellings xs x = g.tellings zs x := by
        rw [tellings_eq_sum, tellings_eq_sum]
        exact (hperm.map _).sum_eq.symm
    _ ≤ g.tellings ys x := by
        rw [tellings_eq_sum, tellings_eq_sum]
        exact (hsub.map _).sum_le_sum fun _ _ => Nat.zero_le _

/-- Only those who tell an operator count among its tellers. -/
theorem tellings_filter (g : Graph) {p : OpId → Prop} [DecidablePred p] {x : OpId}
    (h : ∀ a, x ∈ g.informed a → p a) (xs : List OpId) :
    g.tellings (xs.filter fun a => p a) x = g.tellings xs x := by
  induction xs with
  | nil => rfl
  | cons a xs ih =>
      rw [← List.singleton_append (l := xs), tellings_append]
      by_cases ha : p a
      · rw [List.singleton_append, List.filter_cons_of_pos (by simpa using ha),
          ← List.singleton_append, tellings_append, ih]
      · have hnone : g.tellings [a] x = 0 := by
          rw [tellings, List.flatMap_singleton, List.count_eq_zero]
          exact fun hmem => ha (h a hmem)
        rw [List.singleton_append, List.filter_cons_of_neg (by simpa using ha), ih,
          hnone, Nat.zero_add]

/-- An operator that is told, all in all, as often as it waits is taken if all that tell it are. -/
theorem mem_order_of_tellers {g : Graph} (hids : (g.ops.map Operator.id).Nodup) {order : List OpId}
    (horder : (g.takingOrder? fun _ queue => queue) = some order)
    {x : OpId} (hx : x ∈ g.ops.map Operator.id)
    (henough : g.waiting.count x ≤ g.tellings (g.ops.map Operator.id) x)
    (hall : ∀ a, x ∈ g.informed a → a ∈ order) :
    x ∈ order := by
  have hreleased := (Sound.iterate (count_idle_le hids) g.ops.length).released x
  rw [takingOrder?_eq] at horder
  split at horder
  · next hempty =>
      cases horder
      rw [hempty, List.append_nil] at hreleased
      generalize (g.nextStage^[g.ops.length] g.firstStage).taken = order at *
      -- the tellers are all taken, so what they tell ends the wait
      have htellings : g.waiting.count x ≤ g.tellings order x := by
        refine Nat.le_trans henough ?_
        calc g.tellings (g.ops.map Operator.id) x =
            g.tellings ((g.ops.map Operator.id).filter (· ∈ order)) x := by
              rw [g.tellings_filter hall]
          _ ≤ g.tellings order x := g.tellings_le_of_subset (hids.filter _)
            (fun a ha => by simpa using (List.mem_filter.1 ha).2) x
      rw [← List.count_pos_iff, hreleased]
      by_cases hzero : g.waiting.count x = 0
      · have := List.count_pos_iff.2 ((mem_idle_iff hids).2 ⟨hx, hzero⟩)
        omega
      · omega
  · cases horder

namespace SelfTold

variable {g : Graph} {part : List OpId}

/-- Takings in which the members stand at most once tell a member at most as often as it waits. -/
theorem tellings_le (h : g.SelfTold part) {x : OpId} (hx : x ∈ part) {xs : List OpId}
    (hnodup : (xs.filter (· ∈ part)).Nodup) :
    g.tellings xs x ≤ g.waiting.count x := by
  rw [← g.tellings_filter (h.closed x hx), ← h.even x hx]
  refine g.tellings_le_of_subset hnodup (fun a ha => ?_) x
  have hpart : a ∈ part := by simpa using (List.mem_filter.1 ha).2
  exact h.subset a hpart

theorem nodup_of_told (h : g.SelfTold part) {order : List OpId} (htold : g.Told order) :
    (order.filter (· ∈ part)).Nodup := by
  induction order using List.reverseRecOn with
  | nil => simp
  | append_singleton order y ih =>
      have hnodup := ih fun front x rest hsplit =>
        htold front x (rest ++ [y]) (by rw [hsplit, List.append_assoc, List.cons_append])
      rw [List.filter_append]
      by_cases hy : y ∈ part
      · -- a second taking of `y` would need more tellings than the members before it give
        have hwait := htold order y [] rfl
        have hle := h.tellings_le hy hnodup
        have hfresh : y ∉ order := List.count_eq_zero.1 (by omega)
        rw [List.filter_cons_of_pos (by simpa using hy), List.filter_nil, List.nodup_append]
        refine ⟨hnodup, List.nodup_singleton y, fun a ha b hb => ?_⟩
        rw [List.mem_singleton] at hb
        rintro rfl
        exact hfresh (hb ▸ (List.mem_filter.1 ha).1)
      · rw [List.filter_cons_of_neg (by simpa using hy), List.filter_nil, List.append_nil]
        exact hnodup

/-- Whoever tells a member has been taken before it. -/
theorem mem_front (h : g.SelfTold part) {order front rest : List OpId} {x a : OpId}
    (htold : g.Told order) (hsplit : order = front ++ x :: rest) (hx : x ∈ part)
    (ha : x ∈ g.informed a) : a ∈ front := by
  by_contra hmiss
  have hnodup : (front.filter (· ∈ part)).Nodup := by
    refine (h.nodup_of_told htold).sublist ?_
    rw [hsplit, List.filter_append]
    exact List.sublist_append_left _ _
  have hwith : (a :: front.filter (· ∈ part)).Nodup :=
    List.nodup_cons.2 ⟨fun hmem => hmiss (List.mem_filter.1 hmem).1, hnodup⟩
  have hle : g.tellings (a :: front.filter (· ∈ part)) x ≤ g.tellings (g.ops.map Operator.id) x :=
    g.tellings_le_of_subset hwith (fun b hb => by
    rcases List.mem_cons.1 hb with rfl | hb
    · exact teller_mem ha
    · have hpart : b ∈ part := by simpa using (List.mem_filter.1 hb).2
      exact h.subset b hpart) x
  rw [h.even x hx, ← List.singleton_append, tellings_append,
    g.tellings_filter (h.closed x hx)] at hle
  have htells : 0 < g.tellings [a] x := by
    rw [tellings, List.flatMap_singleton]
    exact List.count_pos_iff.2 ha
  have hwait := htold front x rest hsplit
  omega

end SelfTold

/-! ### A graph that tells itself -/

theorem le_length_taken (g : Graph) (rounds : Nat)
    (hqueue : (g.nextStage^[rounds] g.firstStage).queue ≠ []) :
    rounds ≤ (g.nextStage^[rounds] g.firstStage).taken.length := by
  induction rounds with
  | zero => exact Nat.zero_le _
  | succ rounds ih =>
      rw [Function.iterate_succ_apply'] at hqueue ⊢
      generalize g.nextStage^[rounds] g.firstStage = s at ih hqueue ⊢
      have hbefore : s.queue ≠ [] := by
        intro hempty
        exact hqueue (by simp [nextStage, hempty, tell])
      have hle := ih hbefore
      have hpos := List.length_pos_of_ne_nil hbefore
      rw [nextStage, List.length_append]
      omega

section Whole

variable {g : Graph} (hids : (g.ops.map Operator.id).Nodup)
  (hself : g.SelfTold (g.ops.map Operator.id))

include hids hself

theorem nodup_stage (rounds : Nat) : ((g.nextStage^[rounds] g.firstStage).taken ++
        (g.nextStage^[rounds] g.firstStage).queue).Nodup := by
  have hnodup := hself.nodup_of_told (Sound.iterate (count_idle_le hids) rounds).told
  rwa [List.filter_eq_self.2 fun x hx => by simpa using g.stage_subset rounds x hx] at hnodup

/-- Every round takes an operator that was not taken before, so the rounds end. -/
theorem queue_eq_nil : (g.nextStage^[g.ops.length] g.firstStage).queue = [] := by
  by_contra hqueue
  have hle := g.le_length_taken g.ops.length hqueue
  have hpos := List.length_pos_of_ne_nil hqueue
  have hshort := (List.subperm_of_subset (nodup_stage hids hself g.ops.length)
      (g.stage_subset g.ops.length)).length_le
  rw [List.length_append, List.length_map] at hshort
  omega

/-- All takings end, name each operator at most once, and reach exactly those whose tellers they all
reach. -/
theorem exists_takingOrder :
    ∃ order, (g.takingOrder? fun _ queue => queue) = some order ∧ order.Nodup ∧
    (∀ x ∈ order, x ∈ g.ops.map Operator.id) ∧ g.Told order ∧
      ∀ x ∈ g.ops.map Operator.id, (∀ a, x ∈ g.informed a → a ∈ order) → x ∈ order := by
  have hempty := queue_eq_nil hids hself
  have hsound := Sound.iterate (count_idle_le hids) g.ops.length
  have hnodup := nodup_stage hids hself g.ops.length
  have hsubset := g.stage_subset g.ops.length
  refine ⟨(g.nextStage^[g.ops.length] g.firstStage).taken, by rw [takingOrder?_eq, if_pos hempty],
    ?_, ?_, ?_, ?_⟩
  · exact hnodup.of_append_left
  · exact fun x hx => hsubset x (List.mem_append_left _ hx)
  · have htold := hsound.told
    rwa [hempty, List.append_nil] at htold
  · exact fun x hx hall => mem_order_of_tellers hids (by rw [takingOrder?_eq, if_pos hempty]) hx
      (Nat.le_of_eq (hself.even x hx).symm) hall

end Whole

end Graph

end TensorDataflow
