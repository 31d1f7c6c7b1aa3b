import TensorDataflow.Graph.Order
/-!
# Rounds of takings

The order of a graph is found with thinned rounds. What a round keeps of an operator is enough
to end the waits of all that it tells and to release them as often as the next round looks, so
thinning a round thins what it releases, and no first taking moves. Main statement:
`Graph.topoSort_eq`, the order is that of all takings.
-/

namespace TensorDataflow

theorem tell_cons (waiting : Tally) (s : OpId) (rest : List OpId) :
    tell waiting (s :: rest) =
      ((tell (waiting.put s (waiting.count s - 1)) rest).1,
        if waiting.count s - 1 = 0 then s :: (tell (waiting.put s (waiting.count s - 1)) rest).2
        else (tell (waiting.put s (waiting.count s - 1)) rest).2) := rfl

/-- Telling thinned operators leaves the same counts as telling all of them and releases, thinned,
the same operators, if what is kept of each is enough to end its wait and to release it as often as
the second thinning looks. -/
theorem tell_thinFrom {cap next : Nat} {kept released first second : Tally} (xs : List OpId)
    (hsame : ∀ s, first.count s = second.count s)
    (hroom : ∀ s, first.count s + (next - released.count s) ≤ cap - kept.count s) :
    (∀ s, (tell first xs).1.count s = (tell second (thinFrom cap kept xs)).1.count s) ∧
      thinFrom next released (tell first xs).2 =
        thinFrom next released (tell second (thinFrom cap kept xs)).2 := by
  induction xs generalizing kept released first second with
  | nil => exact ⟨hsame, rfl⟩
  | cons a xs ih =>
      have hstep : ∀ s, (first.put a (first.count a - 1)).count s = if a = s then first.count a - 1
          else first.count s :=
        Tally.count_put first a _
      by_cases ha : kept.count a < cap
      · rw [thinFrom, if_pos ha, tell_cons, tell_cons]
        have hnext : ∀ s, (first.put a (first.count a - 1)).count s =
            (second.put a (second.count a - 1)).count s := by
          intro s
          rw [Tally.count_put, Tally.count_put, hsame a, hsame s]
        by_cases hleft : first.count a - 1 = 0
        · rw [if_pos hleft, if_pos (hsame a ▸ hleft)]
          by_cases hreleased : released.count a < next
          · have := @ih (kept.put a (kept.count a + 1)) (released.put a (released.count a + 1))
              _ _ hnext fun s => by
              have hs := hroom s
              rw [hstep, Tally.count_put, Tally.count_put]
              by_cases has : a = s
              · subst has
                simp only [if_true]
                omega
              · simpa only [if_neg has] using hs
            refine ⟨this.1, ?_⟩
            rw [thinFrom, thinFrom, if_pos hreleased, if_pos hreleased, this.2]
          · have := @ih (kept.put a (kept.count a + 1)) released _ _ hnext fun s => by
              have hs := hroom s
              rw [hstep, Tally.count_put]
              by_cases has : a = s
              · subst has
                simp only [if_true]
                omega
              · simpa only [if_neg has] using hs
            refine ⟨this.1, ?_⟩
            rw [thinFrom, thinFrom, if_neg hreleased, if_neg hreleased, this.2]
        · rw [if_neg hleft, if_neg (hsame a ▸ hleft)]
          exact @ih (kept.put a (kept.count a + 1)) released _ _ hnext fun s => by
            have hs := hroom s
            rw [hstep, Tally.count_put]
            by_cases has : a = s
            · subst has
              simp only [if_true]
              omega
            · simpa only [if_neg has] using hs
      · have hzero := hroom a
        have hleft : first.count a - 1 = 0 := by omega
        have hsecond : ∀ s, (first.put a (first.count a - 1)).count s = second.count s := by
          intro s
          rw [hstep, ← hsame s]
          by_cases has : a = s
          · subst has
            rw [if_pos rfl]
            omega
          · rw [if_neg has]
        have := @ih kept released _ _ hsecond fun s => by
          rw [hsecond s, ← hsame s]
          exact hroom s
        rw [thinFrom, if_neg ha, tell_cons, if_pos hleft]
        refine ⟨this.1, ?_⟩
        rw [thinFrom, if_neg (by omega), this.2]

theorem count_tell_le (waiting : Tally) (xs : List OpId) (s : OpId) :
    (tell waiting xs).1.count s ≤ waiting.count s := by
  induction xs generalizing waiting with
  | nil => exact Nat.le_refl _
  | cons a xs ih =>
      rw [tell_cons]
      refine Nat.le_trans (ih _) ?_
      rw [Tally.count_put]
      split
      · subst_vars
        exact Nat.sub_le _ _
      · exact Nat.le_refl _

theorem eraseDups_append_congr {xs ys : List OpId} (h : xs.eraseDups = ys.eraseDups)
    (rest : List OpId) :
    (xs ++ rest).eraseDups = (ys ++ rest).eraseDups := by
  have hmem : ∀ a, a ∈ xs ↔ a ∈ ys := fun a => by rw [← List.mem_eraseDups, h, List.mem_eraseDups]
  have hrest : rest.removeAll xs = rest.removeAll ys := by
    refine List.filter_congr fun a _ => ?_
    simp [hmem]
  rw [List.eraseDups_append, List.eraseDups_append, h, hrest]

namespace Graph

/-- Two accounts of the takings that lead to the same order: both end, with the same first takings,
and they are equal or both of sufficient length. -/
def SameOrder (enough : Nat) : Option (List OpId) → Option (List OpId) → Prop
  | none, none => True
  | some all, some part =>
      (∀ front, (front ++ part).eraseDups = (front ++ all).eraseDups) ∧
      (part = all ∨ enough ≤ part.length ∧ enough ≤ all.length)
  | _, _ => False

theorem takings_cons (g : Graph) (trim : Nat → List OpId → List OpId) (rounds : Nat) (a : OpId)
    (queue : List OpId) (waiting : Tally) :
    g.takings trim (rounds + 1) (a :: queue) waiting =
      (g.takings trim rounds (trim rounds (tell waiting ((a :: queue).flatMap g.informed)).2)
        (tell waiting ((a :: queue).flatMap g.informed)).1).map (a :: queue ++ ·) := rfl

theorem sameOrder_takings (g : Graph) (wait rounds : Nat) (queue : List OpId) (first second : Tally)
    (hsame : ∀ s, first.count s = second.count s) (hwait : ∀ s, first.count s ≤ wait) :
    SameOrder g.ops.length (g.takings (fun _ queue => queue) rounds queue first)
      (g.takings (fun rounds => thin (g.roundCap wait rounds))
        rounds (thin (g.roundCap wait rounds) queue) second) := by
  have hpos : ∀ rounds, 0 < g.roundCap wait rounds := fun rounds => by
    unfold roundCap
    omega
  induction rounds generalizing queue first second with
  | zero =>
      cases queue with
      | nil => exact ⟨fun _ => rfl, .inl rfl⟩
      | cons a queue =>
          cases h : thin (g.roundCap wait 0) (a :: queue) with
          | nil => exact absurd ((thin_eq_nil_iff (hpos 0)).1 h) (List.cons_ne_nil a queue)
          | cons b kept => trivial
  | succ rounds ih =>
      cases queue with
      | nil => exact ⟨fun _ => rfl, .inl rfl⟩
      | cons a queue =>
          cases h : thin (g.roundCap wait (rounds + 1)) (a :: queue) with
          | nil => exact absurd ((thin_eq_nil_iff (hpos _)).1 h) (List.cons_ne_nil a queue)
          | cons b kept =>
              rw [takings_cons, takings_cons, ← h]
              have hroom : g.roundCap wait (rounds + 1) = g.roundCap wait rounds + wait := by
                unfold roundCap
                rw [Nat.succ_mul]
                omega
              have hempty : ∀ s, (∅ : Tally).count s = 0 := Tally.count_empty
              obtain ⟨hfirst, hready⟩ := @tell_thinFrom (g.roundCap wait (rounds + 1))
                (g.roundCap wait rounds) ∅ ∅ first second
                ((a :: queue).flatMap g.informed) hsame fun s => by
                  have := hwait s
                  rw [hempty]
                  omega
              obtain ⟨hsecond, hthinned⟩ := @tell_thinFrom (g.roundCap wait (rounds + 1))
                (g.roundCap wait rounds) ∅ ∅ second second
                ((thin (g.roundCap wait (rounds + 1)) (a :: queue)).flatMap g.informed)
                (fun _ => rfl) fun s => by
                  have := hwait s
                  rw [hempty, ← hsame s]
                  omega
              have hflat : thinFrom (g.roundCap wait (rounds + 1)) ∅
                  ((thin (g.roundCap wait (rounds + 1)) (a :: queue)).flatMap g.informed) =
                  thinFrom (g.roundCap wait (rounds + 1)) ∅ ((a :: queue).flatMap g.informed) :=
                thin_flatMap_thin g.informed _ _
              rw [hflat] at hsecond hthinned
              have hround :
                  thin (g.roundCap wait rounds) (tell first ((a :: queue).flatMap g.informed)).2 =
                  thin (g.roundCap wait rounds)
                    (tell second
                      ((thin (g.roundCap wait (rounds + 1)) (a :: queue)).flatMap g.informed)).2 :=
                hready.trans hthinned.symm
              have hnext := ih (tell first ((a :: queue).flatMap g.informed)).2 _
                (tell second
                    ((thin (g.roundCap wait (rounds + 1)) (a :: queue)).flatMap g.informed)).1
                (fun s => (hfirst s).trans (hsecond s).symm)
                fun s => Nat.le_trans (count_tell_le _ _ s) (hwait s)
              rw [hround] at hnext
              revert hnext
              generalize g.takings (fun _ queue => queue) rounds _ _ = all
              generalize g.takings (fun rounds => thin (g.roundCap wait rounds)) rounds _ _ = part
              intro hnext
              cases all with
              | none =>
                  cases part with
                  | none => trivial
                  | some _ => exact hnext.elim
              | some all =>
                  cases part with
                  | none => exact hnext.elim
                  | some part =>
                      obtain ⟨hfirsts, hlength⟩ := hnext
                      refine ⟨fun front => ?_, ?_⟩
                      · show (front ++ (thin _ (a :: queue) ++ part)).eraseDups =
                          (front ++ (a :: queue ++ all)).eraseDups
                        rw [← List.append_assoc, ← List.append_assoc, hfirsts]
                        exact eraseDups_append_congr
                          (eraseDups_append_thin (hpos _) front (a :: queue)) all
                      · have hle : g.ops.length ≤ g.roundCap wait (rounds + 1) := by
                          unfold roundCap
                          omega
                        show thin _ (a :: queue) ++ part = a :: queue ++ all ∨
                          g.ops.length ≤ (thin _ (a :: queue) ++ part).length ∧
                          g.ops.length ≤ (a :: queue ++ all).length
                        rw [List.length_append, List.length_append]
                        have hshort : (thin (g.roundCap wait (rounds + 1)) (a :: queue)).length ≤
                            (a :: queue).length := length_thinFrom_le _ _ _
                        rcases thin_eq_or_le_length (g.roundCap wait (rounds + 1)) (a :: queue)
                            with hsame | hlong
                        · rcases hlength with heq | henough
                          · exact .inl (by rw [hsame, heq])
                          · exact .inr (by omega)
                        · exact .inr (by omega)

theorem arrange_eq_of_sameOrder {g : Graph} {all part : Option (List OpId)}
    (h : SameOrder g.ops.length all part) :
    g.arrange part = g.arrange all := by
  cases all with
  | none =>
      cases part with
      | none => rfl
      | some _ => exact h.elim
  | some all =>
      cases part with
      | none => exact h.elim
      | some part =>
          obtain ⟨hfirsts, heq | ⟨hpart, hall⟩⟩ := h
          · rw [heq]
          · have hdups : part.eraseDups = all.eraseDups := hfirsts []
            have hmem : ∀ a, part.contains a = all.contains a := fun a => by
              rw [Bool.eq_iff_iff, List.contains_iff_mem, List.contains_iff_mem,
                ← List.mem_eraseDups, hdups, List.mem_eraseDups]
            rw [arrange, arrange, if_neg (Nat.not_lt.2 hpart), if_neg (Nat.not_lt.2 hall), hdups]
            simp only [hmem]

theorem count_waiting_le (g : Graph) (s : OpId) : g.waiting.count s ≤ g.longestWait := by
  unfold waiting longestWait
  induction g.ops with
  | nil => simp
  | cons op ops ih =>
      rw [List.foldr_cons, List.foldr_cons, Tally.count_put]
      split
      · exact Nat.le_max_left _ _
      · exact Nat.le_trans ih (Nat.le_max_right _ _)

/-- The order is that of all takings, none left out. -/
theorem topoSort_eq (g : Graph) :
    g.topoSort = if g.sorted then .ok (g, [])
    else g.arrange (g.takingOrder? fun _ queue => queue) := by
  unfold topoSort
  split
  · rfl
  · exact arrange_eq_of_sameOrder (sameOrder_takings g _ _ _ _ _ (fun _ => rfl) g.count_waiting_le)

end Graph

end TensorDataflow
