import TensorDataflow.Proofs.Layout.Alignment
/-!
# What broadcast shapes evaluate to

Shapes are broadcast as trees, before their variables are bound. Two trees agree only if they are
the same or one of them is the constant one, so whatever the variables are bound to, the extents
that come out are those that the extents of both sides are read as, also where a variable turns out
to be one: `Axes.evaluate_of_broadcast`. Between constants the answer is exact:
`Axes.broadcast_exact`.
-/

namespace TensorDataflow

/-- An extent that two extents are read as: the one that is not one, and otherwise the one that both
have. -/
structure Joint (x y z : Nat) : Prop where
  agree : x = y ∨ x = 1 ∨ y = 1
  value : z = if x = 1 then y else x

/-- A list of extents that two lists are read as: aligned at the last, each of its extents is the
one that theirs are read as, and a missing one is one. -/
structure Joined (xs ys zs : List Nat) : Prop where
  rank : zs.length = max xs.length ys.length
  extents : ∀ k, Joint (fromLast 1 xs k) (fromLast 1 ys k) (fromLast 1 zs k)

theorem exists_forall₂ {α β : Type} {R : α → β → Prop} {xs : List α} (h : ∀ x ∈ xs, ∃ y, R x y) :
    ∃ ys, List.Forall₂ R xs ys := by
  induction xs with
  | nil => exact ⟨[], .nil⟩
  | cons x xs ih =>
      obtain ⟨hx, hxs⟩ := List.forall_mem_cons.1 h
      obtain ⟨y, hy⟩ := hx
      obtain ⟨ys, hys⟩ := ih hxs
      exact ⟨y :: ys, .cons hy hys⟩

namespace Dim

/-- The extent that a dimension is under an assignment. -/
def extent? (bindings : Bindings) (d : Dim) : Option Nat :=
  (d.evaluate bindings).bind (AxisRole.ofWord .extent)

theorem extent?_one (bindings : Bindings) : (const 1).extent? bindings = some 1 := rfl

/-- What two dimensions agree on is what their extents are read as under every assignment. -/
theorem extent?_of_agree? {a b d : Dim} (h : a.agree? b = some d) {bindings : Bindings} {x y : Nat}
    (hx : a.extent? bindings = some x) (hy : b.extent? bindings = some y) :
    ∃ z, d.extent? bindings = some z ∧ Joint x y z := by
  rw [agree?_eq] at h
  split at h
  · next hfirst =>
      obtain rfl := Option.some.inj h
      refine ⟨x, hx, ?_⟩
      rcases hfirst with rfl | rfl
      · obtain rfl : x = y := Option.some.inj (hx.symm.trans hy)
        exact ⟨.inl rfl, by rw [ite_self]⟩
      · obtain rfl : 1 = y := Option.some.inj hy
        refine ⟨.inr (.inr rfl), ?_⟩
        split
        · assumption
        · rfl
  · split at h
    · next hone =>
        obtain rfl := Option.some.inj h
        subst hone
        obtain rfl : 1 = x := Option.some.inj hx
        exact ⟨y, hy, .inr (.inl rfl), rfl⟩
    · cases h

end Dim

namespace Axes

variable {a b s : Shape} {bindings : Bindings}

theorem evaluate_eq_some_iff {extents : List Nat} : a.evaluate bindings = some extents ↔
    a.rank = extents.length ∧ ∀ k, (a.extentAt k).extent? bindings = some (fromLast 1 extents k) :=
  mapM_eq_some_iff.trans (forall₂_iff_fromLast (Dim.const 1) 1 (Dim.extent?_one bindings))

theorem exists_extentAt {d : Dim} (h : d ∈ s.dims) : ∃ k, s.extentAt k = d := by
  obtain ⟨axis, haxis, rfl⟩ := List.mem_iff_getElem.1 h
  obtain ⟨k, hk⟩ : ∃ k, axis + k + 1 = s.dims.length := ⟨s.dims.length - axis - 1, by omega⟩
  have hentry := getElem?_eq_fromLast (Dim.const 1) hk
  rw [List.getElem?_eq_getElem haxis] at hentry
  exact ⟨k, (Option.some.inj hentry).symm⟩

/-- A shape that two shapes broadcast to is, under every assignment under which they have extents,
the one that those are read as. -/
theorem evaluate_of_broadcast (h : a.broadcast b = .ok s) {xs ys : List Nat}
    (ha : a.evaluate bindings = some xs) (hb : b.evaluate bindings = some ys) :
    ∃ zs, s.evaluate bindings = some zs ∧ Joined xs ys zs := by
  obtain ⟨hrank, hagree⟩ := broadcast_eq_ok_iff.1 h
  obtain ⟨haRank, haExtents⟩ := evaluate_eq_some_iff.1 ha
  obtain ⟨hbRank, hbExtents⟩ := evaluate_eq_some_iff.1 hb
  have hjoint : ∀ k, ∃ z, (s.extentAt k).extent? bindings = some z ∧
      Joint (fromLast 1 xs k) (fromLast 1 ys k) z :=
    fun k => Dim.extent?_of_agree? (hagree k) (haExtents k) (hbExtents k)
  obtain ⟨zs, hzs⟩ : ∃ zs, List.Forall₂ (fun d n => Dim.extent? bindings d = some n) s.dims zs := by
    apply exists_forall₂
    intro d hd
    obtain ⟨k, rfl⟩ := exists_extentAt hd
    obtain ⟨z, hz, -⟩ := hjoint k
    exact ⟨z, hz⟩
  have hs : s.evaluate bindings = some zs := mapM_eq_some_iff.2 hzs
  obtain ⟨hsRank, hsExtents⟩ := evaluate_eq_some_iff.1 hs
  refine ⟨zs, hs, ?_, fun k => ?_⟩
  · rw [← hsRank, hrank, haRank, hbRank]
  · obtain ⟨z, hz, hjoins⟩ := hjoint k
    rw [hsExtents k] at hz
    rwa [Option.some.inj hz]

theorem clash_ofWords {xs ys : List Int64} {axis : Nat} :
    Clash (.const 1) (ofWords xs : Shape).dims (ofWords ys : Shape).dims axis ↔
    Clash 1 xs ys axis := by
  simp only [Clash, ofWords, List.length_map, fromLast_map Dim.const (rfl : Dim.const 1 = .const 1),
    Apart, ne_eq, Dim.const.injEq]

/-- Broadcasting trees says what broadcasting extents does: whatever the variables are bound to, the
extents of the result are those that the extents of both sides are read as. It fails on constants
only where these cannot be read as one, and reports the first such axis. -/
theorem broadcast_exact (a b : Shape) :
    (∀ s, a.broadcast b = .ok s → ∀ bindings xs ys, a.evaluate bindings = some xs →
      b.evaluate bindings = some ys → ∃ zs, s.evaluate bindings = some zs ∧ Joined xs ys zs) ∧
      ∀ xs ys, a = ofWords xs → b = ofWords ys →
      ((∃ e, a.broadcast b = .error e) ↔ ∃ axis, Clash 1 xs ys axis) ∧
        ∀ e, a.broadcast b = .error e → ∃ axis, e = .broadcastMismatch a.text b.text axis ∧
        Clash 1 xs ys axis ∧ ∀ earlier < axis, ¬ Clash 1 xs ys earlier := by
  refine ⟨fun s hs bindings xs ys ha hb => evaluate_of_broadcast hs ha hb, ?_⟩
  rintro xs ys rfl rfl
  simp only [← clash_ofWords]
  exact ⟨exists_broadcast_eq_error_iff, fun e he => clash_of_broadcast_eq_error he⟩

/-- A column over a variable that turns out to be one still broadcasts with a row. -/
theorem broadcast_exact_column :
    (∃ zs, (⟨[.var "n", .const 8]⟩ : Shape).evaluate (.ofList [("n", 1)]) = some zs ∧
      Joined [1, 1] [8] zs) ∧
      (ofWords [2, 3] : Shape).broadcast (ofWords [4, 3]) =
        .error (.broadcastMismatch "[2, 3]" "[4, 3]" 0) ∧ Clash 1 [(2 : Int64), 3] [4, 3] 0 := by
  have hfails : (ofWords [2, 3] : Shape).broadcast (ofWords [4, 3]) =
      .error (.broadcastMismatch "[2, 3]" "[4, 3]" 0) := by
    decide +kernel
  obtain ⟨axis, he, hclash, -⟩ :=
    ((broadcast_exact (ofWords [2, 3]) (ofWords [4, 3])).2 [2, 3] [4, 3] rfl rfl).2 _ hfails
  obtain rfl : 0 = axis := (ShapeError.broadcastMismatch.inj he).2.2
  exact ⟨(broadcast_exact ⟨[.var "n", .const 1]⟩ ⟨[.const 8]⟩).1 _ rfl (.ofList [("n", 1)]) [1, 1]
    [8] rfl rfl, hfails, hclash⟩

end Axes

end TensorDataflow
