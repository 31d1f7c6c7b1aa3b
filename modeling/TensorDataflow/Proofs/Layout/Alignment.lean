import TensorDataflow.Proofs.Layout.Broadcasting
import TensorDataflow.Proofs.Machine.Act
/-!
# Broadcasting axis by axis

Counted from the last axis, with one for every axis that is missing, all shapes have the same axes,
and broadcasting takes the common extent of two shapes at each of them: `Axes.broadcast_eq_ok_iff`.
Its laws are therefore those of `Dim.agree?`, which is commutative, idempotent and associative with
the constant one as its unit. Where the extents along some axis have nothing in common, the first
such axis is reported.
-/

namespace TensorDataflow

/-- The entry with a number counted from the last one, or the entry that stands for a missing
one. -/
def fromLast {α : Type} (missing : α) (xs : List α) (k : Nat) : α := xs.reverse.getD k missing

section FromLast

variable {α β : Type} {missing : α} {missing' : β} {xs : List α} {ys : List β} {k : Nat}

theorem fromLast_of_le (h : xs.length ≤ k) : fromLast missing xs k = missing := by
  rw [fromLast, List.getD_eq_getElem?_getD, List.getElem?_eq_none (by rwa [List.length_reverse]),
    Option.getD_none]

theorem fromLast_cons (x : α) (xs : List α) (k : Nat) :
    fromLast missing (x :: xs) k = if k = xs.length then x else fromLast missing xs k := by
  rw [fromLast, fromLast, List.reverse_cons, List.getD_eq_getElem?_getD, List.getD_eq_getElem?_getD,
    List.getElem?_append, List.length_reverse]
  split
  · rw [if_neg (by omega)]
  · split
    · next hlast =>
        subst hlast
        rw [Nat.sub_self]
        rfl
    · rw [List.getElem?_eq_none (by rw [List.length_singleton]; omega),
        List.getElem?_eq_none (by rw [List.length_reverse]; omega)]

/-- Filling up in front with what stands for a missing entry changes no entry. -/
theorem fromLast_replicate_append (count : Nat) (xs : List α) (k : Nat) :
    fromLast missing (List.replicate count missing ++ xs) k = fromLast missing xs k := by
  induction count with
  | zero => rfl
  | succ count ih =>
      rw [List.replicate_succ, List.cons_append, fromLast_cons, ih]
      split
      · next hfirst =>
          rw [fromLast_of_le (by simp [hfirst])]
      · rfl

theorem fromLast_zip (h : xs.length = ys.length) (k : Nat) : fromLast (missing, missing')
    (xs.zip ys) k = (fromLast missing xs k, fromLast missing' ys k) := by
  induction xs generalizing ys with
  | nil =>
      obtain rfl := List.length_eq_zero_iff.1 h.symm
      rfl
  | cons x xs ih =>
      cases ys with
      | nil => cases h
      | cons y ys =>
          rw [List.length_cons, List.length_cons, Nat.add_right_cancel_iff] at h
          rw [List.zip_cons_cons, fromLast_cons, fromLast_cons, fromLast_cons, List.length_zip, ← h,
            Nat.min_self, ih h]
          split <;> rfl

/-- Lists are related entry by entry exactly if they are equally long and the entries with the same
number are related. -/
theorem forall₂_iff_fromLast (missing : α) (missing' : β) {R : α → β → Prop}
    (hmissing : R missing missing') :
    List.Forall₂ R xs ys ↔
    xs.length = ys.length ∧ ∀ k, R (fromLast missing xs k) (fromLast missing' ys k) := by
  constructor
  · intro h
    refine ⟨h.length_eq, fun k => ?_⟩
    induction h with
    | nil => exact hmissing
    | @cons x y xs ys hxy hrest ih =>
        rw [fromLast_cons, fromLast_cons, hrest.length_eq]
        split
        · exact hxy
        · exact ih
  · rintro ⟨hlength, h⟩
    induction xs generalizing ys with
    | nil =>
        obtain rfl := List.length_eq_zero_iff.1 hlength.symm
        exact .nil
    | cons x xs ih =>
        cases ys with
        | nil => cases hlength
        | cons y ys =>
            rw [List.length_cons, List.length_cons, Nat.add_right_cancel_iff] at hlength
            have hentry := h
            simp only [fromLast_cons, hlength] at hentry
            refine .cons (by simpa using hentry ys.length) (ih hlength fun k => ?_)
            -- the number of the head is past both tails
            by_cases hlast : k = ys.length
            · rw [fromLast_of_le (by omega), fromLast_of_le (by omega)]
              exact hmissing
            · have hrest := hentry k
              rwa [if_neg hlast, if_neg hlast] at hrest

theorem getElem?_eq_fromLast (missing : α) {axis : Nat} (h : axis + k + 1 = xs.length) :
    xs[axis]? = some (fromLast missing xs k) := by
  have hlt : k < xs.reverse.length := by
    rw [List.length_reverse]
    omega
  rw [fromLast, List.getD_eq_getElem?_getD, List.getElem?_eq_getElem hlt, Option.getD_some,
    List.getElem_reverse, ← List.getElem?_eq_getElem]
  congr 1
  omega

theorem fromLast_map (f : α → β) (hmissing : f missing = missing') (k : Nat) :
    fromLast missing' (xs.map f) k = f (fromLast missing xs k) := by
  rw [fromLast, fromLast, ← List.map_reverse, List.getD_eq_getElem?_getD,
    List.getD_eq_getElem?_getD, List.getElem?_map, ← hmissing, Option.getD_map]

end FromLast

/-- Two extents without a common one: they differ and neither is one. -/
def Apart {α : Type} (one x y : α) : Prop := x ≠ y ∧ x ≠ one ∧ y ≠ one

/-- An axis, counted from the first of the longer of two lists of extents, along which they are
apart. -/
def Clash {α : Type} (one : α) (xs ys : List α) (axis : Nat) : Prop :=
  ∃ k, axis + k + 1 = max xs.length ys.length ∧ Apart one (fromLast one xs k) (fromLast one ys k)

namespace Dim

theorem agree?_eq (a b : Dim) : a.agree? b = if a = b ∨ b = .const 1 then some a
      else if a = .const 1 then some b else none := by
  simp only [agree?, isOne_iff]

theorem agree?_eq_none_iff {a b : Dim} : a.agree? b = none ↔ Apart (.const 1) a b := by
  rw [agree?_eq, Apart]
  grind

theorem agree?_comm (a b : Dim) : a.agree? b = b.agree? a := by
  rw [agree?_eq, agree?_eq]
  grind

theorem agree?_self (a : Dim) : a.agree? a = some a := by
  rw [agree?_eq, if_pos (.inl rfl)]

theorem agree?_one (a : Dim) : a.agree? (.const 1) = some a := by
  rw [agree?_eq, if_pos (.inr rfl)]

theorem one_agree? (a : Dim) : (const 1).agree? a = some a := by
  rw [agree?_comm, agree?_one]

theorem agree?_of_ne_one {a b : Dim} (ha : a ≠ .const 1) (hb : b ≠ .const 1) :
    a.agree? b = if a = b then some a else none := by
  rw [agree?_eq, if_neg ha]
  simp only [hb, or_false]

/-- However three extents are grouped, they agree if those that are not the constant one are the
same. -/
theorem agree?_assoc (a b c : Dim) :
    (a.agree? b).bind (fun d => d.agree? c) = (b.agree? c).bind fun d => a.agree? d := by
  by_cases ha : a = .const 1
  · subst ha
    simp only [one_agree?, Option.bind_some, Option.bind_fun_some]
  by_cases hb : b = .const 1
  · subst hb
    rw [agree?_one, one_agree?, Option.bind_some, Option.bind_some]
  by_cases hc : c = .const 1
  · subst hc
    simp only [agree?_one, Option.bind_some, Option.bind_fun_some]
  -- away from one, agreeing is being the same
  rw [agree?_of_ne_one ha hb, agree?_of_ne_one hb hc]
  by_cases hab : a = b
  · subst hab
    rw [if_pos rfl, Option.bind_some, agree?_of_ne_one ha hc]
    split
    · rw [Option.bind_some, agree?_self]
    · rfl
  · rw [if_neg hab, Option.bind_none]
    split
    · rw [Option.bind_some, agree?_of_ne_one ha hb, if_neg hab]
    · rfl

end Dim

namespace Axes

/-- The extent of a shape along the axis with a number counted from the last, which is one where
there is no such axis. -/
def extentAt (shape : Shape) (k : Nat) : Dim := fromLast (.const 1) shape.dims k

variable {a b c s : Shape}

theorem fromLast_alignTo (rank : Nat) (dims : List Dim) (k : Nat) :
    fromLast (.const 1) (alignTo rank dims) k = fromLast (.const 1) dims k :=
  fromLast_replicate_append _ dims k

theorem length_pairs (a b : Shape) : (pairs a b).length = max a.rank b.rank := by
  rw [pairs, List.length_zip, length_alignTo_left, length_alignTo_right, Nat.min_self]

theorem fromLast_pairs (a b : Shape) (k : Nat) :
    fromLast (.const 1, .const 1) (pairs a b) k = (a.extentAt k, b.extentAt k) := by
  rw [pairs, fromLast_zip, fromLast_alignTo, fromLast_alignTo, extentAt, extentAt]
  rw [length_alignTo_left, length_alignTo_right]

theorem exists_of_joinFrom_eq_error {start reported : Nat} {pairs : List (Dim × Dim)}
    (h : joinFrom start pairs = .error reported) :
    ∃ axis, reported = start + axis ∧ (∃ p, pairs[axis]? = some p ∧ Apart (.const 1) p.1 p.2) ∧
    ∀ earlier < axis, ∀ p, pairs[earlier]? = some p → ¬ Apart (.const 1) p.1 p.2 := by
  induction pairs generalizing start with
  | nil => cases h
  | cons pair pairs ih =>
      obtain ⟨a, b⟩ := pair
      rw [joinFrom] at h
      cases hagree : a.agree? b with
      | none =>
          rw [hagree] at h
          cases h
          exact ⟨0, rfl, ⟨_, rfl, Dim.agree?_eq_none_iff.1 hagree⟩,
            fun _ hearlier => absurd hearlier (Nat.not_lt_zero _)⟩
      | some d =>
          rw [hagree] at h
          have hrest : joinFrom (start + 1) pairs = .error reported := by
            cases hjoin : joinFrom (start + 1) pairs with
            | ok dims =>
                rw [hjoin] at h
                cases h
            | error axis =>
                rw [hjoin] at h
                exact h
          obtain ⟨axis, rfl, hapart, hfirst⟩ := ih hrest
          refine ⟨axis + 1, by omega, hapart, fun earlier hearlier p hp => ?_⟩
          cases earlier with
          | zero =>
              obtain rfl := Option.some.inj hp
              intro happart
              rw [Dim.agree?_eq_none_iff.2 happart] at hagree
              cases hagree
          | succ earlier => exact hfirst earlier (Nat.lt_of_succ_lt_succ hearlier) p hp

/-- Two shapes have a common shape if at each axis, counted from the last, their extents have a
common extent, and those are its extents. -/
theorem broadcast_eq_ok_iff : a.broadcast b = .ok s ↔ s.rank = max a.rank b.rank ∧
    ∀ k, (a.extentAt k).agree? (b.extentAt k) = some (s.extentAt k) := by
  have hmissing : Dim.agree? (.const 1) (.const 1) = some (.const 1) := Dim.agree?_self _
  rw [broadcast_eq_ok_iff_joinFrom, joinFrom_eq_ok_iff,
    forall₂_iff_fromLast (.const 1, .const 1) (.const 1) hmissing, length_pairs, eq_comm]
  simp only [fromLast_pairs]
  rfl

theorem exists_apart_of_clash {axis : Nat} (h : Clash (.const 1) a.dims b.dims axis) :
    ∃ k, Apart (.const 1) (a.extentAt k) (b.extentAt k) := by
  obtain ⟨k, -, hapart⟩ := h
  exact ⟨k, hapart⟩

theorem clash_iff {axis : Nat} : Clash (.const 1) a.dims b.dims axis ↔
    ∃ p, (pairs a b)[axis]? = some p ∧ Apart (.const 1) p.1 p.2 := by
  constructor
  · rintro ⟨k, haxis, hapart⟩
    refine ⟨(a.extentAt k, b.extentAt k), ?_, hapart⟩
    rw [← fromLast_pairs]
    exact getElem?_eq_fromLast _ (haxis.trans (length_pairs a b).symm)
  · rintro ⟨p, hp, hapart⟩
    have hlt : axis < (pairs a b).length := (List.getElem?_eq_some_iff.1 hp).1
    obtain ⟨k, hk⟩ : ∃ k, axis + k + 1 = (pairs a b).length :=
      ⟨(pairs a b).length - axis - 1, by omega⟩
    rw [getElem?_eq_fromLast (.const 1, .const 1) hk, fromLast_pairs] at hp
    obtain rfl := Option.some.inj hp
    exact ⟨k, hk.trans (length_pairs a b), hapart⟩

/-- What fails is reported by the first axis, in the numbering of the longer shape, along which the
shapes are apart. -/
theorem clash_of_broadcast_eq_error {e : ShapeError} (h : a.broadcast b = .error e) :
    ∃ axis, e = .broadcastMismatch a.text b.text axis ∧ Clash (.const 1) a.dims b.dims axis ∧
    ∀ earlier < axis, ¬ Clash (.const 1) a.dims b.dims earlier := by
  rw [broadcast, ← pairs] at h
  cases hjoin : joinFrom 0 (pairs a b) with
  | ok dims =>
      rw [hjoin] at h
      cases h
  | error reported =>
      rw [hjoin] at h
      cases h
      obtain ⟨axis, rfl, hapart, hfirst⟩ := exists_of_joinFrom_eq_error hjoin
      refine ⟨0 + axis, rfl, ?_, fun earlier hearlier hclash => ?_⟩
      · rw [Nat.zero_add]
        exact clash_iff.2 hapart
      · obtain ⟨p, hp, hpapart⟩ := clash_iff.1 hclash
        exact hfirst earlier (Nat.zero_add axis ▸ hearlier) p hp hpapart

theorem exists_broadcast_eq_error_iff :
    (∃ e, a.broadcast b = .error e) ↔ ∃ axis, Clash (.const 1) a.dims b.dims axis := by
  constructor
  · rintro ⟨e, he⟩
    obtain ⟨axis, -, hclash, -⟩ := clash_of_broadcast_eq_error he
    exact ⟨axis, hclash⟩
  · rintro ⟨axis, hclash⟩
    obtain ⟨k, hapart⟩ := exists_apart_of_clash hclash
    cases h : a.broadcast b with
    | error e => exact ⟨e, rfl⟩
    | ok s =>
        have hagree := (broadcast_eq_ok_iff.1 h).2 k
        rw [Dim.agree?_eq_none_iff.2 hapart] at hagree
        cases hagree

/-- Extents that all agree are the extents of a shape. -/
theorem exists_broadcast (h : ∀ k, ∃ d, (a.extentAt k).agree? (b.extentAt k) = some d) :
    ∃ s, a.broadcast b = .ok s := by
  cases hbroadcast : a.broadcast b with
  | ok s => exact ⟨s, rfl⟩
  | error e =>
      obtain ⟨axis, hclash⟩ := exists_broadcast_eq_error_iff.1 ⟨e, hbroadcast⟩
      obtain ⟨k, hapart⟩ := exists_apart_of_clash hclash
      obtain ⟨d, hd⟩ := h k
      rw [Dim.agree?_eq_none_iff.2 hapart] at hd
      cases hd

/-! ### Laws -/

theorem broadcast_comm (a b s : Shape) : a.broadcast b = .ok s ↔ b.broadcast a = .ok s := by
  rw [broadcast_eq_ok_iff, broadcast_eq_ok_iff, Nat.max_comm]
  simp only [Dim.agree?_comm]

theorem broadcast_self (a : Shape) : a.broadcast a = .ok a :=
  broadcast_eq_ok_iff.2 ⟨(Nat.max_self _).symm, fun _ => Dim.agree?_self _⟩

theorem scalar_broadcast (a : Shape) : scalar.broadcast a = .ok a :=
  broadcast_eq_ok_iff.2 ⟨(Nat.zero_max _).symm, fun _ => Dim.one_agree? _⟩

/-- Broadcasting twice is taking the common extent of three extents at each axis. -/
theorem broadcast_broadcast_eq_ok_iff : (∃ t, a.broadcast b = .ok t ∧ t.broadcast c = .ok s) ↔
    s.rank = max (max a.rank b.rank) c.rank ∧ ∀ k, ((a.extentAt k).agree? (b.extentAt k)).bind
      (fun d => d.agree? (c.extentAt k)) = some (s.extentAt k) := by
  constructor
  · rintro ⟨t, hab, htc⟩
    obtain ⟨hrank, hextents⟩ := broadcast_eq_ok_iff.1 hab
    obtain ⟨hrank', hextents'⟩ := broadcast_eq_ok_iff.1 htc
    refine ⟨hrank ▸ hrank', fun k => ?_⟩
    rw [hextents k, Option.bind_some, hextents' k]
  · rintro ⟨hrank, hextents⟩
    obtain ⟨t, hab⟩ : ∃ t, a.broadcast b = .ok t := by
      apply exists_broadcast
      intro k
      obtain ⟨d, hd, -⟩ := Option.bind_eq_some_iff.1 (hextents k)
      exact ⟨d, hd⟩
    obtain ⟨hrank', hextents'⟩ := broadcast_eq_ok_iff.1 hab
    refine ⟨t, hab, broadcast_eq_ok_iff.2 ⟨hrank' ▸ hrank, fun k => ?_⟩⟩
    have hboth := hextents k
    rwa [hextents' k, Option.bind_some] at hboth

theorem broadcast_assoc (a b c s : Shape) : (∃ t, a.broadcast b = .ok t ∧ t.broadcast c = .ok s) ↔
    ∃ t, b.broadcast c = .ok t ∧ a.broadcast t = .ok s := by
  have hright : (∃ t, b.broadcast c = .ok t ∧ a.broadcast t = .ok s) ↔
      ∃ t, b.broadcast c = .ok t ∧ t.broadcast a = .ok s := by
    simp only [broadcast_comm a]
  have hrank : max (max a.rank b.rank) c.rank = max (max b.rank c.rank) a.rank := by omega
  rw [hright, broadcast_broadcast_eq_ok_iff, broadcast_broadcast_eq_ok_iff, hrank]
  simp only [Dim.agree?_assoc, Dim.agree?_comm (a.extentAt _)]

/-- Broadcasting is a partial operation on shapes that is commutative, idempotent and associative
and has the scalar shape as its unit: two sides of a law either have the same shape or have none. -/
theorem broadcast_monoid (a b c : Shape) :
    (∀ s, a.broadcast b = .ok s ↔ b.broadcast a = .ok s) ∧ a.broadcast a = .ok a ∧
    scalar.broadcast a = .ok a ∧
      ∀ s, (a.broadcast b >>= fun t => t.broadcast c) = .ok s ↔
      (b.broadcast c >>= fun t => a.broadcast t) = .ok s := by
  refine ⟨broadcast_comm a b, broadcast_self a, scalar_broadcast a, fun s => ?_⟩
  rw [except_bind_eq_ok, except_bind_eq_ok]
  exact broadcast_assoc a b c s

end Axes

end TensorDataflow
