import Std.Data.TreeMap
/-!
# Thinned lists

A list is thinned by keeping only the first few occurrences of each number. Thinning leaves the
first occurrence of every number where it is (`eraseDups_append_thin`), a list that loses anything
is still long (`thin_eq_or_le_length`), and it can be done before numbers are replaced by lists as
well as after (`thin_flatMap_thin`).
-/

namespace TensorDataflow

/-- A count for each number, zero where none is kept. -/
abbrev Tally := Std.TreeMap Nat Nat

namespace Tally

def count (t : Tally) (a : Nat) : Nat := t.getD a 0

def put (t : Tally) (a n : Nat) : Tally := t.insert a n

@[simp] theorem count_empty (a : Nat) : count ∅ a = 0 := Std.TreeMap.getD_emptyc

theorem count_put (t : Tally) (a n b : Nat) :
    (t.put a n).count b = if a = b then n else t.count b := by
  simp [count, put, Std.TreeMap.getD_insert]

end Tally

/-- Keeps each number only as often as `cap` allows, where `kept` says how often it has been kept
before. -/
def thinFrom (cap : Nat) (kept : Tally) : List Nat → List Nat
  | [] => []
  | a :: rest =>
      if kept.count a < cap then a :: thinFrom cap (kept.put a (kept.count a + 1)) rest
      else thinFrom cap kept rest

/-- Keeps the first `cap` occurrences of each number. -/
def thin (cap : Nat) (xs : List Nat) : List Nat := thinFrom cap ∅ xs

/-- How often each number has been kept at the end of a list. -/
def keptAfter (cap : Nat) (kept : Tally) : List Nat → Tally
  | [] => kept
  | a :: rest =>
      keptAfter cap (if kept.count a < cap then kept.put a (kept.count a + 1) else kept) rest

theorem thinFrom_append (cap : Nat) (kept : Tally) (xs ys : List Nat) :
    thinFrom cap kept (xs ++ ys) = thinFrom cap kept xs ++
      thinFrom cap (keptAfter cap kept xs) ys := by
  induction xs generalizing kept with
  | nil => rfl
  | cons a xs ih =>
      by_cases h : kept.count a < cap <;> simp [thinFrom, keptAfter, h, ih]

theorem count_le_keptAfter (cap : Nat) (kept : Tally) (xs : List Nat) (a : Nat) :
    kept.count a ≤ (keptAfter cap kept xs).count a := by
  induction xs generalizing kept with
  | nil => exact Nat.le_refl _
  | cons b xs ih =>
      rw [keptAfter]
      refine Nat.le_trans ?_ (ih _)
      by_cases h : kept.count b < cap
      · rw [if_pos h, Tally.count_put]
        by_cases hb : b = a
        · subst hb
          simp
        · simp [hb]
      · simp [h]

theorem lt_keptAfter {cap : Nat} {kept : Tally} {xs : List Nat} {a : Nat} (ha : a ∈ xs)
    (h : kept.count a < cap) :
    kept.count a < (keptAfter cap kept xs).count a := by
  induction xs generalizing kept with
  | nil => cases ha
  | cons b xs ih =>
      rw [keptAfter]
      by_cases hb : b = a
      · subst hb
        rw [if_pos h]
        refine Nat.lt_of_lt_of_le ?_ (count_le_keptAfter cap _ xs b)
        simp [Tally.count_put]
      · have hmem : a ∈ xs := by
          cases ha with
          | head => exact absurd rfl hb
          | tail _ hmem => exact hmem
        by_cases hlt : kept.count b < cap
        · rw [if_pos hlt]
          have hsame : (kept.put b (kept.count b + 1)).count a = kept.count a := by
            simp [Tally.count_put, hb]
          rw [← hsame]
          exact ih hmem (by rw [hsame]; exact h)
        · rw [if_neg hlt]
          exact ih hmem h

/-- A list of numbers that have all been kept often enough is thinned to nothing, and leaves the
counts as they are. -/
theorem thinFrom_eq_nil (cap : Nat) (kept : Tally) (xs : List Nat)
    (h : ∀ a ∈ xs, cap ≤ kept.count a) :
    thinFrom cap kept xs = [] ∧ keptAfter cap kept xs = kept := by
  induction xs with
  | nil => exact ⟨rfl, rfl⟩
  | cons a xs ih =>
      have ha : ¬ kept.count a < cap := Nat.not_lt.2 (h a List.mem_cons_self)
      rw [thinFrom, keptAfter, if_neg ha, if_neg ha]
      exact ih fun b hb => h b (List.mem_cons_of_mem a hb)

theorem thinFrom_flatMap_thinFrom (f : Nat → List Nat) (cap : Nat) (kept told : Tally)
    (xs : List Nat)
    (h : ∀ a, ∀ s ∈ f a, kept.count a ≤ told.count s) :
    thinFrom cap told ((thinFrom cap kept xs).flatMap f) = thinFrom cap told (xs.flatMap f) := by
  induction xs generalizing kept told with
  | nil => rfl
  | cons a xs ih =>
      by_cases ha : kept.count a < cap
      · rw [thinFrom, if_pos ha, List.flatMap_cons, List.flatMap_cons, thinFrom_append,
          thinFrom_append, ih]
        intro b s hs
        have hle := count_le_keptAfter cap told (f a) s
        rw [Tally.count_put]
        by_cases hab : a = b
        · subst hab
          rw [if_pos rfl]
          by_cases hlt : told.count s < cap
          · exact Nat.le_trans (Nat.succ_le_succ (h a s hs)) (lt_keptAfter hs hlt)
          · omega
        · rw [if_neg hab]
          exact Nat.le_trans (h b s hs) hle
      · obtain ⟨hnil, hkept⟩ :=
          thinFrom_eq_nil cap told (f a) fun s hs => Nat.le_trans (Nat.not_lt.1 ha) (h a s hs)
        rw [thinFrom, if_neg ha, List.flatMap_cons, thinFrom_append, hnil, hkept,
          List.nil_append, ih _ _ h]

/-- What thinned numbers stand for, thinned, is what all of them stand for, thinned. -/
theorem thin_flatMap_thin (f : Nat → List Nat) (cap : Nat) (xs : List Nat) :
    thin cap ((thin cap xs).flatMap f) = thin cap (xs.flatMap f) :=
  thinFrom_flatMap_thinFrom f cap ∅ ∅ xs fun _ _ _ => by simp

theorem thin_eq_nil_iff {cap : Nat} (h : 0 < cap) {xs : List Nat} : thin cap xs = [] ↔ xs = [] := by
  cases xs with
  | nil => simp [thin, thinFrom]
  | cons a xs => simp [thin, thinFrom, h]

theorem thinFrom_eq_or_count (cap : Nat) (kept : Tally) (xs : List Nat) :
    thinFrom cap kept xs = xs ∨ ∃ a, cap ≤ kept.count a + (thinFrom cap kept xs).count a := by
  induction xs generalizing kept with
  | nil => exact .inl rfl
  | cons a xs ih =>
      by_cases ha : kept.count a < cap
      · rw [thinFrom, if_pos ha]
        rcases ih (kept.put a (kept.count a + 1)) with hsame | ⟨b, hb⟩
        · exact .inl (by rw [hsame])
        · refine .inr ⟨b, ?_⟩
          rw [Tally.count_put] at hb
          by_cases hab : a = b
          · subst hab
            rw [if_pos rfl] at hb
            rw [List.count_cons_self]
            omega
          · rw [if_neg hab] at hb
            rw [List.count_cons_of_ne hab]
            exact hb
      · rw [thinFrom, if_neg ha]
        exact .inr ⟨a, Nat.le_trans (Nat.not_lt.1 ha) (Nat.le_add_right _ _)⟩

/-- A list that loses anything keeps at least `cap` of its members. -/
theorem thin_eq_or_le_length (cap : Nat) (xs : List Nat) :
    thin cap xs = xs ∨ cap ≤ (thin cap xs).length := by
  rcases thinFrom_eq_or_count cap ∅ xs with hsame | ⟨a, ha⟩
  · exact .inl hsame
  · rw [Tally.count_empty, Nat.zero_add] at ha
    exact .inr (Nat.le_trans ha List.count_le_length)

theorem length_thinFrom_le (cap : Nat) (kept : Tally) (xs : List Nat) :
    (thinFrom cap kept xs).length ≤ xs.length := by
  induction xs generalizing kept with
  | nil => exact Nat.le_refl 0
  | cons a xs ih =>
      rw [thinFrom]
      split
      · exact Nat.succ_le_succ (ih _)
      · exact Nat.le_succ_of_le (ih _)

theorem eraseDups_append_cons_of_mem {front : List Nat} {a : Nat} (ha : a ∈ front)
    (rest : List Nat) :
    (front ++ a :: rest).eraseDups = (front ++ rest).eraseDups := by
  rw [List.eraseDups_append, List.eraseDups_append, List.cons_removeAll]
  simp [ha]

theorem eraseDups_append_thinFrom {cap : Nat} (kept : Tally) (front xs : List Nat) (hcap : 0 < cap)
    (h : ∀ a, 0 < kept.count a → a ∈ front) :
    (front ++ thinFrom cap kept xs).eraseDups = (front ++ xs).eraseDups := by
  induction xs generalizing kept front with
  | nil => rfl
  | cons a xs ih =>
      by_cases ha : kept.count a < cap
      · rw [thinFrom, if_pos ha]
        have hnext := ih (kept.put a (kept.count a + 1)) (front ++ [a]) fun b hb => by
          rw [Tally.count_put] at hb
          by_cases hab : a = b
          · simp [hab]
          · rw [if_neg hab] at hb
            exact List.mem_append_left _ (h b hb)
        rwa [List.append_assoc, List.append_assoc] at hnext
      · rw [thinFrom, if_neg ha, ih kept front h, eraseDups_append_cons_of_mem (h a (by omega))]

/-- Thinning leaves the first occurrence of every number where it is. -/
theorem eraseDups_append_thin {cap : Nat} (hcap : 0 < cap) (front xs : List Nat) :
    (front ++ thin cap xs).eraseDups = (front ++ xs).eraseDups :=
  eraseDups_append_thinFrom ∅ front xs hcap fun a ha => by simp at ha

end TensorDataflow
