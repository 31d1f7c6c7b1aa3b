/-!
# Numbered slots

Values that are handed out by number. Numbers count up from zero in the order of creation and are
never given out again: a slot that is used up stays empty.
-/

namespace TensorDataflow

/-- Values by number; a used-up slot holds nothing. -/
structure Slots (α : Type) where
  entries : List (Option α) := []
  deriving DecidableEq, Repr, Inhabited

namespace Slots

variable {α : Type}

def empty : Slots α := {}

def get? (s : Slots α) (n : Nat) : Option α := s.entries[n]?.join

/-- Puts a value into the next slot. -/
def add (s : Slots α) (a : α) : Nat × Slots α := (s.entries.length, ⟨s.entries ++ [some a]⟩)

/-- Replaces what a slot holds. -/
def set (s : Slots α) (n : Nat) (a : α) : Slots α := ⟨s.entries.set n (some a)⟩

/-- Uses a slot up. -/
def erase (s : Slots α) (n : Nat) : Slots α := ⟨s.entries.set n none⟩

/-! ### What the numbers stand for -/

@[simp] theorem get?_empty (n : Nat) : (empty : Slots α).get? n = none := by simp [empty, get?]

/-- A value that is added has the number that is answered with it, and all others keep theirs. -/
theorem get?_add (s : Slots α) (a : α) (n : Nat) :
    (s.add a).2.get? n = if n = (s.add a).1 then some a else s.get? n := by
  grind [add, get?]

theorem get?_set (s : Slots α) {n : Nat} (k : Nat) (a : α) (h : n < s.entries.length) :
    (s.set n a).get? k = if k = n then some a else s.get? k := by
  grind [set, get?]

theorem get?_erase (s : Slots α) (n k : Nat) :
    (s.erase n).get? k = if k = n then none else s.get? k := by
  grind [erase, get?]

end Slots

end TensorDataflow
