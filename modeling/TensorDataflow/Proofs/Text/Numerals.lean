import Mathlib.Data.List.Basic
import Mathlib.Data.List.TakeWhile
import TensorDataflow.Text.Blank
import TensorDataflow.Text.Scan
/-!
# Decimal numerals

A natural number is written as digits only, with a zero in front for zero alone, and the digits have
the number's value. A reader that takes characters as long as they belong to a class takes exactly a
run of them. What is left of a text when the white space at its ends is taken away is determined by
the text.
-/

namespace TensorDataflow

/-- The digits of a number. -/
def numeral (n : Nat) : List Char := Nat.toDigits 10 n

theorem toList_toString (n : Nat) : (toString n).toList = numeral n := by
  rw [Nat.toString_eq_ofList_toDigits, String.toList_ofList, numeral]

theorem isDigit_of_mem_numeral (n : Nat) : ∀ c ∈ numeral n, isDigit c :=
  fun _ hc => Nat.isDigit_of_mem_toDigits (by omega) (by omega) hc

theorem numeral_ne_nil (n : Nat) : numeral n ≠ [] := Nat.toDigits_ne_nil

theorem toNat_of_isDigit {c : Char} (hc : isDigit c) : 48 ≤ c.toNat ∧ c.toNat ≤ 57 := by
  simpa [isDigit, Char.le_def, UInt32.le_iff_toNat_le] using hc

theorem not_isBlank_of_isDigit {c : Char} (hc : isDigit c) : ¬ isBlank c := by
  have hrange := toNat_of_isDigit hc
  simp only [isBlank, Bool.or_eq_true, Bool.and_eq_true, decide_eq_true_eq, beq_iff_eq]
  omega

theorem hexValue?_of_isDigit {c : Char} (hc : isDigit c) : hexValue? c = some (c.toNat - 48) := by
  rw [hexValue?, if_pos hc]

theorem digitsValue_eq {cs : List Char} (hcs : ∀ c ∈ cs, isDigit c) :
    digitsValue 10 cs = Nat.ofDigitChars 10 cs 0 := by
  rw [digitsValue, Nat.ofDigitChars_eq_foldl]
  apply List.foldl_ext
  intro n c hc
  rw [hexValue?_of_isDigit (hcs c hc), Option.getD_some, Nat.mul_comm]
  rfl

theorem digitsValue_numeral (n : Nat) : digitsValue 10 (numeral n) = n := by
  rw [digitsValue_eq (isDigit_of_mem_numeral n), numeral, Nat.ofDigitChars_ten_toDigits]

/-- Only zero begins with a zero. -/
theorem numeral_head {n : Nat} (h : (numeral n).head? = some '0') : numeral n = ['0'] := by
  induction n using Nat.strongRecOn with
  | _ n ih =>
      by_cases hsmall : n < 10
      · rw [numeral, Nat.toDigits_of_lt_base hsmall] at h ⊢
        simpa using h
      · have hsplit : numeral n = numeral (n / 10) ++ [(n % 10).digitChar] :=
          Nat.toDigits_of_base_le (by omega) (by omega)
        rw [hsplit, List.head?_append_of_ne_nil _ (numeral_ne_nil _)] at h
        have hzero := ih (n / 10) (by omega) h
        have hvalue := digitsValue_numeral (n / 10)
        rw [hzero, show digitsValue 10 ['0'] = 0 by decide] at hvalue
        omega

/-! ### Runs of characters -/

theorem takeWhile_run {p : Char → Bool} {cs rest : List Char} (hcs : ∀ c ∈ cs, p c)
    (hrest : ∀ c ∈ rest.head?, ¬ p c) : (cs ++ rest).takeWhile p = cs := by
  rw [List.takeWhile_append_of_pos hcs]
  cases rest with
  | nil => simp
  | cons c rest => simp [hrest c rfl]

theorem dropWhile_run {p : Char → Bool} {cs rest : List Char} (hcs : ∀ c ∈ cs, p c)
    (hrest : ∀ c ∈ rest.head?, ¬ p c) : (cs ++ rest).dropWhile p = rest := by
  rw [List.dropWhile_append_of_pos hcs]
  cases rest with
  | nil => rfl
  | cons c rest => simp [hrest c rfl]

theorem trimBlanks_of_none {cs : List Char} (h : ∀ c ∈ cs, ¬ isBlank c) : trimBlanks cs = cs := by
  have hfront : ∀ xs : List Char, (∀ c ∈ xs, ¬ isBlank c) → xs.dropWhile isBlank = xs := by
    intro xs hxs
    have hnone : ∀ c ∈ ([] : List Char), isBlank c := by simp
    exact dropWhile_run hnone fun c hc => hxs c (List.mem_of_mem_head? hc)
  rw [trimBlanks, hfront cs h, hfront cs.reverse (by simpa using h), List.reverse_reverse]

/-! ### White space at the ends -/

/-- What is left of a text when the white space at its ends is taken away. -/
structure Trims (cs core : List Char) : Prop where
  split : ∃ before after, cs = before ++ core ++ after ∧ (∀ c ∈ before, isBlank c) ∧
    ∀ c ∈ after, isBlank c
  first : ∀ c ∈ core.head?, ¬ isBlank c
  last : ∀ c ∈ core.getLast?, ¬ isBlank c

/-- A text is blank up to what is left of it when blank characters are dropped at its front. -/
theorem exists_dropWhile (p : Char → Bool) (cs : List Char) : ∃ front,
    cs = front ++ cs.dropWhile p ∧ (∀ c ∈ front, p c) ∧ ∀ c ∈ (cs.dropWhile p).head?, ¬ p c := by
  refine ⟨cs.takeWhile p, List.takeWhile_append_dropWhile.symm,
    fun c hc => List.mem_takeWhile_imp hc, ?_⟩
  intro c hc
  have hstop := List.head?_dropWhile_not p cs
  rw [Option.mem_def.1 hc] at hstop
  simp [hstop]

theorem trims_trimBlanks (cs : List Char) : Trims cs (trimBlanks cs) := by
  obtain ⟨before, hbefore, hblank, hfirst⟩ := exists_dropWhile isBlank cs
  obtain ⟨after, hafter, hblank', hlast⟩ := exists_dropWhile isBlank (cs.dropWhile isBlank).reverse
  have hsplit : cs.dropWhile isBlank = trimBlanks cs ++ after.reverse := by
    rw [trimBlanks, ← List.reverse_append, ← hafter, List.reverse_reverse]
  refine ⟨⟨before, after.reverse, ?_, hblank, by simpa using hblank'⟩, ?_, ?_⟩
  · rw [List.append_assoc, ← hsplit]
    exact hbefore
  · intro c hc
    apply hfirst c
    rw [hsplit, List.head?_append, Option.mem_def.1 hc]
    rfl
  · rw [trimBlanks, List.getLast?_reverse]
    exact hlast

/-- The white space at the ends of a text can be taken away in one way only. -/
theorem Trims.eq {cs core : List Char} (h : Trims cs core) : trimBlanks cs = core := by
  obtain ⟨before, after, rfl, hbefore, hafter⟩ := h.split
  cases core with
  | nil =>
      have hall : (before ++ [] ++ after).dropWhile isBlank = [] :=
        List.dropWhile_eq_nil_iff.2 (by simpa [or_imp, forall_and] using ⟨hbefore, hafter⟩)
      rw [trimBlanks, hall]
      rfl
  | cons c core =>
      have hfront : (before ++ (c :: core) ++ after).dropWhile isBlank = c :: core ++ after := by
        rw [List.append_assoc]
        exact dropWhile_run hbefore (by simpa using h.first c rfl)
      have hback : ((c :: core) ++ after).reverse.dropWhile isBlank = (c :: core).reverse := by
        rw [List.reverse_append]
        exact dropWhile_run (by simpa using hafter) (by rw [List.head?_reverse]; exact h.last)
      rw [trimBlanks, hfront, hback, List.reverse_reverse]

end TensorDataflow
