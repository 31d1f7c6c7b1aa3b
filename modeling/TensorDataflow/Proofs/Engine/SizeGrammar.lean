import TensorDataflow.Engine.ByteSize
import TensorDataflow.Proofs.Text.Numerals
/-!
# The grammar of sizes

A size is spelled as an optional plus sign, decimal digits, white space and a suffix in either case.
The units are tried in an order in which each comes before its own ending, and in front of a suffix
stands a digit or a blank, which is no letter: so the first unit that matches is the whole suffix,
and the reader accepts exactly the spellings whose number and whose count of bytes fit a machine
word, of those the ones that are not zero. Every character of a matched suffix takes one byte, so it
is cut off between two characters.
-/

namespace TensorDataflow

namespace ByteSize

/-- The suffixes of a size in capital letters, and how many bytes each counts. -/
def spellings : List (List Char × Nat) :=
  [([], 1), (['B'], 1), (['K'], 1024), (['K', 'B'], 1024), (['M'], 1024 * 1024),
    (['M', 'B'], 1024 * 1024), (['G'], 1024 * 1024 * 1024), (['G', 'B'], 1024 * 1024 * 1024)]

/-- A size as it may be spelled. -/
structure Spelling where
  signed : Bool
  digits : List Char
  gap : List Char
  suffix : List Char
  factor : Nat
  nonempty : digits ≠ []
  decimal : ∀ c ∈ digits, isDigit c
  blank : ∀ c ∈ gap, isBlank c
  known : (suffix.map Char.toUpper, factor) ∈ spellings

namespace Spelling

variable (s : Spelling)

def number : List Char := (if s.signed then ['+'] else []) ++ s.digits

def chars : List Char := s.number ++ s.gap ++ s.suffix

def value : Nat := Nat.ofDigitChars 10 s.digits 0

end Spelling

/-! ### Characters that end no unit -/

theorem toNat_of_toUpper {c : Char} (h : c.toUpper ∈ ['B', 'K', 'M', 'G']) :
    65 ≤ c.toNat ∧ c.toNat ≤ 90 ∨ 97 ≤ c.toNat ∧ c.toNat ≤ 122 := by
  by_cases hlower : 97 ≤ c.toNat ∧ c.toNat ≤ 122
  · exact .inr hlower
  · have hkept : c.toUpper = c :=
      dif_neg fun hc => hlower (by simpa [UInt32.le_iff_toNat_le] using hc)
    rw [hkept] at h
    simp only [List.mem_cons, List.not_mem_nil, or_false] at h
    rcases h with rfl | rfl | rfl | rfl <;> decide

theorem utf8Size_of_toUpper {c : Char} (h : c.toUpper ∈ ['B', 'K', 'M', 'G']) : c.utf8Size = 1 := by
  have hrange := toNat_of_toUpper h
  rw [Char.utf8Size_eq_one_iff, UInt32.le_iff_toNat_le]
  have hval : c.val.toNat = c.toNat := rfl
  have hbound : (127 : UInt32).toNat = 127 := rfl
  omega

theorem toUpper_not_mem {c : Char} (h : isDigit c ∨ isBlank c) :
    c.toUpper ∉ ['B', 'K', 'M', 'G'] := by
  intro hletter
  have hrange := toNat_of_toUpper hletter
  rcases h with hdigit | hblank
  · have := toNat_of_isDigit hdigit
    omega
  · simp only [isBlank, Bool.or_eq_true, Bool.and_eq_true, decide_eq_true_eq, beq_iff_eq] at hblank
    omega

/-! ### The suffix -/

theorem utf8ByteSize_ofList {cs : List Char} (h : ∀ c ∈ cs, c.utf8Size = 1) :
    (String.ofList cs).utf8ByteSize = cs.length := by
  induction cs with
  | nil => rfl
  | cons c cs ih =>
      rw [String.ofList_cons, String.utf8ByteSize_append, String.utf8ByteSize_singleton,
        h c List.mem_cons_self, ih fun d hd => h d (List.mem_cons_of_mem c hd),
        List.length_cons, Nat.add_comm]

theorem endsIn_iff {unit cs : List Char} :
    endsIn unit cs ↔ ∃ front tail, cs = front ++ tail ∧ tail.map Char.toUpper = unit := by
  rw [endsIn, List.isPrefixOf_iff_prefix, List.reverse_prefix]
  constructor
  · rintro ⟨front, hfront⟩
    obtain ⟨xs, tail, rfl, _, htail⟩ := List.map_eq_append_iff.1 hfront.symm
    exact ⟨xs, tail, rfl, htail⟩
  · rintro ⟨front, tail, rfl, rfl⟩
    exact ⟨front.map Char.toUpper, by rw [List.map_append]⟩

/-- A unit at the end of a text is cut off between two characters, and takes as many bytes as it has
letters. -/
theorem exists_tail {unit : List Char × Nat} (hunit : unit ∈ units) {cs : List Char}
    (h : endsIn unit.1 cs) :
    ∃ tail, cs = cs.take (cs.length - unit.1.length) ++ tail ∧ tail.map Char.toUpper = unit.1 ∧
    (String.ofList tail).utf8ByteSize = unit.1.length := by
  obtain ⟨front, tail, rfl, htail⟩ := endsIn_iff.1 h
  have hlength : tail.length = unit.1.length := by rw [← htail, List.length_map]
  have hletters : ∀ c ∈ unit.1, c ∈ ['B', 'K', 'M', 'G'] := by
    simp only [units, List.mem_cons, List.not_mem_nil, or_false] at hunit
    rcases hunit with rfl | rfl | rfl | rfl | rfl | rfl | rfl <;> simp
  have hsize : ∀ c ∈ tail, c.utf8Size = 1 :=
    fun c hc => utf8Size_of_toUpper (hletters _ (htail ▸ List.mem_map_of_mem hc))
  refine ⟨tail, ?_, htail, ?_⟩
  · rw [List.length_append, hlength, Nat.add_sub_cancel, List.take_left]
  · rw [utf8ByteSize_ofList hsize, hlength]

theorem splitUnit_sound (cs : List Char) : ∃ suffix, cs = (splitUnit cs).1 ++ suffix ∧
    (suffix.map Char.toUpper, (splitUnit cs).2) ∈ spellings := by
  rw [splitUnit]
  split
  · next unit bytes hfind =>
      have hunit := List.mem_of_find?_eq_some hfind
      have hends := List.find?_some hfind
      obtain ⟨tail, hsplit, htail, _⟩ := exists_tail hunit hends
      have hknown : ∀ u ∈ units, u ∈ spellings := by decide
      exact ⟨tail, hsplit, htail ▸ hknown _ hunit⟩
  · exact ⟨[], (List.append_nil cs).symm, by simp [spellings]⟩

/-- The first unit that matches is the whole suffix, for what stands before it is no letter of a
unit. -/
theorem find?_units {word rest : List Char} {c : Char} {factor : Nat}
    (hc : c ∉ ['B', 'K', 'M', 'G']) (hknown : (word, factor) ∈ spellings) :
    units.find? (fun u => u.1.reverse.isPrefixOf (word.reverse ++ c :: rest)) = if word = []
    then none else some (word, factor) := by
  simp only [List.mem_cons, List.not_mem_nil, or_false, not_or] at hc
  obtain ⟨hb, hk, hm, hg⟩ := hc
  simp only [spellings, List.mem_cons, Prod.mk.injEq, List.not_mem_nil, or_false] at hknown
  rcases hknown with ⟨rfl, rfl⟩ | ⟨rfl, rfl⟩ | ⟨rfl, rfl⟩ | ⟨rfl, rfl⟩ | ⟨rfl, rfl⟩ | ⟨rfl,
      rfl⟩ | ⟨rfl, rfl⟩ | ⟨rfl, rfl⟩ <;> simp [units, kib, mib, gib, Ne.symm hb, Ne.symm hk,
      Ne.symm hm, Ne.symm hg]

theorem splitUnit_append {front suffix : List Char} {last : Char}
    {factor : Nat} (hlast : last.toUpper ∉ ['B', 'K', 'M', 'G'])
    (hknown : (suffix.map Char.toUpper, factor) ∈ spellings) :
    splitUnit (front ++ [last] ++ suffix) = (front ++ [last], factor) := by
  have hends : ∀ unit, endsIn unit (front ++ [last] ++ suffix) = unit.reverse.isPrefixOf
      ((suffix.map Char.toUpper).reverse ++ last.toUpper :: (front.map Char.toUpper).reverse) := by
    intro unit
    rw [endsIn, List.map_append, List.map_append, List.reverse_append, List.reverse_append]
    rfl
  have hfind := @find?_units _ (front.map Char.toUpper).reverse _ _ hlast hknown
  simp only [← hends] at hfind
  rw [splitUnit, hfind]
  cases suffix with
  | nil =>
      have hfactor : factor = 1 := by simpa [spellings] using hknown
      rw [hfactor, List.append_nil]
      rfl
  | cons c suffix =>
      have hcut : (front ++ [last] ++ (c :: suffix)).length -
          ((c :: suffix).map Char.toUpper).length = (front ++ [last]).length := by
        rw [List.length_map, List.length_append, Nat.add_sub_cancel]
      simp only [List.map_cons, reduceCtorEq, if_false]
      rw [List.map_cons] at hcut
      rw [hcut, List.take_left]

/-! ### The number -/

theorem number?_number (s : Spelling) :
    number? s.number = if s.value < limit then some s.value else none := by
  have hdigits : (if s.number.head? = some '+' then s.number.drop 1 else s.number) = s.digits := by
    rw [Spelling.number]
    cases s.signed with
    | true => rfl
    | false =>
        have hhead : s.digits.head? ≠ some '+' :=
          fun h => absurd (s.decimal '+' (List.mem_of_mem_head? h)) (by decide)
        simp [hhead]
  have hempty : s.digits.isEmpty = false := List.isEmpty_eq_false_iff.2 s.nonempty
  have hall : s.digits.all isDigit = true := List.all_eq_true.2 s.decimal
  rw [number?, hdigits, hempty, hall, digitsValue_eq s.decimal]
  rfl

theorem exists_number {cs : List Char} {v : Nat} (h : number? cs = some v) :
    ∃ (signed : Bool) (digits : List Char), cs = (if signed then ['+'] else []) ++ digits ∧
    digits ≠ [] ∧ ∀ c ∈ digits, isDigit c := by
  by_cases hsign : cs.head? = some '+'
  · obtain ⟨rest, rfl⟩ : ∃ rest, cs = '+' :: rest := by
      cases cs with
      | nil => simp at hsign
      | cons c rest => exact ⟨rest, by simpa using hsign⟩
    have hgood : ¬ (rest.isEmpty || !rest.all isDigit) = true := by
      intro hbad
      simp [number?, hbad] at h
    simp only [Bool.or_eq_true, Bool.not_eq_true', not_or, List.isEmpty_iff, Bool.not_eq_false,
      List.all_eq_true] at hgood
    exact ⟨true, rest, rfl, hgood⟩
  · have hgood : ¬ (cs.isEmpty || !cs.all isDigit) = true := by
      intro hbad
      simp [number?, hsign, hbad] at h
    simp only [Bool.or_eq_true, Bool.not_eq_true', not_or, List.isEmpty_iff, Bool.not_eq_false,
      List.all_eq_true] at hgood
    exact ⟨false, cs, rfl, hgood⟩

namespace Spelling

variable (s : Spelling)

theorem getLast?_number : ∃ c, s.number.getLast? = some c ∧ isDigit c := by
  obtain ⟨front, last, hlast⟩ : ∃ front last, s.digits = front ++ [last] :=
    ⟨_, _, (List.dropLast_append_getLast s.nonempty).symm⟩
  refine ⟨last, ?_, s.decimal last (by simp [hlast])⟩
  rw [number, hlast, ← List.append_assoc, List.getLast?_concat]

theorem trims_number : Trims (s.number ++ s.gap) s.number := by
  refine ⟨⟨[], s.gap, rfl, by simp, s.blank⟩, ?_, ?_⟩
  · intro c hc
    have hmem : c ∈ s.number := List.mem_of_mem_head? hc
    rw [number, List.mem_append] at hmem
    rcases hmem with hsign | hdigit
    · have hplus : c = '+' := by
        split at hsign <;> simp_all
      subst hplus
      decide
    · exact not_isBlank_of_isDigit (s.decimal c hdigit)
  · intro c hc
    obtain ⟨d, hd, hdigit⟩ := s.getLast?_number
    rw [hd] at hc
    cases hc
    exact not_isBlank_of_isDigit hdigit

theorem splitUnit_chars : splitUnit s.chars = (s.number ++ s.gap, s.factor) := by
  obtain ⟨c, hc, hdigit⟩ := s.getLast?_number
  have hne : s.number ++ s.gap ≠ [] := by
    intro hnil
    rw [(List.append_eq_nil_iff.1 hnil).1] at hc
    cases hc
  have hsplit := List.dropLast_append_getLast hne
  have hlast : isDigit ((s.number ++ s.gap).getLast hne) ∨
      isBlank ((s.number ++ s.gap).getLast hne) := by
    by_cases hgap : s.gap = []
    · have hget : (s.number ++ s.gap).getLast hne = c := by
        apply Option.some.inj
        rw [← List.getLast?_eq_some_getLast, hgap, List.append_nil, hc]
      exact .inl (hget ▸ hdigit)
    · rw [List.getLast_append_of_ne_nil _ hgap]
      exact .inr (s.blank _ (List.getLast_mem hgap))
  rw [chars, ← hsplit]
  exact splitUnit_append (toUpper_not_mem hlast) s.known

theorem factor_pos : 0 < s.factor := by
  have hpos : ∀ u ∈ spellings, 0 < u.2 := by decide
  exact hpos _ s.known

end Spelling

/-- Where a number is read in front of the unit, the trimmed text is spelled as a size: no white
space can stand in front of the number, for none stands in front of the text. -/
theorem exists_spelling {cs core : List Char} (h : Trims cs core) {v : Nat}
    (hv : number? (trimBlanks (splitUnit core).1) = some v) : ∃ s : Spelling, s.chars = core := by
  obtain ⟨suffix, hcore, hknown⟩ := splitUnit_sound core
  obtain ⟨⟨before, gap, hfront, hbefore, hgap⟩, _, _⟩ := trims_trimBlanks (splitUnit core).1
  obtain ⟨signed, digits, hnumber, hnonempty, hdecimal⟩ := exists_number hv
  have hnone : before = [] := by
    cases before with
    | nil => rfl
    | cons c before =>
        have hhead : core.head? = some c := by rw [hcore, hfront]; rfl
        exact absurd (hbefore c List.mem_cons_self) (h.first c hhead)
  refine ⟨⟨signed, digits, gap, suffix, _, hnonempty, hdecimal, hgap, hknown⟩, ?_⟩
  rw [Spelling.chars, Spelling.number, ← hnumber]
  rw [hnone, List.nil_append] at hfront
  rw [← hfront]
  exact hcore.symm

/-! ### The reader -/

section

variable {text : String} {core : List Char}

/-- What a spelled size is read as: the number must fit a machine word, and so must the count of
bytes, which must not be zero. -/
theorem parse_spelled {s : Spelling} (h : Trims text.toList s.chars) :
    parse text = if limit ≤ s.value then .error (.invalidSize (String.ofList s.chars))
    else if limit ≤ s.value * s.factor then .error (.sizeOverflow (String.ofList s.chars))
      else if s.value * s.factor = 0 then .error (.zeroSize (String.ofList s.chars))
      else .ok ⟨s.value * s.factor⟩ := by
  unfold parse
  dsimp only
  rw [h.eq, s.splitUnit_chars]
  dsimp only
  rw [s.trims_number.eq, number?_number]
  by_cases hvalue : s.value < limit
  · rw [if_pos hvalue, if_neg (Nat.not_le.2 hvalue)]
  · rw [if_neg hvalue, if_pos (Nat.not_lt.1 hvalue)]

theorem parse_unspelled (h : Trims text.toList core) (hnone : ∀ s : Spelling, s.chars ≠ core) :
    parse text = .error (.invalidSize (String.ofList core)) := by
  unfold parse
  dsimp only
  rw [h.eq]
  cases hv : number? (trimBlanks (splitUnit core).1) with
  | none => rfl
  | some v =>
      obtain ⟨s, hs⟩ := exists_spelling h hv
      exact absurd hs (hnone s)

theorem spelled_of_parse (h : Trims text.toList core)
    (hparse : parse text ≠ .error (.invalidSize (String.ofList core))) :
    ∃ s : Spelling, s.chars = core := by
  by_contra hnone
  exact hparse (parse_unspelled h (not_exists.1 hnone))

theorem parse_eq_ok_iff (h : Trims text.toList core) {n : Nat} : parse text = .ok ⟨n⟩ ↔ ∃ s :
    Spelling, s.chars = core ∧ s.value < limit ∧ n = s.value * s.factor ∧ 0 < n ∧ n < limit := by
  constructor
  · intro hparse
    obtain ⟨s, rfl⟩ := spelled_of_parse h (by rw [hparse]; simp)
    rw [parse_spelled h] at hparse
    split at hparse
    · cases hparse
    · split at hparse
      · cases hparse
      · split at hparse
        · cases hparse
        · injection hparse with hparse
          injection hparse with hn
          exact ⟨s, rfl, by omega, hn.symm, by omega, by omega⟩
  · rintro ⟨s, rfl, hvalue, rfl, hpos, hlimit⟩
    rw [parse_spelled h, if_neg (by omega), if_neg (by omega), if_neg (by omega)]

theorem parse_eq_invalidSize_iff (h : Trims text.toList core) :
    parse text = .error (.invalidSize (String.ofList core)) ↔ ∀ s : Spelling, s.chars = core →
    limit ≤ s.value := by
  constructor
  · rintro hparse s rfl
    by_contra hvalue
    rw [parse_spelled h, if_neg hvalue] at hparse
    split at hparse
    · cases hparse
    · split at hparse <;> cases hparse
  · intro hgreat
    by_cases hspelled : ∃ s : Spelling, s.chars = core
    · obtain ⟨s, rfl⟩ := hspelled
      rw [parse_spelled h, if_pos (hgreat s rfl)]
    · exact parse_unspelled h (not_exists.1 hspelled)

theorem parse_eq_sizeOverflow_iff (h : Trims text.toList core) :
    parse text = .error (.sizeOverflow (String.ofList core)) ↔
    ∃ s : Spelling, s.chars = core ∧ s.value < limit ∧ limit ≤ s.value * s.factor := by
  constructor
  · intro hparse
    obtain ⟨s, rfl⟩ := spelled_of_parse h (by rw [hparse]; simp)
    rw [parse_spelled h] at hparse
    split at hparse
    · cases hparse
    · split at hparse
      · exact ⟨s, rfl, by omega, by assumption⟩
      · split at hparse <;> cases hparse
  · rintro ⟨s, rfl, hvalue, hgreat⟩
    rw [parse_spelled h, if_neg (by omega), if_pos hgreat]

theorem parse_eq_zeroSize_iff (h : Trims text.toList core) : parse text =
      .error (.zeroSize (String.ofList core)) ↔ ∃ s : Spelling, s.chars = core ∧ s.value = 0 := by
  constructor
  · intro hparse
    obtain ⟨s, rfl⟩ := spelled_of_parse h (by rw [hparse]; simp)
    rw [parse_spelled h] at hparse
    split at hparse
    · cases hparse
    · split at hparse
      · cases hparse
      · split at hparse
        · next hzero =>
            exact ⟨s, rfl, (Nat.mul_eq_zero.1 hzero).resolve_right (Nat.ne_of_gt s.factor_pos)⟩
        · cases hparse
  · rintro ⟨s, rfl, hzero⟩
    have hlimit : ¬ limit ≤ 0 := by decide
    rw [parse_spelled h, hzero, Nat.zero_mul, if_neg hlimit, if_neg hlimit, if_pos rfl]

end

/-- A text is read as a size exactly when, without the white space at its ends, it is spelled as one
whose number and whose count of bytes fit a machine word, and the count is not zero. Of the other
texts, those that are not spelled as a size, or have too great a number, are invalid, those whose
count is too great overflow, and the rest is zero; and a unit that is found at the end of the text
is cut off at a boundary of characters, as many bytes in front of the end as the unit has
letters. -/
theorem parse_exact (text : String) :
    (∀ n, parse text = .ok ⟨n⟩ ↔ ∃ s : Spelling, Trims text.toList s.chars ∧ s.value < limit ∧
      n = s.value * s.factor ∧ 0 < n ∧ n < limit) ∧
      ∃ core, Trims text.toList core ∧
        (parse text = .error (.invalidSize (String.ofList core)) ↔ ∀ s : Spelling, s.chars = core →
          limit ≤ s.value) ∧
        (parse text = .error (.sizeOverflow (String.ofList core)) ↔
          ∃ s : Spelling, s.chars = core ∧ s.value < limit ∧ limit ≤ s.value * s.factor) ∧
        (parse text = .error (.zeroSize (String.ofList core)) ↔
          ∃ s : Spelling, s.chars = core ∧ s.value = 0) ∧
        ∀ unit ∈ units, endsIn unit.1 core →
        ∃ tail, String.ofList core = String.ofList (core.take (core.length - unit.1.length)) ++
          tail ∧ tail.utf8ByteSize = unit.1.length := by
  have hcore := trims_trimBlanks text.toList
  refine ⟨?_, _, hcore, parse_eq_invalidSize_iff hcore, parse_eq_sizeOverflow_iff hcore,
    parse_eq_zeroSize_iff hcore, ?_⟩
  · intro n
    constructor
    · intro hparse
      obtain ⟨s, hs, hsize⟩ := (parse_eq_ok_iff hcore).1 hparse
      exact ⟨s, hs ▸ hcore, hsize⟩
    · rintro ⟨s, hs, hsize⟩
      exact (parse_eq_ok_iff hs).2 ⟨s, rfl, hsize⟩
  · intro unit hunit hends
    obtain ⟨tail, hsplit, _, hsize⟩ := exists_tail hunit hends
    refine ⟨String.ofList tail, ?_, hsize⟩
    rw [← String.ofList_append, ← hsplit]

/-- The white space may be of any kind, a sign and a letter of either case may stand at the number,
and a letter that only looks like a unit is none. -/
example : parse "\u2003+0512 kB\n" = .ok ⟨524288⟩ ∧
    parse "7\u212a" = .error (.invalidSize "7\u212a") := by
  decide +kernel

end ByteSize

end TensorDataflow
