import TensorDataflow.Proofs.Text.Numerals
import TensorDataflow.Toml.Writer
/-!
# Lines of assignments

A line that assigns a text in quotes or an unquoted value to one bare key is read as that
assignment, and a document of such lines as the list of them. The lengths that bound the reader's
loops are those of the whole document, so they never run out inside a line.
-/

namespace TensorDataflow

namespace Scan

variable {α β : Type}

@[simp] theorem bind_apply (x : Scan α) (f : α → Scan β) (n : Nat) (cs : List Char) :
    (x >>= f) n cs = (x n cs).bind fun p => f p.1 n p.2 := by
  show Option.bind _ _ = _
  cases x n cs <;> rfl

@[simp] theorem map_apply (f : α → β) (x : Scan α) (n : Nat) (cs : List Char) :
    (f <$> x) n cs = (x n cs).map fun p => (f p.1, p.2) := by
  show Option.bind _ _ = _
  cases x n cs <;> rfl

@[simp] theorem pure_apply (a : α) (n : Nat) (cs : List Char) :
    (pure a : Scan α) n cs = some (a, cs) :=
  rfl

@[simp] theorem peek?_apply (n : Nat) (cs : List Char) : peek? n cs = some (cs.head?, cs) := rfl

@[simp] theorem next_cons (n : Nat) (c : Char) (cs : List Char) : next n (c :: cs) = some (c, cs) :=
  rfl

@[simp] theorem bound_apply (n : Nat) (cs : List Char) : bound n cs = some (n, cs) := rfl

@[simp] theorem get_apply (n : Nat) (cs : List Char) :
    (get : Scan (List Char)) n cs = some (cs, cs) :=
  rfl

@[simp] theorem expect_cons (n : Nat) (c : Char) (cs : List Char) :
    expect c n (c :: cs) = some ((), cs) := by
  simp [expect]

theorem accept_apply (word : List Char) (n : Nat) (cs : List Char) : accept word n cs =
      if word.isPrefixOf cs then some (true, cs.drop word.length) else some (false, cs) :=
  rfl

/-- Nothing is accepted where another character stands in front. -/
theorem accept_of_ne {c d : Char} (h : d ≠ c) (word : List Char) (n : Nat) (cs : List Char) :
    accept (c :: word) n (d :: cs) = some (false, d :: cs) := by
  simp [accept_apply, h.symm]

theorem takeWhile_apply {p : Char → Bool} {cs rest : List Char} (hcs : ∀ c ∈ cs, p c)
    (hrest : ∀ c ∈ rest.head?, ¬ p c) (n : Nat) : takeWhile p n (cs ++ rest) = some (cs, rest) := by
  rw [takeWhile, takeWhile_run hcs hrest, dropWhile_run hcs hrest]

end Scan

namespace TomlValue

open Scan

theorem skipSpaces_apply {c : Char} (hc : ¬ isSpace c) (n : Nat) (cs : List Char) :
    skipSpaces n (c :: cs) = some ((), c :: cs) := by
  rw [skipSpaces, skipWhile, List.dropWhile_cons_of_neg hc]

theorem skipSpaces_blank {c : Char} (hc : ¬ isSpace c) (n : Nat) (cs : List Char) :
    skipSpaces n (' ' :: c :: cs) = some ((), c :: cs) := by
  rw [skipSpaces, skipWhile, List.dropWhile_cons_of_pos rfl, List.dropWhile_cons_of_neg hc]

/-! ### Values -/

theorem isQuotable_iff {c : Char} : isQuotable c ↔ isPlain c ∧ c ≠ '"' ∧ c ≠ '\\' := by
  simp [isQuotable, and_assoc]

theorem basicRest_apply {cs : List Char} (hcs : ∀ c ∈ cs, isQuotable c) {fuel : Nat}
    (hfuel : cs.length < fuel) (n : Nat) (rest : List Char) :
    basicRest fuel n (cs ++ '"' :: rest) = some (cs, rest) := by
  induction cs generalizing fuel with
  | nil =>
      obtain ⟨fuel, rfl⟩ := Nat.exists_eq_add_of_lt hfuel
      simp [basicRest]
  | cons c cs ih =>
      obtain ⟨fuel, rfl⟩ : ∃ k, fuel = k + 1 := Nat.exists_eq_add_of_le' (by omega)
      obtain ⟨hplain, hquote, hslash⟩ := isQuotable_iff.1 (hcs c List.mem_cons_self)
      have hrest : basicRest fuel n (cs ++ '"' :: rest) = some (cs, rest) :=
        ih (fun c hc => hcs c (List.mem_cons_of_mem _ hc)) (by simpa using hfuel)
      simp [basicRest, hplain, hrest]

/-- A text in quotes is read as the text. -/
theorem value_quoted {cs : List Char} (hcs : ∀ c ∈ cs, isQuotable c) (hne : cs ≠ []) {n : Nat}
    (hn : cs.length < n) (depth fuel : Nat) (rest : List Char) :
    value depth (fuel + 1) n ('"' :: (cs ++ '"' :: rest)) =
      some (text (String.ofList cs), rest) := by
  obtain ⟨c, cs, rfl⟩ := List.exists_cons_of_ne_nil hne
  have hquote := (isQuotable_iff.1 (hcs c List.mem_cons_self)).2.1
  have hrest := basicRest_apply hcs hn n rest
  rw [List.cons_append] at hrest ⊢
  simp [value, quoted, accept_of_ne hquote, hrest]

/-- An unquoted value begins with none of the characters that the other forms begin with. -/
theorem value_eq_bare {c : Char} (hc : isBareChar c) (depth fuel n : Nat) (cs : List Char) :
    value depth (fuel + 1) n (c :: cs) = bare n (c :: cs) := by
  simp only [value, bind_apply, peek?_apply, Option.bind_some, List.head?_cons]
  apply congrFun
  apply congrFun
  generalize ho : some c = o
  split
  case h_5 => rfl
  all_goals
    rw [Option.some.inj ho] at hc
    exact absurd hc (by decide)

/-- An unquoted value ends with its line. -/
theorem value_bare {cs : List Char} (hcs : ∀ c ∈ cs, isBareChar c) (hne : cs ≠ []) {v : TomlValue}
    (hv : ofBare? cs = some v) (depth fuel n : Nat) (rest : List Char) :
    value depth (fuel + 1) n (cs ++ '\n' :: rest) = some (v, '\n' :: rest) := by
  have hend : ∀ c ∈ ('\n' :: rest).head?, ¬ isBareChar c := by
    simp [isBareChar, isBareKeyChar, isDigit]
  have htake := takeWhile_apply hcs hend n
  have hbare : bare n (cs ++ '\n' :: rest) = some (v, '\n' :: rest) := by
    simp [bare, htake, continuesDate, hv]
  obtain ⟨c, cs, rfl⟩ := List.exists_cons_of_ne_nil hne
  rw [← hbare, List.cons_append]
  exact value_eq_bare (hcs c List.mem_cons_self) depth fuel n _

theorem groupedDigits?_of_forall {p : Char → Bool} (hp : ¬ p '_') {cs : List Char}
    (hcs : ∀ c ∈ cs, p c) (hne : cs ≠ []) : groupedDigits? p cs = some cs := by
  fun_induction groupedDigits? p cs with
  | case1 => exact absurd rfl hne
  | case2 c _ => rfl
  | case3 c hc => exact absurd (hcs c (by simp)) hc
  | case4 c rest => exact absurd (hcs '_' (by simp)) hp
  | case5 c rest => exact absurd (hcs '_' (by simp)) hp
  | case6 c rest hrest _ _ ih =>
      rw [ih (fun c hc => hcs c (List.mem_cons_of_mem _ hc)) hrest, Option.map_some]
  | case7 c rest _ _ hc => exact absurd (hcs c (by simp)) hc

theorem splitSign_of_digits {cs : List Char} (hcs : ∀ c ∈ cs, isDigit c) :
    splitSign cs = (none, cs) := by
  unfold splitSign
  split
  · exact absurd (hcs '+' (by simp)) (by decide)
  · exact absurd (hcs '-' (by simp)) (by decide)
  · rfl

theorem decimal?_numeral (n : Nat) : decimal? (numeral n) = some n := by
  have hdigits := isDigit_of_mem_numeral n
  have hgrouped := groupedDigits?_of_forall (by decide) hdigits (numeral_ne_nil n)
  have hlead : ¬ ((numeral n).head? = some '0' ∧ 1 < (numeral n).length) := by
    intro ⟨hhead, hlength⟩
    rw [numeral_head hhead] at hlength
    simp at hlength
  simp [decimal?, hgrouped, hlead, digitsValue_numeral]

theorem integerText?_numeral {n : Nat} (hn : n < 0x8000000000000000) :
    integerText? (numeral n) = some (n : Int) := by
  have hdigits := isDigit_of_mem_numeral n
  have hrange : -0x8000000000000000 ≤ (n : Int) ∧ (n : Int) < 0x8000000000000000 := by omega
  have hunsigned : (if (none : Option Char) = some '-' then -(n : Int) else n) = n :=
    if_neg (by simp)
  -- behind a first zero there is no mark of another base
  have hmark : ∀ {c : Char}, ¬ isDigit c → ∀ ds, numeral n = '0' :: c :: ds → False :=
    fun hc ds h => hc (hdigits _ (by simp [h]))
  rw [integerText?.eq_4 _ (hmark (by decide)) (hmark (by decide)) (hmark (by decide)),
    splitSign_of_digits hdigits]
  dsimp only
  rw [decimal?_numeral, Option.bind_eq_bind, Option.bind_some, hunsigned, Option.pure_def,
    Option.bind_eq_bind, Option.bind_some, if_pos hrange]

/-- Digits are read as their number, if a signed word holds it and there is no zero in front. -/
theorem ofBare?_numeral {n : Nat} (hn : n < 0x8000000000000000) :
    ofBare? (numeral n) = some (integer n) := by
  have hdigits := isDigit_of_mem_numeral n
  have htrue : numeral n ≠ "true".toList := fun h => absurd (hdigits 't' (by simp [h])) (by decide)
  have hfalse : numeral n ≠ "false".toList :=
    fun h => absurd (hdigits 'f' (by simp [h])) (by decide)
  rw [ofBare?, if_neg htrue, if_neg hfalse, integerText?_numeral hn]

/-! ### Lines -/

theorem simpleKey_apply {key : List Char} (hkey : ∀ c ∈ key, isBareKeyChar c) (hne : key ≠ [])
    {rest : List Char} (hrest : ∀ c ∈ rest.head?, ¬ isBareKeyChar c) (n : Nat) :
    simpleKey n (key ++ rest) = some (String.ofList key, rest) := by
  have htake := takeWhile_apply hkey hrest n
  obtain ⟨c, key, rfl⟩ := List.exists_cons_of_ne_nil hne
  have hc := hkey c List.mem_cons_self
  simp only [simpleKey, bind_apply, peek?_apply, Option.bind_some, List.cons_append,
    List.head?_cons]
  generalize ho : some c = o
  split
  case h_3 =>
    rw [List.cons_append] at htake
    simp [htake]
  all_goals
    rw [Option.some.inj ho] at hc
    exact absurd hc (by decide)

theorem dottedKey_apply {key : List Char} (hkey : ∀ c ∈ key, isBareKeyChar c) (hne : key ≠ [])
    (parts n : Nat) (rest : List Char) :
    dottedKey (parts + 1) n (key ++ ' ' :: '=' :: rest) =
      some (([], String.ofList key), '=' :: rest) := by
  have hend : ∀ c ∈ (' ' :: '=' :: rest).head?, ¬ isBareKeyChar c := by
    simp [isBareKeyChar, isDigit]
  have hsimple := simpleKey_apply hkey hne hend n
  simp [dottedKey, hsimple, skipSpaces_blank (c := '=') (by decide),
    accept_of_ne (c := '.') (d := '=') (by decide)]

theorem length_le_document (lines : List (List Char)) : lines.length ≤ (document lines).length := by
  induction lines with
  | nil => simp
  | cons line lines ih =>
      simp only [document, List.flatMap_cons, List.length_append, List.length_cons,
          List.length_nil] at ih ⊢
      omega

theorem length_lt_document {lines : List (List Char)} {line : List Char} (h : line ∈ lines) :
    line.length < (document lines).length := by
  induction lines with
  | nil => simp at h
  | cons first lines ih =>
      simp only [document, List.flatMap_cons, List.length_append, List.length_cons,
          List.length_nil] at ih ⊢
      rcases List.mem_cons.1 h with rfl | h
      · omega
      · have := ih h
        omega

/-- A text that is read as a value wherever a line end follows it, in a document of the given
length. -/
structure Reads (n : Nat) (text : List Char) (v : TomlValue) : Prop where
  front : ∀ c ∈ text.head?, ¬ isSpace c
  nonempty : text ≠ []
  value : ∀ rest, value nestingLimit (n + 1) n (text ++ '\n' :: rest) = some (v, '\n' :: rest)

theorem ne_of_isBareKeyChar {c d : Char} (hc : isBareKeyChar c) (hd : ¬ isBareKeyChar d) : c ≠ d :=
  fun h => hd (h ▸ hc)

theorem statement_line {key : List Char} (hkey : ∀ c ∈ key, isBareKeyChar c) (hne : key ≠ [])
    {n : Nat} {text : List Char} {v : TomlValue} (h : Reads n text v) (rest : List Char) :
    statement n (assignmentLine key text ++ '\n' :: rest) =
      some (.assignment [] (String.ofList key) v, '\n' :: rest) := by
  have hdotted := dottedKey_apply hkey hne 78 n (' ' :: (text ++ '\n' :: rest))
  have hvalue := h.value rest
  obtain ⟨c, key, rfl⟩ := List.exists_cons_of_ne_nil hne
  obtain ⟨d, text, rfl⟩ := List.exists_cons_of_ne_nil h.nonempty
  have hc : c ≠ '[' := ne_of_isBareKeyChar (hkey c List.mem_cons_self) (by decide)
  have hspaces := skipSpaces_blank (h.front d rfl) n (text ++ '\n' :: rest)
  simp only [List.cons_append] at hdotted hvalue
  simpa [statement, assignmentLine, accept_of_ne hc, nestingLimit, hdotted,
      skipSpaces_apply (c := '=') (by decide), hspaces] using hvalue

theorem statements_line {key : List Char} (hkey : ∀ c ∈ key, isBareKeyChar c) (hne : key ≠ [])
    {n : Nat} {text : List Char} {v : TomlValue} (h : Reads n text v) (fuel : Nat)
    (rest : List Char) :
    statements (fuel + 1) n (assignmentLine key text ++ '\n' :: rest) =
      (statements fuel n rest).map fun p => (.assignment [] (String.ofList key) v :: p.1, p.2) := by
  have hstatement := statement_line hkey hne h rest
  obtain ⟨c, key, rfl⟩ := List.exists_cons_of_ne_nil hne
  have hc := hkey c List.mem_cons_self
  have hspace : ¬ isSpace c := by
    simp [isSpace, ne_of_isBareKeyChar hc (d := ' ') (by decide),
      ne_of_isBareKeyChar hc (d := '\t') (by decide)]
  have hcomment : c ≠ '#' := ne_of_isBareKeyChar hc (by decide)
  have hfeed : c ≠ '\n' := ne_of_isBareKeyChar hc (by decide)
  have hreturn : c ≠ '\r' := ne_of_isBareKeyChar hc (by decide)
  have hend : ∀ rest, skipSpaces n ('\n' :: rest) = some ((), '\n' :: rest) :=
    skipSpaces_apply (by decide) n
  have hcut : assignmentLine (c :: key) text ++
      '\n' :: rest = c :: (key ++ ' ' :: '=' :: ' ' :: text ++ '\n' :: rest) := rfl
  rw [hcut] at hstatement ⊢
  generalize key ++ ' ' :: '=' :: ' ' :: text ++ '\n' :: rest = tail at hstatement
  simp [statements, skipSpaces_apply hspace, hcomment, hfeed, hreturn, hstatement, hend,
    skipComment, acceptLineEnd, accept_apply]

theorem statements_end (fuel n : Nat) : statements (fuel + 1) n [] = some ([], []) := by
  simp [statements, skipSpaces, skipWhile, skipComment, accept_apply]

/-- A document of such lines is the list of their assignments. -/
theorem statements_document {n : Nat} {lines : List (List Char × List Char × TomlValue)}
    (hlines : ∀ l ∈ lines, (∀ c ∈ l.1, isBareKeyChar c) ∧ l.1 ≠ [] ∧ Reads n l.2.1 l.2.2)
    {fuel : Nat}
    (hfuel : lines.length < fuel) :
    statements fuel n (document (lines.map fun l => assignmentLine l.1 l.2.1)) =
      some (lines.map fun l => .assignment [] (String.ofList l.1) l.2.2, []) := by
  induction lines generalizing fuel with
  | nil =>
      obtain ⟨fuel, rfl⟩ := Nat.exists_eq_add_of_lt hfuel
      exact statements_end _ n
  | cons l lines ih =>
      obtain ⟨fuel, rfl⟩ : ∃ k, fuel = k + 1 := Nat.exists_eq_add_of_le' (by omega)
      obtain ⟨hkey, hne, hreads⟩ := hlines l List.mem_cons_self
      have hrest :=
        ih (fun l hl => hlines l (List.mem_cons_of_mem _ hl)) (Nat.lt_of_succ_lt_succ hfuel)
      have hcut : document ((l :: lines).map fun l => assignmentLine l.1 l.2.1) = assignmentLine l.1
          l.2.1 ++ '\n' :: document (lines.map fun l => assignmentLine l.1 l.2.1) := by
        simp [document]
      rw [hcut, statements_line hkey hne hreads, hrest, Option.map_some, List.map_cons]

theorem reads_quoted {cs : List Char} (hcs : ∀ c ∈ cs, isQuotable c) (hne : cs ≠ []) {n : Nat}
    (hn : cs.length < n) : Reads n ('"' :: cs ++ ['"']) (text (String.ofList cs)) where
  front := by simp [isSpace]
  nonempty := by simp
  value rest := by simpa using value_quoted hcs hne hn nestingLimit n ('\n' :: rest)

theorem reads_bare {cs : List Char} (hcs : ∀ c ∈ cs, isBareChar c) (hne : cs ≠ []) {v : TomlValue}
    (hv : ofBare? cs = some v) (n : Nat) : Reads n cs v where
  front c hc hspace := by
    have hbare := hcs c (List.mem_of_mem_head? hc)
    simp only [isSpace, Bool.or_eq_true, beq_iff_eq] at hspace
    rcases hspace with rfl | rfl
    · exact absurd hbare (by decide)
    · exact absurd hbare (by decide)
  nonempty := hne
  value := value_bare hcs hne hv nestingLimit n n

theorem reads_numeral {k : Nat} (hk : k < 0x8000000000000000) (n : Nat) :
    Reads n (numeral k) (integer k) := by
  apply reads_bare _ (numeral_ne_nil k) (ofBare?_numeral hk)
  intro c hc
  simp [isBareChar, isBareKeyChar, isDigit_of_mem_numeral k c hc]

theorem reads_boolean (b : Bool) (n : Nat) :
    Reads n (if b then "true" else "false").toList (boolean b) := by
  cases b with
  | true => exact reads_bare (by simp [isBareChar, isBareKeyChar]) (by simp) rfl n
  | false => exact reads_bare (by simp [isBareChar, isBareKeyChar]) (by simp) rfl n

end TomlValue

/-- The table of a document of assignments is the one that the assignments build. -/
theorem TomlTable.read?_document {lines : List (List Char × List Char × TomlValue)}
    {source : String}
    (hsource : source.toList =
      TomlValue.document (lines.map fun l => TomlValue.assignmentLine l.1 l.2.1))
    (hreads : ∀ l ∈ lines, (∀ c ∈ l.1, TomlValue.isBareKeyChar c) ∧ l.1 ≠ [] ∧
      TomlValue.Reads source.length l.2.1 l.2.2) :
    TomlTable.read? source =
      TomlTable.build [] [] (lines.map fun l => .assignment [] (String.ofList l.1) l.2.2) := by
  have hfuel : lines.length < source.length + 1 := by
    have hlength :=
      TomlValue.length_le_document (lines.map fun l => TomlValue.assignmentLine l.1 l.2.1)
    rw [← hsource, List.length_map, String.length_toList] at hlength
    omega
  have hstatements := TomlValue.statements_document hreads hfuel
  have hmark : Scan.accept ['\ufeff'] source.length source.toList =
      some (false, source.toList) := by
    rw [hsource]
    cases lines with
    | nil => rfl
    | cons l lines =>
        obtain ⟨hkey, hne, _⟩ := hreads l List.mem_cons_self
        obtain ⟨c, key, hl⟩ := List.exists_cons_of_ne_nil hne
        have hc : c ≠ '\ufeff' :=
          TomlValue.ne_of_isBareKeyChar (hkey c (by simp [hl])) (by decide)
        simp [TomlValue.document, TomlValue.assignmentLine, hl, Scan.accept_of_ne hc]
  rw [← hsource] at hstatements
  simp [read?, Scan.whole?, hmark, hstatements]

end TensorDataflow
