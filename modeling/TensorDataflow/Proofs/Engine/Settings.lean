import TensorDataflow.Engine.Config
import TensorDataflow.Proofs.Engine.SizeGrammar
import TensorDataflow.Proofs.Toml.Format
/-!
# Settings survive being written

A size is written as digits with at most one letter behind them, for the largest unit that divides
it, so reading multiplies back by the same unit and cannot overflow. With that, each of the four
entries of a configuration is read as its setting, in whatever format the table was written.
-/

namespace TensorDataflow

namespace ByteSize

/-- The letters behind a written size, and what they count. -/
def suffixes : List (List Char × Nat) := [(['G'], gib), (['M'], mib), (['K'], kib), ([], 1)]

theorem toList_text (size : ByteSize) :
    ∃ k, ∃ s ∈ suffixes, size.text.toList = numeral k ++ s.1 ∧ size.bytes = k * s.2 := by
  obtain ⟨b⟩ := size
  have hunit : ∀ s ∈ suffixes, b % s.2 = 0 →
      ∃ k, ∃ s' ∈ suffixes, numeral (b / s.2) ++ s.1 = numeral k ++ s'.1 ∧ b = k * s'.2 :=
    fun s hs hmod => ⟨_, s, hs, rfl, (Nat.div_mul_cancel (Nat.dvd_of_mod_eq_zero hmod)).symm⟩
  rw [text]
  dsimp only
  split
  · next h =>
      rw [String.toList_append, toList_toString]
      exact hunit (['G'], gib) (by simp [suffixes]) h.2
  · split
    · next h =>
        rw [String.toList_append, toList_toString]
        exact hunit (['M'], mib) (by simp [suffixes]) h.2
    · split
      · next h =>
          rw [String.toList_append, toList_toString]
          exact hunit (['K'], kib) (by simp [suffixes]) h.2
      · exact ⟨b, ([], 1), by simp [suffixes], by rw [toList_toString, List.append_nil],
          (Nat.mul_one b).symm⟩

/-- What is written for a size spells it. -/
theorem exists_spelling_text (size : ByteSize) :
    ∃ s : Spelling, s.chars = size.text.toList ∧ size.bytes = s.value * s.factor := by
  obtain ⟨k, s, hs, htext, hbytes⟩ := size.toList_text
  have hknown : ∀ u ∈ suffixes, (u.1.map Char.toUpper, u.2) ∈ spellings := by decide
  have hvalue : Nat.ofDigitChars 10 (numeral k) 0 = k :=
    (digitsValue_eq (isDigit_of_mem_numeral k)).symm.trans (digitsValue_numeral k)
  refine ⟨⟨false, numeral k, [], s.1, s.2, numeral_ne_nil k, isDigit_of_mem_numeral k, nofun,
      hknown s hs⟩, ?_, ?_⟩
  · rw [htext, Spelling.chars, Spelling.number, List.append_nil]
    rfl
  · rw [Spelling.value, hvalue]
    exact hbytes

theorem mem_text {size : ByteSize} {c : Char} (hc : c ∈ size.text.toList) :
    isDigit c ∨ c ∈ ['G', 'M', 'K'] := by
  obtain ⟨k, s, hs, htext, _⟩ := size.toList_text
  rw [htext, List.mem_append] at hc
  rcases hc with hc | hc
  · exact .inl (isDigit_of_mem_numeral k c hc)
  · simp only [suffixes, List.mem_cons, List.not_mem_nil, or_false] at hs
    rcases hs with rfl | rfl | rfl | rfl <;> simp_all

theorem trimBlanks_text (size : ByteSize) : trimBlanks size.text.toList = size.text.toList := by
  apply trimBlanks_of_none
  intro c hc
  rcases mem_text hc with hdigit | hletter
  · exact not_isBlank_of_isDigit hdigit
  · simp only [List.mem_cons, List.not_mem_nil, or_false] at hletter
    rcases hletter with rfl | rfl | rfl <;> decide

/-- What is written for a size is read as the size: the unit divides it, so nothing is lost, and the
product is the size again. -/
theorem parse_text {size : ByteSize} (hpos : 1 ≤ size.bytes) (hlimit : size.bytes < limit) :
    parse size.text = .ok size := by
  obtain ⟨s, hchars, hbytes⟩ := size.exists_spelling_text
  have htrims : Trims size.text.toList s.chars := by
    have htrimmed := trims_trimBlanks size.text.toList
    rw [trimBlanks_text] at htrimmed
    exact hchars.symm ▸ htrimmed
  have hvalue : s.value < limit :=
    (Nat.le_mul_of_pos_right s.value s.factor_pos).trans_lt (hbytes ▸ hlimit)
  exact (parse_eq_ok_iff htrims).2 ⟨s, rfl, hvalue, hbytes, hpos, hlimit⟩

end ByteSize

namespace Config

open TomlValue

theorem isQuotable_of_mem_tag {kind : DeviceKind} : ∀ c ∈ kind.tag.toList, isQuotable c := by
  have htag : kind.tag.toList = kind.label.toList.map Char.toLower := String.toList_map
  rw [htag]
  cases kind <;> simp [DeviceKind.label, isQuotable, isPlain]

theorem isQuotable_of_mem_text {size : ByteSize} : ∀ c ∈ size.text.toList, isQuotable c := by
  intro c hc
  rcases ByteSize.mem_text hc with hdigit | hletter
  · have hrange := toNat_of_isDigit hdigit
    have hquote : c ≠ '"' := fun h => absurd (h ▸ hdigit) (by decide)
    have hslash : c ≠ '\\' := fun h => absurd (h ▸ hdigit) (by decide)
    refine isQuotable_iff.2 ⟨?_, hquote, hslash⟩
    simp only [isPlain, Bool.or_eq_true, Bool.and_eq_true, decide_eq_true_eq, beq_iff_eq]
    omega
  · simp only [List.mem_cons, List.not_mem_nil, or_false] at hletter
    rcases hletter with rfl | rfl | rfl <;> decide

/-- No tag and no size needs an escape. -/
theorem plain_table {c : Config} (hid : c.deviceId < 0x8000000000000000) : c.table.Plain where
  keys := by simp [table, isBareKeyChar]
  values := by
    have htag : c.device.tag ≠ "" := by cases c.device <;> decide +kernel
    have htext : c.workspace.text ≠ "" := by
      obtain ⟨k, s, _, hs, _⟩ := c.workspace.toList_text
      refine fun hempty => numeral_ne_nil k ?_
      rw [hempty] at hs
      exact (List.append_eq_nil_iff.1 hs.symm).1
    simp only [table, List.forall_mem_cons]
    exact ⟨.text htag isQuotable_of_mem_tag, .integer hid, .text htext isQuotable_of_mem_text,
      .boolean c.profiling, by simp⟩
  distinct := by simp [table]

theorem deviceOfTag?_tag (kind : DeviceKind) : deviceOfTag? kind.tag = some kind := by
  cases kind <;> decide +kernel

theorem countOfInt?_natCast {k : Nat} (hk : k < 0x8000000000000000) : countOfInt? k = some k := by
  have hrange : 0 ≤ (k : Int) ∧ (k : Int) < 0x10000000000000000 := by omega
  rw [countOfInt?, if_pos hrange, Int.toNat_natCast]

theorem sizeOfToml?_text {size : ByteSize} (hpos : 1 ≤ size.bytes)
    (hlimit : size.bytes < ByteSize.limit) : sizeOfToml? (.text size.text) = some size := by
  simp [sizeOfToml?, readSize?, ByteSize.parse_text hpos hlimit, Except.toOption]

/-- Where all four settings are there, each is read from its own entry, wherever it stands. -/
theorem ofTable?_of_lookup {c : Config} {t : TomlTable} (hpos : 1 ≤ c.workspace.bytes)
    (hlimit : c.workspace.bytes < ByteSize.limit) (hid : c.deviceId < 0x8000000000000000)
    (ht : ∀ key, t.lookup key = c.table.lookup key) : ofTable? t = some c := by
  simp [ofTable?, ht, table, setting, List.lookup_cons, TomlValue.alternative, deviceOfTag?_tag,
    countOfInt?_natCast hid, sizeOfToml?_text hpos hlimit]

/-- A configuration with a size that is not zero and a device number within the signed words is
written, and read back from what is written, in every format that keeps four short entries and in
the one here; so is every such size by itself. -/
theorem toToml_exact :
    (∀ format : TomlFormat, format.Lawful → ∀ c : Config, 1 ≤ c.workspace.bytes →
      c.workspace.bytes < ByteSize.limit → c.deviceId < 0x8000000000000000 →
      ∃ source, c.toToml format = .ok source ∧ ofToml source format = .ok c) ∧
    (∀ c : Config, 1 ≤ c.workspace.bytes → c.workspace.bytes < ByteSize.limit →
      c.deviceId < 0x8000000000000000 → ∃ source, c.toToml = .ok source ∧ ofToml source = .ok c) ∧
    ∀ n : Nat, 1 ≤ n → n < ByteSize.limit → ByteSize.parse (ByteSize.text ⟨n⟩) = .ok ⟨n⟩ := by
  have hformat : ∀ format : TomlFormat, format.Lawful → ∀ c : Config, 1 ≤ c.workspace.bytes →
      c.workspace.bytes < ByteSize.limit → c.deviceId < 0x8000000000000000 →
      ∃ source, c.toToml format = .ok source ∧ ofToml source format = .ok c := by
    intro format hlawful c hpos hlimit hid
    obtain ⟨source, t, hwritten, hread, hlookup⟩ := hlawful c.table (plain_table hid)
    refine ⟨source, ?_, ?_⟩
    · rw [toToml, hwritten]
    · rw [ofToml, hread, Option.bind_some, ofTable?_of_lookup hpos hlimit hid hlookup]
  exact ⟨hformat, hformat .standard TomlFormat.lawful_standard,
    fun n hpos hlimit => ByteSize.parse_text hpos hlimit⟩

/-- The greatest device number that can be written, with the greatest size, which no unit
divides. -/
theorem toToml_exact_greatest :
    ∃ source, toToml ⟨.nvidia, 0x7fffffffffffffff, ⟨0xffffffffffffffff⟩, false⟩ = .ok source ∧
      ofToml source = .ok ⟨.nvidia, 0x7fffffffffffffff, ⟨0xffffffffffffffff⟩, false⟩ :=
  toToml_exact.1 .standard TomlFormat.lawful_standard
    ⟨.nvidia, 0x7fffffffffffffff, ⟨0xffffffffffffffff⟩, false⟩ (by decide) (by decide) (by decide)

end Config

end TensorDataflow
