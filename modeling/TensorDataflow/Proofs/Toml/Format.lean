import TensorDataflow.Proofs.Machine.Act
import TensorDataflow.Proofs.Toml.Lines
/-!
# Formats that keep what they write

Other writers and readers of TOML may choose other spellings and another order of the entries. All
that is asked of a format is that a table of short entries is written and that every entry is found
again in what is read of it, which the writer and the reader here do.
-/

namespace TensorDataflow

/-- A value that has a short spelling on one line. -/
inductive TomlValue.Plain : TomlValue → Prop
  | text {s : String} (hne : s ≠ "") (hquotable : ∀ c ∈ s.toList, isQuotable c) : Plain (.text s)
  | integer {k : Nat} (hk : k < 0x8000000000000000) : Plain (.integer k)
  | boolean (b : Bool) : Plain (.boolean b)

/-- A table of such values under bare keys. -/
structure TomlTable.Plain (t : TomlTable) : Prop where
  keys : ∀ entry ∈ t, entry.1 ≠ "" ∧ ∀ c ∈ entry.1.toList, TomlValue.isBareKeyChar c
  values : ∀ entry ∈ t, entry.2.Plain
  distinct : (t.map Prod.fst).Nodup

/-- A plain table is written, and what is read of it has the same entries. -/
def TomlFormat.Lawful (format : TomlFormat) : Prop :=
  ∀ t : TomlTable, t.Plain → ∃ source t', format.write? t = some source ∧
    format.read? source = some t' ∧ ∀ key, t'.lookup key = t.lookup key

namespace TomlValue

theorem Plain.exists_spelling {v : TomlValue} (h : v.Plain) :
    ∃ spelling, v.spelled? = some spelling ∧ ∀ n, spelling.length < n → Reads n spelling v := by
  cases h with
  | @text s hne hquotable =>
      refine ⟨'"' :: s.toList ++ ['"'], ?_, fun n hn => ?_⟩
      · rw [spelled?, if_pos (List.all_eq_true.2 hquotable)]
      · simp only [List.length_cons, List.length_append] at hn
        have hreads := reads_quoted hquotable (mt String.toList_eq_nil_iff.1 hne)
          (show s.toList.length < n by omega)
        rwa [String.ofList_toList] at hreads
  | @integer k hk =>
      have hrange : -0x8000000000000000 ≤ (k : Int) ∧ (k : Int) < 0x8000000000000000 := by omega
      refine ⟨numeral k, ?_, fun n _ => reads_numeral hk n⟩
      rw [spelled?, if_pos hrange]
      exact congrArg some (toList_toString k)
  | boolean b => exact ⟨_, rfl, fun n _ => reads_boolean b n⟩

end TomlValue

namespace TomlTable

variable {t : TomlTable}

/-- The lines of a table: each has a key, what is written for its value, and the value. -/
def lines (t : TomlTable) : List (List Char × List Char × TomlValue) :=
  t.map fun entry => (entry.1.toList, entry.2.spelled?.getD [], entry.2)

theorem Plain.write?_eq (h : t.Plain) :
    t.write? = some (.ofList
      (TomlValue.document (t.lines.map fun l => TomlValue.assignmentLine l.1 l.2.1))) := by
  have hline : ∀ entry ∈ t, TomlValue.line? entry.1 entry.2 =
      some (TomlValue.assignmentLine entry.1.toList (entry.2.spelled?.getD [])) := by
    intro entry hentry
    obtain ⟨spelling, hspelling, _⟩ := (h.values entry hentry).exists_spelling
    obtain ⟨hne, hkey⟩ := h.keys entry hentry
    simp [TomlValue.line?, hne, hspelling, List.all_eq_true.2 hkey]
  have hmapM : t.mapM (fun entry => TomlValue.line? entry.1 entry.2) =
      some (t.map fun entry =>
        TomlValue.assignmentLine entry.1.toList (entry.2.spelled?.getD [])) :=
    mapM_eq_some_iff.2 (List.forall₂_map_right_iff.2 (List.forall₂_same.2 hline))
  rw [write?, hmapM, lines, List.map_map]
  rfl

/-- Every line is read as its entry. -/
theorem Plain.reads_lines (h : t.Plain) {n : Nat}
    (hn : ∀ l ∈ t.lines, (TomlValue.assignmentLine l.1 l.2.1).length < n) :
    ∀ l ∈ t.lines, (∀ c ∈ l.1, TomlValue.isBareKeyChar c) ∧ l.1 ≠ [] ∧
      TomlValue.Reads n l.2.1 l.2.2 := by
  intro l hl
  have hlength := hn l hl
  obtain ⟨entry, hentry, rfl⟩ := List.mem_map.1 hl
  obtain ⟨hne, hkey⟩ := h.keys entry hentry
  obtain ⟨spelling, hspelling, hreads⟩ := (h.values entry hentry).exists_spelling
  simp only [hspelling, Option.getD_some, TomlValue.assignmentLine, List.length_append,
    List.length_cons] at hlength ⊢
  exact ⟨hkey, mt String.toList_eq_nil_iff.1 hne, hreads n (by omega)⟩

/-- Assignments of different keys are added one behind the other. -/
theorem build_assignments {t s : TomlTable} (hdistinct : ((s ++ t).map Prod.fst).Nodup) :
    build [] s (t.map fun entry => .assignment [] entry.1 entry.2) = some (s ++ t) := by
  induction t generalizing s with
  | nil => rw [List.map_nil, build, List.append_nil]
  | cons entry t ih =>
      have hnew : s.lookup entry.1 = none := by
        rw [List.map_append, List.nodup_append] at hdistinct
        refine List.lookup_eq_none_iff.2 fun e he => bne_iff_ne.2 fun hsame => ?_
        exact hdistinct.2.2 _ (List.mem_map_of_mem he) entry.1 (by simp) hsame.symm
      have hrest := ih (s := s ++ [entry]) (by rwa [List.append_assoc])
      rw [List.append_assoc] at hrest
      simpa [build, descend, assign, hnew] using hrest

end TomlTable

/-- The reader finds in a document of the writer what was written. -/
theorem TomlFormat.lawful_standard : TomlFormat.standard.Lawful := by
  intro t h
  have hwritten := h.write?_eq
  refine ⟨_, t, hwritten, ?_, fun _ => rfl⟩
  have hlength : ∀ l ∈ t.lines, (TomlValue.assignmentLine l.1 l.2.1).length <
      (String.ofList (TomlValue.document
        (t.lines.map fun l => TomlValue.assignmentLine l.1 l.2.1))).length := by
    intro l hl
    rw [String.length_ofList]
    exact TomlValue.length_lt_document (List.mem_map_of_mem hl)
  have hbuilt := TomlTable.build_assignments (s := []) (t := t) h.distinct
  have hread := TomlTable.read?_document String.toList_ofList (h.reads_lines hlength)
  have hassigned : t.lines.map (fun l => TomlStatement.assignment [] (String.ofList l.1) l.2.2) =
      t.map fun entry => .assignment [] entry.1 entry.2 := by
    simp [TomlTable.lines, String.ofList_toList]
  rw [hassigned] at hread
  exact hread.trans hbuilt

end TensorDataflow
