import TensorDataflow.Json.Dim
import TensorDataflow.Proofs.Machine.Act
/-!
# Dimensions through the interchange form

More documents stand for a dimension than are ever written for it: the fields of a node may come in
any order, among others or by position, and operators may be spelled as objects. `JsonValue.Denotes`
says which do, without the bound on the nesting that the reader carries along; the reader follows it
exactly, and the document that is written for a dimension denotes it. So what has been read and is
written again is read as the same dimension, whatever document it came from.
-/

namespace TensorDataflow

namespace JsonValue

/-- The documents that stand for a dimension. -/
inductive Denotes : JsonValue → Dim → Prop
  | const {n : Int} {v : Int64} : wordOfInt? n = some v →
      Denotes (.object [(some "constant", .integer n)]) (.const v)
  | var (name : String) : Denotes (.object [(some "variable", .ofText name)]) (.var name)
  | node {content op l r : JsonValue} {o : DimOp} {lhs rhs : Dim} :
      content.record ["op", "lhs", "rhs"] = some [some op, some l, some r] →
      DimOp.ofJson? op = some o → Denotes l lhs → Denotes r rhs →
        Denotes (.object [(some "binary", content)]) (.node o lhs rhs)

theorem depth_le_listDepth {v : JsonValue} {items : List JsonValue} (hv : v ∈ items) :
    v.depth ≤ listDepth items := by
  induction items with
  | nil => simp at hv
  | cons w items ih =>
      rw [listDepth]
      rcases List.mem_cons.1 hv with rfl | hv
      · omega
      · have := ih hv
        omega

theorem depth_le_fieldsDepth {f : Option String × JsonValue}
    {fields : List (Option String × JsonValue)} (hf : f ∈ fields) :
    f.2.depth ≤ fieldsDepth fields := by
  induction fields with
  | nil => simp at hf
  | cons w fields ih =>
      rw [fieldsDepth]
      rcases List.mem_cons.1 hf with rfl | hf
      · exact Nat.le_max_left _ _
      · have := ih hf
        omega

theorem mem_of_field {fields : List (Option String × JsonValue)} {name : String} {v : JsonValue}
    (h : field fields name = some (some v)) : ∃ f ∈ fields, f.2 = v := by
  unfold field at h
  split at h
  · simp at h
  · next f hfilter =>
      have hf : f ∈ fields.filter fun f => f.1 == some name := by simp [hfilter]
      exact ⟨f, (List.mem_filter.1 hf).1, by simpa using h⟩
  · simp at h

theorem exists_field_of_mapM {fields : List (Option String × JsonValue)} {names : List String}
    {values : List (Option JsonValue)} (h : names.mapM (field fields) = some values) {v : JsonValue}
    (hv : some v ∈ values) : ∃ f ∈ fields, f.2 = v := by
  induction names generalizing values with
  | nil =>
      simp at h
      simp [h] at hv
  | cons name names ih =>
      simp only [List.mapM_cons, bind, Option.bind_eq_some_iff, pure, Option.some.injEq] at h
      obtain ⟨first, hfirst, rest, hrest, rfl⟩ := h
      rcases List.mem_cons.1 hv with rfl | hv
      · exact mem_of_field hfirst
      · exact ih hrest hv

/-- What a record holds is nested less deep than the record. -/
theorem depth_lt_of_record {names : List String} {content : JsonValue}
    {values : List (Option JsonValue)} (h : content.record names = some values) {v : JsonValue}
    (hv : some v ∈ values) :
    v.depth < content.depth := by
  unfold record at h
  split at h
  · next fields =>
      split at h
      · obtain ⟨f, hf, rfl⟩ := exists_field_of_mapM h hv
        rw [depth]
        exact Nat.lt_succ_of_le (depth_le_fieldsDepth hf)
      · simp at h
  · next items =>
      split at h
      · rw [Option.some.injEq] at h
        rw [← h, List.mem_append, List.mem_map, List.mem_replicate] at hv
        rw [depth]
        rcases hv with ⟨w, hw, hsame⟩ | ⟨_, hnone⟩
        · rw [Option.some.injEq] at hsame
          exact Nat.lt_succ_of_le (depth_le_listDepth (hsame ▸ hw))
        · simp at hnone
      · simp at h
  · simp at h

theorem depth_object (name : Option String) (content : JsonValue) :
    (object [(name, content)]).depth = content.depth + 1 := by
  simp [depth, fieldsDepth]

end JsonValue

namespace Dim

open JsonValue

theorem denotes_of_ofJsonWithin {fuel : Nat} {v : JsonValue} {d : Dim}
    (h : ofJsonWithin fuel v = some d) : v.Denotes d := by
  induction fuel generalizing v d with
  | zero => simp [ofJsonWithin] at h
  | succ fuel ih =>
      unfold ofJsonWithin at h
      split at h
      · simp at *
      · next fuel' form content hfuel =>
          obtain rfl : fuel = fuel' := by omega
          split at h
          · next n =>
              obtain ⟨w, hw, rfl⟩ := Option.map_eq_some_iff.1 h
              exact .const hw
          · next name =>
              obtain ⟨name, rfl, rfl⟩ := Option.map_eq_some_iff.1 h
              exact .var name
          · split at h
            · next op l r hrecord =>
                simp only [bind, Option.bind_eq_some_iff, pure, Option.some.injEq] at h
                obtain ⟨o, ho, lhs, hlhs, rhs, hrhs, rfl⟩ := h
                exact .node hrecord ho (ih hlhs) (ih hrhs)
            · simp at h
          · simp at h
      · simp at h

/-- The reader needs no more fuel than the document is deep. -/
theorem ofJsonWithin_of_denotes {v : JsonValue} {d : Dim} (h : v.Denotes d) {fuel : Nat}
    (hfuel : v.depth ≤ fuel) : ofJsonWithin fuel v = some d := by
  induction h generalizing fuel with
  | @const n w hword =>
      rw [depth_object] at hfuel
      obtain ⟨fuel, rfl⟩ := Nat.exists_eq_add_of_le' (Nat.le_of_add_left_le hfuel)
      simp [ofJsonWithin, hword]
  | var name =>
      rw [depth_object] at hfuel
      obtain ⟨fuel, rfl⟩ := Nat.exists_eq_add_of_le' (Nat.le_of_add_left_le hfuel)
      simp [ofJsonWithin, ofText]
  | @node content op l r o lhs rhs hrecord ho _ _ ihl ihr =>
      rw [depth_object] at hfuel
      obtain ⟨fuel, rfl⟩ := Nat.exists_eq_add_of_le' (Nat.le_of_add_left_le hfuel)
      have hl := depth_lt_of_record hrecord (v := l) (by simp)
      have hr := depth_lt_of_record hrecord (v := r) (by simp)
      have hlhs : ofJsonWithin fuel l = some lhs := ihl (by omega)
      have hrhs : ofJsonWithin fuel r = some rhs := ihr (by omega)
      simp [ofJsonWithin, hrecord, ho, hlhs, hrhs]

theorem ofJson?_eq_some_iff {v : JsonValue} {d : Dim} : ofJson? v = some d ↔ v.Denotes d :=
  ⟨denotes_of_ofJsonWithin, fun h => ofJsonWithin_of_denotes h (Nat.le_refl _)⟩

end Dim

theorem wordOfInt?_toInt (v : Int64) : wordOfInt? v.toInt = some v := by
  have hlower := v.le_toInt
  have hupper := v.toInt_lt
  rw [wordOfInt?, if_pos (by omega), Int64.ofInt_toInt]

theorem DimOp.ofJson?_tag (op : DimOp) : ofJson? (.ofText op.tag) = some op := by
  cases op <;> decide

namespace Dim

theorem denotes_toJson (d : Dim) : d.toJson.Denotes d := by
  induction d with
  | const v => exact .const (wordOfInt?_toInt v)
  | var name => exact .var name
  | node op lhs rhs ihl ihr =>
      refine .node ?_ op.ofJson?_tag ihl ihr
      simp [JsonValue.record, JsonValue.field]

theorem ofJson?_toJson (d : Dim) : ofJson? d.toJson = some d :=
  ofJson?_eq_some_iff.2 d.denotes_toJson

end Dim

namespace Axes

variable {role : AxisRole}

theorem ofJson?_eq_some_iff {v : JsonValue} {axes : Axes role} : ofJson? v = some axes ↔
    ∃ items, v = .array items ∧ List.Forall₂ JsonValue.Denotes items axes.dims := by
  cases v with
  | array items =>
      simp only [ofJson?, Option.map_eq_some_iff, mapM_eq_some_iff, Dim.ofJson?_eq_some_iff,
        JsonValue.array.injEq]
      constructor
      · intro ⟨dims, hdims, haxes⟩
        exact ⟨items, rfl, by rwa [← haxes]⟩
      · intro ⟨items', hitems, hdims⟩
        exact ⟨axes.dims, hitems ▸ hdims, rfl⟩
  | null | bool | integer | fraction | text | object => simp [ofJson?]

theorem ofJson?_toJson (axes : Axes role) : ofJson? axes.toJson = some axes := by
  rw [ofJson?_eq_some_iff]
  refine ⟨_, rfl, ?_⟩
  rw [List.forall₂_map_left_iff, List.forall₂_same]
  intro d _
  exact d.denotes_toJson

end Axes

/-- A dimension is read exactly from the documents that denote it, the one that is written for it
among them, so reading, writing and reading again comes to the same; likewise for sequences of
dimensions. -/
theorem Dim.interchange_exact :
    (∀ d : Dim, ofJson? d.toJson = some d) ∧ (∀ v d, ofJson? v = some d ↔ v.Denotes d) ∧
    (∀ v d, ofJson? v = some d → ofJson? d.toJson = some d) ∧
      ∀ role : AxisRole, (∀ axes : Axes role, Axes.ofJson? axes.toJson = some axes) ∧
        (∀ v (axes : Axes role), Axes.ofJson? v = some axes ↔
          ∃ items, v = .array items ∧ List.Forall₂ JsonValue.Denotes items axes.dims) ∧
        ∀ v (axes : Axes role), Axes.ofJson? v = some axes →
        (Axes.ofJson? axes.toJson : Option (Axes role)) = some axes := by
  refine ⟨ofJson?_toJson, fun v d => ofJson?_eq_some_iff, fun _ d _ => ofJson?_toJson d,
    fun role => ⟨Axes.ofJson?_toJson, fun v axes => Axes.ofJson?_eq_some_iff, ?_⟩⟩
  intro v axes _
  exact axes.ofJson?_toJson

end TensorDataflow
