import TensorDataflow.Proofs.Dim.PartialEvaluation
import TensorDataflow.Proofs.Graph.Arrangement
import TensorDataflow.Proofs.Graph.Resolution
import TensorDataflow.Proofs.Graph.Storage
/-!
# Binding is substitution

A graph is built, put in order and has variables bound, in any order and as often as wanted. As long
as every operator answers what it is given (`OpKind.Transparent`), its operators go on fitting, so
the inference behind a binding finds nothing to change: `Graph.resolve` then substitutes, and fails
exactly when some extent becomes a constant that is not positive. Constants stay what they are, so
bindings one after the other succeed exactly when both together do. An operator with shapes of its
own is another matter: it takes the variable back that has just been bound.
-/

namespace TensorDataflow

/-! ### Extents that are not positive -/

namespace Axes

theorem badExtent?_eq_some {axis : Nat} {dims : List Dim} {bad : Nat × Int64}
    (h : badExtent? axis dims = some bad) :
    ∃ i, bad.1 = axis + i ∧ dims[i]? = some (.const bad.2) ∧ bad.2 ≤ 0 := by
  induction dims generalizing axis with
  | nil => cases h
  | cons d dims ih =>
      have hlater : badExtent? (axis + 1) dims = some bad →
          ∃ i, bad.1 = axis + i ∧ (d :: dims)[i]? = some (.const bad.2) ∧ bad.2 ≤ 0 := by
        intro hrest
        obtain ⟨i, haxis, hi, hle⟩ := ih hrest
        exact ⟨i + 1, by omega, by rw [List.getElem?_cons_succ, hi], hle⟩
      rw [badExtent?] at h
      cases d with
      | var name => exact hlater h
      | node op lhs rhs => exact hlater h
      | const v =>
          dsimp only [Dim.constant?] at h
          split at h
          · next hle =>
              cases h
              exact ⟨0, rfl, rfl, hle⟩
          · exact hlater h

theorem badExtent?_ne_none {dims : List Dim} {v : Int64} (hmem : .const v ∈ dims) (hle : v ≤ 0)
    (axis : Nat) : badExtent? axis dims ≠ none := by
  intro hnone
  have hpos : 0 < v.toInt := pos_of_badExtent? hnone (.const v) hmem v rfl
  rw [Int64.le_iff_toInt_le] at hle
  exact absurd hpos (Int.not_lt.2 hle)

end Axes

namespace Tensor

/-- The bound layout of a tensor is sound. -/
def Sound (bindings : Bindings) (t : Tensor) : Prop :=
  checkLayout (t.under bindings).shape (t.under bindings).stride = .ok ()

theorem under_under (t : Tensor) (first second : Bindings) :
    (t.under first).under second = t.under (first.extend second) := by
  simp only [under, Axes.substitute_substitute]

theorem sound_under {t : Tensor} {first second : Bindings} :
    (t.under first).Sound second ↔ t.Sound (first.extend second) := by
  rw [Sound, under_under, Sound]

section Checked

variable {t : Tensor} {bindings : Bindings} (hrank : t.shape.rank = t.stride.rank)

include hrank

/-- Binding keeps both ranks, so a bound layout is refused for a constant extent alone. -/
theorem checkLayout_under_eq_error {e : GraphError}
    (h : checkLayout (t.under bindings).shape (t.under bindings).stride = .error e) :
    ∃ axis v, (t.shape.substitute bindings).dims[axis]? = some (.const v) ∧ v ≤ 0 ∧
    e = .invalidDimension axis v (t.shape.substitute bindings) := by
  have hranks : (t.under bindings).shape.rank = (t.under bindings).stride.rank := by
    rw [under, Axes.rank_substitute, Axes.rank_substitute, hrank]
  rw [checkLayout, if_neg (not_not.2 hranks)] at h
  split at h
  · next axis v hbad =>
      cases h
      obtain ⟨i, haxis, hi, hle⟩ := Axes.badExtent?_eq_some hbad
      obtain rfl : axis = i := haxis.trans (Nat.zero_add i)
      exact ⟨axis, v, hi, hle, rfl⟩
  · cases h

theorem sound_iff :
    t.Sound bindings ↔ ∀ v, .const v ∈ (t.shape.substitute bindings).dims → ¬ v ≤ 0 := by
  constructor
  · intro h v hmem hle
    exact Axes.badExtent?_ne_none hmem hle 0 (checkLayout_eq_ok_iff.1 h).2
  · intro h
    cases hcheck : checkLayout (t.under bindings).shape (t.under bindings).stride with
    | ok _ => exact hcheck
    | error e =>
        obtain ⟨axis, v, hv, hle, _⟩ := checkLayout_under_eq_error hrank hcheck
        exact absurd hle (h v (List.mem_of_getElem? hv))

/-- What a first assignment makes a constant no second one changes. -/
theorem Sound.of_extend {second : Bindings} (h : t.Sound (bindings.extend second)) :
    t.Sound bindings := by
  rw [sound_iff hrank] at h ⊢
  intro v hmem
  obtain ⟨d, hd, hconst⟩ := List.mem_map.1 hmem
  refine h v (List.mem_map.2 ⟨d, hd, ?_⟩)
  rw [← Dim.substitute_substitute, hconst]
  rfl

end Checked

end Tensor

namespace Graph

/-! ### Binding a graph whose operators fit -/

theorem under_under (g : Graph) (first second : Bindings) :
    (g.under first).under second = g.under (first.extend second) := by
  simp only [under, List.map_map, Function.comp_def, Tensor.under_under]

theorem sound_of_substituteFrom {bindings : Bindings} {tensors : List Tensor}
    (h : (substituteFrom bindings tensors).1 = .ok ()) : ∀ t ∈ tensors, t.Sound bindings := by
  induction tensors with
  | nil => exact fun _ ht => absurd ht List.not_mem_nil
  | cons t tensors ih =>
      rw [substituteFrom] at h
      cases hsub : t.substitute bindings with
      | error e =>
          rw [hsub] at h
          cases h
      | ok t' =>
          rw [hsub] at h
          obtain ⟨_, hcheck, _⟩ := except_bind_eq_ok.1 hsub
          intro u hu
          rcases List.mem_cons.1 hu with rfl | hu
          · exact hcheck
          · exact ih h u hu

theorem refused_of_substituteFrom {bindings : Bindings} {tensors : List Tensor} {e : GraphError}
    (h : (substituteFrom bindings tensors).1 = .error e) :
    ∃ t ∈ tensors,
    Tensor.checkLayout (t.under bindings).shape (t.under bindings).stride = .error e := by
  induction tensors with
  | nil => cases h
  | cons t tensors ih =>
      rw [substituteFrom] at h
      cases hcheck : Tensor.checkLayout (t.under bindings).shape (t.under bindings).stride with
      | error e' =>
          have hsub : t.substitute bindings = .error e' := by
            dsimp only [Tensor.under] at hcheck
            rw [Tensor.substitute, hcheck]
            rfl
          rw [hsub] at h
          cases h
          exact ⟨t, List.mem_cons_self, hcheck⟩
      | ok _ =>
          rw [Tensor.substitute_of_checked hcheck] at h
          obtain ⟨u, hu, hrefused⟩ := ih h
          exact ⟨u, List.mem_cons_of_mem _ hu, hrefused⟩

/-- Every operator fits and answers what it is given, and every layout has been checked. -/
structure Steady (g : Graph) : Prop where
  fitted : g.Fitted
  transparent : ∀ op ∈ g.ops, op.kind.Transparent

namespace Steady

variable {g g' : Graph} {bindings : Bindings} (h : g.Steady)

include h

theorem rank {t : Tensor} (ht : t ∈ g.tensors) : t.shape.rank = t.stride.rank :=
  (Tensor.checkLayout_eq_ok_iff.1 (h.fitted.layouts t ht)).1

theorem under (hsound : ∀ t ∈ g.tensors, t.Sound bindings) : (g.under bindings).Steady where
  fitted :=
    { fits := fun op hop => (h.fitted.fits op hop).under (h.transparent op hop) bindings
      layouts := fun t ht => by
        obtain ⟨u, hu, rfl⟩ := List.mem_map.1 ht
        exact hsound u hu }
  transparent := h.transparent

theorem resolve_eq_ok_iff {changed : List TensorId} : resolve bindings g = (.ok changed, g') ↔
    (∀ t ∈ g.tensors, t.Sound bindings) ∧ changed = [] ∧ g' = g.under bindings := by
  constructor
  · intro hresolve
    obtain ⟨_, g₁, hsubstitute, _⟩ := Act.bind_eq_ok hresolve
    have hsound := sound_of_substituteFrom (congrArg Prod.fst hsubstitute)
    rw [resolve_of_fits h.fitted.fits h.transparent hsound] at hresolve
    cases hresolve
    exact ⟨hsound, rfl, rfl⟩
  · rintro ⟨hsound, rfl, rfl⟩
    exact resolve_of_fits h.fitted.fits h.transparent hsound

theorem refused_of_resolve {e : GraphError} (hresolve : (resolve bindings g).1 = .error e) :
    ∃ t ∈ g.tensors,
    Tensor.checkLayout (t.under bindings).shape (t.under bindings).stride = .error e := by
  cases hsub : (substituteFrom bindings g.tensors).1 with
  | ok _ =>
      rw [resolve_of_fits h.fitted.fits h.transparent (sound_of_substituteFrom hsub)] at hresolve
      cases hresolve
  | error e' =>
      have hall : substituteAll bindings g =
          (.error e', { g with tensors := (substituteFrom bindings g.tensors).2 }) :=
        Prod.ext hsub rfl
      rw [resolve, Act.bind_of_error hall] at hresolve
      cases hresolve
      exact refused_of_substituteFrom hsub

/-- Binding fails exactly where some extent becomes a constant that is not positive, and names such
an extent. -/
theorem resolve_eq_error_iff : (∃ e, (resolve bindings g).1 = .error e) ↔
    ∃ t ∈ g.tensors, ∃ v, .const v ∈ (t.shape.substitute bindings).dims ∧ v ≤ 0 := by
  constructor
  · rintro ⟨e, he⟩
    obtain ⟨t, ht, hrefused⟩ := h.refused_of_resolve he
    obtain ⟨axis, v, hv, hle, _⟩ := Tensor.checkLayout_under_eq_error (h.rank ht) hrefused
    exact ⟨t, ht, v, List.mem_of_getElem? hv, hle⟩
  · rintro ⟨t, ht, v, hv, hle⟩
    rcases hresolve : resolve bindings g with ⟨e | changed, g'⟩
    · exact ⟨e, rfl⟩
    · have hsound := (h.resolve_eq_ok_iff.1 hresolve).1 t ht
      exact absurd hle ((Tensor.sound_iff (h.rank ht)).1 hsound v hv)

/-- Bindings one after the other are both at once. -/
theorem resolve_resolve_iff {first second : Bindings} :
    (∃ changed g₁ changed',
      resolve first g = (.ok changed, g₁) ∧ resolve second g₁ = (.ok changed', g')) ↔
    ∃ changed, resolve (first.extend second) g = (.ok changed, g') := by
  constructor
  · rintro ⟨changed, g₁, changed', hfirst, hsecond⟩
    obtain ⟨hsound, rfl, rfl⟩ := h.resolve_eq_ok_iff.1 hfirst
    obtain ⟨hsound', rfl, rfl⟩ := (h.under hsound).resolve_eq_ok_iff.1 hsecond
    refine ⟨[], h.resolve_eq_ok_iff.2 ⟨fun t ht => ?_, rfl, g.under_under first second⟩⟩
    exact Tensor.sound_under.1 (hsound' _ (List.mem_map_of_mem ht))
  · rintro ⟨changed, hboth⟩
    obtain ⟨hsound, rfl, rfl⟩ := h.resolve_eq_ok_iff.1 hboth
    have hfirst : ∀ t ∈ g.tensors, t.Sound first := fun t ht => (hsound t ht).of_extend (h.rank ht)
    refine ⟨[], g.under first, [], h.resolve_eq_ok_iff.2 ⟨hfirst, rfl,
      rfl⟩, (h.under hfirst).resolve_eq_ok_iff.2 ⟨fun t ht => ?_, rfl,
      (g.under_under first second).symm⟩⟩
    obtain ⟨u, hu, rfl⟩ := List.mem_map.1 ht
    exact Tensor.sound_under.2 (hsound u hu)

end Steady

end Graph

/-! ### The kinds that a graph has come by -/

namespace Draft

/-- If all operators had kinds of some sort, they still have. -/
def KindsStay (P : OpKind → Prop) (d d' : Draft) : Prop :=
  (∀ op ∈ d.graph.ops, P op.kind) → ∀ op ∈ d'.graph.ops, P op.kind

instance (P : OpKind → Prop) : IsPreorder Draft (KindsStay P) where
  refl _ := id
  trans _ _ _ h h' := h' ∘ h

variable {P : OpKind → Prop}

theorem addTensor_kindsStay (shape : Shape) (stride : Option Stride) (kind : ElementKind) :
    (addTensor shape stride kind).Keeps (KindsStay P) := by
  refine Act.Keeps.bind (fun d => ?_) fun t d => ?_
  · rw [makeTensor_apply]
    cases Tensor.make d.ids.tensor shape stride kind <;> exact id
  · rw [insertTensor_apply]
    split <;> exact id

theorem addOperator_kindsStay {kind : OpKind} (hkind : P kind) (inputs outputs : List TensorId) :
    (addOperator kind inputs outputs).Keeps (KindsStay P) := by
  intro d hall op hop
  rw [addOperator_apply] at hop
  rcases Graph.mem_ops_connect { id := d.ids.operator, kind, inputs, outputs } rfl rfl hop
      with ⟨op₀, hop₀, rfl⟩ | rfl
  · exact hall op₀ hop₀
  · exact hkind

theorem addOp_kindsStay {kind : OpKind} (hkind : P kind) (inputs : List TensorId) :
    (addOp kind inputs).Keeps (KindsStay P) := by
  refine (Act.keeps_ofExcept _).bind fun _ => Act.keeps_get.bind fun d =>
    (Act.keeps_ofExcept _).bind fun tensors => (Act.keeps_ofExcept _).bind fun shapes => ?_
  refine (Act.keeps_ofExcept _).bind fun kinds => (Act.keeps_ofExcept _).bind fun _ =>
    (Act.keeps_ofExcept _).bind fun _ => ?_
  refine Act.Keeps.bind (Act.Keeps.mapM (fun pair => ?_) _) fun outputs =>
    addOperator_kindsStay hkind inputs outputs
  exact addTensor_kindsStay pair.1 none pair.2

theorem addOpWithOutputs_kindsStay {kind : OpKind}
    (hkind : P kind) (inputs outputs : List TensorId) :
    (addOpWithOutputs kind inputs outputs).Keeps (KindsStay P) := by
  refine (Act.keeps_ofExcept _).bind fun _ => (Act.keeps_ofExcept _).bind fun _ =>
    Act.keeps_get.bind fun d => (Act.keeps_ofExcept _).bind fun shapes => ?_
  exact (Act.keeps_ofExcept _).bind fun _ => (Act.keeps_ofExcept _).bind fun _ =>
    addOperator_kindsStay hkind inputs outputs

end Draft

/-- The operator that a step adds, if any, is of some sort. -/
def BuildStep.Uses (P : OpKind → Prop) : BuildStep → Prop
  | .op kind _ => P kind
  | .opWithOutputs kind _ _ => P kind
  | _ => True

theorem Draft.step_kindsStay {P : OpKind → Prop} (d : Draft) {s : BuildStep} (hs : s.Uses P) :
    KindsStay P d (d.step s) := by
  cases s with
  | tensor shape stride kind => exact addTensor_kindsStay shape stride kind d
  | op kind inputs => exact addOp_kindsStay hs inputs d
  | opWithOutputs kind inputs outputs => exact addOpWithOutputs_kindsStay hs inputs outputs d
  | elsewhere tensors operators => exact id

/-! ### Graphs that are built, put in order and bound -/

/-- A step on the way to a graph. -/
inductive Revision where
  | build (step : BuildStep)
  | sort
  | bind (bindings : Bindings)

/-- The operator that a revision adds, if any, answers what it is given. -/
def Revision.Transparent : Revision → Prop
  | .build step => step.Uses OpKind.Transparent
  | _ => True

namespace Draft

/-- Takes a step; a sort or a binding that fails is not taken. -/
def revise (d : Draft) : Revision → Draft
  | .build step => d.step step
  | .sort =>
      match d.graph.topoSort with
      | .ok (graph, _) => { d with graph }
      | .error _ => d
  | .bind bindings =>
      match Graph.resolve bindings d.graph with
      | (.ok _, graph) => { d with graph }
      | (.error _, _) => d

/-- Where steps lead from nothing. -/
def revised (revisions : List Revision) : Draft := revisions.foldl revise empty

theorem steady_sort {g g' : Graph} {lost : List Operator} (h : g.Steady)
    (hsort : g.topoSort = .ok (g', lost)) : g'.Steady ∧ g'.tensors = g.tensors := by
  rcases Graph.topoSort_eq_ok hsort with ⟨_, rfl⟩ | ⟨_, order, _, _, rfl⟩
  · exact ⟨h, rfl⟩
  · have hmem : ∀ op ∈ order.eraseDups.filterMap g.operator?, op ∈ g.ops := by
      intro op hop
      obtain ⟨n, _, hn⟩ := List.mem_filterMap.1 hop
      exact Graph.mem_of_operator? hn
    exact ⟨⟨h.fitted.congr rfl fun op hop => ⟨op, hmem op hop, rfl, rfl, rfl⟩,
        fun op hop => h.transparent op (hmem op hop)⟩, rfl⟩

theorem steady_revise {d : Draft} (hfresh : d.Fresh) (h : d.graph.Steady) {r : Revision}
    (hr : r.Transparent) : (d.revise r).Fresh ∧ (d.revise r).graph.Steady := by
  cases r with
  | build step =>
      have hgrows := step_grows hfresh step
      exact ⟨hgrows.fresh hfresh, hgrows.fitted h.fitted, step_kindsStay d hr h.transparent⟩
  | sort =>
      rw [revise]
      split
      · next graph lost hsort =>
          obtain ⟨hsteady, htensors⟩ := steady_sort h hsort
          exact ⟨fun t ht => hfresh t (htensors ▸ ht), hsteady⟩
      · exact ⟨hfresh, h⟩
  | bind bindings =>
      rw [revise]
      split
      · next changed graph hresolve =>
          obtain ⟨hsound, _, rfl⟩ := h.resolve_eq_ok_iff.1 hresolve
          refine ⟨fun t ht => ?_, h.under hsound⟩
          obtain ⟨u, hu, rfl⟩ := List.mem_map.1 ht
          exact hfresh u hu
      · exact ⟨hfresh, h⟩

theorem steady_revised {revisions : List Revision} (hall : ∀ r ∈ revisions, r.Transparent) :
    (revised revisions).graph.Steady := by
  have hrun : ∀ d : Draft, d.Fresh → d.graph.Steady → (revisions.foldl revise d).graph.Steady := by
    induction revisions with
    | nil => exact fun _ _ h => h
    | cons r revisions ih =>
        intro d hfresh h
        obtain ⟨hfresh', h'⟩ := steady_revise hfresh h (hall r List.mem_cons_self)
        exact ih (fun r' hr' => hall r' (List.mem_cons_of_mem _ hr')) _ hfresh' h'
  exact hrun empty fresh_empty ⟨built_fitted [], fun _ hop => absurd hop List.not_mem_nil⟩

/-- In a graph whose operators answer what they are given, binding variables substitutes them and
changes nothing else; it fails exactly if some extent becomes a constant that is not positive, which
the failure names; and binding twice is binding both at once, the first assignment winning. -/
theorem resolve_revised (revisions : List Revision) (hall : ∀ r ∈ revisions, r.Transparent) :
    (∀ bindings changed g', Graph.resolve bindings (revised revisions).graph = (.ok changed, g') →
      changed = [] ∧ g' = (revised revisions).graph.under bindings) ∧
      (∀ bindings e, (Graph.resolve bindings (revised revisions).graph).1 = .error e →
        ∃ t ∈ (revised revisions).graph.tensors, ∃ axis v,
        (t.shape.substitute bindings).dims[axis]? = some (.const v) ∧ v ≤ 0 ∧
          e = .invalidDimension axis v (t.shape.substitute bindings)) ∧
      (∀ bindings, (∃ e, (Graph.resolve bindings (revised revisions).graph).1 = .error e) ↔
        ∃ t ∈ (revised revisions).graph.tensors, ∃ v,
        .const v ∈ (t.shape.substitute bindings).dims ∧ v ≤ 0) ∧
      ∀ first second g', (∃ changed g₁ changed',
        Graph.resolve first (revised revisions).graph = (.ok changed,
          g₁) ∧ Graph.resolve second g₁ = (.ok changed', g')) ↔
        ∃ changed,
        Graph.resolve (first.extend second) (revised revisions).graph = (.ok changed, g') := by
  have h := steady_revised hall
  refine ⟨fun bindings changed g' hresolve => (h.resolve_eq_ok_iff.1 hresolve).2,
    fun bindings e he => ?_, fun bindings => h.resolve_eq_error_iff,
    fun first second g' => h.resolve_resolve_iff⟩
  obtain ⟨t, ht, hrefused⟩ := h.refused_of_resolve he
  exact ⟨t, ht, Tensor.checkLayout_under_eq_error (h.rank ht) hrefused⟩

/-- A product of symbolic operands, and its sum with a bias that is broadcast, put in order with one
extent bound. -/
def boundProduct : List Revision :=
  [.build (.tensor ⟨[.var "n", .node .mul (.const 2) (.var "k")]⟩ none .f32),
    .build (.tensor ⟨[.node .mul (.const 2) (.var "k"), .const 4]⟩ none .f32),
    .build (.op (.gemm .standard) [1, 2]), .build (.tensor ⟨[.const 1, .const 4]⟩ none .f32),
    .build (.op (.pointwise .add) [3, 4]), .sort, .bind (.ofList [("k", 3)])]

theorem resolve_boundProduct :
    (∀ r ∈ boundProduct, r.Transparent) ∧
    (Graph.resolve (.ofList [("n", 5)]) (revised boundProduct).graph).1 = .ok [] ∧
      (Graph.resolve (.ofList [("n", 5)]) (revised boundProduct).graph).2 =
        (revised boundProduct).graph.under (.ofList [("n", 5)]) := by
  have hall : ∀ r ∈ boundProduct, r.Transparent := by
    intro r hr
    simp only [boundProduct, List.mem_cons, List.not_mem_nil, or_false] at hr
    rcases hr with rfl | rfl | rfl | rfl | rfl | rfl | rfl <;> exact trivial
  have hok : (Graph.resolve (.ofList [("n", 5)]) (revised boundProduct).graph).1 = .ok [] := by
    decide +kernel
  rcases hresolve : Graph.resolve (.ofList [("n", 5)]) (revised boundProduct).graph
      with ⟨result, g'⟩
  rw [hresolve] at hok
  obtain rfl : result = .ok [] := hok
  exact ⟨hall, rfl, ((resolve_revised boundProduct hall).1 _ _ _ hresolve).2⟩

/-- A kind that is declared with the shape `[n]` answers it whatever it is given. -/
def ownShape : List Revision :=
  [.build (.tensor ⟨[.var "n"]⟩ none .f32),
    .build (.op (.declared ⟨.add, 1, 3, 1, .add, some [⟨[.var "n"]⟩], none⟩) [1])]

/-- Binding `n` then changes a tensor beyond substitution: the output takes the variable back. -/
theorem resolve_ownShape :
    (Graph.resolve (.ofList [("n", 4)]) (revised ownShape).graph).1 = .ok [2] ∧
      (Graph.resolve (.ofList [("n", 4)]) (revised ownShape).graph).2.tensors.map Tensor.shape =
        [⟨[.const 4]⟩, ⟨[.var "n"]⟩] := by
  decide +kernel

end Draft

end TensorDataflow
