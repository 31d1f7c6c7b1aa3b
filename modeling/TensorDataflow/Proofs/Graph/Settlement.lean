import TensorDataflow.Proofs.Graph.Built
import TensorDataflow.Proofs.Graph.Resolution
/-!
# One pass of inference

Inference walks over the operators once and gives every output the shape that is inferred for it at
that moment. Where each operator stands after those that make its inputs, and no tensor is made by
two, nothing that comes later touches what an operator has read or made. So the pass leaves all
operators consistent, and it answers exactly the tensors to which it has given other shapes.

An operator may list a tensor twice among its outputs. The pass then gives it two shapes, one after
the other, and they have to be the same; they are for every operator that a graph has once taken in,
`Graph.Fits.unambiguous`.
-/

namespace TensorDataflow

namespace OpKind

/-- A tensor that stands twice among the outputs is inferred one shape. -/
def Unambiguous (kind : OpKind) (outputs : List TensorId) : Prop :=
  ∀ inputs shapes, kind.inferShapes inputs = .ok shapes →
    ∀ p ∈ outputs.zip shapes, ∀ q ∈ outputs.zip shapes, p.1 = q.1 → p.2 = q.2

/-- Only a kind with shapes of its own infers different ones. -/
theorem eq_or_uniform_of_inferShapes {kind : OpKind} {inputs : List Tensor} {shapes : List Shape}
    (h : kind.inferShapes inputs = .ok shapes) :
    (∀ others, kind.inferShapes others = .ok shapes) ∨ ∀ a ∈ shapes, ∀ b ∈ shapes, a = b := by
  have hone : ∀ {s : Shape}, [s] = shapes → ∀ a ∈ shapes, ∀ b ∈ shapes, a = b := by
    rintro s rfl a ha b hb
    rw [List.mem_singleton.1 ha, List.mem_singleton.1 hb]
  cases kind with
  | pointwise f =>
      rcases inputs with _ | ⟨a, _ | ⟨b, _⟩⟩
      · cases h
      · cases h
      · rw [inferShapes] at h
        split at h
        · exact .inr (hone (Except.ok.inj h))
        · cases h
  | gemm attributes =>
      rcases inputs with _ | ⟨a, _ | ⟨b, _⟩⟩
      · cases h
      · cases h
      · obtain ⟨s, _, h⟩ := except_bind_eq_ok.1 h
        exact .inr (hone (Except.ok.inj h))
  | rmsNorm epsilon =>
      rcases inputs with _ | ⟨x, _ | ⟨w, _⟩⟩
      · cases h
      · cases h
      · obtain ⟨s, _, h⟩ := except_bind_eq_ok.1 h
        exact .inr (hone (Except.ok.inj h))
  | declared d =>
      obtain ⟨_, _, _, count, _, own, _⟩ := d
      cases own with
      | some own => exact .inl fun _ => h
      | none =>
          refine .inr fun a ha b hb => ?_
          cases inputs with
          | nil =>
              cases h
              cases ha
          | cons first _ =>
              cases h
              rw [List.eq_of_mem_replicate ha, List.eq_of_mem_replicate hb]

end OpKind

namespace Graph

variable {g g' g'' : Graph} {changed changed' : List TensorId}

theorem Fits.unambiguous {kind : OpKind} {inputs outputs : List TensorId}
    (h : g.Fits kind inputs outputs) : kind.Unambiguous outputs := by
  intro others shapes hshapes p hp q hq hsame
  rcases OpKind.eq_or_uniform_of_inferShapes hshapes with hfixed | huniform
  · -- the shapes are those that the tensors had when the operator was taken in
    obtain ⟨tensors, shapes', _, _, hshapes', _, houtputs⟩ := h
    obtain rfl : shapes' = shapes := Except.ok.inj (hshapes'.symm.trans (hfixed tensors))
    obtain ⟨t, ht, hpShape⟩ : ∃ t, g.tensor? p.1 = some t ∧ t.shape = p.2 :=
      (List.forall₂_iff_zip.1 houtputs).2 hp
    obtain ⟨u, hu, hqShape⟩ : ∃ t, g.tensor? q.1 = some t ∧ t.shape = q.2 :=
      (List.forall₂_iff_zip.1 houtputs).2 hq
    obtain rfl : t = u := Option.some.inj (ht.symm.trans (hsame ▸ hu))
    exact hpShape.symm.trans hqShape
  · exact huniform _ (List.of_mem_zip hp).2 _ (List.of_mem_zip hq).2

/-! ### What a pass reports -/

/-- The shape that a number stands for, if it stands for a tensor. -/
def shapeOf (g : Graph) (id : TensorId) : Option Shape := (g.tensor? id).map Tensor.shape

theorem shapeOf_congr {id : TensorId} (h : g'.tensor? id = g.tensor? id) :
    g'.shapeOf id = g.shapeOf id := by
  rw [shapeOf, shapeOf, h]

/-- The tensors that have different shapes in two graphs, each once. -/
structure Reports (g : Graph) (changed : List TensorId) (g' : Graph) : Prop where
  nodup : changed.Nodup
  mem_iff : ∀ id, id ∈ changed ↔ g'.shapeOf id ≠ g.shapeOf id

namespace Reports

theorem refl (g : Graph) : g.Reports [] g := ⟨List.nodup_nil, fun id => by simp⟩

theorem eq_of_not_mem (h : g.Reports changed g') {id : TensorId} (hid : id ∉ changed) :
    g'.shapeOf id = g.shapeOf id :=
  not_not.1 fun hne => hid ((h.mem_iff id).2 hne)

/-- Two reports make up one where the second leaves alone what is in the first. -/
theorem append (h : g.Reports changed g') (h' : g'.Reports changed' g'')
    (hkept : ∀ id ∈ changed, g''.shapeOf id = g'.shapeOf id) :
    g.Reports (changed ++ changed') g'' where
  nodup := List.nodup_append.2
    ⟨h.nodup, h'.nodup, fun id hid k hk heq => (h'.mem_iff k).1 hk (heq ▸ hkept id hid)⟩
  mem_iff id := by
    rw [List.mem_append, h'.mem_iff]
    by_cases hid : id ∈ changed
    · rw [hkept id hid]
      simp [hid, (h.mem_iff id).1 hid]
    · rw [h.eq_of_not_mem hid]
      simp [hid]

end Reports

/-! ### One operator -/

theorem tensor?_modifyTensor (g : Graph) (id k : TensorId) {f : Tensor → Tensor}
    (hf : ∀ t, (f t).id = t.id) :
    (g.modifyTensor id f).tensor? k = (g.tensor? k).map fun t => if t.id = id then f t else t := by
  refine find?_map_of_id Tensor.id _ (fun t => ?_) g.tensors k
  split
  · exact hf t
  · rfl

theorem setInferred_reports {id : TensorId} {shape : Shape} {change : Bool}
    (h : setInferred id shape g = (.ok change, g')) :
    (∀ k, k ≠ id → g'.tensor? k = g.tensor? k) ∧ g'.shapeOf id = some shape ∧
    g.Reports (if change then [id] else []) g' := by
  rw [setInferred, Act.bind_of_ok (Act.get_apply _)] at h
  obtain ⟨t, g, hfound, hset⟩ := Act.bind_eq_ok h
  obtain ⟨hfound, rfl⟩ := Act.ofExcept_eq_ok hfound
  have ht := tensor_eq_ok_iff.1 hfound
  have hbefore : g.shapeOf id = some t.shape := by rw [shapeOf, ht, Option.map_some]
  split at hset
  · next hshape =>
      cases hset
      exact ⟨fun _ _ => rfl, hshape ▸ hbefore, .refl _⟩
  · next hshape =>
      cases hset
      have hfind : ∀ k, (g.modifyTensor id fun t => t.setShape shape).tensor? k =
          (g.tensor? k).map fun t => if t.id = id then t.setShape shape else t :=
        fun k => g.tensor?_modifyTensor id k fun _ => rfl
      have hframe : ∀ k, k ≠ id →
          (g.modifyTensor id fun t => t.setShape shape).tensor? k = g.tensor? k := by
        intro k hk
        rw [hfind]
        cases hu : g.tensor? k with
        | none => rfl
        | some u => rw [Option.map_some, if_neg (id_of_tensor? hu ▸ hk)]
      have hafter : (g.modifyTensor id fun t => t.setShape shape).shapeOf id = some shape := by
        rw [shapeOf, hfind, ht, Option.map_some, if_pos (id_of_tensor? ht)]
        rfl
      refine ⟨hframe, hafter, List.nodup_singleton _, fun k => ?_⟩
      by_cases hk : k = id
      · subst hk
        simpa [hbefore, hafter] using Ne.symm hshape
      · simp [hk, shapeOf_congr (hframe k hk)]

/-- Along the outputs of one operator, where a tensor that comes again has the same shape again. -/
theorem mapM_setInferred_reports {pairs : List (TensorId × Shape)}
    {changes : List (TensorId × Bool)} (hsame : ∀ p ∈ pairs, ∀ q ∈ pairs, p.1 = q.1 → p.2 = q.2)
    (h : (pairs.mapM fun (id, shape) => do return (id, ← setInferred id shape) :
        Act Graph GraphError (List (TensorId × Bool))) g = (.ok changes, g')) :
    (∀ k, k ∉ pairs.map Prod.fst → g'.tensor? k = g.tensor? k) ∧
    (∀ p ∈ pairs, g'.shapeOf p.1 = some p.2) ∧
    g.Reports ((changes.filter Prod.snd).map Prod.fst) g' := by
  induction pairs generalizing g changes with
  | nil =>
      cases h
      exact ⟨fun _ _ => rfl, fun _ h => absurd h List.not_mem_nil, .refl _⟩
  | cons pair pairs ih =>
      obtain ⟨id, shape⟩ := pair
      rw [List.mapM_cons] at h
      obtain ⟨_, g₁, hset, h⟩ := Act.bind_eq_ok h
      obtain ⟨change, _, hset, hanswer⟩ := Act.bind_eq_ok hset
      cases hanswer
      obtain ⟨rest, _, hrest, h⟩ := Act.bind_eq_ok h
      cases h
      obtain ⟨hframe, hafter, hreports⟩ := setInferred_reports hset
      obtain ⟨hframe', hafter', hreports'⟩ := ih
        (fun p hp q hq => hsame p (List.mem_cons_of_mem _ hp) q (List.mem_cons_of_mem _ hq)) hrest
      have hkept : g'.shapeOf id = some shape := by
        by_cases hagain : id ∈ pairs.map Prod.fst
        · obtain ⟨p, hp, rfl⟩ := List.mem_map.1 hagain
          rw [hafter' p hp, hsame p (List.mem_cons_of_mem _ hp) (p.1, shape) List.mem_cons_self rfl]
        · rw [shapeOf_congr (hframe' id hagain), hafter]
      refine ⟨fun k hk => ?_, fun p hp => ?_, ?_⟩
      · rw [List.map_cons, List.mem_cons, not_or] at hk
        rw [hframe' k hk.2, hframe k hk.1]
      · rcases List.mem_cons.1 hp with rfl | hp
        · exact hkept
        · exact hafter' p hp
      · have hchanges : (((id, change) :: rest).filter Prod.snd).map Prod.fst =
            (if change then [id] else []) ++ (rest.filter Prod.snd).map Prod.fst := by
          cases change <;> rfl
        rw [hchanges]
        refine hreports.append hreports' fun k hk => ?_
        obtain ⟨-, rfl⟩ : change = true ∧ k = id := by simpa using hk
        rw [hkept, hafter]

/-! ### All operators -/

/-- What inferring the outputs of some operators comes to: other tensors are as before, the
operators are consistent, and the change of shapes is reported. -/
structure Infers (ops : List Operator) (changed : List TensorId) (g g' : Graph) : Prop where
  frame : ∀ id, (∀ op ∈ ops, id ∉ op.outputs) → g'.tensor? id = g.tensor? id
  consistent : ∀ op ∈ ops, g'.Consistent op
  reports : g.Reports changed g'

theorem tensorsOf_congr {ids : List TensorId} {tensors : List Tensor}
    (h : g.tensorsOf ids = .ok tensors) (hsame : ∀ id ∈ ids, g'.tensor? id = g.tensor? id) :
    g'.tensorsOf ids = .ok tensors := by
  rw [tensorsOf_eq_ok_iff] at h ⊢
  exact ((List.forall₂_and_left _ _).2 ⟨hsame, h⟩).imp fun id t hid => hid.1.trans hid.2

theorem Consistent.congr {op : Operator} (h : g.Consistent op)
    (hinputs : ∀ id ∈ op.inputs, g'.tensor? id = g.tensor? id)
    (houtputs : ∀ id ∈ op.outputs, g'.tensor? id = g.tensor? id) :
    g'.Consistent op := by
  obtain ⟨inputs, outputs, hins, houts, hshapes⟩ := h
  exact ⟨inputs, outputs, tensorsOf_congr hins hinputs, tensorsOf_congr houts houtputs, hshapes⟩

/-- An operator that makes none of its inputs is consistent once its outputs have been inferred. -/
theorem inferOperator_infers {op : Operator} (hkind : op.kind.Unambiguous op.outputs)
    (hself : ∀ id ∈ op.outputs, id ∉ op.inputs) (h : inferOperator op g = (.ok changed, g')) :
    Infers [op] changed g g' := by
  rw [inferOperator, Act.bind_of_ok (Act.get_apply _)] at h
  obtain ⟨shapes, _, hinfer, hset⟩ := Act.bind_eq_ok h
  obtain ⟨hshapes, rfl⟩ := Act.ofExcept_eq_ok hinfer
  obtain ⟨inputs, hinputs, hshapes⟩ := except_bind_eq_ok.1 hshapes
  dsimp only at hset
  split at hset
  · cases hset
  · next hlength =>
      obtain ⟨changes, _, hpass, hanswer⟩ := Act.bind_eq_ok hset
      cases hanswer
      obtain ⟨hframe, hafter, hreports⟩ :=
        mapM_setInferred_reports (hkind inputs shapes hshapes) hpass
      have hfst : (op.outputs.zip shapes).map Prod.fst = op.outputs :=
        List.map_fst_zip (Nat.le_of_eq (not_not.1 hlength).symm)
      rw [hfst] at hframe
      refine ⟨fun id hid => hframe id (hid op List.mem_cons_self), fun op' hop' => ?_, hreports⟩
      obtain rfl := List.mem_singleton.1 hop'
      have houtputs : List.Forall₂ (fun id shape => ∃ t, g'.tensor? id = some t ∧ t.shape = shape)
          op'.outputs shapes :=
        List.forall₂_iff_zip.2 ⟨(not_not.1 hlength).symm,
            fun {id shape} hpair => Option.map_eq_some_iff.1 (hafter (id, shape) hpair)⟩
      obtain ⟨outputs, hfound, rfl⟩ := exists_tensorsOf_iff.2 houtputs
      exact ⟨inputs, outputs, tensorsOf_congr hinputs fun id hid => hframe id fun hout =>
        hself id hout hid, hfound, hshapes⟩

/-- Operators that touch nothing that one before them has read or made leave it consistent. -/
theorem Infers.cons {op : Operator} {ops : List Operator} (h : Infers [op] changed g g')
    (h' : Infers ops changed' g' g'')
    (hapart : ∀ later ∈ ops, ∀ id ∈ later.outputs, id ∉ op.inputs ∧ id ∉ op.outputs) :
    Infers (op :: ops) (changed ++ changed') g g'' := by
  have hinputs : ∀ id ∈ op.inputs, g''.tensor? id = g'.tensor? id :=
    fun id hid => h'.frame id fun later hlater hout => (hapart later hlater id hout).1 hid
  have houtputs : ∀ id ∈ op.outputs, g''.tensor? id = g'.tensor? id :=
    fun id hid => h'.frame id fun later hlater hout => (hapart later hlater id hout).2 hid
  refine ⟨fun id hid => ?_, fun op' hop' => ?_,
    h.reports.append h'.reports fun id hid => shapeOf_congr (houtputs id ?_)⟩
  · rw [h'.frame id fun later hlater => hid later (List.mem_cons_of_mem _ hlater),
      h.frame id fun op' hop' => hid op' (List.mem_singleton.1 hop' ▸ List.mem_cons_self)]
  · rcases List.mem_cons.1 hop' with rfl | hop'
    · exact (h.consistent _ List.mem_cons_self).congr hinputs houtputs
    · exact h'.consistent op' hop'
  · -- what the operator has reported is among its outputs
    refine not_not.1 fun hout =>
      (h.reports.mem_iff id).1 hid (shapeOf_congr (h.frame id fun op' hop' => ?_))
    exact List.mem_singleton.1 hop' ▸ hout

theorem mapM_inferOperator_infers {ops : List Operator} {changes : List (List TensorId)}
    (hkinds : ∀ op ∈ ops, op.kind.Unambiguous op.outputs)
    (hself : ∀ op ∈ ops, ∀ id ∈ op.outputs, id ∉ op.inputs)
    (hapart : ops.Pairwise fun op later => ∀ id ∈ later.outputs, id ∉ op.inputs ∧ id ∉ op.outputs)
    (h : ops.mapM inferOperator g = (.ok changes, g')) : Infers ops changes.flatten g g' := by
  induction ops generalizing g changes with
  | nil =>
      cases h
      exact ⟨fun _ _ => rfl, fun _ h => absurd h List.not_mem_nil, .refl _⟩
  | cons op ops ih =>
      rw [List.mapM_cons] at h
      obtain ⟨changed, g₁, hop, h⟩ := Act.bind_eq_ok h
      obtain ⟨rest, _, hrest, h⟩ := Act.bind_eq_ok h
      cases h
      rw [List.pairwise_cons] at hapart
      have hfirst :=
        inferOperator_infers (hkinds op List.mem_cons_self) (hself op List.mem_cons_self) hop
      have hthen := ih (fun op hop => hkinds op (List.mem_cons_of_mem _ hop))
        (fun op hop => hself op (List.mem_cons_of_mem _ hop)) hapart.2 hrest
      exact hfirst.cons hthen hapart.1

/-! ### Operators in order -/

/-- Every operator stands after those that make its inputs. -/
def Sequenced (g : Graph) : Prop :=
  ∀ front c rest, g.ops = front ++ c :: rest → ∀ a, g.Feeds a c → a ∈ front

theorem sequenced_iff : g.Sequenced ↔ ∀ n (hn : n < g.ops.length), ∀ a ∈ g.ops,
    (∃ id ∈ a.outputs, id ∈ g.ops[n].inputs) → a ∈ g.ops.take n := by
  constructor
  · intro h n hn a ha hfeeds
    have hsplit : g.ops = g.ops.take n ++ g.ops[n] :: g.ops.drop (n + 1) := by
      rw [List.getElem_cons_drop, List.take_append_drop]
    exact h _ _ _ hsplit a ⟨ha, List.getElem_mem hn, hfeeds⟩
  · rintro h front c rest hsplit a ⟨ha, -, hfeeds⟩
    have hn : front.length < g.ops.length := by simp [hsplit]
    have hc : g.ops[front.length] = c := by simp [hsplit]
    have hfront : g.ops.take front.length = front := by simp [hsplit]
    exact hfront ▸ h front.length hn a ha (hc.symm ▸ hfeeds)

instance (g : Graph) : Decidable g.Sequenced := decidable_of_iff _ sequenced_iff.symm

theorem Sequenced.lt (h : g.Sequenced) (hnodup : g.ops.Nodup) {m n : Nat} (hm : m < g.ops.length)
    (hn : n < g.ops.length) {id : TensorId} (hout : id ∈ g.ops[m].outputs)
    (hin : id ∈ g.ops[n].inputs) : m < n := by
  obtain ⟨k, hk, hfound⟩ :=
    List.mem_take_iff_getElem.1 (sequenced_iff.1 h n hn _ (List.getElem_mem hm) ⟨id, hout, hin⟩)
  have hkm : k = m := (hnodup.getElem_inj_iff).1 hfound
  omega

/-- A pass over operators in order, where no tensor has two producers. -/
theorem shapeInfer_infers (hnodup : g.ops.Nodup)
    (hkinds : ∀ op ∈ g.ops, op.kind.Unambiguous op.outputs) (hsingle : g.SingleProducer)
    (hsequenced : g.Sequenced)
    (h : shapeInfer g = (.ok changed, g')) : Infers g.ops changed g g' := by
  rw [shapeInfer, Act.bind_of_ok (Act.get_apply _)] at h
  obtain ⟨changes, _, hpass, h⟩ := Act.bind_eq_ok h
  cases h
  refine mapM_inferOperator_infers hkinds (fun op hop id hout hin => ?_)
    (List.pairwise_iff_getElem.2 fun m n hm hn hlt id hout =>
      ⟨fun hin => ?_, fun hout' => ?_⟩) hpass
  · obtain ⟨n, hn, rfl⟩ := List.mem_iff_getElem.1 hop
    exact Nat.lt_irrefl n (hsequenced.lt hnodup hn hn hout hin)
  · exact Nat.lt_asymm hlt (hsequenced.lt hnodup hn hm hout hin)
  · have hsame := hsingle _ (List.getElem_mem hm) _ (List.getElem_mem hn) id hout' hout
    exact Nat.ne_of_lt hlt ((hnodup.getElem_inj_iff).1 hsame)

end Graph

end TensorDataflow
