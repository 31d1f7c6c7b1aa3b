import Mathlib.Data.List.Forall2
import Mathlib.Order.Defs.Unbundled
import TensorDataflow.Machine.Basic
/-!
# Actions applied to a state

What each way of building an action does to a state. An action that binds another succeeds exactly
when both parts do, which is how every run below is taken apart; the state that a failure leaves is
known too.
-/

namespace TensorDataflow

namespace Act

variable {σ τ ε ε' α β : Type}

theorem bind_apply (x : Act σ ε α) (f : α → Act σ ε β) (s : σ) :
    (x >>= f) s = match x s with
      | (.ok a, s) => f a s
      | (.error e, s) => (.error e, s) := by
  simp only [bind, ExceptT.bind, ExceptT.mk, StateT.bind, ExceptT.bindCont, Id]
  rcases x s with ⟨_ | a, s⟩ <;> rfl

theorem bind_of_ok {x : Act σ ε α} {s s' : σ} {a : α} (h : x s = (.ok a, s')) (f : α → Act σ ε β) :
    (x >>= f) s = f a s' := by
  rw [bind_apply, h]

theorem bind_of_error {x : Act σ ε α} {s s' : σ} {e : ε} (h : x s = (.error e, s'))
    (f : α → Act σ ε β) : (x >>= f) s = (.error e, s') := by
  rw [bind_apply, h]

theorem bind_eq_ok {x : Act σ ε α} {f : α → Act σ ε β} {s s'' : σ} {b : β}
    (h : (x >>= f) s = (.ok b, s'')) :
    ∃ a s', x s = (.ok a, s') ∧ f a s' = (.ok b, s'') := by
  rw [bind_apply] at h
  rcases hx : x s with ⟨_ | a, s'⟩
  · rw [hx] at h
    cases h
  · rw [hx] at h
    exact ⟨a, s', rfl, h⟩

theorem tryCatch_of_ok {x : Act σ ε α} {s s' : σ} {a : α} (h : x s = (.ok a, s'))
    (f : ε → Act σ ε α) : (tryCatch x f) s = (.ok a, s') := by
  simp only [tryCatch, tryCatchThe, MonadExceptOf.tryCatch, ExceptT.tryCatch, ExceptT.mk,
    bind, StateT.bind]
  rw [h]
  rfl

theorem tryCatch_of_error {x : Act σ ε α} {s s' : σ} {e : ε} (h : x s = (.error e, s'))
    (f : ε → Act σ ε α) : (tryCatch x f) s = f e s' := by
  simp only [tryCatch, tryCatchThe, MonadExceptOf.tryCatch, ExceptT.tryCatch, ExceptT.mk,
    bind, StateT.bind]
  rw [h]

theorem eq_ok_of_tryCatch {x : Act σ ε α} {f : ε → Act σ ε α} {s s' : σ} {a : α}
    (h : (tryCatch x f) s = (.ok a, s')) (hf : ∀ e s s' a, f e s ≠ (.ok a, s')) :
    x s = (.ok a, s') := by
  simp only [tryCatch, tryCatchThe, MonadExceptOf.tryCatch, ExceptT.tryCatch, ExceptT.mk, bind,
    StateT.bind] at h
  rcases hx : x s with ⟨e | b, s''⟩
  · rw [hx] at h
    exact absurd h (hf e s'' s' a)
  · rw [hx] at h
    exact h

@[simp] theorem pure_apply (a : α) (s : σ) : (pure a : Act σ ε α) s = (.ok a, s) := rfl

@[simp] theorem get_apply (s : σ) : (get : Act σ ε σ) s = (.ok s, s) := rfl

@[simp] theorem set_apply (s s' : σ) : (set s' : Act σ ε PUnit) s = (.ok ⟨⟩, s') := rfl

@[simp] theorem modify_apply (f : σ → σ) (s : σ) : (modify f : Act σ ε PUnit) s = (.ok ⟨⟩, f s) :=
  rfl

@[simp] theorem ofExcept_apply (e : Except ε α) (s : σ) : (ofExcept e : Act σ ε α) s = (e, s) := rfl

theorem bind_ofExcept {e : Except ε α} {a : α} (h : e = .ok a) (f : α → Act σ ε β) (s : σ) :
    (ofExcept e >>= f) s = f a s := by
  rw [h]
  rfl

theorem ofExcept_eq_ok {e : Except ε α} {s s' : σ} {a : α}
    (h : (ofExcept e : Act σ ε α) s = (.ok a, s')) : e = .ok a ∧ s' = s := by
  obtain ⟨hok, rfl⟩ := Prod.mk.inj h
  exact ⟨hok, rfl⟩

theorem discard_apply (act : Act σ ε α) (s : σ) :
    (discard act : Act σ ε Unit) s = ((act s).1.map fun _ => (), (act s).2) := by
  have hbind : (discard act : Act σ ε Unit) = act >>= fun _ => pure () := rfl
  rw [hbind, bind_apply]
  rcases act s with ⟨_ | a, s'⟩ <;> rfl

@[simp] theorem attempt_apply (act : Act σ ε α) (s : σ) :
    (act.attempt : Act σ ε' Unit) s = (.ok (), (act s).2) :=
  rfl

theorem on_apply (get : σ → τ) (set : τ → σ → σ) (act : Act τ ε α) (s : σ) :
    on get set act s = ((act (get s)).1, set (act (get s)).2 s) :=
  rfl

theorem mapError_apply (f : ε → ε') (act : Act σ ε α) (s : σ) :
    mapError f act s = ((act s).1.mapError f, (act s).2) :=
  rfl

theorem mapError_eq_ok {f : ε → ε'} {act : Act σ ε α} {s s' : σ} {a : α} :
    mapError f act s = (.ok a, s') ↔ act s = (.ok a, s') := by
  rw [mapError_apply]
  rcases act s with ⟨e | b, s''⟩
  · exact ⟨(nomatch ·), (nomatch ·)⟩
  · exact ⟨fun h => by cases h; rfl, fun h => by cases h; rfl⟩

theorem on_eq_ok {get : σ → τ} {set : τ → σ → σ} {act : Act τ ε α} {s s' : σ} {a : α}
    (h : on get set act s = (.ok a, s')) :
    ∃ t, act (get s) = (.ok a, t) ∧ s' = set t s := by
  rw [on_apply, Prod.mk.injEq] at h
  exact ⟨(act (get s)).2, Prod.ext h.1 rfl, h.2.symm⟩

theorem on_of_ok {get : σ → τ} {set : τ → σ → σ} {act : Act τ ε α} {s : σ} {t : τ} {a : α}
    (h : act (get s) = (.ok a, t)) :
    on get set act s = (.ok a, set t s) := by
  rw [on_apply, h]

/-- An action that takes every state to one that it is related to, whether it fails or not. -/
def Keeps (R : σ → σ → Prop) (act : Act σ ε α) : Prop := ∀ s, R s (act s).2

theorem Keeps.mapError {R : σ → σ → Prop} {act : Act σ ε α} (h : act.Keeps R) (f : ε → ε') :
    (act.mapError f).Keeps R :=
  h

theorem Keeps.attempt {R : σ → σ → Prop} {act : Act σ ε α} (h : act.Keeps R) :
    (act.attempt : Act σ ε' Unit).Keeps R :=
  h

theorem Keeps.on {R : σ → σ → Prop} {Q : τ → τ → Prop} {get : σ → τ} {set : τ → σ → σ}
    (hset : ∀ s t, Q (get s) t → R s (set t s)) {act : Act τ ε α} (h : act.Keeps Q) :
    (on get set act).Keeps R := fun s => hset s _ (h (get s))

section Keeps

variable {R : σ → σ → Prop} [IsPreorder σ R]

/-- What is left to keep after an action is known to follow on what it answered and left. -/
theorem Keeps.bind_of {x : Act σ ε α} {f : α → Act σ ε β} (hx : x.Keeps R)
    (hf : ∀ s a s', x s = (.ok a, s') → R s' (f a s').2) : (x >>= f).Keeps R := by
  intro s
  have hfirst := hx s
  rcases hresult : x s with ⟨e | a, s'⟩
  · rw [bind_of_error hresult]
    rwa [hresult] at hfirst
  · rw [bind_of_ok hresult]
    rw [hresult] at hfirst
    exact IsTrans.trans _ _ _ hfirst (hf s a s' hresult)

theorem Keeps.bind {x : Act σ ε α} {f : α → Act σ ε β} (hx : x.Keeps R) (hf : ∀ a, (f a).Keeps R) :
    (x >>= f).Keeps R :=
  hx.bind_of fun _ a s' _ => hf a s'

theorem keeps_pure (a : α) : (pure a : Act σ ε α).Keeps R := fun s => refl_of R s

theorem keeps_ofExcept (e : Except ε α) : (ofExcept e : Act σ ε α).Keeps R := fun s => refl_of R s

theorem keeps_throw (e : ε) : (throw e : Act σ ε α).Keeps R := fun s => refl_of R s

theorem keeps_get : (get : Act σ ε σ).Keeps R := fun s => refl_of R s

theorem Keeps.tryCatch {x : Act σ ε α} {f : ε → Act σ ε α} (hx : x.Keeps R)
    (hf : ∀ e, (f e).Keeps R) : (tryCatch x f).Keeps R := by
  intro s
  have hfirst := hx s
  simp only [MonadExcept.tryCatch, tryCatchThe, MonadExceptOf.tryCatch, ExceptT.tryCatch,
    ExceptT.mk, Bind.bind, StateT.bind]
  rcases hresult : x s with ⟨e | a, s'⟩
  · rw [hresult] at hfirst
    exact IsTrans.trans _ _ _ hfirst (hf e s')
  · rw [hresult] at hfirst
    exact hfirst

theorem Keeps.forM {f : α → Act σ ε PUnit} (hf : ∀ a, (f a).Keeps R) (xs : List α) :
    (xs.forM f).Keeps R := by
  induction xs with
  | nil => exact keeps_pure _
  | cons x xs ih => exact (hf x).bind fun _ => ih

theorem Keeps.foldlM {f : β → α → Act σ ε β} (hf : ∀ b a, (f b a).Keeps R) (xs : List α) (b : β) :
    (xs.foldlM f b).Keeps R := by
  induction xs generalizing b with
  | nil => exact keeps_pure b
  | cons x xs ih =>
      rw [List.foldlM_cons]
      exact (hf b x).bind ih

theorem Keeps.mapM {f : α → Act σ ε β} (hf : ∀ a, (f a).Keeps R) (xs : List α) :
    (xs.mapM f).Keeps R := by
  induction xs with
  | nil => exact keeps_pure []
  | cons x xs ih =>
      rw [List.mapM_cons]
      exact (hf x).bind fun _ => ih.bind fun _ => keeps_pure _

end Keeps

end Act

theorem except_bind_eq_ok {ε α β : Type} {x : Except ε α} {f : α → Except ε β} {b : β} :
    x >>= f = .ok b ↔ ∃ a, x = .ok a ∧ f a = .ok b := by
  cases x <;> simp [bind, Except.bind]

theorem mapM_eq_ok_iff {ε α β : Type} {f : α → Except ε β} {xs : List α} {ys : List β} :
    xs.mapM f = .ok ys ↔ List.Forall₂ (fun x y => f x = .ok y) xs ys := by
  induction xs generalizing ys with
  | nil => simp [pure, Except.pure, eq_comm]
  | cons x xs ih =>
      rw [List.mapM_cons, List.forall₂_cons_left_iff]
      cases hx : f x with
      | error e => simp [bind, Except.bind]
      | ok y =>
          cases hxs : xs.mapM f with
          | error e =>
              have hnone : ∀ zs, ¬ List.Forall₂ (fun x y => f x = .ok y) xs zs := by
                intro zs hzs
                rw [ih.2 hzs] at hxs
                cases hxs
              simp [bind, Except.bind, hnone]
          | ok zs =>
              have hzs := ih.1 hxs
              simp only [bind, Except.bind, pure, Except.pure, Except.ok.injEq]
              constructor
              · rintro rfl
                exact ⟨y, zs, rfl, hzs, rfl⟩
              · rintro ⟨y', zs', rfl, hzs', rfl⟩
                rw [ih.2 hzs', Except.ok.injEq] at hxs
                rw [hxs]

theorem exists_of_forall₂_of_mem {α β : Type} {R : α → β → Prop} {xs : List α} {ys : List β}
    (h : List.Forall₂ R xs ys) {x : α} (hx : x ∈ xs) :
    ∃ y ∈ ys, R x y := by
  induction h with
  | nil => cases hx
  | cons hR _ ih =>
      rcases List.mem_cons.1 hx with rfl | hx
      · exact ⟨_, List.mem_cons_self, hR⟩
      · obtain ⟨y, hy, hR⟩ := ih hx
        exact ⟨y, List.mem_cons_of_mem _ hy, hR⟩

theorem mapM_eq_some_iff {α β : Type} {f : α → Option β} {xs : List α} {ys : List β} :
    xs.mapM f = some ys ↔ List.Forall₂ (fun x y => f x = some y) xs ys := by
  induction xs generalizing ys with
  | nil => simp [eq_comm]
  | cons x xs ih =>
      rw [List.mapM_cons, List.forall₂_cons_left_iff]
      simp only [bind, pure, Option.bind_eq_some_iff, ih, Option.some.injEq]
      constructor
      · rintro ⟨y, hy, zs, hzs, rfl⟩
        exact ⟨y, zs, hy, hzs, rfl⟩
      · rintro ⟨y, zs, hy, hzs, rfl⟩
        exact ⟨y, hy, zs, hzs, rfl⟩

end TensorDataflow
