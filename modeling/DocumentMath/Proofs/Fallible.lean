import Mathlib.Data.List.Basic

/-!
# Effects that may fail

An action that may fail and keeps its state when it does is an `ExceptT ε (StateM σ)`. The lemmas
here say how such actions run one after the other. The main one, `mapM_cases`, is about going
through a list: either every member is dealt with, or there is a first one that fails, and then its
error and the state it leaves are all that comes of the whole. `FailsOnly` says of an action what
its errors are, and `Leaves` what of the state it does not change. Without a state, what remains of
this are the first lemmas, on `Except`.
-/

namespace DocumentMath.Fallible

variable {ε σ α β : Type}

/-! ### Without a state -/

section Except

variable {x : Except ε α}

theorem bind_of_ok {a : α} (h : x = .ok a) (f : α → Except ε β) : (x >>= f) = f a := by
  rw [h]
  rfl

/-- What goes on without an error goes on with a value. -/
theorem bind_eq_ok {f : α → Except ε β} {b : β} (h : (x >>= f) = .ok b) :
    ∃ a, x = .ok a ∧ f a = .ok b := by
  cases x with
  | error e => cases h
  | ok a => exact ⟨a, rfl, h⟩

theorem map_eq_ok {f : α → β} {b : β} (h : x.map f = .ok b) : ∃ a, x = .ok a ∧ f a = b := by
  cases x with
  | error e => cases h
  | ok a => exact ⟨a, rfl, Except.ok.inj h⟩

end Except

/-! ### With a state -/

@[simp] theorem run_pure (a : α) (s : σ) :
    (pure a : ExceptT ε (StateM σ) α).run.run s = (.ok a, s) := rfl

theorem run_get (s : σ) : (get : ExceptT ε (StateM σ) σ).run.run s = (.ok s, s) := rfl

theorem run_bind_of_ok {x : ExceptT ε (StateM σ) α} {f : α → ExceptT ε (StateM σ) β} {s s' : σ}
    {a : α} (h : x.run.run s = (.ok a, s')) : (x >>= f).run.run s = (f a).run.run s' := by
  show ((x.run >>= ExceptT.bindCont f : StateM σ _).run s) = _
  rw [StateT.run_bind]
  show ((ExceptT.bindCont f (x.run.run s).1).run (x.run.run s).2) = _
  rw [h]
  rfl

theorem run_bind_of_error {x : ExceptT ε (StateM σ) α} {f : α → ExceptT ε (StateM σ) β} {s s' : σ}
    {e : ε} (h : x.run.run s = (.error e, s')) : (x >>= f).run.run s = (.error e, s') := by
  show ((x.run >>= ExceptT.bindCont f : StateM σ _).run s) = _
  rw [StateT.run_bind]
  show ((ExceptT.bindCont f (x.run.run s).1).run (x.run.run s).2) = _
  rw [h]
  rfl

/-- What comes of two actions without an error comes of both without one. -/
theorem run_bind_eq_ok {x : ExceptT ε (StateM σ) α} {f : α → ExceptT ε (StateM σ) β} {s t : σ}
    {b : β} (h : (x >>= f).run.run s = (.ok b, t)) :
    ∃ a s', x.run.run s = (.ok a, s') ∧ (f a).run.run s' = (.ok b, t) := by
  rcases hx : x.run.run s with ⟨e | a, s'⟩
  · rw [run_bind_of_error hx] at h
    cases h
  · rw [run_bind_of_ok hx] at h
    exact ⟨a, s', rfl, h⟩

theorem run_map_of_ok {x : ExceptT ε (StateM σ) α} (f : α → β) {s s' : σ} {a : α}
    (h : x.run.run s = (.ok a, s')) : (f <$> x).run.run s = (.ok (f a), s') := by
  rw [← bind_pure_comp, run_bind_of_ok h, run_pure]

/-- What comes of an action without an error came of it before it was mapped. -/
theorem run_map_eq_ok {x : ExceptT ε (StateM σ) α} {f : α → β} {s t : σ} {b : β}
    (h : (f <$> x).run.run s = (.ok b, t)) : ∃ a, x.run.run s = (.ok a, t) ∧ f a = b := by
  rw [← bind_pure_comp] at h
  obtain ⟨a, s', hx, hpure⟩ := run_bind_eq_ok h
  cases hpure
  exact ⟨a, hx, rfl⟩

theorem run_map_of_error {x : ExceptT ε (StateM σ) α} (f : α → β) {s s' : σ} {e : ε}
    (h : x.run.run s = (.error e, s')) : (f <$> x).run.run s = (.error e, s') := by
  rw [← bind_pure_comp, run_bind_of_error h]

/-- One more member at the end of a list is dealt with last. -/
theorem run_mapM_concat {f : α → ExceptT ε (StateM σ) β} {xs : List α} {x : α} {ys : List β}
    {y : β} {s t t' : σ} (hxs : (xs.mapM f).run.run s = (.ok ys, t))
    (hx : (f x).run.run t = (.ok y, t')) :
    ((xs ++ [x]).mapM f).run.run s = (.ok (ys ++ [y]), t') := by
  simp only [List.mapM_append, List.mapM_cons, List.mapM_nil, pure_bind, bind_assoc]
  rw [run_bind_of_ok hxs, run_bind_of_ok hx, run_pure]

/-- Going through a list either succeeds throughout or ends with the first member that fails; no
later one is looked at. -/
theorem mapM_cases (f : α → ExceptT ε (StateM σ) β) (xs : List α) (s : σ) :
    (∃ ys t, ys.length = xs.length ∧ (xs.mapM f).run.run s = (.ok ys, t)) ∨
      ∃ done x later ys t e t', xs = done ++ x :: later ∧
        (done.mapM f).run.run s = (.ok ys, t) ∧ (f x).run.run t = (.error e, t') ∧
          (xs.mapM f).run.run s = (.error e, t') := by
  induction xs generalizing s with
  | nil => exact Or.inl ⟨[], s, rfl, rfl⟩
  | cons x xs ih =>
    simp only [List.mapM_cons]
    rcases hx : (f x).run.run s with ⟨e | y, s'⟩
    · exact Or.inr ⟨[], x, xs, [], s, e, s', rfl, rfl, hx, run_bind_of_error hx⟩
    · rcases ih s' with ⟨ys, t, hlen, hys⟩ | ⟨done, z, later, ys, t, e, t', hxs, hdone, hz, hrest⟩
      · refine Or.inl ⟨y :: ys, t, by rw [List.length_cons, hlen, List.length_cons], ?_⟩
        rw [run_bind_of_ok hx, run_bind_of_ok hys, run_pure]
      · refine Or.inr ⟨x :: done, z, later, y :: ys, t, e, t', by rw [hxs, List.cons_append], ?_,
          hz, ?_⟩
        · rw [List.mapM_cons, run_bind_of_ok hx, run_bind_of_ok hdone, run_pure]
        · rw [run_bind_of_ok hx, run_bind_of_error hrest]

theorem forM_concat (f : α → ExceptT ε (StateM σ) PUnit) (xs : List α) (x : α) :
    (xs ++ [x]).forM f = xs.forM f >>= fun _ ↦ f x := by
  have hlast : [x].forM f = f x := bind_pure (f x)
  rw [← hlast]
  exact List.forM_append

/-- Going through a list for the effects alone ends in the same two ways. -/
theorem forM_cases (f : α → ExceptT ε (StateM σ) PUnit) (xs : List α) (s : σ) :
    (∃ t, (xs.forM f).run.run s = (.ok ⟨⟩, t)) ∨
      ∃ done x later t e t', xs = done ++ x :: later ∧
        (done.forM f).run.run s = (.ok ⟨⟩, t) ∧ (f x).run.run t = (.error e, t') ∧
          (xs.forM f).run.run s = (.error e, t') := by
  induction xs generalizing s with
  | nil => exact Or.inl ⟨s, rfl⟩
  | cons x xs ih =>
    rcases hx : (f x).run.run s with ⟨e | u, s'⟩
    · exact Or.inr ⟨[], x, xs, s, e, s', rfl, rfl, hx, run_bind_of_error hx⟩
    · rcases ih s' with ⟨t, ht⟩ | ⟨done, z, later, t, e, t', hxs, hdone, hz, hrest⟩
      · exact Or.inl ⟨t, (run_bind_of_ok hx).trans ht⟩
      · exact Or.inr ⟨x :: done, z, later, t, e, t', by rw [hxs, List.cons_append],
          (run_bind_of_ok hx).trans hdone, hz, (run_bind_of_ok hx).trans hrest⟩

/-- Going through a list comes to the same with two actions that agree wherever one of them leads.
-/
theorem forM_congr {f g : α → ExceptT ε (StateM σ) PUnit} {P : List α → σ → Prop}
    (hnext : ∀ x later s t, P (x :: later) s → (f x).run.run s = (.ok ⟨⟩, t) → P later t)
    (hagree : ∀ x later s, P (x :: later) s → (g x).run.run s = (f x).run.run s)
    {xs : List α} {s : σ} (h : P xs s) : (xs.forM g).run.run s = (xs.forM f).run.run s := by
  induction xs generalizing s with
  | nil => rfl
  | cons x xs ih =>
    have hg := hagree x xs s h
    rcases hf : (f x).run.run s with ⟨e | u, t⟩ <;> rw [hf] at hg
    · exact (run_bind_of_error hg).trans (run_bind_of_error hf).symm
    · refine (run_bind_of_ok hg).trans (Eq.trans ?_ (run_bind_of_ok hf).symm)
      exact ih (hnext x xs s t h hf)

/-! ### What the errors are -/

/-- All errors of an action have a property. -/
def FailsOnly (P : ε → Prop) (x : ExceptT ε (StateM σ) α) : Prop :=
  ∀ s e t, x.run.run s = (.error e, t) → P e

namespace FailsOnly

variable {P : ε → Prop}

theorem pure (a : α) : FailsOnly P (Pure.pure a : ExceptT ε (StateM σ) α) := by
  intro s e t h
  cases h

theorem bind {x : ExceptT ε (StateM σ) α} {f : α → ExceptT ε (StateM σ) β} (hx : FailsOnly P x)
    (hf : ∀ a, FailsOnly P (f a)) : FailsOnly P (x >>= f) := by
  intro s e t h
  rcases hrun : x.run.run s with ⟨e' | a, s'⟩
  · rw [run_bind_of_error hrun] at h
    cases h
    exact hx s e t hrun
  · rw [run_bind_of_ok hrun] at h
    exact hf a s' e t h

theorem map {x : ExceptT ε (StateM σ) α} (f : α → β) (hx : FailsOnly P x) :
    FailsOnly P (f <$> x) := by
  rw [← bind_pure_comp]
  exact hx.bind fun a ↦ pure (f a)

theorem mapM {f : α → ExceptT ε (StateM σ) β} {xs : List α} (h : ∀ x ∈ xs, FailsOnly P (f x)) :
    FailsOnly P (xs.mapM f) := by
  induction xs with
  | nil => exact pure []
  | cons x xs ih =>
    rw [List.forall_mem_cons] at h
    rw [List.mapM_cons]
    exact h.1.bind fun y ↦ (ih h.2).bind fun ys ↦ pure (y :: ys)

end FailsOnly

/-! ### What the state is -/

/-- Whatever comes of an action, what is seen of the state in a certain way is as it was. -/
def Leaves {τ : Type} (see : σ → τ) (x : ExceptT ε (StateM σ) α) : Prop :=
  ∀ s, see (x.run.run s).2 = see s

namespace Leaves

variable {τ : Type} {see : σ → τ}

theorem pure (a : α) : Leaves see (Pure.pure a : ExceptT ε (StateM σ) α) := fun _ ↦ rfl

theorem bind {x : ExceptT ε (StateM σ) α} {f : α → ExceptT ε (StateM σ) β} (hx : Leaves see x)
    (hf : ∀ a, Leaves see (f a)) : Leaves see (x >>= f) := by
  intro s
  have hs := hx s
  rcases hrun : x.run.run s with ⟨e | a, s'⟩ <;> rw [hrun] at hs
  · rw [run_bind_of_error hrun, hs]
  · rw [run_bind_of_ok hrun, hf a s', hs]

theorem map {x : ExceptT ε (StateM σ) α} (f : α → β) (hx : Leaves see x) :
    Leaves see (f <$> x) := by
  rw [← bind_pure_comp]
  exact hx.bind fun a ↦ pure (f a)

theorem mapM {f : α → ExceptT ε (StateM σ) β} {xs : List α} (h : ∀ x ∈ xs, Leaves see (f x)) :
    Leaves see (xs.mapM f) := by
  induction xs with
  | nil => exact pure []
  | cons x xs ih =>
    rw [List.forall_mem_cons] at h
    rw [List.mapM_cons]
    exact h.1.bind fun y ↦ (ih h.2).bind fun ys ↦ pure (y :: ys)

end Leaves

end DocumentMath.Fallible
