import Mathlib.Data.List.Forall2

/-!
# Outcomes side by side

Two computations that end in the same way: both with results that belong together, or both with
errors that do. Also two lists with the same images.
-/

namespace EidMap

inductive Paired {ε α β : Type} (E : ε → ε → Prop) (P : α → β → Prop) :
    Except ε α → Except ε β → Prop
  | ok {a : α} {b : β} (h : P a b) : Paired E P (.ok a) (.ok b)
  | error {e e' : ε} (h : E e e') : Paired E P (.error e) (.error e')

namespace Paired

variable {ε ε' α α' β β' γ : Type} {E : ε → ε → Prop} {P : α → β → Prop} {x : Except ε α}
  {y : Except ε β}

theorem refl {P : α → α → Prop} (hE : ∀ e, E e e) (hP : ∀ a, P a a) (x : Except ε α) :
    Paired E P x x := by
  cases x with
  | ok a => exact .ok (hP a)
  | error e => exact .error (hE e)

theorem imp {E' : ε → ε → Prop} {Q : α → β → Prop} (h : Paired E P x y)
    (hE : ∀ e e', E e e' → E' e e') (hP : ∀ a b, P a b → Q a b) : Paired E' Q x y := by
  cases h with
  | ok h => exact .ok (hP _ _ h)
  | error h => exact .error (hE _ _ h)

theorem mono {Q : α → β → Prop} (h : Paired E P x y) (hP : ∀ a b, P a b → Q a b) :
    Paired E Q x y :=
  h.imp (fun _ _ => id) hP

theorem map {f : α → α'} {g : β → β'} {Q : α' → β' → Prop} (h : Paired E P x y)
    (hP : ∀ a b, P a b → Q (f a) (g b)) : Paired E Q (x.map f) (y.map g) := by
  cases h with
  | ok h => exact .ok (hP _ _ h)
  | error h => exact .error h

theorem mapError {E' : ε' → ε' → Prop} {f g : ε → ε'} (h : Paired E P x y)
    (hE : ∀ e e', E e e' → E' (f e) (g e')) : Paired E' P (x.mapError f) (y.mapError g) := by
  cases h with
  | ok h => exact .ok h
  | error h => exact .error (hE _ _ h)

theorem bind {f : α → Except ε α'} {g : β → Except ε β'} {Q : α' → β' → Prop}
    (h : Paired E P x y) (hP : ∀ a b, P a b → Paired E Q (f a) (g b)) :
    Paired E Q (x >>= f) (y >>= g) := by
  cases h with
  | ok h => exact hP _ _ h
  | error h => exact .error h

theorem join {Q : γ → β → Prop} {z : Except ε γ} (h : Paired Eq P x y) (h' : Paired Eq Q z y) :
    Paired Eq (fun a c => ∃ b, P a b ∧ Q c b) x z := by
  cases h with
  | ok h =>
    cases h' with
    | ok h' => exact .ok ⟨_, h, h'⟩
  | error h =>
    subst h
    cases h' with
    | error h' => exact .error h'.symm

end Paired

theorem forall₂_of_map_eq {α β : Type} {f : α → β} {xs ys : List α} (h : ys.map f = xs.map f) :
    List.Forall₂ (fun a b => f b = f a) xs ys := by
  have hsame : List.Forall₂ Eq (ys.map f) (xs.map f) := h ▸ List.forall₂_refl _
  rw [List.forall₂_map_left_iff, List.forall₂_map_right_iff] at hsame
  exact hsame.flip

theorem map_eq_of_forall₂ {α β : Type} {f : α → β} {xs ys : List α}
    (h : List.Forall₂ (fun a b => f b = f a) xs ys) : ys.map f = xs.map f := by
  induction h with
  | nil => rfl
  | cons hab _ ih => rw [List.map_cons, List.map_cons, hab, ih]

end EidMap
