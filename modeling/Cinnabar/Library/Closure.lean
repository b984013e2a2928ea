import Mathlib

/-! # The least set closed under a rule

`Closure seed step` holds of what the seeds lead to.
-/

namespace Cinnabar

universe u

variable {α : Type u} {seed seed' : α → Prop} {step step' : α → α → Prop}

def Closure (seed : α → Prop) (step : α → α → Prop) (x : α) : Prop :=
  ∃ s, seed s ∧ Relation.ReflTransGen step s x

namespace Closure

lemma of_seed {x : α} (h : seed x) : Closure seed step x := ⟨x,h,.refl⟩

lemma tail {x y : α} (h : Closure seed step x) (hxy : step x y) : Closure seed step y := by
  obtain ⟨s,hs,hsx⟩ := h
  exact ⟨s,hs,hsx.tail hxy⟩

lemma least {P : α → Prop} (hseed : ∀ x, seed x → P x) (hstep : ∀ x y, P x → step x y → P y)
    {x : α} (h : Closure seed step x) : P x := by
  obtain ⟨s,hs,hsx⟩ := h
  induction hsx with
  | refl => exact hseed s hs
  | tail _ hxy ih => exact hstep _ _ ih hxy

/-- More rules lead further. -/
lemma mono (hseed : ∀ x, seed x → seed' x) (hstep : ∀ x y, step x y → step' x y) {x : α}
    (h : Closure seed step x) : Closure seed' step' x :=
  least (fun s hs=>of_seed (hseed s hs)) (fun _ _ hP hxy=>hP.tail (hstep _ _ hxy)) h

lemma congr_seed (h : ∀ x, seed x → Closure seed' step x) (h' : ∀ x, seed' x → Closure seed step x) (x : α) :
    Closure seed step x ↔ Closure seed' step x :=
  ⟨least h fun _ _ hP hxy=>hP.tail hxy,least h' fun _ _ hP hxy=>hP.tail hxy⟩

end Closure

end Cinnabar
