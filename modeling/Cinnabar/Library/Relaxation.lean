import Mathlib.Order.Bounds.Basic
import Mathlib.Order.Lattice
import Mathlib.Order.MinMax
import Mathlib.Order.Monotone.Basic
import Mathlib.Order.WellFounded
import Mathlib.Logic.Function.Basic

/-! # Least solutions of monotone relaxations -/

namespace Cinnabar.Relaxation

open Function (update update_of_ne update_self)

variable {C V : Type*} [LinearOrder V]

/-- Sources and flows between cells. -/
structure System (C V : Type*) [Preorder V] where
  source : C → V
  flow : C → C → V → V
  flow_mono : ∀ s d, Monotone (flow s d)

namespace System

variable (S : System C V)

/-- Nothing a source or a neighbour sends into a cell exceeds its value. -/
structure Closed (x : C → V) : Prop where
  source_le : ∀ d, S.source d≤x d
  flow_le : ∀ s d, S.flow s d (x s) ≤ x d

def IsSolution (x : C → V) : Prop := IsLeast {y | S.Closed y} x

/-- Every value is bounded by each closed field. -/
def Sound (x : C → V) : Prop := ∀ y, S.Closed y → ∀ d, x d≤y d

/-- A cell whose value has reached everything it flows into. -/
def Settled (x : C → V) (s : C) : Prop := ∀ d, S.flow s d (x s) ≤ x d

variable {S}

lemma IsSolution.unique {x y : C → V} (hx : S.IsSolution x) (hy : S.IsSolution y) : x=y :=
  IsLeast.unique hx hy

lemma isSolution_of_sound {x : C → V} (hc : S.Closed x) (hs : S.Sound x) : S.IsSolution x :=
  ⟨hc,fun y hy d=>hs y hy d⟩

lemma closed_of_settled {x : C → V} (h₀ : ∀ d, S.source d≤x d) (h : ∀ s, S.Settled x s) :
    S.Closed x :=
  ⟨h₀,fun s d=>h s d⟩

/-- A field stays sound when each new value is an old one, a source, or a flow of the old field. -/
lemma Sound.step {x x' : C → V} (h : S.Sound x)
    (hx : ∀ d, x' d≤x d ∨ x' d≤S.source d ∨ ∃ s, x' d≤S.flow s d (x s)) : S.Sound x' := by
  intro y hy d
  rcases hx d with hd | hd | ⟨s,hd⟩
  · exact hd.trans (h y hy d)
  · exact hd.trans (hy.source_le d)
  · exact hd.trans ((S.flow_mono s d (h y hy s)).trans (hy.flow_le s d))

section Update
variable [DecidableEq C]

/-- A value stays sound when it is raised to a source or to a flow. -/
lemma Sound.raise {x : C → V} (h : S.Sound x) {d : C} {v : V} (hv : v≤S.source d ∨ ∃ s, v≤S.flow s d (x s)) :
    S.Sound (update x d (max (x d) v)) := by
  refine h.step fun e=>?_
  by_cases he : e=d
  · subst he
    rw [update_self]
    rcases max_choice (x e) v with hm | hm <;> rw [hm]
    · exact .inl le_rfl
    · exact .inr hv
  · rw [update_of_ne he]
    exact .inl le_rfl

end Update

lemma IsSolution.supported {x : C → V} (h : S.IsSolution x) {d : C} {w : V} (hw : w<x d) :
    w<S.source d ∨ ∃ s, w<S.flow s d (x s) := by
  classical
  by_contra hno
  simp only [not_or,not_lt,not_exists] at hno
  have hle : ∀ e, update x d w e≤x e := by
    intro e
    by_cases he : e=d
    · rw [he,update_self]
      exact hw.le
    · rw [update_of_ne he]
  -- Lowering the one unsupported value leaves the field closed.
  have hclosed : S.Closed (update x d w) := by
    refine ⟨fun e=>?_,fun s e=>?_⟩
    · by_cases he : e=d
      · rw [he,update_self]
        exact hno.1
      · rw [update_of_ne he]
        exact h.1.source_le e
    · have hflow := S.flow_mono s e (hle s)
      by_cases he : e=d
      · rw [he] at hflow ⊢
        rw [update_self]
        exact hflow.trans (hno.2 s)
      · rw [update_of_ne he]
        exact hflow.trans (h.1.flow_le s e)
  have := h.2 hclosed d
  rw [update_self] at this
  exact absurd hw (not_lt.2 this)

/-- Retraction.  Kept cells whose prior value is reached by a source, or by a
kept cell strictly earlier in a well-founded order, are sound: no set of cells
supports itself. -/
lemma kept_le {p y : C → V} {K : C → Prop} {r : C → C → Prop} (wf : WellFounded r)
    (hK : ∀ d, K d → p d≤S.source d ∨ ∃ s, K s ∧ r s d ∧ p d≤S.flow s d (p s))
    (hy : S.Closed y) (d : C) (hd : K d) : p d≤y d := by
  induction d using wf.induction with
  | _ d ih =>
    rcases hK d hd with h | ⟨s,hs,hr,h⟩
    · exact h.trans (hy.source_le d)
    · exact h.trans ((S.flow_mono s d (ih s hr hs)).trans (hy.flow_le s d))

end System

end Cinnabar.Relaxation
