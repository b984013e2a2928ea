import Mathlib.Data.List.Basic

/-! # Transducers, and simulations between them

A transducer takes one operation at a time and answers each.
-/

namespace Cinnabar

universe u v w w'

structure Transducer (Op : Type u) (Answer : Type v) (State : Type w) where
  step : State → Op → Answer × State

namespace Transducer

variable {Op : Type u} {Answer : Type v} {S : Type w} {T : Type w'}

def run (M : Transducer Op Answer S) (s : S) : List Op → List Answer × S
  | [] => ([],s)
  | op::ops =>
    let first := M.step s op
    let rest := M.run first.2 ops
    (first.1::rest.1,rest.2)

lemma run_append (M : Transducer Op Answer S) (s : S) (ops ops' : List Op) : M.run s (ops++ops') =
      ((M.run s ops).1 ++ (M.run (M.run s ops).2 ops').1,(M.run (M.run s ops).2 ops').2) := by
  induction ops generalizing s with
  | nil => rfl
  | cons op rest ih =>
    change (_ :: (M.run _ (rest++ops')).1,(M.run _ (rest++ops')).2) = _
    rw [ih]
    rfl

lemma run_keeps (M : Transducer Op Answer S) {P : S → Prop}
    (hstep : ∀ s op, P s → P (M.step s op).2) {s : S} (hs : P s) (ops : List Op) :
    P (M.run s ops).2 := by
  induction ops generalizing s with
  | nil => exact hs
  | cons op rest ih => exact ih (hstep s op hs)

/-- One operation answers the same on both sides and keeps the relation. -/
def Simulates (R : S → T → Prop) (M : Transducer Op Answer S) (N : Transducer Op Answer T) : Prop :=
  ∀ s t op, R s t → (M.step s op).1 = (N.step t op).1 ∧ R (M.step s op).2 (N.step t op).2

lemma Simulates.run {R : S → T → Prop} {M : Transducer Op Answer S} {N : Transducer Op Answer T}
    (h : Simulates R M N) {s : S} {t : T} (hst : R s t) (ops : List Op) :
    (M.run s ops).1 = (N.run t ops).1 ∧ R (M.run s ops).2 (N.run t ops).2 := by
  induction ops generalizing s t with
  | nil => exact ⟨rfl,hst⟩
  | cons op rest ih =>
    obtain ⟨hanswer,hnext⟩ := h s t op hst
    obtain ⟨hanswers,hlast⟩ := ih hnext
    exact ⟨congrArg₂ List.cons hanswer hanswers,hlast⟩

end Transducer

end Cinnabar
