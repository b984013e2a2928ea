import Mathlib.Algebra.BigOperators.Group.Finset.Basic
import Mathlib.Algebra.Order.BigOperators.Group.Finset
import Cinnabar.Library.Ensures

/-! # Draining a worklist

A worklist loop pops an item and visits it until nothing is left.
-/

namespace Cinnabar

open Finset

universe u v

variable {ε : Type u} {σ ι : Type v}

/-- `while let Some(item) = pop() { visit(item) }`, stopping with `stuck` after `fuel` rounds. -/
def drain (pop : σ → Option (ι × σ)) (visit : ι → σ → Except ε σ) (stuck : ε) :
    ℕ → σ → Except ε σ
  | 0, s =>
    match pop s with
    | none => .ok s
    | some _ => .error stuck
  | fuel+1, s =>
    match pop s with
    | none => .ok s
    | some (item,rest) => visit item rest >>= drain pop visit stuck fuel

/-- Enough fuel drains the list: the invariant holds at the end and nothing is left. -/
lemma drain_ensures {E : ε → Prop} {I : σ → Prop} {pop : σ → Option (ι × σ)}
    {visit : ι → σ → Except ε σ} {stuck : ε} (μ : σ → ℕ)
    (hpop : ∀ s next, I s → pop s=some next → 0<μ s)
    (hvisit : ∀ s item rest, I s → pop s=some (item,rest) → Ensures E (fun s'=>I s' ∧ μ s'<μ s) (visit item rest))
    {fuel : ℕ} {s : σ} (hs : I s) (hfuel : μ s≤fuel) :
    Ensures E (fun s'=>I s' ∧ pop s'=none) (drain pop visit stuck fuel s) := by
  induction fuel generalizing s with
  | zero =>
    rw [drain]
    cases hp : pop s with
    | none =>
      exact ⟨hs,hp⟩
    | some next =>
      have := hpop s next hs hp
      omega
  | succ fuel ih =>
    rw [drain]
    cases hp : pop s with
    | none =>
      exact ⟨hs,hp⟩
    | some next =>
      refine Ensures.bind (hvisit s next.1 next.2 hs hp) fun s' hs'=>?_
      exact ih hs'.1 (by omega)

/-- The loop for visits that cannot fail, for at most `fuel` rounds. -/
def exhaust (pop : σ → Option (ι × σ)) (visit : ι → σ → σ) : ℕ → σ → σ
  | 0, s => s
  | fuel+1, s =>
    match pop s with
    | none => s
    | some (item,rest) => exhaust pop visit fuel (visit item rest)

lemma exhaust_spec {I : σ → Prop} {pop : σ → Option (ι × σ)} {visit : ι → σ → σ} (μ : σ → ℕ)
    (hpop : ∀ s next, I s → pop s=some next → 0<μ s)
    (hvisit : ∀ s item rest, I s → pop s=some (item,rest) → I (visit item rest) ∧ μ (visit item rest) < μ s)
    {fuel : ℕ} {s : σ} (hs : I s) (hfuel : μ s≤fuel) :
    I (exhaust pop visit fuel s) ∧ pop (exhaust pop visit fuel s) = none := by
  induction fuel generalizing s with
  | zero =>
    refine ⟨hs,Option.eq_none_iff_forall_ne_some.2 fun next hp=>?_⟩
    have := hpop s next hs hp
    omega
  | succ fuel ih =>
    rw [exhaust]
    cases hp : pop s with
    | none => exact ⟨hs,hp⟩
    | some next =>
      obtain ⟨hI,hlt⟩ := hvisit s next.1 next.2 hs hp
      exact ih hI (by omega)

/-- A potential falls by what one cell gives up, the others not rising. -/
lemma potential_le {α : Type*} {s : Finset α} {f g : α → ℕ} {a : α} {k : ℕ} (ha : a ∈ s)
    (hne : ∀ x ∈ s, x≠a → g x≤f x) (hk : g a+k≤f a) :
    ∑ x ∈ s, g x+k ≤ ∑ x ∈ s, f x := by
  classical
  rw [← add_sum_erase s f ha,← add_sum_erase s g ha]
  have hrest : ∑ x ∈ s.erase a, g x ≤ ∑ x ∈ s.erase a, f x :=
    sum_le_sum fun x hx=>hne x (mem_of_mem_erase hx) (ne_of_mem_erase hx)
  omega

end Cinnabar
