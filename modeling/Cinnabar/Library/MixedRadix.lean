import Mathlib.Algebra.BigOperators.Group.List.Basic
import Mathlib.Algebra.Order.Ring.Nat
import Mathlib.Tactic.Ring

/-! # Mixed-radix numbers -/

namespace Cinnabar.MixedRadix

open List

variable {ι : Type*} {base digit digit' : ι → ℕ} {places : List ι}

def size (base : ι → ℕ) (places : List ι) : ℕ := (places.map base).prod

def number (base digit : ι → ℕ) : List ι → ℕ
  | [] => 0
  | place::rest => digit place+base place*number base digit rest

@[simp] lemma size_nil : size base [] = 1 := rfl

lemma size_cons (place : ι) (rest : List ι) : size base (place::rest) = base place*size base rest := prod_cons

lemma size_concat (places : List ι) (place : ι) : size base (places ++ [place]) = size base places*base place := by
  rw [size,map_append,prod_append,map_singleton,prod_singleton,size]

lemma size_pos (hbase : ∀ place ∈ places, 0<base place) : 0 < size base places := by
  induction places with
  | nil => exact Nat.one_pos
  | cons place rest ih =>
    exact Nat.mul_pos (hbase place (.head _)) (ih fun place hp=>hbase place (.tail _ hp))

/-- The first places alone fit no more than all of them. -/
lemma size_le_append {more : List ι} (hbase : ∀ place ∈ more, 0<base place) :
    size base places ≤ size base (places++more) := by
  rw [size,size,map_append,prod_append]
  exact Nat.le_mul_of_pos_right _ (size_pos hbase)

lemma number_concat (places : List ι) (place : ι) : number base digit (places ++ [place]) =
      number base digit places+digit place*size base places := by
  induction places with
  | nil => simp [number]
  | cons first rest ih =>
    rw [cons_append,number,number,ih,size_cons]
    ring

lemma number_lt (hdigit : ∀ place ∈ places, digit place<base place) : number base digit places < size base places := by
  induction places with
  | nil => exact Nat.one_pos
  | cons place rest ih =>
    have hrest := ih fun place hp=>hdigit place (.tail _ hp)
    have hfirst := hdigit place (.head _)
    calc digit place+base place*number base digit rest
        < base place+base place*number base digit rest := Nat.add_lt_add_right hfirst _
      _=base place * (number base digit rest+1) := by ring
      _≤base place*size base rest := Nat.mul_le_mul_left _ hrest

lemma number_injective (hdigit : ∀ place ∈ places, digit place<base place)
    (hdigit' : ∀ place ∈ places, digit' place<base place)
    (heq : number base digit places=number base digit' places) :
    ∀ place ∈ places, digit place=digit' place := by
  induction places with
  | nil => exact fun place hp=>absurd hp not_mem_nil
  | cons first rest ih =>
    have hlt := hdigit first (.head _)
    have hlt' := hdigit' first (.head _)
    rw [number,number] at heq
    have hfirst : digit first=digit' first := by
      have hmod := congrArg (· % base first) heq
      rwa [Nat.add_mul_mod_self_left,Nat.add_mul_mod_self_left,Nat.mod_eq_of_lt hlt, Nat.mod_eq_of_lt hlt'] at hmod
    have hrest : number base digit rest=number base digit' rest := by
      rw [hfirst] at heq
      exact Nat.eq_of_mul_eq_mul_left (Nat.zero_lt_of_lt hlt) (Nat.add_left_cancel heq)
    intro place hp
    rcases mem_cons.1 hp with rfl | hp
    · exact hfirst
    · exact ih (fun place hp=>hdigit place (.tail _ hp)) (fun place hp=>hdigit' place (.tail _ hp)) hrest place hp

end Cinnabar.MixedRadix
