import Mathlib.Data.Finset.Basic
import Mathlib.Algebra.BigOperators.Group.List.Basic
import Mathlib.Algebra.Order.BigOperators.Group.List
import Mathlib.Algebra.Order.Group.Nat
import Mathlib.Algebra.Order.Ring.Nat
import Std.Data.TreeMap.Lemmas

/-! # Ordered maps by decidable keys -/

namespace Cinnabar

open Std List

universe u v

variable {α : Type u} {β : Type v} [Ord α] [TransOrd α] {m : TreeMap α β} {k q : α} {b : β}

variable [LawfulEqOrd α]

/-- The first entry that passes a test has the least key of those that do. -/
lemma find?_toList_least {p : α × β → Bool} {e : α × β} (h : m.toList.find? p=some e) : m[e.1]? = some e.2 ∧ p e=true ∧
      ∀ k b, m[k]? = some b → p (k,b) = true → compare k e.1 ≠ .lt := by
  obtain ⟨hp,before,after,hlist,hbefore⟩ := List.find?_eq_some_iff_append.1 h
  refine ⟨?_,hp,fun k b hkb hpass hlt=>?_⟩
  · rw [← TreeMap.mem_toList_iff_getElem?_eq_some,hlist]
    simp
  · have hmem : (k,b) ∈ before++e::after := by
      rw [← hlist,TreeMap.mem_toList_iff_getElem?_eq_some]
      exact hkb
    have hsorted := TreeMap.ordered_keys_toList (t := m)
    rw [hlist,pairwise_append,pairwise_cons] at hsorted
    rcases mem_append.1 hmem with hmem | hmem
    · have hfail := hbefore _ hmem
      simp [hpass] at hfail
    · rcases mem_cons.1 hmem with heq | hmem
      · rw [← heq] at hlt
        have hself : compare k k = .eq := ReflCmp.compare_self
        rw [hlt] at hself
        exact absurd hself (by decide)
      · have hgt := hsorted.2.1.1 _ hmem
        have hswap : compare k e.1 = (compare e.1 k).swap := OrientedCmp.eq_swap
        simp [hswap,hgt] at hlt

variable [DecidableEq α]

lemma lookup_insert : (m.insert k b)[q]? = if k=q then some b else m[q]? := by
  simp only [TreeMap.getElem?_insert,Std.compare_eq_iff_eq]

lemma lookup_erase : (m.erase k)[q]? = if k=q then none else m[q]? := by
  simp only [TreeMap.getElem?_erase,Std.compare_eq_iff_eq]

lemma count_insert (c : β) : (m.insert k b).getD q c = if k=q then b else m.getD q c := by
  simp only [TreeMap.getD_insert,Std.compare_eq_iff_eq]

lemma count_erase (c : β) : (m.erase k).getD q c = if k=q then c else m.getD q c := by
  simp only [TreeMap.getD_erase,Std.compare_eq_iff_eq]

lemma nodup_toList : m.toList.Nodup := by
  refine List.Pairwise.imp ?_ (TreeMap.distinct_keys_toList (t := m))
  rintro e _ hne rfl
  exact hne ReflCmp.compare_self

/-- An entry of a map, and the others. -/
lemma toList_perm_erase (h : m[k]? = some b) : m.toList.Perm ((k,b) :: (m.erase k).toList) := by
  have habsent : (k,b) ∉ (m.erase k).toList := by
    rw [TreeMap.mem_toList_iff_getElem?_eq_some,lookup_erase,if_pos rfl]
    exact Option.some_ne_none b |>.symm
  refine (perm_ext_iff_of_nodup nodup_toList (nodup_cons.2 ⟨habsent,nodup_toList⟩)).2 fun ⟨q,c⟩=>?_
  rw [mem_cons,TreeMap.mem_toList_iff_getElem?_eq_some,
    TreeMap.mem_toList_iff_getElem?_eq_some,lookup_erase,Prod.mk.injEq]
  by_cases hq : k=q
  · subst hq
    simp [h,eq_comm]
  · simp [hq,Ne.symm hq]

lemma toList_erase_absent (h : m[k]? = none) : m.toList.Perm (m.erase k).toList := by
  refine (perm_ext_iff_of_nodup nodup_toList nodup_toList).2 fun ⟨q,c⟩=>?_
  rw [TreeMap.mem_toList_iff_getElem?_eq_some,TreeMap.mem_toList_iff_getElem?_eq_some, lookup_erase]
  by_cases hq : k=q
  · subst hq
    simp [h]
  · simp [hq]

lemma toList_insert_perm_erase : (m.insert k b).toList.Perm ((k,b) :: (m.erase k).toList) := by
  refine (toList_perm_erase (k := k) (b := b) (by rw [lookup_insert,if_pos rfl])).trans ?_
  refine List.Perm.cons _ ((perm_ext_iff_of_nodup nodup_toList nodup_toList).2 ?_)
  rintro ⟨q,c⟩
  rw [TreeMap.mem_toList_iff_getElem?_eq_some,TreeMap.mem_toList_iff_getElem?_eq_some,
    lookup_erase,lookup_erase,lookup_insert]
  by_cases hq : k=q
  · simp [hq]
  · simp [hq]

end Cinnabar

/-! # Totals over ordered maps

The sum of a weight over the entries of a map, and what one insertion or one
erasure does to it: the law a running total has to follow.
-/

namespace Cinnabar

open Std

universe u v

variable {α : Type u} {β : Type v} [Ord α] [TransOrd α] [LawfulEqOrd α] [DecidableEq α]
  {m : TreeMap α β} {k : α} {b : β} {f g : α → β → ℕ}

def total (m : TreeMap α β) (f : α → β → ℕ) : ℕ :=
  m.toList.foldr (fun e sum=>f e.1 e.2+sum) 0

omit [TransOrd α] [LawfulEqOrd α] [DecidableEq α] in
lemma total_eq_sum : total m f = (m.toList.map fun e=>f e.1 e.2).sum := by
  unfold total
  rw [List.sum,List.foldr_map]

omit [DecidableEq α] in
lemma total_congr (h : ∀ q c, m[q]? = some c → f q c=g q c) : total m f=total m g := by
  rw [total_eq_sum,total_eq_sum]
  refine congrArg List.sum (List.map_congr_left fun e he=>h e.1 e.2 ?_)
  exact TreeMap.mem_toList_iff_getElem?_eq_some.1 he

omit [DecidableEq α] in
lemma total_le_total (h : ∀ q c, m[q]? = some c → f q c≤g q c) : total m f≤total m g := by
  rw [total_eq_sum,total_eq_sum]
  refine List.sum_le_sum fun e he=>h e.1 e.2 ?_
  exact TreeMap.mem_toList_iff_getElem?_eq_some.1 he

/-- An entry's weight, and the others'. -/
lemma total_erase (h : m[k]? = some b) : total m f=f k b+total (m.erase k) f := by
  rw [total_eq_sum,total_eq_sum]
  exact ((toList_perm_erase h).map _).sum_eq

lemma total_erase_absent (h : m[k]? = none) : total (m.erase k) f=total m f := by
  rw [total_eq_sum,total_eq_sum]
  exact ((toList_erase_absent h).map _).sum_eq.symm

lemma total_insert_erase : total (m.insert k b) f=f k b+total (m.erase k) f := by
  rw [total_eq_sum,total_eq_sum]
  exact (toList_insert_perm_erase.map _).sum_eq

lemma total_insert_absent (h : m[k]? = none) : total (m.insert k b) f=f k b+total m f := by
  rw [total_insert_erase,total_erase_absent h]

/-- Replacing an entry by one of the same weight. -/
lemma total_insert_same {c : β} (h : m[k]? = some b) (hw : f k c=f k b) : total (m.insert k c) f=total m f := by
  rw [total_insert_erase,total_erase h,hw]

/-- A weight that gains one key gains that entry's weight. -/
lemma total_gain (hk : f k = fun _=>0) (hne : ∀ q, q≠k → f q=g q) : total m g=total m f + (m[k]?).elim 0 (g k) := by
  have hrest : total (m.erase k) g=total (m.erase k) f := by
    refine total_congr fun q c hq=>?_
    rw [lookup_erase] at hq
    split_ifs at hq with heq
    rw [hne q (Ne.symm heq)]
  cases h : m[k]? with
  | none =>
    rw [← total_erase_absent h (f := g),hrest,total_erase_absent h]
    rfl
  | some b =>
    rw [total_erase h (f := g),total_erase h (f := f),hk,hrest]
    change g k b+_=0+_+g k b
    omega

end Cinnabar
