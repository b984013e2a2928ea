import Mathlib

/-! # Patches of a buffer

A buffer gives a value at every offset; a patch overwrites a range of it.
-/

namespace Cinnabar

open List

structure Patch (β : Type) where
  offset : ℕ
  bytes : List β

namespace Patch

variable {β : Type} {p q : Patch β} {c : ℕ → β} {x : ℕ}

def stop (p : Patch β) : ℕ := p.offset+p.bytes.length

def covers (p : Patch β) (x : ℕ) : Bool := p.offset≤x && x<p.stop

def apply (p : Patch β) (c : ℕ → β) (x : ℕ) : β :=
  if p.offset≤x then (p.bytes[x-p.offset]?).getD (c x) else c x

def Disjoint (p q : Patch β) : Prop := p.stop≤q.offset ∨ q.stop≤p.offset

lemma Disjoint.symm (h : p.Disjoint q) : q.Disjoint p := Or.symm h

lemma covers_iff : p.covers x=true ↔ p.offset≤x ∧ x<p.stop := by
  rw [covers,Bool.and_eq_true,decide_eq_true_eq,decide_eq_true_eq]

lemma apply_outside (h : p.covers x=false) : p.apply c x=c x := by
  unfold apply
  split
  · rename_i hle
    have hlen : p.bytes.length≤x-p.offset := by
      by_contra hlt
      have hcovers : p.covers x=true := covers_iff.2 ⟨hle,by unfold stop; omega⟩
      rw [h] at hcovers
      cases hcovers
    rw [List.getElem?_eq_none hlen]
    rfl
  · rfl

lemma apply_inside {c' : ℕ → β} (h : p.covers x=true) : p.apply c x=p.apply c' x := by
  obtain ⟨hle,hlt⟩ := covers_iff.1 h
  unfold stop at hlt
  unfold apply
  rw [if_pos hle,if_pos hle,List.getElem?_eq_getElem (by omega)]
  rfl

lemma Disjoint.not_covers (h : p.Disjoint q) (hp : p.covers x=true) : q.covers x=false := by
  obtain ⟨hle,hlt⟩ := covers_iff.1 hp
  rw [Bool.eq_false_iff]
  intro hq
  obtain ⟨hle',hlt'⟩ := covers_iff.1 hq
  rcases h with h | h <;> omega

lemma apply_comm (h : p.Disjoint q) : p.apply (q.apply c) = q.apply (p.apply c) := by
  funext x
  cases hp : p.covers x with
  | true =>
    rw [apply_outside (h.not_covers hp),apply_inside hp]
  | false =>
    rw [apply_outside hp]
    cases hq : q.covers x with
    | true => exact apply_inside hq
    | false => rw [apply_outside hq,apply_outside hq,apply_outside hp]

lemma apply_nil {offset : ℕ} : (⟨offset,[]⟩ : Patch β).apply c=c := by
  funext x
  simp [apply]

lemma apply_append {offset : ℕ} {xs ys : List β} : (⟨offset,xs++ys⟩ : Patch β).apply c =
      (⟨offset+xs.length,ys⟩ : Patch β).apply ((⟨offset,xs⟩ : Patch β).apply c) := by
  funext x
  unfold apply
  dsimp only
  by_cases hle : offset≤x
  · rw [if_pos hle]
    by_cases hin : offset+xs.length≤x
    · rw [if_pos hin,if_pos hle,List.getElem?_append_right (by omega),
        List.getElem?_eq_none (l := xs) (by omega),Nat.sub_sub]
      rfl
    · rw [if_neg hin,if_pos hle,List.getElem?_append_left (by omega)]
  · rw [if_neg hle,if_neg (by omega),if_neg hle]

lemma apply_split (p : Patch β) (n : ℕ) : p.apply c =
    (⟨p.offset+n,p.bytes.drop n⟩ : Patch β).apply ((⟨p.offset,p.bytes.take n⟩ : Patch β).apply c) := by
  rcases Nat.le_total n p.bytes.length with hle | hle
  · have hsplit := @apply_append β c p.offset (p.bytes.take n) (p.bytes.drop n)
    rw [take_append_drop,length_take,min_eq_left hle] at hsplit
    exact hsplit
  · rw [drop_of_length_le hle,take_of_length_le hle,apply_nil]

end Patch

section Lists

variable {β : Type} {c : ℕ → β} {ps qs : List (Patch β)} {x : ℕ}

def applyAll (ps : List (Patch β)) (c : ℕ → β) : ℕ → β := ps.foldl (fun c p=>p.apply c) c

def coversAny (ps : List (Patch β)) (x : ℕ) : Bool := ps.any fun p=>p.covers x

lemma applyAll_outside (h : coversAny ps x=false) : applyAll ps c x=c x := by
  induction ps generalizing c with
  | nil => rfl
  | cons p ps ih =>
    rw [coversAny,any_cons,Bool.or_eq_false_iff] at h
    exact (ih h.2).trans (Patch.apply_outside h.1)

lemma applyAll_inside {c' : ℕ → β} (h : coversAny ps x=true) : applyAll ps c x=applyAll ps c' x := by
  induction ps generalizing c c' with
  | nil => cases h
  | cons p ps ih =>
    cases hps : coversAny ps x with
    | true => exact ih hps
    | false =>
      rw [coversAny,any_cons] at h
      have hp : p.covers x=true := by
        rw [coversAny] at hps
        simpa [hps] using h
      exact (applyAll_outside hps).trans ((Patch.apply_inside hp).trans (applyAll_outside hps).symm)

lemma applyAll_perm (h : ps.Perm qs) (hdisjoint : ps.Pairwise Patch.Disjoint) : applyAll ps c=applyAll qs c := by
  have : Std.Symm (@Patch.Disjoint β) := ⟨fun _ _ hpq=>hpq.symm⟩
  refine h.foldl_eq' (fun p hp q hq c=>?_) c
  by_cases heq : p=q
  · rw [heq]
  · exact Patch.apply_comm (hdisjoint.forall hq hp (Ne.symm heq))

lemma pairwise_disjoint (hsorted : ps.Pairwise fun p q=>p.offset≤q.offset)
    (hadjacent : ps.IsChain fun p q=>p.stop≤q.offset) : ps.Pairwise Patch.Disjoint := by
  induction ps with
  | nil => exact List.Pairwise.nil
  | cons p ps ih =>
    obtain ⟨hfirst,hrest⟩ := pairwise_cons.1 hsorted
    have htail : ps.IsChain fun p q=>p.stop≤q.offset := hadjacent.tail
    refine pairwise_cons.2 ⟨fun q hq=>.inl ?_,ih hrest htail⟩
    cases ps with
    | nil => cases hq
    | cons r ps =>
      have hnext := (isChain_cons_cons.1 hadjacent).1
      rcases mem_cons.1 hq with rfl | hmem
      · exact hnext
      · exact hnext.trans ((pairwise_cons.1 hrest).1 q hmem)

end Lists

end Cinnabar
