import Mathlib

/-! # Packing items whole into bins

A bin takes the items of its mask, up to its capacity.
-/

namespace Cinnabar

open List

variable {α : Type} [DecidableEq α] {weight : α → ℕ} {bins bins' : List (Finset α × ℕ)}
  {items within : Finset α} {mask : Finset α} {capacity : ℕ} {item : α}

/-- The items split over the bins, each bin taking some of its mask. -/
def PacksInto (weight : α → ℕ) : List (Finset α × ℕ) → Finset α → Prop
  | [], items => items = ∅
  | (mask,capacity) :: bins, items =>
    ∃ taken ⊆ items, taken ⊆ mask ∧ ∑ item ∈ taken, weight item ≤ capacity ∧ PacksInto weight bins (items \ taken)

namespace PacksInto

lemma perm (hperm : bins.Perm bins') (h : PacksInto weight bins items) :
    PacksInto weight bins' items := by
  induction hperm generalizing items with
  | nil => exact h
  | cons bin _ ih =>
    obtain ⟨taken,hsub,hmask,hfits,hrest⟩ := h
    exact ⟨taken,hsub,hmask,hfits,ih hrest⟩
  | swap bin other bins =>
    obtain ⟨taken,hsub,hmask,hfits,taken',hsub',hmask',hfits',hrest⟩ := h
    refine ⟨taken',fun item hmem=>Finset.sdiff_subset (hsub' hmem),hmask',hfits',taken,
      fun item hmem=>Finset.mem_sdiff.2 ⟨hsub hmem,fun hother=>?_⟩,hmask,hfits,?_⟩
    · exact (Finset.mem_sdiff.1 (hsub' hother)).2 hmem
    · rw [sdiff_sdiff_comm]
      exact hrest
  | trans _ _ ih ih' => exact ih' (ih h)

lemma cons_bin (h : PacksInto weight bins items) (bin : Finset α × ℕ) : PacksInto weight (bin::bins) items :=
  ⟨∅,Finset.empty_subset _,Finset.empty_subset _,Nat.zero_le _,by
    rw [Finset.sdiff_empty]
    exact h⟩

/-- The bins as the items of `within` see them: what cannot take one is left out. -/
def visible (within : Finset α) (bins : List (Finset α × ℕ)) : List (Finset α × ℕ) :=
  bins.filterMap fun bin =>
    if (bin.1 ∩ within).Nonempty then some (bin.1 ∩ within,bin.2) else none

lemma visible_iff (hitems : items ⊆ within) :
    PacksInto weight (visible within bins) items ↔ PacksInto weight bins items := by
  induction bins generalizing items with
  | nil => exact Iff.rfl
  | cons bin bins ih =>
    obtain ⟨mask,capacity⟩ := bin
    have hrest : ∀ taken : Finset α, items \ taken ⊆ within := fun taken =>
      Finset.sdiff_subset.trans hitems
    unfold visible at ih ⊢
    rw [filterMap_cons]
    by_cases hvisible : (mask ∩ within).Nonempty
    · rw [if_pos hvisible]
      constructor
      · rintro ⟨taken,hsub,hmask,hfits,hpacks⟩
        exact ⟨taken,hsub,hmask.trans Finset.inter_subset_left,hfits, (ih (hrest taken)).1 hpacks⟩
      · rintro ⟨taken,hsub,hmask,hfits,hpacks⟩
        exact ⟨taken,hsub,Finset.subset_inter hmask (hsub.trans hitems),hfits, (ih (hrest taken)).2 hpacks⟩
    · rw [if_neg hvisible]
      constructor
      · intro hpacks
        exact ((ih hitems).1 hpacks).cons_bin (mask,capacity)
      · rintro ⟨taken,hsub,hmask,-,hpacks⟩
        -- the bin took nothing
        have hempty : taken = ∅ := Finset.subset_empty.1 fun item hmem =>
          absurd ⟨item,Finset.mem_inter.2 ⟨hmask hmem,hitems (hsub hmem)⟩⟩ hvisible
        rw [hempty,Finset.sdiff_empty] at hpacks
        exact (ih hitems).2 hpacks

/-- Masks may be cut to the items at hand. -/
lemma trim_iff (hitems : items ⊆ within) :
    PacksInto weight (bins.map fun bin=>(bin.1 ∩ within,bin.2)) items ↔ PacksInto weight bins items := by
  induction bins generalizing items with
  | nil => exact Iff.rfl
  | cons bin bins ih =>
    constructor
    · rintro ⟨taken,hsub,hmask,hfits,hpacks⟩
      exact ⟨taken,hsub,hmask.trans Finset.inter_subset_left,hfits, (ih (Finset.sdiff_subset.trans hitems)).1 hpacks⟩
    · rintro ⟨taken,hsub,hmask,hfits,hpacks⟩
      exact ⟨taken,hsub,Finset.subset_inter hmask (hsub.trans hitems),hfits,
        (ih (Finset.sdiff_subset.trans hitems)).2 hpacks⟩

/-- Bins of one capacity that the items cannot tell apart may be drawn from alike. -/
lemma interchange {index other : ℕ} {mask mask' : Finset α} {left : ℕ}
    (hindex : bins[index]? = some (mask,capacity)) (hother : bins[other]? = some (mask',capacity))
    (halike : mask ∩ within=mask' ∩ within) (hitems : items ⊆ within)
    (h : PacksInto weight (bins.set index (mask,left)) items) :
    PacksInto weight (bins.set other (mask',left)) items := by
  obtain ⟨hlt,hget⟩ := List.getElem?_eq_some_iff.1 hindex
  obtain ⟨hlt',hget'⟩ := List.getElem?_eq_some_iff.1 hother
  rw [← trim_iff hitems,map_set] at h ⊢
  rw [← halike]
  refine h.perm ?_
  generalize hcut : (bins.map fun bin=>(bin.1 ∩ within,bin.2)) = cut
  have hcutLt : index < cut.length := by rw [← hcut,length_map]; exact hlt
  have hcutLt' : other < cut.length := by rw [← hcut,length_map]; exact hlt'
  have heq : cut[index] = cut[other] := by
    subst hcut
    rw [getElem_map,getElem_map,hget,hget',halike]
  have hrest : (cut.eraseIdx index).Perm (cut.eraseIdx other) := by
    refine List.Perm.cons_inv (a := cut[index]) ?_
    refine (getElem_cons_eraseIdx_perm hcutLt).trans ?_
    rw [heq]
    exact (getElem_cons_eraseIdx_perm hcutLt').symm
  exact (set_perm_cons_eraseIdx hcutLt _).trans ((hrest.cons _).trans (set_perm_cons_eraseIdx hcutLt' _).symm)

lemma extract (h : PacksInto weight bins items) (hitem : item ∈ items) :
    ∃ index mask capacity, bins[index]? = some (mask,capacity) ∧ item ∈ mask ∧ weight item ≤ capacity ∧
      PacksInto weight (bins.set index (mask,capacity-weight item)) (items.erase item) := by
  induction bins generalizing items with
  | nil =>
    rw [show items = ∅ from h] at hitem
    exact absurd hitem (Finset.notMem_empty _)
  | cons bin bins ih =>
    obtain ⟨mask,capacity⟩ := bin
    obtain ⟨taken,hsub,hmask,hfits,hrest⟩ := h
    by_cases htaken : item ∈ taken
    · have hsum := Finset.sum_erase_add taken weight htaken
      refine ⟨0,mask,capacity,rfl,hmask htaken,by omega,taken.erase item,
        Finset.erase_subset_erase _ hsub,(Finset.erase_subset _ _).trans hmask,by omega,?_⟩
      have hleft : items.erase item \ taken.erase item=items \ taken := by
        ext other
        simp only [Finset.mem_sdiff,Finset.mem_erase,not_and,ne_eq]
        constructor
        · rintro ⟨⟨hne,hmem⟩,hnot⟩
          exact ⟨hmem,hnot hne⟩
        · rintro ⟨hmem,hnot⟩
          exact ⟨⟨fun heq=>hnot (heq ▸ htaken),hmem⟩,fun _=>hnot⟩
      rw [hleft]
      exact hrest
    · obtain ⟨index,mask',capacity',hget,hmem,hroom,hpacks⟩ := ih hrest (Finset.mem_sdiff.2 ⟨hitem,htaken⟩)
      refine ⟨index+1,mask',capacity',hget,hmem,hroom,taken,
        fun other hother=>Finset.mem_erase.2 ⟨?_,hsub hother⟩,hmask,hfits,?_⟩
      · rintro rfl
        exact htaken hother
      · rw [Finset.erase_sdiff_comm]
        exact hpacks

lemma sum_le (P : Finset α × ℕ → Prop) [DecidablePred P]
    (hP : ∀ bin ∈ bins, ∀ item ∈ items, item ∈ bin.1 → weight item≤bin.2 → P bin)
    (h : PacksInto weight bins items) :
    ∑ item ∈ items, weight item ≤ ((bins.filter (P ·)).map Prod.snd).sum := by
  induction bins generalizing items with
  | nil =>
    rw [show items = ∅ from h]
    exact Nat.zero_le _
  | cons bin bins ih =>
    obtain ⟨taken,hsub,hmask,hfits,hrest⟩ := h
    have hle := ih (fun other hother item hmem =>
      hP other (.tail _ hother) item (Finset.mem_sdiff.1 hmem).1) hrest
    rw [← Finset.sum_sdiff hsub]
    by_cases hbin : P bin
    · rw [filter_cons_of_pos (by simpa using hbin),map_cons,sum_cons]
      omega
    · rw [filter_cons_of_neg (by simpa using hbin)]
      have hempty : taken = ∅ := Finset.eq_empty_of_forall_notMem fun item hmem=>by
        have hweight : weight item≤bin.2 := (Finset.single_le_sum (fun _ _=>Nat.zero_le _) hmem).trans hfits
        exact hbin (hP bin (.head _) item (hsub hmem) (hmask hmem) hweight)
      rw [hempty,Finset.sum_empty,Nat.add_zero]
      rw [hempty] at hle
      exact hle

lemma card_le (P : Finset α × ℕ → Prop) [DecidablePred P] {share : ℕ} (hshare : 0 < share)
    {heavy : Finset α} (hheavy : heavy ⊆ items) (hweight : ∀ item ∈ heavy, share≤weight item)
    (hP : ∀ bin ∈ bins, ∀ item ∈ heavy, item ∈ bin.1 → P bin) (h : PacksInto weight bins items) :
    heavy.card ≤ ((bins.filter (P ·)).map fun bin=>bin.2/share).sum := by
  induction bins generalizing items heavy with
  | nil =>
    have hempty : items = ∅ := h
    rw [hempty,Finset.subset_empty] at hheavy
    rw [hheavy]
    exact Nat.zero_le _
  | cons bin bins ih =>
    obtain ⟨taken,hsub,hmask,hfits,hrest⟩ := h
    have hle : (heavy \ taken).card≤_ := ih (Finset.sdiff_subset_sdiff hheavy subset_rfl)
      (fun item hmem=>hweight item (Finset.mem_sdiff.1 hmem).1)
      (fun other hother item hmem =>
        hP other (.tail _ hother) item (Finset.mem_sdiff.1 hmem).1) hrest
    have hcard := Finset.card_sdiff_add_card_inter heavy taken
    by_cases hbin : P bin
    · rw [filter_cons_of_pos (by simpa using hbin),map_cons,sum_cons]
      have hhere : (heavy ∩ taken).card≤bin.2/share := by
        rw [Nat.le_div_iff_mul_le hshare]
        calc (heavy ∩ taken).card*share ≤ ∑ item ∈ heavy ∩ taken, weight item := by
              exact Finset.card_nsmul_le_sum _ _ _ fun item hmem =>
                hweight item (Finset.mem_inter.1 hmem).1
          _ ≤ ∑ item ∈ taken, weight item :=
              Finset.sum_le_sum_of_subset Finset.inter_subset_right
          _≤bin.2 := hfits
      omega
    · rw [filter_cons_of_neg (by simpa using hbin)]
      have hempty : heavy ∩ taken = ∅ := Finset.eq_empty_of_forall_notMem fun item hmem=>by
        obtain ⟨hmem,htaken⟩ := Finset.mem_inter.1 hmem
        exact hbin (hP bin (.head _) item hmem (hmask htaken))
      rw [hempty,Finset.card_empty] at hcard
      omega

/-- An assignment within every mask and capacity packs. -/
lemma of_assignment (choice : α → ℕ) (hmask : ∀ item ∈ items, ∃ bin, bins[choice item]? = some bin ∧ item ∈ bin.1)
    (hfits : ∀ index bin, bins[index]? = some bin → ∑ item ∈ items with choice item=index, weight item≤bin.2) :
    PacksInto weight bins items := by
  induction bins generalizing items choice with
  | nil =>
    refine Finset.eq_empty_of_forall_notMem fun item hmem=>?_
    obtain ⟨bin,hbin,-⟩ := hmask item hmem
    cases hbin
  | cons bin bins ih =>
    refine ⟨items.filter fun item=>choice item=0,Finset.filter_subset _ _,fun item hmem=>?_,
      hfits 0 bin rfl,ih (fun item=>choice item-1) (fun item hmem=>?_) fun index other hother=>?_⟩
    · obtain ⟨hmem,hzero⟩ := Finset.mem_filter.1 hmem
      obtain ⟨found,hfound,hin⟩ := hmask item hmem
      rw [hzero] at hfound
      cases hfound
      exact hin
    · obtain ⟨hmem,hrest⟩ := Finset.mem_sdiff.1 hmem
      have hpos : choice item≠0 := fun hzero=>hrest (Finset.mem_filter.2 ⟨hmem,hzero⟩)
      obtain ⟨found,hfound,hin⟩ := hmask item hmem
      obtain ⟨before,hbefore⟩ := Nat.exists_eq_succ_of_ne_zero hpos
      rw [hbefore] at hfound ⊢
      exact ⟨found,hfound,hin⟩
    · refine le_trans (Finset.sum_le_sum_of_subset fun item hmem=>?_) (hfits (index+1) other hother)
      obtain ⟨hmem,heq⟩ := Finset.mem_filter.1 hmem
      obtain ⟨hmem,hrest⟩ := Finset.mem_sdiff.1 hmem
      have hpos : choice item≠0 := fun hzero=>hrest (Finset.mem_filter.2 ⟨hmem,hzero⟩)
      exact Finset.mem_filter.2 ⟨hmem,by omega⟩

end PacksInto

end Cinnabar
