import Cinnabar.Inventory.RecipeAllocation
import Cinnabar.Library.Packing

/-! # The search loses no solution -/

namespace Cinnabar.Inventory

open List

def SearchState.Packable (demand : ℕ → ℕ) (state : SearchState) : Prop :=
  ∃ bins : List (Finset ℕ × ℕ), (bins : Multiset (Finset ℕ × ℕ)) = state.capacities ∧
    PacksInto demand bins (state.cells.filter fun cell=>0<demand cell)

namespace Search

variable {search s t : Search} {first cell variant other left : ℕ}

def needs (search : Search) (first : ℕ) : Finset ℕ :=
  (search.open_ first).toFinset.filter fun cell=>0 < search.demand cell

structure Formed (search : Search) : Prop where
  order : search.order.Perm (List.range search.demands.length)
  bins : search.compatible.length=search.remaining.length
  assigned : search.assigned.length=search.demands.length
  eligible : ∀ {cell variant : ℕ}, cell ∈ search.mask variant →
    variant ∈ search.accepts.getD cell [] ∧ cell < search.demands.length ∧ 0 < search.demand cell

section Bins

lemma bins_eq_some {index : ℕ} {bin : Finset ℕ × ℕ} (h : search.bins[index]? = some bin) :
    bin = (search.mask index,search.supply index) := by
  unfold bins at h
  rw [List.getElem?_zip_eq_some] at h
  unfold mask supply
  rw [List.getD_eq_getElem?_getD,List.getD_eq_getElem?_getD,h.1,h.2]
  rfl

lemma lt_of_mem_mask (h : cell ∈ search.mask variant) : variant < search.compatible.length := by
  by_contra hge
  unfold mask at h
  rw [getD_eq_default _ _ (Nat.le_of_not_lt hge)] at h
  exact absurd h (Finset.notMem_empty _)

lemma Formed.bins_getElem? (h : search.Formed) (hcell : cell ∈ search.mask variant) :
    search.bins[variant]? = some (search.mask variant,search.supply variant) := by
  have hlt := lt_of_mem_mask hcell
  unfold Search.bins mask supply
  rw [List.getElem?_zip_eq_some,getD_eq_getElem _ _ hlt, getD_eq_getElem _ _ (h.bins ▸ hlt)]
  exact ⟨List.getElem?_eq_getElem hlt,List.getElem?_eq_getElem (h.bins ▸ hlt)⟩

lemma fits_iff : search.fits cell variant=true ↔
    search.demand cell ≤ search.supply variant ∧ cell ∈ search.mask variant := by
  unfold fits
  rw [Bool.and_eq_true,decide_eq_true_eq,decide_eq_true_eq]

lemma Formed.mem_choices (h : search.Formed) : variant ∈ search.choices cell ↔ search.fits cell variant=true := by
  unfold choices
  rw [mem_filter]
  exact ⟨And.right,fun hfits=>⟨(h.eligible (fits_iff.1 hfits).2).1,hfits⟩⟩

lemma state_packable {missing : ℕ} : (search.state first missing).Packable search.demand ↔
    PacksInto search.demand search.bins (search.needs first) := by
  have hvisible : PacksInto search.demand (PacksInto.visible (search.open_ first).toFinset search.bins)
      (search.needs first) ↔ PacksInto search.demand search.bins (search.needs first) :=
    PacksInto.visible_iff (Finset.filter_subset _ _)
  constructor
  · rintro ⟨bins,hbins,hpacks⟩
    exact hvisible.1 (hpacks.perm (Multiset.coe_eq_coe.1 hbins))
  · exact fun hpacks=>⟨_,rfl,hvisible.2 hpacks⟩

end Bins

section Order

section

variable (h : search.Formed)
include h

lemma Formed.length_order : search.order.length=search.demands.length := by
  rw [h.order.length_eq,length_range]

lemma Formed.nodup : search.order.Nodup :=
  h.order.nodup_iff.2 nodup_range

lemma Formed.card_open : (search.open_ first).toFinset.card=search.demands.length-first := by
  unfold open_
  rw [toFinset_card_of_nodup (h.nodup.sublist (drop_sublist _ _)),length_drop, h.length_order]

lemma Formed.getElem_order (hlt : first < search.demands.length) :
    search.order[first]? = some (search.order.getD first 0) := by
  have hbound : first < search.order.length := h.length_order.symm ▸ hlt
  rw [getD_eq_getElem _ _ hbound]
  exact List.getElem?_eq_getElem hbound

lemma Formed.open_eq (hlt : first < search.demands.length) :
    search.open_ first=search.order.getD first 0 :: search.open_ (first+1) := by
  have hbound : first < search.order.length := h.length_order.symm ▸ hlt
  unfold open_
  rw [drop_eq_getElem_cons hbound,getD_eq_getElem _ _ hbound]

lemma Formed.needs_succ (hlt : first < search.demands.length) :
    search.needs (first+1) = (search.needs first).erase (search.order.getD first 0) := by
  have hnodup : (search.open_ first).Nodup := h.nodup.sublist (drop_sublist _ _)
  rw [h.open_eq hlt,nodup_cons] at hnodup
  unfold needs
  rw [h.open_eq hlt]
  ext cell
  simp only [Finset.mem_filter,mem_toFinset,Finset.mem_erase,mem_cons]
  constructor
  · rintro ⟨hmem,hpos⟩
    exact ⟨fun heq=>hnodup.1 (heq ▸ hmem),.inr hmem,hpos⟩
  · rintro ⟨hne,hmem,hpos⟩
    exact ⟨hmem.resolve_left hne,hpos⟩

end

lemma minByKey_mem {key : ℕ → ℕ} {items : List ℕ} {least : ℕ} (h : minByKey key items=some least) : least ∈ items := by
  induction items generalizing least with
  | nil => cases h
  | cons item items ih =>
    rw [minByKey] at h
    cases hrest : minByKey key items with
    | none =>
      rw [hrest] at h
      cases h
      exact .head _
    | some other =>
      rw [hrest] at h
      dsimp only at h
      split at h
      · cases h
        exact .head _
      · cases h
        exact .tail _ (ih hrest)

lemma Formed.next_bounds (h : search.Formed) (hlt : first < search.demands.length) :
    first ≤ search.next first ∧ search.next first < search.demands.length := by
  unfold next
  cases hleast : minByKey (fun index=>(search.choices (search.order.getD index 0)).length)
      (List.range' first (search.order.length-first)) with
  | none => exact ⟨Nat.le_refl _,hlt⟩
  | some least =>
    have hmem := mem_range'_1.1 (minByKey_mem hleast)
    have hlength := h.length_order
    rw [Option.getD_some]
    omega

lemma Formed.swap (h : search.Formed) (hfirst : first < search.demands.length)
    (hother : other < search.demands.length) : (search.swap first other).Formed where
  order := by
    refine List.Perm.trans ?_ h.order
    have hlength := h.length_order
    unfold Search.swap
    rw [getD_eq_getElem _ _ (by omega),getD_eq_getElem _ _ (by omega)]
    exact set_set_perm (by omega) (by omega)
  __ := h

lemma take_swap (hle : first≤other) : (search.swap first other).order.take first=search.order.take first := by
  unfold Search.swap
  rw [take_set_of_le hle,take_set_of_le (Nat.le_refl _)]

lemma Formed.toFinset_open_swap (h : search.Formed) (hle : first≤other)
    (hfirst : first < search.demands.length) (hother : other < search.demands.length) :
    ((search.swap first other).open_ first).toFinset = (search.open_ first).toFinset := by
  have hperm : (search.swap first other).order.Perm search.order := (h.swap hfirst hother).order.trans h.order.symm
  rw [← take_append_drop first (search.swap first other).order,take_swap hle] at hperm
  have hsplit := hperm.trans (List.Perm.of_eq (take_append_drop first search.order).symm)
  exact toFinset_eq_of_perm _ _ ((perm_append_left_iff _).1 hsplit)

lemma swap_twice {items : List ℕ} {i j : ℕ} (hi : i < items.length) (hj : j < items.length) :
    (((items.set i items[j]).set j items[i]).set i items[i]).set j items[j] = items := by
  refine List.ext_getElem? fun index=>?_
  grind

lemma Formed.swap_swap (h : search.Formed) (hfirst : first < search.demands.length)
    (hother : other < search.demands.length) :
    (search.swap first other).swap first other=search := by
  have hlength := h.length_order
  have hi : first < search.order.length := by omega
  have hj : other < search.order.length := by omega
  have hswapped : (search.swap first other).order =
      (search.order.set first search.order[other]).set other search.order[first] := by
    unfold Search.swap
    rw [getD_eq_getElem _ _ hi,getD_eq_getElem _ _ hj]
  have hfirstAt : (search.swap first other).order.getD first 0=search.order[other] := by
    rw [hswapped,getD_eq_getElem _ _ (by simp [hi]),getElem_set]
    split
    · rename_i heq
      subst heq
      rfl
    · exact getElem_set_self _
  have hotherAt : (search.swap first other).order.getD other 0=search.order[first] := by
    rw [hswapped,getD_eq_getElem _ _ (by simp [hj]),getElem_set_self]
  change { search with
    order := (((search.swap first other).order.set first
      ((search.swap first other).order.getD other 0)).set other
        ((search.swap first other).order.getD first 0)) } = search
  rw [hfirstAt,hotherAt,hswapped,swap_twice hi hj]

end Order

section Bounds

lemma mem_open (hcell : cell ∈ search.needs first) : cell ∈ search.open_ first ∧ 0 < search.demand cell := by
  obtain ⟨hmem,hpos⟩ := Finset.mem_filter.1 hcell
  exact ⟨mem_toFinset.1 hmem,hpos⟩

lemma exists_choice (hpacks : PacksInto search.demand search.bins (search.needs first))
    (hcell : cell ∈ search.needs first) : ∃ variant, search.fits cell variant=true ∧ PacksInto search.demand
        (search.bins.set variant (search.mask variant,search.supply variant-search.demand cell))
        ((search.needs first).erase cell) := by
  obtain ⟨variant,mask,capacity,hget,hmem,hfits,hrest⟩ := hpacks.extract hcell
  cases bins_eq_some hget
  exact ⟨variant,fits_iff.2 ⟨hfits,hmem⟩,hrest⟩

lemma Formed.impossible_eq_zero (h : search.Formed)
    (hpacks : PacksInto search.demand search.bins (search.needs first)) :
    search.impossible (search.open_ first) = 0 := by
  unfold impossible
  rw [length_eq_zero_iff,filter_eq_nil_iff]
  intro cell hmem hfilter
  rw [Bool.and_eq_true,decide_eq_true_eq,List.isEmpty_iff] at hfilter
  obtain ⟨variant,hfits,-⟩ := exists_choice hpacks (Finset.mem_filter.2 ⟨mem_toFinset.2 hmem,hfilter.1⟩)
  have hchoice := h.mem_choices.2 hfits
  rw [hfilter.2] at hchoice
  exact absurd hchoice not_mem_nil

lemma Formed.shared_le (h : search.Formed) (hpacks : PacksInto search.demand search.bins (search.needs first))
    (hpos : 0 < search.demand cell) :
    search.shared (search.open_ first) cell ≤ search.portions cell := by
  have hnodup : (search.open_ first).Nodup := h.nodup.sublist (drop_sublist _ _)
  unfold shared
  rw [← toFinset_card_of_nodup (hnodup.filter _)]
  refine PacksInto.card_le (fun bin=>cell ∈ bin.1) hpos (fun other hmem=>?_) (fun other hmem=>?_)
    (fun bin hbin other hmem hother=>?_) hpacks
  · rw [mem_toFinset,mem_filter,Bool.and_eq_true,decide_eq_true_eq] at hmem
    exact Finset.mem_filter.2 ⟨mem_toFinset.2 hmem.1,Nat.lt_of_lt_of_le hpos hmem.2.1⟩
  · rw [mem_toFinset,mem_filter,Bool.and_eq_true,decide_eq_true_eq] at hmem
    exact hmem.2.1
  · rw [mem_toFinset,mem_filter,Bool.and_eq_true,all_eq_true] at hmem
    have hmask := hmem.2.2 bin.1 (of_mem_zip hbin).1
    rw [Bool.or_eq_true,decide_eq_true_eq,decide_eq_true_eq] at hmask
    exact hmask.resolve_left (not_not_intro hother)

lemma needed_eq : search.needed (search.open_ first) 0 = ((search.open_ first).map search.demand).sum := by
  exact (mergeSort_perm _ _).sum_eq

lemma sum_zip_le_sum_zipIdx {masks : List (Finset ℕ)} {counts : List ℕ} {start : ℕ}
    {P : Finset ℕ × ℕ → Bool} {Q : ℕ × ℕ → Bool}
    (hPQ : ∀ (index : ℕ) (bin : Finset ℕ × ℕ), (masks.zip counts)[index]? = some bin →
      P bin=true → Q (bin.2,start+index) = true) :
    (((masks.zip counts).filter P).map Prod.snd).sum ≤
      (((counts.zipIdx start).filter Q).map Prod.fst).sum := by
  induction masks generalizing counts start with
  | nil => exact Nat.zero_le _
  | cons mask masks ih =>
    cases counts with
    | nil => exact Nat.zero_le _
    | cons count counts =>
      have hrest : (((masks.zip counts).filter P).map Prod.snd).sum ≤
          (((counts.zipIdx (start+1)).filter Q).map Prod.fst).sum := ih fun index bin hbin hP=>by
        have hQ := hPQ (index+1) bin hbin hP
        rw [Nat.add_assoc,Nat.add_comm 1]
        exact hQ
      rw [zip_cons_cons,zipIdx_cons,filter_cons,filter_cons]
      split
      · rename_i hP
        have hQ : Q (count,start) = true := hPQ 0 _ rfl hP
        rw [if_pos hQ,map_cons,map_cons,sum_cons,sum_cons]
        exact Nat.add_le_add_left hrest _
      · split
        · exact hrest.trans (Nat.le_add_left _ _)
        · exact hrest

/-- The bins that fit a slot hold no more than the variants the bound counts. -/
lemma Formed.held_le (h : search.Formed) : ((search.bins.filter fun bin=>∃ cell ∈ search.needs first, cell ∈ bin.1 ∧
      search.demand cell≤bin.2).map Prod.snd).sum ≤
      search.available (search.open_ first) := by
  refine sum_zip_le_sum_zipIdx fun index bin hbin hP=>?_
  obtain ⟨cell,hcell,hmem,hfits⟩ := of_decide_eq_true hP
  cases bins_eq_some hbin
  rw [Nat.zero_add,any_eq_true]
  refine ⟨cell,(mem_open hcell).1,?_⟩
  rw [Bool.and_eq_true,decide_eq_true_eq]
  exact ⟨(h.eligible hmem).1,fits_iff.2 ⟨hfits,hmem⟩⟩

lemma Formed.needed_le (h : search.Formed) (hpacks : PacksInto search.demand search.bins (search.needs first)) :
    search.needed (search.open_ first) 0 ≤ search.available (search.open_ first) := by
  have hnodup : (search.open_ first).Nodup := h.nodup.sublist (drop_sublist _ _)
  have hsum : search.needed (search.open_ first) 0 = ∑ cell ∈ search.needs first, search.demand cell := by
    rw [needed_eq,← sum_toFinset _ hnodup]
    refine (Finset.sum_filter_of_ne fun cell _ hne=>Nat.pos_of_ne_zero hne).symm
  rw [hsum]
  refine (hpacks.sum_le (fun bin=>∃ cell ∈ search.needs first, cell ∈ bin.1 ∧
    search.demand cell≤bin.2) fun bin _ cell hcell hmem hfits=>?_).trans h.held_le
  exact ⟨cell,hcell,hmem,hfits⟩

/-- The bounds reject nothing that packs. -/
lemma Formed.capacity_fits (h : search.Formed) (hpacks : PacksInto search.demand search.bins (search.needs first)) :
    search.remainingCapacityFits first 0=true := by
  unfold remainingCapacityFits
  dsimp only
  rw [h.impossible_eq_zero hpacks,if_neg (Nat.lt_irrefl 0),if_neg]
  · exact decide_eq_true (h.needed_le hpacks)
  · rw [any_eq_true]
    rintro ⟨cell,-,hcell⟩
    rw [Bool.and_eq_true,decide_eq_true_eq,decide_eq_true_eq,Nat.sub_zero] at hcell
    exact absurd (h.shared_le hpacks hcell.1) (Nat.not_le_of_lt hcell.2)

end Bounds

section Steps

/-- The slots before `first` are assigned, the others are not, and the supplies account for them. -/
structure Accounts (total : ℕ → ℕ) (first : ℕ) (search : Search) : Prop where
  placed : ∀ {cell variant : ℕ}, search.assigned.getD cell none=some variant →
    cell ∈ search.order.take first ∧ cell ∈ search.mask variant
  all : ∀ {cell : ℕ}, cell ∈ search.order.take first → 0 < search.demand cell → search.assigned.getD cell none≠none
  totals : ∀ variant, search.supply variant + ∑ cell ∈ Finset.range search.demands.length with
      search.assigned.getD cell none=some variant, search.demand cell=total variant

structure Finished (total : ℕ → ℕ) (search found : Search) : Prop where
  eligible : ∀ {cell variant : ℕ}, found.assigned.getD cell none=some variant → cell ∈ search.mask variant
  all : ∀ {cell : ℕ}, cell < search.demands.length → 0 < search.demand cell → found.assigned.getD cell none≠none
  totals : ∀ variant, ∑ cell ∈ Finset.range search.demands.length with
    found.assigned.getD cell none=some variant, search.demand cell≤total variant
  length : found.assigned.length=search.demands.length

/-- Nothing but the states seen changed, and every new one of at most `left` slots is hopeless. -/
structure Returns (left : ℕ) (search failed : Search) : Prop where
  same : failed = { search with visited := failed.visited }
  seen : ∀ state ∈ failed.visited, state ∈ search.visited ∨ state.cells.card≤left ∧ ¬state.Packable search.demand

def Hopeless (left : ℕ) (search : Search) : Prop :=
  ∀ state ∈ search.visited, state.cells.card≤left → ¬state.Packable search.demand

lemma Returns.refl : Returns left search search := ⟨rfl,fun _=>.inl⟩

lemma Returns.trans (h : Returns left search s) (h' : Returns left s t) :
    Returns left search t := by
  refine ⟨?_,fun state hmem=>?_⟩
  · rw [h'.same,h.same]
  · rcases h'.seen state hmem with hold | ⟨hcard,hnot⟩
    · exact h.seen state hold
    · rw [h.same] at hnot
      exact .inr ⟨hcard,hnot⟩

lemma Returns.hopeless (h : Returns left search s) (hopeless : Hopeless left search) :
    Hopeless left s := by
  intro state hmem hcard
  have hdemand : s.demand=search.demand := by rw [h.same]; rfl
  rw [hdemand]
  rcases h.seen state hmem with hold | ⟨-,hnot⟩
  · exact hopeless state hold hcard
  · exact hnot

lemma Formed.take (h : search.Formed) : (search.take cell variant).Formed where
  order := h.order
  bins := by
    unfold Search.take
    rw [length_set]
    exact h.bins
  assigned := by
    unfold Search.take
    rw [length_set]
    exact h.assigned
  eligible := h.eligible

lemma zip_set {masks : List (Finset ℕ)} {counts : List ℕ} {index count : ℕ} : masks.zip (counts.set index count) =
      (masks.zip counts).set index (masks.getD index ∅,count) := by
  induction masks generalizing counts index with
  | nil => rfl
  | cons mask masks ih =>
    cases counts with
    | nil => rfl
    | cons first counts =>
      cases index with
      | zero => rfl
      | succ index =>
        rw [set_cons_succ,zip_cons_cons,zip_cons_cons,set_cons_succ,ih]
        rfl

lemma bins_take : (search.take cell variant).bins=search.bins.set variant
      (search.mask variant,search.supply variant-search.demand cell) := zip_set

lemma mem_take_succ (h : search.Formed) (hlt : first < search.demands.length) : cell ∈ search.order.take (first+1) ↔
      cell ∈ search.order.take first ∨ cell=search.order.getD first 0 := by
  have hbound : first < search.order.length := h.length_order.symm ▸ hlt
  rw [take_succ_eq_append_getElem hbound,getD_eq_getElem _ _ hbound,mem_append, mem_singleton]

lemma Formed.notMem_take (h : search.Formed) (hlt : first < search.demands.length) :
    search.order.getD first 0 ∉ search.order.take first := by
  have hbound : first < search.order.length := h.length_order.symm ▸ hlt
  have hnodup := h.nodup
  rw [← take_append_drop first search.order,nodup_append, drop_eq_getElem_cons hbound] at hnodup
  rw [getD_eq_getElem _ _ hbound]
  exact fun hmem=>hnodup.2.2 _ hmem _ (.head _) rfl

lemma Formed.getD_lt (h : search.Formed) (hlt : first < search.demands.length) :
    search.order.getD first 0 < search.demands.length := by
  have hmem := List.mem_of_getElem? (h.getElem_order hlt)
  exact mem_range.1 (h.order.mem_iff.1 hmem)

section

variable {total : ℕ → ℕ}

/-- A slot that needs nothing is passed over. -/
lemma Accounts.pass (h : Accounts total first search) (hformed : search.Formed) (hlt : first < search.demands.length)
    (hzero : search.demand (search.order.getD first 0) = 0) :
    Accounts total (first+1) search where
  placed hsome := ⟨(mem_take_succ hformed hlt).2 (.inl (h.placed hsome).1),(h.placed hsome).2⟩
  all hmem hpos := by
    rcases (mem_take_succ hformed hlt).1 hmem with hmem | rfl
    · exact h.all hmem hpos
    · rw [hzero] at hpos
      exact absurd hpos (Nat.lt_irrefl 0)
  totals := h.totals

lemma getD_assigned_take (hformed : search.Formed) (hlt : cell < search.demands.length)
    {slot : ℕ} : (search.take cell variant).assigned.getD slot none =
      if cell=slot then some variant else search.assigned.getD slot none := by
  unfold Search.take
  rw [List.getD_eq_getElem?_getD,List.getD_eq_getElem?_getD,List.getElem?_set]
  split
  · rw [if_pos (hformed.assigned.symm ▸ hlt)]
    rfl
  · rfl

lemma supply_take (hformed : search.Formed) (hmem : cell ∈ search.mask variant) :
    (search.take cell variant).supply other = if variant=other then search.supply variant-search.demand cell
      else search.supply other := by
  have hlt : variant < search.remaining.length := hformed.bins ▸ lt_of_mem_mask hmem
  unfold Search.take supply
  rw [List.getD_eq_getElem?_getD,List.getElem?_set]
  split
  · rfl
  · rw [List.getD_eq_getElem?_getD]

lemma Accounts.unassigned (h : Accounts total first search)
    (hformed : search.Formed) (hlt : first < search.demands.length) :
    search.assigned.getD (search.order.getD first 0) none=none := by
  cases hsome : search.assigned.getD (search.order.getD first 0) none with
  | none => rfl
  | some variant => exact absurd (h.placed hsome).1 (hformed.notMem_take hlt)

/-- A slot takes what it needs from a variant. -/
lemma Accounts.take (h : Accounts total first search) (hformed : search.Formed) (hlt : first < search.demands.length)
    (hfits : search.fits (search.order.getD first 0) variant=true) :
    Accounts total (first+1) (search.take (search.order.getD first 0) variant) := by
  have hnone := h.unassigned hformed hlt
  have hcell := hformed.getD_lt hlt
  have horder : ∀ slot, slot ∈ (search.take (search.order.getD first 0) variant).order.take
      (first+1) ↔ slot ∈ search.order.take first ∨ slot=search.order.getD first 0 := fun _ =>
    mem_take_succ hformed.take hlt
  generalize search.order.getD first 0=cell at *
  obtain ⟨hroom,hmem⟩ := fits_iff.1 hfits
  constructor
  · intro slot taken hsome
    rw [getD_assigned_take hformed hcell] at hsome
    rw [horder]
    split at hsome
    · rename_i heq
      cases hsome
      exact ⟨.inr heq.symm,heq ▸ hmem⟩
    · exact ⟨.inl (h.placed hsome).1,(h.placed hsome).2⟩
  · intro slot hslot hpos
    rw [getD_assigned_take hformed hcell]
    split
    · exact Option.some_ne_none _
    · exact h.all (((horder slot).1 hslot).resolve_right (Ne.symm ‹_›)) hpos
  · intro taken
    have htotal := h.totals taken
    rw [supply_take hformed hmem]
    simp only [getD_assigned_take hformed hcell]
    change _ + ∑ slot ∈ Finset.range search.demands.length with _, search.demand slot=_
    by_cases heq : variant=taken
    · subst heq
      have hinsert : (Finset.range search.demands.length).filter (fun slot =>
          (if cell=slot then some variant else search.assigned.getD slot none) = some variant) =
          insert cell ((Finset.range search.demands.length).filter fun slot =>
            search.assigned.getD slot none=some variant) := by
        ext slot
        by_cases hslot : cell=slot
        · subst hslot
          simp [hcell]
        · simp [hslot,Ne.symm hslot]
      rw [if_pos rfl,hinsert,Finset.sum_insert]
      · omega
      · rw [Finset.mem_filter,hnone]
        exact fun hfalse=>by cases hfalse.2
    · have hsame : (Finset.range search.demands.length).filter (fun slot =>
          (if cell=slot then some variant else search.assigned.getD slot none) = some taken) =
          (Finset.range search.demands.length).filter fun slot =>
            search.assigned.getD slot none=some taken := by
        refine Finset.filter_congr fun slot _=>?_
        by_cases hslot : cell=slot
        · subst hslot
          rw [if_pos rfl,hnone]
          simp [heq]
        · rw [if_neg hslot]
      rw [if_neg heq,hsame]
      exact htotal

lemma set_getD {α : Type} {items : List α} {index : ℕ} {default : α}
    (h : index < items.length) : items.set index (items.getD index default) = items := by
  rw [getD_eq_getElem _ _ h]
  exact set_getElem_self h

lemma restore_take (h : Accounts total first search) (hformed : search.Formed) (hlt : first < search.demands.length)
    (hfits : search.fits (search.order.getD first 0) variant=true) (visited : List SearchState) :
    ({ search.take (search.order.getD first 0) variant with visited := visited } : Search).restore
        (search.order.getD first 0) variant = { search with visited := visited } := by
  have hnone := h.unassigned hformed hlt
  have hcell := hformed.getD_lt hlt
  generalize search.order.getD first 0=cell at *
  obtain ⟨hroom,hmem⟩ := fits_iff.1 hfits
  have hvariant : variant < search.remaining.length := hformed.bins ▸ lt_of_mem_mask hmem
  have hsupply : (search.take cell variant).supply variant=search.supply variant-search.demand cell := by
    rw [supply_take hformed hmem,if_pos rfl]
  change ({ search with
      visited := visited
      remaining := (search.take cell variant).remaining.set variant
        ((search.take cell variant).supply variant+search.demand cell)
      assigned := (search.assigned.set cell (some variant)).set cell none } : Search) = _
  rw [hsupply,Nat.sub_add_cancel hroom]
  unfold Search.take
  rw [set_set,set_set]
  unfold supply
  rw [set_getD hvariant]
  have hback : search.assigned.set cell none=search.assigned := by
    rw [← hnone]
    exact set_getD (hformed.assigned.symm ▸ hcell)
  rw [hback]

end

end Steps

section Searching

variable {total : ℕ → ℕ}

def Answers (total : ℕ → ℕ) (left : ℕ) (search : Search) (result : Bool × Search) : Prop :=
  (result.1=true → Finished total search result.2) ∧ (result.1=false → Returns left search result.2 ∧
      ¬PacksInto search.demand search.bins (search.needs (search.demands.length-left)))

structure Ready (total : ℕ → ℕ) (left : ℕ) (search : Search) : Prop where
  formed : search.Formed
  enough : left ≤ search.demands.length
  hopeless : Hopeless left search
  accounts : Accounts total (search.demands.length-left) search

/-- A choice that differs from a failed one in nothing the open slots see fails too. -/
lemma hopeless_of_alike {d : ℕ} {cells : Finset ℕ} {items : Finset ℕ} (hformed : search.Formed)
    (hitems : items ⊆ cells) (hfits : search.fits cell variant=true)
    (hfits' : search.fits cell other=true)
    (halike : search.mask variant ∩ cells=search.mask other ∩ cells)
    (hsupply : search.supply variant=search.supply other)
    (hnot : ¬PacksInto search.demand (search.bins.set other (search.mask other,search.supply other-d)) items) :
    ¬PacksInto search.demand
      (search.bins.set variant (search.mask variant,search.supply variant-d)) items := by
  intro hpacks
  have hvariant := hformed.bins_getElem? (fits_iff.1 hfits).2
  have hother := hformed.bins_getElem? (fits_iff.1 hfits').2
  rw [hsupply] at hvariant hpacks
  exact hnot (PacksInto.interchange hvariant hother halike hitems hpacks)

lemma tryVariants_spec {assign : Search → Bool × Search} (cells : Finset ℕ) (variants : List ℕ)
    {tried : List (Finset ℕ × ℕ)} {visited : List SearchState}
    (hassign : ∀ s, Ready total left s → Answers total left s (assign s))
    (hformed : search.Formed) (hsplit : first+1+left=search.demands.length)
    (haccounts : Accounts total first search)
    (hcell : search.order.getD first 0=cell)
    (hcells : search.needs (first+1) ⊆ cells)
    (htried : ∀ choice ∈ tried, ∃ variant, search.fits cell variant=true ∧
      choice = (search.mask variant ∩ cells,search.supply variant) ∧
      ¬PacksInto search.demand (search.take cell variant).bins (search.needs (first+1)))
    (hopeless : Hopeless left { search with visited := visited }) :
    let result := ({ search with visited := visited } : Search).tryVariants assign cell cells tried variants
    (result.1=true → Finished total search result.2) ∧
      (result.1=false → Returns left { search with visited := visited } result.2 ∧
        ∀ variant ∈ variants, search.fits cell variant=true → ¬PacksInto search.demand (search.take cell variant).bins
            (search.needs (first+1))) := by
  induction variants generalizing tried visited with
  | nil => exact ⟨fun h=>(by cases h),fun _=>⟨.refl,fun _ hmem =>
      absurd hmem not_mem_nil⟩⟩
  | cons variant variants ih =>
    intro result
    have hresult : result = ({ search with visited := visited } : Search).tryVariants assign cell
      cells tried (variant::variants) := rfl
    clear_value result
    rw [tryVariants] at hresult
    split at hresult
    · -- the variant has no room for the slot
      rename_i hskip
      subst hresult
      have hnofit : search.fits cell variant≠true := by
        intro hfits
        change (!search.fits cell variant) = true at hskip
        rw [hfits] at hskip
        cases hskip
      obtain ⟨hfound,hfailed⟩ := ih htried hopeless
      refine ⟨hfound,fun hfalse=>⟨(hfailed hfalse).1,fun other hmem hfits=>?_⟩⟩
      rcases mem_cons.1 hmem with rfl | hmem
      · exact absurd hfits hnofit
      · exact (hfailed hfalse).2 other hmem hfits
    · rename_i hskip
      have hfits : search.fits cell variant=true := by
        change ¬(!search.fits cell variant) = true at hskip
        simpa using hskip
      split at hresult
      · -- an interchangeable variant was tried
        rename_i hdone
        subst hresult
        obtain ⟨hfound,hfailed⟩ := ih htried hopeless
        refine ⟨hfound,fun hfalse=>⟨(hfailed hfalse).1,fun other hmem hfits'=>?_⟩⟩
        rcases mem_cons.1 hmem with rfl | hmem
        · obtain ⟨alike,halike,hchoice,hnot⟩ := htried _ hdone
          obtain ⟨hmask,hsupply⟩ := Prod.mk.inj hchoice
          rw [bins_take] at hnot ⊢
          exact hopeless_of_alike hformed hcells hfits halike hmask hsupply hnot
        · exact (hfailed hfalse).2 other hmem hfits'
      · have hfirst : first < search.demands.length := by omega
        have hnext : search.demands.length-left=first+1 := by omega
        have hready : Ready total left (({ search with visited := visited } : Search).take cell variant) := by
          have htaken := haccounts.take hformed hfirst (hcell ▸ hfits)
          rw [hcell,← hnext] at htaken
          have hkept : (search.take cell variant).Formed := hformed.take
          exact ⟨⟨hkept.order,hkept.bins,hkept.assigned,hkept.eligible⟩,by
            change left ≤ search.demands.length
            omega,hopeless,
            ⟨htaken.placed,htaken.all,htaken.totals⟩⟩
        obtain ⟨hfound,hfailed⟩ := hassign _ hready
        cases hcall : assign (({ search with visited := visited } : Search).take cell variant) with
        | mk complete next =>
          rw [hcall] at hresult hfound hfailed
          cases complete with
          | true =>
            subst hresult
            exact ⟨fun _=>⟨(hfound rfl).eligible,(hfound rfl).all,(hfound rfl).totals,
              (hfound rfl).length⟩,fun h=>by cases h⟩
          | false =>
            dsimp only at hresult
            obtain ⟨hreturns,hnot⟩ := hfailed rfl
            replace hnot : ¬PacksInto search.demand (search.take cell variant).bins (search.needs (first+1)) := by
              rw [← hnext]
              exact hnot
            have hrestored : next.restore cell variant = { search with visited := next.visited } := by
              have hback := restore_take haccounts hformed hfirst (hcell ▸ hfits) next.visited
              rw [hcell] at hback
              have hsame : next = { search.take cell variant with visited := next.visited } := hreturns.same
              rw [hsame]
              exact hback
            have hsteps : Returns left { search with visited := visited }
                { search with visited := next.visited } := ⟨rfl,hreturns.seen⟩
            rw [hrestored] at hresult
            subst hresult
            obtain ⟨hfound',hfailed'⟩ := ih (fun choice hmem=>by
              rcases mem_append.1 hmem with hmem | hmem
              · exact htried choice hmem
              · rw [mem_singleton] at hmem
                exact ⟨variant,hfits,hmem,hnot⟩) (hsteps.hopeless hopeless)
            refine ⟨hfound',fun hfalse=>⟨hsteps.trans (hfailed' hfalse).1, fun other hmem hfits'=>?_⟩⟩
            rcases mem_cons.1 hmem with rfl | hmem
            · exact hnot
            · exact (hfailed' hfalse).2 other hmem hfits'

lemma Formed.card_state (h : search.Formed) (hsplit : first+1+left=search.demands.length)
    {missing : ℕ} : (search.state first missing).cells.card=left+1 := by
  change (search.open_ first).toFinset.card=left+1
  rw [h.card_open]
  omega

/-- A failed branch leaves the search as it was, with one more hopeless state. -/
lemma Formed.returned (h : search.Formed) (hsplit : first+1+left=search.demands.length)
    {missing : ℕ} (hother : other < search.demands.length)
    (hreturns : Returns left
      { search.swap first other with
        visited := search.state first missing::search.visited } s)
    (hnot : ¬PacksInto search.demand search.bins (search.needs first)) :
    Returns (left+1) search (s.swap first other) := by
  have hback : s.swap first other = { search with visited := s.visited } := by
    have htwice := h.swap_swap (show first<_ by omega) hother
    rw [hreturns.same]
    change ({ ((search.swap _ other).swap _ other) with visited := s.visited } : Search) = _
    rw [htwice]
  rw [hback]
  refine ⟨rfl,fun state hmem=>?_⟩
  rcases hreturns.seen state hmem with hold | ⟨hcard,hstate⟩
  · rcases mem_cons.1 hold with rfl | hold
    · exact .inr ⟨(h.card_state hsplit).le,fun hpackable=>hnot (state_packable.1 hpackable)⟩
    · exact .inl hold
  · exact .inr ⟨Nat.le_succ_of_le hcard,hstate⟩

lemma assign_succ (hfits : search.remainingCapacityFits first 0=true) (hseen : search.state first 0 ∉ search.visited)
    (hfirst : search.demands.length - (left+1) = first) :
    search.assign (left+1) 0 =
      let here := { search.swap first (search.next first) with
        visited := search.state first 0::search.visited }
      let cell := here.order.getD first 0
      if here.demand cell=0 then
        ((here.assign left 0).1,(here.assign left 0).2.swap first (search.next first))
      else
        match here.tryVariants (assign left 0) cell (search.open_ first).toFinset []
            (here.accepts.getD cell []) with
        | (true,found) => (true,found)
        | (false,failed) => (false,failed.swap first (search.next first)) := by
  rw [assign,hfirst]
  rw [hfits,if_neg (by simp),if_neg hseen]
  rfl

/-- Without omissions the search answers whether the open slots pack. -/
lemma assign_spec (h : Ready total left search) : Answers total left search (search.assign left 0) := by
  induction left generalizing search with
  | zero =>
    refine ⟨fun _=>?_,fun h=>by cases h⟩
    have haccounts := h.accounts
    rw [Nat.sub_zero] at haccounts
    refine ⟨fun hsome=>(haccounts.placed hsome).2,fun hlt hpos=>haccounts.all ?_ hpos,
      fun variant=>?_,h.formed.assigned⟩
    · rw [← h.formed.length_order,take_length,h.formed.order.mem_iff]
      exact mem_range.2 hlt
    · have htotal := haccounts.totals variant
      change ∑ cell ∈ Finset.range search.demands.length with
        search.assigned.getD cell none=some variant, search.demand cell≤total variant
      omega
  | succ left ih =>
    obtain ⟨hformedHere,henough,hopelessHere,haccountsHere⟩ := h
    obtain ⟨first,hsplit⟩ : ∃ first, first+1+left=search.demands.length := ⟨search.demands.length - (left+1),by omega⟩
    have hfirst : first < search.demands.length := by omega
    have hleft : search.demands.length-left=first+1 := by omega
    have hopen : search.demands.length - (left+1) = first := by omega
    rw [hopen] at haccountsHere
    unfold Answers
    rw [hopen]
    by_cases hfits : search.remainingCapacityFits first 0=true
    · by_cases hseen : search.state first 0 ∈ search.visited
      · rw [assign,hopen]
        rw [hfits,if_neg (by simp),if_pos hseen]
        exact ⟨fun h=>(by cases h),fun _=>⟨.refl,fun hpacks =>
          hopelessHere _ hseen (hformedHere.card_state hsplit).le (state_packable.2 hpacks)⟩⟩
      · obtain ⟨hle,hnext⟩ := hformedHere.next_bounds hfirst
        rw [assign_succ hfits hseen hopen]
        generalize search.next first=other at hle hnext ⊢
        set base := search.swap first other with hbase
        dsimp only
        have hformed : base.Formed := hformedHere.swap hfirst hnext
        have hneeds : base.needs first=search.needs first := by
          unfold needs
          rw [hformedHere.toFinset_open_swap hle hfirst hnext]
          rfl
        have hrest : base.needs (first+1) = (search.needs first).erase (base.order.getD first 0) := by
          rw [← hneeds]
          exact hformed.needs_succ hfirst
        have haccounts : Accounts total first base := by
          refine ⟨fun hsome=>?_,fun hmem hpos=>?_,haccountsHere.totals⟩
          · rw [hbase,take_swap hle]
            exact haccountsHere.placed hsome
          · rw [hbase,take_swap hle] at hmem
            exact haccountsHere.all hmem hpos
        have hopeless : Hopeless left { base with visited := search.state first 0::search.visited } := by
          intro state hmem hcard
          rcases mem_cons.1 hmem with rfl | hmem
          · rw [hformedHere.card_state hsplit] at hcard
            exact absurd hcard (Nat.not_succ_le_self _)
          · exact hopelessHere state hmem (Nat.le_succ_of_le hcard)
        split
        · -- the slot needs nothing
          rename_i hzero
          have hready : Ready total left { base with visited := search.state first 0::search.visited } := by
            have hpassed := haccounts.pass hformed hfirst hzero
            rw [← hleft] at hpassed
            exact ⟨⟨hformed.order,hformed.bins,hformed.assigned,hformed.eligible⟩, Nat.le_of_succ_le henough,hopeless,
              ⟨hpassed.placed,hpassed.all,hpassed.totals⟩⟩
          obtain ⟨hfound,hfailed⟩ := ih hready
          refine ⟨fun htrue=>⟨(hfound htrue).eligible,(hfound htrue).all,
            (hfound htrue).totals,(hfound htrue).length⟩,fun hfalse=>?_⟩
          obtain ⟨hreturns,hnot⟩ := hfailed hfalse
          have hnone : ¬PacksInto search.demand search.bins (search.needs first) := by
            intro hpacks
            refine hnot ?_
            change PacksInto search.demand search.bins (base.needs (search.demands.length-left))
            rw [hleft,hrest,Finset.erase_eq_of_notMem]
            · exact hpacks
            · intro hmem
              have hpos : 0<base.demand (base.order.getD first 0) := (mem_open hmem).2
              exact absurd hzero hpos.ne'
          exact ⟨hformedHere.returned hsplit hnext hreturns hnone,hnone⟩
        · -- some variant fills it, or none does
          rename_i hpos
          obtain ⟨hfound,hfailed⟩ := tryVariants_spec (search.open_ first).toFinset
            (base.accepts.getD (base.order.getD first 0) []) (fun s hs=>ih hs) hformed hsplit
            haccounts rfl (fun cell hmem=>by
              rw [hrest] at hmem
              exact mem_toFinset.2 (mem_open (Finset.mem_of_mem_erase hmem)).1)
            (fun choice hmem=>absurd hmem not_mem_nil) hopeless
          generalize ({ base with visited := search.state first 0::search.visited } :
            Search).tryVariants (assign left 0) (base.order.getD first 0)
              (search.open_ first).toFinset [] (base.accepts.getD (base.order.getD first 0) []) =
                result at hfound hfailed ⊢
          obtain ⟨complete,s⟩ := result
          cases complete with
          | true =>
            exact ⟨fun _=>⟨(hfound rfl).eligible,(hfound rfl).all,(hfound rfl).totals,
              (hfound rfl).length⟩,fun h=>by cases h⟩
          | false =>
            refine ⟨fun h=>(by cases h),fun _=>?_⟩
            obtain ⟨hreturns,hall⟩ := hfailed rfl
            have hnone : ¬PacksInto search.demand search.bins (search.needs first) := by
              intro hpacks
              rw [← hneeds] at hpacks
              have hmem : base.order.getD first 0 ∈ base.needs first := by
                refine Finset.mem_filter.2 ⟨mem_toFinset.2 ?_,Nat.pos_of_ne_zero hpos⟩
                rw [hformed.open_eq hfirst]
                exact .head _
              have hchoice : ∃ variant, base.fits (base.order.getD first 0) variant=true ∧ _ :=
                exists_choice hpacks hmem
              obtain ⟨variant,hroom,hrestPacks⟩ := hchoice
              refine hall variant (hformed.eligible (fits_iff.1 hroom).2).1 hroom ?_
              rw [bins_take,hrest,← hneeds]
              exact hrestPacks
            exact ⟨hformedHere.returned hsplit hnext hreturns hnone,hnone⟩
    · rw [assign,hopen]
      rw [if_pos (by simpa using hfits)]
      exact ⟨fun h=>(by cases h),fun _=>⟨.refl,fun hpacks =>
        hfits (hformedHere.capacity_fits hpacks)⟩⟩

end Searching

end Search

end Cinnabar.Inventory
