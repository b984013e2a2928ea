import Cinnabar.Culling.Fill
import Cinnabar.Culling.Oracle

/-! # Each key is stored once -/

namespace Cinnabar.Culling.ConnectivityGrid

open List

variable {grid grid' : ConnectivityGrid}

lemma keys_nodup (hok : grid.slots.Ok) (order : VisitOrder) : (grid.keys order).Nodup := by
  refine nodup_append.2 ⟨?_,order.nodup _,?_⟩
  · rw [List.Nodup,pairwise_filterMap]
    refine nodup_range.imp fun {i j} hne key hkey key' hkey'=>?_
    obtain ⟨cell,hhas,rfl⟩ := Option.map_eq_some_iff.1 hkey
    obtain ⟨cell',hhas',rfl⟩ := Option.map_eq_some_iff.1 hkey'
    intro heq
    apply hne
    rw [← hok.home hhas,← hok.home hhas',heq]
  · intro key hkey key' hkey' heq
    subst heq
    obtain ⟨index,-,hlisted⟩ := mem_filterMap.1 hkey
    obtain ⟨cell,hhas,rfl⟩ := Option.map_eq_some_iff.1 hlisted
    have hhome : grid.index cell.key=index := hok.home hhas
    rw [← hhome] at hhas
    have hnone : grid.overflow.lookup cell.key=none := hok.apart ⟨cell.value,hhas⟩
    rw [order.mem,Finmap.mem_keys,← Finmap.lookup_isSome,hnone] at hkey'
    cases hkey'

lemma keys_length (order : VisitOrder) : (grid.keys order).length = ((List.range grid.cellCount).filterMap
      (fun index=>(grid.cells index).map Cell.key)).length+grid.overflow.keys.card := by
  unfold keys
  rw [length_append]
  have hset : (order.list grid.overflow.keys).toFinset=grid.overflow.keys :=
    Finset.ext fun key=>by rw [mem_toFinset,order.mem]
  rw [← toFinset_card_of_nodup (order.nodup _),hset]

lemma len_place (grid : ConnectivityGrid) (key : SectionKey) (value : FaceConnectivity) :
    (grid.place key value).2.len=grid.len := by
  unfold place
  dsimp only
  split
  · rfl
  · split_ifs <;> rfl

lemma len_placeAll (grid : ConnectivityGrid) (entries : List (SectionKey × FaceConnectivity)) :
    (entries.foldl (fun grid entry=>(grid.place entry.1 entry.2).2) grid).len=grid.len := by
  induction entries generalizing grid with
  | nil => rfl
  | cons entry rest ih => rw [foldl_cons,ih,len_place]

lemma len_relayout (grid : ConnectivityGrid) (xzBits yBits : ℕ) (order : VisitOrder) :
    (grid.relayout xzBits yBits order).len=grid.len :=
  len_placeAll (grid.reset xzBits yBits) _

lemma len_grow (grid : ConnectivityGrid) (order : VisitOrder) : (grid.grow order).len=grid.len := by
  unfold grow
  dsimp only
  split_ifs
  · rfl
  · rfl
  · exact len_relayout grid _ _ order
  · rfl
  · exact len_relayout grid _ _ order
  · rfl

lemma len_reserveView (grid : ConnectivityGrid) (radius height : ℕ) (order : VisitOrder) :
    (grid.reserveView radius height order).len=grid.len := by
  unfold reserveView
  dsimp only
  split_ifs
  · rfl
  · exact len_relayout _ _ _ order
  · rfl

lemma len_promote (grid : ConnectivityGrid) (key : SectionKey) (index : ℕ) : (grid.promote key index).len=grid.len := by
  unfold promote removeOverflow
  cases grid.overflow.lookup key <;> rfl

lemma len_promoteInto (grid : ConnectivityGrid) (index : ℕ) : (grid.promoteInto index).len=grid.len := by
  unfold promoteInto
  cases grid.firstHome index with
  | none => rfl
  | some key => exact len_promote grid key index

lemma Sound.insert_answer (h : grid.Sound) (key : SectionKey) (value : FaceConnectivity)
    (order : VisitOrder) : (grid.insert key value order).1=grid.slots.get key ∧ (grid.insert key value order).2.len =
        grid.len + if (grid.slots.get key).isSome then 0 else 1 := by
  obtain ⟨hstart,-,-,hget,-⟩ := h.allocate
  have hlen : (if grid.allocated then grid
      else grid.reset grid.reserved.1 grid.reserved.2).len=grid.len := by
    split_ifs <;> rfl
  unfold ConnectivityGrid.insert
  dsimp only at hstart hget ⊢
  generalize (if grid.allocated then grid else grid.reset grid.reserved.1 grid.reserved.2) = start at hstart hget hlen ⊢
  obtain ⟨-,hprevious⟩ := slots_place hstart key value
  rw [hprevious,hget]
  have hplaced := (len_place start key value).trans hlen
  cases grid.slots.get key with
  | none =>
    refine ⟨rfl,?_⟩
    rw [Option.isSome_none,if_neg Bool.false_ne_true]
    split_ifs
    · change (ConnectivityGrid.grow _ order).len=_
      rw [len_grow]
      exact congrArg (· + 1) hplaced
    · exact congrArg (· + 1) hplaced
  | some previous =>
    refine ⟨rfl,?_⟩
    rw [Option.isSome_some,if_pos rfl]
    dsimp only
    split_ifs <;> exact hplaced

lemma len_removeOverflow (grid : ConnectivityGrid) (key : SectionKey) :
    (grid.removeOverflow key).1=grid.overflow.lookup key ∧
      (grid.removeOverflow key).2.len=grid.len := by
  unfold removeOverflow
  cases grid.overflow.lookup key <;> exact ⟨rfl,rfl⟩

lemma Sound.remove_answer (h : grid.Sound) (key : SectionKey) : (grid.remove key).1=grid.slots.get key ∧
      (grid.remove key).2.len=grid.len - if (grid.slots.get key).isSome then 1 else 0 := by
  unfold ConnectivityGrid.remove
  cases halloc : grid.allocated with
  | false =>
    rw [h.get_fresh halloc]
    exact ⟨rfl,rfl⟩
  | true =>
    rw [if_neg (by decide)]
    dsimp only
    cases hcell : grid.cells (grid.index key) with
    | none =>
      have hover : grid.overflow.lookup key=none := by
        by_contra hover
        have hcrowded := h.crowded key (Option.isSome_iff_ne_none.2 hover)
        rw [hcell] at hcrowded
        cases hcrowded
      rw [Slots.get_none (s := grid.slots) hcell]
      change none=grid.overflow.lookup key ∧ grid.len-0=grid.len - if (grid.overflow.lookup key).isSome then 1 else 0
      rw [hover]
      exact ⟨rfl,rfl⟩
    | some cell =>
      rw [Slots.get_some (s := grid.slots) hcell]
      by_cases hk : cell.key=key
      · simp only [hk,if_true]
        refine ⟨trivial,?_⟩
        rw [len_promoteInto]
        rfl
      · obtain ⟨hanswer,hlen⟩ := len_removeOverflow grid key
        simp only [hk,if_false]
        rw [hanswer]
        refine ⟨rfl,congrArg₂ _ ?_ rfl⟩
        split_ifs <;> exact hlen

variable (keep : SectionKey → Bool)

lemma overflow_retainCells (L : List ℕ) (grid : ConnectivityGrid) :
    (L.foldl (retainCell keep) grid).overflow=grid.overflow ∧
      (L.foldl (retainCell keep) grid).cellCount=grid.cellCount := by
  induction L generalizing grid with
  | nil => exact ⟨rfl,rfl⟩
  | cons first rest ih =>
    rw [foldl_cons,(ih _).1,(ih _).2]
    unfold retainCell
    split
    · exact ⟨rfl,rfl⟩
    · split_ifs <;> exact ⟨rfl,rfl⟩

lemma cells_retainCell_of_ne {first index : ℕ} (hne : index≠first)
    (grid : ConnectivityGrid) : (retainCell keep grid first).cells index=grid.cells index := by
  unfold retainCell
  split
  · rfl
  · split_ifs
    · rfl
    · exact Function.update_of_ne hne _ _

lemma cells_retainCells_of_not_mem {L : List ℕ} {index : ℕ} (hnot : index ∉ L) (grid : ConnectivityGrid) :
    (L.foldl (retainCell keep) grid).cells index=grid.cells index := by
  induction L generalizing grid with
  | nil => rfl
  | cons first rest ih =>
    rw [foldl_cons,ih (not_mem_of_not_mem_cons hnot), cells_retainCell_of_ne keep (ne_of_not_mem_cons hnot)]

lemma len_retainCells (L : List ℕ) (hnodup : L.Nodup)
    (grid : ConnectivityGrid) : (L.foldl (retainCell keep) grid).len=grid.len + (L.filterMap fun index =>
        ((L.foldl (retainCell keep) grid).cells index).map Cell.key).length := by
  induction L generalizing grid with
  | nil => rfl
  | cons first rest ih =>
    obtain ⟨hfirst,hrest⟩ := nodup_cons.1 hnodup
    rw [foldl_cons,ih hrest,filterMap_cons,cells_retainCells_of_not_mem keep hfirst]
    unfold retainCell
    cases hcell : grid.cells first with
    | none =>
      rw [hcell]
      rfl
    | some cell =>
      dsimp only
      split_ifs with hkeep
      · dsimp only
        rw [hcell,Option.map_some,length_cons]
        omega
      · simp [setCell,ConnectivityGrid.record]

lemma len_rehomeAll (L : List SectionKey) (grid : ConnectivityGrid) : (L.foldl rehome grid).len=grid.len := by
  induction L generalizing grid with
  | nil => rfl
  | cons first rest ih =>
    rw [foldl_cons,ih]
    unfold rehome
    split_ifs
    · rfl
    · exact len_promote grid first _

lemma len_sweep (order : VisitOrder) : (grid.sweep keep order).len = ((grid.sweep keep order).keys order).length := by
  rw [keys_length]
  unfold sweep
  dsimp only
  generalize (order.list grid.overflow.keys).foldl (retainOverflow keep) grid=kept
  generalize hindexed : ({ kept with
      overflowHomes := kept.overflowHomes.filter fun entry=>(ofLex entry).2 ∈ kept.overflow
      len := kept.overflow.keys.card } : ConnectivityGrid) = indexed
  have hlen : indexed.len=indexed.overflow.keys.card := by
    rw [← hindexed]
  obtain ⟨hoverflow,hcount⟩ := overflow_retainCells keep (List.range indexed.cellCount) indexed
  rw [len_retainCells keep _ nodup_range,hcount,hoverflow,hlen,Nat.add_comm]

lemma card_of_keys (hok : grid.slots.Ok) {order : VisitOrder}
    (hmem : ∀ key, key ∈ grid.keys order ↔ (grid.slots.get key).isSome) {map : Connectivity}
    (hmap : ∀ key, grid.slots.get key=map.lookup key) :
    (grid.keys order).length=map.keys.card := by
  rw [← toFinset_card_of_nodup (keys_nodup hok order)]
  refine congrArg Finset.card (Finset.ext fun key=>?_)
  rw [mem_toFinset,hmem,hmap,Finmap.lookup_isSome,Finmap.mem_keys]

end Cinnabar.Culling.ConnectivityGrid
