import Cinnabar.World.Palette

/-! # Stable slots -/

namespace Cinnabar.World

open Function (update update_of_ne update_self)
open List

open PalettedStorage

/-- Slots of a palette of `size` entries over the cells; a released cell holds none. -/
structure SlotInv (slots : List PaletteSlot) (size : ℕ) (held : ℕ → Option ℕ) : Prop where
  length_le : slots.length≤blocksPerSubChunk
  held_lt : ∀ linear<blocksPerSubChunk, ∀ i, held linear=some i → i < slots.length
  count : ∀ (i : ℕ) (slot : PaletteSlot), slots[i]? = some slot → slot.count=cellCount held (some i)
  live_lt : ∀ (i : ℕ) (slot : PaletteSlot), slots[i]? = some slot → slot.count≠0 → slot.paletteIndex < size
  live_inj : ∀ (i j : ℕ) (a b : PaletteSlot), slots[i]? = some a → slots[j]? = some b → a.count≠0 →
    b.count≠0 → a.paletteIndex=b.paletteIndex → i=j
  live_surj : ∀ p < size, ∃ i : ℕ, ∃ slot : PaletteSlot, slots[i]? = some slot ∧ slot.count≠0 ∧ slot.paletteIndex=p

def slotEntry (slots : List PaletteSlot) (i : ℕ) : Option ℕ :=
  (slots[i]?.filter fun slot=>slot.count != 0).map (·.paletteIndex)

lemma slotEntry_eq_some {slots : List PaletteSlot} {i p : ℕ} : slotEntry slots i=some p ↔
    ∃ slot : PaletteSlot, slots[i]? = some slot ∧ slot.count≠0 ∧ slot.paletteIndex=p := by
  rw [slotEntry,Option.map_eq_some_iff]
  constructor
  · rintro ⟨slot,hslot,rfl⟩
    obtain ⟨hget,hlive⟩ := Option.filter_eq_some_iff.1 hslot
    exact ⟨slot,hget,by simpa using hlive,rfl⟩
  · rintro ⟨slot,hslot,hlive,rfl⟩
    exact ⟨slot,Option.filter_eq_some_iff.2 ⟨hslot,by simpa using hlive⟩,rfl⟩

lemma slotEntry_congr {slots slots' : List PaletteSlot} {change : ℕ → PaletteSlot → PaletteSlot}
    (hget : ∀ i, slots'[i]? = slots[i]?.map (change i))
    (hindex : ∀ i slot, (change i slot).paletteIndex=slot.paletteIndex)
    (hlive : ∀ (i : ℕ) (slot : PaletteSlot), slots[i]? = some slot → ((change i slot).count≠0 ↔ slot.count≠0)) (i : ℕ) :
    slotEntry slots' i=slotEntry slots i := by
  rw [slotEntry,slotEntry,hget]
  cases hi : slots[i]? with
  | none => rfl
  | some slot =>
    have hiff := hlive i slot hi
    by_cases hcount : slot.count=0
    · simp [Option.filter_some,hcount,not_not.1 (hiff.not.2 (not_not.2 hcount))]
    · simp [Option.filter_some,hcount,hiff.2 hcount,hindex]

def slotValue (slots : List PaletteSlot) (values : List ℕ) (i : ℕ) : Option ℕ := do
  values[(← slots[i]?).paletteIndex]?

section
variable {slots : List PaletteSlot} {size : ℕ} {held : ℕ → Option ℕ} (h : SlotInv slots size held)
include h

lemma SlotInv.held_live {linear i : ℕ} (hl : linear<blocksPerSubChunk)
    (hi : held linear=some i) : ∃ slot, slots[i]? = some slot ∧ slot.count≠0 := by
  have hlt := h.held_lt linear hl i hi
  refine ⟨slots[i],List.getElem?_eq_getElem hlt,?_⟩
  rw [h.count i _ (List.getElem?_eq_getElem hlt),cellCount_pos]
  exact ⟨linear,hl,hi⟩

lemma SlotInv.exists_cell {p : ℕ} (hp : p < size) : ∃ linear<blocksPerSubChunk, ∃ i : ℕ, ∃ slot : PaletteSlot,
    held linear=some i ∧ slots[i]? = some slot ∧ slot.paletteIndex=p := by
  obtain ⟨i,slot,hslot,hlive,hindex⟩ := h.live_surj p hp
  rw [h.count i slot hslot,cellCount_pos] at hlive
  obtain ⟨linear,hl,hheld⟩ := hlive
  exact ⟨linear,hl,i,slot,hheld,hslot,hindex⟩

lemma SlotInv.size_le : size≤blocksPerSubChunk := by
  refine le_of_cellCount_pos (f := fun linear=>(held linear).bind fun i=>slots[i]?.map (·.paletteIndex)) (b := some)
    (fun i j hij=>Option.some.inj hij) fun p hp=>?_
  obtain ⟨linear,hl,i,slot,hheld,hslot,hindex⟩ := h.exists_cell hp
  refine cellCount_pos.2 ⟨linear,hl,?_⟩
  simp only [hheld,Option.bind_some,hslot,Option.map_some,hindex]

/-- A released cell leaves room: a slot is dead, or another one fits. -/
lemma SlotInv.length_lt {linear : ℕ} (hl : linear<blocksPerSubChunk) (hnone : held linear=none)
    (hlive : ∀ (i : ℕ) (slot : PaletteSlot), slots[i]? = some slot → slot.count≠0) :
    slots.length<blocksPerSubChunk := by
  refine le_of_cellCount_pos (f := held) (n := slots.length+1) (b := Nat.rec none fun i _=>some i) ?_ ?_
  · rintro (_ | i) (_ | j) hij
    · rfl
    · cases hij
    · cases hij
    · rw [Option.some.inj hij]
  · rintro (_ | i) hi
    · exact cellCount_pos.2 ⟨linear,hl,hnone⟩
    · have hslot := List.getElem?_eq_getElem (show i < slots.length by omega)
      rw [← h.count i _ hslot]
      exact hlive i _ hslot

/-- Slots keep their entries when their counts change and none dies or comes to life. -/
lemma SlotInv.recounted {slots' : List PaletteSlot} {held' : ℕ → Option ℕ}
    {change : ℕ → PaletteSlot → PaletteSlot} (hget : ∀ i, slots'[i]? = slots[i]?.map (change i))
    (hindex : ∀ i slot, (change i slot).paletteIndex=slot.paletteIndex)
    (hlive : ∀ (i : ℕ) (slot : PaletteSlot), slots[i]? = some slot → ((change i slot).count≠0 ↔ slot.count≠0))
    (hlen : slots'.length=slots.length)
    (hheld : ∀ linear<blocksPerSubChunk, ∀ i, held' linear=some i → i < slots'.length)
    (hcount : ∀ (i : ℕ) (slot : PaletteSlot), slots'[i]? = some slot → slot.count=cellCount held' (some i)) :
    SlotInv slots' size held' ∧ (∀ i, slotEntry slots' i=slotEntry slots i) ∧
      ∀ (values : List ℕ) i, slotValue slots' values i=slotValue slots values i := by
  refine ⟨⟨hlen ▸ h.length_le,hheld,hcount,?_,?_,?_⟩,slotEntry_congr hget hindex hlive,?_⟩
  · intro i slot hslot hlived
    rw [hget] at hslot
    obtain ⟨old,hold,rfl⟩ := Option.map_eq_some_iff.1 hslot
    rw [hindex]
    exact h.live_lt i old hold ((hlive i old hold).1 hlived)
  · intro i j x y hx hy hxc hyc hxy
    rw [hget] at hx hy
    obtain ⟨x,hxs,rfl⟩ := Option.map_eq_some_iff.1 hx
    obtain ⟨y,hys,rfl⟩ := Option.map_eq_some_iff.1 hy
    rw [hindex,hindex] at hxy
    exact h.live_inj i j x y hxs hys ((hlive i x hxs).1 hxc) ((hlive j y hys).1 hyc) hxy
  · intro p hp
    obtain ⟨i,old,hold,hlived,hpi⟩ := h.live_surj p hp
    exact ⟨i,_,(hget i).trans (congrArg _ hold),(hlive i old hold).2 hlived,(hindex i old).trans hpi⟩
  · intro values i
    rw [slotValue,slotValue,hget]
    cases slots[i]? with
    | none => rfl
    | some old =>
      change values[(change i old).paletteIndex]? = values[old.paletteIndex]?
      rw [hindex]

end

section
variable {held : ℕ → Option ℕ} {linear : ℕ} (hl : linear<blocksPerSubChunk)
include hl

lemma count_release {a : ℕ} (ha : held linear=some a) {i : ℕ} : cellCount (update held linear none) (some i) =
      cellCount held (some i) - if i=a then 1 else 0 := by
  have hcount := cellCount_update (f := held) hl none (some i)
  simp only [ha,Option.some.injEq,reduceCtorEq,if_false,eq_comm (a := a)] at hcount
  split_ifs at hcount ⊢ <;> omega

lemma count_acquire {d : ℕ} (hnone : held linear=none) {i : ℕ} : cellCount (update held linear (some d)) (some i) =
      cellCount held (some i) + if i=d then 1 else 0 := by
  have hcount := cellCount_update (f := held) hl (some d) (some i)
  simp only [hnone,Option.some.injEq,reduceCtorEq,if_false,eq_comm (a := d)] at hcount
  omega

end

/-- What a slot becomes when a cell leaves slot `a`, whose entry `removed` names if it died. -/
def releasedSlot (a : ℕ) (removed : Option ℕ) (i : ℕ) (slot : PaletteSlot) : PaletteSlot :=
  if i=a then { slot with count := slot.count-1 }
  else
    match removed with
    | none => slot
    | some index => lowerSlot index slot

section
variable {slots : List PaletteSlot} {values : List ℕ} {held : ℕ → Option ℕ}
  (h : SlotInv slots values.length held) {linear : ℕ} (hl : linear<blocksPerSubChunk)
include h hl

lemma releaseSlot_eq {a : ℕ} (ha : held linear=some a) : ∃ source : PaletteSlot, ∃ slots' : List PaletteSlot,
    slots[a]? = some source ∧ source.count≠0 ∧ source.paletteIndex<values.length ∧
    releaseSlot slots values a=some (decide (source.count=1),slots',
      if source.count=1 then values.eraseIdx source.paletteIndex else values) ∧
    ∀ i, slots'[i]? = slots[i]?.map
      (releasedSlot a (if source.count=1 then some source.paletteIndex else none) i) := by
  obtain ⟨source,hsource,hlive⟩ := h.held_live hl ha
  have hindex := h.live_lt a source hsource hlive
  have hset : ∀ i, (slots.set a { source with count := source.count-1 })[i]? =
      slots[i]?.map (releasedSlot a none i) := by
    intro i
    rw [List.getElem?_set]
    by_cases hi : i=a
    · subst hi
      rw [if_pos rfl,if_pos (List.getElem?_eq_some_iff.1 hsource).1,hsource]
      simp [releasedSlot]
    · rw [if_neg (Ne.symm hi)]
      cases slots[i]? with
      | none => rfl
      | some slot => simp [releasedSlot,hi]
  refine ⟨source,?_⟩
  by_cases hone : source.count=1
  · have hlen : (values.eraseIdx source.paletteIndex).length=values.length-1 := length_eraseIdx_of_lt hindex
    refine ⟨if source.paletteIndex < (values.eraseIdx source.paletteIndex).length then
        (slots.set a { source with count := source.count-1 }).map (lowerSlot source.paletteIndex)
      else slots.set a { source with count := source.count-1 },
      hsource,hlive,hindex,?_,fun i=>?_⟩
    · simp only [releaseSlot,removeEntry,hsource,hone,if_pos hindex,Option.bind_eq_bind, Option.bind_some,guard]
      rfl
    · split_ifs with hlast
      · rw [List.getElem?_map,hset i]
        cases hi : slots[i]? with
        | none => rfl
        | some slot =>
          by_cases hia : i=a
          · subst hia
            rw [hsource] at hi
            cases hi
            simp [releasedSlot,lowerSlot,hone]
          · simp [releasedSlot,hia]
      · -- The removed entry was the last one, so no slot is above it.
        refine (hset i).trans ?_
        cases hi : slots[i]? with
        | none => rfl
        | some slot =>
          have hnot : ¬ (slot.count≠0 ∧ slot.paletteIndex > source.paletteIndex) := by
            rintro ⟨hcount,hgt⟩
            have hlt := h.live_lt i slot hi hcount
            omega
          simp only [Option.map_some,releasedSlot,lowerSlot,if_neg hnot]
  · rw [if_neg hone,if_neg hone]
    refine ⟨_,hsource,hlive,hindex,?_,hset⟩
    have hpos : source.count-1≠0 := by omega
    simp only [releaseSlot,hsource,Option.bind_eq_bind,Option.bind_some,if_neg hpos,
      decide_eq_false hone,guard,if_pos hlive]
    rfl

end

lemma releasedSlot_count {a i : ℕ} {removed : Option ℕ} {slot : PaletteSlot} :
    (releasedSlot a removed i slot).count=slot.count - if i=a then 1 else 0 := by
  unfold releasedSlot
  split_ifs with hi
  · rfl
  · cases removed with
    | none => rfl
    | some index =>
      dsimp only [lowerSlot]
      split_ifs <;> rfl

section
variable {slots slots' : List PaletteSlot} {size : ℕ} {held : ℕ → Option ℕ}
  (h : SlotInv slots size held) {linear : ℕ} (hl : linear<blocksPerSubChunk) {a : ℕ}
  (ha : held linear=some a)
include h hl ha

lemma SlotInv.released_count {removed : Option ℕ}
    (hget : ∀ i, slots'[i]? = slots[i]?.map (releasedSlot a removed i)) (i : ℕ)
    (slot : PaletteSlot) (hslot : slots'[i]? = some slot) :
    slot.count=cellCount (update held linear none) (some i) := by
  rw [hget] at hslot
  obtain ⟨old,hold,rfl⟩ := Option.map_eq_some_iff.1 hslot
  rw [releasedSlot_count,count_release hl ha,h.count i old hold]

omit hl ha in
lemma SlotInv.released_held_lt (linear : ℕ) {removed : Option ℕ}
    (hget : ∀ i, slots'[i]? = slots[i]?.map (releasedSlot a removed i)) :
    slots'.length=slots.length ∧ ∀ cell<blocksPerSubChunk, ∀ i,
      update held linear none cell=some i → i < slots'.length := by
  have hlen : slots'.length=slots.length := by
    refine le_antisymm (Nat.le_of_not_lt fun hlt=>?_) (Nat.le_of_not_lt fun hlt=>?_)
    · have hnone := hget slots.length
      rw [List.getElem?_eq_getElem hlt,List.getElem?_eq_none le_rfl] at hnone
      cases hnone
    · have hnone := hget slots'.length
      rw [List.getElem?_eq_getElem hlt,List.getElem?_eq_none le_rfl] at hnone
      cases hnone
  refine ⟨hlen,fun cell hcell i hi=>hlen ▸ ?_⟩
  by_cases hc : cell=linear
  · rw [hc,update_self] at hi
    cases hi
  · rw [update_of_ne hc] at hi
    exact h.held_lt cell hcell i hi

lemma SlotInv.release_kept {source : PaletteSlot} (hsource : slots[a]? = some source)
    (hone : source.count≠1) (hget : ∀ i, slots'[i]? = slots[i]?.map (releasedSlot a none i)) :
    SlotInv slots' size (update held linear none) ∧ (∀ i, slotEntry slots' i=slotEntry slots i) ∧
      ∀ (values : List ℕ) i, slotValue slots' values i=slotValue slots values i := by
  have hindex : ∀ i (slot : PaletteSlot), (releasedSlot a none i slot).paletteIndex=slot.paletteIndex := by
    intro i slot
    unfold releasedSlot
    split_ifs <;> rfl
  have hlive : ∀ i (old : PaletteSlot), slots[i]? = some old → ((releasedSlot a none i old).count≠0 ↔ old.count≠0) := by
    intro i old hold
    rw [releasedSlot_count]
    split_ifs with hi
    · subst hi
      rw [hsource] at hold
      cases hold
      omega
    · rfl
  obtain ⟨hlen,hheld⟩ := h.released_held_lt linear hget
  exact h.recounted hget hindex hlive hlen hheld (h.released_count hl ha hget)

/-- A dead slot's palette entry goes, and the entries above it move down. -/
lemma SlotInv.release_removed {source : PaletteSlot} (hsource : slots[a]? = some source) (hone : source.count=1)
    (hget : ∀ i, slots'[i]? = slots[i]?.map (releasedSlot a (some source.paletteIndex) i)) :
    SlotInv slots' (size-1) (update held linear none) ∧
      ∀ (values : List ℕ) i (slot : PaletteSlot), slots'[i]? = some slot → slot.count≠0 →
        slotValue slots' (values.eraseIdx source.paletteIndex) i=slotValue slots values i := by
  have hsrc := h.live_lt a source hsource (by omega)
  -- A slot still live is another one, so its entry is another one.
  have hlive : ∀ i (old : PaletteSlot), slots[i]? = some old →
      (releasedSlot a (some source.paletteIndex) i old).count≠0 →
      i≠a ∧ old.count≠0 ∧ old.paletteIndex≠source.paletteIndex ∧
        (releasedSlot a (some source.paletteIndex) i old).paletteIndex =
          if source.paletteIndex<old.paletteIndex then old.paletteIndex-1
          else old.paletteIndex := by
    intro i old hold hcount
    rw [releasedSlot_count] at hcount
    have hia : i≠a := by
      rintro rfl
      rw [hsource] at hold
      cases hold
      rw [if_pos rfl,hone] at hcount
      exact hcount rfl
    rw [if_neg hia,Nat.sub_zero] at hcount
    refine ⟨hia,hcount,fun he=>hia ?_,?_⟩
    · exact h.live_inj i a old source hold hsource hcount (by omega) he
    · simp only [releasedSlot,if_neg hia,lowerSlot,hcount,ne_eq,not_false_eq_true,true_and, gt_iff_lt]
      split_ifs <;> rfl
  obtain ⟨hlen,hheld⟩ := h.released_held_lt linear hget
  refine ⟨⟨hlen ▸ h.length_le,hheld,h.released_count hl ha hget,?_,?_,?_⟩,?_⟩
  · intro i slot hslot hcount
    rw [hget] at hslot
    obtain ⟨old,hold,rfl⟩ := Option.map_eq_some_iff.1 hslot
    obtain ⟨-,hold_live,hne,hindex⟩ := hlive i old hold hcount
    have hlt := h.live_lt i old hold hold_live
    rw [hindex]
    split_ifs <;> omega
  · intro i j x y hx hy hxc hyc hxy
    rw [hget] at hx hy
    obtain ⟨x,hxs,rfl⟩ := Option.map_eq_some_iff.1 hx
    obtain ⟨y,hys,rfl⟩ := Option.map_eq_some_iff.1 hy
    obtain ⟨-,hx_live,hxne,hxi⟩ := hlive i x hxs hxc
    obtain ⟨-,hy_live,hyne,hyi⟩ := hlive j y hys hyc
    rw [hxi,hyi] at hxy
    refine h.live_inj i j x y hxs hys hx_live hy_live ?_
    split_ifs at hxy <;> omega
  · intro p hp
    obtain ⟨i,old,hold,hcount,hpi⟩ := h.live_surj (if source.paletteIndex≤p then p+1 else p) (by split_ifs <;> omega)
    have hia : i≠a := by
      rintro rfl
      rw [hsource] at hold
      cases hold
      split_ifs at hpi <;> omega
    have hcount' : (releasedSlot a (some source.paletteIndex) i old).count≠0 := by
      rw [releasedSlot_count,if_neg hia]
      exact hcount
    refine ⟨i,_,(hget i).trans (congrArg _ hold),hcount',?_⟩
    rw [(hlive i old hold hcount').2.2.2,hpi]
    split_ifs <;> omega
  · intro values i slot hslot hcount
    rw [slotValue,slotValue,hslot]
    rw [hget] at hslot
    obtain ⟨old,hold,rfl⟩ := Option.map_eq_some_iff.1 hslot
    obtain ⟨-,-,hne,hindex⟩ := hlive i old hold hcount
    rw [hold]
    change (values.eraseIdx source.paletteIndex)[
      (releasedSlot a (some source.paletteIndex) i old).paletteIndex]? = values[old.paletteIndex]?
    rw [hindex,List.getElem?_eraseIdx]
    split_ifs
    · omega
    · congr 1
      omega
    · rfl
    · omega

end

section
variable {slots : List PaletteSlot} {size : ℕ} {held : ℕ → Option ℕ}
  (h : SlotInv slots size held) {linear : ℕ} (hl : linear<blocksPerSubChunk)
  (hnone : held linear=none)
include h hl hnone

lemma SlotInv.acquire_live {d : ℕ} {target : PaletteSlot} (htarget : slots[d]? = some target)
    (hcount : target.count≠0) :
    SlotInv (slots.set d { target with count := target.count+1 }) size (update held linear (some d)) ∧
      (∀ i, slotEntry (slots.set d { target with count := target.count+1 }) i=slotEntry slots i) ∧
      ∀ (values : List ℕ) i, slotValue (slots.set d { target with count := target.count+1 }) values i =
          slotValue slots values i := by
  have hd := (List.getElem?_eq_some_iff.1 htarget).1
  let joined := fun i (slot : PaletteSlot) =>
    if i=d then { slot with count := slot.count+1 } else slot
  have hget : ∀ i, (slots.set d { target with count := target.count+1 })[i]? = slots[i]?.map (joined i) := by
    intro i
    rw [List.getElem?_set]
    by_cases hi : i=d
    · subst hi
      rw [if_pos rfl,if_pos hd,htarget]
      simp [joined]
    · rw [if_neg (Ne.symm hi)]
      cases slots[i]? with
      | none => rfl
      | some slot => simp [joined,hi]
  have hindex : ∀ i (slot : PaletteSlot), (joined i slot).paletteIndex=slot.paletteIndex := by
    intro i slot
    dsimp only [joined]
    split_ifs <;> rfl
  have hlive : ∀ i (old : PaletteSlot), slots[i]? = some old → ((joined i old).count≠0 ↔ old.count≠0) := by
    intro i old hold
    dsimp only [joined]
    split_ifs with hi
    · subst hi
      rw [htarget] at hold
      cases hold
      simp [hcount]
    · rfl
  refine h.recounted hget hindex hlive (length_set ..) (fun cell hcell i hi=>?_) fun i slot hslot=>?_
  · rw [length_set]
    by_cases hc : cell=linear
    · rw [hc,update_self] at hi
      cases hi
      exact hd
    · rw [update_of_ne hc] at hi
      exact h.held_lt cell hcell i hi
  · rw [hget] at hslot
    obtain ⟨old,hold,rfl⟩ := Option.map_eq_some_iff.1 hslot
    rw [count_acquire hl hnone,← h.count i old hold]
    dsimp only [joined]
    split_ifs <;> rfl

/-- A cell takes a slot no cell holds, for an entry after the others. -/
lemma SlotInv.acquire_new {slots' : List PaletteSlot} {d : ℕ} (hlen : slots'.length≤blocksPerSubChunk)
    (hdead : ∀ slot : PaletteSlot, slots[d]? = some slot → slot.count=0)
    (hget : ∀ i, slots'[i]? = if i=d then some ⟨size,1⟩ else slots[i]?) :
    SlotInv slots' (size+1) (update held linear (some d)) := by
  have hother : ∀ (i : ℕ) (slot : PaletteSlot), slots[i]? = some slot → slot.count≠0 → slots'[i]? = some slot := by
    intro i slot hslot hcount
    rw [hget,if_neg]
    · exact hslot
    · rintro rfl
      exact hcount (hdead slot hslot)
  have hlt : ∀ (i : ℕ) (slot : PaletteSlot), slots'[i]? = some slot → i < slots'.length :=
    fun i slot hslot=>(List.getElem?_eq_some_iff.1 hslot).1
  refine ⟨hlen,?_,?_,?_,?_,?_⟩
  · intro cell hcell i hi
    by_cases hc : cell=linear
    · rw [hc,update_self] at hi
      cases hi
      exact hlt d ⟨size,1⟩ ((hget d).trans (if_pos rfl))
    · rw [update_of_ne hc] at hi
      obtain ⟨slot,hslot,hcount⟩ := h.held_live hcell hi
      exact hlt i slot (hother i slot hslot hcount)
  · intro i slot hslot
    rw [count_acquire hl hnone]
    rw [hget] at hslot
    split_ifs at hslot ⊢ with hi
    · cases hslot
      -- No cell held the slot before.
      suffices hzero : cellCount held (some i) = 0 by rw [hzero]
      by_contra hne
      obtain ⟨cell,hcell,hheld⟩ := cellCount_pos.1 hne
      obtain ⟨slot,hslot,hcount⟩ := h.held_live hcell hheld
      exact hcount (hdead slot (hi ▸ hslot))
    · exact h.count i slot hslot
  · intro i slot hslot hcount
    rw [hget] at hslot
    split_ifs at hslot with hi
    · cases hslot
      exact Nat.lt_succ_self size
    · exact (h.live_lt i slot hslot hcount).trans (Nat.lt_succ_self size)
  · intro i j x y hx hy hxc hyc hxy
    rw [hget] at hx hy
    split_ifs at hx hy with hi hj hj
    · exact hi.trans hj.symm
    · cases hx
      exact absurd (h.live_lt j y hy hyc) (by rw [← hxy]; exact lt_irrefl size)
    · cases hy
      exact absurd (h.live_lt i x hx hxc) (by rw [hxy]; exact lt_irrefl size)
    · exact h.live_inj i j x y hx hy hxc hyc hxy
  · intro p hp
    rcases Nat.lt_succ_iff_lt_or_eq.1 hp with hp | rfl
    · obtain ⟨i,slot,hslot,hcount,hpi⟩ := h.live_surj p hp
      exact ⟨i,slot,hother i slot hslot hcount,hcount,hpi⟩
    · exact ⟨d,⟨p,1⟩,(hget d).trans (if_pos rfl),one_ne_zero,rfl⟩

/-- Allocation never runs out, and its slot is dead or new. -/
lemma SlotInv.allocate_eq : ∃ d, ∃ slots' : List PaletteSlot, PaletteEdits.allocate slots size=some (d,slots') ∧
    slots.length ≤ slots'.length ∧ slots'.length≤blocksPerSubChunk ∧
    (∀ slot : PaletteSlot, slots[d]? = some slot → slot.count=0) ∧
    ∀ i, slots'[i]? = if i=d then some ⟨size,0⟩ else slots[i]? := by
  have hsize : asU16 size=size := Nat.mod_eq_of_lt (h.size_le.trans_lt (by norm_num [blocksPerSubChunk]))
  rw [PaletteEdits.allocate,hsize]
  cases hfind : slots.findIdx? fun slot=>slot.count == 0 with
  | some d =>
    obtain ⟨hd,hcount,-⟩ := List.findIdx?_eq_some_iff_getElem.1 hfind
    rw [beq_iff_eq] at hcount
    refine ⟨d,_,rfl,length_set.ge,length_set.trans_le h.length_le, fun slot hslot=>?_,fun i=>?_⟩
    · rw [List.getElem?_eq_getElem hd] at hslot
      cases hslot
      exact hcount
    · rw [List.getElem?_set]
      by_cases hi : i=d
      · rw [if_pos hi.symm,if_pos hi,if_pos hd]
      · rw [if_neg (Ne.symm hi),if_neg hi]
  | none =>
    have hlive : ∀ (i : ℕ) (slot : PaletteSlot), slots[i]? = some slot → slot.count≠0 := by
      intro i slot hslot
      have hne := List.findIdx?_eq_none_iff.1 hfind slot (List.mem_of_getElem? hslot)
      simpa using hne
    have hlt := h.length_lt hl hnone hlive
    rw [if_pos hlt]
    refine ⟨slots.length,_,rfl,?_,?_,fun slot hslot=>?_,fun i=>?_⟩
    · rw [length_append]
      exact Nat.le_add_right _ _
    · rw [length_append]
      exact hlt
    · rw [List.getElem?_eq_none le_rfl] at hslot
      cases hslot
    · rw [List.getElem?_append]
      by_cases hi : i=slots.length
      · subst hi
        simp
      · split_ifs with hlt
        · rfl
        · rw [List.getElem?_eq_none (by simp; omega),List.getElem?_eq_none (by omega)]

end

section
variable {slots : List PaletteSlot} {values : List ℕ} {held : ℕ → Option ℕ}
  (h : SlotInv slots values.length held) {linear : ℕ} (hl : linear<blocksPerSubChunk)
  (hnone : held linear=none)
include h hl hnone

lemma acquireSlot_live {d : ℕ} {target : PaletteSlot} (htarget : slots[d]? = some target)
    (hcount : target.count≠0) (runtimeId : ℕ) : ∃ slots' : List PaletteSlot,
    acquireSlot slots values (some d) runtimeId=some (d,slots',values) ∧
    slots'.length=slots.length ∧
    SlotInv slots' values.length (update held linear (some d)) ∧
    (∀ i, slotEntry slots' i=slotEntry slots i) ∧
    ∀ i, slotValue slots' values i=slotValue slots values i := by
  obtain ⟨hinv,hentry,hvalue⟩ := h.acquire_live hl hnone htarget hcount
  refine ⟨_,?_,length_set,hinv,hentry,hvalue values⟩
  simp only [acquireSlot,Option.isNone_some,Bool.false_eq_true,if_false,Option.bind_eq_bind, Option.bind_some,htarget]
  rfl

lemma acquireSlot_new (runtimeId : ℕ) : ∃ d, ∃ slots' : List PaletteSlot,
    acquireSlot slots values none runtimeId=some (d,slots',values ++ [runtimeId]) ∧
    slots.length ≤ slots'.length ∧
    SlotInv slots' (values ++ [runtimeId]).length (update held linear (some d)) ∧
    slotValue slots' (values ++ [runtimeId]) d=some runtimeId ∧
    ∀ (i : ℕ) (slot : PaletteSlot), slots[i]? = some slot → slot.count≠0 →
      slotValue slots' (values ++ [runtimeId]) i=slotValue slots values i := by
  obtain ⟨d,slots',halloc,hge,hlen,hdead,hget⟩ := h.allocate_eq hl hnone
  have hd : d < slots'.length := by
    refine (List.getElem?_eq_some_iff.1 ((hget d).trans (if_pos rfl))).1
  have hget' : ∀ i, (slots'.set d ⟨values.length,1⟩)[i]? = if i=d then some ⟨values.length,1⟩ else slots[i]? := by
    intro i
    rw [List.getElem?_set,hget]
    by_cases hi : i=d
    · rw [if_pos hi.symm,if_pos hi,if_pos hd]
    · rw [if_neg (Ne.symm hi),if_neg hi,if_neg hi]
  refine ⟨d,slots'.set d ⟨values.length,1⟩,?_,length_set.ge.trans' hge,?_,?_, fun i slot hslot hcount=>?_⟩
  · simp only [acquireSlot,Option.isNone_none,if_true,length_append,length_singleton,
      Nat.add_sub_cancel,halloc,Option.bind_eq_bind,Option.bind_some,hget d]
    rfl
  · rw [length_append]
    exact h.acquire_new hl hnone (by rwa [length_set]) hdead hget'
  · rw [slotValue,hget' d,if_pos rfl]
    simp
  · have hi : i≠d := by
      rintro rfl
      exact hcount (hdead slot hslot)
    rw [slotValue,slotValue,hget' i,if_neg hi,hslot]
    change (values ++ [runtimeId])[slot.paletteIndex]? = values[slot.paletteIndex]?
    rw [List.getElem?_append_left (h.live_lt i slot hslot hcount)]

end

end Cinnabar.World
