import Cinnabar.Culling.Slots
import Cinnabar.Library.Ensures

/-! # The grid's operations as edits of a map -/

namespace Cinnabar.Culling

open List

namespace ChangeJournal

variable {journal : ChangeJournal} (change : GraphChange)

lemma finish_record : (journal.record change).finish=journal.finish+1 := by
  unfold record finish maxChanges
  split_ifs with h <;> simp <;> omega

lemma start_le_record : journal.start ≤ (journal.record change).start := by
  unfold record
  split_ifs
  · exact Nat.le_succ _
  · exact le_refl _

/-- A reader still in the journal finds the new entry at the end. -/
lemma drop_record {offset : ℕ} (hstart : (journal.record change).start≤offset) (hfinish : offset≤journal.finish) :
    (journal.record change).changes.drop (offset - (journal.record change).start) =
      journal.changes.drop (offset-journal.start) ++ [change] := by
  unfold finish at hfinish
  unfold record at hstart ⊢
  split_ifs at hstart ⊢ with h
  · dsimp only at hstart ⊢
    have hlen : offset - (journal.start+1) ≤ (journal.changes.drop 1).length := by
      rw [length_drop]
      omega
    rw [drop_append_of_le_length hlen,drop_drop]
    congr 2
    omega
  · dsimp only at hstart ⊢
    rw [drop_append_of_le_length (by omega)]

end ChangeJournal

namespace ConnectivityGrid

def slots (grid : ConnectivityGrid) : Slots := ⟨grid.index,grid.cells,grid.overflow⟩

/-- What holds between operations, and while they are under way. -/
structure Partial (grid : ConnectivityGrid) : Prop where
  ok : grid.slots.Ok
  homes : ∀ entry, entry ∈ grid.overflowHomes ↔
    (grid.overflow.lookup (ofLex entry).2).isSome ∧ (ofLex entry).1=grid.index (ofLex entry).2
  /-- An unallocated grid is empty. -/
  fresh : grid.allocated=false → (∀ index, grid.cells index=none) ∧ grid.overflow = ∅
  /-- Every epoch had a larger layout than the one before. -/
  epoch : grid.epoch≤2*grid.xzBits+grid.yBits
  unallocated : grid.allocated=false → grid.epoch=0
  budget : 2*grid.xzBits+grid.yBits ≤ maxCellBits
  reserved : 2*grid.reserved.1+grid.reserved.2 ≤ maxCellBits ∧ initialXzBits≤grid.reserved.1
  identity : grid.identity≠0

/-- The occupied homes of overflow keys make an empty cell a definite miss. -/
structure Sound (grid : ConnectivityGrid) : Prop extends grid.Partial where
  crowded : ∀ key, (grid.overflow.lookup key).isSome → (grid.cells (grid.index key)).isSome

lemma sound_new (number : ℕ) : (new number).Sound where
  ok := ⟨fun h=>(nomatch h),fun _=>rfl⟩
  homes := fun entry=>by simp [new]
  fresh := fun _=>⟨fun _=>rfl,rfl⟩
  epoch := Nat.zero_le _
  unallocated := fun _=>rfl
  budget := Nat.zero_le _
  reserved := by
    simp only [new]
    decide
  identity := Nat.succ_ne_zero number
  crowded := fun key h=>by simp [new] at h

variable {grid grid' grid'' : ConnectivityGrid}

/-- A lookup finds what the slots hold. -/
lemma Sound.get_eq (h : grid.Sound) (key : SectionKey) : grid.get key=grid.slots.get key := by
  unfold get slot
  by_cases halloc : grid.allocated=true
  · simp only [halloc,Bool.not_true,Bool.false_eq_true,if_false]
    cases hcell : grid.cells (grid.index key) with
    | none =>
      rw [Slots.get_none (s := grid.slots) hcell]
      change _=grid.overflow.lookup key
      cases hover : grid.overflow.lookup key with
      | none => rfl
      | some value =>
        have := h.crowded key (by rw [hover]; rfl)
        rw [hcell] at this
        cases this
    | some cell =>
      rw [Slots.get_some (s := grid.slots) hcell]
      change _ = if cell.key=key then some cell.value else grid.overflow.lookup key
      dsimp only
      split_ifs
      · rfl
      · cases grid.overflow.lookup key <;> rfl
  · obtain ⟨hcells,hover⟩ := h.fresh (by simpa using halloc)
    rw [Slots.get_none (s := grid.slots) (hcells _)]
    change _=grid.overflow.lookup key
    simp [halloc,hover]

lemma Sound.containsKey_iff (h : grid.Sound) (key : SectionKey) :
    grid.containsKey key=true ↔ (grid.slots.get key).isSome := by
  rw [← h.get_eq]
  unfold containsKey get
  cases grid.slot key <;> simp

/-- The operation journaled what it did to the slots. -/
structure Journaled (grid grid' : ConnectivityGrid) : Prop where
  identity : grid'.identity=grid.identity
  epoch : grid'.epoch=grid.epoch
  xzBits : grid'.xzBits=grid.xzBits
  yBits : grid'.yBits=grid.yBits
  allocated : grid'.allocated=grid.allocated
  idle : grid.allocated=false → grid'.journal=grid.journal
  replays : ∃ changes, grid'.journal=changes.foldl ChangeJournal.record grid.journal ∧
    Replays changes grid.slots grid'.slots

namespace Journaled

lemma refl (grid : ConnectivityGrid) : Journaled grid grid :=
  ⟨rfl,rfl,rfl,rfl,rfl,fun _=>rfl,[],rfl,.nil _⟩

lemma trans (h : Journaled grid grid') (h' : Journaled grid' grid'') :
    Journaled grid grid'' := by
  obtain ⟨changes,hj,hr⟩ := h.replays
  obtain ⟨changes',hj',hr'⟩ := h'.replays
  refine ⟨h'.identity.trans h.identity,h'.epoch.trans h.epoch,h'.xzBits.trans h.xzBits,
    h'.yBits.trans h.yBits,h'.allocated.trans h.allocated,fun halloc=>?_,
    changes++changes',?_,hr.append hr'⟩
  · exact (h'.idle (h.allocated.trans halloc)).trans (h.idle halloc)
  · rw [hj',hj,foldl_append]

lemma index_eq (h : Journaled grid grid') : grid'.index=grid.index := by
  unfold index
  rw [h.xzBits,h.yBits]

end Journaled

structure Edits (grid grid' : ConnectivityGrid) (map : Graph) : Prop where
  sound : grid'.Sound
  get : ∀ key, grid'.slots.get key=map key
  identity : grid'.identity=grid.identity
  recorded : Journaled grid grid' ∨ grid.epoch<grid'.epoch

lemma slots_place (h : grid.Sound) (key : SectionKey) (value : FaceConnectivity) :
    (grid.place key value).2.slots=grid.slots.put key value ∧
      (grid.place key value).1=grid.slots.get key := by
  unfold place
  dsimp only
  cases hcell : grid.cells (grid.index key) with
  | none =>
    have hover : grid.overflow.lookup key=none := by
      cases hover : grid.overflow.lookup key with
      | none => rfl
      | some v =>
        have := h.crowded key (by rw [hover]; rfl)
        rw [hcell] at this
        cases this
    have hslots : grid.slots.overflow.lookup key=none := hover
    rw [Slots.put_none (s := grid.slots) value hcell,Slots.get_none (s := grid.slots) hcell,hslots]
    exact ⟨rfl,rfl⟩
  | some cell =>
    rw [Slots.put_some (s := grid.slots) value hcell,Slots.get_some (s := grid.slots) hcell]
    change _ = (if (grid.overflow.lookup key).isSome then _ else _) ∧
      _ = if cell.key=key then some cell.value else grid.overflow.lookup key
    by_cases hk : cell.key=key
    · have hin : grid.slots.InCell key := ⟨cell.value,by rw [← hk]; rw [← hk] at hcell; exact hcell⟩
      have hover : grid.overflow.lookup key=none := h.ok.apart hin
      simp only [hk,if_true,hover,Option.isSome_none,Bool.false_eq_true,if_false]
      exact ⟨rfl,trivial⟩
    · simp only [hk,if_false,and_true]
      split_ifs <;> rfl

/-- The parts of a grid that its slots do not decide. -/
def SameLayout (grid grid' : ConnectivityGrid) : Prop :=
  grid'.xzBits=grid.xzBits ∧ grid'.yBits=grid.yBits ∧ grid'.allocated=grid.allocated ∧
    grid'.reserved=grid.reserved ∧ grid'.identity=grid.identity ∧ grid'.epoch=grid.epoch

lemma SameLayout.trans (h : SameLayout grid grid') (h' : SameLayout grid' grid'') :
    SameLayout grid grid'' := by
  unfold SameLayout at *
  simp [h,h']

lemma SameLayout.index_eq (h : SameLayout grid grid') : grid'.index=grid.index := by
  unfold index
  rw [h.1,h.2.1]

lemma Partial.of_slots (h : grid.Partial) (hsame : SameLayout grid grid')
    (hok : grid'.slots.Ok) (halloc : grid.allocated=true)
    (hhomes : ∀ entry, entry ∈ grid'.overflowHomes ↔ (grid'.overflow.lookup (ofLex entry).2).isSome ∧
        (ofLex entry).1=grid.index (ofLex entry).2) : grid'.Partial := by
  have hindex := hsame.index_eq
  obtain ⟨hx,hy,ha,hr,hi,he⟩ := hsame
  refine ⟨hok,?_,?_,?_,?_,?_,?_,?_⟩
  · rw [hindex]
    exact hhomes
  · rw [ha,halloc]
    exact fun h=>nomatch h
  · rw [he,hx,hy]
    exact h.epoch
  · rw [ha,halloc]
    exact fun h=>nomatch h
  · rw [hx,hy]
    exact h.budget
  · rw [hr]
    exact h.reserved
  · rw [hi]
    exact h.identity

section

variable (h : grid.Sound)
include h

lemma Sound.setCell_some (halloc : grid.allocated=true) {index : ℕ}
    {cell : Cell} (hok : (grid.setCell index (some cell)).slots.Ok) :
    (grid.setCell index (some cell)).Sound where
  toPartial := @Partial.of_slots grid (grid.setCell index (some cell)) h.toPartial
    ⟨rfl,rfl,rfl,rfl,rfl,rfl⟩ hok halloc h.homes
  crowded := by
    intro key hkey
    change (Function.update grid.cells index _ (grid.index key)).isSome
    rw [Function.update_apply]
    split_ifs
    · rfl
    · exact h.crowded key hkey

lemma Sound.insertOverflow (halloc : grid.allocated=true) {key : SectionKey}
    {value : FaceConnectivity} (hok : (grid.insertOverflow key value).slots.Ok)
    (hcell : (grid.cells (grid.index key)).isSome) : (grid.insertOverflow key value).Sound where
  toPartial := by
    refine h.toPartial.of_slots ⟨rfl,rfl,rfl,rfl,rfl,rfl⟩ hok halloc fun entry=>?_
    have hlook : (((grid.insertOverflow key value).overflow.lookup (ofLex entry).2).isSome) ↔
        (ofLex entry).2=key ∨ (grid.overflow.lookup (ofLex entry).2).isSome := by
      change ((grid.overflow.insert key value).lookup (ofLex entry).2).isSome ↔ _
      by_cases hk : (ofLex entry).2=key
      · rw [hk,Finmap.lookup_insert]
        simp
      · simp [hk]
    rw [hlook]
    have hentry : entry=toLex (grid.index key,key) ↔
        (ofLex entry).2=key ∧ (ofLex entry).1=grid.index (ofLex entry).2 := by
      constructor
      · rintro rfl
        exact ⟨rfl,rfl⟩
      · rintro ⟨hk,hi⟩
        rw [← hk,← hi]
        rfl
    by_cases hnew : (grid.overflow.lookup key).isNone
    · have hhomes : (grid.insertOverflow key value).overflowHomes =
          Insert.insert (toLex (grid.index key,key)) grid.overflowHomes := if_pos hnew
      rw [hhomes,Finset.mem_insert,h.homes,hentry]
      tauto
    · have hhomes : (grid.insertOverflow key value).overflowHomes=grid.overflowHomes := if_neg hnew
      have hold : (grid.overflow.lookup key).isSome := by
        cases hl : grid.overflow.lookup key with
        | none => simp [hl] at hnew
        | some v => rfl
      rw [hhomes,h.homes]
      refine and_congr_left fun _=>⟨.inr,?_⟩
      rintro (hk | hsome)
      · rw [hk]
        exact hold
      · exact hsome
  crowded := by
    intro other hother
    by_cases hk : other=key
    · subst hk
      exact hcell
    · refine h.crowded other ?_
      change ((grid.overflow.insert key value).lookup other).isSome at hother
      rwa [Finmap.lookup_insert_of_ne _ hk] at hother

lemma Sound.place (key : SectionKey) (value : FaceConnectivity) (halloc : grid.allocated=true) :
    (grid.place key value).2.Sound ∧ SameLayout grid (grid.place key value).2 ∧
      (grid.place key value).2.journal=grid.journal := by
  obtain ⟨hslots,-⟩ := slots_place h key value
  have hok := (h.ok.put key value).1
  rw [← hslots] at hok
  unfold ConnectivityGrid.place at hok ⊢
  dsimp only at hok ⊢
  cases hcell : grid.cells (grid.index key) with
  | none =>
    rw [hcell] at hok
    exact ⟨h.setCell_some halloc hok,⟨rfl,rfl,rfl,rfl,rfl,rfl⟩,rfl⟩
  | some cell =>
    rw [hcell] at hok
    dsimp only at hok ⊢
    split_ifs at hok ⊢ with hk
    · exact ⟨h.setCell_some halloc hok,⟨rfl,rfl,rfl,rfl,rfl,rfl⟩,rfl⟩
    · exact ⟨h.insertOverflow halloc hok (by rw [hcell]; rfl),⟨rfl,rfl,rfl,rfl,rfl,rfl⟩,rfl⟩

/-- A larger layout starts a new epoch with no slot taken. -/
lemma Sound.reset {xzBits yBits : ℕ} (hgrow : grid.epoch<2*xzBits+yBits) (hbudget : 2*xzBits+yBits ≤ maxCellBits) :
    (grid.reset xzBits yBits).Sound ∧ grid.epoch < (grid.reset xzBits yBits).epoch ∧
      ∀ key, (grid.reset xzBits yBits).slots.get key=none := by
  have hepoch : (grid.reset xzBits yBits).epoch=grid.epoch+1 := by
    refine Nat.mod_eq_of_lt ?_
    simp only [maxCellBits] at hbudget
    omega
  refine ⟨⟨⟨⟨fun h=>(nomatch h),fun _=>rfl⟩,fun entry=>?_,fun h=>(nomatch h),?_,
    fun h=>(nomatch h),hbudget,h.reserved,h.identity⟩,fun key hkey=>?_⟩,?_,
    fun key=>rfl⟩
  · simp [ConnectivityGrid.reset]
  · rw [hepoch]
    exact hgrow
  · simp [ConnectivityGrid.reset] at hkey
  · rw [hepoch]
    exact Nat.lt_succ_self _

lemma Sound.placeAll (halloc : grid.allocated=true) {map : Graph} (entries : List (SectionKey × FaceConnectivity))
    (hmap : ∀ entry ∈ entries, map entry.1=some entry.2) :
    let placed := entries.foldl (fun grid entry=>(grid.place entry.1 entry.2).2) grid
    placed.Sound ∧ SameLayout grid placed ∧ placed.journal=grid.journal ∧ ∀ key, placed.slots.get key =
        if key ∈ entries.map Prod.fst then map key else grid.slots.get key := by
  induction entries generalizing grid with
  | nil => exact ⟨h,⟨rfl,rfl,rfl,rfl,rfl,rfl⟩,rfl,fun key=>rfl⟩
  | cons entry rest ih =>
    obtain ⟨hsound,hsame,hjournal⟩ := h.place entry.1 entry.2 halloc
    obtain ⟨hsound',hsame',hjournal',hget⟩ := ih hsound (hsame.2.2.1.trans halloc) fun e he=>hmap e (.tail _ he)
    refine ⟨hsound',hsame.trans hsame',hjournal'.trans hjournal,fun key=>?_⟩
    rw [foldl_cons,hget,(slots_place h entry.1 entry.2).1,(h.ok.put _ _).2]
    by_cases hrest : key ∈ rest.map Prod.fst
    · simp [hrest]
    · by_cases hk : key=entry.1
      · subst hk
        simp [hrest,hmap entry mem_cons_self]
      · simp [hrest,hk]

lemma Sound.relayout {xzBits yBits : ℕ} (order : VisitOrder)
    (hgrow : grid.epoch<2*xzBits+yBits) (hbudget : 2*xzBits+yBits ≤ maxCellBits)
    (halloc : grid.allocated=true) :
    (grid.relayout xzBits yBits order).Sound ∧ grid.epoch < (grid.relayout xzBits yBits order).epoch ∧
      (grid.relayout xzBits yBits order).identity=grid.identity ∧
      (grid.relayout xzBits yBits order).allocated=true ∧
      ∀ key, (grid.relayout xzBits yBits order).slots.get key=grid.slots.get key := by
  obtain ⟨hsound,hepoch,hempty⟩ := h.reset hgrow hbudget
  have hcells : ∀ index cell, grid.cells index=some cell → index<grid.cellCount := by
    intro index cell hcell
    have hindex : index=grid.index cell.key := (h.ok.home hcell).symm
    rw [hindex,cellCount,if_pos halloc]
    exact cellIndex_lt _ _ _
  let entries := (List.range grid.cellCount).filterMap
      (fun index=>(grid.cells index).map fun cell=>(cell.key,cell.value)) ++
    (order.list grid.overflow.keys).filterMap fun key=>(grid.overflow.lookup key).map fun value=>(key,value)
  have hmem : ∀ key value, (key,value) ∈ entries ↔ (∃ index, grid.cells index=some ⟨key,value⟩) ∨
        grid.overflow.lookup key=some value := by
    intro key value
    simp only [entries,mem_append,mem_filterMap,mem_range,Option.map_eq_some_iff, order.mem,Prod.mk.injEq]
    constructor
    · rintro (⟨index,-,cell,hcell,rfl,rfl⟩ | ⟨other,-,v,hv,rfl,rfl⟩)
      · exact .inl ⟨index,hcell⟩
      · exact .inr hv
    · rintro (⟨index,hcell⟩ | hover)
      · exact .inl ⟨index,hcells index _ hcell,_,hcell,rfl,rfl⟩
      · refine .inr ⟨key,?_,value,hover,rfl,rfl⟩
        exact Finmap.mem_keys.2 (Finmap.mem_of_lookup_eq_some hover)
  have hmap : ∀ entry ∈ entries, grid.slots.get entry.1=some entry.2 := by
    rintro ⟨key,value⟩ hentry
    rcases (hmem key value).1 hentry with ⟨index,hcell⟩ | hover
    · have hindex : grid.index key=index := h.ok.home hcell
      rw [← hindex] at hcell
      exact Slots.get_of_inCell hcell
    · exact h.ok.get_of_overflow hover
  obtain ⟨hplaced,hsame,-,hget⟩ := hsound.placeAll rfl entries hmap
  refine ⟨hplaced,?_,hsame.2.2.2.2.1,hsame.2.2.1,fun key=>?_⟩
  · have hsameEpoch : (grid.relayout xzBits yBits order).epoch = (grid.reset xzBits yBits).epoch := hsame.2.2.2.2.2
    rw [hsameEpoch]
    exact hepoch
  · have hgetEntries : (grid.relayout xzBits yBits order).slots.get key =
        if key ∈ entries.map Prod.fst then grid.slots.get key
        else (grid.reset xzBits yBits).slots.get key := hget key
    rw [hgetEntries,hempty]
    split_ifs with hkey
    · rfl
    · symm
      by_contra hsome
      apply hkey
      obtain ⟨value,hvalue⟩ := Option.ne_none_iff_exists'.1 hsome
      refine mem_map.2 ⟨(key,value),(hmem key value).2 ?_,rfl⟩
      by_cases hin : grid.slots.InCell key
      · obtain ⟨v,hv⟩ := hin
        rw [Slots.get_of_inCell hv] at hvalue
        cases hvalue
        exact .inl ⟨_,hv⟩
      · rw [Slots.get_of_not_inCell hin] at hvalue
        exact .inr hvalue

end

end ConnectivityGrid

end Cinnabar.Culling
