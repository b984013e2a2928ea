import Cinnabar.Culling.GridRun

/-! # Each operation of the grid edits its map -/

namespace Cinnabar.Culling

open List Function

namespace Slots

variable {s : Slots} {key : SectionKey}

lemma put_of_get_overflow (value : FaceConnectivity)
    (h : (s.overflow.lookup key).isSome) : s.put key value=s.insertOverflow key value :=
  if_pos h

lemma Ok.put_self (hs : s.Ok) {value : FaceConnectivity} (h : s.get key=some value) : s.put key value=s := by
  by_cases hin : s.InCell key
  · obtain ⟨v,hv⟩ := hin
    rw [get_of_inCell hv] at h
    cases h
    have hover := hs.apart ⟨value,hv⟩
    unfold Slots.put
    rw [hover,hv]
    simp only [Option.isSome_none,Bool.false_eq_true,if_false,if_true]
    unfold setCell
    rw [← hv,update_eq_self]
  · rw [get_of_not_inCell hin] at h
    rw [put_of_get_overflow value (by rw [h]; rfl)]
    unfold insertOverflow
    have hsame : s.overflow.insert key value=s.overflow := by
      refine Finmap.ext_lookup fun other=>?_
      by_cases hk : other=key
      · rw [hk,Finmap.lookup_insert,h]
      · rw [Finmap.lookup_insert_of_ne _ hk]
    rw [hsame]

/-- The last value stored is the one that stays. -/
lemma put_put (s : Slots) (key : SectionKey) (value value' : FaceConnectivity) :
    (s.put key value).put key value'=s.put key value' := by
  have hoverflow : ∀ s : Slots, (s.insertOverflow key value).put key value' =
      s.insertOverflow key value' := by
    intro s
    have hin : ((s.insertOverflow key value).overflow.lookup key).isSome := by
      change ((s.overflow.insert key value).lookup key).isSome
      rw [Finmap.lookup_insert]
      rfl
    rw [put_of_get_overflow value' hin]
    unfold insertOverflow
    rw [Finmap.insert_insert]
  have hcell : (s.overflow.lookup key).isNone → (s.setCell (s.index key) (some ⟨key,value⟩)).put key value' =
        s.setCell (s.index key) (some ⟨key,value'⟩) := by
    intro hnone
    have hout : ((s.setCell (s.index key) (some ⟨key,value⟩)).overflow.lookup key).isSome ≠
        true := by
      change (s.overflow.lookup key).isSome≠true
      rw [Option.isNone_iff_eq_none] at hnone
      rw [hnone]
      exact Bool.false_ne_true
    rw [put,if_neg hout]
    have hhas : (s.setCell (s.index key) (some ⟨key,value⟩)).cells
        ((s.setCell (s.index key) (some ⟨key,value⟩)).index key) = some ⟨key,value⟩ :=
      update_self _ _ _
    rw [hhas]
    simp only [if_true]
    unfold setCell
    rw [update_idem]
  have hnone : ¬(s.overflow.lookup key).isSome=true → (s.overflow.lookup key).isNone := by
    simp
  by_cases hover : (s.overflow.lookup key).isSome=true
  · rw [put_of_get_overflow value hover,put_of_get_overflow value' hover,hoverflow]
  · cases hcells : s.cells (s.index key) with
    | none =>
      have hput : ∀ v, s.put key v=s.setCell (s.index key) (some ⟨key,v⟩) := fun v=>by
        simp [put,hover,hcells]
      rw [hput,hput,hcell (hnone hover)]
    | some cell =>
      by_cases hk : cell.key=key
      · have hput : ∀ v, s.put key v=s.setCell (s.index key) (some ⟨key,v⟩) := fun v=>by
          simp [put,hover,hcells,hk]
        rw [hput,hput,hcell (hnone hover)]
      · have hput : ∀ v, s.put key v=s.insertOverflow key v := fun v=>by
          simp [put,hover,hcells,hk]
        rw [hput,hput,hoverflow]

lemma Ok.replays_replace (hs : s.Ok) {old : FaceConnectivity} (value : FaceConnectivity) (h : s.get key=some old) :
    Replays ((if old.connected ⊆ value.connected then [] else [.narrowed]) ++
      (if value.connected ⊆ old.connected then [] else [.opened key])) s (s.put key value) := by
  have hshared : Change .narrowed s (s.put key ⟨old.connected ∩ value.connected⟩) :=
    .narrowed ⟨old.connected ∩ value.connected⟩ h Finset.inter_subset_left
  obtain ⟨hok,hget⟩ := hs.put key ⟨old.connected ∩ value.connected⟩
  have hgain : Change (.opened key) (s.put key ⟨old.connected ∩ value.connected⟩) (s.put key value) := by
    rw [← put_put s key ⟨old.connected ∩ value.connected⟩ value]
    refine .gained value (by rw [hget,if_pos rfl]) Finset.inter_subset_right
  split_ifs with hsub hsup hsup
  · have heq : value=old := by
      exact congrArg FaceConnectivity.mk (Finset.Subset.antisymm hsup hsub)
    rw [heq,hs.put_self h]
    exact .nil s
  · exact .single (.gained value h hsub)
  · exact .single (.narrowed value h hsup)
  · exact .cons hshared (.single hgain)

lemma get_filter {s' : Slots} (keep : SectionKey → Bool) (hindex : s'.index=s.index)
    (hcells : ∀ index, s'.cells index = (s.cells index).filter fun cell=>keep cell.key)
    (hover : ∀ key, s'.overflow.lookup key = if keep key then s.overflow.lookup key else none)
    (key : SectionKey) : s'.get key = if keep key then s.get key else none := by
  by_cases hin : s.InCell key
  · obtain ⟨value,hvalue⟩ := hin
    have hfiltered : s'.cells (s'.index key) = if keep key then some ⟨key,value⟩ else none := by
      rw [hindex,hcells,hvalue,Option.filter_some]
    split_ifs with hkeep
    · rw [if_pos hkeep] at hfiltered
      rw [get_of_inCell hfiltered,get_of_inCell hvalue]
    · rw [if_neg hkeep] at hfiltered
      rw [get_of_not_inCell,hover,if_neg hkeep]
      rintro ⟨v,hv⟩
      rw [hfiltered] at hv
      cases hv
  · rw [get_of_not_inCell hin,get_of_not_inCell,hover]
    rintro ⟨v,hv⟩
    rw [hindex,hcells,Option.filter_eq_some_iff] at hv
    exact hin ⟨v,hv.1⟩

end Slots

namespace ConnectivityGrid

variable {grid grid' : ConnectivityGrid}

/-- Writing to the journal alone. -/
lemma Sound.record (h : grid.Sound) (change : GraphChange) : (grid.record change).Sound :=
  { __ := h }

lemma Sound.withLen (h : grid.Sound) (len : ℕ) : ({ grid with len := len } : ConnectivityGrid).Sound :=
  { __ := h }

def Grown (grid grid' : ConnectivityGrid) : Prop :=
  grid'=grid ∨ grid'.Sound ∧ grid.epoch<grid'.epoch ∧ grid'.identity=grid.identity ∧
    ∀ key, grid'.slots.get key=grid.slots.get key

lemma Sound.grown_relayout (h : grid.Sound) (halloc : grid.allocated=true) {xzBits yBits : ℕ}
    (order : VisitOrder) (hgrow : grid.epoch<2*xzBits+yBits)
    (hbudget : 2*xzBits+yBits ≤ maxCellBits) :
    Grown grid (grid.relayout xzBits yBits order) := by
  obtain ⟨hs,he,hi,-,hget⟩ := h.relayout order hgrow hbudget halloc
  exact .inr ⟨hs,he,hi,hget⟩

lemma Sound.grow (h : grid.Sound) (halloc : grid.allocated=true) (order : VisitOrder) :
    Grown grid (grid.grow order) := by
  have hepoch := h.epoch
  unfold ConnectivityGrid.grow
  by_cases hfull : maxCellBits≤2*grid.xzBits+grid.yBits
  · rw [if_pos hfull]
    exact .inl rfl
  · dsimp only
    split_ifs with hhorizontal hover hvertical hover
    · exact .inl rfl
    · exact h.grown_relayout halloc order (by omega) (by omega)
    · exact .inl rfl
    · exact h.grown_relayout halloc order (by omega) (by omega)
    · exact .inl rfl

lemma Sound.allocate (h : grid.Sound) :
    let start := if grid.allocated then grid else grid.reset grid.reserved.1 grid.reserved.2
    start.Sound ∧ start.allocated=true ∧ start.identity=grid.identity ∧
      (∀ key, start.slots.get key=grid.slots.get key) ∧
      (start=grid ∨ grid.epoch < start.epoch) := by
  split_ifs with halloc
  · exact ⟨h,halloc,rfl,fun _=>rfl,.inl rfl⟩
  · obtain ⟨hcells,hover⟩ := h.fresh (by simpa using halloc)
    have hzero : grid.epoch<2*grid.reserved.1+grid.reserved.2 := by
      have := h.unallocated (by simpa using halloc)
      have := h.reserved.2
      simp only [initialXzBits] at this
      omega
    obtain ⟨hs,he,hget⟩ := h.reset hzero h.reserved.1
    refine ⟨hs,rfl,rfl,fun key=>?_,.inr he⟩
    rw [Slots.get_none (s := grid.slots) (hcells _)]
    change _=grid.overflow.lookup key
    rw [hover]
    rfl

lemma Sound.insert (h : grid.Sound) (key : SectionKey) (value : FaceConnectivity) (order : VisitOrder) :
    Edits grid (grid.insert key value order).2
      fun other=>if other=key then some value else grid.slots.get other := by
  obtain ⟨hstart,halloc,hid,hget,hbegan⟩ := h.allocate
  unfold ConnectivityGrid.insert
  dsimp only at hstart halloc hid hget hbegan ⊢
  generalize (if grid.allocated then grid else grid.reset grid.reserved.1 grid.reserved.2) =
    start at hstart halloc hid hget hbegan ⊢
  obtain ⟨hplaced,hsame,hjournal⟩ := hstart.place key value halloc
  obtain ⟨hslots,hprevious⟩ := slots_place hstart key value
  have hgetPlaced : ∀ other, (start.place key value).2.slots.get other =
      if other=key then some value else grid.slots.get other := fun other=>by
    rw [hslots,(hstart.ok.put key value).2,hget]
  rw [hprevious]
  cases hold : start.slots.get key with
  | none =>
    have hcounted := hplaced.withLen ((start.place key value).2.len+1)
    have hgrown : Grown _ _ := hcounted.grow (hsame.2.2.1.trans halloc) order
    have hjoin : Change (.opened key) start.slots (start.place key value).2.slots := by
      rw [hslots]
      exact .joined value hold
    have hkept : Edits grid ((({ (start.place key value).2 with
        len := (start.place key value).2.len+1 } : ConnectivityGrid)).record (.opened key))
        fun other=>if other=key then some value else grid.slots.get other := by
      refine ⟨hcounted.record _,hgetPlaced,hsame.2.2.2.2.1.trans hid,?_⟩
      rcases hbegan with rfl | hlater
      · refine .inl ⟨hsame.2.2.2.2.1,hsame.2.2.2.2.2,hsame.1,hsame.2.1,hsame.2.2.1,
          (fun h=>nomatch halloc.symm.trans h),[.opened key],?_,.single hjoin⟩
        change (start.place key value).2.journal.record _=_
        rw [hjournal]
        rfl
      · exact .inr (hlater.trans_eq hsame.2.2.2.2.2.symm)
    split_ifs with hcrowded
    · rcases hgrown with hsame' | ⟨hs,he,hi,hg⟩
      · rw [hsame']
        exact hkept
      · refine ⟨hs.record _,fun other=>(hg other).trans (hgetPlaced other),
          hi.trans (hsame.2.2.2.2.1.trans hid),.inr ?_⟩
        have hstartEpoch : grid.epoch ≤ start.epoch := by
          rcases hbegan with rfl | hlater
          · exact le_refl _
          · exact hlater.le
        exact lt_of_le_of_lt (hstartEpoch.trans_eq hsame.2.2.2.2.2.symm) he
    · exact hkept
  | some previous =>
    dsimp only
    have hreplays := hstart.ok.replays_replace value hold
    rw [← hslots] at hreplays
    refine ⟨?_,?_,?_,?_⟩
    · split_ifs
      · exact hplaced
      · exact hplaced.record _
      · exact hplaced.record _
      · exact (hplaced.record _).record _
    · split_ifs <;> exact hgetPlaced
    · split_ifs <;> exact hsame.2.2.2.2.1.trans hid
    · rcases hbegan with rfl | hlater
      · refine .inl ?_
        split_ifs at hreplays ⊢ with hsub hsup hsup
        all_goals
          refine ⟨hsame.2.2.2.2.1,hsame.2.2.2.2.2,hsame.1,hsame.2.1,hsame.2.2.1,
            (fun h=>nomatch halloc.symm.trans h),_,?_,hreplays⟩
          rw [← hjournal]
          rfl
      · refine .inr ?_
        split_ifs <;> exact hlater.trans_eq hsame.2.2.2.2.2.symm

variable {key : SectionKey} {index : ℕ}

lemma mem_homes_of_firstHome (h : grid.firstHome index=some key) : toLex (index,key) ∈ grid.overflowHomes := by
  unfold firstHome at h
  cases hmin : (grid.overflowHomes.filter fun entry=>index ≤ (ofLex entry).1).min with
  | top =>
    rw [hmin] at h
    cases h
  | coe entry =>
    rw [hmin] at h
    dsimp only at h
    split_ifs at h with hindex
    have hentry := Finset.mem_filter.1 (Finset.mem_of_min hmin)
    cases h
    rw [← hindex]
    exact hentry.1

lemma not_mem_homes_of_firstHome (h : grid.firstHome index=none)
    (key : SectionKey) : toLex (index,key) ∉ grid.overflowHomes := by
  intro hmem
  have hfilter : toLex (index,key) ∈ grid.overflowHomes.filter fun entry=>index ≤ (ofLex entry).1 :=
    Finset.mem_filter.2 ⟨hmem,le_refl _⟩
  obtain ⟨entry,hmin⟩ := Finset.min_of_mem hfilter
  have hle := Finset.min_le_of_eq hfilter hmin
  have hentry := (Finset.mem_filter.1 (Finset.mem_of_min hmin)).2
  have hindex : (ofLex entry).1=index := le_antisymm (Prod.Lex.monotone_fst _ _ hle) hentry
  unfold firstHome at h
  rw [hmin] at h
  dsimp only at h
  rw [if_pos hindex] at h
  cases h

lemma Partial.mem_homes_erase (h : grid.Partial) (key : SectionKey) (entry : ℕ ×ₗ SectionKey) :
    entry ∈ grid.overflowHomes.erase (toLex (grid.index key,key)) ↔
      ((grid.overflow.erase key).lookup (ofLex entry).2).isSome ∧
        (ofLex entry).1=grid.index (ofLex entry).2 := by
  rw [Finset.mem_erase,h.homes]
  by_cases hk : (ofLex entry).2=key
  · rw [hk,Finmap.lookup_erase]
    constructor
    · rintro ⟨hne,-,hi⟩
      refine absurd ?_ hne
      rw [← hi,← hk]
      rfl
    · rintro ⟨hsome,-⟩
      cases hsome
  · rw [Finmap.lookup_erase_ne hk,and_iff_right]
    rintro rfl
    exact hk rfl

lemma Partial.promote (h : grid.Partial) (halloc : grid.allocated=true) (hover : (grid.overflow.lookup key).isSome)
    (hcell : grid.cells (grid.index key) = none) :
    (grid.promote key (grid.index key)).Partial ∧ Journaled grid (grid.promote key (grid.index key)) ∧
      (∀ other, (grid.promote key (grid.index key)).slots.get other=grid.slots.get other) ∧
      (grid.promote key (grid.index key)).overflow=grid.overflow.erase key ∧
      ∀ i, ((grid.promote key (grid.index key)).cells i).isSome ↔
        i=grid.index key ∨ (grid.cells i).isSome := by
  obtain ⟨value,hvalue⟩ := Option.isSome_iff_exists.1 hover
  obtain ⟨hok,hget⟩ := @Slots.Ok.promote grid.slots h.ok key value hvalue hcell
  have hpromote : grid.promote key (grid.index key) =
      (({ grid with
        overflow := grid.overflow.erase key
        overflowHomes := grid.overflowHomes.erase (toLex (grid.index key,key)) }).setCell
          (grid.index key) (some ⟨key,value⟩)).record (.promoted key (grid.index key)) := by
    unfold ConnectivityGrid.promote removeOverflow
    rw [hvalue]
  rw [hpromote]
  refine ⟨h.of_slots ⟨rfl,rfl,rfl,rfl,rfl,rfl⟩ hok halloc fun entry=>?_,
    ⟨rfl,rfl,rfl,rfl,rfl,(fun h=>nomatch halloc.symm.trans h),[_],rfl,
      .single (@Change.promoted grid.slots _ _ hvalue hcell)⟩,
    hget,rfl,fun i=>?_⟩
  · exact h.mem_homes_erase key entry
  · change (update grid.cells _ _ i).isSome ↔ _
    rw [update_apply]
    split_ifs with hi
    · simp [hi]
    · simp [hi]

/-- An emptied cell is refilled when it is some overflow key's home. -/
lemma Partial.promoteInto (h : grid.Partial) (halloc : grid.allocated=true) (hcell : grid.cells index=none)
    (hcrowded : ∀ key, (grid.overflow.lookup key).isSome → grid.index key≠index →
      (grid.cells (grid.index key)).isSome) :
    (grid.promoteInto index).Sound ∧ Journaled grid (grid.promoteInto index) ∧
      ∀ other, (grid.promoteInto index).slots.get other=grid.slots.get other := by
  unfold ConnectivityGrid.promoteInto
  cases hfirst : grid.firstHome index with
  | none =>
    refine ⟨⟨h,fun key hkey=>hcrowded key hkey ?_⟩,.refl grid,fun _=>rfl⟩
    rintro rfl
    exact not_mem_homes_of_firstHome hfirst key ((h.homes _).2 ⟨hkey,rfl⟩)
  | some key =>
    have hhome := (h.homes _).1 (mem_homes_of_firstHome hfirst)
    have hover : (grid.overflow.lookup key).isSome := hhome.1
    have hindex : index=grid.index key := hhome.2
    subst hindex
    obtain ⟨hpart,hjournaled,hget,hoverflow,hcells⟩ := h.promote halloc hover hcell
    refine ⟨⟨hpart,fun other hother=>?_⟩,hjournaled,hget⟩
    rw [hjournaled.index_eq,hcells]
    by_cases hi : grid.index other=grid.index key
    · exact .inl hi
    · refine .inr (hcrowded other ?_ hi)
      rw [hoverflow] at hother
      by_cases hk : other=key
      · exact absurd (by rw [hk]) hi
      · rwa [Finmap.lookup_erase_ne hk] at hother

lemma Journaled.withLen (h : Journaled grid grid') (len : ℕ) :
    Journaled grid { grid' with len := len } :=
  ⟨h.identity,h.epoch,h.xzBits,h.yBits,h.allocated,h.idle,h.replays⟩

lemma Sound.get_fresh (h : grid.Sound) (halloc : grid.allocated=false) (key : SectionKey) :
    grid.slots.get key=none := by
  obtain ⟨hcells,hover⟩ := h.fresh halloc
  rw [Slots.get_none (s := grid.slots) (hcells _)]
  change grid.overflow.lookup key=none
  rw [hover]
  rfl

lemma Sound.removeCell (h : grid.Sound) (halloc : grid.allocated=true) (hin : grid.slots.InCell key) :
    Edits grid (((grid.setCell (grid.index key) none).record
        (.removed key (some (grid.index key)))).promoteInto (grid.index key))
      fun other=>if other=key then none else grid.slots.get other := by
  obtain ⟨hok,hget⟩ := h.ok.removeCell hin
  have hpart : ((grid.setCell (grid.index key) none).record (.removed key (some (grid.index key)))).Partial :=
    h.toPartial.of_slots ⟨rfl,rfl,rfl,rfl,rfl,rfl⟩ hok halloc h.homes
  have hemptied : Journaled grid ((grid.setCell (grid.index key) none).record (.removed key (some (grid.index key)))) :=
    ⟨rfl,rfl,rfl,rfl,rfl,(fun h=>nomatch halloc.symm.trans h),[_],rfl, .single (.removedCell hin)⟩
  have hcell : ((grid.setCell (grid.index key) none).record
      (.removed key (some (grid.index key)))).cells (grid.index key) = none :=
    update_self _ _ _
  obtain ⟨hsound,hrefilled,hsame⟩ := hpart.promoteInto halloc hcell fun other hother hi=>by
    change grid.index other≠grid.index key at hi
    change (update grid.cells _ _ (grid.index other)).isSome
    rw [update_of_ne hi]
    exact h.crowded other hother
  exact ⟨hsound,fun other=>(hsame other).trans (hget other),hrefilled.identity, .inl (hemptied.trans hrefilled)⟩

lemma Sound.removeOverflow (h : grid.Sound) (halloc : grid.allocated=true) (hover : (grid.overflow.lookup key).isSome) :
    Edits grid ((grid.removeOverflow key).2.record (.removed key none))
      fun other=>if other=key then none else grid.slots.get other := by
  obtain ⟨value,hvalue⟩ := Option.isSome_iff_exists.1 hover
  obtain ⟨hok,hget⟩ := @Slots.Ok.removeOverflow grid.slots h.ok key hover
  have hremoved : (grid.removeOverflow key).2 = { grid with
      overflow := grid.overflow.erase key
      overflowHomes := grid.overflowHomes.erase (toLex (grid.index key,key)) } := by
    unfold ConnectivityGrid.removeOverflow
    rw [hvalue]
  rw [hremoved]
  refine ⟨⟨h.toPartial.of_slots ⟨rfl,rfl,rfl,rfl,rfl,rfl⟩ hok halloc
    (h.mem_homes_erase key),fun other hother=>?_⟩,hget,rfl,
    .inl ⟨rfl,rfl,rfl,rfl,rfl,(fun h=>nomatch halloc.symm.trans h),[_],rfl,
      .single (@Change.removedOverflow grid.slots _ hover)⟩⟩
  refine h.crowded other ?_
  change ((grid.overflow.erase key).lookup other).isSome at hother
  by_cases hk : other=key
  · rw [hk]
    exact hover
  · rwa [Finmap.lookup_erase_ne hk] at hother

lemma Edits.withLen {map : Graph} (h : Edits grid grid' map) (len : ℕ) :
    Edits grid { grid' with len := len } map :=
  ⟨h.sound.withLen len,h.get,h.identity,h.recorded.imp (fun j=>j.withLen len) id⟩

lemma Sound.keep (h : grid.Sound) {map : Graph} (hmap : ∀ key, map key=grid.slots.get key) :
    Edits grid grid map :=
  ⟨h,fun key=>(hmap key).symm,rfl,.inl (.refl grid)⟩

lemma Sound.keep_absent (h : grid.Sound) (hget : grid.slots.get key=none) :
    Edits grid grid fun other=>if other=key then none else grid.slots.get other := by
  refine h.keep fun other=>?_
  split_ifs with hk
  · rw [hk,hget]
  · rfl

lemma Sound.remove (h : grid.Sound) (key : SectionKey) : Edits grid (grid.remove key).2
      fun other=>if other=key then none else grid.slots.get other := by
  unfold ConnectivityGrid.remove
  cases halloc : grid.allocated with
  | false => exact h.keep_absent (h.get_fresh halloc key)
  | true =>
    refine Edits.withLen ?_ _
    cases hcell : grid.cells (grid.index key) with
    | none =>
      refine h.keep_absent ?_
      rw [Slots.get_of_not_inCell]
      · by_contra hover
        have hcrowded := h.crowded key (Option.isSome_iff_ne_none.2 hover)
        rw [hcell] at hcrowded
        cases hcrowded
      · rintro ⟨value,hin⟩
        change grid.cells (grid.index key) = _ at hin
        rw [hcell] at hin
        cases hin
    | some cell =>
      dsimp only
      by_cases hk : cell.key=key
      · rw [if_pos hk]
        refine h.removeCell halloc ⟨cell.value,?_⟩
        rw [← hk]
        rw [← hk] at hcell
        exact hcell
      · rw [if_neg hk]
        have hin : ¬grid.slots.InCell key := by
          rintro ⟨value,hin⟩
          change grid.cells (grid.index key) = _ at hin
          rw [hcell] at hin
          cases hin
          exact hk rfl
        have hfound : (grid.removeOverflow key).1=grid.overflow.lookup key := by
          unfold ConnectivityGrid.removeOverflow
          cases grid.overflow.lookup key <;> rfl
        rw [hfound]
        split_ifs with hover
        · exact h.removeOverflow halloc hover
        · have hnone : grid.overflow.lookup key=none := by simpa using hover
          have hsame : (grid.removeOverflow key).2=grid := by
            unfold ConnectivityGrid.removeOverflow
            rw [hnone]
          rw [hsame]
          refine h.keep_absent ?_
          rw [Slots.get_of_not_inCell hin]
          exact hnone

variable (keep : SectionKey → Bool)

/-- The overflow map's share of retention, before its homes are filtered. -/
lemma retainOverflow_all (L : List SectionKey) (hnodup : L.Nodup) (halloc : grid.allocated=true) (hok : grid.slots.Ok)
    (hL : ∀ key ∈ L, (grid.overflow.lookup key).isSome) :
    let kept := L.foldl (retainOverflow keep) grid
    Journaled grid kept ∧ SameLayout grid kept ∧ kept.cells=grid.cells ∧
      kept.overflowHomes=grid.overflowHomes ∧ kept.slots.Ok ∧
      ∀ key, kept.overflow.lookup key =
        if key ∈ L ∧ keep key=false then none else grid.overflow.lookup key := by
  induction L generalizing grid with
  | nil => exact ⟨.refl grid,⟨rfl,rfl,rfl,rfl,rfl,rfl⟩,rfl,rfl,hok,fun key=>by simp⟩
  | cons first rest ih =>
    obtain ⟨hnot,hrest⟩ := nodup_cons.1 hnodup
    rw [foldl_cons]
    cases hkeep : keep first with
    | true =>
      have hstep : retainOverflow keep grid first=grid := if_pos hkeep
      rw [hstep]
      obtain ⟨hj,hsame,hcells,hhomes,hok',hlook⟩ := ih hrest halloc hok fun key hkey=>hL key (.tail _ hkey)
      refine ⟨hj,hsame,hcells,hhomes,hok',fun key=>?_⟩
      rw [hlook]
      by_cases hk : key=first
      · simp [hk,hkeep]
      · simp [hk]
    | false =>
      have hstep : retainOverflow keep grid first =
          { grid with overflow := grid.overflow.erase first }.record (.removed first none) :=
        if_neg (by rw [hkeep]; exact Bool.false_ne_true)
      have hin : (grid.overflow.lookup first).isSome := hL first (.head _)
      have hjournaled : Journaled grid (retainOverflow keep grid first) := by
        rw [hstep]
        exact ⟨rfl,rfl,rfl,rfl,rfl,(fun h=>nomatch halloc.symm.trans h),[_],rfl,
          .single (@Change.removedOverflow grid.slots _ hin)⟩
      have hok' : (retainOverflow keep grid first).slots.Ok := by
        rw [hstep]
        exact (@Slots.Ok.removeOverflow grid.slots hok first hin).1
      have hlook' : ∀ key, key≠first →
          (retainOverflow keep grid first).overflow.lookup key=grid.overflow.lookup key := by
        intro key hk
        rw [hstep]
        exact Finmap.lookup_erase_ne hk
      have hgone : (retainOverflow keep grid first).overflow.lookup first=none := by
        rw [hstep]
        exact Finmap.lookup_erase first grid.overflow
      have hsame' : SameLayout grid (retainOverflow keep grid first) := by
        rw [hstep]
        exact ⟨rfl,rfl,rfl,rfl,rfl,rfl⟩
      have hrestIn : ∀ key ∈ rest, ((retainOverflow keep grid first).overflow.lookup key).isSome := by
        intro key hkey
        rw [hlook' key fun hk=>hnot (hk ▸ hkey)]
        exact hL key (.tail _ hkey)
      obtain ⟨hj,hsame,hcells,hhomes,hok'',hlook⟩ := ih hrest (hsame'.2.2.1.trans halloc) hok' hrestIn
      refine ⟨hjournaled.trans hj,hsame'.trans hsame,hcells.trans (by rw [hstep]; rfl),
        hhomes.trans (by rw [hstep]; rfl),hok'',fun key=>?_⟩
      rw [hlook]
      by_cases hk : key=first
      · subst hk
        simp [hgone,hkeep]
      · simp [hk,hlook' key hk]

lemma Partial.retainCells (h : grid.Partial) (halloc : grid.allocated=true) (keep : SectionKey → Bool) (L : List ℕ) :
    let swept := L.foldl (retainCell keep) grid
    swept.Partial ∧ Journaled grid swept ∧ swept.overflow=grid.overflow ∧ ∀ index, swept.cells index =
        if index ∈ L then (grid.cells index).filter fun cell=>keep cell.key
        else grid.cells index := by
  induction L generalizing grid with
  | nil => exact ⟨h,.refl grid,rfl,fun index=>by simp⟩
  | cons first rest ih =>
    rw [foldl_cons]
    have hstep : (retainCell keep grid first).Partial ∧ Journaled grid (retainCell keep grid first) ∧
        (retainCell keep grid first).overflow=grid.overflow ∧
        ∀ index, (retainCell keep grid first).cells index =
          if index=first then (grid.cells index).filter fun cell=>keep cell.key
          else grid.cells index := by
      unfold retainCell
      cases hcell : grid.cells first with
      | none =>
        refine ⟨h,.refl grid,rfl,fun index=>?_⟩
        split_ifs with hi
        · rw [hi,hcell]
          rfl
        · rfl
      | some cell =>
        have hindex : grid.index cell.key=first := h.ok.home hcell
        have hin : grid.slots.InCell cell.key := ⟨cell.value,by
          change grid.cells (grid.index cell.key) = _
          rw [hindex]
          exact hcell⟩
        dsimp only
        split_ifs with hkeep
        · refine ⟨h.of_slots ⟨rfl,rfl,rfl,rfl,rfl,rfl⟩ h.ok halloc h.homes,
            (Journaled.refl grid).withLen _,rfl,fun index=>?_⟩
          split_ifs with hi
          · rw [hi]
            rw [hcell,Option.filter_some,if_pos hkeep]
          · rfl
        · have hok := (h.ok.removeCell hin).1
          rw [show grid.slots.index cell.key=first from hindex] at hok
          have hchange : Change (.removed cell.key (some first)) grid.slots (grid.slots.setCell first none) := by
            have hremoved := Change.removedCell hin
            rwa [show grid.slots.index cell.key=first from hindex] at hremoved
          refine ⟨h.of_slots ⟨rfl,rfl,rfl,rfl,rfl,rfl⟩ hok halloc h.homes,
            ⟨rfl,rfl,rfl,rfl,rfl,(fun h=>nomatch halloc.symm.trans h),[_],rfl, .single hchange⟩,rfl,fun index=>?_⟩
          change update grid.cells first none index=_
          rw [update_apply]
          split_ifs with hi
          · rw [hi,hcell,Option.filter_some,if_neg hkeep]
          · rfl
    obtain ⟨hpart,hjournaled,hoverflow,hcells⟩ := hstep
    obtain ⟨hpart',hjournaled',hoverflow',hcells'⟩ := ih hpart (hjournaled.allocated.trans halloc)
    refine ⟨hpart',hjournaled.trans hjournaled',hoverflow'.trans hoverflow,fun index=>?_⟩
    rw [hcells',hcells]
    by_cases hi : index=first
    · subst hi
      simp
    · simp [hi]

/-- Overflow keys move into the cells retention emptied, one key a cell. -/
lemma Partial.rehomeAll (h : grid.Partial) (halloc : grid.allocated=true) (L : List SectionKey) (hnodup : L.Nodup)
    (hL : ∀ key ∈ L, (grid.overflow.lookup key).isSome) :
    let homed := L.foldl rehome grid
    homed.Partial ∧ Journaled grid homed ∧ (∀ key, homed.slots.get key=grid.slots.get key) ∧
      (∀ key, (homed.overflow.lookup key).isSome → (grid.overflow.lookup key).isSome) ∧
      (∀ index, (grid.cells index).isSome → (homed.cells index).isSome) ∧
      ∀ key ∈ L, (homed.cells (grid.index key)).isSome := by
  induction L generalizing grid with
  | nil =>
    exact ⟨h,.refl grid,fun _=>rfl,fun _=>id,fun _=>id,fun key hkey=>nomatch hkey⟩
  | cons first rest ih =>
    obtain ⟨hnot,hrest⟩ := nodup_cons.1 hnodup
    have hstep : (rehome grid first).Partial ∧ Journaled grid (rehome grid first) ∧
        (∀ key, (rehome grid first).slots.get key=grid.slots.get key) ∧
        (∀ key, ((rehome grid first).overflow.lookup key).isSome → (grid.overflow.lookup key).isSome) ∧
        (∀ key, key≠first → (rehome grid first).overflow.lookup key=grid.overflow.lookup key) ∧
        (∀ index, (grid.cells index).isSome → ((rehome grid first).cells index).isSome) ∧
        ((rehome grid first).cells (grid.index first)).isSome := by
      unfold rehome
      split_ifs with htaken
      · exact ⟨h,.refl grid,fun _=>rfl,fun _=>id,fun _ _=>rfl,fun _=>id,htaken⟩
      · have hempty : grid.cells (grid.index first) = none := by simpa using htaken
        obtain ⟨hpart,hjournaled,hget,hoverflow,hcells⟩ := h.promote halloc (hL first (.head _)) hempty
        have hlook : ∀ key, key≠first → (grid.promote first (grid.index first)).overflow.lookup key =
              grid.overflow.lookup key := by
          intro key hk
          rw [hoverflow]
          exact Finmap.lookup_erase_ne hk
        refine ⟨hpart,hjournaled,hget,fun key hkey=>?_,hlook,
          fun index hindex=>(hcells index).2 (.inr hindex),(hcells _).2 (.inl rfl)⟩
        by_cases hk : key=first
        · rw [hk]
          exact hL first (.head _)
        · rwa [hlook key hk] at hkey
    obtain ⟨hpart,hjournaled,hget,hsub,hlook,hcells,hfirst⟩ := hstep
    have hrestIn : ∀ key ∈ rest, ((rehome grid first).overflow.lookup key).isSome := by
      intro key hkey
      rw [hlook key fun hk=>hnot (hk ▸ hkey)]
      exact hL key (.tail _ hkey)
    obtain ⟨hpart',hjournaled',hget',hsub',hcells',hhomed⟩ := ih hpart (hjournaled.allocated.trans halloc) hrest hrestIn
    refine ⟨hpart',hjournaled.trans hjournaled',fun key=>(hget' key).trans (hget key),
      fun key hkey=>hsub key (hsub' key hkey),fun index hi=>hcells' index (hcells index hi),
      fun key hkey=>?_⟩
    rcases mem_cons.1 hkey with rfl | hkey
    · exact hcells' _ hfirst
    · rw [← hjournaled.index_eq]
      exact hhomed key hkey

lemma Partial.cells_lt (h : grid.Partial) (halloc : grid.allocated=true)
    (hcell : (grid.cells index).isSome) : index<grid.cellCount := by
  obtain ⟨cell,hcell⟩ := Option.isSome_iff_exists.1 hcell
  have hindex : grid.index cell.key=index := h.ok.home hcell
  rw [← hindex,cellCount,if_pos halloc]
  exact cellIndex_lt _ _ _

lemma Sound.retain_fresh (h : grid.Sound) (halloc : grid.allocated=false)
    (keep : SectionKey → Bool) (order : VisitOrder) :
    grid.retain keep order = { grid with len := 0 } := by
  obtain ⟨-,hover⟩ := h.fresh halloc
  have hnone : order.list grid.overflow.keys = [] := by
    refine eq_nil_iff_forall_not_mem.2 fun key hkey=>?_
    rw [order.mem,hover] at hkey
    exact absurd hkey (by simp)
  have hhomes : (grid.overflowHomes.filter fun entry=>(ofLex entry).2 ∈ grid.overflow) =
      grid.overflowHomes := by
    refine Finset.filter_true_of_mem fun entry hentry=>?_
    rw [h.homes,hover] at hentry
    cases hentry.1
  unfold ConnectivityGrid.retain
  dsimp only
  have hcard : grid.overflow.keys.card=0 := by
    rw [hover]
    rfl
  rw [hnone,foldl_nil,hhomes,hcard]
  have hcount : ({ grid with len := 0 } : ConnectivityGrid).cellCount=0 :=
    if_neg (by rw [halloc]; exact Bool.false_ne_true)
  rw [hcount,range_zero,foldl_nil,hnone]
  rfl

/-- Retention before the overflow keys of emptied cells move in. -/
def sweep (grid : ConnectivityGrid) (keep : SectionKey → Bool) (order : VisitOrder) :
    ConnectivityGrid :=
  let kept := (order.list grid.overflow.keys).foldl (retainOverflow keep) grid
  let indexed := { kept with
    overflowHomes := kept.overflowHomes.filter fun entry=>(ofLex entry).2 ∈ kept.overflow
    len := kept.overflow.keys.card }
  (List.range indexed.cellCount).foldl (retainCell keep) indexed

lemma retain_eq (order : VisitOrder) : grid.retain keep order =
      ((order.list (grid.sweep keep order).overflow.keys).filter fun key =>
        ((grid.sweep keep order).cells ((grid.sweep keep order).index key)).isNone).foldl rehome
          (grid.sweep keep order) := rfl

/-- Sweeping leaves the keys it was asked to keep, some of them beside an emptied home. -/
lemma Sound.sweep (h : grid.Sound) (halloc : grid.allocated=true) (keep : SectionKey → Bool) (order : VisitOrder) :
    (grid.sweep keep order).Partial ∧ Journaled grid (grid.sweep keep order) ∧
      ∀ key, (grid.sweep keep order).slots.get key =
        if keep key then grid.slots.get key else none := by
  unfold ConnectivityGrid.sweep
  dsimp only
  have hkept := retainOverflow_all keep (order.list grid.overflow.keys) (order.nodup _) halloc h.ok fun key hkey=>by
      rw [order.mem] at hkey
      exact Finmap.lookup_isSome.2 (Finmap.mem_keys.1 hkey)
  generalize (order.list grid.overflow.keys).foldl (retainOverflow keep) grid=kept at hkept ⊢
  obtain ⟨hjkept,hsame,hcellsKept,hhomesKept,hokKept,hlookKept⟩ := hkept
  have hlook : ∀ key, kept.overflow.lookup key =
      if keep key then grid.overflow.lookup key else none := by
    intro key
    rw [hlookKept]
    simp only [order.mem,Finmap.mem_keys]
    cases hkeep : keep key with
    | true => simp
    | false =>
      by_cases hin : key ∈ grid.overflow
      · simp [hin]
      · simp [hin,Finmap.lookup_eq_none.2 hin]
  -- the homes of the keys that stayed
  have hindexed : ({ kept with
      overflowHomes := kept.overflowHomes.filter fun entry=>(ofLex entry).2 ∈ kept.overflow
      len := kept.overflow.keys.card } : ConnectivityGrid).Partial := by
    refine h.of_slots hsame hokKept halloc fun entry=>?_
    rw [Finset.mem_filter,hhomesKept,h.homes,← Finmap.lookup_isSome,hlook]
    split_ifs
    · tauto
    · simp
  have hjindexed : Journaled grid { kept with
      overflowHomes := kept.overflowHomes.filter fun entry=>(ofLex entry).2 ∈ kept.overflow
      len := kept.overflow.keys.card } :=
    ⟨hjkept.identity,hjkept.epoch,hjkept.xzBits,hjkept.yBits,hjkept.allocated,hjkept.idle, hjkept.replays⟩
  have hcellsIndexed : ({ kept with
      overflowHomes := kept.overflowHomes.filter fun entry=>(ofLex entry).2 ∈ kept.overflow
      len := kept.overflow.keys.card } : ConnectivityGrid).cells=grid.cells := hcellsKept
  have hlookIndexed : ∀ key, ({ kept with
      overflowHomes := kept.overflowHomes.filter fun entry=>(ofLex entry).2 ∈ kept.overflow
      len := kept.overflow.keys.card } : ConnectivityGrid).overflow.lookup key =
        if keep key then grid.overflow.lookup key else none := hlook
  generalize ({ kept with
      overflowHomes := kept.overflowHomes.filter fun entry=>(ofLex entry).2 ∈ kept.overflow
      len := kept.overflow.keys.card } : ConnectivityGrid) = indexed at *
  obtain ⟨hswept,hjswept,hoverSwept,hcellsSwept⟩ :=
    hindexed.retainCells (hjindexed.allocated.trans halloc) keep (List.range indexed.cellCount)
  generalize (List.range indexed.cellCount).foldl (retainCell keep) indexed=swept at *
  have hjsweptGrid := hjindexed.trans hjswept
  have hcells : ∀ index, swept.cells index = (grid.cells index).filter fun cell=>keep cell.key := by
    intro index
    rw [hcellsSwept,hcellsIndexed]
    split_ifs with hin
    · rfl
    · cases hcell : grid.cells index with
      | none => rfl
      | some cell =>
        refine absurd ?_ hin
        have hcount : indexed.cellCount=grid.cellCount := by
          unfold cellCount
          rw [hjindexed.allocated,hjindexed.xzBits,hjindexed.yBits]
        rw [mem_range,hcount]
        exact h.cells_lt halloc (by rw [hcell]; rfl)
  refine ⟨hswept,hjsweptGrid,@Slots.get_filter grid.slots swept.slots keep hjsweptGrid.index_eq hcells fun key=>?_⟩
  change swept.overflow.lookup key=_
  rw [hoverSwept]
  exact hlookIndexed key

lemma Sound.retain (h : grid.Sound) (keep : SectionKey → Bool) (order : VisitOrder) :
    Edits grid (grid.retain keep order)
      fun key=>if keep key then grid.slots.get key else none := by
  cases halloc : grid.allocated with
  | false =>
    rw [h.retain_fresh halloc keep order]
    refine (h.keep fun key=>?_).withLen 0
    rw [h.get_fresh halloc,ite_self]
  | true =>
    rw [retain_eq]
    obtain ⟨hswept,hjswept,hget⟩ := h.sweep halloc keep order
    generalize grid.sweep keep order=swept at *
    obtain ⟨hhomed,hjhomed,hgetHomed,hsub,hgrow,hall⟩ := hswept.rehomeAll (hjswept.allocated.trans halloc)
      ((order.list swept.overflow.keys).filter fun key=>(swept.cells (swept.index key)).isNone)
      ((order.nodup _).filter _) fun key hkey=>by
        have hkeys := (mem_filter.1 hkey).1
        rw [order.mem] at hkeys
        exact Finmap.lookup_isSome.2 (Finmap.mem_keys.1 hkeys)
    refine ⟨⟨hhomed,fun key hkey=>?_⟩,fun key=>(hgetHomed key).trans (hget key),
      (hjswept.trans hjhomed).identity,.inl (hjswept.trans hjhomed)⟩
    rw [hjhomed.index_eq]
    cases hempty : swept.cells (swept.index key) with
    | some cell => exact hgrow _ (by rw [hempty]; rfl)
    | none =>
      refine hall key (mem_filter.2 ⟨?_,by rw [hempty]; rfl⟩)
      rw [order.mem]
      exact Finmap.mem_keys.2 (Finmap.lookup_isSome.1 (hsub key hkey))

lemma Sound.withReserved (h : grid.Sound) {reserved : ℕ × ℕ}
    (hreserved : 2*reserved.1+reserved.2 ≤ maxCellBits ∧ initialXzBits ≤ reserved.1) :
    ({ grid with reserved := reserved } : ConnectivityGrid).Sound :=
  { __ := h
    reserved := hreserved }

lemma Sound.reserveView (h : grid.Sound) (radius height : ℕ) (order : VisitOrder) :
    Edits grid (grid.reserveView radius height order) grid.slots.get := by
  unfold ConnectivityGrid.reserveView
  dsimp only
  generalize hy : max (extentBits height) grid.reserved.2=yBits
  generalize hxz : min (max (extentBits (min (radius*2) u32Max)) grid.reserved.1) ((maxCellBits-yBits) / 2) = xzBits
  by_cases hsmall : xzBits<grid.reserved.1
  · rw [if_pos hsmall]
    exact h.keep fun _=>rfl
  · have hinitial := h.reserved.2
    have hmin : 1≤xzBits := by
      simp only [initialXzBits] at hinitial
      omega
    have hs := @Sound.withReserved grid h (xzBits,yBits) ⟨by dsimp only; omega,by
      omega⟩
    split_ifs with hlarger
    · obtain ⟨halloc,hne,hfits⟩ := hlarger
      have hgrows : 2*grid.xzBits+grid.yBits<2*max xzBits grid.xzBits+max yBits grid.yBits := by
        by_contra hle
        apply hne
        rw [Prod.mk.injEq]
        omega
      obtain ⟨hrelaid,hepoch,hid,-,hget⟩ := hs.relayout order (lt_of_le_of_lt h.epoch hgrows) hfits halloc
      exact ⟨hrelaid,hget,hid,.inr hepoch⟩
    · exact ⟨hs,fun _=>rfl,rfl,.inl ⟨rfl,rfl,rfl,rfl,rfl,fun _=>rfl,[],rfl,.nil _⟩⟩

end ConnectivityGrid

end Cinnabar.Culling
