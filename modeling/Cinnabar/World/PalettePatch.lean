import Cinnabar.World.PaletteEdit

/-! # One edit of stable slots -/

namespace Cinnabar.World

open List

open Function (update update_idem update_of_ne update_self)

open BitFields PalettedStorage

variable {edits : PaletteEdits} {s : PalettedStorage} {slotAt cell : ℕ → ℕ}

lemma promote_eq {slotAt : ℕ → ℕ} {n : ℕ} {slots : List PaletteSlot}
    (hbits : s.physicalBits=bitsForPaletteLen n) (hpacked : Packed s.physicalBits slotAt s.physicalWords)
    (hlt : ∀ linear<blocksPerSubChunk, slotAt linear<n) (hn : n ≤ slots.length)
    (hlen : slots.length≤blocksPerSubChunk) : ∃ words,
    s.promote slots=some { s with
      physicalBits := bitsForPaletteLen slots.length, physicalWords := words } ∧
    Packed (bitsForPaletteLen slots.length) slotAt words := by
  rw [promote]
  dsimp only
  split_ifs with hgt hne
  · have hread : ∀ linear<blocksPerSubChunk, ∀ words, (s.physicalIndex linear >>= fun index =>
          writePaletteIndex words (bitsForPaletteLen slots.length) linear index) =
        writePaletteIndex words (bitsForPaletteLen slots.length) linear (slotAt linear) := by
      intro linear hl words
      rw [hpacked.physicalIndex_eq hl,if_neg hne]
      rfl
    obtain ⟨hrun,hnew⟩ := foldlM_write (bitsForPaletteLen_mem slots.length) hread
    rw [hrun]
    refine ⟨_,rfl,hnew.congr fun linear hl=>Nat.mod_eq_of_lt ?_⟩
    refine ((hlt linear hl).trans_le hn).trans_le (le_two_pow_bitsFor ?_)
    exact hlen.trans (by norm_num [blocksPerSubChunk])
  · -- A uniform storage's cells all hold slot zero.
    refine ⟨_,rfl,(Packed.zeros (bitsForPaletteLen_mem slots.length)).congr fun linear hl=>?_⟩
    have hone : n≤1 := bitsForPaletteLen_eq_zero.1 (hbits.symm.trans (not_not.1 hne))
    have hz := hlt linear hl
    omega
  · have hsame : s.physicalBits=bitsForPaletteLen slots.length :=
      le_antisymm (hbits ▸ bitsForPaletteLen_mono hn) (Nat.le_of_not_lt hgt)
    refine ⟨s.physicalWords,by rw [← hsame],?_⟩
    rwa [← hsame]

section
variable {s : PalettedStorage} {edits : PaletteEdits} {slotAt cell : ℕ → ℕ}
  (h : EditInv s edits slotAt cell)
include h

lemma destinationSlot_mem {runtimeId : ℕ} (hmem : runtimeId ∈ s.palette) :
    ∃ d, ∃ target : PaletteSlot, destinationSlot edits.slots s.palette runtimeId=some (some d) ∧
      edits.slots[d]? = some target ∧ target.count≠0 ∧
      target.paletteIndex=s.palette.idxOf runtimeId := by
  have hp := idxOf_lt_length_of_mem hmem
  obtain ⟨i,slot,hslot,hlive,hindex⟩ := h.slots.live_surj _ hp
  have hexists : ∃ slot ∈ edits.slots, (slot.count != 0 && slot.paletteIndex == s.palette.idxOf runtimeId) = true :=
    ⟨slot,List.mem_of_getElem? hslot,by simp [hlive,hindex]⟩
  have hfind := List.findIdx?_eq_some_of_exists hexists
  obtain ⟨hd,hprop,-⟩ := List.findIdx?_eq_some_iff_getElem.1 hfind
  simp only [Bool.and_eq_true,bne_iff_ne,beq_iff_eq] at hprop
  refine ⟨_,_,?_,List.getElem?_eq_getElem hd,hprop.1,hprop.2⟩
  rw [destinationSlot,findIdx?_beq hmem]
  dsimp only
  rw [hfind,Option.map_some]

omit h in
lemma destinationSlot_not_mem {slots : List PaletteSlot} {palette : List ℕ} {runtimeId : ℕ}
    (hmem : runtimeId ∉ palette) : destinationSlot slots palette runtimeId=some none := by
  have hnone : palette.findIdx? (· == runtimeId) = none := by
    rw [List.findIdx?_eq_none_iff]
    intro v hv
    exact beq_false_of_ne (ne_of_mem_of_not_mem hv hmem)
  rw [destinationSlot,hnone]

end

lemma foldl_pushNew_filter (p : ℕ → Prop) [DecidablePred p] {palette values : List ℕ} (hn : (values++palette).Nodup) :
    palette.foldl (fun values value=>if p value then pushNew values value else values) values =
      values++palette.filter fun value=>decide (p value) := by
  induction palette generalizing values with
  | nil => simp
  | cons v palette ih =>
    have hv : v ∉ values := fun hmem =>
      (nodup_append.1 hn).2.2 v hmem v (.head _) rfl
    rw [foldl_cons,filter_cons]
    by_cases hp : p v
    · rw [if_pos hp,pushNew,if_neg hv,ih (by simpa using hn),decide_eq_true hp,if_pos rfl]
      simp
    · have hsub : (values++palette).Nodup := hn.sublist (List.Sublist.append_left (sublist_cons_self v palette) values)
      rw [if_neg hp,ih hsub,decide_eq_false hp,if_neg Bool.false_ne_true]

section
variable {linear runtimeId : ℕ}

lemma finalUpdate_single (cell : ℕ) :
    finalUpdate [(linear,runtimeId)] cell = if linear=cell then some runtimeId else none := by
  by_cases h : linear=cell
  · simp [finalUpdate,h]
  · simp [finalUpdate,h]

lemma finalValue_single (cell : ℕ → ℕ) : finalValue [(linear,runtimeId)] cell=update cell linear runtimeId := by
  funext l
  rw [finalValue,finalUpdate_single]
  by_cases h : l=linear
  · subst h
    simp
  · simp [h,Ne.symm h]

lemma referenceValues_single {palette : List ℕ} (hn : palette.Nodup) (finals : List ℕ) :
    referenceValues palette [(linear,runtimeId)] finals =
      pushNew (palette.filter fun v=>decide (v ∈ finals)) runtimeId := by
  rw [referenceValues,@foldl_pushNew_filter (· ∈ finals) _ palette [] (by simpa using hn)]
  simp [finalUpdate_single]

end

/-- Two cells hold one value exactly where they hold one slot. -/
lemma EditInv.cell_eq_iff (h : EditInv s edits slotAt cell) {l l' : ℕ} (hl : l<blocksPerSubChunk)
    (hl' : l'<blocksPerSubChunk) : cell l=cell l' ↔ slotAt l=slotAt l' := by
  obtain ⟨slot,hslot,hlive,hvalue,hindex⟩ := h.slot_eq hl
  obtain ⟨slot',hslot',hlive',hvalue',hindex'⟩ := h.slot_eq hl'
  constructor
  · intro hcell
    refine h.slots.live_inj _ _ slot slot' hslot hslot' hlive hlive' ?_
    rw [hindex,hindex',hcell]
  · intro hs
    rw [hs,hslot'] at hslot
    cases hslot
    rw [hvalue] at hvalue'
    exact Option.some.inj hvalue'

lemma EditInv.referenceValues_eq (h : EditInv s edits slotAt cell) {linear runtimeId : ℕ}
    (hl : linear<blocksPerSubChunk) (hne : cell linear≠runtimeId) {source : PaletteSlot}
    (hsource : edits.slots[slotAt linear]? = some source) :
    referenceValues s.palette [(linear,runtimeId)] (finalValues [(linear,runtimeId)] cell) =
      pushNew (if source.count=1 then s.palette.eraseIdx source.paletteIndex else s.palette)
        runtimeId := by
  rw [referenceValues_single h.nodup]
  congr 1
  have hmem : ∀ v, v ∈ finalValues [(linear,runtimeId)] cell ↔
      ∃ l<blocksPerSubChunk, update cell linear runtimeId l=v := by
    rw [finalValues,finalValue_single]
    simp
  obtain ⟨slot,hslot,hlive,hvalue,hindex⟩ := h.slot_eq hl
  rw [hsource] at hslot
  cases hslot
  -- Another value keeps its cells.
  have hother : ∀ v ∈ s.palette, v≠cell linear → v ∈ finalValues [(linear,runtimeId)] cell := by
    intro v hv hne
    obtain ⟨l,hlt,i,slot,hheld,hslot,hpi⟩ := h.slots.exists_cell (idxOf_lt_length_of_mem hv)
    cases hheld
    have hcell := h.shows l hlt
    rw [slotValue,hslot] at hcell
    change s.palette[slot.paletteIndex]? = _ at hcell
    rw [hpi,List.getElem?_eq_getElem (idxOf_lt_length_of_mem hv),getElem_idxOf] at hcell
    have hcl : cell l=v := (Option.some.inj hcell).symm
    refine (hmem v).2 ⟨l,hlt,?_⟩
    rw [update_of_ne,hcl]
    rintro rfl
    exact hne hcl.symm
  -- The old value is still used exactly where another cell holds its slot.
  have hold : cell linear ∈ finalValues [(linear,runtimeId)] cell ↔ source.count≠1 := by
    have hcount := @count_release (fun linear=>some (slotAt linear)) linear hl _ rfl (i := slotAt linear)
    rw [if_pos rfl,← h.slots.count _ source hsource] at hcount
    have hiff : source.count≠1 ↔ source.count-1≠0 := by omega
    rw [hiff,← hcount,cellCount_pos,hmem]
    refine exists_congr fun l=>and_congr_right fun hlt=>?_
    by_cases hll : l=linear
    · subst hll
      simp [Ne.symm hne]
    · rw [update_of_ne hll,update_of_ne hll,h.cell_eq_iff hlt hl, Option.some_inj]
  split_ifs with hone
  · rw [hindex,← erase_eq_eraseIdx_of_idxOf rfl,h.nodup.erase_eq_filter]
    refine filter_congr fun v hv=>?_
    rw [Bool.eq_iff_iff,decide_eq_true_iff,bne_iff_ne]
    constructor
    · rintro hfinal rfl
      exact hold.1 hfinal hone
    · exact hother v hv
  · rw [filter_eq_self]
    intro v hv
    rw [decide_eq_true_iff]
    by_cases hvc : v=cell linear
    · rw [hvc]
      exact hold.2 hone
    · exact hother v hv hvc

/-- The flag a patch recomputes is exact. -/
lemma all_zipIdx_direct (slots : List PaletteSlot) :
    (slots.zipIdx.all fun (slot,index)=>slot.count == 0 || index == slot.paletteIndex) = true ↔
      ∀ i entry, slotEntry slots i=some entry → entry=i := by
  rw [all_eq_true]
  constructor
  · intro hall i entry hentry
    obtain ⟨slot,hslot,hlive,rfl⟩ := slotEntry_eq_some.1 hentry
    have hmem : (slot,i) ∈ slots.zipIdx := List.mem_zipIdx_iff_getElem?.2 hslot
    have h := hall _ hmem
    simp only [Bool.or_eq_true,beq_iff_eq,hlive,false_or] at h
    exact h.symm
  · rintro hentry ⟨slot,i⟩ hmem
    have hslot := List.mem_zipIdx_iff_getElem?.1 hmem
    by_cases hlive : slot.count=0
    · simp [hlive]
    · simp [hentry i _ (slotEntry_eq_some.2 ⟨slot,hslot,hlive,rfl⟩)]

section

variable (h : EditInv s edits slotAt cell)
include h

lemma EditInv.release {linear : ℕ} (hl : linear<blocksPerSubChunk) :
    ∃ (source : PaletteSlot) (slots : List PaletteSlot) (values : List ℕ), edits.slots[slotAt linear]? = some source ∧
      releaseSlot edits.slots s.palette (slotAt linear) = some (decide (source.count=1),slots,values) ∧
      values = (if source.count=1 then s.palette.eraseIdx source.paletteIndex else s.palette) ∧
      slots.length=edits.slots.length ∧
      SlotInv slots values.length (update (fun l=>some (slotAt l)) linear none) ∧
      (∀ (i : ℕ) (slot : PaletteSlot), slots[i]? = some slot → slot.count≠0 →
        slotValue slots values i=slotValue edits.slots s.palette i) ∧
      (∀ (i : ℕ) (slot : PaletteSlot), edits.slots[i]? = some slot → slot.count≠0 →
        i≠slotAt linear → ∃ slot' : PaletteSlot, slots[i]? = some slot' ∧ slot'.count≠0) ∧
      (source.count≠1 → ∀ i, slotEntry slots i=slotEntry edits.slots i) := by
  obtain ⟨source,slots,hsource,-,hindex,hrelease,hget⟩ := releaseSlot_eq h.slots hl rfl
  have hlive : ∀ (i : ℕ) (slot : PaletteSlot), edits.slots[i]? = some slot → slot.count≠0 →
      i≠slotAt linear → ∃ slot' : PaletteSlot, slots[i]? = some slot' ∧ slot'.count≠0 := by
    intro i slot hslot hcount hi
    refine ⟨_,(hget i).trans (congrArg _ hslot),?_⟩
    rwa [releasedSlot_count,if_neg hi,Nat.sub_zero]
  refine ⟨source,slots,_,hsource,hrelease,rfl,(h.slots.released_held_lt linear hget).1,?_⟩
  by_cases hone : source.count=1
  · rw [if_pos hone] at hget ⊢
    obtain ⟨hinv,hvalue⟩ := h.slots.release_removed hl rfl hsource hone hget
    refine ⟨?_,hvalue s.palette,hlive,fun hne=>absurd hone hne⟩
    rwa [length_eraseIdx_of_lt hindex]
  · rw [if_neg hone] at hget ⊢
    obtain ⟨hinv,hentry,hvalue⟩ := h.slots.release_kept hl rfl hsource hone hget
    exact ⟨hinv,fun i _ _ _=>hvalue s.palette i,hlive,fun _=>hentry⟩

/-- The bookkeeping half of a patch: the cell leaves its slot and takes its new value's. -/
lemma EditInv.reslot {linear runtimeId : ℕ} (hl : linear<blocksPerSubChunk) (hne : cell linear≠runtimeId) :
    ∃ (destination : Option ℕ) (removed : Bool) (slots₁ slots₂ : List PaletteSlot) (values₁ values₂ : List ℕ) (d : ℕ),
      destinationSlot edits.slots s.palette runtimeId=some destination ∧
      releaseSlot edits.slots s.palette (slotAt linear) = some (removed,slots₁,values₁) ∧
      acquireSlot slots₁ values₁ destination runtimeId=some (d,slots₂,values₂) ∧
      values₂=referenceValues s.palette [(linear,runtimeId)] (finalValues [(linear,runtimeId)] cell) ∧
      edits.slots.length ≤ slots₂.length ∧
      SlotInv slots₂ values₂.length (fun l=>some (update slotAt linear d l)) ∧
      (∀ l<blocksPerSubChunk, slotValue slots₂ values₂ (update slotAt linear d l) =
        some (update cell linear runtimeId l)) ∧
      ((removed || destination.isNone) = false → values₂=s.palette ∧ slots₂.length=edits.slots.length ∧
          ∀ i, slotEntry slots₂ i=slotEntry edits.slots i) := by
  obtain ⟨source,slots₁,values₁,hsource,hrelease,hvalues₁,hlen₁,hinv₁,hvalue₁,hlive₁,hentry₁⟩ := h.release hl
  have href := h.referenceValues_eq hl hne hsource
  rw [← hvalues₁] at href
  have hnone : update (fun l=>some (slotAt l)) linear none linear=none := update_self ..
  have hheld : ∀ d, update (update (fun l=>some (slotAt l)) linear none) linear
      (some d) = fun l=>some (update slotAt linear d l) := by
    intro d
    rw [update_idem]
    exact (Function.comp_update some slotAt linear d).symm
  -- Every other cell's slot is still live.
  have hother : ∀ l<blocksPerSubChunk, l≠linear → ∃ slot : PaletteSlot, slots₁[slotAt l]? = some slot ∧ slot.count≠0 :=
    fun l hlt hll=>hinv₁.held_live hlt (update_of_ne hll ..)
  by_cases hmem : runtimeId ∈ s.palette
  · obtain ⟨d,target,hdest,htarget,hcount,hindex⟩ := destinationSlot_mem h hmem
    have hda : d≠slotAt linear := by
      rintro rfl
      obtain ⟨slot,hslot,-,hcell,-⟩ := h.slot_eq hl
      rw [htarget] at hslot
      cases hslot
      rw [hindex,List.getElem?_eq_getElem (idxOf_lt_length_of_mem hmem),getElem_idxOf] at hcell
      exact hne (Option.some.inj hcell).symm
    obtain ⟨target₁,htarget₁,hcount₁⟩ := hlive₁ d target htarget hcount hda
    obtain ⟨slots₂,hacquire,hlen₂,hinv₂,hentry₂,hvalue₂⟩ := acquireSlot_live hinv₁ hl hnone htarget₁ hcount₁ runtimeId
    have hvd : slotValue slots₁ values₁ d=some runtimeId := by
      rw [hvalue₁ d target₁ htarget₁ hcount₁,slotValue,htarget]
      change s.palette[target.paletteIndex]? = _
      rw [hindex,List.getElem?_eq_getElem (idxOf_lt_length_of_mem hmem),getElem_idxOf]
    have hmem₁ : runtimeId ∈ values₁ := by
      rw [slotValue,htarget₁] at hvd
      exact List.mem_of_getElem? hvd
    refine ⟨some d,_,slots₁,slots₂,values₁,values₁,d,hdest,hrelease,hacquire,?_,
      (hlen₂.trans hlen₁).ge,hheld d ▸ hinv₂,fun l hlt=>?_,fun hflag=>?_⟩
    · rw [href,pushNew,if_pos hmem₁]
    · by_cases hll : l=linear
      · rw [hll,update_self,update_self,hvalue₂,hvd]
      · obtain ⟨slot,hslot,hslot_live⟩ := hother l hlt hll
        rw [update_of_ne hll,update_of_ne hll,hvalue₂, hvalue₁ _ slot hslot hslot_live,h.shows l hlt]
    · have hone : source.count≠1 := by simpa using hflag
      rw [if_neg hone] at hvalues₁
      exact ⟨hvalues₁,hlen₂.trans hlen₁,fun i=>(hentry₂ i).trans (hentry₁ hone i)⟩
  · obtain ⟨d,slots₂,hacquire,hge,hinv₂,hvd,hvalue₂⟩ := acquireSlot_new hinv₁ hl hnone runtimeId
    have hmem₁ : runtimeId ∉ values₁ := by
      intro hin
      rw [hvalues₁] at hin
      split_ifs at hin
      · exact hmem (mem_of_mem_eraseIdx hin)
      · exact hmem hin
    refine ⟨none,_,slots₁,slots₂,values₁,_,d,destinationSlot_not_mem hmem,hrelease,hacquire,
      ?_,hlen₁ ▸ hge,hheld d ▸ hinv₂,fun l hlt=>?_,fun hflag=>?_⟩
    · rw [href,pushNew,if_neg hmem₁]
    · by_cases hll : l=linear
      · rw [hll,update_self,update_self,hvd]
      · obtain ⟨slot,hslot,hslot_live⟩ := hother l hlt hll
        rw [update_of_ne hll,update_of_ne hll,hvalue₂ _ slot hslot hslot_live,
          hvalue₁ _ slot hslot hslot_live,h.shows l hlt]
    · simp at hflag

/-- A patch shows exactly the rebuilt section and keeps the bookkeeping exact. -/
lemma EditInv.patchEdit_eq {linear runtimeId : ℕ} (hl : linear<blocksPerSubChunk)
    (hne : cell linear≠runtimeId) : ∃ s' edits' slotAt',
    s.patchEdit linear runtimeId=some s' ∧
    EditInv s' edits' slotAt' (update cell linear runtimeId) ∧
    s'.palette=referenceValues s.palette [(linear,runtimeId)]
      (finalValues [(linear,runtimeId)] cell) := by
  obtain ⟨destination,removed,slots₁,slots₂,values₁,values₂,d,hdest,hrelease,hacquire,
    hvalues,hge,hslots,hshows,hkept⟩ := h.reslot hl hne
  obtain ⟨words,hpromote,hpacked⟩ := promote_eq h.bits_eq h.packed
    (fun l hlt=>h.slots.held_lt l hlt _ rfl) hge hslots.length_le
  have hmem := bitsForPaletteLen_mem slots₂.length
  have hwrite := Packed.write hmem hpacked hl d
  have hd : d % 2^bitsForPaletteLen slots₂.length=d := by
    have hlt := hslots.held_lt linear hl d (by rw [update_self])
    refine Nat.mod_eq_of_lt (hlt.trans_le (le_two_pow_bitsFor ?_))
    exact hslots.length_le.trans (by norm_num [blocksPerSubChunk])
  rw [hd] at hwrite
  have hnodup : values₂.Nodup := hvalues ▸ referenceValues_nodup _ _
  let edits' : PaletteEdits := {
    slots := slots₂
    direct :=
      if removed || destination.isNone then
        decide (bitsForPaletteLen slots₂.length=bitsForPaletteLen values₂.length) &&
          slots₂.zipIdx.all fun (slot,index)=>slot.count == 0 || index == slot.paletteIndex
      else edits.direct
    canonicalWords := none }
  refine ⟨⟨bitsForPaletteLen slots₂.length,writeIndex (bitsForPaletteLen slots₂.length) words linear d,
    values₂,some edits'⟩,edits',update slotAt linear d,?_,
    ⟨rfl,rfl,hwrite,hslots,hnodup,hshows,?_,?_⟩,hvalues⟩
  · rw [patchEdit,h.physicalIndex_eq hl,h.edits_eq]
    simp only [Option.bind_eq_bind,Option.bind_some,hdest,hrelease,hacquire,hpromote,
      Packed.writePaletteIndex_eq hmem hpacked hl]
    rfl
  · dsimp only [edits']
    split_ifs with hchanged
    · rw [Bool.and_eq_true,decide_eq_true_iff,all_zipIdx_direct]
    · obtain ⟨hval,hlen,hentry⟩ := hkept (Bool.eq_false_of_not_eq_true hchanged)
      have hdirect := h.direct
      rw [hval,hlen]
      rw [h.bits_eq] at hdirect
      simpa only [hentry] using hdirect
  · intro words hwords
    exact absurd hwords (Option.some_ne_none words).symm

end

end Cinnabar.World
