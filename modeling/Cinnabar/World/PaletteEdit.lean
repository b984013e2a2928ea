import Cinnabar.World.PaletteSlots
import Cinnabar.World.PaletteBatch

/-! # Editable storages -/

namespace Cinnabar.World

open BitFields PalettedStorage List

/-- The edit bookkeeping is exact: `slotAt` are the packed slots and `cell` the values. -/
structure EditInv (s : PalettedStorage) (edits : PaletteEdits) (slotAt cell : ℕ → ℕ) : Prop where
  edits_eq : s.edits=some edits
  bits_eq : s.physicalBits=bitsForPaletteLen edits.slots.length
  packed : Packed s.physicalBits slotAt s.physicalWords
  slots : SlotInv edits.slots s.palette.length fun linear=>some (slotAt linear)
  nodup : s.palette.Nodup
  shows : ∀ linear<blocksPerSubChunk, slotValue edits.slots s.palette (slotAt linear) = some (cell linear)
  direct : edits.direct=true ↔ s.physicalBits=bitsForPaletteLen s.palette.length ∧
    ∀ i entry, slotEntry edits.slots i=some entry → entry=i
  cache : ∀ words, edits.canonicalWords=some words →
    words=packWords (bitsForPaletteLen s.palette.length) fun linear=>s.palette.idxOf (cell linear)

/-- A duplicate-free palette's entry is its value's only position. -/
lemma idxOf_eq_of_getElem? {values : List ℕ} (hn : values.Nodup) {i value : ℕ}
    (h : values[i]? = some value) : values.idxOf value=i := by
  obtain ⟨hi,rfl⟩ := List.getElem?_eq_some_iff.1 h
  exact hn.idxOf_getElem i hi

/-- A palette that fits its width has indices the width holds. -/
lemma idxOf_mod {values : List ℕ} (hlen : values.length≤blocksPerSubChunk) {value : ℕ} (hv : value ∈ values) :
    values.idxOf value % 2^bitsForPaletteLen values.length=values.idxOf value := by
  refine Nat.mod_eq_of_lt ((idxOf_lt_length_of_mem hv).trans_le (le_two_pow_bitsFor ?_))
  exact hlen.trans (by norm_num [blocksPerSubChunk])

namespace EditInv

variable {s : PalettedStorage} {edits : PaletteEdits} {slotAt cell : ℕ → ℕ}
  (h : EditInv s edits slotAt cell)
include h

variable {linear : ℕ}

/-- A cell's slot is live and stands for its value's palette entry. -/
lemma slot_eq (hl : linear<blocksPerSubChunk) : ∃ slot : PaletteSlot,
    edits.slots[slotAt linear]? = some slot ∧ slot.count≠0 ∧ s.palette[slot.paletteIndex]? = some (cell linear) ∧
      slot.paletteIndex=s.palette.idxOf (cell linear) := by
  obtain ⟨slot,hslot,hlive⟩ := h.slots.held_live hl rfl
  have hvalue := h.shows linear hl
  rw [slotValue,hslot] at hvalue
  exact ⟨slot,hslot,hlive,hvalue,(idxOf_eq_of_getElem? h.nodup hvalue).symm⟩

lemma physicalIndex_eq (hl : linear<blocksPerSubChunk) : s.physicalIndex linear=some (slotAt linear) := by
  rw [h.packed.physicalIndex_eq hl]
  split_ifs with hz
  · -- A uniform storage has one slot.
    rw [h.bits_eq,bitsForPaletteLen_eq_zero] at hz
    have hlt := h.slots.held_lt linear hl _ rfl
    rw [show slotAt linear=0 by omega]
  · rfl

lemma paletteIndex_eq (hl : linear<blocksPerSubChunk) : s.paletteIndex linear=some (s.palette.idxOf (cell linear)) := by
  obtain ⟨slot,hslot,hlive,-,hindex⟩ := h.slot_eq hl
  rw [paletteIndex,h.physicalIndex_eq hl,h.edits_eq]
  simp [hslot,hlive,hindex]

lemma cell_mem (hl : linear<blocksPerSubChunk) : cell linear ∈ s.palette := by
  obtain ⟨slot,-,-,hvalue,-⟩ := h.slot_eq hl
  exact List.mem_of_getElem? hvalue

lemma currentValue_eq (hl : linear<blocksPerSubChunk) : s.currentValue linear=some (cell linear) := by
  rw [currentValue,h.paletteIndex_eq hl]
  change s.palette[s.palette.idxOf (cell linear)]? = _
  rw [List.getElem?_eq_getElem (idxOf_lt_length_of_mem (h.cell_mem hl)),getElem_idxOf]

lemma bitsPerIndex_eq : s.bitsPerIndex=bitsForPaletteLen s.palette.length := by
  rw [bitsPerIndex,h.edits_eq]
  rfl

lemma direct_words (hdirect : edits.direct=true) :
    s.physicalWords=packWords (bitsForPaletteLen s.palette.length) fun linear =>
      s.palette.idxOf (cell linear) := by
  obtain ⟨hbits,hindex⟩ := h.direct.1 hdirect
  have hpacked := h.packed
  rw [hbits] at hpacked
  refine Packed.unique (bitsForPaletteLen_mem _) hpacked
    ((packed_packWords (bitsForPaletteLen_mem _) _).congr fun linear hl=>?_)
  obtain ⟨slot,hslot,hlive,-,hpi⟩ := h.slot_eq hl
  rw [idxOf_mod h.slots.size_le (h.cell_mem hl),← hpi]
  exact hindex _ _ (slotEntry_eq_some.2 ⟨slot,hslot,hlive,rfl⟩)

lemma packCanonical_eq : s.packCanonical=some (packWords (bitsForPaletteLen s.palette.length) fun linear =>
      s.palette.idxOf (cell linear)) := by
  rw [packCanonical,h.bitsPerIndex_eq]
  split_ifs with hz
  · rw [(packed_packWords (bitsForPaletteLen_mem _) _).zero hz]
  · refine (foldlM_write (bitsForPaletteLen_mem _) fun linear hl words=>?_).1
    rw [h.paletteIndex_eq hl]
    rfl

lemma words_eq : s.words=some (packWords (bitsForPaletteLen s.palette.length) fun linear =>
      s.palette.idxOf (cell linear)) := by
  rw [PalettedStorage.words,h.edits_eq]
  dsimp only
  split_ifs with hdirect
  · rw [h.direct_words hdirect]
  · cases hcache : edits.canonicalWords with
    | none => exact h.packCanonical_eq
    | some words => rw [← h.cache words hcache]

/-- Reading the words keeps the bookkeeping. -/
lemma observeWords_eq : ∃ s' edits', s.observeWords=some s' ∧ EditInv s' edits' slotAt cell ∧ s'.palette=s.palette := by
  rw [observeWords,h.edits_eq]
  dsimp only
  split_ifs with hdirect
  · exact ⟨s,edits,rfl,h,rfl⟩
  · rw [h.words_eq]
    refine ⟨_,_,rfl,⟨rfl,h.bits_eq,h.packed,h.slots,h.nodup,h.shows,h.direct,?_⟩,rfl⟩
    intro words hwords
    exact (Option.some.inj hwords).symm

end EditInv

lemma getElem?_newSlots {n : ℕ} (hn : n≤blocksPerSubChunk) (index : ℕ → ℕ) (i : ℕ) :
    (PaletteEdits.new (sectionCounts n index)).slots[i]? =
      if i<n then some ⟨i,cellCount index i⟩ else none := by
  rw [PaletteEdits.new,List.getElem?_map,List.getElem?_zipIdx,Nat.zero_add]
  split_ifs with hi
  · rw [getElem?_sectionCounts hi]
    have h16 : asU16 i=i := Nat.mod_eq_of_lt ((hi.trans_le hn).trans (by norm_num [blocksPerSubChunk]))
    simp [h16]
  · rw [List.getElem?_eq_none (by rw [length_sectionCounts]; omega)]
    rfl

lemma length_newSlots {n : ℕ} {index : ℕ → ℕ} : (PaletteEdits.new (sectionCounts n index)).slots.length=n := by
  rw [PaletteEdits.new,length_map,length_zipIdx,length_sectionCounts]

/-- Minimal, duplicate-free indices whose every entry has a cell are slots of their own. -/
lemma editInv_new {bits : ℕ} {words palette : List ℕ} {index cell : ℕ → ℕ}
    (hbits : bits=bitsForPaletteLen palette.length) (hpacked : Packed bits index words)
    (hnodup : palette.Nodup)
    (hcell : ∀ linear<blocksPerSubChunk, palette[index linear]? = some (cell linear))
    (hcounts : ∀ i<palette.length, cellCount index i≠0) :
    EditInv ⟨bits,words,palette,some (PaletteEdits.new (sectionCounts palette.length index))⟩
      (PaletteEdits.new (sectionCounts palette.length index)) index cell := by
  have hlen : palette.length≤blocksPerSubChunk := le_of_cellCount_pos (b := fun i=>i) (fun _ _ h=>h) hcounts
  have hget := getElem?_newSlots hlen index
  have hslot : ∀ (i : ℕ) (slot : PaletteSlot),
      (PaletteEdits.new (sectionCounts palette.length index)).slots[i]? = some slot →
      i<palette.length ∧ slot.paletteIndex=i ∧ slot.count=cellCount index i := by
    intro i slot hi
    rw [hget] at hi
    split_ifs at hi with hlt
    rw [← Option.some.inj hi]
    exact ⟨hlt,rfl,rfl⟩
  have hindex : ∀ linear<blocksPerSubChunk, index linear<palette.length := fun linear hl =>
    (List.getElem?_eq_some_iff.1 (hcell linear hl)).1
  refine ⟨rfl,by rw [length_newSlots,hbits],hpacked,⟨?_,?_,?_,?_,?_,?_⟩,hnodup,?_,?_,?_⟩
  · rw [length_newSlots]
    exact hlen
  · intro linear hl i hi
    rw [length_newSlots,← Option.some.inj hi]
    exact hindex linear hl
  · intro i slot hi
    rw [(hslot i slot hi).2.2]
    exact cellCount_congr fun _ _=>Option.some_inj.symm
  · intro i slot hi _
    rw [(hslot i slot hi).2.1]
    exact (hslot i slot hi).1
  · intro i j a b ha hb _ _ hab
    rwa [(hslot i a ha).2.1,(hslot j b hb).2.1] at hab
  · intro p hp
    exact ⟨p,⟨p,cellCount index p⟩,(hget p).trans (if_pos hp),hcounts p hp,rfl⟩
  · intro linear hl
    rw [slotValue,hget,if_pos (hindex linear hl)]
    exact hcell linear hl
  · refine ⟨fun _=>⟨hbits,fun i entry hentry=>?_⟩,fun _=>rfl⟩
    obtain ⟨slot,hi,-,rfl⟩ := slotEntry_eq_some.1 hentry
    exact (hslot i slot hi).2.1
  · intro words hwords
    exact absurd hwords (Option.some_ne_none words).symm

structure Decoded (s : PalettedStorage) (index : ℕ → ℕ) : Prop where
  edits_eq : s.edits=none
  bits_mem : s.physicalBits ∈ supportedBits
  length_eq : s.physicalWords.length=wordCount s.physicalBits
  word_lt : ∀ word ∈ s.physicalWords, word<2^32
  index_eq : ∀ linear<blocksPerSubChunk, s.paletteIndex linear=some (index linear)
  index_lt : ∀ linear<blocksPerSubChunk, index linear < s.palette.length

namespace Decoded

variable {s : PalettedStorage} {index : ℕ → ℕ} (h : Decoded s index)
include h

lemma physicalIndex_eq {linear : ℕ} (hl : linear<blocksPerSubChunk) : s.physicalIndex linear=some (index linear) := by
  have hindex := h.index_eq linear hl
  rw [paletteIndex,h.edits_eq] at hindex
  simpa using hindex

lemma index_zero (hz : s.physicalBits=0) {linear : ℕ} (hl : linear<blocksPerSubChunk) : index linear=0 := by
  have hindex := h.physicalIndex_eq hl
  rw [physicalIndex,if_neg (Nat.not_le.2 hl),if_pos hz] at hindex
  exact (Option.some.inj hindex).symm

lemma countCell_fold : (List.range blocksPerSubChunk).foldl s.countCell (true,List.replicate s.palette.length 0) =
      (true,sectionCounts s.palette.length index) := by
  rw [← countsOf_range]
  refine foldl_invariant (I := fun seen st=>st = (true,countsOf s.palette.length index seen)) (by rw [countsOf_nil]) ?_
  rintro pre linear post st hl rfl
  have hlt : linear<blocksPerSubChunk := mem_range.1 (by rw [hl]; simp)
  rw [countCell,h.index_eq linear hlt]
  dsimp only
  rw [getElem?_countsOf _ (h.index_lt linear hlt)]
  dsimp only
  rw [countsOf_step]

lemma packed (hpad : s.hasZeroPadding=true) : Packed s.physicalBits index s.physicalWords := by
  refine ⟨fun hz=>?_,fun hne=>⟨?_,fun k word hk=>?_,fun linear hl=>?_⟩⟩
  · have hlen := h.length_eq
    rw [wordCount,if_pos hz] at hlen
    exact eq_nil_of_length_eq_zero hlen
  · rw [h.length_eq,wordCount,if_neg hne]
  · have hall := hpad
    rw [hasZeroPadding,if_neg (not_not.2 h.length_eq),if_neg hne,all_eq_true] at hall
    have hmem : (word,k) ∈ s.physicalWords.zipIdx := by
      rw [List.mem_iff_getElem?]
      exact ⟨k,by rw [List.getElem?_zipIdx,hk]; simp⟩
    have hword := hall _ hmem
    simp only [Bool.or_eq_true,beq_iff_eq] at hword
    rcases hword with h32 | hzero
    · rw [h32]
      exact h.word_lt word (List.mem_of_getElem? hk)
    · rw [Nat.shiftRight_eq_div_pow] at hzero
      exact (Nat.div_eq_zero_iff.1 hzero).resolve_left (Nat.two_pow_pos _).ne'
  · have hindex := h.physicalIndex_eq hl
    rwa [physicalIndex,if_neg (Nat.not_le.2 hl),if_neg hne] at hindex

/-- A canonical storage adopts its own indices. -/
lemma canonicalCounts_eq {counts : List ℕ} (hcounts : s.canonicalCounts=some counts) :
    counts=sectionCounts s.palette.length index ∧ s.physicalBits=bitsForPaletteLen s.palette.length ∧
      Packed s.physicalBits index s.physicalWords ∧ s.palette.Nodup ∧
      ∀ i < s.palette.length, cellCount index i≠0 := by
  rw [canonicalCounts] at hcounts
  split_ifs at hcounts with hz hone
  · cases hcounts
    have hcount : cellCount index 0=blocksPerSubChunk := by
      rw [cellCount,countP_eq_length.2 fun linear hl=>?_,length_range]
      rw [h.index_zero hz (mem_range.1 hl)]
      rfl
    refine ⟨?_,?_,⟨fun _=>hone.2,fun hne=>absurd hz hne⟩,?_,fun i hi=>?_⟩
    · rw [hone.1,sectionCounts]
      simp [hcount]
    · rw [hz,eq_comm,bitsForPaletteLen_eq_zero,hone.1]
    · obtain ⟨v,hv⟩ := length_eq_one_iff.1 hone.1
      rw [hv]
      exact nodup_singleton v
    · rw [show i=0 by omega,hcount]
      norm_num [blocksPerSubChunk]
  · rw [h.countCell_fold] at hcounts
    dsimp only at hcounts
    split_ifs at hcounts with hall
    obtain ⟨-,-,hne,hnodup,hbits,hpad⟩ := hall
    refine ⟨(Option.some.inj hcounts).symm,hbits.symm,h.packed hpad,hnodup,?_⟩
    exact forall_sectionCounts.1 hne

end Decoded

end Cinnabar.World
