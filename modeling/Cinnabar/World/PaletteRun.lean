import Cinnabar.World.PalettePatch

/-! # Edited storages over whole histories -/

namespace Cinnabar.World

open BitFields PalettedStorage List

/-- A call on a storage. -/
inductive PaletteOp where
  | update (linear runtimeId : ℕ)
  | updates (updates : List (ℕ × ℕ))
  /-- Reading `words` materialises the canonical words. -/
  | words
deriving DecidableEq

namespace PalettedStorage

/-- One call, and whether it changed a cell. -/
def apply (s : PalettedStorage) : PaletteOp → Option (Bool × PalettedStorage)
  | .update linear runtimeId => s.applyRuntimeUpdate linear runtimeId
  | .updates updates => s.applyRuntimeUpdates updates
  | .words => s.observeWords.map fun s=>(false,s)

def applyReference (s : PalettedStorage) : PaletteOp → Option (Bool × PalettedStorage)
  | .update linear runtimeId => referenceUpdates s [(linear,runtimeId)]
  | .updates updates => referenceUpdates s updates
  | .words => some (false,s)

/-- A history of calls, with each call's flag. -/
def runOps (step : PalettedStorage → PaletteOp → Option (Bool × PalettedStorage))
    (s : PalettedStorage) : List PaletteOp → Option (List Bool × PalettedStorage)
  | [] => some ([],s)
  | op::ops => do
    let (flag,s) ← step s op
    let (flags,s) ← runOps step s ops
    return (flag::flags,s)

/-- A storage as the decoder leaves it: whole words of a supported width, and a palette entry for
every cell. -/
structure Valid (s : PalettedStorage) : Prop where
  edits_eq : s.edits=none
  bits_mem : s.physicalBits ∈ supportedBits
  length_eq : s.physicalWords.length=wordCount s.physicalBits
  word_lt : ∀ word ∈ s.physicalWords, word<2^32
  index_lt : ∀ linear<blocksPerSubChunk, ∃ index, s.physicalIndex linear=some index ∧ index < s.palette.length

structure SameShown (s r : PalettedStorage) : Prop where
  palette : s.palette=r.palette
  bitsPerIndex : s.bitsPerIndex=r.bitsPerIndex
  words : s.words=r.words
  words_some : s.words.isSome=true
  runtimeId : ∀ x y z, s.runtimeId x y z=r.runtimeId x y z
  runtimeId_some : ∀ x<16, ∀ y<16, ∀ z<16, (s.runtimeId x y z).isSome=true

structure SlotsExact (s : PalettedStorage) (edits : PaletteEdits) : Prop where
  count : ∀ (i : ℕ) (slot : PaletteSlot), edits.slots[i]? = some slot → slot.count=cellCount s.physicalIndex (some i)
  entry_lt : ∀ i entry, slotEntry edits.slots i=some entry → entry < s.palette.length
  entry : ∀ p < s.palette.length, ∃! i, slotEntry edits.slots i=some p
  direct : edits.direct=true ↔ s.physicalBits=s.bitsPerIndex ∧
    ∀ linear<blocksPerSubChunk, s.physicalIndex linear=s.paletteIndex linear

end PalettedStorage

lemma EditInv.slotsExact {s : PalettedStorage} {edits : PaletteEdits} {slotAt cell : ℕ → ℕ}
    (h : EditInv s edits slotAt cell) : s.SlotsExact edits := by
  refine ⟨fun i slot hslot=>?_,fun i entry hentry=>?_,fun p hp=>?_,?_⟩
  · rw [h.slots.count i slot hslot]
    refine cellCount_congr fun linear hl=>?_
    rw [h.physicalIndex_eq hl]
  · obtain ⟨slot,hslot,hlive,rfl⟩ := slotEntry_eq_some.1 hentry
    exact h.slots.live_lt i slot hslot hlive
  · obtain ⟨i,slot,hslot,hlive,hindex⟩ := h.slots.live_surj p hp
    refine ⟨i,slotEntry_eq_some.2 ⟨slot,hslot,hlive,hindex⟩,fun j hj=>?_⟩
    obtain ⟨slot',hslot',hlive',hindex'⟩ := slotEntry_eq_some.1 hj
    exact h.slots.live_inj j i slot' slot hslot' hslot hlive' hlive (hindex'.trans hindex.symm)
  · rw [h.direct,h.bitsPerIndex_eq]
    refine and_congr_right fun _=>⟨fun hentry linear hl=>?_,fun hsame i entry hentry=>?_⟩
    · obtain ⟨slot,hslot,hlive,-,hindex⟩ := h.slot_eq hl
      rw [h.physicalIndex_eq hl,h.paletteIndex_eq hl,← hindex, hentry _ _ (slotEntry_eq_some.2 ⟨slot,hslot,hlive,rfl⟩)]
    · obtain ⟨slot,hslot,hlive,rfl⟩ := slotEntry_eq_some.1 hentry
      have hcount := hlive
      rw [h.slots.count i slot hslot,cellCount_pos] at hcount
      obtain ⟨linear,hl,hheld⟩ := hcount
      cases hheld
      obtain ⟨slot',hslot',-,-,hindex⟩ := h.slot_eq hl
      rw [hslot] at hslot'
      cases hslot'
      have hphys := hsame linear hl
      rw [h.physicalIndex_eq hl,h.paletteIndex_eq hl] at hphys
      rw [hindex]
      exact (Option.some.inj hphys).symm

lemma PalettedStorage.Valid.decoded {s : PalettedStorage} (h : s.Valid) :
    Decoded s fun linear=>(s.paletteIndex linear).getD 0 := by
  have hindex : ∀ linear<blocksPerSubChunk, ∃ index, s.paletteIndex linear=some index ∧ index < s.palette.length := by
    intro linear hl
    obtain ⟨index,hphys,hlt⟩ := h.index_lt linear hl
    refine ⟨index,?_,hlt⟩
    rw [paletteIndex,h.edits_eq,hphys]
    rfl
  refine ⟨h.edits_eq,h.bits_mem,h.length_eq,h.word_lt,fun linear hl=>?_,fun linear hl=>?_⟩
  · obtain ⟨index,heq,-⟩ := hindex linear hl
    rw [heq]
    rfl
  · obtain ⟨index,heq,hlt⟩ := hindex linear hl
    rw [heq]
    exact hlt

lemma decoded_canonicalStorage {values : List ℕ} {index : ℕ → ℕ}
    (hlt : ∀ linear<blocksPerSubChunk, index linear<values.length) :
    Decoded (canonicalStorage values index) fun linear =>
      index linear % 2^bitsForPaletteLen values.length := by
  have hmem := bitsForPaletteLen_mem values.length
  have hpacked := packed_packWords hmem index
  have hlen : (packWords (bitsForPaletteLen values.length) index).length =
      wordCount (bitsForPaletteLen values.length) := by
    by_cases hz : bitsForPaletteLen values.length=0
    · rw [hpacked.zero hz,wordCount,if_pos hz]
      rfl
    · rw [(hpacked.packs hz).length,wordCount,if_neg hz]
  refine ⟨rfl,hmem,hlen,fun word hword=>?_,fun linear hl=>?_,fun linear hl=>?_⟩
  · by_cases hz : bitsForPaletteLen values.length=0
    · change word ∈ packWords (bitsForPaletteLen values.length) index at hword
      rw [hpacked.zero hz] at hword
      exact absurd hword not_mem_nil
    · obtain ⟨k,hk⟩ := List.mem_iff_getElem?.1 hword
      refine ((hpacked.packs hz).padding k word hk).trans_le (Nat.pow_le_pow_right (by omega) ?_)
      exact (Nat.mul_le_mul_right _ (min_le_right _ _)).trans perWord_mul_le
  · have hphys : (canonicalStorage values index).physicalIndex linear=_ := Packed.physicalIndex_eq hpacked hl
    rw [paletteIndex,hphys]
    change some (if bitsForPaletteLen values.length=0 then 0 else _) = _
    split_ifs with hz
    · rw [hz,Nat.pow_zero,Nat.mod_one]
    · rfl
  · exact (Nat.mod_le _ _).trans_lt (hlt linear hl)

/-- An edited storage beside the reference: the same storage, or stable slots that show it. -/
structure Agrees (s r : PalettedStorage) (index cell : ℕ → ℕ) : Prop where
  decoded : Decoded r index
  cell_eq : ∀ linear<blocksPerSubChunk, r.palette[index linear]? = some (cell linear)
  state : s=r ∨ (s.palette=r.palette ∧ s.bitsPerIndex=r.bitsPerIndex ∧ s.words=r.words ∧
    ∃ edits slotAt, EditInv s edits slotAt cell)

lemma agrees_canonicalStorage {values : List ℕ} (hn : values.Nodup) {position : ℕ → ℕ}
    (hlt : ∀ linear<blocksPerSubChunk, position linear<values.length) : ∃ index cell,
    Agrees { canonicalStorage values position with edits := adoptedEdits values position }
      (canonicalStorage values position) index cell := by
  have hdecoded := decoded_canonicalStorage hlt
  refine ⟨_,fun linear=>(values[position linear % 2^bitsForPaletteLen values.length]?).getD 0,
    hdecoded,fun linear hl=>?_,?_⟩
  · have hindex : position linear % 2^bitsForPaletteLen values.length<values.length := hdecoded.index_lt linear hl
    change values[position linear % 2^bitsForPaletteLen values.length]? = _
    rw [List.getElem?_eq_getElem hindex]
    rfl
  · by_cases hall : (sectionCounts values.length position).all (· != 0) = true
    · refine .inr ⟨rfl,?_,?_,PaletteEdits.new (sectionCounts values.length position),position,?_⟩
      · rw [adoptedEdits,if_pos hall]
        rfl
      · rw [adoptedEdits,if_pos hall]
        rfl
      · have hcounts : ∀ i<values.length, cellCount position i≠0 := by
          rw [all_eq_true] at hall
          exact forall_sectionCounts.1 fun count hcount=>by simpa using hall count hcount
        have hlen : values.length≤blocksPerSubChunk := le_of_cellCount_pos (b := fun i=>i) (fun _ _ h=>h) hcounts
        have hmod : ∀ linear<blocksPerSubChunk,
            position linear % 2^bitsForPaletteLen values.length=position linear := by
          intro linear hl
          refine Nat.mod_eq_of_lt ((hlt linear hl).trans_le (le_two_pow_bitsFor ?_))
          exact hlen.trans (by norm_num [blocksPerSubChunk])
        rw [adoptedEdits,if_pos hall]
        refine editInv_new rfl ((packed_packWords (bitsForPaletteLen_mem values.length) position).congr hmod) hn
          (fun linear hl=>?_) hcounts
        change values[position linear]? = _
        rw [hmod linear hl,List.getElem?_eq_getElem (hlt linear hl)]
        rfl
    · refine .inl ?_
      rw [adoptedEdits,if_neg hall]
      rfl

namespace Agrees

variable {s r : PalettedStorage} {index cell : ℕ → ℕ} (h : Agrees s r index cell)
include h

lemma palette_eq : s.palette=r.palette := by
  rcases h.state with rfl | ⟨hpalette,-⟩
  · rfl
  · exact hpalette

variable {linear : ℕ}

lemma reference_currentValue (hl : linear<blocksPerSubChunk) : r.currentValue linear=some (cell linear) := by
  rw [currentValue,h.decoded.index_eq linear hl]
  exact h.cell_eq linear hl

lemma currentValue_eq (hl : linear<blocksPerSubChunk) : s.currentValue linear=some (cell linear) := by
  rcases h.state with rfl | ⟨-,-,-,edits,slotAt,hinv⟩
  · exact h.reference_currentValue hl
  · exact hinv.currentValue_eq hl

lemma cell_mem (hl : linear<blocksPerSubChunk) : cell linear ∈ r.palette :=
  List.mem_of_getElem? (h.cell_eq linear hl)

lemma exists_paletteIndex (hl : linear<blocksPerSubChunk) : ∃ i,
    s.paletteIndex linear=some i ∧ i < s.palette.length ∧ s.palette[i]? = some (cell linear) := by
  have hvalue := h.currentValue_eq hl
  obtain ⟨i,hindex,hget⟩ := Option.bind_eq_some_iff.1 hvalue
  exact ⟨i,hindex,(List.getElem?_eq_some_iff.1 hget).1,hget⟩

/-- A batch leaves what the reference leaves. -/
lemma applyRuntimeUpdates (updates : List (ℕ × ℕ)) : ∃ flag s' r' index' cell',
    s.applyRuntimeUpdates updates=some (flag,s') ∧
    referenceUpdates r updates=some (flag,r') ∧ Agrees s' r' index' cell' := by
  have hcell : ∀ linear<blocksPerSubChunk, cell linear ∈ s.palette := fun linear hl=>h.palette_eq ▸ h.cell_mem hl
  have hrun := applyRuntimeUpdates_eq updates (fun _ hl=>h.currentValue_eq hl) hcell
  have href := referenceUpdates_eq updates (fun _ hl=>h.reference_currentValue hl) fun _ hl=>h.cell_mem hl
  by_cases hsame : ∀ linear<blocksPerSubChunk, finalValue updates cell linear=cell linear
  · rw [if_pos hsame] at hrun href
    exact ⟨false,s,r,index,cell,hrun,href,h⟩
  · rw [if_neg hsame] at hrun href
    rw [h.palette_eq] at hrun
    have hposition := fun linear (hl : linear<blocksPerSubChunk) =>
      idxOf_lt_length_of_mem (finalValue_mem updates (fun _ hl=>h.cell_mem hl) hl)
    obtain ⟨index',cell',h'⟩ := agrees_canonicalStorage (referenceValues_nodup _ _) hposition
    exact ⟨true,_,_,index',cell',hrun,href,h'⟩

variable {edits : PaletteEdits}

lemma patchEdit {slotAt : ℕ → ℕ} {s₀ : PalettedStorage}
    (hinv : EditInv s₀ edits slotAt cell) (hpalette : s₀.palette=r.palette) {linear runtimeId : ℕ}
    (hl : linear<blocksPerSubChunk) (hne : cell linear≠runtimeId) : ∃ s' r' index' cell',
    s₀.patchEdit linear runtimeId=some s' ∧
    referenceUpdates r [(linear,runtimeId)] = some (true,r') ∧ Agrees s' r' index' cell' := by
  obtain ⟨s',edits',slotAt',hrun,hinv',hvalues⟩ := hinv.patchEdit_eq hl hne
  have href := referenceUpdates_eq [(linear,runtimeId)] (fun _ hl=>h.reference_currentValue hl) fun _ hl=>h.cell_mem hl
  have hchanged : ¬ ∀ l<blocksPerSubChunk, finalValue [(linear,runtimeId)] cell l=cell l := by
    intro hsame
    have hlinear := hsame linear hl
    rw [finalValue_single,Function.update_self] at hlinear
    exact hne hlinear.symm
  rw [hpalette] at hvalues
  rw [if_neg hchanged,batchStorage,← hvalues,finalValue_single] at href
  have hlt : ∀ l<blocksPerSubChunk, s'.palette.idxOf (Function.update cell linear runtimeId l) < s'.palette.length :=
    fun l hlt=>idxOf_lt_length_of_mem (hinv'.cell_mem hlt)
  refine ⟨s',_,_,Function.update cell linear runtimeId,hrun,href,
    decoded_canonicalStorage hlt,fun l hl=>?_,.inr ⟨rfl,?_,?_,edits',slotAt',hinv'⟩⟩
  · rw [idxOf_mod hinv'.slots.size_le (hinv'.cell_mem hl)]
    change s'.palette[_]? = _
    rw [List.getElem?_eq_getElem (hlt l hl),getElem_idxOf]
  · rw [hinv'.bitsPerIndex_eq]
    rfl
  · rw [hinv'.words_eq]
    rfl

/-- A single edit leaves what the reference leaves. -/
lemma applyRuntimeUpdate (linear runtimeId : ℕ) : ∃ flag s' r' index' cell',
    s.applyRuntimeUpdate linear runtimeId=some (flag,s') ∧
    referenceUpdates r [(linear,runtimeId)] = some (flag,r') ∧ Agrees s' r' index' cell' := by
  by_cases hl : linear<blocksPerSubChunk
  · obtain ⟨i,hindex,hi,hvalue⟩ := h.exists_paletteIndex hl
    rw [PalettedStorage.applyRuntimeUpdate,hindex,Option.filter_some,if_pos (by simpa using hi)]
    dsimp only
    rw [hvalue,Option.bind_eq_bind,Option.bind_some]
    by_cases hsame : cell linear=runtimeId
    · rw [if_pos hsame]
      refine ⟨false,s,r,index,cell,rfl,?_,h⟩
      rw [referenceUpdates_eq _ (fun _ hl=>h.reference_currentValue hl) fun _ hl=>h.cell_mem hl, if_pos]
      intro l _
      rw [finalValue_single,← hsame,Function.update_eq_self]
    · rw [if_neg hsame]
      rcases h.state with rfl | ⟨hpalette,-,-,edits,slotAt,hinv⟩
      · rw [h.decoded.edits_eq]
        cases hcounts : s.canonicalCounts with
        | none => exact h.applyRuntimeUpdates _
        | some counts =>
          obtain ⟨rfl,hbits,hpacked,hn,hne⟩ := h.decoded.canonicalCounts_eq hcounts
          have hinv := editInv_new hbits hpacked hn h.cell_eq hne
          obtain ⟨s',r',index',cell',hrun,href,h'⟩ := h.patchEdit hinv rfl hl hsame
          refine ⟨true,s',r',index',cell',?_,href,h'⟩
          dsimp only
          rw [hrun]
          rfl
      · obtain ⟨s',r',index',cell',hrun,href,h'⟩ := h.patchEdit hinv hpalette hl hsame
        refine ⟨true,s',r',index',cell',?_,href,h'⟩
        rw [hinv.edits_eq]
        rw [hrun]
        rfl
  · have hnone : s.paletteIndex linear=none := by
      rw [paletteIndex,physicalIndex,if_pos (Nat.le_of_not_lt hl)]
      rfl
    rw [PalettedStorage.applyRuntimeUpdate,hnone]
    exact h.applyRuntimeUpdates _

lemma observeWords : ∃ s', s.observeWords=some s' ∧ Agrees s' r index cell := by
  rcases h.state with rfl | ⟨hpalette,hbits,hwords,edits,slotAt,hinv⟩
  · refine ⟨s,?_,h⟩
    rw [PalettedStorage.observeWords,h.decoded.edits_eq]
  · obtain ⟨s',edits',hrun,hinv',hpalette'⟩ := hinv.observeWords_eq
    refine ⟨s',hrun,h.decoded,h.cell_eq,.inr ⟨hpalette'.trans hpalette,?_,?_,edits',slotAt,hinv'⟩⟩
    · rw [hinv'.bitsPerIndex_eq,hpalette',← hinv.bitsPerIndex_eq,hbits]
    · rw [hinv'.words_eq,hpalette',← hinv.words_eq,hwords]

lemma apply (op : PaletteOp) : ∃ flag s' r' index' cell', s.apply op=some (flag,s') ∧
    r.applyReference op=some (flag,r') ∧ Agrees s' r' index' cell' := by
  cases op with
  | update linear runtimeId => exact h.applyRuntimeUpdate linear runtimeId
  | updates updates => exact h.applyRuntimeUpdates updates
  | words =>
    obtain ⟨s',hrun,h'⟩ := h.observeWords
    refine ⟨false,s',r,index,cell,?_,rfl,h'⟩
    rw [PalettedStorage.apply,hrun]
    rfl

/-- A history keeps the agreement. -/
lemma runOps (ops : List PaletteOp) : ∃ flags s' r' index' cell',
    PalettedStorage.runOps PalettedStorage.apply s ops=some (flags,s') ∧
    PalettedStorage.runOps applyReference r ops=some (flags,r') ∧ Agrees s' r' index' cell' := by
  induction ops generalizing s r index cell with
  | nil => exact ⟨[],s,r,index,cell,rfl,rfl,h⟩
  | cons op ops ih =>
    obtain ⟨flag,s₁,r₁,index₁,cell₁,hs₁,hr₁,h₁⟩ := h.apply op
    obtain ⟨flags,s',r',index',cell',hs',hr',h'⟩ := ih h₁
    refine ⟨flag::flags,s',r',index',cell',?_,?_,h'⟩
    · rw [PalettedStorage.runOps,hs₁]
      change (PalettedStorage.runOps PalettedStorage.apply s₁ ops).bind _=_
      rw [hs']
      rfl
    · rw [PalettedStorage.runOps,hr₁]
      change (PalettedStorage.runOps applyReference r₁ ops).bind _=_
      rw [hr']
      rfl

omit h in
lemma runtimeId_eq_currentValue {s : PalettedStorage} {x y z : ℕ} (hx : x<16) (hy : y<16)
    (hz : z<16) : s.runtimeId x y z=s.currentValue (x <<< 8 ||| z <<< 4 ||| y) := by
  rw [runtimeId,if_neg (by omega)]
  rfl

omit h in
lemma linear_lt {x y z : ℕ} (hx : x<16) (hy : y<16) (hz : z<16) : x <<< 8 ||| z <<< 4 ||| y<blocksPerSubChunk := by
  rw [show blocksPerSubChunk=2^12 from rfl]
  refine Nat.or_lt_two_pow (Nat.or_lt_two_pow ?_ ?_) ?_
  · rw [Nat.shiftLeft_eq]
    omega
  · rw [Nat.shiftLeft_eq]
    omega
  · omega

lemma sameShown : SameShown s r := by
  have hruntime : ∀ x<16, ∀ y<16, ∀ z<16, s.runtimeId x y z=some (cell (x <<< 8 ||| z <<< 4 ||| y)) ∧
        r.runtimeId x y z=s.runtimeId x y z := by
    intro x hx y hy z hz
    rw [runtimeId_eq_currentValue hx hy hz,runtimeId_eq_currentValue hx hy hz,
      h.currentValue_eq (linear_lt hx hy hz),h.reference_currentValue (linear_lt hx hy hz)]
    exact ⟨rfl,rfl⟩
  have hid : ∀ x y z, s.runtimeId x y z=r.runtimeId x y z := by
    intro x y z
    by_cases hout : 16≤x ∨ 16≤y ∨ 16≤z
    · rw [runtimeId,runtimeId,if_pos hout,if_pos hout]
    · exact (hruntime x (by omega) y (by omega) z (by omega)).2.symm
  have hrwords : r.words.isSome=true := by
    rw [PalettedStorage.words,h.decoded.edits_eq]
    rfl
  have hsome : ∀ x<16, ∀ y<16, ∀ z<16, (s.runtimeId x y z).isSome=true := by
    intro x hx y hy z hz
    rw [(hruntime x hx y hy z hz).1]
    rfl
  rcases h.state with rfl | ⟨hpalette,hbits,hwords,-⟩
  · exact ⟨rfl,rfl,rfl,hrwords,hid,hsome⟩
  · exact ⟨hpalette,hbits,hwords,hwords ▸ hrwords,hid,hsome⟩

lemma slotsExact (hedits : s.edits=some edits) : s.SlotsExact edits := by
  rcases h.state with rfl | ⟨-,-,-,edits',slotAt,hinv⟩
  · rw [h.decoded.edits_eq] at hedits
    cases hedits
  · rw [hinv.edits_eq] at hedits
    cases hedits
    exact hinv.slotsExact

end Agrees

/-- Any history of edits on a valid storage never fails, reports and shows what the reference does,
and keeps the slot bookkeeping exact. -/
theorem lazyEdits_refine_rebuild {s : PalettedStorage} (hs : s.Valid) (ops : List PaletteOp) :
    ∃ flags s' r', runOps PalettedStorage.apply s ops=some (flags,s') ∧
      runOps applyReference s ops=some (flags,r') ∧ SameShown s' r' ∧
      ∀ edits, s'.edits = some edits → s'.SlotsExact edits := by
  have hdecoded := hs.decoded
  have hcell : ∀ linear < blocksPerSubChunk, s.palette[(s.paletteIndex linear).getD 0]? =
      some ((s.palette[(s.paletteIndex linear).getD 0]?).getD 0) := by
    intro linear hl
    rw [List.getElem?_eq_getElem (hdecoded.index_lt linear hl)]
    rfl
  have h : Agrees s s _ _ := ⟨hdecoded,hcell,.inl rfl⟩
  obtain ⟨flags,s',r',index',cell',hrun,href,h'⟩ := h.runOps ops
  exact ⟨flags,s',r',hrun,href,h'.sameShown,fun edits hedits => h'.slotsExact hedits⟩

/-- Death and revival of values on a uniform storage. -/
theorem lazyEdits_refine_rebuild_uniform : ∃ flags s' r',
    runOps PalettedStorage.apply (.uniform 7) [.update 0 9,.words,.updates [(0,7),(1,9),(1,8)],
      .update 1 7] = some (flags,s') ∧
    runOps applyReference (.uniform 7) [.update 0 9,.words,.updates [(0,7),(1,9),(1,8)],
      .update 1 7] = some (flags,r') ∧ SameShown s' r' ∧
    ∀ edits, s'.edits = some edits → s'.SlotsExact edits := by
  refine lazyEdits_refine_rebuild ⟨rfl,by decide,rfl,fun word hword => ?_,fun linear hl => ?_⟩ _
  · exact absurd hword List.not_mem_nil
  · refine ⟨0,?_,Nat.zero_lt_one⟩
    rw [physicalIndex,if_neg (Nat.not_le.2 hl)]
    rfl

end Cinnabar.World
