import Cinnabar.World.PalettePack

/-! # A batch is its position-by-position definition -/

namespace Cinnabar.World

open BitFields PalettedStorage List

section

variable (updates : List (ℕ × ℕ))

def finalUpdate (linear : ℕ) : Option ℕ :=
  (updates.reverse.find? fun update=>update.1 == linear).map (·.2)

/-- Appends a value the palette lacks. -/
def pushNew (values : List ℕ) (value : ℕ) : List ℕ :=
  if value ∈ values then values else values ++ [value]

def referenceValues (palette : List ℕ) (updates : List (ℕ × ℕ)) (finals : List ℕ) : List ℕ :=
  let survivors := palette.foldl (fun values value=>if value ∈ finals then pushNew values value else values) []
  updates.foldl (fun values update =>
    if finalUpdate updates update.1=some update.2 then pushNew values update.2 else values) survivors

def PalettedStorage.valueAt (s : PalettedStorage) (updates : List (ℕ × ℕ)) (linear : ℕ) : Option ℕ :=
  match finalUpdate updates linear with
  | some value => some value
  | none => s.currentValue linear

/-- The position-by-position definition of a batch. -/
def referenceBatch (s : PalettedStorage) (updates : List (ℕ × ℕ)) : Option PalettedStorage := do
  let finals ← (List.range blocksPerSubChunk).mapM (s.valueAt updates)
  let values := referenceValues s.palette updates finals
  let bits := bitsForPaletteLen values.length
  let words ← (List.range blocksPerSubChunk).foldlM (fun words linear=>do
    let value ← finals[linear]?
    let index ← values.findIdx? (· == value)
    writePaletteIndex words bits linear index) (List.replicate (wordCount bits) 0)
  return .new bits words values

/-- A batch that changes no cell leaves the storage as it is. -/
def referenceUpdates (s : PalettedStorage) (updates : List (ℕ × ℕ)) :
    Option (Bool × PalettedStorage) := do
  let finals ← (List.range blocksPerSubChunk).mapM (s.valueAt updates)
  let currents ← (List.range blocksPerSubChunk).mapM s.currentValue
  if finals=currents then return (false,s)
  else return (true,← referenceBatch s updates)

lemma finalUpdates_eq (linear : ℕ) : finalUpdates updates linear=finalUpdate updates linear := by
  induction updates using List.reverseRecOn with
  | nil => rfl
  | append_singleton updates update ih =>
    rw [finalUpdates,foldl_append] at *
    simp only [foldl_cons,foldl_nil,finalUpdate,reverse_append, reverse_singleton,singleton_append,List.find?_cons]
    by_cases h : update.1=linear
    · simp [h]
    · rw [Function.update_of_ne (Ne.symm h),ih,finalUpdate,beq_false_of_ne h]

def finalValue (cell : ℕ → ℕ) (linear : ℕ) : ℕ :=
  (finalUpdate updates linear).getD (cell linear)

abbrev finalValues (cell : ℕ → ℕ) : List ℕ :=
  (List.range blocksPerSubChunk).map (finalValue updates cell)

end

def canonicalStorage (values : List ℕ) (index : ℕ → ℕ) : PalettedStorage :=
  .new (bitsForPaletteLen values.length) (packWords (bitsForPaletteLen values.length) index) values

def batchStorage (palette : List ℕ) (updates : List (ℕ × ℕ)) (cell : ℕ → ℕ) : PalettedStorage :=
  let values := referenceValues palette updates (finalValues updates cell)
  canonicalStorage values fun linear=>values.idxOf (finalValue updates cell linear)

section Values
variable {values : List ℕ} {value : ℕ}

lemma mem_pushNew {v : ℕ} : v ∈ pushNew values value ↔ v ∈ values ∨ v=value := by
  unfold pushNew
  split_ifs with h
  · exact ⟨.inl,fun hv=>hv.elim id fun he=>he ▸ h⟩
  · simp

lemma nodup_pushNew (h : values.Nodup) : (pushNew values value).Nodup := by
  unfold pushNew
  split_ifs with hm
  · exact h
  · exact nodup_append.2 ⟨h,nodup_singleton _,fun a ha b hb=>by
      rw [mem_singleton.1 hb]
      exact fun he=>hm (he ▸ ha)⟩

/-- A loop that pushes some of its values keeps the palette duplicate-free and ends with them. -/
lemma foldl_pushNew {α : Type} (p : α → Prop) [DecidablePred p] (f : α → ℕ) (l : List α) (h : values.Nodup) :
    (l.foldl (fun values a=>if p a then pushNew values (f a) else values) values).Nodup ∧
      ∀ v, v ∈ l.foldl (fun values a=>if p a then pushNew values (f a) else values) values ↔
        v ∈ values ∨ ∃ a ∈ l, p a ∧ f a=v := by
  induction l generalizing values with
  | nil => simpa using h
  | cons a l ih =>
    have hstep : (if p a then pushNew values (f a) else values).Nodup := by
      split_ifs
      · exact nodup_pushNew h
      · exact h
    refine ⟨(ih hstep).1,fun v=>?_⟩
    rw [foldl_cons,(ih hstep).2 v]
    split_ifs with hp
    · rw [mem_pushNew]
      constructor
      · rintro ((hv | rfl) | ⟨b,hb,hpb⟩)
        · exact .inl hv
        · exact .inr ⟨a,.head _,hp,rfl⟩
        · exact .inr ⟨b,.tail _ hb,hpb⟩
      · rintro (hv | ⟨b,hb,hpb,rfl⟩)
        · exact .inl (.inl hv)
        · rcases mem_cons.1 hb with rfl | hb
          · exact .inl (.inr rfl)
          · exact .inr ⟨b,hb,hpb,rfl⟩
    · constructor
      · rintro (hv | ⟨b,hb,hpb⟩)
        · exact .inl hv
        · exact .inr ⟨b,.tail _ hb,hpb⟩
      · rintro (hv | ⟨b,hb,hpb,rfl⟩)
        · exact .inl hv
        · rcases mem_cons.1 hb with rfl | hb
          · exact absurd hpb hp
          · exact .inr ⟨b,hb,hpb,rfl⟩

end Values

section
variable {palette : List ℕ} (updates : List (ℕ × ℕ)) {cell : ℕ → ℕ}

lemma referenceValues_nodup (finals : List ℕ) : (referenceValues palette updates finals).Nodup :=
  (foldl_pushNew _ _ _ (foldl_pushNew _ (fun v=>v) _ nodup_nil).1).1

lemma mem_referenceValues {finals : List ℕ} {v : ℕ} : v ∈ referenceValues palette updates finals ↔
    (v ∈ palette ∧ v ∈ finals) ∨
      ∃ update ∈ updates, finalUpdate updates update.1=some update.2 ∧ update.2=v := by
  have hs := foldl_pushNew (· ∈ finals) (fun v=>v) palette nodup_nil
  rw [referenceValues,(foldl_pushNew _ _ updates hs.1).2 v,hs.2 v]
  simp

lemma finalUpdate_mem {linear value : ℕ} (h : finalUpdate updates linear=some value) : (linear,value) ∈ updates := by
  obtain ⟨⟨l,v⟩,hfind,rfl⟩ := Option.map_eq_some_iff.1 h
  have hmem := mem_reverse.1 (List.mem_of_find?_eq_some hfind)
  have hp := List.find?_some hfind
  rw [beq_iff_eq] at hp
  exact hp ▸ hmem

lemma finalValue_mem (hcell : ∀ linear<blocksPerSubChunk, cell linear ∈ palette) {linear : ℕ}
    (hl : linear<blocksPerSubChunk) :
    finalValue updates cell linear ∈ referenceValues palette updates (finalValues updates cell) := by
  rw [mem_referenceValues]
  have hmem : finalValue updates cell linear ∈ finalValues updates cell := mem_map_of_mem (mem_range.2 hl)
  cases h : finalUpdate updates linear with
  | none =>
    refine .inl ⟨?_,hmem⟩
    rw [finalValue,h]
    exact hcell linear hl
  | some value =>
    refine .inr ⟨(linear,value),finalUpdate_mem updates h,h,?_⟩
    rw [finalValue,h]
    rfl

end

lemma mapM_range_eq {f : ℕ → Option ℕ} {g : ℕ → ℕ} (h : ∀ linear<blocksPerSubChunk, f linear=some (g linear)) :
    (List.range blocksPerSubChunk).mapM f=some ((List.range blocksPerSubChunk).map g) := by
  have hl : ∀ l : List ℕ, (∀ a ∈ l, f a=some (g a)) → l.mapM f=some (l.map g) := by
    intro l
    induction l with
    | nil => exact fun _=>rfl
    | cons a l ih =>
      intro ha
      rw [mapM_cons,ha a (.head _),ih fun b hb=>ha b (.tail _ hb)]
      rfl
  exact hl _ fun a ha=>h a (mem_range.1 ha)

lemma findIdx?_beq {values : List ℕ} {value : ℕ} (h : value ∈ values) :
    values.findIdx? (· == value) = some (values.idxOf value) :=
  List.findIdx?_eq_some_of_exists ⟨value,h,beq_self_eq_true value⟩

section
variable {s : PalettedStorage} (updates : List (ℕ × ℕ)) {cell : ℕ → ℕ}
  (hs : ∀ linear<blocksPerSubChunk, s.currentValue linear=some (cell linear))
include hs

lemma valueAt_eq {linear : ℕ} (hl : linear<blocksPerSubChunk) :
    s.valueAt updates linear=some (finalValue updates cell linear) := by
  rw [PalettedStorage.valueAt,finalValue]
  cases finalUpdate updates linear with
  | none => exact hs linear hl
  | some value => rfl

lemma referenceBatch_eq (hcell : ∀ linear<blocksPerSubChunk, cell linear ∈ s.palette) :
    referenceBatch s updates=some (batchStorage s.palette updates cell) := by
  rw [referenceBatch,mapM_range_eq fun linear hl=>valueAt_eq updates hs hl,Option.bind_eq_bind, Option.bind_some]
  dsimp only
  rw [(foldlM_write (bitsForPaletteLen_mem _)
    (f := fun linear=>(referenceValues s.palette updates (finalValues updates cell)).idxOf
      (finalValue updates cell linear)) ?_).1]
  · rfl
  · intro linear hl words
    rw [List.getElem?_map,List.getElem?_range hl,Option.map_some,Option.bind_eq_bind,
      Option.bind_some,findIdx?_beq (finalValue_mem updates hcell hl)]
    rfl

lemma referenceUpdates_eq (hcell : ∀ linear<blocksPerSubChunk, cell linear ∈ s.palette) :
    referenceUpdates s updates = if ∀ linear<blocksPerSubChunk, finalValue updates cell linear=cell linear then
        some (false,s)
      else some (true,batchStorage s.palette updates cell) := by
  rw [referenceUpdates,mapM_range_eq fun linear hl=>valueAt_eq updates hs hl,mapM_range_eq hs,
    referenceBatch_eq updates hs hcell]
  have hiff : (List.range blocksPerSubChunk).map (finalValue updates cell) = (List.range blocksPerSubChunk).map cell ↔
      ∀ linear<blocksPerSubChunk, finalValue updates cell linear=cell linear := by
    rw [map_inj_left]
    simp only [mem_range]
  simp only [Option.bind_eq_bind,Option.bind_some,hiff]
  rfl

end

def NumberingOf (values : List ℕ) (n : Numbering) : Prop :=
  n.values=values ∧ ∀ value, n.valueIndices value = if value ∈ values then some (values.idxOf value) else none

lemma NumberingOf.assign {values : List ℕ} {n : Numbering} (h : NumberingOf values n) (value : ℕ) :
    NumberingOf (pushNew values value) (n.assign value) := by
  obtain ⟨hvalues,hindex⟩ := h
  rw [Numbering.assign,pushNew,hindex]
  by_cases hm : value ∈ values
  · rw [if_pos hm,if_pos hm]
    exact ⟨hvalues,hindex⟩
  · rw [if_neg hm,if_neg hm,hvalues]
    refine ⟨rfl,fun v=>?_⟩
    by_cases hv : v=value
    · subst hv
      simp [idxOf_append,hm]
    · rw [show (Numbering.mk (values ++ [value]) _).valueIndices v=_ from
        Function.update_of_ne hv _ _,hindex,idxOf_append]
      by_cases hmem : v ∈ values
      · simp [hmem]
      · simp [hmem,hv]

/-- A loop that admits some of its values numbers what the palette loop pushes. -/
lemma foldl_assign {α : Type} (p : α → Prop) [DecidablePred p] (f : α → ℕ) (l : List α)
    {values : List ℕ} {n : Numbering} (h : NumberingOf values n) :
    NumberingOf (l.foldl (fun values a=>if p a then pushNew values (f a) else values) values)
      (l.foldl (fun n a=>if p a then n.assign (f a) else n) n) := by
  induction l generalizing values n with
  | nil => exact h
  | cons a l ih =>
    refine ih ?_
    beta_reduce
    split_ifs
    · exact h.assign (f a)
    · exact h

lemma numberValues_eq (s : PalettedStorage) (updates : List (ℕ × ℕ)) {used : Finset ℕ}
    {finals : List ℕ} (hused : ∀ v, v ∈ used ↔ v ∈ finals) :
    NumberingOf (referenceValues s.palette updates finals)
      (s.numberValues updates (finalUpdates updates) used) := by
  have hfinal : finalUpdates updates=finalUpdate updates := funext (finalUpdates_eq updates)
  rw [hfinal]
  refine foldl_assign _ _ _ ?_
  have hempty : NumberingOf [] ⟨[],fun _=>none⟩ := ⟨rfl,fun _=>by simp⟩
  have h := foldl_assign (· ∈ finals) (fun v=>v) s.palette hempty
  simpa only [hused] using h

section
variable {s : PalettedStorage} (updates : List (ℕ × ℕ)) {cell : ℕ → ℕ}
  (hs : ∀ linear<blocksPerSubChunk, s.currentValue linear=some (cell linear))
include hs

lemma scanUpdates_eq : ∃ used : Finset ℕ, s.scanUpdates (finalUpdates updates) =
      some (decide (¬ ∀ linear<blocksPerSubChunk, finalValue updates cell linear=cell linear), used) ∧
    ∀ v, v ∈ used ↔ v ∈ finalValues updates cell := by
  obtain ⟨⟨changed,used⟩,hrun,hchanged,hused⟩ := foldlM_exists_some
    (l := List.range blocksPerSubChunk) (z := ((false,∅) : Bool × Finset ℕ))
    (f := s.scanCell (finalUpdates updates))
    (I := fun seen st =>
      st.1 = (seen.any fun linear=>finalValue updates cell linear != cell linear) ∧
      ∀ v, v ∈ st.2 ↔ v ∈ seen.map (finalValue updates cell)) ⟨rfl,by simp⟩ (by
    intro pre linear post st hl ⟨h₁,h₂⟩
    have hlt : linear<blocksPerSubChunk := mem_range.1 (by rw [hl]; simp)
    refine ⟨(st.1 || finalValue updates cell linear != cell linear,
      insert (finalValue updates cell linear) st.2),?_,?_,fun v=>?_⟩
    · rw [scanCell,hs linear hlt,finalUpdates_eq]
      rfl
    · rw [h₁,any_append]
      simp
    · rw [Finset.mem_insert,h₂,map_append,mem_append,or_comm]
      simp)
  refine ⟨used,?_,hused⟩
  rw [scanUpdates,hrun]
  dsimp only at hchanged
  rw [hchanged]
  refine congrArg (fun changed=>some (changed,used)) ?_
  rw [Bool.eq_iff_iff,any_eq_true,decide_eq_true_iff]
  simp

lemma repack_eq {values : List ℕ} {n : Numbering} (hn : NumberingOf values n)
    (hmem : ∀ linear<blocksPerSubChunk, finalValue updates cell linear ∈ values) {bits : ℕ}
    (hbits : bits ∈ supportedBits) :
    s.repack (finalUpdates updates) n bits =
      some (packWords bits fun linear=>values.idxOf (finalValue updates cell linear),
        sectionCounts values.length fun linear=>values.idxOf (finalValue updates cell linear)) := by
  generalize hdef : (fun linear=>values.idxOf (finalValue updates cell linear)) = index
  obtain ⟨⟨words,counts⟩,hrun,hwords,-,hcounts⟩ := foldlM_exists_some (l := List.range blocksPerSubChunk)
    (z := (List.replicate (wordCount bits) 0,List.replicate n.values.length 0))
    (f := s.repackCell (finalUpdates updates) n bits)
    (I := fun seen st =>
      st.1=seen.foldl (fun words linear=>writeIndex bits words linear (index linear))
        (List.replicate (wordCount bits) 0) ∧
      PackedUpTo bits index seen st.1 ∧ st.2=countsOf values.length index seen)
    ⟨rfl,packedUpTo_nil hbits index,by rw [hn.1,countsOf_nil]⟩ (by
    rintro pre linear post ⟨words,counts⟩ hl ⟨h₁,h₂,h₃⟩
    have hlt : linear<blocksPerSubChunk := mem_range.1 (by rw [hl]; simp)
    have hval : values.idxOf (finalValue updates cell linear) = index linear := congrFun hdef linear
    have hindex : index linear<values.length := hval ▸ idxOf_lt_length_of_mem (hmem linear hlt)
    have hcount := getElem?_countsOf (f := index) pre hindex
    dsimp only at h₁ h₂ h₃
    subst h₃
    refine ⟨(writeIndex bits words linear (index linear),
      countsOf values.length index (pre ++ [linear])),?_,?_,h₂.write hbits hlt,rfl⟩
    · rw [repackCell,hs linear hlt,finalUpdates_eq]
      change (n.valueIndices (finalValue updates cell linear)).bind _=_
      rw [hn.2,if_pos (hmem linear hlt),hval]
      change ((countsOf values.length index pre)[index linear]?).bind _=_
      rw [hcount,← countsOf_step]
      rw [Packed.writePaletteIndex_eq hbits h₂ hlt]
      rfl
    · rw [foldl_append,h₁]
      rfl)
  dsimp only at hwords hcounts
  rw [repack,hrun,hwords,← packWords_eq,hcounts,countsOf_range]

/-- Stable slots, where every palette entry has a cell. -/
def adoptedEdits (values : List ℕ) (index : ℕ → ℕ) : Option PaletteEdits :=
  if (sectionCounts values.length index).all (· != 0) then
    some (PaletteEdits.new (sectionCounts values.length index))
  else none

lemma applyRuntimeUpdates_eq (hcell : ∀ linear<blocksPerSubChunk, cell linear ∈ s.palette) :
    s.applyRuntimeUpdates updates = if ∀ linear<blocksPerSubChunk, finalValue updates cell linear=cell linear then
        some (false,s)
      else
        let values := referenceValues s.palette updates (finalValues updates cell)
        some (true,{ batchStorage s.palette updates cell with
          edits := adoptedEdits values fun linear =>
            values.idxOf (finalValue updates cell linear) }) := by
  obtain ⟨used,hscan,hused⟩ := scanUpdates_eq updates hs
  have hn := numberValues_eq s updates hused
  rw [applyRuntimeUpdates,hscan,Option.bind_eq_bind,Option.bind_some]
  by_cases hsame : ∀ linear<blocksPerSubChunk, finalValue updates cell linear=cell linear
  · rw [if_pos hsame,decide_eq_false (not_not.2 hsame)]
    rfl
  · rw [if_neg hsame,decide_eq_true hsame]
    dsimp only
    rw [hn.1,repack_eq updates hs hn (fun linear hl=>finalValue_mem updates hcell hl) (bitsForPaletteLen_mem _)]
    rfl

end

end Cinnabar.World
