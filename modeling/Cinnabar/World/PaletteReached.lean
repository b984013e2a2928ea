import Cinnabar.World.PaletteRun

/-! # Storages as they can be -/

namespace Cinnabar.World

open BitFields PalettedStorage List

structure PalettedStorage.Built (s : PalettedStorage) : Prop where
  edits_eq : s.edits=none
  bits_lt : s.physicalBits<32
  word_lt : ∀ word ∈ s.physicalWords, word<2^32

def PalettedStorage.Reached (s : PalettedStorage) : Prop :=
  ∃ built ops flags, built.Built ∧ runOps apply built ops=some (flags,s)

inductive PalettedStorage.Known (s : PalettedStorage) : Prop
  | built : s.Built → Known s
  | edited {r : PalettedStorage} {index cell : ℕ → ℕ} : Agrees s r index cell → Known s

lemma isSome_of_foldlM {σ : Type} {f : σ → ℕ → Option σ} {g : ℕ → Option ℕ}
    (hnone : ∀ st x, g x=none → f st x=none) {l : List ℕ} {st st' : σ}
    (hrun : l.foldlM f st=some st') : ∀ x ∈ l, ∃ y, g x=some y := by
  induction l generalizing st with
  | nil => exact fun x hx=>absurd hx not_mem_nil
  | cons a rest ih =>
    obtain ⟨next,hstep,hrest⟩ := Option.bind_eq_some_iff.1 hrun
    intro x hx
    rcases mem_cons.1 hx with rfl | hx
    · cases hg : g x with
      | none =>
        rw [hnone st x hg] at hstep
        cases hstep
      | some y => exact ⟨y,rfl⟩
    · exact ih hrest x hx

variable {s : PalettedStorage}

lemma currentValue_of_scanUpdates {final : ℕ → Option ℕ}
    {out : Bool × Finset ℕ} (hscan : s.scanUpdates final=some out) :
    ∀ linear<blocksPerSubChunk, ∃ value, s.currentValue linear=some value := by
  have hnone : ∀ st linear, s.currentValue linear=none → s.scanCell final st linear=none := by
    intro st linear hcell
    rw [scanCell,hcell]
    rfl
  intro linear hl
  exact isSome_of_foldlM hnone hscan linear (mem_range.2 hl)

/-- A batch leaves the storage or one it rebuilds. -/
lemma known_applyRuntimeUpdates {s s' : PalettedStorage} (h : s.Known) {updates : List (ℕ × ℕ)}
    {flag : Bool} (hrun : s.applyRuntimeUpdates updates=some (flag,s')) : s'.Known := by
  have hscan := hrun
  rw [PalettedStorage.applyRuntimeUpdates] at hscan
  obtain ⟨out,hscan,-⟩ := Option.bind_eq_some_iff.1 hscan
  have hsome := currentValue_of_scanUpdates hscan
  have hvalue : ∀ linear<blocksPerSubChunk, s.currentValue linear=some ((s.currentValue linear).getD 0) := by
    intro linear hl
    obtain ⟨value,hvalue⟩ := hsome linear hl
    rw [hvalue]
    rfl
  have hmem : ∀ linear<blocksPerSubChunk, (s.currentValue linear).getD 0 ∈ s.palette := by
    intro linear hl
    obtain ⟨i,-,hget⟩ := Option.bind_eq_some_iff.1 (hvalue linear hl)
    exact List.mem_of_getElem? hget
  rw [applyRuntimeUpdates_eq updates hvalue hmem] at hrun
  split_ifs at hrun with hsame
  · cases hrun
    exact h
  · have hposition := fun linear (hl : linear<blocksPerSubChunk) =>
      idxOf_lt_length_of_mem (finalValue_mem updates hmem hl)
    obtain ⟨index,cell,hagrees⟩ := agrees_canonicalStorage (referenceValues_nodup _ _) hposition
    cases hrun
    exact .edited hagrees

lemma countCell_foldl_valid {l : List ℕ} {st : Bool × List ℕ}
    (h : (l.foldl s.countCell st).1=true) : st.1=true ∧ ∀ linear ∈ l, ∃ index,
      s.paletteIndex linear=some index ∧ index < st.2.length := by
  induction l generalizing st with
  | nil => exact ⟨h,fun linear hl=>absurd hl not_mem_nil⟩
  | cons a rest ih =>
    obtain ⟨hvalid,hrest⟩ := ih h
    cases hindex : s.paletteIndex a with
    | none =>
      simp [countCell,hindex] at hvalid
    | some index =>
      cases hcount : st.2[index]? with
      | none => simp [countCell,hindex,hcount] at hvalid
      | some count =>
        have hstep : s.countCell st a = (st.1,st.2.set index (count+1)) := by
          simp [countCell,hindex,hcount]
        rw [hstep] at hvalid hrest
        refine ⟨hvalid,fun linear hl=>?_⟩
        rcases mem_cons.1 hl with rfl | hl
        · exact ⟨index,hindex,(List.getElem?_eq_some_iff.1 hcount).1⟩
        · obtain ⟨i,hi,hlt⟩ := hrest linear hl
          exact ⟨i,hi,by rwa [length_set] at hlt⟩

lemma PalettedStorage.Built.valid (h : s.Built) {counts : List ℕ}
    (hcounts : s.canonicalCounts=some counts) : s.Valid := by
  have hphysical : ∀ linear, s.paletteIndex linear=s.physicalIndex linear := by
    intro linear
    rw [paletteIndex,h.edits_eq]
    cases s.physicalIndex linear <;> rfl
  rw [canonicalCounts] at hcounts
  split_ifs at hcounts with hz hone
  · refine ⟨h.edits_eq,by rw [hz]; decide,?_,h.word_lt,fun linear hl=>⟨0,?_,?_⟩⟩
    · rw [hone.2,hz]
      rfl
    · rw [physicalIndex,if_neg (Nat.not_le.2 hl),if_pos hz]
    · rw [hone.1]
      exact Nat.one_pos
  · dsimp only at hcounts
    split_ifs at hcounts with hall
    obtain ⟨hvalid,-,-,-,hbits,hpad⟩ := hall
    obtain ⟨-,hcells⟩ := countCell_foldl_valid hvalid
    refine ⟨h.edits_eq,hbits ▸ bitsForPaletteLen_mem _,?_,h.word_lt,fun linear hl=>?_⟩
    · by_contra hlen
      rw [hasZeroPadding,if_pos hlen] at hpad
      cases hpad
    · obtain ⟨index,hindex,hlt⟩ := hcells linear (mem_range.2 hl)
      rw [length_replicate] at hlt
      exact ⟨index,hphysical linear ▸ hindex,hlt⟩

lemma PalettedStorage.Valid.agrees (h : s.Valid) : ∃ index cell, Agrees s s index cell := by
  refine ⟨_,fun linear=>(s.palette[(s.paletteIndex linear).getD 0]?).getD 0,h.decoded, fun linear hl=>?_,.inl rfl⟩
  rw [List.getElem?_eq_getElem (h.decoded.index_lt linear hl)]
  rfl

lemma PalettedStorage.Known.apply {s s' : PalettedStorage} (h : s.Known) {op : PaletteOp}
    {flag : Bool} (hrun : s.apply op=some (flag,s')) : s'.Known := by
  cases h with
  | edited hagrees =>
    obtain ⟨flag',s'',r',index',cell',hrun',-,hagrees'⟩ := hagrees.apply op
    rw [hrun] at hrun'
    cases hrun'
    exact .edited hagrees'
  | built hbuilt =>
    cases op with
    | words =>
      rw [PalettedStorage.apply,observeWords,hbuilt.edits_eq] at hrun
      cases hrun
      exact .built hbuilt
    | updates updates => exact known_applyRuntimeUpdates (.built hbuilt) hrun
    | update linear runtimeId =>
      have hcall := hrun
      rw [PalettedStorage.apply,applyRuntimeUpdate] at hcall
      split at hcall
      · exact known_applyRuntimeUpdates (.built hbuilt) hcall
      · obtain ⟨value,-,hcall⟩ := Option.bind_eq_some_iff.1 hcall
        split_ifs at hcall with hsame
        · cases hcall
          exact .built hbuilt
        · rw [hbuilt.edits_eq] at hcall
          cases hcounts : s.canonicalCounts with
          | none =>
            rw [hcounts] at hcall
            exact known_applyRuntimeUpdates (.built hbuilt) hcall
          | some counts =>
            -- A canonical storage is valid, so this is an edit of a storage with known cells.
            obtain ⟨index,cell,hagrees⟩ := (hbuilt.valid hcounts).agrees
            obtain ⟨flag',s'',r',index',cell',hrun',-,hagrees'⟩ := hagrees.apply (.update linear runtimeId)
            rw [hrun] at hrun'
            cases hrun'
            exact .edited hagrees'

lemma PalettedStorage.Reached.known (h : s.Reached) : s.Known := by
  obtain ⟨built,ops,flags,hbuilt,hrun⟩ := h
  have hknown : built.Known := .built hbuilt
  clear hbuilt
  induction ops generalizing built flags with
  | nil =>
    cases hrun
    exact hknown
  | cons op ops ih =>
    obtain ⟨⟨flag,next⟩,hstep,hrest⟩ := Option.bind_eq_some_iff.1 hrun
    obtain ⟨⟨rest,last⟩,hrest,hlast⟩ := Option.bind_eq_some_iff.1 hrest
    cases hlast
    exact ih next rest hrest (hknown.apply hstep)

end Cinnabar.World
