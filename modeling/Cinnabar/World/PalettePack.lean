import Cinnabar.World.Palette

/-! # Packed palette indices -/

namespace Cinnabar.World

open BitFields List

lemma mem_supportedBits {bits : ℕ} (h : bits ∈ supportedBits) : bits≤16 := by
  simp only [supportedBits,mem_cons,not_mem_nil,or_false] at h
  omega

lemma perWord_pos_of_supported {bits : ℕ} (h : bits ∈ supportedBits) (hne : bits≠0) : 0<perWord bits :=
  perWord_pos (Nat.pos_of_ne_zero hne) ((mem_supportedBits h).trans (by omega))

lemma bitsForPaletteLen_eq (n : ℕ) : bitsForPaletteLen n =
    if n≤1 then 0 else if n≤2 then 1 else if n≤4 then 2 else if n≤8 then 3
    else if n≤16 then 4 else if n≤32 then 5 else if n≤64 then 6 else if n≤256 then 8
    else 16 := by
  simp only [bitsForPaletteLen,supportedBits,List.find?_cons]
  by_cases h0 : n≤1 <;> by_cases h1 : n≤2 <;> by_cases h2 : n≤4 <;> by_cases h3 : n≤8 <;>
    by_cases h4 : n≤16 <;> by_cases h5 : n≤32 <;> by_cases h6 : n≤64 <;>
    by_cases h8 : n≤256 <;> simp [h0,h1,h2,h3,h4,h5,h6,h8]

lemma bitsForPaletteLen_mem (n : ℕ) : bitsForPaletteLen n ∈ supportedBits := by
  rw [bitsForPaletteLen_eq]
  split_ifs <;> simp [supportedBits]

lemma le_two_pow_bitsFor {n : ℕ} (h : n≤65536) : n≤2^bitsForPaletteLen n := by
  rw [bitsForPaletteLen_eq]
  split_ifs <;> omega

lemma bitsForPaletteLen_eq_zero {n : ℕ} : bitsForPaletteLen n=0 ↔ n≤1 := by
  rw [bitsForPaletteLen_eq]
  by_cases h : n≤1
  · simp [h]
  · simp only [h,if_false,iff_false]
    split_ifs <;> decide

/-- No narrower supported width indexes as many entries. -/
lemma bitsForPaletteLen_le {n bits : ℕ} (hbits : bits ∈ supportedBits)
    (h : n≤2^bits ∨ bits=16) : bitsForPaletteLen n≤bits := by
  rw [bitsForPaletteLen_eq]
  simp only [supportedBits,mem_cons,not_mem_nil,or_false] at hbits
  rcases hbits with rfl | rfl | rfl | rfl | rfl | rfl | rfl | rfl | rfl <;> norm_num at h <;> split_ifs <;> omega

lemma bitsForPaletteLen_mono {n m : ℕ} (h : n ≤ m) : bitsForPaletteLen n≤bitsForPaletteLen m := by
  refine bitsForPaletteLen_le (bitsForPaletteLen_mem m) ?_
  by_cases hm : m≤65536
  · exact .inl (h.trans (le_two_pow_bitsFor hm))
  · rw [bitsForPaletteLen_eq]
    split_ifs <;> omega

/-- `words` holds the indices `f`; a uniform storage has no words. -/
structure Packed (bits : ℕ) (f : ℕ → ℕ) (words : List ℕ) : Prop where
  zero : bits=0 → words = []
  packs : bits≠0 → Packs bits blocksPerSubChunk f words

def writeIndex (bits : ℕ) (words : List ℕ) (linear index : ℕ) : List ℕ :=
  if bits=0 then words else writeCell bits words linear index

def packWords (bits : ℕ) (f : ℕ → ℕ) : List ℕ :=
  (List.range blocksPerSubChunk).foldl (fun words linear=>writeIndex bits words linear (f linear))
    (List.replicate (wordCount bits) 0)

lemma packWords_eq (bits : ℕ) (f : ℕ → ℕ) : packWords bits f = (List.range blocksPerSubChunk).foldl
      (fun words linear=>writeIndex bits words linear (f linear))
      (List.replicate (wordCount bits) 0) := rfl

namespace Packed

variable {bits : ℕ} {f g : ℕ → ℕ} {words words' : List ℕ}

lemma congr (h : Packed bits f words) (hfg : ∀ linear<blocksPerSubChunk, f linear=g linear) :
    Packed bits g words :=
  ⟨h.zero,fun hne=>(h.packs hne).congr hfg⟩

section

variable (hbits : bits ∈ supportedBits)
include hbits

lemma unique (h : Packed bits f words) (h' : Packed bits f words') : words=words' := by
  by_cases hne : bits=0
  · rw [h.zero hne,h'.zero hne]
  · exact (h.packs hne).unique (h'.packs hne) (Nat.pos_of_ne_zero hne) (perWord_pos_of_supported hbits hne)

lemma zeros : Packed bits (fun _=>0) (List.replicate (wordCount bits) 0) := by
  refine ⟨fun h=>by simp [h,wordCount],fun hne=>?_⟩
  rw [wordCount,if_neg hne]
  exact packs_zero (perWord_pos_of_supported hbits hne)

lemma write (h : Packed bits f words) {linear : ℕ} (hl : linear<blocksPerSubChunk) (index : ℕ) :
    Packed bits (Function.update f linear (index % 2^bits)) (writeIndex bits words linear index) := by
  refine ⟨fun hz=>?_,fun hne=>?_⟩
  · rw [writeIndex,if_pos hz,h.zero hz]
  · rw [writeIndex,if_neg hne]
    exact (h.packs hne).write (perWord_pos_of_supported hbits hne) hl

lemma writePaletteIndex_eq (h : Packed bits f words) {linear : ℕ} (hl : linear<blocksPerSubChunk) (index : ℕ) :
    writePaletteIndex words bits linear index=some (writeIndex bits words linear index) := by
  by_cases hne : bits=0
  · rw [writePaletteIndex,writeIndex,if_pos hne,if_pos hne]
  · rw [writePaletteIndex,writeIndex,if_neg hne,if_neg hne,if_pos]
    rw [(h.packs hne).length]
    exact word_lt_wordsFor (perWord_pos_of_supported hbits hne) hl

end

lemma physicalIndex_eq {s : PalettedStorage} (h : Packed s.physicalBits f s.physicalWords)
    {linear : ℕ} (hl : linear<blocksPerSubChunk) :
    s.physicalIndex linear=some (if s.physicalBits=0 then 0 else f linear) := by
  rw [PalettedStorage.physicalIndex,if_neg (Nat.not_le.2 hl)]
  split_ifs with hne
  · rfl
  · exact (h.packs hne).read linear hl

end Packed

/-- The cells written so far hold their index, the others zero. -/
abbrev PackedUpTo (bits : ℕ) (f : ℕ → ℕ) (seen : List ℕ) : List ℕ → Prop :=
  Packed bits fun linear=>if linear ∈ seen then f linear % 2^bits else 0

section
variable {bits : ℕ} (hbits : bits ∈ supportedBits)
include hbits

lemma packedUpTo_nil (f : ℕ → ℕ) : PackedUpTo bits f [] (List.replicate (wordCount bits) 0) :=
  (Packed.zeros hbits).congr fun _ _=>by simp

lemma PackedUpTo.write {f : ℕ → ℕ} {seen words : List ℕ} (h : PackedUpTo bits f seen words)
    {linear : ℕ} (hl : linear<blocksPerSubChunk) :
    PackedUpTo bits f (seen ++ [linear]) (writeIndex bits words linear (f linear)) := by
  refine (Packed.write hbits h hl _).congr fun cell _=>?_
  by_cases hc : cell=linear
  · subst hc
    simp
  · simp [hc]

/-- An index loop that never fails packs its indices. -/
lemma foldlM_write {f : ℕ → ℕ} {step : List ℕ → ℕ → Option (List ℕ)} (hstep : ∀ linear<blocksPerSubChunk, ∀ words,
      step words linear=writePaletteIndex words bits linear (f linear)) :
    (List.range blocksPerSubChunk).foldlM step (List.replicate (wordCount bits) 0) = some (packWords bits f) ∧
    Packed bits (fun linear=>f linear % 2^bits) (packWords bits f) := by
  have h := foldlM_eq_some (l := List.range blocksPerSubChunk) (z := List.replicate (wordCount bits) 0) (f := step)
    (g := fun words linear=>writeIndex bits words linear (f linear))
    (I := PackedUpTo bits f) (packedUpTo_nil hbits f) ?_
  · refine ⟨h.1,h.2.congr fun linear hl=>?_⟩
    rw [if_pos (mem_range.2 hl)]
  · intro pre linear post words hl hw
    have hlt : linear<blocksPerSubChunk := mem_range.1 (by rw [hl]; simp)
    refine ⟨?_,hw.write hbits hlt⟩
    rw [hstep linear hlt]
    exact Packed.writePaletteIndex_eq hbits hw hlt _

lemma packed_packWords (f : ℕ → ℕ) : Packed bits (fun linear=>f linear % 2^bits) (packWords bits f) :=
  (foldlM_write hbits fun _ _ _=>rfl).2

end

-- Unfolding the loop would write every cell.
attribute [irreducible] packWords

end Cinnabar.World
