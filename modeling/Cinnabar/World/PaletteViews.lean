import Cinnabar.World.PaletteReached

/-! # Views of the palette indices -/

namespace Cinnabar.World

open BitFields Option Nat

def u16Max : ℕ := 65535

lemma asU16_of_le {value : ℕ} (h : value≤u16Max) : asU16 value=value :=
  mod_eq_of_lt (lt_succ_of_le h)

namespace PalettedStorage

/-- The indices of the remaining cells, word by word; a missing word leaves the rest unknown. -/
def chunkIndices (bits : ℕ) : List ℕ → ℕ → List ℕ
  | [], left => List.replicate left u32Max
  | word::words, left =>
    (List.range (min (perWord bits) left)).map (fun slot=>getField bits (slot*bits) word) ++
      chunkIndices bits words (left-perWord bits)

/-- Every block's palette index, indexed `x << 8 | z << 4 | y`. -/
def paletteIndices (s : PalettedStorage) : List ℕ :=
  if s.edits.isSome then
    (List.range blocksPerSubChunk).map fun linear=>(s.paletteIndex linear).elim u32Max asU32
  else if s.physicalBits=0 then List.replicate blocksPerSubChunk 0
  else chunkIndices s.physicalBits s.physicalWords blocksPerSubChunk

def columnIndices (bits : ℕ) (words : List ℕ) : ℕ → ℕ → ℕ → List ℕ
  | 0, _, _ => []
  | left+1, word, slot =>
    ((words[word]?).elim u16Max fun packed=>asU16 (getField bits (slot*bits) packed)) ::
      if slot+1=perWord bits then columnIndices bits words left (word+1) 0
      else columnIndices bits words left word (slot+1)

/-- The palette indices of column `(x, z)` in Y order; `none` is the failed assertion. -/
def columnPaletteIndices (s : PalettedStorage) (x z : ℕ) : Option (List ℕ) :=
  let first := x <<< 8 ||| z <<< 4
  if 16≤x ∨ 16≤z then none
  else if s.edits.isSome then
    some ((List.range 16).map fun y=>(s.paletteIndex (first+y)).elim u16Max asU16)
  else if s.physicalBits=0 then some (List.replicate 16 0)
  else
    some (columnIndices s.physicalBits s.physicalWords 16 (first/perWord s.physicalBits)
      (first % perWord s.physicalBits))

def ViewsAgree (s : PalettedStorage) : Prop :=
  ∀ x<16, ∀ y<16, ∀ z<16, ∃ i value column, s.paletteIndex (x <<< 8 ||| z <<< 4 ||| y) = some i ∧ i < s.palette.length ∧
      s.paletteIndices[x <<< 8 ||| z <<< 4 ||| y]? = some i ∧
      s.columnPaletteIndices x z=some column ∧ column[y]? = some i ∧
      s.palette[i]? = some value ∧ s.runtimeId x y z=some value

end PalettedStorage

open PalettedStorage

section Walks

variable {bits : ℕ} {words : List ℕ}

lemma getElem?_chunkIndices (hpos : 0<perWord bits) {left linear : ℕ} (h : linear<left) :
    (chunkIndices bits words left)[linear]? = some ((readCell bits words linear).getD u32Max) := by
  induction words generalizing left linear with
  | nil => simp [chunkIndices,readCell,h]
  | cons word words ih =>
    rw [chunkIndices]
    by_cases hin : linear<perWord bits
    · rw [List.getElem?_append_left (by simp; omega),List.getElem?_map,
        List.getElem?_range (by omega),readCell,div_eq_of_lt hin,mod_eq_of_lt hin]
      rfl
    · have hlength : ((List.range (min (perWord bits) left)).map fun slot =>
          getField bits (slot*bits) word).length=perWord bits := by
        rw [List.length_map,List.length_range]
        omega
      have hdiv : linear/perWord bits = (linear-perWord bits) / perWord bits+1 := by
        rw [← add_div_right _ hpos,Nat.sub_add_cancel (by omega)]
      have hmod : linear % perWord bits = (linear-perWord bits) % perWord bits := mod_eq_sub_mod (by omega)
      rw [List.getElem?_append_right (by omega),hlength,ih (by omega),readCell,readCell,hdiv, hmod]
      rfl

lemma next_slot {n : ℕ} (hpos : 0<n) (first : ℕ) : (first+1) / n = (if first % n+1=n then first/n+1 else first/n) ∧
      (first+1) % n = if first % n+1=n then 0 else first % n+1 := by
  have hsplit := mod_add_div first n
  have hlt := mod_lt first hpos
  split
  · exact (Nat.div_mod_unique hpos).2 ⟨by rw [mul_succ]; omega,hpos⟩
  · exact (Nat.div_mod_unique hpos).2 ⟨by omega,by omega⟩

lemma getElem?_columnIndices (hpos : 0<perWord bits) {left y : ℕ} (first : ℕ) (h : y<left) :
    (columnIndices bits words left (first/perWord bits) (first % perWord bits))[y]? =
      some ((readCell bits words (first+y)).elim u16Max asU16) := by
  induction left generalizing first y with
  | zero => omega
  | succ left ih =>
    rw [columnIndices]
    cases y with
    | zero =>
      rw [List.getElem?_cons_zero,Nat.add_zero,readCell]
      cases words[first/perWord bits]? <;> rfl
    | succ y =>
      rw [List.getElem?_cons_succ]
      obtain ⟨hword,hslot⟩ := next_slot hpos first
      have hnext : (if first % perWord bits+1=perWord bits then columnIndices bits words left (first/perWord bits+1) 0
            else columnIndices bits words left (first/perWord bits) (first % perWord bits+1)) =
          columnIndices bits words left ((first+1) / perWord bits) ((first+1) % perWord bits) := by
        rw [hword,hslot]
        split <;> rfl
      rw [hnext,ih (first+1) (by omega),Nat.add_assoc,Nat.add_comm 1 y]

end Walks

section Views

variable {s r : PalettedStorage} {index cell : ℕ → ℕ} {x y z : ℕ}

/-- The cells of a column are consecutive. -/
lemma linear_eq_add (hy : y<16) : x <<< 8 ||| z <<< 4 ||| y = (x <<< 8 ||| z <<< 4) + y := by
  have hfirst : x <<< 8 ||| z <<< 4 = (x <<< 4 ||| z) <<< 4 := by
    rw [shiftLeft_or_distrib,← shiftLeft_add]
  rw [hfirst,shiftLeft_add_eq_or_of_lt (by omega : y<2^4)]

lemma PalettedStorage.paletteIndex_unedited (h : s.edits=none) (linear : ℕ) :
    s.paletteIndex linear=s.physicalIndex linear := by
  rw [paletteIndex,h]
  cases s.physicalIndex linear <;> rfl

lemma Agrees.paletteIndex_lt (h : Agrees s r index cell) {linear i : ℕ}
    (hl : linear<blocksPerSubChunk) (hi : s.paletteIndex linear=some i) : i≤u16Max := by
  rcases h.state with rfl | ⟨-,-,-,edits,slotAt,hinv⟩
  · rw [paletteIndex_unedited h.decoded.edits_eq,physicalIndex,if_neg (Nat.not_le.2 hl)] at hi
    split_ifs at hi
    · cases hi
      exact Nat.zero_le _
    · obtain ⟨word,-,rfl⟩ := map_eq_some_iff.1 hi
      have hlt : getField s.physicalBits (linear % perWord s.physicalBits*s.physicalBits) word <
          2^s.physicalBits := getField_lt
      have hpow : 2^s.physicalBits≤2^16 := Nat.pow_le_pow_right (by omega) (mem_supportedBits h.decoded.bits_mem)
      unfold u16Max
      omega
  · obtain ⟨j,hindex,hlt,-⟩ := h.exists_paletteIndex hl
    rw [hi] at hindex
    cases hindex
    have hsize := hinv.slots.size_le
    unfold blocksPerSubChunk at hsize
    unfold u16Max
    omega

lemma getElem?_paletteIndices (hbits : s.edits=none → s.physicalBits ∈ supportedBits)
    {linear i : ℕ} (hl : linear<blocksPerSubChunk) (hi : s.paletteIndex linear=some i)
    (hle : i≤u16Max) : s.paletteIndices[linear]? = some i := by
  have hsmall : asU32 i=i := asU32_of_le (hle.trans (by decide))
  unfold paletteIndices
  split
  · rw [List.getElem?_map,List.getElem?_range hl,map_some,hi,elim_some,hsmall]
  rename_i hedits
  have hnone : s.edits=none := by simpa using hedits
  rw [paletteIndex_unedited hnone,physicalIndex,if_neg (Nat.not_le.2 hl)] at hi
  split
  · rename_i hz
    rw [if_pos hz] at hi
    rw [List.getElem?_replicate,if_pos hl]
    exact hi
  · rename_i hne
    rw [if_neg hne] at hi
    rw [getElem?_chunkIndices (perWord_pos_of_supported (hbits hnone) hne) hl,hi]
    rfl

lemma getElem?_columnPaletteIndices (hbits : s.edits=none → s.physicalBits ∈ supportedBits)
    (hx : x<16) (hy : y<16) (hz : z<16) {i : ℕ}
    (hi : s.paletteIndex (x <<< 8 ||| z <<< 4 ||| y) = some i) (hle : i≤u16Max) :
    ∃ column, s.columnPaletteIndices x z=some column ∧ column[y]? = some i := by
  have hl := Agrees.linear_lt hx hy hz
  rw [linear_eq_add hy] at hi hl
  have hsmall := asU16_of_le hle
  unfold columnPaletteIndices
  rw [if_neg (by omega)]
  split
  · refine ⟨_,rfl,?_⟩
    rw [List.getElem?_map,List.getElem?_range hy,map_some,hi,elim_some,hsmall]
  rename_i hedits
  have hnone : s.edits=none := by simpa using hedits
  rw [paletteIndex_unedited hnone,physicalIndex,if_neg (Nat.not_le.2 hl)] at hi
  split
  · rename_i hzero
    rw [if_pos hzero] at hi
    refine ⟨_,rfl,?_⟩
    rw [List.getElem?_replicate,if_pos hy]
    exact hi
  · rename_i hne
    rw [if_neg hne] at hi
    refine ⟨_,rfl,?_⟩
    rw [getElem?_columnIndices (perWord_pos_of_supported (hbits hnone) hne) _ hy,hi, elim_some,hsmall]

lemma Agrees.viewsAgree (h : Agrees s r index cell) : s.ViewsAgree := by
  intro x hx y hy z hz
  have hl := linear_lt hx hy hz
  obtain ⟨i,hindex,hlt,hvalue⟩ := h.exists_paletteIndex hl
  have hle := h.paletteIndex_lt hl hindex
  have hbits : s.edits=none → s.physicalBits ∈ supportedBits := by
    intro hnone
    rcases h.state with rfl | ⟨-,-,-,edits,slotAt,hinv⟩
    · exact h.decoded.bits_mem
    · rw [hinv.edits_eq] at hnone
      cases hnone
  obtain ⟨column,hcolumn,hcell⟩ := getElem?_columnPaletteIndices hbits hx hy hz hindex hle
  refine ⟨i,_,column,hindex,hlt,getElem?_paletteIndices hbits hl hindex hle,hcolumn,hcell, hvalue,?_⟩
  rw [runtimeId_eq_currentValue hx hy hz,h.currentValue_eq hl]

end Views

end Cinnabar.World
