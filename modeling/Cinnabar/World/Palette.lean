import Mathlib.Data.Finset.Basic
import Mathlib.Algebra.BigOperators.Group.Finset.Basic
import Mathlib.Algebra.Order.BigOperators.Group.Finset
import Cinnabar.Keys
import Cinnabar.Library.BitFields
import Cinnabar.Library.Ensures

/-! # Paletted storage -/

namespace Cinnabar.World

open BitFields

def blocksPerSubChunk : ℕ := 4096

def supportedBits : List ℕ := [0,1,2,3,4,5,6,8,16]

/-- `value as u16` -/
def asU16 (value : ℕ) : ℕ := value % 65536

def wordCount (bitsPerIndex : ℕ) : ℕ :=
  if bitsPerIndex=0 then 0 else wordsFor bitsPerIndex blocksPerSubChunk

/-- The first supported width that indexes `paletteLen` entries; the last covers every block. -/
def bitsForPaletteLen (paletteLen : ℕ) : ℕ :=
  (supportedBits.find? fun bits=>bits == 16 || decide (paletteLen≤2^bits)).getD 16

def writePaletteIndex (words : List ℕ) (bitsPerIndex linear index : ℕ) : Option (List ℕ) :=
  if bitsPerIndex=0 then some words
  else if linear/perWord bitsPerIndex<words.length then
    some (writeCell bitsPerIndex words linear index)
  else none

/-- One physical packed index and its current logical palette entry; zero count means reusable. -/
structure PaletteSlot where
  paletteIndex : ℕ
  count : ℕ
deriving DecidableEq

structure PaletteEdits where
  slots : List PaletteSlot
  /-- The physical words already use the public palette indices and minimal width. -/
  direct : Bool
  canonicalWords : Option (List ℕ)
deriving DecidableEq

namespace PaletteEdits

/-- Adopts counts from a verified canonical representation. -/
def new (counts : List ℕ) : PaletteEdits where
  slots := counts.zipIdx.map fun (count,index)=>⟨asU16 index,count⟩
  direct := true
  canonicalWords := none

/-- Reuses dead physical slots before growing, bounded by the number of cells in a section. -/
def allocate (slots : List PaletteSlot) (paletteIndex : ℕ) : Option (ℕ × List PaletteSlot) :=
  match slots.findIdx? fun slot=>slot.count == 0 with
  | some slot => some (slot,slots.set slot ⟨asU16 paletteIndex,0⟩)
  | none =>
    if slots.length<blocksPerSubChunk then
      some (slots.length,slots ++ [⟨asU16 paletteIndex,0⟩])
    else none

end PaletteEdits

/-- Packed indices plus the palette they reference for one block layer. -/
structure PalettedStorage where
  /-- The field `bits_per_index`: the physical packing width. -/
  physicalBits : ℕ
  /-- The field `words`. -/
  physicalWords : List ℕ
  palette : List ℕ
  edits : Option PaletteEdits
deriving DecidableEq

namespace PalettedStorage

def new (bitsPerIndex : ℕ) (words palette : List ℕ) : PalettedStorage :=
  ⟨bitsPerIndex,words,palette,none⟩

def uniform (runtimeId : ℕ) : PalettedStorage := new 0 [] [runtimeId]

variable (s : PalettedStorage)

def bitsPerIndex : ℕ :=
  if s.edits.isSome then bitsForPaletteLen s.palette.length else s.physicalBits

/-- Reads the stable packed slot without forcing canonical word materialization. -/
def physicalIndex (linear : ℕ) : Option ℕ :=
  if blocksPerSubChunk≤linear then none
  else if s.physicalBits=0 then some 0
  else readCell s.physicalBits s.physicalWords linear

def paletteIndex (linear : ℕ) : Option ℕ := do
  let slot ← s.physicalIndex linear
  match s.edits with
  | some edits => ((edits.slots[slot]?).filter fun slot=>slot.count != 0).map (·.paletteIndex)
  | none => some slot

/-- Packs the logical indices at the minimal width. -/
def packCanonical : Option (List ℕ) :=
  let bits := s.bitsPerIndex
  if bits=0 then some []
  else
    (List.range blocksPerSubChunk).foldlM (fun words linear=>do
      writePaletteIndex words bits linear (← s.paletteIndex linear))
      (List.replicate (wordCount bits) 0)

/-- `words`: the packed words the storage shows. -/
def words : Option (List ℕ) :=
  match s.edits with
  | some edits =>
    if edits.direct then some s.physicalWords
    else
      match edits.canonicalWords with
      | some words => some words
      | none => s.packCanonical
  | none => some s.physicalWords

/-- What reading `words` leaves: the canonical words are kept once packed. -/
def observeWords : Option PalettedStorage :=
  match s.edits with
  | some edits =>
    if edits.direct then some s
    else do
      let words ← s.words
      return { s with edits := some { edits with canonicalWords := some words } }
  | none => some s

def runtimeId (x y z : ℕ) : Option ℕ :=
  if 16≤x ∨ 16≤y ∨ 16≤z then none
  else do s.palette[← s.paletteIndex (x <<< 8 ||| z <<< 4 ||| y)]?

def zeroIndexAtOrAbove (paletteLen linear : ℕ) : Option PalettedStorage :=
  match s.paletteIndex linear with
  | some index =>
    if paletteLen ≤ index then do
      return { s with physicalWords := ← writePaletteIndex s.physicalWords s.physicalBits linear 0 }
    else some s
  | none => some s

def zeroIndicesAtOrAbove (paletteLen : ℕ) : Option PalettedStorage := do
  let s ← if s.edits.isSome then s.words.map fun words=>new s.bitsPerIndex words s.palette
    else some s
  if s.physicalBits=0 ∨ 2^s.physicalBits≤paletteLen then return s
  else
    (List.range blocksPerSubChunk).foldlM (fun s linear=>s.zeroIndexAtOrAbove paletteLen linear) s

def finalUpdates (updates : List (ℕ × ℕ)) : ℕ → Option ℕ :=
  updates.foldl (fun final update=>Function.update final update.1 (some update.2)) fun _=>none

def currentValue (linear : ℕ) : Option ℕ := do
  s.palette[← s.paletteIndex linear]?

section

variable (final : ℕ → Option ℕ)

def scanCell (st : Bool × Finset ℕ) (linear : ℕ) :
    Option (Bool × Finset ℕ) := do
  let current ← s.currentValue linear
  let value := (final linear).getD current
  return (st.1 || value != current,insert value st.2)

/-- Whether a batch changes any cell, and the values used after it. -/
def scanUpdates : Option (Bool × Finset ℕ) :=
  (List.range blocksPerSubChunk).foldlM (s.scanCell final) (false,∅)

/-- A palette under construction, with each value's index. -/
structure Numbering where
  values : List ℕ
  valueIndices : ℕ → Option ℕ

/-- Appends a value that has no index yet. -/
def Numbering.assign (n : Numbering) (value : ℕ) : Numbering :=
  if (n.valueIndices value).isNone then
    ⟨n.values ++ [value],Function.update n.valueIndices value (some n.values.length)⟩
  else n

def numberValues (updates : List (ℕ × ℕ)) (final : ℕ → Option ℕ)
    (used : Finset ℕ) : Numbering :=
  let survivors := s.palette.foldl (fun n value=>if value ∈ used then n.assign value else n) ⟨[],fun _=>none⟩
  updates.foldl (fun n update =>
    if final update.1=some update.2 then n.assign update.2 else n) survivors

def repackCell (n : Numbering) (bitsPerIndex : ℕ)
    (st : List ℕ × List ℕ) (linear : ℕ) : Option (List ℕ × List ℕ) := do
  let current ← s.currentValue linear
  let index ← n.valueIndices ((final linear).getD current)
  let count ← st.2[index]?
  let words ← writePaletteIndex st.1 bitsPerIndex linear index
  return (words,st.2.set index (count+1))

def repack (n : Numbering) (bitsPerIndex : ℕ) :
    Option (List ℕ × List ℕ) :=
  (List.range blocksPerSubChunk).foldlM (s.repackCell final n bitsPerIndex)
    (List.replicate (wordCount bitsPerIndex) 0,List.replicate n.values.length 0)

end

/-- Applies a whole layer's final mutations with one palette-map build, regardless of duplicate
coordinates. -/
def applyRuntimeUpdates (updates : List (ℕ × ℕ)) :
    Option (Bool × PalettedStorage) := do
  let final := finalUpdates updates
  let (changed,used) ← s.scanUpdates final
  if !changed then return (false,s)
  else
    let n := s.numberValues updates final used
    let bits := bitsForPaletteLen n.values.length
    let (words,counts) ← s.repack final n bits
    let edits := if counts.all (· != 0) then some (PaletteEdits.new counts) else none
    return (true,⟨bits,words,n.values,edits⟩)

def hasZeroPadding : Bool :=
  if s.physicalWords.length≠wordCount s.physicalBits then false
  else if s.physicalBits=0 then true
  else
    s.physicalWords.zipIdx.all fun (word,index) =>
      let slots := min (blocksPerSubChunk - index*perWord s.physicalBits) (perWord s.physicalBits)
      let usedBits := slots*s.physicalBits
      usedBits == 32 || word >>> usedBits == 0

def countCell (st : Bool × List ℕ) (linear : ℕ) : Bool × List ℕ :=
  match s.paletteIndex linear with
  | some index =>
    match st.2[index]? with
    | some count => (st.1,st.2.set index (count+1))
    | none => (false,st.2)
  | none => (false,st.2)

/-- Counts valid cells once and admits only an exact canonical representation to stable slots. -/
def canonicalCounts : Option (List ℕ) :=
  if s.physicalBits=0 then
    if s.palette.length=1 ∧ s.physicalWords = [] then some [blocksPerSubChunk] else none
  else
    let (valid,counts) := (List.range blocksPerSubChunk).foldl s.countCell (true,List.replicate s.palette.length 0)
    if valid=true ∧ (1 ≤ s.palette.length ∧ s.palette.length≤blocksPerSubChunk) ∧
        (∀ count ∈ counts, count≠0) ∧ s.palette.Nodup ∧
        bitsForPaletteLen s.palette.length=s.physicalBits ∧ s.hasZeroPadding=true then
      some counts
    else none

/-- A live slot above a removed entry moves down by one. -/
def lowerSlot (sourceIndex : ℕ) (slot : PaletteSlot) : PaletteSlot :=
  if slot.count≠0 ∧ slot.paletteIndex > sourceIndex then
    { slot with paletteIndex := slot.paletteIndex-1 }
  else slot

variable (slots : List PaletteSlot)

def removeEntry (values : List ℕ) (sourceIndex : ℕ) :
    Option (List PaletteSlot × List ℕ) :=
  if sourceIndex<values.length then
    let values := values.eraseIdx sourceIndex
    some (if sourceIndex<values.length then slots.map (lowerSlot sourceIndex) else slots,values)
  else none

/-- Widens the physical words where the slots no longer fit. -/
def promote : Option PalettedStorage :=
  let bits := bitsForPaletteLen slots.length
  if bits > s.physicalBits then do
    let zeros := List.replicate (wordCount bits) 0
    let words ← if s.physicalBits≠0 then
        (List.range blocksPerSubChunk).foldlM (fun words cell=>do
          writePaletteIndex words bits cell (← s.physicalIndex cell)) zeros
      else some zeros
    return { s with physicalBits := bits, physicalWords := words }
  else some s

/-- The live slot of a value's palette entry; `some none` where the palette lacks the value. -/
def destinationSlot (palette : List ℕ) (runtimeId : ℕ) :
    Option (Option ℕ) :=
  match palette.findIdx? (· == runtimeId) with
  | none => some none
  | some index =>
    (slots.findIdx? fun slot=>slot.count != 0 && slot.paletteIndex == index).map some

/-- Takes one cell from a slot; the flag says its last cell left, and its palette entry with it. -/
def releaseSlot (values : List ℕ) (source : ℕ) :
    Option (Bool × List PaletteSlot × List ℕ) := do
  let sourceSlot ← slots[source]?
  -- A cell's slot has a positive count, so taking one never underflows.
  guard (sourceSlot.count≠0)
  let slots := slots.set source { sourceSlot with count := sourceSlot.count-1 }
  if sourceSlot.count-1=0 then
    return (true,← removeEntry slots values sourceSlot.paletteIndex)
  else return (false,slots,values)

def acquireSlot (values : List ℕ) (destination : Option ℕ)
    (runtimeId : ℕ) : Option (ℕ × List PaletteSlot × List ℕ) := do
  let values := if destination.isNone then values ++ [runtimeId] else values
  let (slot,slots) ← match destination with
    | some slot => some (slot,slots)
    | none => PaletteEdits.allocate slots (values.length-1)
  let target ← slots[slot]?
  return (slot,slots.set slot { target with count := target.count+1 },values)

/-- Changes one physical word and live palette bookkeeping, preserving canonical survivor order. -/
def patchEdit (linear runtimeId : ℕ) : Option PalettedStorage := do
  let source ← s.physicalIndex linear
  let edits ← s.edits
  let destination ← destinationSlot edits.slots s.palette runtimeId
  let (removed,slots,values) ← releaseSlot edits.slots s.palette source
  let (slot,slots,values) ← acquireSlot slots values destination runtimeId
  let s ← s.promote slots
  let words ← writePaletteIndex s.physicalWords s.physicalBits linear slot
  let direct := if removed || destination.isNone then
      decide (s.physicalBits=bitsForPaletteLen values.length) &&
        slots.zipIdx.all fun (slot,index)=>slot.count == 0 || index == slot.paletteIndex
    else edits.direct
  return ⟨s.physicalBits,words,values,some ⟨slots,direct,none⟩⟩

/-- Patches stable physical slots and defers canonical repacking until words are observed.
Noncanonical decoded input uses the batch normalizer after its first real edit. -/
def applyRuntimeUpdate (linear runtimeId : ℕ) :
    Option (Bool × PalettedStorage) :=
  match (s.paletteIndex linear).filter (· < s.palette.length) with
  | none => s.applyRuntimeUpdates [(linear,runtimeId)]
  | some updatedIndex => do
    let value ← s.palette[updatedIndex]?
    if value=runtimeId then return (false,s)
    else
      match s.edits with
      | some _ => return (true,← s.patchEdit linear runtimeId)
      | none =>
        match s.canonicalCounts with
        | none => s.applyRuntimeUpdates [(linear,runtimeId)]
        | some counts =>
          let s := { s with edits := some (PaletteEdits.new counts) }
          return (true,← s.patchEdit linear runtimeId)

end PalettedStorage

end Cinnabar.World

/-! # Counting the cells of a section

How many cells hold one thing, and the counts a loop over the cells leaves.
-/

namespace Cinnabar.World

open List Function

section
variable {β : Type} [DecidableEq β]

/-- The number of cells of a section that hold `b`. -/
def cellCount (f : ℕ → β) (b : β) : ℕ :=
  (List.range blocksPerSubChunk).countP fun linear=>f linear == b

section

variable {f : ℕ → β}

lemma cellCount_pos {b : β} : cellCount f b≠0 ↔ ∃ linear<blocksPerSubChunk, f linear=b := by
  rw [← Nat.pos_iff_ne_zero,cellCount,countP_pos_iff]
  simp

lemma cellCount_congr {γ : Type} [DecidableEq γ] {f : ℕ → β} {g : ℕ → γ} {b : β} {c : γ}
    (h : ∀ linear<blocksPerSubChunk, f linear=b ↔ g linear=c) :
    cellCount f b=cellCount g c := by
  refine countP_congr fun linear hl=>?_
  rw [beq_iff_eq,beq_iff_eq]
  exact h linear (mem_range.1 hl)

/-- A list without repetitions meets an updated position once. -/
lemma countP_update {l : List ℕ} (hl : l.Nodup) {cell : ℕ} (hc : cell ∈ l) (v b : β) :
    (l.countP fun a=>Function.update f cell v a == b) + (if f cell=b then 1 else 0) =
      (l.countP fun a=>f a == b) + if v=b then 1 else 0 := by
  induction l with
  | nil => exact absurd hc not_mem_nil
  | cons a l ih =>
    rw [nodup_cons] at hl
    rw [countP_cons,countP_cons]
    by_cases ha : a=cell
    · subst ha
      have hrest : (l.countP fun x=>Function.update f a v x == b) = l.countP fun x=>f x == b :=
        countP_congr fun x hx=>by
          rw [update_of_ne (ne_of_mem_of_not_mem hx hl.1)]
      rw [hrest,update_self]
      simp only [beq_iff_eq]
      omega
    · have hrest := ih hl.2 ((mem_cons.1 hc).resolve_left (Ne.symm ha))
      rw [update_of_ne ha]
      omega

lemma cellCount_update {cell : ℕ} (hc : cell<blocksPerSubChunk) (v b : β) :
    cellCount (Function.update f cell v) b + (if f cell=b then 1 else 0) = cellCount f b + if v=b then 1 else 0 :=
  countP_update nodup_range (mem_range.2 hc) v b

/-- Distinct things together are held by at most every cell. -/
lemma sum_cellCount_le (f : ℕ → β) (n : ℕ) (b : ℕ → β) (hb : ∀ i j, b i=b j → i=j) :
    ∑ i ∈ Finset.range n, cellCount f (b i) ≤ blocksPerSubChunk := by
  have h : ∀ l : List ℕ, ∑ i ∈ Finset.range n, (l.countP fun a=>f a == b i) ≤ l.length := by
    intro l
    induction l with
    | nil => simp
    | cons a l ih =>
      have hone : ∑ i ∈ Finset.range n, (if (f a == b i) = true then 1 else 0) ≤ 1 := by
        rw [Finset.sum_boole]
        refine Finset.card_le_one.2 fun i hi j hj=>hb i j ?_
        simp only [Finset.mem_filter,beq_iff_eq] at hi hj
        exact hi.2.symm.trans hj.2
      simp only [countP_cons,Finset.sum_add_distrib,length_cons]
      exact Nat.add_le_add ih hone
  exact (h _).trans_eq length_range

lemma le_of_cellCount_pos {n : ℕ} {b : ℕ → β} (hb : ∀ i j, b i=b j → i=j)
    (h : ∀ i<n, cellCount f (b i) ≠ 0) : n≤blocksPerSubChunk := by
  refine le_trans ?_ (sum_cellCount_le f n b hb)
  calc n = ∑ i ∈ Finset.range n, 1 := by simp
    _ ≤ ∑ i ∈ Finset.range n, cellCount f (b i) :=
      Finset.sum_le_sum fun i hi=>Nat.one_le_iff_ne_zero.2 (h i (Finset.mem_range.1 hi))

end

end

/-- The counts of `n` indices over the visited cells. -/
def countsOf (n : ℕ) (f : ℕ → ℕ) (seen : List ℕ) : List ℕ :=
  (List.range n).map fun i=>seen.countP fun cell=>f cell == i

/-- The counts of `n` indices over a section. -/
def sectionCounts (n : ℕ) (f : ℕ → ℕ) : List ℕ := (List.range n).map (cellCount f)

section
variable {n : ℕ} {f : ℕ → ℕ}

lemma countsOf_range : countsOf n f (List.range blocksPerSubChunk) = sectionCounts n f := rfl

lemma countsOf_nil : countsOf n f [] = List.replicate n 0 := by
  simp [countsOf]

lemma getElem?_countsOf (seen : List ℕ) {i : ℕ} (h : i<n) :
    (countsOf n f seen)[i]? = some (seen.countP fun cell=>f cell == i) := by
  rw [countsOf,List.getElem?_map,List.getElem?_range h]
  rfl

lemma countsOf_step (seen : List ℕ) (cell : ℕ) :
    (countsOf n f seen).set (f cell) ((seen.countP fun a=>f a == f cell)+1) =
      countsOf n f (seen ++ [cell]) := by
  refine ext_getElem (by simp [countsOf]) fun i h₁ h₂=>?_
  by_cases hi : f cell=i
  · subst hi
    simp [countsOf]
  · simp [countsOf,hi]

lemma length_sectionCounts : (sectionCounts n f).length=n := by
  rw [sectionCounts,length_map,length_range]

lemma getElem?_sectionCounts {i : ℕ} (h : i<n) : (sectionCounts n f)[i]? = some (cellCount f i) := getElem?_countsOf _ h

lemma forall_sectionCounts {p : ℕ → Prop} : (∀ count ∈ sectionCounts n f, p count) ↔ ∀ i<n, p (cellCount f i) := by
  simp [sectionCounts]

end

-- Unfolding a count would visit every cell.
attribute [irreducible] cellCount

end Cinnabar.World
