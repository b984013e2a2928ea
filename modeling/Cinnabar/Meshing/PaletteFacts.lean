import Cinnabar.World.PaletteReached
import Cinnabar.Meshing.Connectivity
import Cinnabar.Meshing.Contributors

/-! # Palette indices of a section's voxels -/

namespace Cinnabar.Meshing

open BitFields World List

def packedPaletteIndex (storage : PalettedStorage) (v : Voxel) : Option (Option ℕ) :=
  if side≤v.1 ∨ side≤v.2.1 ∨ side≤v.2.2 then some none
  else if storage.bitsPerIndex=0 then some (some 0)
  else if storage.bitsPerIndex<32 then do
    let words ← storage.words
    return readCell storage.bitsPerIndex words (linearFromCoordinate v)
  -- A wider field leaves no values in a word, or no mask.
  else none

/-- Every slot of the words in turn, up to a section's voxels. -/
def pushIndices (bits : ℕ) (words : List ℕ) : List ℕ :=
  (words.flatMap fun word =>
    (List.range (perWord bits)).map fun slot=>asU16 (getField bits (slot*bits) word)).take voxelCount

/-- Every voxel's palette index, if the words cover the section. -/
def unpackedIndices (storage : PalettedStorage) : Option (Option (List ℕ)) :=
  let bits := storage.bitsPerIndex
  if bits=0 then some (some (List.replicate voxelCount 0))
  else if 16<bits then some none
  else do
    let words ← storage.words
    return if words.length*perWord bits<voxelCount then none else some (pushIndices bits words)

lemma voxelCount_eq : voxelCount=blocksPerSubChunk := rfl

/-- Runs of one length, one after another. -/
lemma getElem?_flatMap_range {α β : Type} (l : List α) {n : ℕ} (hn : 0<n) (f : α → ℕ → β)
    (i : ℕ) : (l.flatMap fun a=>(List.range n).map (f a))[i]? =
      l[i/n]?.map fun a=>f a (i % n) := by
  induction l generalizing i with
  | nil => rfl
  | cons a rest ih =>
    rw [flatMap_cons,List.getElem?_append,length_map,length_range]
    by_cases hi : i<n
    · rw [if_pos hi,List.getElem?_map,List.getElem?_range hi,Nat.div_eq_of_lt hi, Nat.mod_eq_of_lt hi]
      rfl
    · rw [if_neg hi,ih,Nat.div_eq_sub_div hn (Nat.le_of_not_lt hi),List.getElem?_cons_succ,
        Nat.mod_eq_sub_mod (Nat.le_of_not_lt hi)]

lemma length_flatMap_range {α β : Type} (l : List α) (n : ℕ) (f : α → ℕ → β) :
    (l.flatMap fun a=>(List.range n).map (f a)).length=l.length*n := by
  simp

structure Shows (storage : PalettedStorage) (words : List ℕ) : Prop where
  bits_lt : storage.bitsPerIndex<32
  words_eq : storage.words=some words
  uniform : storage.bitsPerIndex=0 → ∀ linear<voxelCount, storage.paletteIndex linear=some 0
  read : storage.bitsPerIndex≠0 → ∀ linear<voxelCount,
    readCell storage.bitsPerIndex words linear=storage.paletteIndex linear

section

variable {storage : PalettedStorage}

lemma shows_built (h : storage.Built) :
    Shows storage storage.physicalWords := by
  have hbits : storage.bitsPerIndex=storage.physicalBits := by
    rw [PalettedStorage.bitsPerIndex,h.edits_eq]
    rfl
  have hindex : ∀ linear<voxelCount, storage.paletteIndex linear = if storage.physicalBits=0 then some 0
      else readCell storage.physicalBits storage.physicalWords linear := by
    intro linear hl
    rw [voxelCount_eq] at hl
    rw [PalettedStorage.paletteIndex,h.edits_eq,PalettedStorage.physicalIndex, if_neg (Nat.not_le.2 hl)]
    cases (if storage.physicalBits=0 then some 0
      else readCell storage.physicalBits storage.physicalWords linear) <;> rfl
  refine ⟨hbits ▸ h.bits_lt,?_,fun hz linear hl=>?_,fun hne linear hl=>?_⟩
  · rw [PalettedStorage.words,h.edits_eq]
  · rw [hindex linear hl,if_pos (hbits ▸ hz)]
  · rw [hindex linear hl,if_neg (hbits ▸ hne),hbits]

lemma shows_edited {edits : PaletteEdits} {slotAt cell : ℕ → ℕ}
    (h : EditInv storage edits slotAt cell) : ∃ words, Shows storage words := by
  have hbits := h.bitsPerIndex_eq
  have hmem := bitsForPaletteLen_mem storage.palette.length
  have hle := mem_supportedBits hmem
  refine ⟨_,by omega,h.words_eq,fun hz linear hl=>?_,fun hne linear hl=>?_⟩
  · have hcell := idxOf_lt_length_of_mem (h.cell_mem hl)
    rw [hbits,bitsForPaletteLen_eq_zero] at hz
    rw [h.paletteIndex_eq hl]
    congr 1
    omega
  · rw [hbits] at hne ⊢
    rw [((packed_packWords hmem _).packs hne).read linear hl,
      idxOf_mod h.slots.size_le (h.cell_mem hl),h.paletteIndex_eq hl]

lemma exists_shows (h : storage.Known) : ∃ words, Shows storage words := by
  cases h with
  | built hbuilt => exact ⟨_,shows_built hbuilt⟩
  | @edited r index cell hagrees =>
    rcases hagrees.state with rfl | ⟨-,-,-,edits,slotAt,hinv⟩
    · refine ⟨_,shows_built ⟨hagrees.decoded.edits_eq,?_,hagrees.decoded.word_lt⟩⟩
      have hle := mem_supportedBits hagrees.decoded.bits_mem
      omega
    · exact shows_edited hinv

end

namespace Shows

variable {storage : PalettedStorage} {words : List ℕ} (h : Shows storage words)
include h

lemma packedPaletteIndex_eq {v : Voxel} (hv : v.Inside) :
    packedPaletteIndex storage v=some (storage.paletteIndex (linearFromCoordinate v)) := by
  obtain ⟨hx,hy,hz⟩ := hv
  unfold packedPaletteIndex
  rw [if_neg (by omega)]
  by_cases hzero : storage.bitsPerIndex=0
  · rw [if_pos hzero,h.uniform hzero _ (linear_lt ⟨hx,hy,hz⟩)]
  · rw [if_neg hzero,if_pos h.bits_lt,h.words_eq]
    exact congrArg some (h.read hzero _ (linear_lt ⟨hx,hy,hz⟩))

lemma paletteIndex_lt {linear index : ℕ} (hl : linear<voxelCount)
    (hindex : storage.paletteIndex linear=some index) : index<2^storage.bitsPerIndex := by
  by_cases hzero : storage.bitsPerIndex=0
  · rw [h.uniform hzero linear hl] at hindex
    cases hindex
    exact Nat.two_pow_pos _
  · rw [← h.read hzero linear hl,readCell] at hindex
    obtain ⟨word,-,rfl⟩ := Option.map_eq_some_iff.1 hindex
    exact getField_lt

/-- Unpacking reads every cell's index, or finds the words too short for the last. -/
lemma unpackedIndices_eq (hbits : storage.bitsPerIndex≤16) :
    (unpackedIndices storage=some none ∧ storage.paletteIndex (voxelCount-1) = none) ∨
      ∃ indices, unpackedIndices storage=some (some indices) ∧ indices.length=voxelCount ∧
        ∀ linear<voxelCount, indices[linear]? = storage.paletteIndex linear := by
  unfold unpackedIndices
  by_cases hzero : storage.bitsPerIndex=0
  · rw [if_pos hzero]
    refine .inr ⟨_,rfl,length_replicate,fun linear hl=>?_⟩
    rw [h.uniform hzero linear hl,List.getElem?_replicate,if_pos hl]
  · rw [if_neg hzero,if_neg (Nat.not_lt.2 hbits),h.words_eq,Option.bind_eq_bind, Option.bind_some]
    have hpos : 0<perWord storage.bitsPerIndex := perWord_pos (Nat.pos_of_ne_zero hzero) (hbits.trans (by omega))
    by_cases hshort : words.length*perWord storage.bitsPerIndex<voxelCount
    · rw [if_pos hshort]
      have hlast : words.length ≤ (voxelCount-1) / perWord storage.bitsPerIndex := by
        rw [Nat.le_div_iff_mul_le hpos]
        omega
      refine .inl ⟨rfl,?_⟩
      rw [← h.read hzero _ (by decide),readCell,List.getElem?_eq_none hlast]
      rfl
    · rw [if_neg hshort]
      refine .inr ⟨_,rfl,?_,fun linear hl=>?_⟩
      · unfold pushIndices
        rw [length_take,length_flatMap_range]
        exact Nat.min_eq_left (Nat.le_of_not_lt hshort)
      · unfold pushIndices
        rw [List.getElem?_take_of_lt hl,getElem?_flatMap_range _ hpos,← h.read hzero linear hl, readCell]
        cases words[linear/perWord storage.bitsPerIndex]? with
        | none => rfl
        | some word =>
          refine congrArg some (Nat.mod_eq_of_lt ?_)
          exact getField_lt.trans_le (Nat.pow_le_pow_right (by omega) hbits)

end Shows

end Cinnabar.Meshing

/-! # Palette facts of a section

Resolved entries beside each layer's palette, and the lookups that answer for one voxel: the
answer of a section whose layers are uniform, the packed lookups, and a decoded table.
`resolve` is `resolvePaletteEntry` of the section's classifier, assets and id mode; no result is a
panic of the source.
-/

namespace Cinnabar.Meshing

open World

structure StoragePaletteFacts where
  storage : PalettedStorage
  entries : List ResolvedPaletteEntry

inductive PaletteSource where
  | air
  | uniform (contributors : ResolvedContributors)
  | mixed (storages : List StoragePaletteFacts)

/-- A mixed section's answers: each voxel's slot in tables of one answer per combination of layer
palette indices. -/
structure DecodedVoxels where
  voxels : List ℕ
  entries : List ResolvedPaletteEntry
  shelters : List Bool
  modelCandidates : List Bool

/-- Entries parallel to storage palettes, never to the voxel positions. -/
structure PaletteFacts where
  source : PaletteSource
  uniformSeasonalShelter : Bool
  decoded : Option DecodedVoxels

def uniformRuntimeId (storage : PalettedStorage) : Option ℕ :=
  if storage.bitsPerIndex=0 then storage.palette[0]? else none

structure UniformLayers where
  contributors : ResolvedContributors := {}
  main : Option SeasonalFoliageBlock := some .AIR
  extra : Option SeasonalFoliageBlock := none
  unsupportedExtra : Bool := false

def UniformLayers.push (st : UniformLayers) (layer : ℕ) (entry : ResolvedPaletteEntry) :
    UniformLayers :=
  let contributors := st.contributors.push entry
  match layer with
  | 0 => { st with contributors, main := some (seasonalBlock entry) }
  | 1 => { st with contributors, extra := some (seasonalBlock entry) }
  | _ => { st with
      contributors
      unsupportedExtra := st.unsupportedExtra || !entry.flags.contains BlockFlags.air }

/-- `none` once a layer is not uniform. -/
def uniformLayers (resolve : ℕ → ResolvedPaletteEntry) :
    List PalettedStorage → ℕ → UniformLayers → Option UniformLayers
  | [], _, st => some st
  | storage::rest, layer, st => do
    let networkValue ← uniformRuntimeId storage
    uniformLayers resolve rest (layer+1) (st.push layer (resolve networkValue))

def StoragePaletteFacts.of (resolve : ℕ → ResolvedPaletteEntry) (storage : PalettedStorage) :
    StoragePaletteFacts :=
  ⟨storage,storage.palette.map resolve⟩

def StoragePaletteFacts.entryAt (facts : StoragePaletteFacts) (v : Voxel) :
    Option (Option ResolvedPaletteEntry) := do
  let index ← packedPaletteIndex facts.storage v
  return index.bind fun index=>facts.entries[index]?

/-- Pushes each layer's entry; a layer without one fails closed. -/
def pushEntries (v : Voxel) :
    List StoragePaletteFacts → ResolvedContributors → Option ResolvedContributors
  | [], contributors => some contributors
  | storage::rest, contributors => do
    match ← storage.entryAt v with
    | some entry => pushEntries v rest (contributors.push entry)
    | none => some (.failClosed 0 none)

def pushSurface (v : Voxel) :
    List StoragePaletteFacts → ResolvedContributors → Option ResolvedPaletteEntry
  | [], contributors => some contributors.geometryEntry
  | storage::rest, contributors => do
    match ← storage.entryAt v with
    | some entry => pushSurface v rest (contributors.push entry)
    | none => some (.diagnostic 0 none)

/-- Whether a layer beyond the wire's two may hold something. -/
def anyUnsupported (v : Voxel) : List StoragePaletteFacts → Option Bool
  | [] => some false
  | storage::rest => do
    match ← storage.entryAt v with
    | some entry =>
      if entry.flags.contains BlockFlags.air then anyUnsupported v rest else some true
    | none => some true

/-- Storage zero and its extra block, read from the packed layers. -/
def packedShelters (v : Voxel) (storages : List StoragePaletteFacts) : Option Bool := do
  let main ← match storages[0]? with
    | some storage => storage.entryAt v
    | none => some none
  let finish := fun extra=>do
    let unsupported ← anyUnsupported v (storages.drop 2)
    return unsupported || seasonalFoliageCellShelters (main.map seasonalBlock) extra
  match storages[1]? with
  | some storage =>
    match ← storage.entryAt v with
    | some entry => finish (some (seasonalBlock entry))
    | none => some true
  | none => finish none

namespace PaletteFacts

variable (resolve : ℕ → ResolvedPaletteEntry)

/-- The facts the packed lookups answer from. -/
def mixed (storages : List PalettedStorage) : PaletteFacts where
  source := .mixed (storages.map (.of resolve))
  uniformSeasonalShelter := true
  decoded := none

def new (storages : List PalettedStorage) : PaletteFacts :=
  match uniformLayers resolve storages 0 {} with
  | none => mixed resolve storages
  | some st =>
    { source := if st.contributors.isEmpty then .air else .uniform st.contributors
      uniformSeasonalShelter := st.unsupportedExtra || seasonalFoliageCellShelters st.main st.extra
      decoded := none }

variable (facts : PaletteFacts)

section

variable (v : Voxel)

def decodedSlot : Option (Option (DecodedVoxels × ℕ)) :=
  match facts.decoded with
  | none => some none
  | some decoded =>
    if side≤v.1 ∨ side≤v.2.1 ∨ side≤v.2.2 then some none
    else do
      let slot ← decoded.voxels[linearFromCoordinate v]?
      return some (decoded,slot)

def contributorsAt : Option ResolvedContributors :=
  match facts.source with
  | .air => some {}
  | .uniform contributors => some contributors
  | .mixed storages => pushEntries v storages {}

/-- `at`: the surface of cube visibility and neighbour occlusion. -/
def atVoxel : Option ResolvedPaletteEntry := do
  match ← facts.decodedSlot v with
  | some (decoded,slot) => decoded.entries[slot]?
  | none =>
    match facts.source with
    | .mixed storages => pushSurface v storages {}
    | _ => (facts.contributorsAt v).map (·.geometryEntry)

def seasonalSheltersAt : Option Bool := do
  match ← facts.decodedSlot v with
  | some (decoded,slot) => decoded.shelters[slot]?
  | none =>
    match facts.source with
    | .mixed storages => packedShelters v storages
    | _ => some facts.uniformSeasonalShelter

def modelEntriesAt :
    Option (List (Option ResolvedPaletteEntry)) :=
  (facts.contributorsAt v).map (·.modelEntries)

/-- Undecoded sections answer true. -/
def mayHaveModelAt : Option Bool := do
  match ← facts.decodedSlot v with
  | some (decoded,slot) => decoded.modelCandidates[slot]?
  | none => some true

end

/-- The voxels in the order of three nested loops. -/
def grid : List Voxel :=
  (List.range side).flatMap fun x=>(List.range side).flatMap fun y =>
    (List.range side).map fun z=>(x,y,z)

def forEachVoxelClass {α : Type} (facts : PaletteFacts) (classify : ResolvedPaletteEntry → α) :
    Option (List (Voxel × α)) :=
  match facts.decoded with
  | some decoded =>
    let classes := decoded.entries.map classify
    decoded.voxels.zipIdx.mapM fun (slot,linear)=>do
      return (coordinateFromLinear linear,← classes[slot]?)
  | none => grid.mapM fun v=>do return (v,classify (← facts.atVoxel v))

end PaletteFacts

def runtimeIdAt (storage : PalettedStorage) (v : Voxel) : Option ℕ :=
  storage.runtimeId v.1 v.2.1 v.2.2

def resolveLayers (resolve : ℕ → ResolvedPaletteEntry) (v : Voxel) :
    List PalettedStorage → ResolvedContributors → ResolvedContributors
  | [], contributors => contributors
  | storage::rest, contributors =>
    match runtimeIdAt storage v with
    | some networkValue => resolveLayers resolve v rest (contributors.push (resolve networkValue))
    | none => .failClosed 0 none

def resolveDirect (resolve : ℕ → ResolvedPaletteEntry) (storages : List PalettedStorage)
    (v : Voxel) : ResolvedContributors :=
  if side≤v.1 ∨ side≤v.2.1 ∨ side≤v.2.2 then .failClosed 0 none
  else resolveLayers resolve v storages {}

def entryOf (resolve : ℕ → ResolvedPaletteEntry) (v : Voxel) (storage : PalettedStorage) :
    Option ResolvedPaletteEntry :=
  (runtimeIdAt storage v).map resolve

/-- Whether the cell with these layers shelters: a layer past the first without an entry does, a
third layer that is not air does. -/
def cellShelters : List (Option ResolvedPaletteEntry) → Bool
  | [] => false
  | [main] => seasonalFoliageCellShelters (main.map seasonalBlock) none
  | _::none::_ => true
  | main::some extra::rest =>
    rest.any (fun entry=>entry.all fun entry=>!entry.flags.contains BlockFlags.air) ||
      seasonalFoliageCellShelters (main.map seasonalBlock) (some (seasonalBlock extra))

end Cinnabar.Meshing
