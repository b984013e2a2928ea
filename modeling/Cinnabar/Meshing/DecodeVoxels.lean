import Cinnabar.Library.MixedRadix
import Cinnabar.Meshing.CellAnswers

/-! # Decoding a mixed section -/

namespace Cinnabar.Meshing

open World List

def maxDecodedCombinations : ℕ := 1 <<< 12

/-- `u16::MAX` -/
def u16Max : ℕ := 2^16-1

/-- `saturating_mul` of `usize`. -/
def saturatingMul (a b : ℕ) : ℕ := min (a*b) (2^64-1)

def StoragePaletteFacts.bits (facts : StoragePaletteFacts) : ℕ := facts.storage.bitsPerIndex

def combinations (storages : List StoragePaletteFacts) : ℕ :=
  storages.foldl (fun combinations storage=>saturatingMul combinations (1 <<< storage.bits)) 1

/-- `*key += index * radix`; no result is an overflow. -/
def addDigits (radix : ℕ) : List ℕ → List ℕ → Option (List ℕ)
  | key::keys, index::indices =>
    if index*radix≤u16Max ∧ key+index*radix≤u16Max then do
      return (key+index*radix) :: (← addDigits radix keys indices)
    else none
  | keys, _ => some keys

/-- Each voxel's combination, if every layer's words cover the section. -/
def layerKeys : List StoragePaletteFacts → ℕ → List ℕ → Option (Option (List ℕ))
  | [], _, keys => some (some keys)
  | storage::rest, radix, keys => do
    match ← unpackedIndices storage.storage with
    | none => some none
    | some indices => do
      let keys ← addDigits radix keys indices
      if storage.bits<16 then layerKeys rest (asU16 (radix <<< storage.bits)) keys else none

/-- The slot of each combination answered so far, and the tables. -/
structure Answering where
  answerOf : List ℕ
  decoded : DecodedVoxels

namespace PaletteFacts

def answerVoxel (facts : PaletteFacts) (linear key : ℕ) (st : Answering) : Option Answering := do
  let slot ← st.answerOf[key]?
  if slot=u16Max then
    let v := coordinateFromLinear linear
    let slot := asU16 st.decoded.entries.length
    let entry ← facts.atVoxel v
    let shelter ← facts.seasonalSheltersAt v
    let models ← facts.modelEntriesAt v
    return ⟨st.answerOf.set key slot,st.decoded.voxels ++ [slot],st.decoded.entries ++ [entry],
      st.decoded.shelters ++ [shelter],
      st.decoded.modelCandidates ++ [(models.filterMap id).any isModelEntry]⟩
  else return { st with decoded := { st.decoded with voxels := st.decoded.voxels ++ [slot] } }

def answerAll (facts : PaletteFacts) : List ℕ → ℕ → Answering → Option Answering
  | [], _, st => some st
  | key::keys, linear, st => do
    facts.answerAll keys (linear+1) (← facts.answerVoxel linear key st)

/-- Decodes a mixed section's answers once; truncated storage stays undecoded. -/
def decodeVoxels (facts : PaletteFacts) : Option PaletteFacts :=
  match facts.source with
  | .mixed storages =>
    if maxDecodedCombinations < combinations storages then some facts
    else do
      match ← layerKeys storages 1 (List.replicate voxelCount 0) with
      | none => some facts
      | some keys => do
        let st ← facts.answerAll keys 0 ⟨List.replicate (combinations storages) u16Max,[],[],[],[]⟩
        return { facts with decoded := some st.decoded }
  | _ => some facts

end PaletteFacts

section Keys

variable {storages : List StoragePaletteFacts} (facts : StoragePaletteFacts)

/-- A layer's digits are below its base. -/
def StoragePaletteFacts.base : ℕ := 2^facts.bits

/-- A layer's digit of a voxel. -/
def digit (linear : ℕ) (facts : StoragePaletteFacts) : ℕ :=
  (facts.storage.paletteIndex linear).getD 0

/-- A voxel's combination. -/
def keyOf (storages : List StoragePaletteFacts) (linear : ℕ) : ℕ :=
  MixedRadix.number StoragePaletteFacts.base (digit linear) storages

lemma base_pos : 0<facts.base := Nat.two_pow_pos _

lemma saturatingMul_min (a : ℕ) {b : ℕ} (hb : 0<b) : saturatingMul (min a (2^64-1)) b=min (a*b) (2^64-1) := by
  unfold saturatingMul
  rcases Nat.le_total a (2^64-1) with ha | ha
  · rw [Nat.min_eq_left ha]
  · have hmax : 2^64-1 ≤ (2^64-1) * b := Nat.le_mul_of_pos_right _ hb
    rw [Nat.min_eq_right ha,Nat.min_eq_right hmax, Nat.min_eq_right (hmax.trans (Nat.mul_le_mul_right b ha))]

/-- The product saturates. -/
lemma combinations_eq (storages : List StoragePaletteFacts) : combinations storages =
    min (MixedRadix.size StoragePaletteFacts.base storages) (2^64-1) := by
  have hfold : ∀ n, storages.foldl
      (fun combinations storage=>saturatingMul combinations (1 <<< storage.bits)) (min n (2^64-1)) =
      min (n*MixedRadix.size StoragePaletteFacts.base storages) (2^64-1) := by
    induction storages with
    | nil =>
      intro n
      rw [MixedRadix.size_nil,Nat.mul_one]
      rfl
    | cons storage rest ih =>
      intro n
      rw [foldl_cons,Nat.one_shiftLeft,saturatingMul_min n (Nat.two_pow_pos _),ih, MixedRadix.size_cons,Nat.mul_assoc]
      rfl
  have hone := hfold 1
  rw [Nat.one_mul] at hone
  exact hone

lemma size_of_combinations (h : combinations storages ≤ maxDecodedCombinations) :
    MixedRadix.size StoragePaletteFacts.base storages=combinations storages := by
  have heq := combinations_eq storages
  unfold maxDecodedCombinations at h
  omega

variable {linear : ℕ}

lemma getElem?_voxels {α : Type} (f : ℕ → α) (hl : linear<voxelCount) :
    ((List.range voxelCount).map f)[linear]? = some (f linear) := by
  rw [List.getElem?_map,List.getElem?_range hl]
  rfl

lemma addDigits_eq {radix : ℕ} {keys indices : List ℕ} (hlen : keys.length=indices.length)
    (hfits : ∀ pair ∈ keys.zip indices, pair.1+pair.2*radix≤u16Max) :
    addDigits radix keys indices =
      some ((keys.zip indices).map fun pair=>pair.1+pair.2*radix) := by
  induction keys generalizing indices with
  | nil => rfl
  | cons key keys ih =>
    cases indices with
    | nil => cases hlen
    | cons index indices =>
      have hfirst := hfits (key,index) (.head _)
      have hrest := ih (Nat.succ.inj hlen) fun pair hp=>hfits pair (.tail _ hp)
      dsimp only at hfirst
      rw [addDigits,if_pos ⟨by omega,hfirst⟩,hrest]
      rfl

lemma digit_lt (hknown : ∀ s ∈ storages, s.storage.Known) (hl : linear<voxelCount) :
    ∀ s ∈ storages, digit linear s < s.base := by
  intro s hs
  obtain ⟨words,hshows⟩ := exists_shows (hknown s hs)
  unfold digit
  cases hindex : s.storage.paletteIndex linear with
  | none => exact base_pos s
  | some index => exact hshows.paletteIndex_lt hl hindex

lemma keyOf_lt (hknown : ∀ s ∈ storages, s.storage.Known) (hl : linear<voxelCount) :
    keyOf storages linear<MixedRadix.size StoragePaletteFacts.base storages :=
  MixedRadix.number_lt (digit_lt hknown hl)

/-- Adding a layer's digits: no key overflows below the largest table. -/
lemma addDigits_keys {done : List StoragePaletteFacts} {storage : StoragePaletteFacts}
    {indices : List ℕ} (hlen : indices.length=voxelCount)
    (hindices : ∀ linear<voxelCount, indices[linear]? = storage.storage.paletteIndex linear)
    (hknown : ∀ s ∈ done ++ [storage], s.storage.Known)
    (hsize : MixedRadix.size StoragePaletteFacts.base (done ++ [storage]) ≤ maxDecodedCombinations) :
    addDigits (MixedRadix.size StoragePaletteFacts.base done) ((List.range voxelCount).map (keyOf done)) indices =
      some ((List.range voxelCount).map (keyOf (done ++ [storage]))) := by
  have hzip : ((List.range voxelCount).map (keyOf done)).zip indices =
      (List.range voxelCount).map fun linear=>(keyOf done linear,digit linear storage) := by
    refine List.ext_getElem? fun linear=>?_
    by_cases hl : linear<voxelCount
    · have hindex : indices[linear]? = some (digit linear storage) := by
        rw [digit,← hindices linear hl,List.getElem?_eq_getElem (hlen ▸ hl)]
        rfl
      have hpair : (((List.range voxelCount).map (keyOf done)).zip indices)[linear]? =
          some (keyOf done linear,digit linear storage) :=
        List.getElem?_zip_eq_some.2 ⟨getElem?_voxels _ hl,hindex⟩
      rw [hpair,getElem?_voxels _ hl]
    · rw [List.getElem?_eq_none,List.getElem?_eq_none]
      · rw [length_map,length_range]
        exact Nat.le_of_not_lt hl
      · rw [length_zip,length_map,length_range,hlen,Nat.min_self]
        exact Nat.le_of_not_lt hl
  have hconcat : ∀ linear, keyOf (done ++ [storage]) linear=keyOf done linear +
      digit linear storage*MixedRadix.size StoragePaletteFacts.base done :=
    fun linear=>MixedRadix.number_concat done storage
  rw [addDigits_eq,hzip,map_map]
  · exact congrArg some (map_congr_left fun linear _=>(hconcat linear).symm)
  · rw [length_map,length_range,hlen]
  · rw [hzip]
    intro pair hp
    obtain ⟨linear,hl,rfl⟩ := mem_map.1 hp
    have hlt := keyOf_lt hknown (mem_range.1 hl)
    have hkey := hconcat linear
    unfold maxDecodedCombinations at hsize
    unfold u16Max
    dsimp only
    omega

/-- Every voxel gets its combination, or a layer's words are too short; nothing overflows. -/
lemma layerKeys_eq (done todo : List StoragePaletteFacts) (hknown : ∀ s ∈ done++todo, s.storage.Known)
    (hsize : MixedRadix.size StoragePaletteFacts.base (done++todo) ≤ maxDecodedCombinations)
    (hdone : ∀ s ∈ done, ∀ linear<voxelCount, ∃ index, s.storage.paletteIndex linear=some index) :
    layerKeys todo (MixedRadix.size StoragePaletteFacts.base done)
          ((List.range voxelCount).map (keyOf done)) = some none ∧
        (∃ s ∈ done++todo, s.storage.paletteIndex (voxelCount-1) = none) ∨
      layerKeys todo (MixedRadix.size StoragePaletteFacts.base done) ((List.range voxelCount).map (keyOf done)) =
        some (some ((List.range voxelCount).map (keyOf (done++todo)))) ∧
      ∀ s ∈ done++todo, ∀ linear<voxelCount, ∃ index,
        s.storage.paletteIndex linear=some index := by
  induction todo generalizing done with
  | nil =>
    rw [append_nil]
    exact .inr ⟨rfl,hdone⟩
  | cons storage rest ih =>
    have happend : done++storage::rest=done ++ [storage] ++ rest := by
      rw [append_assoc,singleton_append]
    rw [happend] at hknown hsize ⊢
    have hmem : ∀ s ∈ done ++ [storage], s.storage.Known := fun s hs =>
      hknown s (mem_append_left _ hs)
    have hstorage := hmem storage (mem_append_right _ (mem_singleton_self _))
    have hfirst : MixedRadix.size StoragePaletteFacts.base (done ++ [storage]) ≤
        maxDecodedCombinations :=
      (MixedRadix.size_le_append fun s _=>base_pos s).trans hsize
    have hbase : storage.base ≤ maxDecodedCombinations := by
      rw [MixedRadix.size_concat] at hfirst
      exact (Nat.le_mul_of_pos_left _ (MixedRadix.size_pos fun s _=>base_pos s)).trans hfirst
    have hbits : storage.bits≤12 := by
      unfold StoragePaletteFacts.base maxDecodedCombinations at hbase
      exact (Nat.pow_le_pow_iff_right (by omega)).1 hbase
    obtain ⟨words,hshows⟩ := exists_shows hstorage
    rw [layerKeys]
    rcases hshows.unpackedIndices_eq (le_trans hbits (by omega)) with
      ⟨hshort,hnone⟩ | ⟨indices,hunpacked,hlen,hindices⟩
    · rw [hshort]
      exact .inl ⟨rfl,storage,by simp,hnone⟩
    · rw [hunpacked,Option.bind_eq_bind,Option.bind_some]
      dsimp only
      rw [addDigits_keys hlen hindices hmem hfirst,Option.bind_eq_bind,Option.bind_some, if_pos (by omega)]
      have hradix : asU16 (MixedRadix.size StoragePaletteFacts.base done <<< storage.bits) =
          MixedRadix.size StoragePaletteFacts.base (done ++ [storage]) := by
        rw [Nat.shiftLeft_eq,MixedRadix.size_concat]
        rw [MixedRadix.size_concat] at hfirst
        refine Nat.mod_eq_of_lt (lt_of_le_of_lt hfirst ?_)
        decide
      rw [hradix]
      refine ih (done ++ [storage]) hknown hsize fun s hs=>?_
      rcases mem_append.1 hs with hs | hs
      · exact hdone s hs
      · rw [mem_singleton] at hs
        subst hs
        intro linear hl
        exact ⟨_,((hindices linear hl).symm.trans (List.getElem?_eq_getElem (hlen ▸ hl)))⟩

lemma paletteIndex_of_keyOf (hknown : ∀ s ∈ storages, s.storage.Known)
    (hsome : ∀ s ∈ storages, ∀ linear<voxelCount, ∃ index,
      s.storage.paletteIndex linear=some index) {a b : ℕ} (ha : a<voxelCount)
    (hb : b<voxelCount) : keyOf storages a=keyOf storages b ↔
      ∀ s ∈ storages, s.storage.paletteIndex a=s.storage.paletteIndex b := by
  constructor
  · intro heq s hs
    have hdigits := MixedRadix.number_injective (digit_lt hknown ha) (digit_lt hknown hb) heq s hs
    obtain ⟨index,hindex⟩ := hsome s hs a ha
    obtain ⟨index',hindex'⟩ := hsome s hs b hb
    unfold digit at hdigits
    rw [hindex,hindex'] at hdigits ⊢
    exact congrArg some hdigits
  · intro heq
    unfold keyOf
    have hdigits : ∀ s ∈ storages, digit a s=digit b s := fun s hs=>by
      unfold digit
      rw [heq s hs]
    clear heq hsome hknown
    induction storages with
    | nil => rfl
    | cons s rest ih =>
      rw [MixedRadix.number,MixedRadix.number,hdigits s (.head _), ih fun s hs=>hdigits s (.tail _ hs)]

end Keys

end Cinnabar.Meshing
