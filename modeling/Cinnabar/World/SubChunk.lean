import Cinnabar.Nbt.Agreement
import Cinnabar.World.PaletteViews

/-! # Decoding sub-chunks and biomes

Malformed input never fails.
-/

namespace Cinnabar.World

open BitFields List

/-- At most one distinct value can be used by each block position. -/
def maxPaletteEntries : ℕ := blocksPerSubChunk

/-- Block storage layers read from a sub-chunk of version 8 or later. -/
def maxWireStorages : ℕ := 2

/-- Versions 0 and 2–7 carry legacy id bytes and data nibbles. -/
def legacyPayloadBytes : ℕ := blocksPerSubChunk+blocksPerSubChunk/2

/-- Storage widths that carry packed index words. -/
def packedBits : List ℕ := [1,2,3,4,5,6,8,16]

structure BlockIds where
  air : ℕ
  resolve : ℕ → ℕ
  resolvePersistent : Nbt.Entries → ℕ

structure BiomeIds where
  defaultBiome : ℕ
  resolve : ℕ → ℕ

/-- A cursor over the bytes, never past their end. -/
structure Reader (bytes : Bytes) where
  position : ℕ
  failedRead : Bool
  position_le : position≤bytes.length

/-- A read; `none` is a panic. -/
abbrev Decode (bytes : Bytes) (α : Type) : Type := StateT (Reader bytes) Option α

section Reads

variable {bytes : Bytes} {α : Type}

def Reader.new (bytes : Bytes) : Reader bytes := ⟨0,false,Nat.zero_le _⟩

variable (reader : Reader bytes)

def Reader.isAtEnd : Bool := bytes.length ≤ reader.position

def Reader.remaining : Bytes := bytes.drop reader.position

def isAtEnd : Decode bytes Bool := do return (← get).isAtEnd

def markFailed : Decode bytes Unit := modify fun reader=>{ reader with failedRead := true }

def skipToEnd : Decode bytes Unit := modify fun reader =>
  { reader with position := bytes.length, position_le := le_rfl }

def readU8 : Decode bytes UInt8 := fun reader =>
  if h : reader.position<bytes.length then
    some (bytes[reader.position],⟨reader.position+1,reader.failedRead,h⟩)
  else some (0,{ reader with failedRead := true })

def readExact (count : ℕ) : Decode bytes (Option Bytes) := fun reader =>
  if h : reader.position+count≤bytes.length then
    some (some (reader.remaining.take count),⟨reader.position+count,reader.failedRead,h⟩)
  else some (none,⟨bytes.length,true,le_rfl⟩)

/-- The groups of a varint from one on; bits past 32 are dropped. -/
def readVarGroups : ℕ → ℕ → UInt32 → Decode bytes Int32
  | 0, _, _ => pure 0
  | left+1, index, encoded => do
    if ← isAtEnd then
      markFailed
      return 0
    let byte ← readU8
    let encoded := encoded ||| (byte &&& 0x7f).toUInt32 <<< UInt32.ofNat (index*7)
    if byte &&& 0x80=0 then return Int32.ofBitVec (Nbt.unzigzag encoded.toBitVec)
    readVarGroups left (index+1) encoded

/-- Zigzag VarInt; an unterminated fifth byte yields zero. -/
def readVarI32 : Decode bytes Int32 := readVarGroups 5 0 0

def readTimes (p : Decode bytes α) : ℕ → Decode bytes (List α)
  | 0 => pure []
  | count+1 => do
    let value ← p
    let values ← readTimes p count
    return value::values

/-- The words of little-endian bytes; what is left over is ignored. -/
def leWords : Bytes → List ℕ
  | a::b::c::d::rest => Cinnabar.Reader.fromLe [a,b,c,d] :: leWords rest
  | _ => []

/-- `clamp`, which asserts that its bounds are in order. -/
def clamp (value low high : ℕ) : Option ℕ :=
  if low≤high then some (max low (min value high)) else none

def readPackedStorage (bitsPerIndex : ℕ) (entry : Decode bytes ℕ) : Decode bytes PalettedStorage := do
  let raw ← readExact (wordCount bitsPerIndex*4)
  let words := raw.elim (List.replicate (wordCount bitsPerIndex) 0) leWords
  let length ← readVarI32
  let paletteLen ← StateT.lift (clamp length.toInt.toNat 1 (min (2^bitsPerIndex) maxPaletteEntries))
  let palette ← readTimes entry paletteLen
  StateT.lift ((PalettedStorage.new bitsPerIndex words palette).zeroIndicesAtOrAbove paletteLen)

end Reads

section SubChunks

variable {bytes : Bytes}

/-- The length of the NBT value an input starts with, whatever is wrong with it. -/
def lenientNbtLen (input : Bytes) : ℕ :=
  match input with
  | [] => 0
  | tag::_ =>
    if tag=10 then (Nbt.scanPrefix input).elim input.length fun scanned=>scanned.2.1 else 1

variable (ids : BlockIds)

/-- A palette entry given by name; one that does not parse is air. -/
def readPersistent : Decode bytes ℕ := do
  let input := (← get).remaining
  let consumed := lenientNbtLen input
  let _ ← readExact consumed
  if input.length < consumed then failure
  else
    match (Nbt.decodePrefix (input.take consumed)).bind fun decoded=>Nbt.parse decoded.1.bytes with
    | some entry => return ids.resolvePersistent entry
    | none =>
      markFailed
      return ids.air

/-- A palette entry given by its network id, as an unsigned word. -/
def readRuntimeId : Decode bytes ℕ := do
  return ids.resolve (← readVarI32).toUInt32.toNat

def readBlockStorage : Decode bytes PalettedStorage := do
  let header ← readU8
  let entry := if header &&& 1=0 then readPersistent ids else readRuntimeId ids
  let bits := header.toNat >>> 1
  if bits=0 ∨ bits=0x7f then return .uniform (← entry)
  else if bits ∈ packedBits then readPackedStorage bits entry
  else return .uniform ids.air

structure SubChunk where
  version : UInt8
  yIndex : Option Int8
  storages : List PalettedStorage

variable (version : UInt8)

def readStorageCount : Decode bytes ℕ := do
  if 7<version then return min (← readU8).toNat maxWireStorages
  else return 1

def readYIndex : Decode bytes (Option Int8) := do
  if 8<version then return some (← readU8).toInt8
  else return none

def readLayer (ids : BlockIds) : Decode bytes PalettedStorage :=
  if 9<version then return .uniform ids.air
  else readBlockStorage ids

def SubChunk.read : Decode bytes SubChunk := do
  let version ← readU8
  if version=0 ∨ (2≤version ∧ version≤7) then
    let _ ← readExact legacyPayloadBytes
    return ⟨version,none,[]⟩
  let storageCount ← readStorageCount version
  let yIndex ← readYIndex version
  let storages ← readTimes (readLayer version ids) storageCount
  return ⟨version,yIndex,storages⟩

def SubChunk.decodePrefix (bytes : Bytes) (ids : BlockIds) : Option (SubChunk × ℕ) := do
  let (subChunk,reader) ← SubChunk.read ids (Reader.new bytes)
  return (subChunk,reader.position)

end SubChunks

section Biomes

variable {bytes : Bytes}

/-- A biome entry, as an unsigned half word. -/
def readBiomeId (ids : BiomeIds) : Decode bytes ℕ := do
  return ids.resolve (asU16 (← readVarI32).toUInt32.toNat)

/-- One slot of a column; `none` is empty. -/
def readBiomeSlot (ids : BiomeIds) : Decode bytes (Option PalettedStorage) := do
  if ← isAtEnd then return none
  let header ← readU8
  let bits := header.toNat >>> 1
  if bits=0x7f then return none
  else if bits=0 then return some (.uniform (← readBiomeId ids))
  else if bits ∈ packedBits then return some (← readPackedStorage bits (readBiomeId ids))
  else
    skipToEnd
    return none

def topLayerUpdates (s : PalettedStorage) : List (ℕ × ℕ) :=
  (List.range 16).flatMap fun x=>(List.range 16).flatMap fun z =>
    let biome := (s.runtimeId x 15 z).getD 0
    (List.range 16).map fun y=>(x <<< 8 ||| z <<< 4 ||| y,biome)

def extrudedTopLayer (s : PalettedStorage) : Option PalettedStorage := do
  let (_,extruded) ← (PalettedStorage.uniform ((s.runtimeId 0 15 0).getD 0)).applyRuntimeUpdates (topLayerUpdates s)
  return extruded

structure DecodedBiomeColumn where
  baseSubChunkY : ℤ
  storages : List PalettedStorage
  bytesConsumed : ℕ

def fillSlots (slots : List (Option PalettedStorage)) (fallback : PalettedStorage)
    (above : Option PalettedStorage) : List PalettedStorage :=
  let count := slots.length - (slots.reverse.takeWhile Option.isNone).length
  slots.zipIdx.map fun (slot,index) =>
    match slot, above with
    | some storage, _ => storage
    | none, some above => if count ≤ index then above else fallback
    | none, none => fallback

def DecodedBiomeColumn.decode (baseSubChunkY : ℤ) (storageCount : ℕ) (payload : Bytes)
    (ids : BiomeIds) : Option DecodedBiomeColumn := do
  let (slots,reader) ← readTimes (readBiomeSlot ids) storageCount (Reader.new payload)
  let above ← (slots.reverse.findSome? id).mapM extrudedTopLayer
  return ⟨baseSubChunkY,fillSlots slots (.uniform ids.defaultBiome) above,reader.position⟩

end Biomes

open PalettedStorage

/-- What a decoded storage gives later code: every index it packs and shows has a palette entry,
its views agree, and no history of updates fails. -/
structure PalettedStorage.Usable (s : PalettedStorage) : Prop where
  packed : ∃ words, s.words=some words ∧ words.length=wordCount s.bitsPerIndex ∧
    ∀ linear<blocksPerSubChunk, ∃ i < s.palette.length,
      if s.bitsPerIndex=0 then i=0 else readCell s.bitsPerIndex words linear=some i
  indices : ∀ linear<blocksPerSubChunk, ∃ i < s.palette.length, s.paletteIndex linear=some i
  views : s.ViewsAgree
  updates : ∀ ops, (runOps PalettedStorage.apply s ops).isSome=true

lemma Agrees.usable {s r : PalettedStorage} {index cell : ℕ → ℕ} (h : Agrees s r index cell) : s.Usable where
  packed := by
    have hshown := h.sameShown
    have hunedited := h.decoded.edits_eq
    have hbits : s.bitsPerIndex=r.physicalBits := by
      rw [hshown.bitsPerIndex,bitsPerIndex,hunedited]
      rfl
    refine ⟨r.physicalWords,?_,?_,fun linear hl=>⟨index linear,?_,?_⟩⟩
    · rw [hshown.words,PalettedStorage.words,hunedited]
    · rw [hbits]
      exact h.decoded.length_eq
    · rw [hshown.palette]
      exact h.decoded.index_lt linear hl
    · rw [hbits]
      split
      · rename_i hz
        exact h.decoded.index_zero hz hl
      · rename_i hne
        have hindex := h.decoded.physicalIndex_eq hl
        rwa [physicalIndex,if_neg (Nat.not_le.2 hl),if_neg hne] at hindex
  indices := by
    intro linear hl
    obtain ⟨i,hindex,hlt,-⟩ := h.exists_paletteIndex hl
    exact ⟨i,hlt,hindex⟩
  views := h.viewsAgree
  updates := by
    intro ops
    obtain ⟨flags,s',r',index',cell',hrun,-⟩ := h.runOps ops
    rw [hrun]
    rfl

lemma PalettedStorage.Valid.usable {s : PalettedStorage} (h : s.Valid) : s.Usable := by
  obtain ⟨index,cell,hagrees⟩ := h.agrees
  exact hagrees.usable

lemma valid_uniform (runtimeId : ℕ) : (uniform runtimeId).Valid where
  edits_eq := rfl
  bits_mem := .head _
  length_eq := rfl
  word_lt := fun word hword=>absurd hword not_mem_nil
  index_lt := by
    intro linear hl
    refine ⟨0,?_,Nat.zero_lt_one⟩
    rw [physicalIndex,if_neg (Nat.not_le.2 hl)]
    rfl

section Repair

structure Repaired (bits paletteLen : ℕ) (palette : List ℕ) (seen : List ℕ) (s : PalettedStorage) :
    Prop where
  edits_eq : s.edits=none
  bits_eq : s.physicalBits=bits
  palette_eq : s.palette=palette
  length_eq : s.physicalWords.length=wordCount bits
  word_lt : ∀ word ∈ s.physicalWords, word<2^32
  index_lt : ∀ linear ∈ seen, linear<blocksPerSubChunk → ∃ i<paletteLen, s.paletteIndex linear=some i

variable {bits paletteLen : ℕ} {palette : List ℕ}

section

variable (hbits : bits ∈ supportedBits)
include hbits

lemma readCell_of_wordCount (hne : bits≠0) {words : List ℕ}
    (hlength : words.length=wordCount bits) {linear : ℕ} (hl : linear<blocksPerSubChunk) :
    ∃ i<2^bits, readCell bits words linear=some i := by
  have hlt : linear/perWord bits<words.length := by
    rw [hlength,wordCount,if_neg hne]
    exact word_lt_wordsFor (perWord_pos_of_supported hbits hne) hl
  refine ⟨getField bits (linear % perWord bits*bits) words[linear/perWord bits],getField_lt,?_⟩
  rw [readCell,List.getElem?_eq_getElem hlt]
  rfl

/-- Repairing one cell leaves the others. -/
lemma Repaired.step (hne : bits≠0) (hpos : 0<paletteLen)
    {seen : List ℕ} {s : PalettedStorage} (h : Repaired bits paletteLen palette seen s) {linear : ℕ}
    (hl : linear<blocksPerSubChunk) : ∃ s', s.zeroIndexAtOrAbove paletteLen linear=some s' ∧
      Repaired bits paletteLen palette (seen ++ [linear]) s' := by
  have hindex : ∀ (s : PalettedStorage), s.edits=none → s.physicalBits=bits →
      ∀ other<blocksPerSubChunk, s.paletteIndex other=readCell bits s.physicalWords other := by
    intro s hedits heq other hother
    rw [paletteIndex_unedited hedits,physicalIndex,if_neg (Nat.not_le.2 hother),heq,if_neg hne]
  obtain ⟨i,-,hread⟩ := readCell_of_wordCount hbits hne h.length_eq hl
  have hi : s.paletteIndex linear=some i := (hindex s h.edits_eq h.bits_eq linear hl).trans hread
  unfold zeroIndexAtOrAbove
  rw [hi]
  dsimp only
  by_cases hout : paletteLen ≤ i
  · rw [if_pos hout,h.bits_eq,writePaletteIndex,if_neg hne,if_pos]
    · refine ⟨_,rfl,h.edits_eq,rfl,h.palette_eq,?_,writeCell_lt (perWord_pos_of_supported hbits hne)
        h.word_lt,fun other hmem hother=>?_⟩
      · exact (length_modify _ _ _).trans h.length_eq
      · rw [hindex ⟨bits,writeCell bits s.physicalWords linear 0,s.palette,s.edits⟩ h.edits_eq rfl other hother]
        obtain ⟨old,-,hold⟩ := readCell_of_wordCount hbits hne h.length_eq hother
        refine ⟨_,?_,readCell_writeCell (perWord_pos_of_supported hbits hne) hold⟩
        by_cases heq : other=linear
        · rw [heq,Function.update_self,Nat.zero_mod]
          exact hpos
        · rw [Function.update_of_ne heq]
          have hseen := (mem_append.1 hmem).resolve_right fun hmem=>heq (mem_singleton.1 hmem)
          obtain ⟨j,hj,hshown⟩ := h.index_lt other hseen hother
          rw [hindex s h.edits_eq h.bits_eq other hother,hold] at hshown
          cases hshown
          exact hj
    · rw [h.length_eq,wordCount,if_neg hne]
      exact word_lt_wordsFor (perWord_pos_of_supported hbits hne) hl
  · rw [if_neg hout]
    refine ⟨s,rfl,h.edits_eq,h.bits_eq,h.palette_eq,h.length_eq,h.word_lt,fun other hmem hother=>?_⟩
    rcases mem_append.1 hmem with hseen | hlast
    · exact h.index_lt other hseen hother
    · rw [mem_singleton.1 hlast]
      exact ⟨i,Nat.lt_of_not_le hout,hi⟩

/-- The repair never fails, and leaves an entry for every cell. -/
lemma zeroIndicesAtOrAbove_valid (hne : bits≠0)
    (hpos : 0<palette.length) {words : List ℕ} (hlength : words.length=wordCount bits)
    (hwords : ∀ word ∈ words, word<2^32) :
    ∃ s, (new bits words palette).zeroIndicesAtOrAbove palette.length=some s ∧ s.Valid := by
  have hstart : Repaired bits palette.length palette [] (new bits words palette) :=
    ⟨rfl,rfl,rfl,hlength,hwords,fun linear hmem=>absurd hmem not_mem_nil⟩
  change ∃ s, (if bits=0 ∨ 2^bits≤palette.length then some (new bits words palette)
    else _) = some s ∧ s.Valid
  split
  · rename_i hwide
    refine ⟨_,rfl,rfl,hbits,hlength,hwords,fun linear hl=>?_⟩
    obtain ⟨i,hi,hread⟩ := readCell_of_wordCount hbits hne hlength hl
    refine ⟨i,?_,hi.trans_le (hwide.resolve_left hne)⟩
    rw [physicalIndex,if_neg (Nat.not_le.2 hl)]
    exact (if_neg hne).trans hread
  · obtain ⟨s,hrun,hrepaired⟩ := foldlM_exists_some (l := List.range blocksPerSubChunk)
      (I := Repaired bits palette.length palette) hstart fun pre linear post s hsplit hs =>
        hs.step hbits hne hpos (mem_range.1 (by rw [hsplit]; simp))
    refine ⟨s,hrun,hrepaired.edits_eq,?_,?_,hrepaired.word_lt,fun linear hl=>?_⟩
    · rw [hrepaired.bits_eq]
      exact hbits
    · rw [hrepaired.bits_eq]
      exact hrepaired.length_eq
    · obtain ⟨i,hi,hindex⟩ := hrepaired.index_lt linear (mem_range.2 hl) hl
      rw [paletteIndex_unedited hrepaired.edits_eq] at hindex
      refine ⟨i,hindex,?_⟩
      rw [hrepaired.palette_eq]
      exact hi

end

end Repair

section Yields

variable {bytes : Bytes} {α β : Type}

def Yields (p : Decode bytes α) (Q : α → Prop) : Prop :=
  ∀ reader, ∃ value reader', p reader=some (value,reader') ∧ Q value

variable {p : Decode bytes α} {f : α → Decode bytes β} {P : α → Prop} {Q : β → Prop}

lemma Yields.pure {value : α} (h : P value) : Yields (pure value : Decode bytes α) P :=
  fun reader=>⟨value,reader,rfl,h⟩

lemma Yields.bind (h : Yields p P) (h' : ∀ value, P value → Yields (f value) Q) : Yields (p >>= f) Q := by
  intro reader
  obtain ⟨value,next,hread,hvalue⟩ := h reader
  obtain ⟨result,last,hnext,hresult⟩ := h' value hvalue next
  refine ⟨result,last,?_,hresult⟩
  change (p reader).bind _=_
  rw [hread]
  exact hnext

lemma Yields.get {f : Reader bytes → Decode bytes β} (h : ∀ reader, Yields (f reader) Q) :
    Yields (get >>= f) Q := fun reader=>h reader reader

lemma Yields.lift {m : Option α} {value : α} (h : m=some value) (hvalue : P value) :
    Yields (StateT.lift m : Decode bytes α) P := by
  subst h
  exact fun reader=>⟨value,reader,rfl,hvalue⟩

lemma Yields.readTimes (h : Yields p P) (count : ℕ) :
    Yields (readTimes p count) fun values=>values.length=count ∧ ∀ value ∈ values, P value := by
  induction count with
  | zero => exact .pure ⟨rfl,fun value hvalue=>absurd hvalue not_mem_nil⟩
  | succ count ih =>
    refine h.bind fun value hvalue=>ih.bind fun values hvalues=>.pure ⟨?_,?_⟩
    · rw [length_cons,hvalues.1]
    · exact forall_mem_cons.2 ⟨hvalue,hvalues.2⟩

lemma yields_modify (change : Reader bytes → Reader bytes) : Yields (modify change : Decode bytes Unit) fun _=>True :=
  fun reader=>⟨(),change reader,rfl,trivial⟩

lemma yields_isAtEnd : Yields (isAtEnd : Decode bytes Bool) fun _=>True :=
  fun reader=>⟨reader.isAtEnd,reader,rfl,trivial⟩

lemma yields_readU8 : Yields (readU8 : Decode bytes UInt8) fun _=>True := by
  intro reader
  unfold readU8
  split
  · exact ⟨_,_,rfl,trivial⟩
  · exact ⟨_,_,rfl,trivial⟩

lemma yields_readExact (count : ℕ) : Yields (readExact count : Decode bytes (Option Bytes))
    fun raw=>∀ taken, raw=some taken → taken.length=count := by
  intro reader
  unfold readExact
  split
  · refine ⟨_,_,rfl,fun taken hsome=>?_⟩
    cases hsome
    rw [length_take,Reader.remaining,length_drop]
    omega
  · exact ⟨_,_,rfl,fun taken hsome=>by cases hsome⟩

lemma yields_readVarGroups (left index : ℕ) (encoded : UInt32) :
    Yields (readVarGroups left index encoded : Decode bytes Int32) fun _=>True := by
  induction left generalizing index encoded with
  | zero => exact .pure trivial
  | succ left ih =>
    refine yields_isAtEnd.bind fun done _=>?_
    split
    · exact (yields_modify _).bind fun _ _=>.pure trivial
    · refine yields_readU8.bind fun byte _=>?_
      split
      · exact .pure trivial
      · exact ih _ _

lemma yields_readVarI32 : Yields (readVarI32 : Decode bytes Int32) fun _=>True :=
  yields_readVarGroups 5 0 0

lemma leWords_spec (bytes : Bytes) : (leWords bytes).length=bytes.length/4 ∧ ∀ word ∈ leWords bytes, word<2^32 := by
  induction bytes using leWords.induct with
  | case1 a b c d rest ih =>
    rw [leWords]
    refine ⟨?_,forall_mem_cons.2 ⟨?_,ih.2⟩⟩
    · simp only [length_cons]
      omega
    · exact (Cinnabar.Reader.fromLe_lt [a,b,c,d]).trans_eq (by norm_num)
  | case2 bytes hshort =>
    rcases bytes with _ | ⟨a,_ | ⟨b,_ | ⟨c,_ | ⟨d,rest⟩⟩⟩⟩
    · simp [leWords]
    · simp [leWords]
    · simp [leWords]
    · simp [leWords]
    · exact absurd rfl (hshort a b c d rest)

end Yields

section Decoders

variable {bytes : Bytes}

lemma yields_readPackedStorage {bits : ℕ} (hbits : bits ∈ packedBits) {entry : Decode bytes ℕ}
    (hentry : Yields entry fun _=>True) :
    Yields (readPackedStorage bits entry) PalettedStorage.Valid := by
  have hsupported : bits ∈ supportedBits := .tail _ hbits
  have hne : bits≠0 := by
    rintro rfl
    exact absurd hbits (by decide)
  refine (yields_readExact _).bind fun raw hraw=>?_
  have hwords : (raw.elim (List.replicate (wordCount bits) 0) leWords).length=wordCount bits ∧
      ∀ word ∈ raw.elim (List.replicate (wordCount bits) 0) leWords, word<2^32 := by
    cases raw with
    | none =>
      refine ⟨length_replicate,fun word hword=>?_⟩
      rw [eq_of_mem_replicate hword]
      exact Nat.two_pow_pos 32
    | some taken =>
      obtain ⟨hlength,hlt⟩ := leWords_spec taken
      refine ⟨?_,hlt⟩
      rw [Option.elim_some,hlength,hraw taken rfl,Nat.mul_div_cancel _ (by omega)]
  refine yields_readVarI32.bind fun length _=>?_
  have hclamp : ∃ paletteLen, clamp length.toInt.toNat 1 (min (2^bits) maxPaletteEntries) =
      some paletteLen ∧ 0<paletteLen := by
    have hpow := Nat.two_pow_pos bits
    have hmax : 0 < maxPaletteEntries := by decide
    unfold clamp
    rw [if_pos (by omega)]
    exact ⟨_,rfl,by omega⟩
  obtain ⟨paletteLen,hclamp,hpos⟩ := hclamp
  refine (Yields.lift (P := fun value=>value=paletteLen) hclamp rfl).bind fun value hvalue=>?_
  subst hvalue
  refine (hentry.readTimes value).bind fun palette hpalette=>?_
  have hsome : 0<palette.length := hpalette.1 ▸ hpos
  obtain ⟨s,hrun,hvalid⟩ := zeroIndicesAtOrAbove_valid hsupported hne hsome hwords.1 hwords.2
  rw [hpalette.1] at hrun
  exact .lift hrun hvalid

lemma lenientNbtLen_le (input : Bytes) : lenientNbtLen input ≤ input.length := by
  cases input with
  | nil => exact le_rfl
  | cons tag rest =>
    rw [lenientNbtLen]
    split
    · cases hscan : Nbt.scanPrefix (tag::rest) with
      | none => exact le_rfl
      | some scanned => exact (Nbt.scanPrefix_consumes hscan).2
    · exact Nat.le_add_left 1 _

variable (ids : BlockIds)

lemma yields_readPersistent : Yields (readPersistent ids : Decode bytes ℕ) fun _=>True := by
  refine Yields.get fun reader=>(yields_readExact _).bind fun _ _=>?_
  rw [if_neg (Nat.not_lt.2 (lenientNbtLen_le _))]
  split
  · exact .pure trivial
  · exact (yields_modify _).bind fun _ _=>.pure trivial

lemma yields_readBlockStorage : Yields (readBlockStorage ids : Decode bytes PalettedStorage) PalettedStorage.Valid := by
  refine yields_readU8.bind fun header _=>?_
  have hentry : Yields (if header &&& 1=0 then readPersistent ids else readRuntimeId ids :
      Decode bytes ℕ) fun _=>True := by
    split
    · exact yields_readPersistent ids
    · exact yields_readVarI32.bind fun _ _=>.pure trivial
  dsimp only
  split
  · exact hentry.bind fun value _=>.pure (valid_uniform value)
  · split
    · rename_i hbits
      exact yields_readPackedStorage hbits hentry
    · exact .pure (valid_uniform _)

lemma yields_subChunk : Yields (SubChunk.read ids : Decode bytes SubChunk)
    fun subChunk=>∀ s ∈ subChunk.storages, s.Valid := by
  refine yields_readU8.bind fun version _=>?_
  split
  · exact (yields_readExact _).bind fun _ _=>.pure fun s hs=>absurd hs not_mem_nil
  · have hcount : Yields (readStorageCount version : Decode bytes ℕ) fun _=>True := by
      unfold readStorageCount
      split
      · exact yields_readU8.bind fun _ _=>.pure trivial
      · exact .pure trivial
    have hindex : Yields (readYIndex version : Decode bytes (Option Int8)) fun _=>True := by
      unfold readYIndex
      split
      · exact yields_readU8.bind fun _ _=>.pure trivial
      · exact .pure trivial
    have hlayer : Yields (readLayer version ids : Decode bytes PalettedStorage)
        PalettedStorage.Valid := by
      unfold readLayer
      split
      · exact .pure (valid_uniform _)
      · exact yields_readBlockStorage ids
    refine hcount.bind fun count _=>hindex.bind fun yIndex _ =>
      (hlayer.readTimes count).bind fun storages hstorages=>?_
    exact .pure hstorages.2

lemma yields_readBiomeSlot (ids : BiomeIds) : Yields (readBiomeSlot ids :
    Decode bytes (Option PalettedStorage)) fun slot=>∀ s, slot=some s → s.Valid := by
  have hnone : ∀ s : PalettedStorage, none=some s → s.Valid := fun s hs=>by cases hs
  have hentry : Yields (readBiomeId ids : Decode bytes ℕ) fun _=>True := yields_readVarI32.bind fun _ _=>.pure trivial
  refine yields_isAtEnd.bind fun done _=>?_
  split
  · exact .pure hnone
  refine yields_readU8.bind fun header _=>?_
  dsimp only
  split
  · exact .pure hnone
  split
  · refine hentry.bind fun value _=>.pure fun s hs=>?_
    cases hs
    exact valid_uniform value
  split
  · rename_i hbits
    refine (yields_readPackedStorage hbits hentry).bind fun storage hstorage=>.pure fun s hs=>?_
    cases hs
    exact hstorage
  · exact (yields_modify _).bind fun _ _=>.pure hnone

lemma extrudedTopLayer_usable (s : PalettedStorage) :
    ∃ extruded, extrudedTopLayer s=some extruded ∧ extruded.Usable := by
  obtain ⟨index,cell,hagrees⟩ := (valid_uniform ((s.runtimeId 0 15 0).getD 0)).agrees
  obtain ⟨flag,extruded,r,index',cell',hrun,-,hagrees'⟩ := hagrees.applyRuntimeUpdates (topLayerUpdates s)
  refine ⟨extruded,?_,hagrees'.usable⟩
  unfold extrudedTopLayer
  rw [hrun]
  rfl

lemma mem_fillSlots {slots : List (Option PalettedStorage)} {fallback s : PalettedStorage}
    {above : Option PalettedStorage} (h : s ∈ fillSlots slots fallback above) :
    some s ∈ slots ∨ above=some s ∨ s=fallback := by
  obtain ⟨⟨slot,index⟩,hmem,heq⟩ := mem_map.1 h
  have hslot : slot ∈ slots := by
    obtain ⟨-,-,hget⟩ := mem_zipIdx hmem
    exact hget ▸ getElem_mem _
  cases slot with
  | some storage =>
    cases heq
    exact .inl hslot
  | none =>
    cases above with
    | none =>
      cases heq
      exact .inr (.inr rfl)
    | some above =>
      dsimp only at heq
      split at heq
      · exact .inr (.inl (congrArg some heq))
      · exact .inr (.inr heq.symm)

lemma decodePrefix_usable (bytes : Bytes) (ids : BlockIds) : ∃ subChunk consumed,
    SubChunk.decodePrefix bytes ids=some (subChunk,consumed) ∧ consumed≤bytes.length ∧
      ∀ s ∈ subChunk.storages, s.Usable := by
  obtain ⟨subChunk,reader,hread,hvalid⟩ := yields_subChunk ids (Reader.new bytes)
  refine ⟨subChunk,reader.position,?_,reader.position_le,fun s hs=>(hvalid s hs).usable⟩
  rw [SubChunk.decodePrefix,hread]
  rfl

lemma decodeBiomes_usable (baseSubChunkY : ℤ) (storageCount : ℕ) (bytes : Bytes) (ids : BiomeIds) :
    ∃ column, DecodedBiomeColumn.decode baseSubChunkY storageCount bytes ids=some column ∧
      column.bytesConsumed≤bytes.length ∧ column.storages.length=storageCount ∧
        ∀ s ∈ column.storages, s.Usable := by
  obtain ⟨slots,reader,hread,hlength,hvalid⟩ := (yields_readBiomeSlot ids).readTimes storageCount (Reader.new bytes)
  have habove : ∃ above, (slots.reverse.findSome? id).mapM extrudedTopLayer=some above ∧
      ∀ s, above=some s → s.Usable := by
    cases slots.reverse.findSome? id with
    | none => exact ⟨none,rfl,fun s hs=>by cases hs⟩
    | some top =>
      obtain ⟨extruded,hrun,husable⟩ := extrudedTopLayer_usable top
      refine ⟨some extruded,?_,fun s hs=>by cases hs; exact husable⟩
      rw [Option.mapM_some,hrun]
      rfl
  obtain ⟨above,hrun,husable⟩ := habove
  refine ⟨⟨baseSubChunkY,fillSlots slots (.uniform ids.defaultBiome) above,reader.position⟩,?_,
    reader.position_le,?_,fun s hs=>?_⟩
  · rw [DecodedBiomeColumn.decode,hread,Option.bind_eq_bind,Option.bind_some]
    dsimp only
    rw [hrun,Option.bind_eq_bind,Option.bind_some]
    rfl
  · rw [fillSlots,length_map,length_zipIdx,hlength]
  · rcases mem_fillSlots hs with hslot | habove | rfl
    · exact (hvalid _ hslot s rfl).usable
    · exact husable s habove
    · exact (valid_uniform _).usable

/-- The decoders take any bytes, and later code can rely on every storage they leave. -/
theorem decoders_total (bytes : Bytes) : (∀ ids : BlockIds, ∃ subChunk consumed,
      SubChunk.decodePrefix bytes ids=some (subChunk,consumed) ∧ consumed ≤ bytes.length ∧
        ∀ s ∈ subChunk.storages, s.Usable) ∧
    ∀ (ids : BiomeIds) (baseSubChunkY : ℤ) (storageCount : ℕ), ∃ column,
      DecodedBiomeColumn.decode baseSubChunkY storageCount bytes ids=some column ∧
        column.bytesConsumed ≤ bytes.length ∧ column.storages.length=storageCount ∧ ∀ s ∈ column.storages, s.Usable :=
  ⟨decodePrefix_usable bytes,fun ids baseSubChunkY storageCount =>
    decodeBiomes_usable baseSubChunkY storageCount bytes ids⟩

end Decoders

end Cinnabar.World
