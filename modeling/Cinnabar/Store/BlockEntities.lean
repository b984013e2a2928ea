import Cinnabar.Library.Entries
import Cinnabar.Library.Interruption
import Cinnabar.Nbt.Agreement

/-! # The block entities of the chunk store -/

namespace Cinnabar.Store

open Nbt List Function

def maxBlockEntitiesPerChunk : ℕ := 16384
def maxBlockEntitiesPerSubChunk : ℕ := 4096
def revisionMax : ℕ := 18446744073709551615

abbrev EntityMap : Type := Entries BlockEntityKey BlockEntityNbt

def entityBytes (entities : EntityMap) : ℕ := entities.weight fun nbt=>nbt.bytes.length

def saturatingAdd (a b : ℕ) : ℕ := min (a+b) usizeMax

section Decoding

/-- What a decode keeps: distinct positions within the scope, within the limits. -/
structure Sound (scope : BlockEntityScope) (maxEntities : ℕ) (decoded : Decoded) : Prop where
  nodup : (decoded.entities.map Prod.fst).Nodup
  inScope : ∀ key ∈ decoded.entities.map Prod.fst, scope.contains key=true
  counted : decoded.retainedBytes = (decoded.entities.map fun entity=>entity.2.bytes.length).sum
  bytes : decoded.retainedBytes ≤ maxBlockEntityBytesPerChunk
  length : decoded.entities.length ≤ maxEntities

variable {scope : BlockEntityScope} {maxEntities : ℕ} {decoded : Decoded}

lemma Sound.keep (h : Sound scope maxEntities decoded) (nbt : BlockEntityNbt)
    (hroom : decoded.entities.length < maxEntities) :
    Sound scope maxEntities (decoded.keep scope nbt) := by
  unfold Decoded.keep
  split
  · exact h
  dsimp only
  split
  case isFalse => exact h
  rename_i hscope
  rw [Bool.and_eq_true,Bool.not_eq_true'] at hscope
  split
  case isFalse => exact h
  rename_i hbytes
  refine ⟨?_,?_,?_,hbytes,?_⟩
  · rw [map_append,map_singleton]
    refine List.Nodup.append h.nodup (nodup_singleton _) ?_
    rw [disjoint_singleton]
    intro hmem
    obtain ⟨entity,hentity,heq⟩ := mem_map.1 hmem
    have htaken := any_eq_false.1 hscope.2 entity hentity
    rw [heq] at htaken
    exact htaken (decide_eq_true rfl)
  · intro key hmem
    rw [map_append,mem_append,map_singleton,mem_singleton] at hmem
    rcases hmem with hmem | rfl
    · exact h.inScope key hmem
    · exact hscope.1
  · rw [map_append,sum_append,map_singleton,sum_singleton,h.counted]
  · rw [length_append,length_singleton]
    exact hroom

lemma Sound.within {fuel : ℕ} {input : Bytes} {result : Decoded} (h : Sound scope maxEntities decoded)
    (hresult : decodeScopedWithin scope maxEntities fuel input decoded=some result) :
    Sound scope maxEntities result := by
  induction fuel generalizing input decoded with
  | zero =>
    cases input with
    | nil =>
      exact Option.some.inj hresult ▸ h
    | cons tag rest =>
      rw [decodeScopedWithin] at hresult
      split at hresult
      · exact Option.some.inj hresult ▸ h
      · cases hresult
  | succ fuel ih =>
    cases input with
    | nil =>
      exact Option.some.inj hresult ▸ h
    | cons tag rest =>
      rw [decodeScopedWithin] at hresult
      split at hresult
      · exact Option.some.inj hresult ▸ h
      rename_i hroom
      split at hresult
      · exact ih h hresult
      split at hresult
      · exact Option.some.inj hresult ▸ h
      · refine ih ?_ hresult
        split
        · exact h
        · exact h.keep _ (not_le.1 hroom)

section

variable (scope : BlockEntityScope)

section

variable (payload : Bytes)

section

variable (maxEntities : ℕ)

def decodeScope : Decoded :=
  (decodeScopedEntities scope payload maxEntities).get (decodeScopedWithin_isSome scope maxEntities _ le_rfl)

lemma sound_decodeScope : Sound scope maxEntities (decodeScope scope payload maxEntities) := by
  have hempty : Sound scope maxEntities ⟨[],0⟩ := ⟨nodup_nil,by simp,rfl,Nat.zero_le _,Nat.zero_le _⟩
  exact hempty.within (Option.some_get _).symm

def decodeEntities : EntityMap :=
  ⟨(decodeScope scope payload maxEntities).entities, (sound_decodeScope scope payload maxEntities).nodup⟩

def decodeLevelChunkTail (chunk : ChunkKey) (yStart yEnd : ℤ) (payload : Bytes) : EntityMap :=
  decodeEntities (.chunk chunk yStart yEnd) ((payload.drop 1).drop (payload.headD 0).toNat) maxBlockEntitiesPerChunk

def decodeSubChunkTail (subChunk : SubChunkKey) (payload : Bytes) : EntityMap :=
  decodeEntities (.subChunk subChunk) payload maxBlockEntitiesPerSubChunk

lemma entityBytes_decodeEntities :
    entityBytes (decodeEntities scope payload maxEntities) ≤ maxBlockEntityBytesPerChunk := by
  have hsound := sound_decodeScope scope payload maxEntities
  have hbytes := hsound.bytes
  rw [hsound.counted] at hbytes
  exact hbytes

end

end

end

variable {key : BlockEntityKey}

lemma chunk_of_mem_levelChunkTail {chunk : ChunkKey} {yStart yEnd : ℤ} {payload : Bytes} (h : key ∈ (decodeLevelChunkTail chunk yStart yEnd payload).keys) :
    key.chunk=chunk := by
  have hscope := (sound_decodeScope _ _ _).inScope key h
  rw [BlockEntityScope.contains,Bool.and_eq_true,decide_eq_true_eq] at hscope
  exact hscope.1

lemma subChunk_of_mem_subChunkTail {subChunk : SubChunkKey} {payload : Bytes} (h : key ∈ (decodeSubChunkTail subChunk payload).keys) :
    key.subChunk=subChunk :=
  of_decide_eq_true ((sound_decodeScope _ _ _).inScope key h)

end Decoding

/-- A column: its sections, biomes and block entities, and the bytes of these. -/
structure Chunk (S B : Type) where
  subChunks : Entries ℤ S
  biomes : Option B
  blockEntities : EntityMap
  blockEntityBytes : ℕ

namespace Chunk

variable {S B : Type}

def default : Chunk S B := ⟨.empty,none,.empty,0⟩

def isEmpty (chunk : Chunk S B) : Bool :=
  chunk.subChunks.isEmpty && chunk.biomes.isNone && chunk.blockEntities.isEmpty

end Chunk

/-- What the store asks of sections and block entities it does not look into. -/
structure Contents (S A : Type) where
  hasNoStorages : S → Bool
  same : S → S → Bool
  blocksMatch : S → S → Bool
  shapeActor : BlockEntityNbt → Option A

structure ChunkStore (S B : Type) where
  chunks : ChunkKey → Option (Chunk S B)
  loadedChunks : ChunkKey → Bool
  authoritativeSubChunks : SubChunkKey → Bool
  collisionRevisions : ChunkKey → Option ℕ
  nextRevision : ℕ

inductive Refusal where
  | collisionRevision
  | positionMismatch (expected actual : ℤ × ℤ × ℤ)
  | tooManyEntities (max : ℕ)
  | chunkEntityBytesTooLarge (len max : ℕ)
deriving DecidableEq

/-- An operation is refused, or fails an expectation and takes the client down. -/
inductive Fault where
  | refused (refusal : Refusal)
  | panicked
deriving DecidableEq

abbrev StoreM (S B : Type) := EStateM Fault (ChunkStore S B)

/-- A section of a batch of block updates, prepared for its commit. -/
structure PreparedSubChunkMutation (S : Type) where
  key : SubChunkKey
  replacement : Option S
  changed : Bool

/-- A decoded column; its block entities come with the range of their scope. -/
structure DecodedLevelChunk (S B : Type) where
  subChunks : Entries ℤ S
  biomes : Option B
  blockEntities : Option EntityMap

namespace ChunkStore

variable {S B : Type}

def default : ChunkStore S B := ⟨fun _=>none,fun _=>false,fun _=>false,fun _=>none,1⟩

def putChunk (key : ChunkKey) (chunk : Option (Chunk S B)) (store : ChunkStore S B) :
    ChunkStore S B := { store with chunks := update store.chunks key chunk }

/-- Keeps a changed column unless nothing is left in it. -/
def settleChunk (key : ChunkKey) (chunk : Chunk S B) (store : ChunkStore S B) : ChunkStore S B :=
  store.putChunk key (if chunk.isEmpty then none else some chunk)

variable (store : ChunkStore S B)

def isSubChunkLoaded (key : SubChunkKey) : Bool :=
  store.loadedChunks key.chunk || store.authoritativeSubChunks key

/-- The column, or the empty one it would start from. -/
def chunkOrDefault (key : ChunkKey) : Chunk S B :=
  (store.chunks key).getD .default

def previousEntities (key : ChunkKey) : EntityMap :=
  ((store.chunks key).map Chunk.blockEntities).getD .empty

def previousBytes (key : ChunkKey) : ℕ :=
  ((store.chunks key).map Chunk.blockEntityBytes).getD 0

end ChunkStore

section Revisions

variable {S B : Type}

def allocateBatch (count : ℕ) : StoreM S B (List ℕ) := do
  if count=0 then pure []
  else
    let store ← get
    let last := store.nextRevision + (count-1)
    if store.nextRevision=0 ∨ revisionMax<last then throw (.refused .collisionRevision)
    else
      set { store with nextRevision := if last=revisionMax then 0 else last+1 }
      pure (List.range' store.nextRevision count)

def allocate : StoreM S B ℕ := do
  match ← allocateBatch 1 with
  | revision::_ => pure revision
  | [] => throw .panicked

def reserveLoadedChange (key : SubChunkKey) : StoreM S B (Option ℕ) := do
  let store ← get
  if store.isSubChunkLoaded key then do
    let revision ← allocate
    pure (some revision)
  else pure none

def reserveActorChange (chunk : ChunkKey) (changed : Bool) : StoreM S B (Option ℕ) := do
  let store ← get
  if changed && (store.collisionRevisions chunk).isSome then do
    let revision ← allocate
    pure (some revision)
  else pure none

variable {A : Type} [DecidableEq A] (contents : Contents S A)

def shapes (scope : Option SubChunkKey) (entities : EntityMap) : List (BlockEntityKey × A) :=
  entities.toList.filterMap fun entity =>
    if scope.all fun key=>entity.1.subChunk=key then
      (contents.shapeActor entity.2).map fun actor=>(entity.1,actor)
    else none

def reserveActorReplacement (chunk : ChunkKey) (scope : Option SubChunkKey)
    (replacement : EntityMap) : StoreM S B (Option ℕ) := do
  let store ← get
  let previous := shapes contents scope (store.previousEntities chunk)
  let replacement := shapes contents none replacement
  reserveActorChange chunk (!(previous.all (· ∈ replacement) && replacement.all (· ∈ previous)))

def setCollisionRevision (key : ChunkKey) (revision : ℕ) : StoreM S B Unit :=
  modify fun store =>
    { store with collisionRevisions := update store.collisionRevisions key (some revision) }

/-- Publishes the newest reservation where two changes share one commit. -/
def applyReservedRevision (key : ChunkKey) (revision : Option ℕ) : StoreM S B Unit := do
  match revision with
  | none => pure ()
  | some revision =>
    let store ← get
    setCollisionRevision key (match store.collisionRevisions key with
      | none => revision
      | some current => max current revision)

end Revisions

section Sections

variable {S B A : Type} [DecidableEq A] (contents : Contents S A) (key : SubChunkKey)

def removeSubChunkWithoutRevision : StoreM S B (Option SubChunkKey) := do
  let store ← get
  match store.chunks key.chunk with
  | none => pure none
  | some chunk =>
    set (store.settleChunk key.chunk { chunk with subChunks := chunk.subChunks.erase key.y })
    pure (if (chunk.subChunks.find key.y).isSome then some key else none)

def removeSubChunk : StoreM S B (Option SubChunkKey) := do
  let store ← get
  match (store.chunks key.chunk).bind fun chunk=>chunk.subChunks.find key.y with
  | none => pure none
  | some _ => do
    let revision ← reserveLoadedChange key
    let removed ← removeSubChunkWithoutRevision key
    applyReservedRevision key.chunk revision
    pure removed

def insertSubChunk (subChunk : S) : StoreM S B Unit :=
  modify fun store =>
    let chunk := store.chunkOrDefault key.chunk
    store.putChunk key.chunk (some { chunk with subChunks := chunk.subChunks.insert key.y subChunk })

omit [DecidableEq A] in
def commitSubChunk (decoded : S) : StoreM S B (Option SubChunkKey) := do
  if contents.hasNoStorages decoded then removeSubChunk key
  else
    let store ← get
    let current := (store.chunks key.chunk).bind fun chunk=>chunk.subChunks.find key.y
    if current.any fun current=>contents.same current decoded then pure none
    else
      let revision ← reserveLoadedChange key
      insertSubChunk key decoded
      applyReservedRevision key.chunk revision
      pure (some key)

end Sections

section BlockEntities

variable {S B : Type}

def ensureChunkBlockEntityBytes (bytes : ℕ) : StoreM S B Unit :=
  if maxBlockEntityBytesPerChunk<bytes then
    throw (.refused (.chunkEntityBytesTooLarge bytes maxBlockEntityBytesPerChunk))
  else pure ()

def expectSub (total part : ℕ) : StoreM S B ℕ :=
  if total<part then throw .panicked else pure (total-part)

def reuseEqual (previous replacement : EntityMap) : EntityMap :=
  replacement.mapValues fun key nbt =>
    match previous.find key with
    | some known => if known.bytes=nbt.bytes then known else nbt
    | none => nbt

variable (key : SubChunkKey)

def validateSubChunkBlockEntityReplacement (replacement : EntityMap) :
    StoreM S B ℕ := do
  let store ← get
  let previous := store.previousEntities key.chunk
  let removed := previous.retain fun entity=>entity.subChunk=key
  let proposedCount := previous.length-removed.length+replacement.length
  if maxBlockEntitiesPerChunk<proposedCount then
    throw (.refused (.tooManyEntities maxBlockEntitiesPerChunk))
  else
    let retained ← expectSub (store.previousBytes key.chunk) (entityBytes removed)
    let proposedBytes := saturatingAdd retained (min (entityBytes replacement) usizeMax)
    ensureChunkBlockEntityBytes proposedBytes
    pure proposedBytes

def replaceSubChunkBlockEntities (replacement : EntityMap)
    (replacementBytes : ℕ) : StoreM S B Unit := do
  let store ← get
  let previous := store.previousEntities key.chunk
  let replacement := reuseEqual previous replacement
  let hasPrevious := previous.keys.any fun entity=>entity.subChunk=key
  if replacement.isEmpty && !hasPrevious then pure ()
  else
    let chunk := store.chunkOrDefault key.chunk
    let entities := (chunk.blockEntities.retain fun entity=>entity.subChunk≠key).extend replacement
    set (store.settleChunk key.chunk { chunk with blockEntities := entities, blockEntityBytes := replacementBytes })

def clearSubChunkBlockEntities : StoreM S B Unit := do
  let store ← get
  match store.chunks key.chunk with
  | none => pure ()
  | some chunk => do
    let removed := chunk.blockEntities.retain fun entity=>entity.subChunk=key
    let retained ← expectSub chunk.blockEntityBytes (min (entityBytes removed) usizeMax)
    set (store.settleChunk key.chunk
      { chunk with
        blockEntities := chunk.blockEntities.retain fun entity=>entity.subChunk≠key
        blockEntityBytes := retained })

variable {A : Type} [DecidableEq A] (contents : Contents S A)

def commitDecodedSubChunk (key : SubChunkKey) (subChunk : S) (blockEntities : EntityMap) :
    StoreM S B (Option SubChunkKey) := do
  let replacementBytes ← validateSubChunkBlockEntityReplacement key blockEntities
  let actorRevision ← reserveActorReplacement contents key.chunk (some key) blockEntities
  let changed ← commitSubChunk contents key subChunk
  replaceSubChunkBlockEntities key blockEntities replacementBytes
  applyReservedRevision key.chunk actorRevision
  pure changed

def position (key : BlockEntityKey) : ℤ × ℤ × ℤ := (key.x,key.y,key.z)

def embedded (nbt : BlockEntityNbt) : Option (ℤ × ℤ × ℤ) :=
  nbt.embeddedPosition.map fun (x,y,z)=>(x.toInt,y.toInt,z.toInt)

def commitBlockEntityUpdate (key : BlockEntityKey) (nbt : BlockEntityNbt) : StoreM S B Bool := do
  match (embedded nbt).filter (· ≠ position key) with
  | some actual => throw (.refused (.positionMismatch (position key) actual))
  | none =>
    let store ← get
    let previous := store.previousEntities key.chunk
    let replacing := previous.find key
    if replacing.any fun current=>current.bytes=nbt.bytes then pure false
    else if replacing.isNone && previous.length=maxBlockEntitiesPerChunk then
      throw (.refused (.tooManyEntities maxBlockEntitiesPerChunk))
    else
      let retained ← expectSub (store.previousBytes key.chunk) (replacing.elim 0 fun previous=>previous.bytes.length)
      let replacementBytes := saturatingAdd retained nbt.bytes.length
      ensureChunkBlockEntityBytes replacementBytes
      let actorRevision ← reserveActorChange key.chunk
        (decide (replacing.bind contents.shapeActor≠contents.shapeActor nbt))
      modify fun store =>
        let chunk := store.chunkOrDefault key.chunk
        store.putChunk key.chunk (some { chunk with
          blockEntities := chunk.blockEntities.insert key nbt
          blockEntityBytes := replacementBytes })
      applyReservedRevision key.chunk actorRevision
      pure true

def commitChunkBlockEntities (key : ChunkKey) (replacement : EntityMap) : StoreM S B Unit := do
  let actorRevision ← reserveActorReplacement contents key none replacement
  let store ← get
  let replacement := reuseEqual (store.previousEntities key) replacement
  if replacement.isEmpty && (store.chunks key).isNone then pure ()
  else
    let chunk := store.chunkOrDefault key
    set (store.settleChunk key { chunk with blockEntities := replacement, blockEntityBytes := entityBytes replacement })
    applyReservedRevision key actorRevision

def applyAllAir (key : SubChunkKey) : StoreM S B (Option SubChunkKey) := do
  let actorRevision ← reserveActorReplacement contents key.chunk (some key) .empty
  let changed ← removeSubChunk key
  clearSubChunkBlockEntities key
  applyReservedRevision key.chunk actorRevision
  pure changed

end BlockEntities

section Columns

variable {S B : Type}

/-- Marks a whole column as known. -/
def loadColumn (key : ChunkKey) : StoreM S B Unit :=
  modify fun store =>
    { store with
      loadedChunks := update store.loadedChunks key true
      authoritativeSubChunks := fun other =>
        if other.chunk=key then false else store.authoritativeSubChunks other }

def markChunkLoaded (key : ChunkKey) : StoreM S B Bool := do
  let store ← get
  if store.loadedChunks key then pure false
  else
    let revision ← allocate
    loadColumn key
    setCollisionRevision key revision
    pure true

def markSubChunkLoaded (key : SubChunkKey) : StoreM S B Bool := do
  let store ← get
  if store.isSubChunkLoaded key then pure false
  else
    let revision ← allocate
    modify fun store =>
      { store with
        authoritativeSubChunks := update store.authoritativeSubChunks key true }
    setCollisionRevision key.chunk revision
    pure true

def applyPrepared (mutation : PreparedSubChunkMutation S) : StoreM S B Unit := do
  if mutation.changed then
    match mutation.replacement with
    | some replacement => insertSubChunk mutation.key replacement
    | none =>
      let _ ← removeSubChunkWithoutRevision mutation.key
      pure ()
  else pure ()

def changedColumns (store : ChunkStore S B) (prepared : List (PreparedSubChunkMutation S)) :
    List ChunkKey :=
  (((prepared.filter fun mutation=>mutation.changed && store.isSubChunkLoaded mutation.key).map
    fun mutation=>mutation.key.chunk).dedup).mergeSort fun a b =>
      SubChunkKey.fromChunk a 0≤SubChunkKey.fromChunk b 0

/-- Commits a prepared batch; its revisions are allocated before anything changes. -/
def commitPreparedBlockUpdates (prepared : List (PreparedSubChunkMutation S)) :
    StoreM S B (List SubChunkKey) := do
  let store ← get
  let columns := changedColumns store prepared
  let allocated ← allocateBatch columns.length
  prepared.forM applyPrepared
  (columns.zip allocated).forM fun revision=>setCollisionRevision revision.1 revision.2
  pure ((prepared.filter PreparedSubChunkMutation.changed).map PreparedSubChunkMutation.key)

def detachChunk (key : ChunkKey) (store : ChunkStore S B) : ChunkStore S B :=
  { store.putChunk key none with
    loadedChunks := update store.loadedChunks key false
    authoritativeSubChunks := fun other =>
      if other.chunk=key then false else store.authoritativeSubChunks other
    collisionRevisions := update store.collisionRevisions key none }

/-- Removes whole columns. -/
def detachChunks (keys : List ChunkKey) : StoreM S B Unit :=
  modify fun store=>keys.foldl (fun store key=>detachChunk key store) store

def commitBiomeColumn (key : ChunkKey) (replacement : B) : StoreM S B Unit :=
  modify fun store =>
    store.putChunk key (some { store.chunkOrDefault key with biomes := some replacement })

variable {A : Type} [DecidableEq A] (contents : Contents S A) (old : Option (Chunk S B))

def residentSections (subChunks : Entries ℤ S) : Entries ℤ S :=
  subChunks.mapValues fun y replacement =>
    match old.bind fun chunk=>chunk.subChunks.find y with
    | some previous => if contents.blocksMatch previous replacement then previous else replacement
    | none => replacement

/-- Whether a section of a column comes, goes or no longer matches. -/
def sectionsChanged (subChunks : Entries ℤ S) : Bool :=
  let oldKeys := (old.map fun chunk=>chunk.subChunks.keys).getD []
  (oldKeys++subChunks.keys).any fun y =>
    match old.bind fun chunk=>chunk.subChunks.find y, subChunks.find y with
    | some previous, some replacement => !contents.blocksMatch previous replacement
    | none, none => false
    | _, _ => true

def publishColumn (key : ChunkKey) (newlyLoaded : Bool) : StoreM S B Unit :=
  if newlyLoaded then loadColumn key else pure ()

def reserveColumn (key : ChunkKey) (blocks : Bool) (blockEntities : EntityMap) :
    StoreM S B (Option ℕ) := do
  if blocks then do
    let revision ← allocate
    pure (some revision)
  else reserveActorReplacement contents key none blockEntities

def commitLevelChunk (key : ChunkKey) (decoded : DecodedLevelChunk S B) : StoreM S B Unit := do
  let store ← get
  let newlyLoaded := !store.loadedChunks key
  let old := store.chunks key
  let subChunks := residentSections contents old decoded.subChunks
  let biomes := decoded.biomes.orElse fun _=>old.bind Chunk.biomes
  let blockEntities := reuseEqual (store.previousEntities key) (decoded.blockEntities.getD (store.previousEntities key))
  let collisionChanged := sectionsChanged contents old decoded.subChunks
  let revision ← reserveColumn contents key (newlyLoaded || collisionChanged) blockEntities
  modify fun store =>
    store.putChunk key (if subChunks.isEmpty && biomes.isNone && blockEntities.isEmpty then none
      else some {
        subChunks := if collisionChanged then subChunks
          else (old.map Chunk.subChunks).getD subChunks
        biomes := biomes
        blockEntities := blockEntities
        blockEntityBytes := entityBytes blockEntities })
  publishColumn key newlyLoaded
  applyReservedRevision key revision

end Columns

end Cinnabar.Store
