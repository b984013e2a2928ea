import Cinnabar.BlobCache.Store

/-! # Cached packets -/

namespace Cinnabar.BlobCache

open Std

structure ColumnKey where
  dimension : ℤ
  x : ℤ
  z : ℤ
deriving DecidableEq

instance : Ord ColumnKey :=
  ⟨compareLex (compareOn (·.dimension)) (compareLex (compareOn (·.x)) (compareOn (·.z)))⟩

instance : TransOrd ColumnKey :=
  inferInstanceAs (TransCmp (compareLex (compareOn ColumnKey.dimension)
    (compareLex (compareOn ColumnKey.x) (compareOn ColumnKey.z))))

instance : LawfulEqOrd ColumnKey where
  eq_of_compare {a b} h := by
    obtain ⟨h₁,h₂⟩ := Ordering.then_eq_eq.1 h
    obtain ⟨h₂,h₃⟩ := Ordering.then_eq_eq.1 h₂
    have hdimension : a.dimension=b.dimension := Std.compare_eq_iff_eq.1 h₁
    have hx : a.x=b.x := Std.compare_eq_iff_eq.1 h₂
    have hz : a.z=b.z := Std.compare_eq_iff_eq.1 h₃
    cases a
    cases b
    cases hdimension
    cases hx
    cases hz
    rfl

inductive SubChunkRequestResult where
  | success
  | levelChunkDoesntExist
  | wrongDimension
  | playerDoesntExist
  | indexOutOfBounds
  | successAllAir
  | unknown (code : ℕ)
deriving DecidableEq

structure SubChunkPos where
  x : ℤ
  y : ℤ
  z : ℤ
deriving DecidableEq

structure SubChunkData where
  offset : SubChunkPos
  result : SubChunkRequestResult := .success
  serializedSubChunk : Option Bytes := none
  heightMapData : List ℤ := []
  blobId : Option ℕ := none
deriving DecidableEq

structure LevelChunk where
  dimension : ℤ
  x : ℤ
  z : ℤ
  subChunksCount : ℕ
  clientRequestSubChunkLimit : Option ℤ := none
  cacheEnabled : Bool
  cacheMetadata : List ℕ
  serializedChunkData : Bytes
deriving DecidableEq

structure SubChunk where
  cacheEnabled : Bool
  dimension : ℤ
  centerPos : SubChunkPos
  subChunkData : List SubChunkData
deriving DecidableEq

/-- A decoded packet; the resolver passes the other kinds through unread. -/
inductive Packet where
  | levelChunk (packet : LevelChunk)
  | subChunk (packet : SubChunk)
  | other (id : ℕ)
deriving DecidableEq

inductive PendingPacket where
  | levelChunk (packet : LevelChunk)
  | subChunk (packet : SubChunk)
deriving DecidableEq

structure ChunkResyncEvent where
  dimension : ℤ
  x : ℤ
  z : ℤ
  requestedSubChunks : Option ℕ
  requestedSubChunkYs : Option (List ℤ)
deriving DecidableEq

def ChunkResyncEvent.column (event : ChunkResyncEvent) : ColumnKey :=
  ⟨event.dimension,event.x,event.z⟩

structure SubChunkReplyAdmissionEvent where
  dimension : ℤ
  positions : List SubChunkPos
deriving DecidableEq

structure LevelChunkEvent where
  dimension : ℤ
  x : ℤ
  z : ℤ
  payload : Bytes
deriving DecidableEq

structure BlockUpdateEvent where
  dimension : ℤ
  position : SubChunkPos
  networkId : ℕ
deriving DecidableEq

inductive WorldEvent where
  | levelChunk (event : LevelChunkEvent)
  | subChunks (dimension : ℤ) (positions : List SubChunkPos)
  | blockUpdates (events : List BlockUpdateEvent)
  | syncedBlockUpdates (events : List BlockUpdateEvent)
  | blockEntityUpdate (dimension : ℤ) (position : SubChunkPos)
  | chunkResync (event : ChunkResyncEvent)
  | other (id : ℕ)
deriving DecidableEq

inductive ResolverReady where
  | packet (packet : Packet)
  | worldEvent (event : WorldEvent)
  | levelChunkBytes (event : LevelChunkEvent) (payload : Bytes)
deriving DecidableEq

inductive BlobCacheReady where
  | packet (packet : Packet)
  | worldEvent (event : WorldEvent)
deriving DecidableEq

def ResolverReady.intoPublic : ResolverReady → BlobCacheReady
  | .packet value => .packet value
  | .worldEvent event => .worldEvent event
  | .levelChunkBytes event payload => .worldEvent (.levelChunk { event with payload := payload })

/-- `i32::saturating_add` -/
def saturatingAddI32 (a b : ℤ) : ℤ := max i32Min (min i32Max (a+b))

def SubChunk.position (packet : SubChunk) (entry : SubChunkData) : SubChunkPos where
  x := saturatingAddI32 packet.centerPos.x entry.offset.x
  y := saturatingAddI32 packet.centerPos.y entry.offset.y
  z := saturatingAddI32 packet.centerPos.z entry.offset.z

def SubChunk.positions (packet : SubChunk) : List SubChunkPos :=
  packet.subChunkData.map packet.position

/-- First occurrences, in order: `stable_unique` and `stable_unique_columns`. -/
def stableUnique {α : Type} [DecidableEq α] (items : List α) : List α :=
  items.foldl (fun seen item=>if item ∈ seen then seen else seen ++ [item]) []

section References

def SubChunkData.reference (entry : SubChunkData) : Option ℕ :=
  if entry.result = .success then entry.blobId else none

def subchunkReferencedBlobHashes (packet : SubChunk) : List ℕ :=
  if packet.cacheEnabled then packet.subChunkData.filterMap SubChunkData.reference else []

def PendingPacket.referencedBlobHashes : PendingPacket → List ℕ
  | .levelChunk packet => packet.cacheMetadata
  | .subChunk packet => subchunkReferencedBlobHashes packet

def Packet.referencedBlobHashes : Packet → List ℕ
  | .levelChunk packet => packet.cacheMetadata
  | .subChunk packet => subchunkReferencedBlobHashes packet
  | .other _ => []

end References

section Columns

def LevelChunk.column (packet : LevelChunk) : ColumnKey := ⟨packet.dimension,packet.x,packet.z⟩

def pendingPacketColumns : PendingPacket → List ColumnKey
  | .levelChunk packet => [packet.column]
  | .subChunk packet =>
    if packet.cacheEnabled then
      stableUnique (packet.positions.map fun position=>⟨packet.dimension,position.x,position.z⟩)
    else []

/-- The column of a block; `div_euclid(16)` rounds down. -/
def blockColumn (dimension : ℤ) (position : SubChunkPos) : ColumnKey :=
  ⟨dimension,position.x.ediv 16,position.z.ediv 16⟩

def blockUpdateColumn (event : BlockUpdateEvent) : ColumnKey :=
  blockColumn event.dimension event.position

def readyValueColumns : ResolverReady → List ColumnKey
  | .levelChunkBytes event _ => [⟨event.dimension,event.x,event.z⟩]
  | .packet _ => []
  | .worldEvent (.levelChunk event) => [⟨event.dimension,event.x,event.z⟩]
  | .worldEvent (.subChunks dimension positions) =>
    stableUnique (positions.map fun position=>⟨dimension,position.x,position.z⟩)
  | .worldEvent (.blockUpdates events) => stableUnique (events.map blockUpdateColumn)
  | .worldEvent (.syncedBlockUpdates events) => stableUnique (events.map blockUpdateColumn)
  | .worldEvent (.blockEntityUpdate dimension position) => [blockColumn dimension position]
  | .worldEvent (.chunkResync _) => []
  | .worldEvent (.other _) => []

end Columns

section Recovery

def LevelChunk.resync (packet : LevelChunk) : ChunkResyncEvent :=
  ⟨packet.dimension,packet.x,packet.z,none,none⟩

/-- Section heights in the order a resync lists them. -/
def listedYs (ys : Finset ℤ) : List ℤ := ys.sort (· ≤ ·)

@[simp]
lemma mem_listedYs {ys : Finset ℤ} {y : ℤ} : y ∈ listedYs ys ↔ y ∈ ys := Finset.mem_sort _

def subChunkRecoveries (dimension : ℤ) (positions : List SubChunkPos) : List ChunkResyncEvent :=
  let columns : TreeMap ColumnKey (Finset ℤ) := positions.foldl (fun columns position =>
    let key : ColumnKey := ⟨dimension,position.x,position.z⟩
    columns.insert key (insert position.y (columns.getD key ∅))) ∅
  columns.toList.map fun column =>
    ⟨column.1.dimension,column.1.x,column.1.z,none,some (listedYs column.2)⟩

/-- A reply that cannot be cached at all is retried by its own deadline. -/
def chunkRecovery : Packet → Option ChunkResyncEvent
  | .levelChunk packet => some packet.resync
  | .subChunk _ => none
  | .other _ => none

def unadmittedPacketRecovery : PendingPacket → List ChunkResyncEvent
  | .levelChunk packet => [packet.resync]
  | .subChunk _ => []

def pendingPacketRecovery : PendingPacket → List ChunkResyncEvent
  | .levelChunk packet => [packet.resync]
  | .subChunk packet =>
    if packet.cacheEnabled then subChunkRecoveries packet.dimension packet.positions else []

def readyValueRecovery : ResolverReady → List ChunkResyncEvent
  | .packet (.levelChunk packet) => [packet.resync]
  | .packet (.subChunk packet) => subChunkRecoveries packet.dimension packet.positions
  | .packet (.other _) => []
  | .worldEvent _ => []
  | .levelChunkBytes _ _ => []

def cachedSubChunkAdmission : PendingPacket → Option SubChunkReplyAdmissionEvent
  | .levelChunk _ => none
  | .subChunk packet =>
    if packet.cacheEnabled ∧ packet.subChunkData ≠ [] then
      some ⟨packet.dimension,packet.positions⟩
    else none

end Recovery

section Splicing

variable (blob : ℕ → Bytes)

/-- The packet with its references replaced by their blobs, ahead of the inline tail. -/
def LevelChunk.splice (packet : LevelChunk) : LevelChunk :=
  { packet with
    cacheEnabled := false
    cacheMetadata := []
    serializedChunkData := packet.cacheMetadata.flatMap blob++packet.serializedChunkData }

def SubChunkData.splice (entry : SubChunkData) : SubChunkData :=
  { entry with
    blobId := none
    serializedSubChunk :=
      some (entry.reference.elim [] blob++entry.serializedSubChunk.getD []) }

def SubChunk.splice (packet : SubChunk) : SubChunk :=
  { packet with
    cacheEnabled := false
    subChunkData := packet.subChunkData.map (SubChunkData.splice blob) }

def PendingPacket.splice : PendingPacket → Packet
  | .levelChunk packet => .levelChunk (packet.splice blob)
  | .subChunk packet => .subChunk (packet.splice blob)

end Splicing

end Cinnabar.BlobCache

/-! # The resolver and the store it shares

Resolvers of several sessions share one store behind a lock.  Between two
critical sections of a resolver the others, the disk tier and direct inserts
may use the store; `World.interfere` runs what they do there.  The bytes held by
containers depend on the allocator, so they are given from outside.
-/

namespace Cinnabar.BlobCache

open Std

def maxClientBlobPendingTransactions : ℕ := 2048
def maxClientBlobRecoveryReadyEvents : ℕ := 2048
def maxClientBlobOrdinaryReadyEvents : ℕ := 64
def maxClientBlobOrdinaryReadyBytes : ℕ := 32*1024*1024
def maxClientBlobReconstructedBytes : ℕ := 32*1024*1024
def maxClientBlobStagedBytesPerTransaction : ℕ := 32*1024*1024
def maxClientBlobReadyBytes : ℕ := 32*1024*1024

/-- The content hash, the cache's limits and the size of one ordinary lane slot. -/
structure Platform where
  clientBlobHash : Bytes → ℕ
  limits : BlobCacheLimits
  immediateReadyBytes : ℕ

structure PendingTransaction where
  packet : PendingPacket
  hashes : List ℕ
  uniqueHashes : List ℕ
  ownedHashes : List ℕ
  unresolvedHashes : ℕ
  stagedBytes : ℕ
  columns : List ColumnKey
  accountedBytes : ℕ
deriving DecidableEq

def PendingTransaction.settleOne (transaction : PendingTransaction) : PendingTransaction :=
  { transaction with unresolvedHashes := transaction.unresolvedHashes-1 }

/-- Reconstructed cached work, or ordinary work: both lanes keep the same fields. -/
structure ReadyItem where
  value : ResolverReady
  columns : List ColumnKey
  accountedBytes : ℕ
  sequence : ℕ
deriving DecidableEq

structure RecoveryReady where
  dimension : ℤ
  x : ℤ
  z : ℤ
  requestedSubChunks : Option ℕ
  requestedSubChunkYs : Option (Finset ℤ)
deriving DecidableEq

def RecoveryReady.fromEvent (event : ChunkResyncEvent) : ColumnKey × RecoveryReady :=
  (event.column, ⟨event.dimension,event.x,event.z,event.requestedSubChunks,
      event.requestedSubChunkYs.map List.toFinset⟩)

def RecoveryReady.intoEvent (recovery : RecoveryReady) : ChunkResyncEvent :=
  ⟨recovery.dimension,recovery.x,recovery.z,recovery.requestedSubChunks, recovery.requestedSubChunkYs.map listedYs⟩

def RecoveryReady.merge (existing incoming : RecoveryReady) : RecoveryReady :=
  { existing with
    requestedSubChunkYs :=
      match existing.requestedSubChunkYs, incoming.requestedSubChunkYs with
      | some existingYs, some incomingYs => some (existingYs ∪ incomingYs)
      | some _, none => none
      | none, _ => none
    requestedSubChunks :=
      if incoming.requestedSubChunkYs.isNone then incoming.requestedSubChunks
      else existing.requestedSubChunks }

structure BlobCacheResolver where
  pending : TreeMap ℕ PendingTransaction := ∅
  pendingByHash : TreeMap ℕ (Finset ℕ) := ∅
  resolvedPending : Finset ℕ := ∅
  ready : TreeMap ℕ ReadyItem := ∅
  immediateReady : TreeMap ℕ ReadyItem := ∅
  recoveryReady : TreeMap ColumnKey RecoveryReady := ∅
  fastTransferResetArmed : Bool := false
  nextReadySequence : ℕ := 0
  pendingBytes : ℕ := 0
  ordinaryReadyBytes : ℕ := 0
  pendingAccountedBytes : ℕ := 0
  readyAccountedBytes : ℕ := 0
  retainedColumnSlots : ℕ := 0

/-- What another user of the store does while it holds the lock. -/
inductive Interference where
  | insert (payload : Bytes)
  | admitBody (hash : ℕ) (payload : Bytes)
  | fetch (hash : ℕ)
  | classify (hashes : List ℕ) (shouldPin : Bool)
  | unpinAll (hashes : List ℕ)
deriving DecidableEq

structure World where
  resolver : BlobCacheResolver := {}
  store : CacheStore := {}
  /-- The pins the other resolvers hold. -/
  foreign : ℕ → ℕ := fun _=>0
  interference : List (List Interference) := []
  containers : List ℕ := []

/-- An error the caller sees, or an `expect` that panics. -/
inductive Fault where
  | error (error : BlobCacheError)
  | resolvedExpect
  | accountingExpect
deriving DecidableEq

abbrev ResolverM := EStateM Fault World

def storeAfter {α : Type} (operation : StoreM α) (store : CacheStore) : CacheStore :=
  match operation store with
  | .ok _ store => store
  | .error _ store => store

def World.useStore {α : Type} (world : World) (operation : StoreM α) : World :=
  { world with store := storeAfter operation world.store }

variable (platform : Platform)

/-- Another resolver releases only pins it holds. -/
def Interference.apply (world : World) : Interference → World
  | .insert payload =>
    world.useStore (insertVerified platform.limits (platform.clientBlobHash payload) payload)
  | .admitBody hash payload =>
    world.useStore (Cinnabar.BlobCache.admitBody platform.clientBlobHash platform.limits hash payload)
  | .fetch hash => world.useStore (CacheStore.fetch hash)
  | .classify hashes shouldPin =>
    { world.useStore (Cinnabar.BlobCache.classify hashes shouldPin) with
      foreign := fun hash=>world.foreign hash + if shouldPin then hashes.count hash else 0 }
  | .unpinAll hashes =>
    if ∀ hash ∈ hashes, hashes.count hash≤world.foreign hash then
      { world with
        store := world.store.unpinAll platform.limits hashes
        foreign := fun hash=>world.foreign hash-hashes.count hash }
    else world

def World.interfere (world : World) : World :=
  match world.interference with
  | [] => world
  | batch::rest =>
    { batch.foldl (Interference.apply platform) world with interference := rest }

def lock {α : Type} (operation : StoreM α) : ResolverM α := fun world =>
  let world := world.interfere platform
  match operation world.store with
  | .ok value store => .ok value { world with store := store }
  | .error error store => .error (.error error) { world with store := store }

def readResolver : ResolverM BlobCacheResolver := do
  let world ← get
  pure world.resolver

def modifyResolver (change : BlobCacheResolver → BlobCacheResolver) : ResolverM PUnit :=
  modify fun world=>{ world with resolver := change world.resolver }

/-- The capacity of the containers a byte count covers, element sizes included. -/
def containerBytes : ResolverM ℕ := do
  let world ← get
  set { world with containers := world.containers.tail }
  pure (world.containers.headD 0)

def fail {α : Type} (error : BlobCacheError) : ResolverM α := throw (.error error)

/-- `checked_add(..).ok_or(ByteCountOverflow)?` -/
def addCounted (a b : ℕ) : ResolverM ℕ :=
  match checkedAddUsize a b with
  | some sum => pure sum
  | none => fail .byteCountOverflow

end Cinnabar.BlobCache
