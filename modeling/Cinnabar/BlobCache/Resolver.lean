import Cinnabar.BlobCache.World

/-! # The resolver's operations -/

namespace Cinnabar.BlobCache

open Std

namespace BlobCacheResolver

variable (resolver : BlobCacheResolver)

def waiting (hash : ℕ) : Finset ℕ := resolver.pendingByHash.getD hash ∅

def retainedCachedTransactionCount : ℕ := resolver.pending.size+resolver.ready.size

def retainedRecoverySlotCount : ℕ := resolver.recoveryReady.size+resolver.retainedColumnSlots

def retainedOrdinaryBytes (platform : Platform) : Option ℕ := do
  let slots ← checkedMulUsize resolver.immediateReady.size platform.immediateReadyBytes
  resolver.immediateReady.toList.foldlM (fun total item=>checkedAddUsize total item.2.accountedBytes) slots

def shareColumn (left right : List ColumnKey) : Bool := left.any fun column=>column ∈ right

variable (sequence : ℕ)

/-- No earlier cached work names one of the columns. -/
def sequenceIsUnblocked (columns : List ColumnKey) : Bool :=
  columns.isEmpty ||
    !(resolver.pending.toList.any fun entry =>
        decide (entry.1 < sequence) && shareColumn entry.2.columns columns) &&
    !(resolver.ready.toList.any fun entry =>
        decide (entry.1 < sequence) && shareColumn entry.2.columns columns)

def firstUnblocked (lane : TreeMap ℕ ReadyItem) : Option (ℕ × ReadyItem) :=
  lane.toList.find? fun entry=>resolver.sequenceIsUnblocked entry.2.sequence entry.2.columns

/-- Merges a recovery into its column's, where a full request absorbs exact sections. -/
def enqueueRecovery (event : ChunkResyncEvent) : BlobCacheResolver :=
  let (key,incoming) := RecoveryReady.fromEvent event
  { resolver with
    recoveryReady := resolver.recoveryReady.insert key (match resolver.recoveryReady[key]? with
        | none => incoming
        | some existing => existing.merge incoming) }

def enqueueRecoveries (events : List ChunkResyncEvent) : BlobCacheResolver :=
  events.foldl enqueueRecovery resolver

/-- A transaction stops waiting for a hash. -/
def unindexHash (resolver : BlobCacheResolver) (hash : ℕ) : BlobCacheResolver :=
  match resolver.pendingByHash[hash]? with
  | none => resolver
  | some transactions =>
    let left := transactions.erase sequence
    { resolver with
      pendingByHash :=
        if left = ∅ then resolver.pendingByHash.erase hash
        else resolver.pendingByHash.insert hash left }

def removePendingTransaction : Option PendingTransaction × BlobCacheResolver :=
  let resolver := { resolver with resolvedPending := resolver.resolvedPending.erase sequence }
  match resolver.pending[sequence]? with
  | none => (none,resolver)
  | some transaction =>
    (some transaction,transaction.uniqueHashes.foldl (unindexHash sequence)
      { resolver with
        pending := resolver.pending.erase sequence
        pendingAccountedBytes := resolver.pendingAccountedBytes-transaction.accountedBytes
        retainedColumnSlots := resolver.retainedColumnSlots-transaction.columns.length })

def settleHash (resolver : BlobCacheResolver) (sequence : ℕ) : BlobCacheResolver :=
  match resolver.pending[sequence]? with
  | none => resolver
  | some transaction =>
    { resolver with
      pending := resolver.pending.insert sequence transaction.settleOne
      resolvedPending :=
        if transaction.settleOne.unresolvedHashes=0 then insert sequence resolver.resolvedPending
        else resolver.resolvedPending }

def settleHashes (hash : ℕ) (transactions : Finset ℕ) : BlobCacheResolver :=
  (transactions.sort (· ≤ ·)).foldl settleHash { resolver with pendingByHash := resolver.pendingByHash.erase hash }

def indexHash (resolver : BlobCacheResolver) (hash : ℕ) : BlobCacheResolver :=
  { resolver with
    pendingByHash := resolver.pendingByHash.insert hash (insert sequence (resolver.waiting hash)) }

def admitTransaction (transaction : PendingTransaction) (indexed : List ℕ) :
    BlobCacheResolver :=
  indexed.foldl (indexHash sequence)
    { resolver with
      pending := resolver.pending.insert sequence transaction
      pendingAccountedBytes := resolver.pendingAccountedBytes+transaction.accountedBytes
      retainedColumnSlots := resolver.retainedColumnSlots+transaction.columns.length }

/-- The waiter each owned hash passes to. -/
def promotions (owner : ℕ) : List (ℕ × ℕ) :=
  match resolver.pending[owner]? with
  | none => []
  | some transaction =>
    transaction.ownedHashes.filterMap fun hash =>
      (((resolver.waiting hash).erase owner).sort (· ≤ ·)).head?.map fun waiter=>(hash,waiter)

def dropEmptyPending : BlobCacheResolver :=
  if resolver.pending.isEmpty then { resolver with resolvedPending := ∅ } else resolver

def reset : BlobCacheResolver := {}

def retainedRecoveries : List ChunkResyncEvent :=
  (resolver.pending.toList.flatMap fun entry=>pendingPacketRecovery entry.2.packet) ++
    resolver.ready.toList.flatMap fun entry=>readyValueRecovery entry.2.value

def dropRetainedCached : BlobCacheResolver :=
  { resolver with
    pending := ∅
    pendingByHash := ∅
    resolvedPending := ∅
    ready := ∅
    pendingAccountedBytes := 0
    readyAccountedBytes := 0
    retainedColumnSlots := 0 }

/-- The pending transactions that keep a rebuilt packet waiting. -/
def readyBlockers : List ℕ :=
  (resolver.pending.toList.filter fun entry =>
    resolver.ready.toList.any fun ready =>
      decide (entry.1 < ready.2.sequence) && shareColumn entry.2.columns ready.2.columns).map Prod.fst

variable (bounds : TreeMap ColumnKey ℕ)

def raiseBounds (item : ReadyItem) : TreeMap ColumnKey ℕ :=
  item.columns.foldl (fun bounds column=>bounds.insert column (max (bounds.getD column 0) item.sequence)) bounds

def blocks (sequence : ℕ) (columns : List ColumnKey) : Bool :=
  columns.any fun column=>(bounds[column]?).any fun bound=>decide (sequence<bound)

/-- Bounds of the ordinary lane, carried back through the rebuilt packets it waits for. -/
def blockedBefore : TreeMap ColumnKey ℕ :=
  resolver.ready.toList.foldr (fun entry bounds =>
      if blocks bounds entry.2.sequence entry.2.columns then raiseBounds bounds entry.2 else bounds)
    (resolver.immediateReady.toList.foldl (fun bounds entry=>raiseBounds bounds entry.2) ∅)

def ordinaryBlockers : List ℕ :=
  (resolver.pending.toList.filter fun entry =>
    blocks resolver.blockedBefore entry.1 entry.2.columns).map Prod.fst

end BlobCacheResolver

section Accounting

variable (platform : Platform)

def retainedCachedBytes : ResolverM ℕ := do
  let containers ← containerBytes
  let resolver ← readResolver
  let bytes ← addCounted containers resolver.pendingAccountedBytes
  addCounted bytes resolver.readyAccountedBytes

def refreshPendingAccounting : ResolverM PUnit := do
  modifyResolver BlobCacheResolver.dropEmptyPending
  let bytes ← retainedCachedBytes
  modifyResolver fun resolver=>{ resolver with pendingBytes := bytes }
  let resolver ← readResolver
  match resolver.retainedOrdinaryBytes platform with
  | none => fail .byteCountOverflow
  | some ordinary => modifyResolver fun resolver=>{ resolver with ordinaryReadyBytes := ordinary }

/-- Tails of the entries, or the whole inline payload. -/
def Packet.inlineBytes : Packet → List ℕ
  | .levelChunk packet => [packet.serializedChunkData.length]
  | .subChunk packet =>
    packet.subChunkData.map fun entry=>(entry.serializedSubChunk.getD []).length
  | .other _ => []

def cachedPacketRetainedBytes (packet : Packet) : ResolverM ℕ := do
  match packet with
  | .other _ => fail .notCachedPacket
  | .levelChunk _ | .subChunk _ =>
    let containers ← containerBytes
    packet.inlineBytes.foldlM addCounted containers

/-- Only a rebuilt packet is accounted: its cache flag is clear. -/
def readyValueAccountedBytes (value : ResolverReady) : ResolverM ℕ := do
  match value with
  | .packet (.levelChunk packet) =>
    let containers ← containerBytes
    (Packet.levelChunk packet).inlineBytes.foldlM addCounted containers
  | .packet (.subChunk packet) =>
    if packet.cacheEnabled then fail .notCachedPacket
    else do
      let containers ← containerBytes
      (Packet.subChunk packet).inlineBytes.foldlM addCounted containers
  | .packet (.other _) => fail .notCachedPacket
  | .worldEvent _ => fail .notCachedPacket
  | .levelChunkBytes _ _ => fail .notCachedPacket

end Accounting

section Reconstruction

variable (platform : Platform)

def projectHashes : List ℕ → ℕ → StoreM (Option ℕ)
  | [], bytes => pure (some bytes)
  | hash::hashes, bytes => do
    let store ← get
    match store.entries[hash]? with
    | none => pure none
    | some entry => do
      let bytes ← addBytes bytes entry.payload.length
      projectHashes hashes bytes

def projectEntries : List SubChunkData → ℕ → StoreM (Option ℕ)
  | [], bytes => pure (some bytes)
  | entry::entries, bytes => do
    match entry.reference with
    | none => projectEntries entries bytes
    | some blobId => do
      let store ← get
      match store.entries[blobId]? with
      | none => pure none
      | some blob => do
        let bytes ← addBytes bytes blob.payload.length
        let bytes ← addBytes bytes (entry.serializedSubChunk.getD []).length
        projectEntries entries bytes

/-- The payload bytes a rebuilt packet would hold, when every blob is resident. -/
def projectedReconstructionBytes (packet : PendingPacket) (hashes : List ℕ) :
    ResolverM (Option ℕ) :=
  match packet with
  | .levelChunk packet => lock platform (projectHashes hashes packet.serializedChunkData.length)
  | .subChunk packet =>
    if packet.cacheEnabled then lock platform (projectEntries packet.subChunkData 0)
    else fail .notCachedPacket

def fetchResolved (hash : ℕ) : ResolverM Bytes := do
  let blob ← lock platform (CacheStore.fetch hash)
  match blob with
  | some blob => pure blob
  | none => fail (.missingResolvedBlob hash)

def measureBlob (bytes : ℕ) (hash : ℕ) : ResolverM ℕ := do
  let blob ← fetchResolved platform hash
  addCounted bytes blob.length

def appendBlob (payload : Bytes) (hash : ℕ) : ResolverM Bytes := do
  let blob ← fetchResolved platform hash
  pure (payload++blob)

/-- Splices one entry's blob in front of its tail. -/
def reconstructEntry (done : List SubChunkData) (entry : SubChunkData) :
    ResolverM (List SubChunkData) := do
  let tail := entry.serializedSubChunk.getD []
  match entry.reference with
  | none => pure (done ++ [{ entry with blobId := none, serializedSubChunk := some tail }])
  | some blobId => do
    let blob ← fetchResolved platform blobId
    let _ ← addCounted blob.length tail.length
    pure (done ++ [{ entry with blobId := none, serializedSubChunk := some (blob++tail) }])

def reconstruct (transaction : PendingTransaction) : ResolverM ResolverReady :=
  match transaction.packet with
  | .levelChunk packet => do
    let _ ← transaction.hashes.foldlM (measureBlob platform) packet.serializedChunkData.length
    let payload ← transaction.hashes.foldlM (appendBlob platform) []
    pure (.packet (.levelChunk { packet with
      cacheEnabled := false
      cacheMetadata := []
      serializedChunkData := payload++packet.serializedChunkData }))
  | .subChunk packet =>
    if packet.cacheEnabled then do
      let entries ← packet.subChunkData.foldlM (reconstructEntry platform) []
      pure (.packet (.subChunk { packet with cacheEnabled := false, subChunkData := entries }))
    else fail .notCachedPacket

end Reconstruction

section Abandonment

variable (platform : Platform)

def unpinAll (hashes : List ℕ) : ResolverM PUnit :=
  lock platform (modify fun store=>store.unpinAll platform.limits hashes)

variable (events : List ChunkResyncEvent)

def enqueueRecoveries : ResolverM PUnit :=
  modifyResolver fun resolver=>resolver.enqueueRecoveries events

/-- The first resync goes out inline, the rest through the queue. -/
def prepareRecovery : ResolverM (Option ChunkResyncEvent) := do
  enqueueRecoveries events.tail
  pure events.head?

/-- A transaction takes over a hash somebody else asked for. -/
def addOwnedHash (sequence hash : ℕ) : ResolverM PUnit := do
  let resolver ← readResolver
  match resolver.pending[sequence]? with
  | none => pure ⟨⟩
  | some transaction =>
    if hash ∈ transaction.ownedHashes then pure ⟨⟩
    else do
      let added ← containerBytes
      let accounted ← addCounted transaction.accountedBytes added
      modifyResolver fun resolver =>
        { resolver with
          pending := resolver.pending.insert sequence
            { transaction with
              ownedHashes := transaction.ownedHashes ++ [hash]
              accountedBytes := accounted }
          pendingAccountedBytes := resolver.pendingAccountedBytes+added }

def addOwnedHashes : List (ℕ × ℕ) → ResolverM PUnit
  | [] => pure ⟨⟩
  | (hash,waiter) :: promotions => do
    addOwnedHash waiter hash
    addOwnedHashes promotions

def promoteWaiters (owner : ℕ) : ResolverM PUnit := do
  let resolver ← readResolver
  addOwnedHashes (resolver.promotions owner)

variable (sequence : ℕ)

def removePendingTransaction : ResolverM (Option PendingTransaction) := do
  let resolver ← readResolver
  modifyResolver fun resolver=>(resolver.removePendingTransaction sequence).2
  pure (resolver.removePendingTransaction sequence).1

def abandonPendingTransactionWithRecovery (returnFirst : Bool) :
    ResolverM (Option ChunkResyncEvent) := do
  promoteWaiters sequence
  let removed ← removePendingTransaction sequence
  match removed with
  | none => pure none
  | some transaction => do
    unpinAll platform transaction.uniqueHashes
    let recoveries := pendingPacketRecovery transaction.packet
    if returnFirst then prepareRecovery recoveries
    else do
      enqueueRecoveries recoveries
      pure none

def abandonPendingTransaction : ResolverM PUnit := do
  let _ ← abandonPendingTransactionWithRecovery platform sequence false
  pure ⟨⟩

def abandonAll : List ℕ → ResolverM PUnit
  | [] => pure ⟨⟩
  | sequence::sequences => do
    abandonPendingTransaction platform sequence
    abandonAll sequences

/-- Only at the transaction bound: gives up what keeps a rebuilt packet waiting. -/
def relieveCachedReadyPressure : ResolverM PUnit := do
  let resolver ← readResolver
  if resolver.retainedCachedTransactionCount < maxClientBlobPendingTransactions then pure ⟨⟩
  else do
    abandonAll platform resolver.readyBlockers
    refreshPendingAccounting platform

def rotateOldestPendingTransaction : ResolverM (Option ChunkResyncEvent) := do
  let resolver ← readResolver
  match resolver.pending.toList.head? with
  | none => pure none
  | some oldest => abandonPendingTransactionWithRecovery platform oldest.1 true

end Abandonment

section Resolving

variable (platform : Platform) (sequence : ℕ)

/-- Gives a transaction up instead of rebuilding it. -/
def abandonResolved : ResolverM PUnit := do
  abandonPendingTransaction platform sequence
  refreshPendingAccounting platform

/-- A rebuilt packet takes its transaction's place. -/
def publishReady (transaction : PendingTransaction) (value : ResolverReady)
    (readyBytes : ℕ) : ResolverM PUnit := do
  let _ ← removePendingTransaction sequence
  unpinAll platform transaction.uniqueHashes
  modifyResolver fun resolver =>
    { resolver with
      ready := resolver.ready.insert sequence ⟨value,transaction.columns,readyBytes,sequence⟩
      readyAccountedBytes := resolver.readyAccountedBytes+readyBytes
      retainedColumnSlots := resolver.retainedColumnSlots+transaction.columns.length }
  relieveCachedReadyPressure platform
  refreshPendingAccounting platform

/-- Whether the ready lane, then all retained cached work, has room for the rebuilt packet. -/
def readyHasRoom (transaction : PendingTransaction) (readyBytes : ℕ) : ResolverM Bool := do
  let resolver ← readResolver
  let withReady := checkedAddUsize resolver.readyAccountedBytes readyBytes
  if withReady.any (· ≤ maxClientBlobReadyBytes) then do
    let retained ← retainedCachedBytes
    if retained<transaction.accountedBytes then fail .byteCountOverflow
    else do
      let slot ← containerBytes
      let bytes ← addCounted (retained-transaction.accountedBytes) readyBytes
      let bytes ← addCounted bytes slot
      pure (bytes ≤ maxClientBlobPendingBytes)
  else pure false

def movePendingToReady : ResolverM PUnit := do
  let resolver ← readResolver
  match resolver.pending[sequence]? with
  | none => throw .resolvedExpect
  | some transaction => do
    let projected ← projectedReconstructionBytes platform transaction.packet transaction.hashes
    match projected with
    | none => throw .resolvedExpect
    | some bytes =>
      if maxClientBlobReconstructedBytes<bytes then abandonResolved platform sequence
      else do
        let value ← reconstruct platform transaction
        let readyBytes ← readyValueAccountedBytes value
        let room ← readyHasRoom transaction readyBytes
        if room then publishReady platform sequence transaction value readyBytes
        else abandonResolved platform sequence

def drainReadyTurns : ℕ → ResolverM PUnit
  | 0 => refreshPendingAccounting platform
  | turns+1 => do
    let resolver ← readResolver
    match (resolver.resolvedPending.sort (· ≤ ·)).head? with
    | none => refreshPendingAccounting platform
    | some sequence => do
      movePendingToReady platform sequence
      drainReadyTurns turns

def drainReady : ResolverM PUnit := do
  let resolver ← readResolver
  drainReadyTurns platform resolver.resolvedPending.card

def resolveHash (hash : ℕ) : ResolverM PUnit := do
  let resolver ← readResolver
  match resolver.pendingByHash[hash]? with
  | none => pure ⟨⟩
  | some transactions => do
    modifyResolver fun resolver=>resolver.settleHashes hash transactions
    drainReady platform

def resolveHashes : List ℕ → ResolverM PUnit
  | [] => pure ⟨⟩
  | hash::hashes => do
    resolveHash platform hash
    resolveHashes hashes

end Resolving

end Cinnabar.BlobCache
