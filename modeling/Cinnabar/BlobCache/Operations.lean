import Cinnabar.BlobCache.Resolver

/-! # What the session calls -/

namespace Cinnabar.BlobCache

open Std

/-- Every unique reference of a packet, filed; `outstanding` ones were asked for before. -/
structure BlobCacheStatus where
  missing : List ℕ
  have_ : List ℕ
  outstanding : List ℕ
  recovery : Option ChunkResyncEvent
  admission : Option SubChunkReplyAdmissionEvent := none
  stagedBytes : ℕ
  accepted : Bool := false
deriving DecidableEq

variable (platform : Platform)

section CachedPackets

def classifyStatus (references : List ℕ) (recovery : Option ChunkResyncEvent) (shouldPin : Bool) :
    ResolverM BlobCacheStatus := do
  let filed ← lock platform (classify (stableUnique references) shouldPin)
  let resolver ← readResolver
  pure {
    missing := filed.missing.filter fun hash=>¬resolver.pendingByHash.contains hash
    have_ := filed.held
    outstanding := filed.missing.filter fun hash=>resolver.pendingByHash.contains hash
    recovery := recovery
    stagedBytes := filed.stagedBytes }

def cachedPacketHashes : Packet → ResolverM (PendingPacket × List ℕ)
  | .levelChunk packet =>
    if packet.cacheEnabled then do
      let expected ← addCounted packet.subChunksCount 1
      if packet.cacheMetadata.length=expected then
        pure (.levelChunk packet,packet.cacheMetadata)
      else fail (.invalidLevelChunkHashCount packet.cacheMetadata.length expected)
    else fail .notCachedPacket
  | .subChunk packet =>
    if packet.cacheEnabled then pure (.subChunk packet,subchunkReferencedBlobHashes packet)
    else fail .notCachedPacket
  | .other _ => fail .notCachedPacket

def takeReadySequence : ResolverM ℕ := do
  let resolver ← readResolver
  if resolver.nextReadySequence<u64Max then do
    modifyResolver fun resolver =>
      { resolver with nextReadySequence := resolver.nextReadySequence+1 }
    pure resolver.nextReadySequence
  else fail .byteCountOverflow

/-- The cached transactions, or the recovery slots they reserve, are at their bound. -/
def BlobCacheResolver.underPressure (resolver : BlobCacheResolver) (columns : List ColumnKey) :
    Bool :=
  maxClientBlobPendingTransactions ≤ resolver.retainedCachedTransactionCount ||
    maxClientBlobRecoveryReadyEvents < resolver.retainedRecoverySlotCount+columns.length

/-- Gives up the oldest transaction for a packet there is no room for. -/
def rotateUnderPressure (columns : List ColumnKey) : ResolverM (Option ChunkResyncEvent) := do
  let resolver ← readResolver
  if resolver.underPressure columns ∧ resolver.recoveryReady.size < maxClientBlobRecoveryReadyEvents then
    rotateOldestPendingTransaction platform
  else pure none

def mergeStatusRecovery (status : BlobCacheStatus) (recovery : Option ChunkResyncEvent) :
    ResolverM BlobCacheStatus :=
  match status.recovery, recovery with
  | some _, some recovery => do
    modifyResolver fun resolver=>resolver.enqueueRecovery recovery
    pure status
  | some _, none => pure status
  | none, recovery => pure { status with recovery := recovery }

def stagedPressure (stagedBytes : ℕ) : ResolverM Bool := do
  if maxClientBlobStagedBytesPerTransaction < stagedBytes then pure true
  else do
    let store ← lock platform get
    pure (decide (maxClientBlobPinnedBytes < store.pinnedBytes))

variable (packet : PendingPacket)

/-- Drops an admission whose resident blobs are too large to hold. -/
def skipStaged (uniqueHashes : List ℕ) (status : BlobCacheStatus) :
    ResolverM BlobCacheStatus := do
  unpinAll platform uniqueHashes
  let recovery ← prepareRecovery (unadmittedPacketRecovery packet)
  let status ← mergeStatusRecovery status recovery
  refreshPendingAccounting platform
  pure status

/-- Drops an admission the retained bytes have no room for. -/
def skipPending (sequence : ℕ) (status : BlobCacheStatus) : ResolverM BlobCacheStatus := do
  let recovery ← abandonPendingTransactionWithRecovery platform sequence true
  let status ← mergeStatusRecovery status recovery
  refreshPendingAccounting platform
  pure status

/-- Rebuilds a transaction that waits for nothing. -/
def resolveAdmitted (sequence unresolvedHashes : ℕ) : ResolverM PUnit :=
  if unresolvedHashes=0 then do
    modifyResolver fun resolver =>
      { resolver with resolvedPending := insert sequence resolver.resolvedPending }
    drainReady platform
  else pure ⟨⟩

def admittedStatus (sequence : ℕ) (admission : Option SubChunkReplyAdmissionEvent)
    (status : BlobCacheStatus) : ResolverM BlobCacheStatus := do
  let resolver ← readResolver
  let accepted := resolver.pending.contains sequence || resolver.ready.contains sequence
  pure { status with
    accepted := accepted
    admission := if accepted then admission else status.admission }

def retainTransaction (hashes uniqueHashes : List ℕ)
    (accountedBytes : ℕ) (status : BlobCacheStatus) : ResolverM BlobCacheStatus := do
  let missingCapacity ← containerBytes
  let accountedBytes ← addCounted accountedBytes missingCapacity
  let sequence ← takeReadySequence
  let unresolvedHashes := status.missing.length+status.outstanding.length
  modifyResolver fun resolver=>resolver.admitTransaction sequence
    { packet := packet
      hashes := hashes
      uniqueHashes := uniqueHashes
      ownedHashes := status.missing
      unresolvedHashes := unresolvedHashes
      stagedBytes := status.stagedBytes
      columns := pendingPacketColumns packet
      accountedBytes := accountedBytes } (status.missing++status.outstanding)
  relieveCachedReadyPressure platform
  refreshPendingAccounting platform
  let resolver ← readResolver
  if maxClientBlobPendingBytes < resolver.pendingBytes then skipPending platform sequence status
  else do
    resolveAdmitted platform sequence unresolvedHashes
    admittedStatus sequence (cachedSubChunkAdmission packet) status

/-- Classifies and pins a packet there is room for, and retains it. -/
def admitCachedPacket (hashes uniqueHashes : List ℕ)
    (accountedBytes : ℕ) (pressureRecovery : Option ChunkResyncEvent) :
    ResolverM BlobCacheStatus := do
  let status ← classifyStatus platform packet.referencedBlobHashes pressureRecovery true
  let pressure ← stagedPressure platform status.stagedBytes
  if pressure then skipStaged platform packet uniqueHashes status
  else retainTransaction platform packet hashes uniqueHashes accountedBytes status

def skipUnadmitted : ResolverM BlobCacheStatus := do
  let recovery ← prepareRecovery (unadmittedPacketRecovery packet)
  classifyStatus platform packet.referencedBlobHashes recovery false

def skipRotated (pressureRecovery : Option ChunkResyncEvent) :
    ResolverM BlobCacheStatus := do
  enqueueRecoveries (unadmittedPacketRecovery packet)
  refreshPendingAccounting platform
  classifyStatus platform packet.referencedBlobHashes pressureRecovery false

def PendingPacket.isSubChunk : PendingPacket → Bool
  | .levelChunk _ => false
  | .subChunk _ => true

/-- Admits a packet when the transaction and recovery bounds leave room for it. -/
def acceptWithinBounds (hashes uniqueHashes : List ℕ)
    (accountedBytes : ℕ) : ResolverM BlobCacheStatus := do
  let columns := pendingPacketColumns packet
  let pressureRecovery ← rotateUnderPressure platform columns
  let resolver ← readResolver
  let pressureRemains := resolver.underPressure columns
  if pressureRecovery.isSome ∧ (pressureRemains ∨ packet.isSubChunk) then
    skipRotated platform packet pressureRecovery
  else if pressureRemains ∨ maxClientBlobRecoveryReadyEvents ≤ resolver.recoveryReady.size then
    skipUnadmitted platform packet
  else admitCachedPacket platform packet hashes uniqueHashes accountedBytes pressureRecovery

def acceptCachedPacketInner (packet : Packet) (rawPacketBytes : Option ℕ) :
    ResolverM BlobCacheStatus := do
  let retainedBytes ← cachedPacketRetainedBytes packet
  let (packet,hashes) ← cachedPacketHashes packet
  let uniqueHashes := stableUnique hashes
  let hashCapacity ← containerBytes
  let accountedBytes ← addCounted (max (rawPacketBytes.getD 0) retainedBytes) hashCapacity
  let projected ← projectedReconstructionBytes platform packet hashes
  if projected.any (maxClientBlobReconstructedBytes < ·) then skipUnadmitted platform packet
  else acceptWithinBounds platform packet hashes uniqueHashes accountedBytes

/-- Releases what each drained transaction pins. -/
def unpinEach : List (ℕ × PendingTransaction) → ResolverM PUnit
  | [] => pure ⟨⟩
  | (_,transaction) :: drained => do
    unpinAll platform transaction.uniqueHashes
    unpinEach drained

def resetPending : ResolverM PUnit := do
  let resolver ← readResolver
  modifyResolver fun _=>BlobCacheResolver.reset
  unpinEach platform resolver.pending.toList

/-- A packet of the wrong shape is skipped; any other error drops all retained work. -/
def recoverAcceptance (packet : Packet) : Fault → ResolverM BlobCacheStatus
  | .error (.invalidLevelChunkHashCount _ _) | .error (.invalidLevelChunkCount _) =>
    classifyStatus platform packet.referencedBlobHashes (chunkRecovery packet) false
  | .error error => do
    resetPending platform
    fail error
  | .resolvedExpect => throw .resolvedExpect
  | .accountingExpect => throw .accountingExpect

def acceptCachedPacket (packet : Packet) (rawPacketBytes : Option ℕ) :
    ResolverM BlobCacheStatus := fun world =>
  match acceptCachedPacketInner platform packet rawPacketBytes world with
  | .ok status world => .ok status world
  | .error fault world => recoverAcceptance platform packet fault world

end CachedPackets

section Ordinary

/-- Ordinary work enters its lane, or is refused at the lane's own bounds. -/
def acceptImmediate (value : ResolverReady) (accountedBytes : ℕ) : ResolverM PUnit := do
  let resolver ← readResolver
  match resolver.retainedOrdinaryBytes platform with
  | none => fail .byteCountOverflow
  | some retained => do
    let bytes ← addCounted retained accountedBytes
    let bytes ← addCounted bytes platform.immediateReadyBytes
    if maxClientBlobOrdinaryReadyEvents ≤ resolver.immediateReady.size ∨ maxClientBlobOrdinaryReadyBytes<bytes then
      fail (.ordinaryLaneFull resolver.immediateReady.size resolver.ordinaryReadyBytes
        maxClientBlobOrdinaryReadyEvents maxClientBlobOrdinaryReadyBytes)
    else do
      let sequence ← takeReadySequence
      modifyResolver fun resolver =>
        { resolver with
          immediateReady := resolver.immediateReady.insert sequence
            ⟨value,readyValueColumns value,accountedBytes,sequence⟩ }
      refreshPendingAccounting platform

/-- Gives up the cached work the ordinary lane waits for. -/
def unblockOrdinaryLane : ResolverM Bool := do
  let resolver ← readResolver
  abandonAll platform resolver.ordinaryBlockers
  refreshPendingAccounting platform
  pure !resolver.ordinaryBlockers.isEmpty

end Ordinary

section Popping

def refreshAfterPop : ResolverM PUnit := fun world =>
  match refreshPendingAccounting platform world with
  | .ok _ world => .ok ⟨⟩ world
  | .error _ world => .error .accountingExpect world

def popRecoveryReady : ResolverM (Option ChunkResyncEvent) := do
  let resolver ← readResolver
  match resolver.recoveryReady.toList.head? with
  | none => pure none
  | some (key,recovery) => do
    modifyResolver fun resolver =>
      { resolver with recoveryReady := resolver.recoveryReady.erase key }
    refreshAfterPop platform
    pure (some recovery.intoEvent)

def popCached (sequence : ℕ) (item : ReadyItem) : ResolverM (Option ResolverReady) := do
  modifyResolver fun resolver =>
    { resolver with
      ready := resolver.ready.erase sequence
      readyAccountedBytes := resolver.readyAccountedBytes-item.accountedBytes
      retainedColumnSlots := resolver.retainedColumnSlots-item.columns.length }
  refreshAfterPop platform
  pure (some item.value)

def popImmediate (sequence : ℕ) (item : ReadyItem) : ResolverM (Option ResolverReady) := do
  modifyResolver fun resolver =>
    { resolver with immediateReady := resolver.immediateReady.erase sequence }
  refreshAfterPop platform
  pure (some item.value)

inductive Popped where
  | cached (sequence : ℕ) (item : ReadyItem)
  | immediate (sequence : ℕ) (item : ReadyItem)
deriving DecidableEq

def Popped.sequence : Popped → ℕ
  | .cached sequence _ => sequence
  | .immediate sequence _ => sequence

def Popped.item : Popped → ReadyItem
  | .cached _ item => item
  | .immediate _ item => item

def BlobCacheResolver.nextReady (resolver : BlobCacheResolver) : Option Popped :=
  match resolver.firstUnblocked resolver.ready,
      resolver.firstUnblocked resolver.immediateReady with
  | some cached, some immediate =>
    if cached.1 ≤ immediate.1 then some (.cached cached.1 cached.2)
    else some (.immediate immediate.1 immediate.2)
  | some cached, none => some (.cached cached.1 cached.2)
  | none, some immediate => some (.immediate immediate.1 immediate.2)
  | none, none => none

def popNext : ResolverM (Option ResolverReady) := do
  let resolver ← readResolver
  match resolver.nextReady with
  | some (.cached sequence item) => popCached platform sequence item
  | some (.immediate sequence item) => popImmediate platform sequence item
  | none => pure none

def popReadyIngress : ResolverM (Option ResolverReady) := do
  let recovery ← popRecoveryReady platform
  match recovery with
  | some recovery => pure (some (.worldEvent (.chunkResync recovery)))
  | none => popNext platform

def popReady : ResolverM (Option BlobCacheReady) := do
  let ready ← popReadyIngress platform
  pure (ready.map ResolverReady.intoPublic)

end Popping

section Boundaries

def armFastTransferReset : ResolverM PUnit :=
  modifyResolver fun resolver=>{ resolver with fastTransferResetArmed := true }

def recoverRetainedCachedTransactions : ResolverM PUnit := do
  let resolver ← readResolver
  modifyResolver BlobCacheResolver.dropRetainedCached
  unpinEach platform resolver.pending.toList
  enqueueRecoveries resolver.retainedRecoveries
  refreshPendingAccounting platform

def resetPendingForFastTransferCandidate : ResolverM Bool := do
  let resolver ← readResolver
  if resolver.fastTransferResetArmed then do
    modifyResolver fun resolver=>{ resolver with fastTransferResetArmed := false }
    if resolver.pending.isEmpty ∧ resolver.ready.isEmpty then pure true
    else do
      recoverRetainedCachedTransactions platform
      pure true
  else pure false

def recoverPending : ResolverM PUnit := do
  let resolver ← readResolver
  if resolver.pending.isEmpty ∧ resolver.ready.isEmpty then
    modifyResolver fun resolver=>{ resolver with immediateReady := ∅, ordinaryReadyBytes := 0 }
  else do
    recoverRetainedCachedTransactions platform
    modifyResolver fun resolver=>{ resolver with immediateReady := ∅, ordinaryReadyBytes := 0 }

end Boundaries

end Cinnabar.BlobCache
