import Cinnabar.Keys
import Cinnabar.Library.Interruption

/-! # The blob store behind every resolver -/

namespace Cinnabar.BlobCache

open Std

abbrev Bytes := List UInt8

def u64Max : ℕ := 0xFFFFFFFFFFFFFFFF

/-- `usize::saturating_add` and `u64::saturating_add` on a 64-bit target. -/
def saturatingAdd (a b : ℕ) : ℕ := min (a+b) u64Max

def maxClientBlobCacheEntries : ℕ := 65536
def maxClientBlobPendingBytes : ℕ := 64*1024*1024
def maxClientBlobPinnedBytes : ℕ := maxClientBlobPendingBytes

structure BlobCacheLimits where
  trimTriggerBytes : ℕ
  trimFloorBytes : ℕ
deriving DecidableEq

inductive BlobCacheError where
  | invalidLevelChunkHashCount (actual expected : ℕ)
  | invalidLevelChunkCount (count : ℕ)
  | notCachedPacket
  | unsolicitedBlob (hash : ℕ)
  | hashMismatch (claimed actual : ℕ)
  | conflictingDuplicate (hash : ℕ)
  | missingResolvedBlob (hash : ℕ)
  | pinnedPayloadPressure
  | cacheEntryPressure
  | byteCountOverflow
  | ordinaryLaneFull (events bytes maxEvents maxBytes : ℕ)
deriving DecidableEq

structure CacheEntry where
  payload : Bytes
  lastUsed : ℕ
deriving DecidableEq

structure CacheStore where
  entries : TreeMap ℕ CacheEntry := ∅
  pins : TreeMap ℕ ℕ := ∅
  totalBytes : ℕ := 0
  pinnedBytes : ℕ := 0
  trimPending : Bool := false
  clock : ℕ := 0

abbrev StoreM := EStateM BlobCacheError CacheStore

/-- `checked_add(..).ok_or(ByteCountOverflow)` -/
def addBytes {σ : Type} (a b : ℕ) : EStateM BlobCacheError σ ℕ :=
  match checkedAddUsize a b with
  | some sum => pure sum
  | none => throw .byteCountOverflow

namespace CacheStore

variable (store : CacheStore) (limits : BlobCacheLimits) (hash : ℕ)

def payloadLen : ℕ := (store.entries[hash]?).elim 0 (·.payload.length)

def tick : CacheStore := { store with clock := saturatingAdd store.clock 1 }

def evict : CacheStore :=
  { store with
    entries := store.entries.erase hash
    totalBytes := store.totalBytes-store.payloadLen hash }

/-- Removes the victims in turn until both floors are met. -/
def evictDown (floor entryFloor : ℕ) : List (ℕ × ℕ) → CacheStore → CacheStore
  | [], store => store
  | (_,victim) :: victims, store =>
    if store.totalBytes≤floor ∧ store.entries.size≤entryFloor then store
    else evictDown floor entryFloor victims (store.evict victim)

/-- Bodies that may go, least recently used first. -/
def victims : List (ℕ × ℕ) :=
  let candidates := store.entries.toList.filter fun entry =>
    entry.1≠hash ∧ ¬store.pins.contains entry.1
  (candidates.map fun entry=>(entry.2.lastUsed,entry.1)).mergeSort fun a b=>a.1<b.1 ∨ (a.1=b.1 ∧ a.2≤b.2)

/-- Evicts unpinned bodies other than `hash` down to the floor. -/
def trimIfNeeded : CacheStore :=
  let entryPressure := maxClientBlobCacheEntries ≤ store.entries.size
  let bytePressure := limits.trimTriggerBytes < store.totalBytes
  if ¬entryPressure ∧ ¬bytePressure then store
  else
    let floor := if bytePressure then min limits.trimFloorBytes limits.trimTriggerBytes
      else store.totalBytes
    let entryFloor := if entryPressure then maxClientBlobCacheEntries/2 else store.entries.size
    let trimmed := evictDown floor entryFloor (store.victims hash) store
    { trimmed with
      trimPending := limits.trimTriggerBytes<trimmed.totalBytes ∨ maxClientBlobCacheEntries≤trimmed.entries.size }

/-- The bytes pinned once a body of `hash` is stored. -/
def pinnedWith (payload : Bytes) : StoreM ℕ :=
  if store.pins.contains hash then
    let projected := saturatingAdd store.pinnedBytes payload.length
    if maxClientBlobPinnedBytes<projected then throw .pinnedPayloadPressure else pure projected
  else pure store.pinnedBytes

end CacheStore

section

variable (limits : BlobCacheLimits)

def reserveEntry (hash : ℕ) : StoreM PUnit := do
  let store ← get
  if maxClientBlobCacheEntries ≤ store.entries.size then do
    modify fun store=>store.trimIfNeeded limits hash
    let store ← get
    if maxClientBlobCacheEntries ≤ store.entries.size then throw .cacheEntryPressure
    else pure ⟨⟩
  else pure ⟨⟩

/-- Stores a body that is not resident, within the pin and memory limits. -/
def insertAbsent (hash : ℕ) (payload : Bytes) : StoreM PUnit := do
  reserveEntry limits hash
  let store ← get
  let totalBytes ← addBytes store.totalBytes payload.length
  let pinnedBytes ← store.pinnedWith hash payload
  let clock := saturatingAdd store.clock 1
  set ({ store with
    clock := clock
    totalBytes := totalBytes
    pinnedBytes := pinnedBytes
    entries := store.entries.insert hash ⟨payload,clock⟩ }.trimIfNeeded limits hash)

/-- A resident body must be the same one; `insert_verified` adds nothing but a copy. -/
def insertShared (hash : ℕ) (payload : Bytes) : StoreM PUnit := do
  let store ← get
  match store.entries[hash]? with
  | some existing =>
    if existing.payload≠payload then throw (.conflictingDuplicate hash) else pure ⟨⟩
  | none => insertAbsent limits hash payload

def insertVerified (hash : ℕ) (payload : Bytes) : StoreM PUnit :=
  insertShared limits hash payload

/-- Touches a resident body and returns it. -/
def CacheStore.fetch (hash : ℕ) : StoreM (Option Bytes) := do
  modify CacheStore.tick
  let store ← get
  match store.entries[hash]? with
  | none => pure none
  | some entry =>
    set { store with entries := store.entries.insert hash { entry with lastUsed := store.clock } }
    pure (some entry.payload)

def CacheStore.pin (hash : ℕ) (store : CacheStore) : CacheStore :=
  { store with
    pinnedBytes :=
      if store.pins.contains hash then store.pinnedBytes
      else saturatingAdd store.pinnedBytes (store.payloadLen hash)
    pins := store.pins.insert hash (store.pins.getD hash 0+1) }

structure Classified where
  held : List ℕ := []
  missing : List ℕ := []
  stagedBytes : ℕ := 0
deriving DecidableEq

def fileHash (filed : Classified) (hash : ℕ) : StoreM Classified := do
  let store ← get
  match store.entries[hash]? with
  | some entry => do
    let store := store.tick
    set { store with entries := store.entries.insert hash { entry with lastUsed := store.clock } }
    pure { filed with
      held := filed.held ++ [hash]
      stagedBytes := saturatingAdd filed.stagedBytes entry.payload.length }
  | none => pure { filed with missing := filed.missing ++ [hash] }

def pinWhen (shouldPin : Bool) (hash : ℕ) : StoreM PUnit :=
  if shouldPin then modify (CacheStore.pin hash) else pure ⟨⟩

def classifyHash (shouldPin : Bool) (filed : Classified) (hash : ℕ) : StoreM Classified := do
  let next ← fileHash filed hash
  pinWhen shouldPin hash
  pure next

def classify (hashes : List ℕ) (shouldPin : Bool) : StoreM Classified :=
  hashes.foldlM (classifyHash shouldPin) {}

/-- Releases one pin; the last one also settles a trim that is still owed. -/
def CacheStore.unpin (store : CacheStore) (hash : ℕ) : CacheStore :=
  match store.pins[hash]? with
  | none => store
  | some count =>
    if count-1=0 then
      let released := { store with
        pins := store.pins.erase hash
        pinnedBytes := store.pinnedBytes-store.payloadLen hash }
      if released.trimPending then
        let evicted := released.evict hash
        { evicted with
          trimPending :=
            min limits.trimFloorBytes limits.trimTriggerBytes<evicted.totalBytes ∨
              maxClientBlobCacheEntries/2<evicted.entries.size }
      else released
    else { store with pins := store.pins.insert hash (count-1) }

def CacheStore.unpinAll (store : CacheStore) (hashes : List ℕ) :
    CacheStore :=
  hashes.foldl (CacheStore.unpin limits) store

end

/-- `WeakClientBlobCache::admit`, for a cache that is still there. -/
def admitBody (clientBlobHash : Bytes → ℕ) (limits : BlobCacheLimits) (hash : ℕ)
    (payload : Bytes) : StoreM Bool := do
  if clientBlobHash payload≠hash then throw (.hashMismatch hash (clientBlobHash payload))
  else do
    let store ← get
    if store.entries.contains hash ∨ store.pins.contains hash ∨ limits.trimTriggerBytes<payload.length then pure false
    else do
      insertShared limits hash payload
      pure true

end Cinnabar.BlobCache
