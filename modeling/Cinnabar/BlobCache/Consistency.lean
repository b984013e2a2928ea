import Cinnabar.BlobCache.Operations
import Cinnabar.BlobCache.Retention
import Cinnabar.BlobCache.Needs

/-! # Miss responses -/

namespace Cinnabar.BlobCache

open Std

/-- The blobs still wanted, first payload of each, and the last one that is not. -/
structure Validated where
  unique : List (ℕ × Bytes) := []
  unsolicited : Option ℕ := none
deriving DecidableEq

variable (platform : Platform)

/-- A blob somebody waits for, or whose body is resident, is solicited. -/
def solicited (hash : ℕ) : ResolverM Bool := do
  let resolver ← readResolver
  if resolver.pendingByHash.contains hash then pure true
  else do
    let store ← lock platform get
    pure (store.entries.contains hash)

def validateBlob (validated : Validated) (blob : ℕ × Bytes) : ResolverM Validated := do
  let wanted ← solicited platform blob.1
  if wanted then
    match validated.unique.find? fun earlier=>earlier.1=blob.1 with
    | some earlier =>
      if earlier.2=blob.2 then pure validated else fail (.conflictingDuplicate blob.1)
    | none =>
      if platform.clientBlobHash blob.2=blob.1 then
        pure { validated with unique := validated.unique ++ [blob] }
      else fail (.hashMismatch blob.1 (platform.clientBlobHash blob.2))
  else pure { validated with unsolicited := some blob.1 }

/-- What each waiting transaction would stage more. -/
def BlobCacheResolver.stagedAdditions (resolver : BlobCacheResolver)
    (unique : List (ℕ × Bytes)) : TreeMap ℕ ℕ :=
  unique.foldl (fun additions blob =>
    ((resolver.waiting blob.1).sort (· ≤ ·)).foldl (fun additions sequence =>
      additions.insert sequence (saturatingAdd (additions.getD sequence 0) blob.2.length)) additions) ∅

def BlobCacheResolver.stagedExcess (resolver : BlobCacheResolver) (additions : TreeMap ℕ ℕ) :
    List ℕ :=
  (additions.toList.filter fun addition =>
    (resolver.pending[addition.1]?).any fun transaction =>
      decide (maxClientBlobStagedBytesPerTransaction < saturatingAdd transaction.stagedBytes addition.2)).map Prod.fst

def BlobCacheResolver.stage (resolver : BlobCacheResolver) (addition : ℕ × ℕ) :
    BlobCacheResolver :=
  match resolver.pending[addition.1]? with
  | none => resolver
  | some transaction =>
    { resolver with
      pending := resolver.pending.insert addition.1
        { transaction with stagedBytes := saturatingAdd transaction.stagedBytes addition.2 } }

variable (unique : List (ℕ × Bytes))

/-- The transactions a response would overfill are given up, the others charged. -/
def stageResponse : ResolverM PUnit := do
  let resolver ← readResolver
  let additions := resolver.stagedAdditions unique
  abandonAll platform (resolver.stagedExcess additions)
  modifyResolver fun resolver=>additions.toList.foldl BlobCacheResolver.stage resolver

structure Delta where
  totalBytes : ℕ
  pinnedBytes : ℕ
  newEntries : ℕ := 0
deriving DecidableEq

def validateEntry (delta : Delta) (blob : ℕ × Bytes) : StoreM Delta := do
  let store ← get
  match store.entries[blob.1]? with
  | some existing =>
    if existing.payload=blob.2 then pure delta else throw (.conflictingDuplicate blob.1)
  | none => do
    let totalBytes ← addBytes delta.totalBytes blob.2.length
    if store.pins.contains blob.1 then
      let pinnedBytes := saturatingAdd delta.pinnedBytes blob.2.length
      if maxClientBlobPinnedBytes<pinnedBytes then throw .pinnedPayloadPressure
      else pure ⟨totalBytes,pinnedBytes,delta.newEntries+1⟩
    else pure ⟨totalBytes,delta.pinnedBytes,delta.newEntries+1⟩

/-- Checks conflicts and aggregate size before any entry is published. -/
def validateDelta : StoreM PUnit := do
  let store ← get
  let delta ← unique.foldlM validateEntry ⟨store.totalBytes,store.pinnedBytes,0⟩
  if maxClientBlobCacheEntries < store.pins.size+delta.newEntries then
    let pinnedEntries := (store.entries.toList.filter fun entry=>store.pins.contains entry.1).length
    if maxClientBlobCacheEntries<pinnedEntries+delta.newEntries then throw .cacheEntryPressure
    else pure ⟨⟩
  else pure ⟨⟩

def insertAll : List (ℕ × Bytes) → StoreM PUnit
  | [] => pure ⟨⟩
  | (hash,payload) :: blobs => do
    insertVerified platform.limits hash payload
    insertAll blobs

def publishDelta : StoreM PUnit := do
  validateDelta unique
  insertAll platform unique

variable (response : List (ℕ × Bytes))

def acceptMissResponseInner : ResolverM PUnit := do
  let validated ← response.foldlM (validateBlob platform) {}
  match validated.unsolicited, validated.unique with
  | some hash, [] => fail (.unsolicitedBlob hash)
  | _, unique => do
    stageResponse platform unique
    lock platform (publishDelta platform unique)
    resolveHashes platform (unique.map Prod.fst)
    refreshPendingAccounting platform

/-- Gives up every transaction that waited for a blob of a skipped response. -/
def recoverSkippedMissResponse (hashes : List ℕ) : ResolverM Bool := do
  let resolver ← readResolver
  let sequences : Finset ℕ := hashes.foldl (fun found hash=>found ∪ resolver.waiting hash) ∅
  abandonAll platform (sequences.sort (· ≤ ·))
  refreshPendingAccounting platform
  pure false

/-- Whether a rejected response is skipped rather than ending the session. -/
def BlobCacheError.skipsResponse : BlobCacheError → Bool
  | .unsolicitedBlob _ => true
  | .hashMismatch _ _ => true
  | .conflictingDuplicate _ => true
  | .pinnedPayloadPressure => true
  | .cacheEntryPressure => true
  | .invalidLevelChunkHashCount _ _ => false
  | .invalidLevelChunkCount _ => false
  | .notCachedPacket => false
  | .missingResolvedBlob _ => false
  | .byteCountOverflow => false
  | .ordinaryLaneFull _ _ _ _ => false

def recoverResponse (hashes : List ℕ) : Fault → ResolverM Bool
  | .error error =>
    if error.skipsResponse then recoverSkippedMissResponse platform hashes
    else do
      resetPending platform
      fail error
  | .resolvedExpect => throw .resolvedExpect
  | .accountingExpect => throw .accountingExpect

/-- Accepts verified blobs; `false` when the response was skipped with recovery. -/
def acceptMissResponse : ResolverM Bool := fun world =>
  if response = [] then .ok true world
  else
    match acceptMissResponseInner platform response world with
    | .ok _ world => .ok true world
    | .error fault world => recoverResponse platform (response.map Prod.fst) fault world

end Cinnabar.BlobCache

/-! # What holds between the resolver and the store

A pending transaction pins all its hashes, counts those it is indexed under and
finds the others resident.  Other users of the store cannot change that: they
release only their own pins, and nothing pinned is evicted.
-/

namespace Cinnabar.BlobCache

open Std List

namespace BlobCacheResolver

variable {resolver : BlobCacheResolver} {hash sequence : ℕ}

def holders (resolver : BlobCacheResolver) (hash : ℕ) : Finset ℕ :=
  ((resolver.pending.toList.filter fun entry=>hash ∈ entry.2.uniqueHashes).map Prod.fst).toFinset

lemma mem_holders : sequence ∈ resolver.holders hash ↔ ∃ transaction, resolver.pending[sequence]? = some transaction ∧
      hash ∈ transaction.uniqueHashes := by
  simp only [holders,mem_toFinset,mem_map,mem_filter,decide_eq_true_eq]
  constructor
  · rintro ⟨⟨key,transaction⟩,⟨hmem,hhash⟩,rfl⟩
    exact ⟨transaction,TreeMap.mem_toList_iff_getElem?_eq_some.1 hmem,hhash⟩
  · rintro ⟨transaction,hpending,hhash⟩
    exact ⟨(sequence,transaction),⟨TreeMap.mem_toList_iff_getElem?_eq_some.2 hpending,hhash⟩, rfl⟩

def waitedHashes (resolver : BlobCacheResolver) (sequence : ℕ) (hashes : List ℕ) : List ℕ :=
  hashes.filter fun hash=>sequence ∈ resolver.waiting hash

end BlobCacheResolver

structure PendingTransaction.Formed (transaction : PendingTransaction) : Prop where
  hashes : transaction.hashes=transaction.packet.referencedBlobHashes
  uniqueHashes : transaction.uniqueHashes=stableUnique transaction.hashes
  columns : transaction.columns=pendingPacketColumns transaction.packet
  cached : ∀ {packet}, transaction.packet = .subChunk packet → packet.cacheEnabled=true

/-- What holds between the resolver and the store at every step.  Pins of `owed` are held
beside those of the pending transactions, and the hashes of `held` are resident as long as
something pins them. -/
structure Consistent (platform : Platform) (owed held : List ℕ) (world : World) : Prop where
  pinned : ∀ hash, world.foreign hash + (world.resolver.holders hash).card+owed.count hash≤world.store.pinCount hash
  promised : ∀ {hash : ℕ}, hash ∈ held →
    hash ∈ owed ∨ (world.resolver.waiting hash).Nonempty → (world.store.body hash).isSome
  valid : ∀ {hash : ℕ} {payload : Bytes}, world.store.body hash=some payload → platform.clientBlobHash payload=hash
  indexed : ∀ {sequence hash : ℕ}, sequence ∈ world.resolver.waiting hash → sequence ∈ world.resolver.holders hash
  unresolved : ∀ {sequence : ℕ} {transaction : PendingTransaction},
    world.resolver.pending[sequence]? = some transaction →
    transaction.unresolvedHashes = (world.resolver.waitedHashes sequence transaction.uniqueHashes).length
  resident : ∀ {sequence hash : ℕ}, sequence ∈ world.resolver.holders hash →
    sequence ∉ world.resolver.waiting hash → (world.store.body hash).isSome
  settled : ∀ {sequence : ℕ}, sequence ∈ world.resolver.resolvedPending →
    ∃ transaction, world.resolver.pending[sequence]? = some transaction ∧ transaction.unresolvedHashes=0
  formed : ∀ {sequence : ℕ} {transaction : PendingTransaction},
    world.resolver.pending[sequence]? = some transaction → transaction.Formed
  pendingBelow : ∀ {sequence : ℕ} {transaction : PendingTransaction},
    world.resolver.pending[sequence]? = some transaction →
    sequence<world.resolver.nextReadySequence
  readyBelow : ∀ {sequence : ℕ} {item : ReadyItem}, world.resolver.ready[sequence]? = some item →
    item.sequence=sequence ∧ sequence<world.resolver.nextReadySequence ∧ world.resolver.pending[sequence]? = none
  immediateBelow : ∀ {sequence : ℕ} {item : ReadyItem}, world.resolver.immediateReady[sequence]? = some item →
    item.sequence=sequence ∧ sequence<world.resolver.nextReadySequence ∧
      world.resolver.pending[sequence]? = none ∧ world.resolver.ready[sequence]? = none

  queueFormed : world.resolver.QueueFormed

variable {platform : Platform} {owed held : List ℕ} {world t : World}

lemma consistent_init : Consistent platform [] [] {} where
  pinned hash := by
    have hnone : ({} : World).resolver.holders hash = ∅ :=
      Finset.eq_empty_of_forall_notMem fun _ h=>by simp [BlobCacheResolver.mem_holders] at h
    exact Nat.zero_le _
  promised h := absurd h not_mem_nil
  valid h := by simp [CacheStore.body] at h
  indexed h := by simp [BlobCacheResolver.waiting] at h
  unresolved h := by simp at h
  resident h := by simp [BlobCacheResolver.mem_holders] at h
  settled h := by simp at h
  formed h := by simp at h
  pendingBelow h := by simp at h
  readyBelow h := by simp at h
  immediateBelow h := by simp at h
  queueFormed h := by simp at h

namespace Consistent

lemma pinCount_pos (h : Consistent platform owed held world) {hash sequence : ℕ}
    (hheld : sequence ∈ world.resolver.holders hash) : 0<world.store.pinCount hash :=
  Nat.lt_of_lt_of_le (Nat.lt_of_lt_of_le (Finset.card_pos.2 ⟨_,hheld⟩) (Nat.le_add_left _ _))
    (Nat.le_of_add_right_le (h.pinned hash))

lemma pinCount_pos_of_owed (h : Consistent platform owed held world) {hash : ℕ}
    (howed : hash ∈ owed) : 0<world.store.pinCount hash :=
  Nat.lt_of_lt_of_le (Nat.lt_of_lt_of_le (count_pos_iff.2 howed) (Nat.le_add_left _ _)) (h.pinned hash)

end Consistent

/-- A step of the store alone: the resolver stays, and so do the bodies it pins. -/
structure Undisturbed (platform : Platform) (owed held : List ℕ) (world t : World) : Prop where
  consistent : Consistent platform owed held t
  resolver : t.resolver=world.resolver
  kept : ∀ {hash : ℕ} {payload : Bytes}, (world.resolver.holders hash).Nonempty →
    world.store.body hash=some payload → t.store.body hash=some payload

namespace Undisturbed

variable {u : World}

lemma refl (h : Consistent platform owed held world) :
    Undisturbed platform owed held world world := ⟨h,rfl,fun _=>id⟩

lemma trans (h : Undisturbed platform owed held world t)
    (h' : Undisturbed platform owed held t u) : Undisturbed platform owed held world u :=
  ⟨h'.consistent,h'.resolver.trans h.resolver, fun hheld hbody=>h'.kept (h.resolver ▸ hheld) (h.kept hheld hbody)⟩

lemma of_store (h : Consistent platform owed held world) (hresolver : t.resolver=world.resolver)
    (hpinned : ∀ hash, t.foreign hash + (world.resolver.holders hash).card+owed.count hash≤t.store.pinCount hash)
    (hretains : CacheStore.Retains platform.clientBlobHash
      (fun hash=>(world.resolver.holders hash).Nonempty ∨ hash ∈ owed) world.store t.store) :
    Undisturbed platform owed held world t := by
  refine ⟨?_,hresolver,fun hheld=>hretains.kept (Or.inl hheld)⟩
  exact {
    pinned := fun hash=>by rw [hresolver]; exact hpinned hash
    promised := fun hheld hpins=>by
      rw [hresolver] at hpins
      obtain ⟨payload,hpayload⟩ := Option.isSome_iff_exists.1 (h.promised hheld hpins)
      rw [hretains.kept (hpins.elim Or.inr fun ⟨_,hwait⟩=>Or.inl ⟨_,h.indexed hwait⟩) hpayload]
      rfl
    valid := fun ht=>(hretains.valid ht).elim h.valid id
    indexed := fun hwaiting=>by rw [hresolver] at hwaiting ⊢; exact h.indexed hwaiting
    unresolved := fun hpending=>by rw [hresolver] at hpending ⊢; exact h.unresolved hpending
    resident := fun hheld hwaiting=>by
      rw [hresolver] at hheld hwaiting
      obtain ⟨payload,hpayload⟩ := Option.isSome_iff_exists.1 (h.resident hheld hwaiting)
      rw [hretains.kept (Or.inl ⟨_,hheld⟩) hpayload]
      rfl
    settled := fun hsettled=>by rw [hresolver] at hsettled ⊢; exact h.settled hsettled
    formed := fun hpending=>by rw [hresolver] at hpending; exact h.formed hpending
    pendingBelow := fun hpending=>by rw [hresolver] at hpending ⊢; exact h.pendingBelow hpending
    readyBelow := fun hready=>by rw [hresolver] at hready ⊢; exact h.readyBelow hready
    immediateBelow := fun hitem=>by rw [hresolver] at hitem ⊢; exact h.immediateBelow hitem
    queueFormed := by rw [hresolver]; exact h.queueFormed }

/-- A step of the store that moves no pin. -/
lemma of_settled (h : Consistent platform owed held world)
    (hresolver : t.resolver=world.resolver) (hforeign : t.foreign=world.foreign)
    (hsettled : CacheStore.Settled platform.clientBlobHash world.store t.store) :
    Undisturbed platform owed held world t := by
  refine of_store h hresolver (fun hash=>?_) ⟨fun hheld=>?_,hsettled.2.valid⟩
  · rw [hforeign,CacheStore.pinCount,hsettled.1]
    exact h.pinned hash
  · rcases hheld with ⟨sequence,hheld⟩ | howed
    · exact hsettled.2.kept (h.pinCount_pos hheld)
    · exact hsettled.2.kept (h.pinCount_pos_of_owed howed)

end Undisturbed

section Interfering

lemma storeAfter_of {α : Type} {operation : StoreM α} {store : CacheStore}
    {P : CacheStore → Prop} (h : Meets operation store (fun _=>P) fun _=>P) :
    P (storeAfter operation store) := by
  unfold Meets at h
  unfold storeAfter
  cases hrun : operation store with
  | ok value store => simpa only [hrun] using h
  | error error store => simpa only [hrun] using h

section

variable (h : Consistent platform owed held world)
include h

/-- The others release no pin of this resolver. -/
lemma Consistent.apply (step : Interference) : Undisturbed platform owed held world (step.apply platform world) := by
  cases step with
  | insert payload =>
    refine .of_settled h rfl rfl (storeAfter_of (P := CacheStore.Settled _ world.store) ?_)
    exact (CacheStore.insertShared_spec rfl).mono (fun _ _ h=>h.1) fun _ _=>id
  | admitBody hash payload =>
    exact .of_settled h rfl rfl (storeAfter_of (P := CacheStore.Settled _ world.store) CacheStore.admitBody_spec)
  | fetch hash =>
    refine .of_settled h rfl rfl (storeAfter_of (P := CacheStore.Settled _ world.store) ?_)
    exact CacheStore.fetch_spec fun t hpins hbody=>⟨hpins,.of_body hbody⟩
  | classify hashes shouldPin =>
    have hspec : (storeAfter (Cinnabar.BlobCache.classify hashes shouldPin) world.store).body=world.store.body ∧
        ∀ other, (storeAfter (Cinnabar.BlobCache.classify hashes shouldPin) world.store).pinCount other =
          world.store.pinCount other+CacheStore.pinsOf shouldPin hashes other :=
      storeAfter_of (P := fun t=>t.body=world.store.body ∧
        ∀ other, t.pinCount other=world.store.pinCount other+CacheStore.pinsOf shouldPin hashes other)
        (CacheStore.classify_spec.mono (fun _ _ h=>⟨h.1,h.2.1⟩) fun _ _=>False.elim)
    refine .of_store h rfl (fun hash=>?_) (.of_body hspec.1)
    have hpinned := h.pinned hash
    have hcount := hspec.2 hash
    rw [CacheStore.pinsOf] at hcount
    change world.foreign hash + (if shouldPin then hashes.count hash else 0) + _+_ ≤
      (storeAfter _ world.store).pinCount hash
    omega
  | unpinAll hashes =>
    rw [Interference.apply]
    split
    · rename_i hguard
      have hle : ∀ hash, hashes.count hash≤world.foreign hash := by
        intro hash
        by_cases hmem : hash ∈ hashes
        · exact hguard hash hmem
        · rw [count_eq_zero_of_not_mem hmem]
          exact Nat.zero_le _
      refine .of_store h rfl (fun hash=>?_) (.unpinAll fun {hash} hheld=>?_)
      · have hpinned := h.pinned hash
        have hforeign := hle hash
        change world.foreign hash-hashes.count hash+_+_ ≤ (world.store.unpinAll platform.limits hashes).pinCount hash
        rw [(CacheStore.unpinAll_spec hashes).1]
        omega
      · have hpinned := h.pinned hash
        have hforeign := hle hash
        rcases hheld with hheld | howed
        · have hpos := Finset.card_pos.2 hheld
          omega
        · have hpos := count_pos_iff.2 howed
          omega
    · exact .refl h

lemma Consistent.interfere : Undisturbed platform owed held world (world.interfere platform) := by
  have hbatch : ∀ (batch : List Interference) (w : World), Consistent platform owed held w →
      Undisturbed platform owed held w (batch.foldl (Interference.apply platform) w) := by
    intro batch
    induction batch with
    | nil => exact fun w hw=>.refl hw
    | cons step batch ih =>
      intro w hw
      exact (hw.apply step).trans (ih _ (hw.apply step).consistent)
  unfold World.interfere
  split
  · exact .refl h
  · rename_i batch rest hbatches
    exact (hbatch batch world h).trans (.of_settled (hbatch batch world h).consistent rfl rfl .refl)

lemma meets_lock {α : Type} {operation : StoreM α} {Q : α → World → Prop} {E : Fault → World → Prop}
    (hrun : ∀ w : World, Undisturbed platform owed held world w →
      Meets operation w.store (fun value store=>Q value { w with store := store })
        fun error store=>E (.error error) { w with store := store }) :
    Meets (lock platform operation) world Q E := by
  have hmeets := hrun _ h.interfere
  unfold Meets at hmeets ⊢
  unfold lock
  cases hop : operation (world.interfere platform).store with
  | ok value store => simpa only [hop] using hmeets
  | error error store => simpa only [hop] using hmeets

end

end Interfering

end Cinnabar.BlobCache
