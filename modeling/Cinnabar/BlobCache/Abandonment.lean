import Cinnabar.BlobCache.Evolution

/-! # Giving work up -/

namespace Cinnabar.BlobCache

open Std BlobCacheResolver List

variable {platform : Platform} {owed held : List ℕ} {world t : World} {r : BlobCacheResolver}
  {sequence : ℕ} {transaction amended : PendingTransaction}

section Amending

/-- The fields of a transaction the invariants mention. -/
structure PendingTransaction.Agrees (amended transaction : PendingTransaction) : Prop where
  packet : amended.packet=transaction.packet
  hashes : amended.hashes=transaction.hashes
  uniqueHashes : amended.uniqueHashes=transaction.uniqueHashes
  unresolvedHashes : amended.unresolvedHashes=transaction.unresolvedHashes
  columns : amended.columns=transaction.columns

lemma lookup_amended (hpending : r.pending[sequence]? = some transaction)
    (hagrees : amended.Agrees transaction) {other : ℕ} {found : PendingTransaction}
    (h : (r.pending.insert sequence amended)[other]? = some found) :
    ∃ earlier, r.pending[other]? = some earlier ∧ found.Agrees earlier := by
  rw [lookup_insert] at h
  split at h
  · rename_i heq
    cases h
    exact ⟨transaction,heq ▸ hpending,hagrees⟩
  · exact ⟨found,h,rfl,rfl,rfl,rfl,rfl⟩

lemma lookup_amended_of (hpending : r.pending[sequence]? = some transaction)
    (hagrees : amended.Agrees transaction) {other : ℕ} {earlier : PendingTransaction}
    (h : r.pending[other]? = some earlier) :
    ∃ found : PendingTransaction,
      (r.pending.insert sequence amended)[other]? = some found ∧ found.Agrees earlier := by
  rw [lookup_insert]
  split
  · rename_i heq
    rw [← heq,hpending] at h
    cases h
    exact ⟨amended,rfl,hagrees⟩
  · exact ⟨earlier,h,rfl,rfl,rfl,rfl,rfl⟩

lemma Consistent.amend (h : Consistent platform owed held world)
    (hpending : world.resolver.pending[sequence]? = some transaction)
    (hagrees : amended.Agrees transaction) :
    Consistent platform owed held { world with resolver :=
      { world.resolver with pending := world.resolver.pending.insert sequence amended } } := by
  have hholders : ∀ hash, ({ world.resolver with
      pending := world.resolver.pending.insert sequence amended } :
        BlobCacheResolver).holders hash=world.resolver.holders hash := by
    intro hash
    ext other
    rw [mem_holders,mem_holders]
    constructor
    · rintro ⟨found,hfound,hmem⟩
      obtain ⟨earlier,hearlier,hagrees⟩ := lookup_amended hpending hagrees hfound
      exact ⟨earlier,hearlier,hagrees.uniqueHashes ▸ hmem⟩
    · rintro ⟨earlier,hearlier,hmem⟩
      obtain ⟨found,hfound,hagrees⟩ := lookup_amended_of hpending hagrees hearlier
      exact ⟨found,hfound,hagrees.uniqueHashes ▸ hmem⟩
  have hnone : ∀ {other : ℕ}, world.resolver.pending[other]? = none →
      (world.resolver.pending.insert sequence amended)[other]? = none := by
    intro other hother
    rw [lookup_insert,if_neg,hother]
    rintro rfl
    rw [hpending] at hother
    cases hother
  exact {
    pinned := fun hash=>by rw [hholders]; exact h.pinned hash
    __ := h
    indexed := fun hmem=>by rw [hholders]; exact h.indexed hmem
    unresolved := fun htx=>by
      obtain ⟨earlier,hearlier,hagrees⟩ := lookup_amended hpending hagrees htx
      rw [hagrees.unresolvedHashes,hagrees.uniqueHashes]
      exact h.unresolved hearlier
    resident := fun hheld hmem=>by rw [hholders] at hheld; exact h.resident hheld hmem
    settled := fun hmem=>by
      obtain ⟨earlier,hearlier,hzero⟩ := h.settled hmem
      obtain ⟨found,hfound,hagrees⟩ := lookup_amended_of hpending hagrees hearlier
      exact ⟨found,hfound,hagrees.unresolvedHashes.trans hzero⟩
    formed := fun htx=>by
      obtain ⟨earlier,hearlier,hagrees⟩ := lookup_amended hpending hagrees htx
      have hformed := h.formed hearlier
      exact {
        hashes := by rw [hagrees.hashes,hagrees.packet]; exact hformed.hashes
        uniqueHashes := by rw [hagrees.uniqueHashes,hagrees.hashes]; exact hformed.uniqueHashes
        columns := by rw [hagrees.columns,hagrees.packet]; exact hformed.columns
        cached := fun hpacket=>hformed.cached (hagrees.packet ▸ hpacket) }
    pendingBelow := fun htx=>by
      obtain ⟨earlier,hearlier,-⟩ := lookup_amended hpending hagrees htx
      exact h.pendingBelow hearlier
    readyBelow := fun hitem =>
      ⟨(h.readyBelow hitem).1,(h.readyBelow hitem).2.1,hnone (h.readyBelow hitem).2.2⟩
    immediateBelow := fun hitem =>
      ⟨(h.immediateBelow hitem).1,(h.immediateBelow hitem).2.1,
        hnone (h.immediateBelow hitem).2.2.1,(h.immediateBelow hitem).2.2.2⟩ }

lemma Evolves.amend (hpending : r.pending[sequence]? = some transaction) (hagrees : amended.Agrees transaction) :
    Evolves platform [] r { r with pending := r.pending.insert sequence amended } where
  next := rfl
  pending h := by
    obtain ⟨earlier,hearlier,hagrees⟩ := lookup_amended hpending hagrees h
    exact ⟨earlier,hearlier,hagrees.packet,hagrees.columns⟩
  ready := Or.inl
  immediate := id
  keptPending h := by
    obtain ⟨found,hfound,-⟩ := lookup_amended_of hpending hagrees h
    exact Or.inl ⟨found,hfound⟩
  keptReady := Or.inl
  queued := Or.inr
  stuck h := by
    obtain ⟨hmem,found,hfound,hzero⟩ := h
    obtain ⟨earlier,hearlier,hagrees⟩ := lookup_amended hpending hagrees hfound
    exact ⟨hmem,earlier,hearlier,hagrees.unresolvedHashes.symm.trans hzero⟩

end Amending

section Promoting

lemma Steady.addOwnedHash {hash : ℕ} : Steady platform held (BlobCache.addOwnedHash sequence hash) := by
  refine ⟨fun {world} hworld=>.bind (.bind (.get (.pure ?_)))⟩
  cases hpending : world.resolver.pending[sequence]? with
  | none => exact .pure (.refl hworld)
  | some transaction =>
    refine .ite (fun _=>.pure (.refl hworld)) fun _=>?_
    refine .bind (.bind (.get (.bind (.set (.pure ?_)))))
    set w : World := { world with containers := world.containers.tail } with hw
    have hconsistent : Consistent platform [] held w := hworld.of_fields rfl rfl rfl rfl rfl rfl rfl rfl subset_rfl
    unfold BlobCache.addCounted
    split
    · have hagrees : ∀ {bytes : ℕ}, ({ transaction with
          ownedHashes := transaction.ownedHashes ++ [hash]
          accountedBytes := bytes } : PendingTransaction).Agrees transaction :=
        ⟨rfl,rfl,rfl,rfl,rfl⟩
      exact {
        consistent := (hconsistent.amend hpending hagrees).of_fields rfl rfl rfl rfl rfl rfl rfl rfl subset_rfl
        evolves := (Evolves.amend hpending hagrees).trans (.of_eq rfl rfl rfl rfl rfl rfl)
        resolved := subset_rfl }
    · exact .bind (.throw ⟨rfl,hconsistent,.refl,subset_rfl⟩)

lemma Steady.promoteWaiters {owner : ℕ} : Steady platform held (BlobCache.promoteWaiters owner) := by
  have hadd : ∀ promotions, Steady platform held (addOwnedHashes promotions) := by
    intro promotions
    induction promotions with
    | nil => exact .pure
    | cons first promotions ih => exact .bind .addOwnedHash fun _=>ih
  exact .bind .readResolver fun resolver=>hadd _

end Promoting

section Removing

lemma waiting_unindexHash (r : BlobCacheResolver) (hash other : ℕ) : (unindexHash sequence r hash).waiting other =
      if hash=other then (r.waiting other).erase sequence else r.waiting other := by
  unfold unindexHash
  cases hlookup : r.pendingByHash[hash]? with
  | none =>
    dsimp only
    split
    · rename_i heq
      simp [BlobCacheResolver.waiting,TreeMap.getD_eq_getD_getElem?,← heq,hlookup]
    · rfl
  | some transactions =>
    have hwaiting : r.waiting hash=transactions := by
      simp [BlobCacheResolver.waiting,TreeMap.getD_eq_getD_getElem?,hlookup]
    dsimp only [BlobCacheResolver.waiting]
    by_cases heq : hash=other
    · rw [if_pos heq,← heq]
      change _ = (r.waiting hash).erase sequence
      rw [hwaiting]
      split
      · rename_i hempty
        rw [count_erase,if_pos rfl,hempty]
      · rw [count_insert,if_pos rfl]
    · split
      · rw [count_erase,if_neg heq]
      · rw [count_insert,if_neg heq]

lemma unindexHash_eq (sequence : ℕ) (r : BlobCacheResolver) (hash : ℕ) :
    ∃ index, unindexHash sequence r hash = { r with pendingByHash := index } := by
  unfold unindexHash
  split
  · exact ⟨r.pendingByHash,rfl⟩
  · exact ⟨_,rfl⟩

/-- Steps that change the waiters of one hash each change those of the hashes folded over. -/
lemma foldl_reindex {step : BlobCacheResolver → ℕ → BlobCacheResolver}
    (change : Finset ℕ → Finset ℕ) (hidem : ∀ waiters, change (change waiters) = change waiters)
    (hindex : ∀ r hash, ∃ index, step r hash = { r with pendingByHash := index })
    (hstep : ∀ r hash other, (step r hash).waiting other =
      if hash=other then change (r.waiting other) else r.waiting other)
    (hashes : List ℕ) (r : BlobCacheResolver) :
    ∃ index, hashes.foldl step r = { r with pendingByHash := index } ∧ ∀ other, (hashes.foldl step r).waiting other =
        if other ∈ hashes then change (r.waiting other) else r.waiting other := by
  induction hashes generalizing r with
  | nil => exact ⟨r.pendingByHash,rfl,fun other=>by rw [if_neg not_mem_nil]; rfl⟩
  | cons first hashes ih =>
    obtain ⟨index,heq,hwaiting⟩ := ih (step r first)
    obtain ⟨index',heq'⟩ := hindex r first
    refine ⟨index,by rw [foldl_cons,heq,heq'],fun other=>?_⟩
    rw [foldl_cons,hwaiting,hstep]
    by_cases hother : other ∈ hashes
    · rw [if_pos hother,if_pos (mem_cons_of_mem _ hother)]
      split
      · exact hidem _
      · rfl
    · rw [if_neg hother]
      by_cases heq : first=other
      · rw [if_pos heq,if_pos (by rw [heq]; exact .head _)]
      · rw [if_neg heq,if_neg]
        intro hmem
        rcases mem_cons.1 hmem with rfl | hmem
        · exact heq rfl
        · exact hother hmem

lemma foldl_unindexHash (sequence : ℕ) (hashes : List ℕ) (r : BlobCacheResolver) :
    ∃ index, hashes.foldl (unindexHash sequence) r = { r with pendingByHash := index } ∧
      ∀ other, (hashes.foldl (unindexHash sequence) r).waiting other =
        if other ∈ hashes then (r.waiting other).erase sequence else r.waiting other :=
  foldl_reindex (·.erase sequence) (fun _=>Finset.erase_idem) (unindexHash_eq sequence)
    (fun r hash other=>waiting_unindexHash r hash other) hashes r

/-- The resolver once a transaction is out of every index. -/
structure Removed (r : BlobCacheResolver) (sequence : ℕ) (removed : BlobCacheResolver) : Prop where
  pending : removed.pending=r.pending.erase sequence
  waiting : ∀ hash, removed.waiting hash = (r.waiting hash).erase sequence
  resolved : removed.resolvedPending=r.resolvedPending.erase sequence
  ready : removed.ready=r.ready
  immediate : removed.immediateReady=r.immediateReady
  queue : removed.recoveryReady=r.recoveryReady
  next : removed.nextReadySequence=r.nextReadySequence

lemma Consistent.removed (h : Consistent platform owed held world)
    (hpending : world.resolver.pending[sequence]? = some transaction) :
    (world.resolver.removePendingTransaction sequence).1=some transaction ∧
      Removed world.resolver sequence (world.resolver.removePendingTransaction sequence).2 := by
  unfold BlobCacheResolver.removePendingTransaction
  dsimp only
  rw [hpending]
  obtain ⟨index,heq,hwaiting⟩ := foldl_unindexHash sequence
    transaction.uniqueHashes { world.resolver with
      resolvedPending := world.resolver.resolvedPending.erase sequence
      pending := world.resolver.pending.erase sequence
      pendingAccountedBytes :=
        world.resolver.pendingAccountedBytes-transaction.accountedBytes
      retainedColumnSlots :=
        world.resolver.retainedColumnSlots-transaction.columns.length }
  refine ⟨rfl,?_⟩
  dsimp only
  have hwaits : ∀ hash, (transaction.uniqueHashes.foldl (unindexHash sequence)
      { world.resolver with
        resolvedPending := world.resolver.resolvedPending.erase sequence
        pending := world.resolver.pending.erase sequence
        pendingAccountedBytes :=
          world.resolver.pendingAccountedBytes-transaction.accountedBytes
        retainedColumnSlots :=
          world.resolver.retainedColumnSlots-transaction.columns.length }).waiting hash =
      (world.resolver.waiting hash).erase sequence := by
    intro hash
    rw [hwaiting]
    by_cases hmem : hash ∈ transaction.uniqueHashes
    · rw [if_pos hmem]
      rfl
    · rw [if_neg hmem]
      refine (Finset.erase_eq_of_notMem fun hwait=>hmem ?_).symm
      obtain ⟨found,hfound,hhash⟩ := mem_holders.1 (h.indexed hwait)
      rw [hpending] at hfound
      cases hfound
      exact hhash
  exact {
    pending := by rw [heq]
    waiting := hwaits
    resolved := by rw [heq]
    ready := by rw [heq]
    immediate := by rw [heq]
    queue := by rw [heq]
    next := by rw [heq] }

namespace Removed

variable {removed : BlobCacheResolver}

section

variable (hremoved : Removed r sequence removed)
include hremoved

lemma lookup {other : ℕ} {found : PendingTransaction} (h : removed.pending[other]? = some found) :
    sequence≠other ∧ r.pending[other]? = some found := by
  rw [hremoved.pending,lookup_erase] at h
  split at h
  · cases h
  · rename_i hne
    exact ⟨hne,h⟩

lemma lookup_of {other : ℕ} {found : PendingTransaction} (hne : sequence≠other)
    (h : r.pending[other]? = some found) : removed.pending[other]? = some found := by
  rw [hremoved.pending,lookup_erase,if_neg hne]
  exact h

lemma holders (hash : ℕ) : removed.holders hash = (r.holders hash).erase sequence := by
  ext other
  rw [Finset.mem_erase,mem_holders,mem_holders]
  constructor
  · rintro ⟨found,hfound,hmem⟩
    obtain ⟨hne,hfound⟩ := hremoved.lookup hfound
    exact ⟨hne.symm,found,hfound,hmem⟩
  · rintro ⟨hne,found,hfound,hmem⟩
    exact ⟨found,hremoved.lookup_of hne.symm hfound,hmem⟩

end

end Removed

lemma Consistent.remove (h : Consistent platform owed held world)
    (hpending : world.resolver.pending[sequence]? = some transaction)
    {removed : BlobCacheResolver} (hremoved : Removed world.resolver sequence removed) :
    Consistent platform (transaction.uniqueHashes++owed) held { world with resolver := removed } where
  pinned hash := by
    have hpinned := h.pinned hash
    rw [count_append,hremoved.holders]
    by_cases hmem : hash ∈ transaction.uniqueHashes
    · have hheld : sequence ∈ world.resolver.holders hash := mem_holders.2 ⟨transaction,hpending,hmem⟩
      have hpos := Finset.card_pos.2 ⟨_,hheld⟩
      have hnodup : transaction.uniqueHashes.Nodup := by
        rw [(h.formed hpending).uniqueHashes]
        exact nodup_stableUnique _
      rw [count_eq_one_of_mem hnodup hmem,Finset.card_erase_of_mem hheld]
      dsimp only
      omega
    · have hcount : transaction.uniqueHashes.count hash=0 := count_eq_zero_of_not_mem hmem
      have hle := Finset.card_erase_le (s := world.resolver.holders hash) (a := sequence)
      dsimp only
      omega
  promised {hash} hheld hpins := by
    rcases hpins with howed | ⟨other,hwait⟩
    · rcases mem_append.1 howed with hmem | howed
      · by_cases hwait : sequence ∈ world.resolver.waiting hash
        · exact h.promised hheld (Or.inr ⟨_,hwait⟩)
        · exact h.resident (mem_holders.2 ⟨transaction,hpending,hmem⟩) hwait
      · exact h.promised hheld (Or.inl howed)
    · rw [hremoved.waiting] at hwait
      exact h.promised hheld (Or.inr ⟨other,(Finset.mem_erase.1 hwait).2⟩)
  valid := h.valid
  indexed hmem := by
    rw [hremoved.waiting] at hmem
    rw [hremoved.holders]
    exact Finset.mem_erase.2 ⟨(Finset.mem_erase.1 hmem).1,h.indexed (Finset.mem_erase.1 hmem).2⟩
  unresolved htx := by
    obtain ⟨hne,htx⟩ := hremoved.lookup htx
    rw [h.unresolved htx]
    congr 1
    refine filter_congr fun hash _=>?_
    rw [decide_eq_decide,hremoved.waiting,Finset.mem_erase]
    exact ⟨fun hmem=>⟨hne.symm,hmem⟩,And.right⟩
  resident hheld hmem := by
    rw [hremoved.holders] at hheld
    obtain ⟨hne,hheld⟩ := Finset.mem_erase.1 hheld
    rw [hremoved.waiting] at hmem
    exact h.resident hheld fun hwait=>hmem (Finset.mem_erase.2 ⟨hne,hwait⟩)
  settled hmem := by
    rw [hremoved.resolved] at hmem
    obtain ⟨hne,hmem⟩ := Finset.mem_erase.1 hmem
    obtain ⟨found,hfound,hzero⟩ := h.settled hmem
    exact ⟨found,hremoved.lookup_of hne.symm hfound,hzero⟩
  formed htx := h.formed (hremoved.lookup htx).2
  pendingBelow htx := by
    rw [hremoved.next]
    exact h.pendingBelow (hremoved.lookup htx).2
  readyBelow hitem := by
    rw [hremoved.ready] at hitem
    rw [hremoved.next,hremoved.pending,lookup_erase]
    obtain ⟨heq,hlt,hnone⟩ := h.readyBelow hitem
    exact ⟨heq,hlt,by rw [hnone]; split <;> rfl⟩
  immediateBelow hitem := by
    rw [hremoved.immediate] at hitem
    rw [hremoved.next,hremoved.pending,lookup_erase,hremoved.ready]
    obtain ⟨heq,hlt,hnone,hready⟩ := h.immediateBelow hitem
    exact ⟨heq,hlt,by rw [hnone]; split <;> rfl,hready⟩
  queueFormed hlookup := h.queueFormed (hremoved.queue ▸ hlookup)

/-- Releasing pins that are owed leaves the others. -/
lemma meets_unpinAll {hashes : List ℕ} {Q : PUnit → World → Prop} {E : Fault → World → Prop}
    (h : Consistent platform (hashes++owed) held world)
    (hQ : ∀ t : World, Consistent platform owed held t → t.resolver=world.resolver → Q ⟨⟩ t) :
    Meets (unpinAll platform hashes) world Q E := by
  refine meets_lock h fun w hundisturbed=>.modified (hQ _ ?_ hundisturbed.resolver)
  have hw := hundisturbed.consistent
  have hretains : CacheStore.Retains platform.clientBlobHash
      (fun hash=>(w.resolver.holders hash).Nonempty ∨ hash ∈ owed) w.store
      (w.store.unpinAll platform.limits hashes) := by
    refine .unpinAll fun {other} hother=>?_
    have hpinned := hw.pinned other
    rw [count_append] at hpinned
    rcases hother with hother | hother
    · have hpos := Finset.card_pos.2 hother
      omega
    · have hpos := count_pos_iff.2 hother
      omega
  have hkept : ∀ {hash : ℕ}, (w.resolver.holders hash).Nonempty ∨ hash ∈ owed → (w.store.body hash).isSome →
      ((w.store.unpinAll platform.limits hashes).body hash).isSome := by
    intro hash hpins hsome
    obtain ⟨payload,hpayload⟩ := Option.isSome_iff_exists.1 hsome
    rw [hretains.kept hpins hpayload]
    rfl
  exact {
    pinned := fun hash=>by
      have hpinned := hw.pinned hash
      rw [count_append] at hpinned
      rw [(CacheStore.unpinAll_spec hashes).1]
      dsimp only
      omega
    promised := fun hheld hpins=>by
      rcases hpins with howed | ⟨other,hwait⟩
      · exact hkept (Or.inr howed) (hw.promised hheld (Or.inl (mem_append_right _ howed)))
      · exact hkept (Or.inl ⟨other,hw.indexed hwait⟩) (hw.promised hheld (Or.inr ⟨other,hwait⟩))
    valid := fun hbody=>(hretains.valid hbody).elim hw.valid id
    __ := hw
    resident := fun hheld hmem=>hkept (Or.inl ⟨_,hheld⟩) (hw.resident hheld hmem) }

end Removing

section Abandoning

/-- A transaction leaves for the requests that meet its needs. -/
lemma Removed.evolves {removed : BlobCacheResolver} (hremoved : Removed r sequence removed)
    (hformed : r.QueueFormed) (hpending : r.pending[sequence]? = some transaction)
    {inline queued : List ChunkResyncEvent}
    (hplain : ∀ event ∈ queued, event.requestedSubChunks=none)
    (hcovers : ∀ need, transaction.packet.Needs need → ∃ event ∈ inline++queued, event.Covers need) :
    Evolves platform inline r (removed.enqueueRecoveries queued) := by
  have hformed' : removed.QueueFormed := fun hlookup=>hformed (hremoved.queue ▸ hlookup)
  obtain ⟨queue,heq⟩ := enqueueRecoveries_eq removed queued
  obtain ⟨-,hqueues⟩ := queues_enqueueRecoveries hformed' hplain
  rw [heq] at hqueues ⊢
  exact {
    next := hremoved.next
    pending := fun h=>⟨_,(hremoved.lookup h).2,rfl,rfl⟩
    ready := fun h=>Or.inl (hremoved.ready ▸ h)
    immediate := fun h=>hremoved.immediate ▸ h
    keptPending := fun {other found} h=>by
      by_cases heq : sequence=other
      · subst heq
        rw [hpending] at h
        cases h
        refine Or.inr (Or.inr fun need hneed=>?_)
        obtain ⟨event,hmem,hcover⟩ := hcovers need hneed
        rcases mem_append.1 hmem with hmem | hmem
        · exact Or.inl ⟨event,hmem,hcover⟩
        · exact Or.inr (hqueues need (Or.inr ⟨event,hmem,hcover⟩))
      · exact Or.inl ⟨found,hremoved.lookup_of heq h⟩
    keptReady := fun h=>Or.inl (hremoved.ready ▸ h)
    queued := fun {need} h=>Or.inr (hqueues need (Or.inl (by
      unfold BlobCacheResolver.Queues at *
      rw [hremoved.queue]
      exact h)))
    stuck := fun {other} ⟨hmem,found,hfound,hzero⟩=>by
      obtain ⟨hne,hfound⟩ := hremoved.lookup hfound
      refine ⟨fun hmem'=>hmem ?_,found,hfound,hzero⟩
      rw [hremoved.resolved]
      exact Finset.mem_erase.2 ⟨hne.symm,hmem'⟩ }

/-- What is left of a transaction that was given up. -/
structure Abandoned (platform : Platform) (held : List ℕ) (sequence : ℕ)
    (handed : List ChunkResyncEvent) (world t : World) : Prop where
  consistent : Consistent platform [] held t
  evolves : Evolves platform handed world.resolver t.resolver
  resolved : t.resolver.resolvedPending ⊆ world.resolver.resolvedPending.erase sequence
  gone : t.resolver.pending[sequence]? = none
  plain : ∀ event ∈ handed, event.requestedSubChunks=none

lemma abandonPendingTransactionWithRecovery_spec {returnFirst : Bool} (hworld : Consistent platform [] held world) :
    Meets (abandonPendingTransactionWithRecovery platform sequence returnFirst) world
      (fun recovery t=>(returnFirst=false → recovery=none) ∧ Abandoned platform held sequence recovery.toList world t)
      fun fault t=>fault = .error .byteCountOverflow ∧ After platform held world t := by
  refine .bind ((Steady.promoteWaiters.meets hworld).mono (fun _ w hw=>?_) fun _ _=>id)
  refine .bind (.bind (.bind (.get (.pure (.bind (.modified (.pure ?_)))))))
  dsimp only
  cases hpending : w.resolver.pending[sequence]? with
  | none =>
    have hremoved : w.resolver.removePendingTransaction sequence = (none,w.resolver) := by
      unfold BlobCacheResolver.removePendingTransaction
      dsimp only
      rw [hpending]
      have herase : w.resolver.resolvedPending.erase sequence=w.resolver.resolvedPending := by
        refine Finset.erase_eq_of_notMem fun hmem=>?_
        obtain ⟨transaction,hsome,-⟩ := hw.consistent.settled hmem
        rw [hpending] at hsome
        cases hsome
      rw [herase]
    rw [hremoved]
    refine .pure ⟨fun _=>rfl,hw.consistent,hw.evolves,fun other hmem=>?_,hpending, fun _ hmem=>absurd hmem not_mem_nil⟩
    refine Finset.mem_erase.2 ⟨?_,hw.resolved hmem⟩
    rintro rfl
    obtain ⟨transaction,hsome,-⟩ := hw.consistent.settled hmem
    rw [hpending] at hsome
    cases hsome
  | some transaction =>
    obtain ⟨hfirst,hremoved⟩ := hw.consistent.removed hpending
    rw [hfirst]
    have howed := hw.consistent.remove hpending hremoved
    have hpackets : ∀ need, transaction.packet.Needs need →
        ∃ event ∈ pendingPacketRecovery transaction.packet, event.Covers need := fun need =>
      pendingPacketRecovery_covers (hw.consistent.formed hpending).cached
    refine .bind (meets_unpinAll howed fun u hu hresolver=>?_)
    have hgone : ∀ {events : List ChunkResyncEvent},
        (u.resolver.enqueueRecoveries events).pending[sequence]? = none := by
      intro events
      obtain ⟨queue,heq⟩ := enqueueRecoveries_eq u.resolver events
      rw [heq,hresolver]
      rw [hremoved.pending,lookup_erase,if_pos rfl]
    have hresolved : ∀ {events : List ChunkResyncEvent}, (u.resolver.enqueueRecoveries events).resolvedPending ⊆
          world.resolver.resolvedPending.erase sequence := by
      intro events
      rw [resolved_enqueueRecoveries,hresolver]
      rw [hremoved.resolved]
      exact Finset.erase_subset_erase _ hw.resolved
    have hevolves : ∀ {inline queued : List ChunkResyncEvent},
        (∀ event ∈ queued, event ∈ pendingPacketRecovery transaction.packet) →
        (∀ event ∈ pendingPacketRecovery transaction.packet, event ∈ inline++queued) →
        Evolves platform inline world.resolver (u.resolver.enqueueRecoveries queued) := by
      intro inline queued hqueued hall
      rw [hresolver]
      refine hw.evolves.trans (hremoved.evolves hw.consistent.queueFormed hpending
        (fun event hmem=>pendingPacketRecovery_plain (hqueued event hmem)) fun need hneed=>?_)
      obtain ⟨event,hmem,hcover⟩ := hpackets need hneed
      exact ⟨event,hall event hmem,hcover⟩
    refine .ite (fun hreturn=>?_) fun _=>?_
    · refine .bind (.modified (.pure ⟨fun h=>?_,?_⟩))
      · rw [h] at hreturn
        cases hreturn
      · have htail : ∀ event ∈ (pendingPacketRecovery transaction.packet).tail,
            event ∈ pendingPacketRecovery transaction.packet := fun _=>mem_of_mem_tail
        have hhead : ∀ event ∈ (pendingPacketRecovery transaction.packet).head?.toList,
            event ∈ pendingPacketRecovery transaction.packet := fun event hmem =>
          List.mem_of_mem_head? (Option.mem_toList.1 hmem)
        refine ⟨hu.enqueueRecoveries fun event hmem=>pendingPacketRecovery_plain
          (htail event hmem),hevolves htail fun event hmem=>?_,hresolved,hgone,
          fun event hmem=>pendingPacketRecovery_plain (hhead event hmem)⟩
        cases hevents : pendingPacketRecovery transaction.packet with
        | nil =>
          rw [hevents] at hmem
          exact absurd hmem not_mem_nil
        | cons first rest =>
          rw [hevents] at hmem
          exact hmem
    · refine .bind (.modified (.pure ⟨fun _=>rfl,?_⟩))
      exact ⟨hu.enqueueRecoveries fun _=>pendingPacketRecovery_plain, hevolves (fun _=>id) fun _=>id,hresolved,hgone,
        fun _ hmem=>absurd hmem not_mem_nil⟩

lemma Abandoned.after {handed : List ChunkResyncEvent}
    (h : Abandoned platform held sequence handed world t) (hnone : handed = []) :
    After platform held world t :=
  ⟨h.consistent,hnone ▸ h.evolves,h.resolved.trans (Finset.erase_subset _ _)⟩

lemma abandonPendingTransaction_spec (hworld : Consistent platform [] held world) :
    Meets (abandonPendingTransaction platform sequence) world (fun _ t=>Abandoned platform held sequence [] world t)
      fun fault t=>fault = .error .byteCountOverflow ∧ After platform held world t := by
  refine .bind ((abandonPendingTransactionWithRecovery_spec hworld).mono
    (fun recovery t ⟨hnone,habandoned⟩=>.pure ?_) fun _ _=>id)
  rw [hnone rfl] at habandoned
  exact habandoned

lemma Steady.abandonPendingTransaction : Steady platform held (BlobCache.abandonPendingTransaction platform sequence) :=
  ⟨fun hworld=>(abandonPendingTransaction_spec hworld).mono (fun _ _ h=>h.after rfl) fun _ _=>id⟩

lemma Steady.abandonAll (sequences : List ℕ) : Steady platform held (BlobCache.abandonAll platform sequences) := by
  induction sequences with
  | nil => exact .pure
  | cons first sequences ih => exact .bind .abandonPendingTransaction fun _=>ih

lemma Steady.relieveCachedReadyPressure : Steady platform held (BlobCache.relieveCachedReadyPressure platform) :=
  .bind .readResolver fun _=>.ite .pure (.bind (.abandonAll _) fun _=>.refreshPendingAccounting)

/-- What the oldest transaction needs goes out inline and through the queue. -/
lemma rotateOldestPendingTransaction_spec (hworld : Consistent platform [] held world) :
    Meets (rotateOldestPendingTransaction platform) world (fun recovery t=>Consistent platform [] held t ∧
        Evolves platform recovery.toList world.resolver t.resolver ∧
        t.resolver.resolvedPending ⊆ world.resolver.resolvedPending ∧
        ∀ event ∈ recovery.toList, event.requestedSubChunks=none)
      fun fault t=>fault = .error .byteCountOverflow ∧ After platform held world t := by
  refine .bind (.bind (.get (.pure ?_)))
  split
  · exact .pure ⟨hworld,.refl,subset_rfl,fun _ hmem=>absurd hmem not_mem_nil⟩
  · exact (abandonPendingTransactionWithRecovery_spec hworld).mono (fun _ _ h=>⟨h.2.consistent,h.2.evolves,
        h.2.resolved.trans (Finset.erase_subset _ _),h.2.plain⟩) fun _ _=>id

end Abandoning

end Cinnabar.BlobCache
