import Cinnabar.BlobCache.Responses

/-! # The transactions an operation leaves pending -/

namespace Cinnabar.BlobCache

open Std List

/-- The transactions of `keep` stay, amended at most. -/
structure Stays (keep : ℕ → Prop) (r t : BlobCacheResolver) : Prop where
  later : ∀ {sequence : ℕ} {transaction : PendingTransaction}, keep sequence → r.pending[sequence]? = some transaction →
    ∃ later : PendingTransaction, t.pending[sequence]? = some later ∧ later.Agrees transaction

namespace PendingTransaction.Agrees

variable {a b c : PendingTransaction}

lemma refl : a.Agrees a := ⟨rfl,rfl,rfl,rfl,rfl⟩

lemma trans (h : a.Agrees b) (h' : b.Agrees c) : a.Agrees c :=
  ⟨h.packet.trans h'.packet,h.hashes.trans h'.hashes,h.uniqueHashes.trans h'.uniqueHashes,
    h.unresolvedHashes.trans h'.unresolvedHashes,h.columns.trans h'.columns⟩

end PendingTransaction.Agrees

variable {platform : Platform} {keep keep' : ℕ → Prop} {r t u : BlobCacheResolver}
  {world : World} {sequence hash : ℕ} {α β : Type}

namespace Stays

lemma of_pending (h : t.pending=r.pending) : Stays keep r t :=
  ⟨fun _ hsome=>⟨_,by rw [h]; exact hsome,.refl⟩⟩

lemma trans (h : Stays keep r t) (h' : Stays keep t u) : Stays keep r u := by
  refine ⟨fun hkeep hsome=>?_⟩
  obtain ⟨later,ht,hagrees⟩ := h.later hkeep hsome
  obtain ⟨last,hu,hagrees'⟩ := h'.later hkeep ht
  exact ⟨last,hu,hagrees'.trans hagrees⟩

lemma mono (h : Stays keep r t) (hkeep : ∀ sequence, keep' sequence → keep sequence) :
    Stays keep' r t :=
  ⟨fun hmem hsome=>h.later (hkeep _ hmem) hsome⟩

end Stays

/-- A program under which the transactions of `keep` stay. -/
structure Spares {α : Type} (keep : ℕ → Prop) (program : ResolverM α) : Prop where
  meets : ∀ world : World, Meets program world (fun _ t=>Stays keep world.resolver t.resolver)
    fun _ t=>Stays keep world.resolver t.resolver

namespace Spares

variable {program : ResolverM α}

lemma bind {next : α → ResolverM β} (h : Spares keep program)
    (hnext : ∀ a, Spares keep (next a)) : Spares keep (program >>= next) :=
  ⟨fun world=>.bind ((h.meets world).mono (fun a t ht=>((hnext a).meets t).mono
    (fun _ _ hu=>ht.trans hu) fun _ _ hu=>ht.trans hu) fun _ _=>id)⟩

lemma pure {a : α} : Spares keep (Pure.pure a : ResolverM α) :=
  ⟨fun _=>.pure (.of_pending rfl)⟩

lemma throw {fault : Fault} : Spares keep (MonadExcept.throw fault : ResolverM α) :=
  ⟨fun _=>.throw (.of_pending rfl)⟩

lemma ite {c : Prop} [Decidable c] {program other : ResolverM α} (h : Spares keep program)
    (h' : Spares keep other) : Spares keep (if c then program else other) := by
  split
  · exact h
  · exact h'

lemma mono (h : Spares keep program) (hkeep : ∀ sequence, keep' sequence → keep sequence) : Spares keep' program :=
  ⟨fun world=>(h.meets world).mono (fun _ _ ht=>ht.mono hkeep) fun _ _ ht=>ht.mono hkeep⟩

lemma readResolver : Spares keep BlobCache.readResolver :=
  ⟨fun _=>.bind (.get (.pure (.of_pending rfl)))⟩

lemma modifyResolver {change : BlobCacheResolver → BlobCacheResolver}
    (h : ∀ r, Stays keep r (change r)) : Spares keep (BlobCache.modifyResolver change) :=
  ⟨fun world=>.modified (h world.resolver)⟩

lemma containerBytes : Spares keep BlobCache.containerBytes :=
  ⟨fun _=>.bind (.get (.bind (.set (.pure (.of_pending rfl)))))⟩

lemma addCounted {a b : ℕ} : Spares keep (BlobCache.addCounted a b) := by
  unfold BlobCache.addCounted
  split
  · exact .pure
  · exact .throw

lemma resolver_apply (world : World) (step : Interference) : (step.apply platform world).resolver=world.resolver := by
  cases step with
  | unpinAll hashes =>
    dsimp only [Interference.apply]
    split <;> rfl
  | insert payload => rfl
  | admitBody hash payload => rfl
  | fetch hash => rfl
  | classify hashes shouldPin => rfl

lemma resolver_interfere (world : World) : (world.interfere platform).resolver=world.resolver := by
  unfold World.interfere
  split
  · rfl
  · rename_i batch rest hbatches
    clear hbatches
    induction batch generalizing world with
    | nil => rfl
    | cons step batch ih => rw [foldl_cons,ih,resolver_apply]

lemma lock {operation : StoreM α} : Spares keep (BlobCache.lock platform operation) := by
  refine ⟨fun world=>?_⟩
  unfold Meets BlobCache.lock
  dsimp only
  cases operation (world.interfere platform).store with
  | ok value store => exact .of_pending (by rw [resolver_interfere])
  | error error store => exact .of_pending (by rw [resolver_interfere])

lemma refreshPendingAccounting : Spares keep (BlobCache.refreshPendingAccounting platform) := by
  refine .bind (.modifyResolver fun r=>.of_pending ?_) fun _=>.bind ?_ fun _ =>
    .bind (.modifyResolver fun r=>.of_pending rfl) fun _=>.bind .readResolver fun _=>?_
  · unfold BlobCacheResolver.dropEmptyPending
    split <;> rfl
  · exact .bind .containerBytes fun _=>.bind .readResolver fun _ =>
      .bind .addCounted fun _=>.addCounted
  · split
    · exact .throw
    · exact .modifyResolver fun r=>.of_pending rfl

variable {events : List ChunkResyncEvent}

lemma enqueueRecoveries : Spares keep (BlobCache.enqueueRecoveries events) := by
  refine .modifyResolver fun r=>.of_pending ?_
  obtain ⟨queue,heq⟩ := enqueueRecoveries_eq r events
  rw [heq]

lemma addOwnedHash : Spares keep (BlobCache.addOwnedHash sequence hash) := by
  refine ⟨fun world=>.bind (.bind (.get (.pure ?_)))⟩
  cases hpending : world.resolver.pending[sequence]? with
  | none => exact .pure (.of_pending rfl)
  | some transaction =>
    refine .ite (fun _=>.pure (.of_pending rfl)) fun _=>?_
    have hcontainers : Meets BlobCache.containerBytes world (fun _ t=>t.resolver=world.resolver) fun _ _=>False :=
      .bind (.get (.bind (.set (.pure rfl))))
    have hadd : ∀ (t : World) (a b : ℕ), Meets (BlobCache.addCounted a b) t
        (fun _ u=>u.resolver=t.resolver) fun _ u=>u.resolver=t.resolver := by
      intro t a b
      unfold BlobCache.addCounted
      split
      · exact .pure rfl
      · exact .throw rfl
    refine .bind (hcontainers.mono (fun added t hresolver=>?_) fun _ _=>False.elim)
    refine .bind ((hadd t _ _).mono (fun accounted u hresolver'=>.modified ?_)
      fun _ u hresolver'=>.of_pending (by rw [hresolver',hresolver]))
    · have hagrees : PendingTransaction.Agrees { transaction with
          ownedHashes := transaction.ownedHashes ++ [hash]
          accountedBytes := accounted } transaction := ⟨rfl,rfl,rfl,rfl,rfl⟩
      refine ⟨fun {other found} _ hsome=>?_⟩
      obtain ⟨later,hlater,hagrees⟩ := lookup_amended_of hpending hagrees hsome
      refine ⟨later,?_,hagrees⟩
      rw [hresolver',hresolver]
      exact hlater

lemma promoteWaiters {owner : ℕ} : Spares keep (BlobCache.promoteWaiters owner) := by
  have hadd : ∀ promotions, Spares keep (addOwnedHashes promotions) := by
    intro promotions
    induction promotions with
    | nil => exact .pure
    | cons first promotions ih => exact .bind .addOwnedHash fun _=>ih
  exact .bind .readResolver fun resolver=>hadd _

lemma removePendingTransaction : Spares (· ≠ sequence) (BlobCache.removePendingTransaction sequence) := by
  refine ⟨fun world=>.bind (.bind (.get (.pure (.bind (.modified (.pure ?_))))))⟩
  refine ⟨fun {other transaction} hne hsome=>⟨transaction,?_,.refl⟩⟩
  unfold BlobCacheResolver.removePendingTransaction
  dsimp only
  split
  · exact hsome
  · obtain ⟨index,heq,-⟩ := foldl_unindexHash sequence _ _
    rw [heq]
    rw [lookup_erase,if_neg (Ne.symm hne)]
    exact hsome

lemma prepareRecovery : Spares keep (BlobCache.prepareRecovery events) :=
  .bind .enqueueRecoveries fun _=>.pure

lemma abandonPendingTransaction : Spares (· ≠ sequence) (BlobCache.abandonPendingTransaction platform sequence) := by
  refine .bind (.bind .promoteWaiters fun _=>.bind .removePendingTransaction fun removed=>?_) fun _=>.pure
  cases removed with
  | none => exact .pure
  | some transaction =>
    exact .bind .lock fun _=>.ite .prepareRecovery (.bind .enqueueRecoveries fun _=>.pure)

lemma abandonAll (sequences : List ℕ) : Spares (· ∉ sequences) (BlobCache.abandonAll platform sequences) := by
  induction sequences with
  | nil => exact .pure
  | cons first sequences ih =>
    refine .bind (abandonPendingTransaction.mono fun other hmem=>?_) fun _=>ih.mono fun other hmem=>?_
    · exact ne_of_not_mem_cons hmem
    · exact fun h=>hmem (.tail _ h)

end Spares

/-- The newest transaction keeps no rebuilt packet waiting. -/
lemma notMem_readyBlockers (hlast : ∀ {other : ℕ} {item : ReadyItem}, r.ready[other]? = some item →
      item.sequence < sequence) : sequence ∉ r.readyBlockers := by
  intro hmem
  obtain ⟨⟨key,transaction⟩,hfilter,rfl⟩ := mem_map.1 hmem
  obtain ⟨-,hany⟩ := mem_filter.1 hfilter
  obtain ⟨⟨other,item⟩,hready,hblocks⟩ := any_eq_true.1 hany
  rw [Bool.and_eq_true,decide_eq_true_eq] at hblocks
  have hlt := hlast (TreeMap.mem_toList_iff_getElem?_eq_some.1 hready)
  exact Nat.lt_asymm hblocks.1 hlt

lemma relieveCachedReadyPressure_spares
    (hlast : ∀ {other : ℕ} {item : ReadyItem}, world.resolver.ready[other]? = some item → item.sequence < sequence) :
    Meets (relieveCachedReadyPressure platform) world
      (fun _ t=>Stays (· = sequence) world.resolver t.resolver) fun _ _=>True := by
  refine .bind (.bind (.get (.pure (.ite (fun _=>.pure (.of_pending rfl)) fun _=>?_))))
  have hspares : Spares (· = sequence) (do
      abandonAll platform world.resolver.readyBlockers
      refreshPendingAccounting platform) :=
    .bind ((Spares.abandonAll _).mono fun other heq=>by
      rw [heq]
      exact notMem_readyBlockers hlast) fun _=>.refreshPendingAccounting
  exact (hspares.meets world).mono (fun _ _=>id) fun _ _ _=>trivial

end Cinnabar.BlobCache

/-! # What a program does to the resolver

`Relates R` bounds what a program does to the resolver by a relation, however it
ends and whatever others do to the store meanwhile.  Relations that refreshing
the byte counts respects and that chain are frames.
-/

namespace Cinnabar.BlobCache

open Std

structure SameWork (r t : BlobCacheResolver) : Prop where
  pending : t.pending=r.pending
  index : t.pendingByHash=r.pendingByHash
  ready : t.ready=r.ready
  immediate : t.immediateReady=r.immediateReady
  queue : t.recoveryReady=r.recoveryReady
  pendingBytes : t.pendingAccountedBytes=r.pendingAccountedBytes
  readyBytes : t.readyAccountedBytes=r.readyAccountedBytes
  slots : t.retainedColumnSlots=r.retainedColumnSlots

lemma SameWork.refl (r : BlobCacheResolver) : SameWork r r :=
  ⟨rfl,rfl,rfl,rfl,rfl,rfl,rfl,rfl⟩

structure Frame (R : BlobCacheResolver → BlobCacheResolver → Prop) : Prop where
  same : ∀ {r t}, SameWork r t → R r t
  trans : ∀ {r s t}, R r s → R s t → R r t

lemma Frame.refl {R : BlobCacheResolver → BlobCacheResolver → Prop} (hR : Frame R)
    (r : BlobCacheResolver) : R r r := hR.same (.refl r)

structure Relates {α : Type} (R : BlobCacheResolver → BlobCacheResolver → Prop)
    (program : ResolverM α) : Prop where
  meets : ∀ world : World, Meets program world (fun _ t=>R world.resolver t.resolver)
    fun _ t=>R world.resolver t.resolver

variable {R : BlobCacheResolver → BlobCacheResolver → Prop} {platform : Platform}
  {α β : Type} {sequence hash : ℕ}

namespace Relates

lemma bind (hR : Frame R) {program : ResolverM α} {next : α → ResolverM β}
    (h : Relates R program) (hnext : ∀ a, Relates R (next a)) : Relates R (program >>= next) :=
  ⟨fun world=>.bind ((h.meets world).mono (fun a t ht=>((hnext a).meets t).mono
    (fun _ _ hu=>hR.trans ht hu) fun _ _ hu=>hR.trans ht hu) fun _ _=>id)⟩

lemma pure (hR : Frame R) {a : α} : Relates R (Pure.pure a : ResolverM α) :=
  ⟨fun world=>.pure (hR.refl world.resolver)⟩

lemma throw (hR : Frame R) {fault : Fault} : Relates R (MonadExcept.throw fault : ResolverM α) :=
  ⟨fun world=>.throw (hR.refl world.resolver)⟩

lemma ite {c : Prop} [Decidable c] {program other : ResolverM α} (h : Relates R program)
    (h' : Relates R other) : Relates R (if c then program else other) := by
  split
  · exact h
  · exact h'

lemma readResolver (hR : Frame R) : Relates R BlobCache.readResolver :=
  ⟨fun world=>.bind (.get (.pure (hR.refl world.resolver)))⟩

lemma modifyResolver {change : BlobCacheResolver → BlobCacheResolver}
    (h : ∀ r, R r (change r)) : Relates R (BlobCache.modifyResolver change) :=
  ⟨fun world=>.modified (h world.resolver)⟩

section

variable (hR : Frame R)
include hR

lemma containerBytes : Relates R BlobCache.containerBytes :=
  ⟨fun world=>.bind (.get (.bind (.set (.pure (hR.refl world.resolver)))))⟩

lemma addCounted {a b : ℕ} : Relates R (BlobCache.addCounted a b) := by
  unfold BlobCache.addCounted
  split
  · exact .pure hR
  · exact .throw hR

lemma lock {operation : StoreM α} : Relates R (BlobCache.lock platform operation) := by
  refine ⟨fun world=>?_⟩
  have hsame : R world.resolver (world.interfere platform).resolver := by
    rw [Spares.resolver_interfere]
    exact hR.refl world.resolver
  unfold Meets BlobCache.lock
  dsimp only
  cases operation (world.interfere platform).store with
  | ok value store => exact hsame
  | error error store => exact hsame

lemma retainedCachedBytes : Relates R BlobCache.retainedCachedBytes :=
  .bind hR (.containerBytes hR) fun _=>.bind hR (.readResolver hR) fun _ =>
    .bind hR (.addCounted hR) fun _=>.addCounted hR

lemma refreshPendingAccounting : Relates R (BlobCache.refreshPendingAccounting platform) := by
  refine .bind hR (.modifyResolver fun r=>hR.same ?_) fun _ =>
    .bind hR (.retainedCachedBytes hR) fun _ =>
      .bind hR (.modifyResolver fun r=>hR.same ⟨rfl,rfl,rfl,rfl,rfl,rfl,rfl,rfl⟩)
        fun _=>.bind hR (.readResolver hR) fun _=>?_
  · unfold BlobCacheResolver.dropEmptyPending
    split <;> exact ⟨rfl,rfl,rfl,rfl,rfl,rfl,rfl,rfl⟩
  · split
    · exact .throw hR
    · exact .modifyResolver fun r=>hR.same ⟨rfl,rfl,rfl,rfl,rfl,rfl,rfl,rfl⟩

lemma promoteWaiters {owner : ℕ} (hadd : ∀ sequence hash, Relates R (addOwnedHash sequence hash)) :
    Relates R (BlobCache.promoteWaiters owner) := by
  have hall : ∀ promotions, Relates R (addOwnedHashes promotions) := by
    intro promotions
    induction promotions with
    | nil => exact .pure hR
    | cons first rest ih => exact .bind hR (hadd _ _) fun _=>ih
  exact .bind hR (.readResolver hR) fun _=>hall _

lemma abandonPendingTransaction (hadd : ∀ sequence hash, Relates R (addOwnedHash sequence hash))
    (hremove : ∀ sequence, Relates R (removePendingTransaction sequence))
    (henqueue : ∀ events, Relates R (enqueueRecoveries events)) (sequence : ℕ) :
    Relates R (BlobCache.abandonPendingTransaction platform sequence) := by
  refine .bind hR (.bind hR (.promoteWaiters hR hadd) fun _ =>
    .bind hR (hremove sequence) fun removed=>?_) fun _=>.pure hR
  cases removed with
  | none => exact .pure hR
  | some transaction =>
    exact .bind hR (.lock hR) fun _=>.ite (.bind hR (henqueue _) fun _=>.pure hR)
      (.bind hR (henqueue _) fun _=>.pure hR)

lemma abandonAll (sequences : List ℕ)
    (habandon : ∀ sequence, Relates R (BlobCache.abandonPendingTransaction platform sequence)) :
    Relates R (BlobCache.abandonAll platform sequences) := by
  induction sequences with
  | nil => exact .pure hR
  | cons first rest ih => exact .bind hR (habandon first) fun _=>ih

lemma unblockOrdinaryLane (habandon : ∀ sequence, Relates R (BlobCache.abandonPendingTransaction platform sequence)) :
    Relates R (BlobCache.unblockOrdinaryLane platform) :=
  .bind hR (.readResolver hR) fun _=>.bind hR (.abandonAll hR _ habandon) fun _ =>
    .bind hR (.refreshPendingAccounting hR) fun _=>.pure hR

end

end Relates

end Cinnabar.BlobCache
