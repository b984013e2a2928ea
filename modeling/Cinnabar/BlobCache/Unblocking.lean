import Cinnabar.BlobCache.Accounts
import Cinnabar.BlobCache.Draining

/-! # What the resolver guarantees

Over every run.
-/

namespace Cinnabar.BlobCache

open Std

section Resolution

/-- Between operations a pending transaction pins all its hashes, counts those it is indexed
under and finds the others resident; no resolution fails, and what is popped is the original. -/
theorem resolution_invariant (platform : Platform) (actions : List Action) :
    let session := Session.run platform actions
    (∀ sequence transaction, session.world.resolver.pending[sequence]? = some transaction →
      (∀ hash ∈ transaction.uniqueHashes, 0 < session.world.store.pinCount hash) ∧
      transaction.unresolvedHashes = (transaction.uniqueHashes.filter fun hash =>
        sequence ∈ session.world.resolver.waiting hash).length ∧
      (∀ hash ∈ transaction.uniqueHashes, sequence ∉ session.world.resolver.waiting hash →
        (session.world.store.body hash).isSome) ∧
      (sequence ∈ session.world.resolver.resolvedPending ↔ transaction.unresolvedHashes=0)) ∧
    (∀ fault ∈ session.faults, fault ≠ .resolvedExpect ∧ ∀ hash, fault ≠ .error (.missingResolvedBlob hash)) ∧
    ∀ emission ∈ session.emitted, emission.Faithful platform := by
  intro session
  have hsound : session.Sound platform := .run actions
  refine ⟨fun sequence transaction hpending => ⟨fun hash hmem => ?_,?_,fun hash hmem hwait => ?_,
    ?_⟩,hsound.harmless,hsound.faithful⟩
  · exact hsound.consistent.pinCount_pos (BlobCacheResolver.mem_holders.2 ⟨transaction,hpending,hmem⟩)
  · exact hsound.consistent.unresolved hpending
  · exact hsound.consistent.resident (BlobCacheResolver.mem_holders.2 ⟨transaction,hpending,hmem⟩) hwait
  · have hnot : sequence ∉ session.world.resolver.resolvedPending := by
      rw [hsound.resolved]
      exact Finset.notMem_empty _
    exact iff_of_false hnot fun hzero =>
      hsound.unstuck sequence ⟨hnot,transaction,hpending,hzero⟩

end Resolution

section Ordering

/-- Of two emitted items with a common column the one accepted first comes first, unless it is
ordinary and was held back by earlier cached work of another column when the other was popped. -/
theorem emitted_in_order (platform : Platform) (actions : List Action) :
    (Session.run platform actions).emitted.Pairwise Emission.Precedes :=
  (Session.Sound.run actions).ordered

/-- A chunk waits for its blob; a reply of its column and the next comes after it, then an update
of the next column, which is popped while the reply is held back. -/
def overtakingActions : List Action :=
  [ { operation := .acceptCachedPacket (.levelChunk
        { dimension := 0, x := 0, z := 0, subChunksCount := 0, cacheEnabled := true,
          cacheMetadata := [7], serializedChunkData := [] }) none },
    { operation := .acceptImmediate (.worldEvent (.subChunks 0 [⟨0,0,0⟩,⟨1,0,0⟩])) 0 },
    { operation := .acceptImmediate (.worldEvent (.blockUpdates [⟨0,⟨16,0,0⟩,1⟩])) 0 },
    { operation := .popReady },
    { operation := .armFastTransferReset },
    { operation := .resetPendingForFastTransferCandidate },
    { operation := .popReady },
    { operation := .popReady } ]

/-- A platform for runs that hash no body. -/
def idlePlatform : Platform := ⟨fun _=>0,⟨0,0⟩,0⟩

/-- Items of one column may leave in another order than they were accepted in. -/
theorem not_emitted_in_acceptance_order : ¬∀ (platform : Platform) (actions : List Action),
      (Session.run platform actions).emitted.Pairwise fun first second =>
        BlobCacheResolver.shareColumn first.columns second.columns = true →
          first.birth < second.birth := by
  intro h
  exact absurd (h idlePlatform overtakingActions) (by decide +kernel)

end Ordering

section Accounting

/-- An offer is retained, emitted, or neither with all it needs requested again. -/
def Session.AccountsFor (platform : Platform) (session : Session)
    (offer : ℕ × PendingPacket) : Prop :=
  (session.Retains platform offer ∧ ¬session.Emits platform offer) ∨
    (¬session.Retains platform offer ∧ session.Emits platform offer) ∨
    (¬session.Retains platform offer ∧ ¬session.Emits platform offer ∧ session.Requests offer)

lemma Session.Sound.not_emits {platform : Platform} {session : Session}
    (h : session.Sound platform) {offer : ℕ × PendingPacket}
    (hretains : session.Retains platform offer) : ¬session.Emits platform offer := by
  rintro ⟨emission,hmem,hbirth,-⟩
  obtain ⟨sequence,hborn,hkeeps⟩ := hretains
  have hholds : session.world.resolver.Holds sequence :=
    hkeeps.imp (fun ⟨transaction,hsome,_⟩=>⟨transaction,hsome⟩) fun ⟨item,hsome,_⟩=>Or.inl ⟨item,hsome⟩
  exact h.chronicle.spent hmem hholds (hborn.trans hbirth.symm)

/-- Without an error or a reset every offer is accounted for in exactly one way, none is emitted
twice, and queueing a request narrows none. -/
theorem no_cached_packet_lost (platform : Platform) (actions : List Action)
    (hfaults : (Session.run platform actions).faults = [])
    (hresets : (Session.run platform actions).resets = 0) :
    let session := Session.run platform actions
    (∀ offer ∈ session.offers, session.AccountsFor platform offer) ∧
    (session.emitted.Pairwise fun first second => first.birth ≠ second.birth) ∧
    ∀ event : ChunkResyncEvent, event.requestedSubChunks=none → ∀ need,
      session.world.resolver.Queues need ∨ event.Covers need →
        (session.world.resolver.enqueueRecovery event).Queues need := by
  intro session
  have hsound : session.Sound platform := .run actions
  have haccounted := Session.Accounted.run actions hfaults hresets
  refine ⟨fun offer hmem => ?_,hsound.once,fun event hplain =>
    (queues_enqueueRecovery hsound.consistent.queueFormed hplain).2⟩
  by_cases hretains : session.Retains platform offer
  · exact Or.inl ⟨hretains,hsound.not_emits hretains⟩
  · by_cases hemits : session.Emits platform offer
    · exact Or.inr (Or.inl ⟨hretains,hemits⟩)
    · exact Or.inr (Or.inr ⟨hretains,hemits,
        ((haccounted.accounted offer hmem).resolve_left hretains).resolve_left hemits⟩)

theorem no_cached_packet_lost_overtaking : (Session.run idlePlatform overtakingActions).offers.length = 1 ∧
      ∀ offer ∈ (Session.run idlePlatform overtakingActions).offers,
        (Session.run idlePlatform overtakingActions).AccountsFor idlePlatform offer :=
  ⟨by decide +kernel, (no_cached_packet_lost idlePlatform overtakingActions (by decide +kernel) (by decide +kernel)).1⟩

/-- A request popped from the queue is on no status and no longer queued. -/
theorem not_requested_on_status_or_queued : ¬∀ (platform : Platform) (actions : List Action),
      (Session.run platform actions).faults = [] → (Session.run platform actions).resets = 0 →
      ∀ offer ∈ (Session.run platform actions).offers, (Session.run platform actions).Retains platform offer ∨
          (Session.run platform actions).Emits platform offer ∨
          Recovered (Session.run platform actions).answered
            (Session.run platform actions).world.resolver offer.2 := by
  intro h
  set session := Session.run idlePlatform overtakingActions with hsession
  have hpending : session.world.resolver.pending.toList.length=0 := by decide +kernel
  have hready : session.world.resolver.ready.toList.length=0 := by decide +kernel
  have hqueue : session.world.resolver.recoveryReady.toList.length=0 := by decide +kernel
  have hlookup : ∀ {α β : Type} [Ord α] [TransOrd α] [LawfulEqOrd α] {map : TreeMap α β} {key : α}
      {value : β}, map.toList.length=0 → map[key]? ≠ some value := by
    intro α β _ _ _ map key value hempty hsome
    have hmem := TreeMap.mem_toList_iff_getElem?_eq_some.2 hsome
    rw [List.length_eq_zero_iff.1 hempty] at hmem
    exact absurd hmem List.not_mem_nil
  have hoffer : (0,PendingPacket.levelChunk
      { dimension := 0, x := 0, z := 0, subChunksCount := 0, cacheEnabled := true,
        cacheMetadata := [7], serializedChunkData := [] }) ∈ session.offers := by decide +kernel
  rcases h idlePlatform overtakingActions (by decide +kernel) (by decide +kernel) _ hoffer with
    ⟨sequence,-,⟨transaction,hsome,-⟩ | ⟨item,hsome,-⟩⟩ | ⟨emission,hmem,hbirth,-⟩ |
    hrecovered
  · exact hlookup hpending hsome
  · exact hlookup hready hsome
  · have hbirths : ∀ emission ∈ session.emitted, emission.birth ≠ 0 := by decide +kernel
    exact hbirths emission hmem hbirth
  · rcases hrecovered ⟨⟨0,0,0⟩,none⟩ rfl with ⟨event,hmem,-⟩ | ⟨recovery,hsome,-⟩
    · have hanswered : (Session.run idlePlatform overtakingActions).answered = [] := by
        decide +kernel
      exact absurd hmem List.not_mem_nil
    · exact hlookup hqueue hsome

end Accounting

end Cinnabar.BlobCache

/-! # Unblocking the ordinary lane

The transactions given up are those some retained event waits for.  The others
may take over hashes the lost ones had asked for, and nothing else of them
changes; popping then empties the ordinary lane.
-/

namespace Cinnabar.BlobCache

open Std

variable {platform : Platform} {world t : World} {r s : BlobCacheResolver} {sequence : ℕ}
  {columns : List ColumnKey} {item : ReadyItem}

section GivingUp

structure SameLanes (r t : BlobCacheResolver) : Prop where
  ready : t.ready=r.ready
  immediate : t.immediateReady=r.immediateReady

lemma SameLanes.frame : Frame SameLanes where
  same h := ⟨h.ready,h.immediate⟩
  trans h h' := ⟨h'.ready.trans h.ready,h'.immediate.trans h.immediate⟩

namespace SameLanes

lemma addOwnedHash (sequence hash : ℕ) : Relates SameLanes (BlobCache.addOwnedHash sequence hash) := by
  refine .bind frame (.readResolver frame) fun resolver=>?_
  split
  · exact .pure frame
  · refine .ite (.pure frame) (.bind frame (.containerBytes frame) fun _ =>
      .bind frame (.addCounted frame) fun _=>.modifyResolver fun _=>⟨rfl,rfl⟩)

lemma removePendingTransaction (sequence : ℕ) : Relates SameLanes (BlobCache.removePendingTransaction sequence) := by
  refine .bind frame (.readResolver frame) fun _ =>
    .bind frame (.modifyResolver fun r=>?_) fun _=>.pure frame
  unfold BlobCacheResolver.removePendingTransaction
  dsimp only
  split
  · exact ⟨rfl,rfl⟩
  · obtain ⟨index,heq,-⟩ := foldl_unindexHash sequence _ _
    rw [heq]
    exact ⟨rfl,rfl⟩

lemma enqueueRecoveries (events : List ChunkResyncEvent) : Relates SameLanes (BlobCache.enqueueRecoveries events) := by
  refine .modifyResolver fun r=>?_
  obtain ⟨queue,heq⟩ := enqueueRecoveries_eq r events
  rw [heq]
  exact ⟨rfl,rfl⟩

lemma unblockOrdinaryLane : Relates SameLanes (BlobCache.unblockOrdinaryLane platform) :=
  .unblockOrdinaryLane frame (.abandonPendingTransaction frame addOwnedHash removePendingTransaction enqueueRecoveries)

end SameLanes

/-- A resolver some of whose transactions are given up. -/
structure GaveUp (platform : Platform) (sequences : List ℕ) (world t : World) : Prop where
  after : After platform [] world t
  gone : ∀ sequence ∈ sequences, t.resolver.pending[sequence]? = none

lemma After.gone (h : After platform [] world t)
    (hnone : world.resolver.pending[sequence]? = none) : t.resolver.pending[sequence]? = none := by
  cases hsome : t.resolver.pending[sequence]? with
  | none => rfl
  | some transaction =>
    obtain ⟨earlier,hearlier,-⟩ := h.evolves.pending hsome
    rw [hnone] at hearlier
    cases hearlier

lemma abandonAll_gone (sequences : List ℕ) (hworld : Consistent platform [] [] world) :
    Meets (abandonAll platform sequences) world (fun _ t=>GaveUp platform sequences world t)
      fun _ _=>True := by
  induction sequences generalizing world with
  | nil => exact .pure ⟨.refl hworld,fun _ hmem=>absurd hmem List.not_mem_nil⟩
  | cons first rest ih =>
    refine .bind ((abandonPendingTransaction_spec hworld).mono (fun _ u hu=>?_) fun _ _ _=>trivial)
    refine (ih hu.consistent).mono (fun _ t ht=>⟨(hu.after rfl).trans ht.after,?_⟩) fun _ _=>id
    intro sequence hmem
    rcases List.mem_cons.1 hmem with rfl | hmem
    · exact ht.after.gone hu.gone
    · exact ht.gone sequence hmem

end GivingUp

section TakingOver

def PendingTransaction.TakesOver (later earlier : PendingTransaction) : Prop :=
  ∃ hashes bytes, later = { earlier with
    ownedHashes := earlier.ownedHashes++hashes
    accountedBytes := earlier.accountedBytes+bytes }

lemma PendingTransaction.TakesOver.refl (transaction : PendingTransaction) :
    transaction.TakesOver transaction :=
  ⟨[],0,by rw [List.append_nil,Nat.add_zero]⟩

lemma PendingTransaction.TakesOver.trans {a b c : PendingTransaction} (h : b.TakesOver a)
    (h' : c.TakesOver b) : c.TakesOver a := by
  obtain ⟨hashes,bytes,rfl⟩ := h
  obtain ⟨hashes',bytes',rfl⟩ := h'
  exact ⟨hashes++hashes',bytes+bytes',by rw [← List.append_assoc,← Nat.add_assoc]⟩

/-- What is still pending took hashes over at most, and waits for the same hashes. -/
structure OnlyTakesOver (r t : BlobCacheResolver) : Prop where
  earlier : ∀ {sequence : ℕ} {later : PendingTransaction}, t.pending[sequence]? = some later →
    ∃ transaction, r.pending[sequence]? = some transaction ∧ later.TakesOver transaction
  waits : ∀ {sequence : ℕ} {later : PendingTransaction}, t.pending[sequence]? = some later →
    ∀ hash, sequence ∈ t.waiting hash ↔ sequence ∈ r.waiting hash

namespace OnlyTakesOver

lemma frame : Frame OnlyTakesOver where
  same h := {
    earlier := fun hsome=>⟨_,h.pending ▸ hsome,.refl _⟩
    waits := fun _ hash=>by rw [BlobCacheResolver.waiting,h.index,BlobCacheResolver.waiting] }
  trans h h' := {
    earlier := fun hsome=>by
      obtain ⟨middle,hmiddle,htakes⟩ := h'.earlier hsome
      obtain ⟨first,hfirst,htakes'⟩ := h.earlier hmiddle
      exact ⟨first,hfirst,htakes'.trans htakes⟩
    waits := fun hsome hash=>by
      obtain ⟨middle,hmiddle,-⟩ := h'.earlier hsome
      exact (h'.waits hsome hash).trans (h.waits hmiddle hash) }

lemma addOwnedHash (sequence hash : ℕ) : Relates OnlyTakesOver (BlobCache.addOwnedHash sequence hash) := by
  refine ⟨fun world=>.bind (.bind (.get (.pure ?_)))⟩
  have hrefl := frame.refl world.resolver
  cases hpending : world.resolver.pending[sequence]? with
  | none => exact .pure hrefl
  | some transaction =>
    refine .ite (fun _=>.pure hrefl) fun _=>?_
    refine .bind (.bind (.get (.bind (.set (.pure (.bind (meets_addCounted (fun _ =>
      .modified ?_) fun _=>hrefl)))))))
    constructor
    · intro other later hsome
      rw [lookup_insert] at hsome
      split at hsome
      · rename_i heq
        cases hsome
        exact ⟨transaction,heq ▸ hpending,[hash],_,rfl⟩
      · exact ⟨later,hsome,.refl later⟩
    · exact fun _ _=>Iff.rfl

lemma removePendingTransaction (sequence : ℕ) :
    Relates OnlyTakesOver (BlobCache.removePendingTransaction sequence) := by
  refine .bind frame (.readResolver frame) fun _ =>
    .bind frame (.modifyResolver fun r=>?_) fun _=>.pure frame
  unfold BlobCacheResolver.removePendingTransaction
  dsimp only
  split
  · exact ⟨fun hsome=>⟨_,hsome,.refl _⟩,fun _ _=>Iff.rfl⟩
  · rename_i transaction hpending
    obtain ⟨index,heq,hwaiting⟩ := foldl_unindexHash sequence transaction.uniqueHashes
      { r with
        resolvedPending := r.resolvedPending.erase sequence
        pending := r.pending.erase sequence
        pendingAccountedBytes := r.pendingAccountedBytes-transaction.accountedBytes
        retainedColumnSlots := r.retainedColumnSlots-transaction.columns.length }
    have hkeep : ∀ {other : ℕ} {later : PendingTransaction}, (r.pending.erase sequence)[other]? = some later →
        sequence≠other ∧ r.pending[other]? = some later := by
      intro other later hsome
      rw [lookup_erase] at hsome
      split at hsome
      · cases hsome
      · exact ⟨‹_›,hsome⟩
    constructor
    · intro other later hsome
      rw [heq] at hsome
      exact ⟨later,(hkeep hsome).2,.refl later⟩
    · intro other later hsome hash
      rw [heq] at hsome
      have hne := (hkeep hsome).1
      rw [hwaiting]
      split
      · exact Finset.mem_erase.trans ⟨And.right,fun h=>⟨hne.symm,h⟩⟩
      · exact Iff.rfl

lemma enqueueRecoveries (events : List ChunkResyncEvent) :
    Relates OnlyTakesOver (BlobCache.enqueueRecoveries events) := by
  refine .modifyResolver fun r=>?_
  obtain ⟨queue,heq⟩ := enqueueRecoveries_eq r events
  rw [heq]
  exact ⟨fun hsome=>⟨_,hsome,.refl _⟩,fun _ _=>Iff.rfl⟩

lemma unblockOrdinaryLane : Relates OnlyTakesOver (BlobCache.unblockOrdinaryLane platform) :=
  .unblockOrdinaryLane frame (.abandonPendingTransaction frame addOwnedHash removePendingTransaction enqueueRecoveries)

end OnlyTakesOver

end TakingOver

section Unblocking

/-- The lane once what it waits for was given up. -/
structure Unblocked (platform : Platform) (world : World) (blocked : Bool) (t : World) : Prop where
  drainable : Drainable platform t.resolver
  lanes : SameLanes world.resolver t.resolver
  taken : OnlyTakesOver world.resolver t.resolver
  gone : ∀ sequence ∈ world.resolver.ordinaryBlockers, t.resolver.pending[sequence]? = none
  stays : Stays (· ∉ world.resolver.ordinaryBlockers) world.resolver t.resolver
  blocked : blocked = !world.resolver.ordinaryBlockers.isEmpty

lemma SameLanes.heldUp (h : SameLanes r s) : s.HeldUp=r.HeldUp := by
  unfold BlobCacheResolver.HeldUp
  rw [h.ready,h.immediate]

lemma unblockOrdinaryLane_spec (hworld : Consistent platform [] [] world) :
    Meets (unblockOrdinaryLane platform) world (fun blocked t=>Unblocked platform world blocked t)
      fun _ _=>True := by
  have hlanes : Relates SameLanes (unblockOrdinaryLane platform) := SameLanes.unblockOrdinaryLane
  have htaken : Relates OnlyTakesOver (unblockOrdinaryLane platform) := OnlyTakesOver.unblockOrdinaryLane
  have hstays : Spares (· ∉ world.resolver.ordinaryBlockers)
      (abandonAll platform world.resolver.ordinaryBlockers) := .abandonAll _
  have hgave : Meets (unblockOrdinaryLane platform) world (fun blocked t =>
      (t.resolver.pendingAccountedBytes+t.resolver.readyAccountedBytes≤usizeMax ∧
        t.resolver.retainedOrdinaryBytes platform≠none) ∧
      (∀ sequence ∈ world.resolver.ordinaryBlockers, t.resolver.pending[sequence]? = none) ∧
      Stays (· ∉ world.resolver.ordinaryBlockers) world.resolver t.resolver ∧
      blocked = !world.resolver.ordinaryBlockers.isEmpty) fun _ _=>True := by
    refine .bind (.bind (.get (.pure (.bind ?_))))
    refine (((abandonAll_gone _ hworld).and (hstays.meets world))).mono
      (fun _ u ⟨hgone,hkept⟩=>.bind ?_) fun _ _ _=>trivial
    refine refreshPendingAccounting_spec.mono (fun _ t ⟨hsame,_,hcounts,hordinary⟩=>.pure ?_) fun _ _ _=>trivial
    refine ⟨⟨?_,?_⟩,fun sequence hmem=>?_,hkept.trans (.of_pending hsame.pending),rfl⟩
    · rw [hsame.pendingBytes,hsame.readyBytes]
      exact hcounts
    · rw [hsame.retainedOrdinaryBytes]
      exact hordinary
    · rw [hsame.pending]
      exact hgone.gone sequence hmem
  refine (((hlanes.meets world).and (htaken.meets world)).and hgave).mono ?_ fun _ _ _=>trivial
  rintro blocked t ⟨⟨hlanes,htaken⟩,⟨hcounts,hordinary⟩,hgone,hstays,hblocked⟩
  have hfiled : t.resolver.Filed := hworld.filed.shrink (fun _ hmem=>hlanes.ready ▸ hmem)
    fun _ hmem=>hlanes.immediate ▸ hmem
  refine ⟨⟨hfiled,fun sequence later hsome hholds=>?_,hcounts,hordinary⟩,hlanes,htaken, hgone,hstays,hblocked⟩
  -- what still held something up would have been a blocker
  obtain ⟨transaction,hearlier,hashes,bytes,rfl⟩ := htaken.earlier hsome
  rw [hlanes.heldUp] at hholds
  have hblocker := hworld.filed.mem_ordinaryBlockers.2 ⟨transaction,hearlier,hholds⟩
  rw [hgone sequence hblocker] at hsome
  cases hsome

/-- After unblocking, popping hands out the whole ordinary lane in order, unless a container size
overruns the accounts; what was given up is exactly what a retained event waits for, and every
other transaction took over hashes at most. -/
theorem unblocking_empties_lane (platform : Platform) (actions : List Action)
    (interference : List (List Interference)) (containers : List ℕ) :
    let world : World := { (Session.run platform actions).world with
      interference := interference, containers := containers }
    ∀ blocked t, unblockOrdinaryLane platform world = .ok blocked t →
      (∀ turns, t.resolver.retained < turns → Meets (popAll platform turns) t
        (fun popped _ => ∃ items, popped = some items ∧ world.resolver.ordinary.Sublist items)
        fun fault _ => fault = .accountingExpect ∧ t.Overruns) ∧
      (∀ (sequence : ℕ) (transaction : PendingTransaction), world.resolver.pending[sequence]? = some transaction →
        (t.resolver.pending[sequence]? = none ↔ Holds world.resolver.HeldUp sequence transaction.columns)) ∧
      (∀ (sequence : ℕ) (later : PendingTransaction), t.resolver.pending[sequence]? = some later →
        ∃ transaction, world.resolver.pending[sequence]? = some transaction ∧ later.TakesOver transaction ∧
          ∀ hash, sequence ∈ t.resolver.waiting hash ↔ sequence ∈ world.resolver.waiting hash) ∧
      SameLanes world.resolver t.resolver ∧
      (blocked=true ↔ ∃ (sequence : ℕ) (transaction : PendingTransaction),
        world.resolver.pending[sequence]? = some transaction ∧
          t.resolver.pending[sequence]? = none) := by
  intro world blocked t hrun
  have hworld : Consistent platform [] [] world := { (Session.Sound.run actions).consistent with }
  have hspec : Unblocked platform world blocked t := (unblockOrdinaryLane_spec hworld).of_ok hrun
  have hgone : ∀ (sequence : ℕ) (transaction : PendingTransaction), world.resolver.pending[sequence]? = some transaction →
      (t.resolver.pending[sequence]? = none ↔ sequence ∈ world.resolver.ordinaryBlockers) := by
    intro sequence transaction hsome
    refine ⟨fun hnone => by_contra fun hnot => ?_,hspec.gone sequence⟩
    obtain ⟨later,hlater,-⟩ := hspec.stays.later hnot hsome
    rw [hnone] at hlater
    cases hlater
  refine ⟨fun turns hturns => ?_,fun sequence transaction hsome => ?_, fun sequence later hsome => ?_,hspec.lanes,?_⟩
  · have hordinary : t.resolver.ordinary=world.resolver.ordinary := by
      unfold BlobCacheResolver.ordinary
      rw [hspec.lanes.immediate]
    rw [← hordinary]
    exact popAll_drains hspec.drainable hturns
  · rw [hgone sequence transaction hsome,hworld.filed.mem_ordinaryBlockers]
    refine ⟨fun ⟨found,hfound,hholds⟩ => ?_,fun hholds => ⟨transaction,hsome,hholds⟩⟩
    rw [hsome] at hfound
    cases hfound
    exact hholds
  · obtain ⟨transaction,hearlier,htakes⟩ := hspec.taken.earlier hsome
    exact ⟨transaction,hearlier,htakes,hspec.taken.waits hsome⟩
  · rw [hspec.blocked,Bool.not_eq_true',List.isEmpty_eq_false_iff_exists_mem]
    constructor
    · rintro ⟨sequence,hmem⟩
      obtain ⟨transaction,hsome,-⟩ := hworld.filed.mem_ordinaryBlockers.1 hmem
      exact ⟨sequence,transaction,hsome,hspec.gone sequence hmem⟩
    · rintro ⟨sequence,transaction,hsome,hnone⟩
      exact ⟨sequence,(hgone sequence transaction hsome).1 hnone⟩

/-- Two chunks wait for one blob, which the first asked for, and an event waits for the first. -/
def sharedBlobActions : List Action :=
  [ { operation := .acceptCachedPacket (.levelChunk
        { dimension := 0, x := 0, z := 0, subChunksCount := 0, cacheEnabled := true,
          cacheMetadata := [7], serializedChunkData := [] }) none },
    { operation := .acceptCachedPacket (.levelChunk
        { dimension := 0, x := 1, z := 0, subChunksCount := 0, cacheEnabled := true,
          cacheMetadata := [7], serializedChunkData := [] }) none },
    { operation := .acceptImmediate (.worldEvent (.subChunks 0 [⟨0,0,0⟩])) 0 } ]

/-- The event is popped once the first chunk is given up. -/
theorem unblocking_empties_lane_shared : ∃ blocked t, unblockOrdinaryLane idlePlatform
        { (Session.run idlePlatform sharedBlobActions).world with
          interference := [], containers := [] } = .ok blocked t ∧
      ∀ turns, t.resolver.retained < turns → Meets (popAll idlePlatform turns) t
        (fun popped _ => ∃ items, popped = some items ∧
          (Session.run idlePlatform sharedBlobActions).world.resolver.ordinary.Sublist items)
        fun fault _ => fault = .accountingExpect ∧ t.Overruns := by
  have hok : (match unblockOrdinaryLane idlePlatform
        { (Session.run idlePlatform sharedBlobActions).world with
          interference := [], containers := [] } with
      | .ok _ _ => true
      | .error _ _ => false) = true := by decide +kernel
  cases hrun : unblockOrdinaryLane idlePlatform
      { (Session.run idlePlatform sharedBlobActions).world with
        interference := [], containers := [] } with
  | error fault t =>
    rw [hrun] at hok
    cases hok
  | ok blocked t =>
    exact ⟨blocked,t,rfl, (unblocking_empties_lane idlePlatform sharedBlobActions [] [] blocked t hrun).1⟩

/-- A transaction that holds nothing up may still change. -/
theorem unblocking_touches_others : ¬∀ (platform : Platform) (actions : List Action) (blocked : Bool) (t : World),
      unblockOrdinaryLane platform (Session.run platform actions).world = .ok blocked t →
      ∀ (sequence : ℕ) (later : PendingTransaction), t.resolver.pending[sequence]? = some later →
        (Session.run platform actions).world.resolver.pending[sequence]? = some later := by
  intro h
  have hchanged : (match unblockOrdinaryLane idlePlatform (Session.run idlePlatform sharedBlobActions).world with
      | .ok _ t => t.resolver.pending.toList.any fun entry =>
          entry ∉ (Session.run idlePlatform sharedBlobActions).world.resolver.pending.toList
      | .error _ _ => false) = true := by decide +kernel
  cases hrun : unblockOrdinaryLane idlePlatform
      (Session.run idlePlatform sharedBlobActions).world with
  | error fault t =>
    rw [hrun] at hchanged
    cases hchanged
  | ok blocked t =>
    rw [hrun] at hchanged
    obtain ⟨⟨sequence,later⟩,hmem,hnew⟩ := List.any_eq_true.1 hchanged
    have hold := h idlePlatform sharedBlobActions blocked t hrun sequence later
      (TreeMap.mem_toList_iff_getElem?_eq_some.1 hmem)
    exact of_decide_eq_true hnew (TreeMap.mem_toList_iff_getElem?_eq_some.2 hold)

end Unblocking

end Cinnabar.BlobCache
