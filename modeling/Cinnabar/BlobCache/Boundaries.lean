import Cinnabar.BlobCache.Settling

/-! # Work dropped at a boundary -/

namespace Cinnabar.BlobCache

open Std BlobCacheResolver List

variable {platform : Platform} {owed held : List ℕ} {world t : World}

section Dropping

lemma count_flatMap {entries : List (ℕ × PendingTransaction)} {hash : ℕ}
    (hnodup : ∀ entry ∈ entries, entry.2.uniqueHashes.Nodup) :
    (entries.flatMap fun entry=>entry.2.uniqueHashes).count hash =
      (entries.filter fun entry=>hash ∈ entry.2.uniqueHashes).length := by
  induction entries with
  | nil => rfl
  | cons first entries ih =>
    rw [flatMap_cons,count_append, ih fun entry hmem=>hnodup entry (.tail _ hmem),filter_cons]
    by_cases hmem : hash ∈ first.2.uniqueHashes
    · rw [if_pos (decide_eq_true hmem),length_cons, count_eq_one_of_mem (hnodup first (.head _)) hmem,Nat.add_comm]
    · rw [if_neg fun h=>hmem (of_decide_eq_true h),count_eq_zero_of_not_mem hmem, Nat.zero_add]

lemma card_holders (resolver : BlobCacheResolver) (hash : ℕ) : (resolver.holders hash).card =
      (resolver.pending.toList.filter fun entry=>hash ∈ entry.2.uniqueHashes).length := by
  have hkeys : (resolver.pending.toList.map Prod.fst).Nodup := by
    rw [TreeMap.map_fst_toList_eq_keys]
    exact TreeMap.nodup_keys
  have hnodup := (filter_sublist (l := resolver.pending.toList)
    (p := fun entry=>hash ∈ entry.2.uniqueHashes)).map Prod.fst |>.nodup hkeys
  rw [holders,toFinset_card_of_nodup hnodup,length_map]

def BlobCacheResolver.pinnedHashes (resolver : BlobCacheResolver) : List ℕ :=
  resolver.pending.toList.flatMap fun entry=>entry.2.uniqueHashes

structure BlobCacheResolver.Emptied (resolver : BlobCacheResolver) : Prop where
  pending : resolver.pending = ∅
  index : resolver.pendingByHash = ∅
  resolved : resolver.resolvedPending = ∅
  ready : resolver.ready = ∅

/-- Dropped transactions still owe their pins. -/
lemma Consistent.drop (h : Consistent platform [] held world) {s : BlobCacheResolver}
    (hempty : s.Emptied) (hqueue : s.QueueFormed)
    (himmediate : ∀ {sequence : ℕ} {item : ReadyItem}, s.immediateReady[sequence]? = some item →
        item.sequence=sequence ∧ sequence < s.nextReadySequence) :
    Consistent platform world.resolver.pinnedHashes [] { world with resolver := s } := by
  have hpending : ∀ sequence : ℕ, s.pending[sequence]? = none := fun sequence=>by
    rw [hempty.pending]
    exact TreeMap.getElem?_emptyc
  have hready : ∀ sequence : ℕ, s.ready[sequence]? = none := fun sequence=>by
    rw [hempty.ready]
    exact TreeMap.getElem?_emptyc
  have hwaiting : ∀ hash : ℕ, s.waiting hash = ∅ := fun hash=>by
    rw [waiting,hempty.index]
    exact TreeMap.getD_emptyc
  have hholders : ∀ hash : ℕ, s.holders hash = ∅ := fun hash =>
    Finset.eq_empty_of_forall_notMem fun sequence hmem=>by
      obtain ⟨transaction,hsome,-⟩ := mem_holders.1 hmem
      rw [hpending] at hsome
      cases hsome
  exact {
    pinned := fun hash=>by
      have hpinned := h.pinned hash
      have hcount : world.resolver.pinnedHashes.count hash=_ := count_flatMap fun entry hmem=>by
        rw [(h.formed (TreeMap.mem_toList_iff_getElem?_eq_some.1 hmem)).uniqueHashes]
        exact nodup_stableUnique _
      rw [card_holders] at hpinned
      rw [hholders,hcount]
      dsimp only [Finset.card_empty,count_nil] at *
      omega
    promised := fun hmem=>absurd hmem not_mem_nil
    valid := h.valid
    indexed := fun {sequence hash} hmem=>by
      rw [hwaiting] at hmem
      exact absurd hmem (Finset.notMem_empty _)
    unresolved := fun {sequence transaction} hsome=>by
      rw [hpending] at hsome
      cases hsome
    resident := fun {sequence hash} hmem=>by
      rw [hholders] at hmem
      exact absurd hmem (Finset.notMem_empty _)
    settled := fun {sequence} hmem=>by
      rw [hempty.resolved] at hmem
      exact absurd hmem (Finset.notMem_empty _)
    formed := fun {sequence transaction} hsome=>by
      rw [hpending] at hsome
      cases hsome
    pendingBelow := fun {sequence transaction} hsome=>by
      rw [hpending] at hsome
      cases hsome
    readyBelow := fun {sequence item} hsome=>by
      rw [hready] at hsome
      cases hsome
    immediateBelow := fun {sequence item} hsome=>by
      obtain ⟨heq,hlt⟩ := himmediate hsome
      exact ⟨heq,hlt,hpending sequence,hready sequence⟩
    queueFormed := hqueue }

/-- Releasing what the dropped transactions pinned. -/
lemma unpinEach_spec {drained : List (ℕ × PendingTransaction)}
    (h : Consistent platform (drained.flatMap fun entry=>entry.2.uniqueHashes) held world) :
    Meets (unpinEach platform drained) world (fun _ t=>Consistent platform [] held t ∧ t.resolver=world.resolver)
      fun _ _=>False := by
  induction drained generalizing world with
  | nil => exact .pure ⟨h,rfl⟩
  | cons first drained ih =>
    refine .bind (meets_unpinAll h fun w hw hresolver=>?_)
    refine (ih hw).mono (fun _ t ht=>⟨ht.1,?_⟩) fun _ _=>id
    rw [ht.2]
    exact hresolver

/-- Nothing is promised beyond what the resolver itself holds. -/
lemma Consistent.forget (h : Consistent platform owed held world) : Consistent platform [] [] world :=
  { h with
    pinned := fun hash=>Nat.le_trans (Nat.le_add_right _ _) (h.pinned hash)
    promised := fun hmem=>absurd hmem not_mem_nil }

lemma resetPending_spec (h : Consistent platform owed held world) : Meets (resetPending platform) world
      (fun _ t=>Consistent platform [] [] t ∧ t.resolver = .reset) fun _ _=>False := by
  have himmediate : ∀ {sequence : ℕ} {item : ReadyItem}, reset.immediateReady[sequence]? = some item →
        item.sequence=sequence ∧ sequence < reset.nextReadySequence :=
    fun {sequence item} hsome=>by
      cases hsome
  have hqueue : reset.QueueFormed := fun {key recovery} hsome=>by
    cases hsome
  exact unpinEach_spec (h.forget.drop ⟨rfl,rfl,rfl,rfl⟩ hqueue himmediate)

end Dropping

section Recovering

/-- All retained cached work leaves for the requests that meet its needs. -/
lemma Evolves.recovered_all {r t : BlobCacheResolver} (h : Consistent platform owed held world)
    (hresolver : world.resolver=r) (hempty : t.Emptied)
    (hnext : t.nextReadySequence=r.nextReadySequence)
    (himmediate : t.immediateReady=r.immediateReady)
    (hqueues : ∀ need, (r.Queues need ∨ ∃ event ∈ r.retainedRecoveries, event.Covers need) →
      t.Queues need) : Evolves platform [] r t where
  next := hnext
  pending {sequence transaction} hsome := by
    rw [hempty.pending,TreeMap.getElem?_emptyc] at hsome
    cases hsome
  ready {sequence item} hsome := by
    rw [hempty.ready,TreeMap.getElem?_emptyc] at hsome
    cases hsome
  immediate hsome := himmediate ▸ hsome
  keptPending {sequence transaction} hsome := by
    refine Or.inr (Or.inr fun need hneed=>Or.inr (hqueues need (Or.inr ?_)))
    have hformed := h.formed (hresolver ▸ hsome)
    obtain ⟨event,hmem,hcovers⟩ := pendingPacketRecovery_covers hformed.cached hneed
    refine ⟨event,mem_append_left _ (mem_flatMap.2 ⟨(sequence,transaction),?_,hmem⟩), hcovers⟩
    exact TreeMap.mem_toList_iff_getElem?_eq_some.2 hsome
  keptReady {sequence item} hsome := by
    refine Or.inr fun packet ⟨blob,_,hvalue⟩ need hneed=>Or.inr (hqueues need (Or.inr ?_))
    obtain ⟨event,hmem,hcovers⟩ := readyValueRecovery_covers blob hneed
    rw [← hvalue] at hmem
    refine ⟨event,mem_append_right _ (mem_flatMap.2 ⟨(sequence,item),?_,hmem⟩), hcovers⟩
    exact TreeMap.mem_toList_iff_getElem?_eq_some.2 hsome
  queued hneed := Or.inr (hqueues _ (Or.inl hneed))
  stuck {sequence} hstuck := by
    obtain ⟨-,transaction,hsome,-⟩ := hstuck
    rw [hempty.pending,TreeMap.getElem?_emptyc] at hsome
    cases hsome

lemma retainedRecoveries_plain {r : BlobCacheResolver} {event : ChunkResyncEvent}
    (h : event ∈ r.retainedRecoveries) : event.requestedSubChunks=none := by
  rcases mem_append.1 h with h | h
  · obtain ⟨entry,-,hmem⟩ := mem_flatMap.1 h
    exact pendingPacketRecovery_plain hmem
  · obtain ⟨entry,-,hmem⟩ := mem_flatMap.1 h
    exact readyValueRecovery_plain hmem

lemma recoverRetainedCachedTransactions_spec (h : Consistent platform [] [] world) :
    Meets (recoverRetainedCachedTransactions platform) world (fun _ t=>Drained platform [] world t)
      fun fault t=>fault = .error .byteCountOverflow ∧ Drained platform [] world t := by
  refine .bind (.bind (.get (.pure (.bind (.modified ?_)))))
  have hdropped := h.drop (s := world.resolver.dropRetainedCached) ⟨rfl,rfl,rfl,rfl⟩
    h.queueFormed fun hsome=>⟨(h.immediateBelow hsome).1,(h.immediateBelow hsome).2.1⟩
  refine .bind ((unpinEach_spec hdropped).mono (fun _ w ⟨hw,hresolver⟩=>?_) fun _ _=>False.elim)
  have hplain : ∀ event ∈ world.resolver.retainedRecoveries, event.requestedSubChunks=none :=
    fun _=>retainedRecoveries_plain
  obtain ⟨queue,heq⟩ := enqueueRecoveries_eq w.resolver world.resolver.retainedRecoveries
  have hevolves : Evolves platform [] world.resolver
      (w.resolver.enqueueRecoveries world.resolver.retainedRecoveries) := by
    obtain ⟨-,hqueues⟩ := queues_enqueueRecoveries hw.queueFormed hplain
    rw [heq] at hqueues ⊢
    rw [hresolver] at hqueues ⊢
    exact .recovered_all h rfl ⟨rfl,rfl,rfl,rfl⟩ rfl rfl hqueues
  have hdrained : Drained platform [] world { w with
      resolver := w.resolver.enqueueRecoveries world.resolver.retainedRecoveries } := by
    refine ⟨hw.enqueueRecoveries hplain,hevolves,fun _=>?_⟩
    rw [resolved_enqueueRecoveries,hresolver]
    rfl
  refine .bind (.modified ((Steady.refreshPendingAccounting.meets hdrained.consistent).mono
    (fun _ t ht=>hdrained.trans (.of_after ht)) fun _ t ht =>
    ⟨ht.1,hdrained.trans (.of_after ht.2)⟩))

/-- The lanes alone change: fewer ordinary items, and the bookkeeping. -/
lemma Drained.dropImmediate (h : Drained platform [] world t) {bytes : ℕ} :
    Drained platform [] world { t with resolver :=
      { t.resolver with immediateReady := ∅, ordinaryReadyBytes := bytes } } where
  consistent := { h.consistent with
    immediateBelow := fun {sequence item} hsome=>by
      cases hsome }
  evolves := { h.evolves with
    immediate := fun {sequence item} hsome=>by
      cases hsome }
  resolved := h.resolved

lemma recoverPending_spec (h : Consistent platform [] [] world) :
    Meets (recoverPending platform) world (fun _ t=>Drained platform [] world t)
      fun fault t=>fault = .error .byteCountOverflow ∧ Drained platform [] world t := by
  refine .bind (.bind (.get (.pure (.ite (fun _=>.modified ?_) fun _=>.bind ?_))))
  · exact (Drained.of_after (.refl h)).dropImmediate
  · exact (recoverRetainedCachedTransactions_spec h).mono (fun _ _ ht=>.modified ht.dropImmediate) fun _ _=>id

/-- Arming the reset touches nothing an invariant mentions. -/
lemma Steady.arm {armed : Bool} : Steady platform [] (modifyResolver fun resolver =>
    { resolver with fastTransferResetArmed := armed }) :=
  .modifyBytes fun _=>⟨rfl,rfl,rfl,rfl,rfl,rfl,rfl⟩

lemma resetPendingForFastTransferCandidate_spec (h : Consistent platform [] [] world) :
    Meets (resetPendingForFastTransferCandidate platform) world (fun _ t=>Drained platform [] world t)
      fun fault t=>fault = .error .byteCountOverflow ∧ Drained platform [] world t := by
  refine .bind (.bind (.get (.pure (.ite (fun _=>.bind ?_) fun _=>?_))))
  · refine (Steady.arm.meets h).mono (fun _ w hw=>?_) fun _ _ hw=>⟨hw.1,.of_after hw.2⟩
    refine .ite (fun _=>.pure (.of_after hw)) fun _=>.bind ?_
    exact (recoverRetainedCachedTransactions_spec hw.consistent).mono
      (fun _ _ ht=>.pure ((Drained.of_after hw).trans ht))
      fun _ _ ht=>⟨ht.1,(Drained.of_after hw).trans ht.2⟩
  · exact .pure (.of_after (.refl h))

end Recovering

end Cinnabar.BlobCache
