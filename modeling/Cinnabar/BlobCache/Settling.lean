import Cinnabar.BlobCache.Resolution

/-! # Settling a hash -/

namespace Cinnabar.BlobCache

open Std List

variable {platform : Platform} {owed held : List ℕ} {world t : World} {hash : ℕ}

section Settling

structure Settles (sequences : List ℕ) (r t : BlobCacheResolver) : Prop where
  pending : ∀ sequence, t.pending[sequence]? =
    if sequence ∈ sequences then (r.pending[sequence]?).map PendingTransaction.settleOne
    else r.pending[sequence]?
  resolved : ∀ sequence, sequence ∈ t.resolvedPending ↔ sequence ∈ r.resolvedPending ∨
    (sequence ∈ sequences ∧ ∃ transaction, t.pending[sequence]? = some transaction ∧ transaction.unresolvedHashes=0)
  index : t.pendingByHash=r.pendingByHash
  ready : t.ready=r.ready
  immediate : t.immediateReady=r.immediateReady
  queue : t.recoveryReady=r.recoveryReady
  next : t.nextReadySequence=r.nextReadySequence

lemma settles_settleHash (r : BlobCacheResolver) (sequence : ℕ) : Settles [sequence] r (r.settleHash sequence) := by
  have hlookup : ∀ other, (r.settleHash sequence).pending[other]? =
      if other ∈ [sequence] then (r.pending[other]?).map PendingTransaction.settleOne
      else r.pending[other]? := by
    intro other
    unfold BlobCacheResolver.settleHash
    cases hpending : r.pending[sequence]? with
    | none =>
      by_cases heq : other=sequence
      · rw [if_pos (mem_singleton.2 heq),heq,hpending]
        rfl
      · rw [if_neg fun h=>heq (mem_singleton.1 h)]
    | some transaction =>
      rw [lookup_insert]
      by_cases heq : sequence=other
      · rw [if_pos heq,if_pos (mem_singleton.2 heq.symm),← heq,hpending]
        rfl
      · rw [if_neg heq,if_neg fun h=>heq (mem_singleton.1 h).symm]
  refine ⟨hlookup,fun other=>?_,?_,?_,?_,?_,?_⟩
  · have hself := hlookup sequence
    rw [if_pos (mem_singleton_self _)] at hself
    rw [mem_singleton]
    cases hpending : r.pending[sequence]? with
    | none =>
      have heq : r.settleHash sequence=r := by
        unfold BlobCacheResolver.settleHash
        rw [hpending]
      rw [heq]
      refine ⟨Or.inl,fun h=>h.elim id ?_⟩
      rintro ⟨rfl,transaction,hsome,-⟩
      rw [hpending] at hsome
      cases hsome
    | some transaction =>
      rw [hpending] at hself
      have hresolved : (r.settleHash sequence).resolvedPending =
          if transaction.settleOne.unresolvedHashes=0 then insert sequence r.resolvedPending
          else r.resolvedPending := by
        unfold BlobCacheResolver.settleHash
        rw [hpending]
      rw [hresolved]
      by_cases hzero : transaction.settleOne.unresolvedHashes=0
      · rw [if_pos hzero,Finset.mem_insert]
        constructor
        · rintro (rfl | hmem)
          · exact Or.inr ⟨rfl,_,hself,hzero⟩
          · exact Or.inl hmem
        · rintro (hmem | ⟨rfl,-⟩)
          · exact Or.inr hmem
          · exact Or.inl rfl
      · rw [if_neg hzero]
        refine ⟨Or.inl,fun h=>h.elim id ?_⟩
        rintro ⟨rfl,found,hfound,hfoundZero⟩
        rw [hself] at hfound
        cases hfound
        exact absurd hfoundZero hzero
  all_goals
    unfold BlobCacheResolver.settleHash
    split <;> rfl

lemma settles_foldl (sequences : List ℕ) (hnodup : sequences.Nodup) (r : BlobCacheResolver) :
    Settles sequences r (sequences.foldl BlobCacheResolver.settleHash r) := by
  induction sequences generalizing r with
  | nil =>
    refine ⟨fun other=>by rw [if_neg not_mem_nil]; rfl,fun other=>?_, rfl,rfl,rfl,rfl,rfl⟩
    exact ⟨Or.inl,fun h=>h.elim id fun h=>absurd h.1 not_mem_nil⟩
  | cons first sequences ih =>
    obtain ⟨hfirst,hnodup⟩ := nodup_cons.1 hnodup
    have hstep := settles_settleHash r first
    have hrest := ih hnodup (r.settleHash first)
    rw [foldl_cons]
    refine ⟨fun other=>?_,fun other=>?_,hrest.index.trans hstep.index,
      hrest.ready.trans hstep.ready,hrest.immediate.trans hstep.immediate,
      hrest.queue.trans hstep.queue,hrest.next.trans hstep.next⟩
    · rw [hrest.pending,hstep.pending]
      by_cases hmem : other ∈ sequences
      · have hne : other ∉ [first] := fun h=>hfirst (mem_singleton.1 h ▸ hmem)
        rw [if_pos hmem,if_neg hne,if_pos (.tail _ hmem)]
      · rw [if_neg hmem]
        by_cases heq : other=first
        · rw [if_pos (mem_singleton.2 heq),if_pos (heq ▸ mem_cons_self)]
        · rw [if_neg fun h=>heq (mem_singleton.1 h), if_neg fun h=>(mem_cons.1 h).elim heq hmem]
    · rw [hrest.resolved,hstep.resolved]
      constructor
      · rintro ((h | ⟨hmem,transaction,hsome,hzero⟩) | ⟨hmem,h⟩)
        · exact Or.inl h
        · have heq := mem_singleton.1 hmem
          refine Or.inr ⟨heq ▸ mem_cons_self,transaction,?_,hzero⟩
          rw [hrest.pending,if_neg (heq ▸ hfirst)]
          exact hsome
        · exact Or.inr ⟨.tail _ hmem,h⟩
      · rintro (h | ⟨hmem,transaction,hsome,hzero⟩)
        · exact Or.inl (Or.inl h)
        · rcases mem_cons.1 hmem with heq | hmem
          · refine Or.inl (Or.inr ⟨heq ▸ mem_cons_self,transaction,?_,hzero⟩)
            rw [hrest.pending,if_neg (heq ▸ hfirst)] at hsome
            exact hsome
          · exact Or.inr ⟨hmem,transaction,hsome,hzero⟩

lemma length_filter_ne {items : List ℕ} (hnodup : items.Nodup) {p : ℕ → Bool} {item : ℕ}
    (hmem : item ∈ items) (hp : p item=true) :
    (items.filter fun other=>decide (item≠other) && p other).length =
      (items.filter p).length-1 := by
  have herase : items.filter (fun other=>decide (item≠other) && p other) = (items.filter p).erase item := by
    rw [List.Nodup.erase_eq_filter (hnodup.filter p),filter_filter]
    refine filter_congr fun other _=>?_
    by_cases heq : item=other
    · simp [heq]
    · simp [heq,Ne.symm heq]
  rw [herase,length_erase_of_mem (mem_filter.2 ⟨hmem,hp⟩)]

structure SettledHash (r : BlobCacheResolver) (hash : ℕ) (t : BlobCacheResolver) : Prop where
  waiting : ∀ other, t.waiting other = if hash=other then ∅ else r.waiting other
  pending : ∀ sequence, t.pending[sequence]? =
    if sequence ∈ r.waiting hash then (r.pending[sequence]?).map PendingTransaction.settleOne
    else r.pending[sequence]?
  resolved : ∀ sequence, sequence ∈ t.resolvedPending ↔ sequence ∈ r.resolvedPending ∨
    (sequence ∈ r.waiting hash ∧ ∃ transaction, t.pending[sequence]? = some transaction ∧
      transaction.unresolvedHashes=0)
  ready : t.ready=r.ready
  immediate : t.immediateReady=r.immediateReady
  queue : t.recoveryReady=r.recoveryReady
  next : t.nextReadySequence=r.nextReadySequence

lemma settledHash_settleHashes {r : BlobCacheResolver} {transactions : Finset ℕ}
    (hlookup : r.pendingByHash[hash]? = some transactions) :
    SettledHash r hash (r.settleHashes hash transactions) := by
  have hwaiting : r.waiting hash=transactions := by
    simp [BlobCacheResolver.waiting,TreeMap.getD_eq_getD_getElem?,hlookup]
  have hsettles := settles_foldl (transactions.sort (· ≤ ·)) (Finset.sort_nodup _ _)
    { r with pendingByHash := r.pendingByHash.erase hash }
  refine ⟨fun other=>?_,fun sequence=>?_,fun sequence=>?_,hsettles.ready,
    hsettles.immediate,hsettles.queue,hsettles.next⟩
  · change (r.settleHashes hash transactions).pendingByHash.getD other ∅ = _
    unfold BlobCacheResolver.settleHashes
    rw [hsettles.index,count_erase]
    rfl
  · have hpending := hsettles.pending sequence
    simp only [Finset.mem_sort] at hpending
    simp only [hwaiting]
    exact hpending
  · have hresolved := hsettles.resolved sequence
    rw [Finset.mem_sort] at hresolved
    rw [hwaiting]
    exact hresolved

namespace SettledHash

variable {r s : BlobCacheResolver} {sequence : ℕ} {transaction : PendingTransaction}

lemma lookup (h : SettledHash r hash s) (hs : s.pending[sequence]? = some transaction) :
    ∃ earlier, r.pending[sequence]? = some earlier ∧
      transaction = if sequence ∈ r.waiting hash then earlier.settleOne else earlier := by
  rw [h.pending] at hs
  split at hs
  · rename_i hmem
    obtain ⟨earlier,hearlier,rfl⟩ := Option.map_eq_some_iff.1 hs
    exact ⟨earlier,hearlier,by rw [if_pos hmem]⟩
  · rename_i hmem
    exact ⟨transaction,hs,by rw [if_neg hmem]⟩

lemma lookup_of (h : SettledHash r hash s) (hr : r.pending[sequence]? = some transaction) : s.pending[sequence]? =
      some (if sequence ∈ r.waiting hash then transaction.settleOne else transaction) := by
  rw [h.pending]
  split
  · rw [hr]
    rfl
  · exact hr

lemma isNone (h : SettledHash r hash s) (hr : r.pending[sequence]? = none) : s.pending[sequence]? = none := by
  rw [h.pending,hr]
  split <;> rfl

lemma settleOne_fields (sequences : Finset ℕ) (sequence : ℕ) (transaction : PendingTransaction) :
    (if sequence ∈ sequences then transaction.settleOne else transaction).packet=transaction.packet ∧
      (if sequence ∈ sequences then transaction.settleOne else transaction).columns=transaction.columns ∧
      (if sequence ∈ sequences then transaction.settleOne else transaction).uniqueHashes=transaction.uniqueHashes ∧
      (if sequence ∈ sequences then transaction.settleOne else transaction).hashes =
        transaction.hashes := by
  split <;> exact ⟨rfl,rfl,rfl,rfl⟩

lemma holders (h : SettledHash r hash s) (other : ℕ) : s.holders other=r.holders other := by
  ext sequence
  rw [BlobCacheResolver.mem_holders,BlobCacheResolver.mem_holders]
  constructor
  · rintro ⟨transaction,hs,hmem⟩
    obtain ⟨earlier,hr,rfl⟩ := h.lookup hs
    rw [(settleOne_fields _ _ _).2.2.1] at hmem
    exact ⟨earlier,hr,hmem⟩
  · rintro ⟨earlier,hr,hmem⟩
    refine ⟨_,h.lookup_of hr,?_⟩
    rw [(settleOne_fields _ _ _).2.2.1]
    exact hmem

lemma evolves (h : SettledHash r hash s) : Evolves platform [] r s where
  next := h.next
  pending hs := by
    obtain ⟨earlier,hr,rfl⟩ := h.lookup hs
    exact ⟨earlier,hr,(settleOne_fields _ _ _).1,(settleOne_fields _ _ _).2.1⟩
  ready hs := Or.inl (h.ready ▸ hs)
  immediate hs := h.immediate ▸ hs
  keptPending hr := Or.inl ⟨_,h.lookup_of hr⟩
  keptReady hr := Or.inl (h.ready ▸ hr)
  queued hr := Or.inr (by unfold BlobCacheResolver.Queues at *; rw [h.queue]; exact hr)
  stuck {sequence} hs := by
    obtain ⟨hmem,transaction,hpending,hzero⟩ := hs
    rw [h.resolved,not_or] at hmem
    have hnot : sequence ∉ r.waiting hash := fun hwait =>
      hmem.2 ⟨hwait,transaction,hpending,hzero⟩
    obtain ⟨earlier,hr,rfl⟩ := h.lookup hpending
    rw [if_neg hnot] at hzero
    exact ⟨hmem.1,earlier,hr,hzero⟩

end SettledHash

lemma Consistent.settleHash (h : Consistent platform [] held world) (hmem : hash ∈ held)
    {s : BlobCacheResolver} (hsettled : SettledHash world.resolver hash s) :
    Consistent platform [] held { world with resolver := s } where
  pinned other := by rw [hsettled.holders]; exact h.pinned other
  promised {other} hheld hpins := by
    refine h.promised hheld (hpins.imp id ?_)
    rw [hsettled.waiting]
    split
    · exact fun hnonempty=>absurd hnonempty Finset.not_nonempty_empty
    · exact id
  valid := h.valid
  indexed {sequence other} hwait := by
    rw [hsettled.waiting] at hwait
    rw [hsettled.holders]
    split at hwait
    · exact absurd hwait (Finset.notMem_empty _)
    · exact h.indexed hwait
  unresolved {sequence transaction} hs := by
    obtain ⟨earlier,hr,rfl⟩ := hsettled.lookup hs
    rw [(SettledHash.settleOne_fields _ _ _).2.2.1]
    have hwaits : s.waitedHashes sequence earlier.uniqueHashes=earlier.uniqueHashes.filter fun other =>
          decide (hash≠other) && decide (sequence ∈ world.resolver.waiting other) := by
      refine filter_congr fun other _=>?_
      rw [hsettled.waiting]
      by_cases heq : hash=other
      · simp [heq]
      · simp [heq]
    rw [hwaits]
    by_cases hwait : sequence ∈ world.resolver.waiting hash
    · rw [if_pos hwait]
      have hunique : hash ∈ earlier.uniqueHashes := by
        obtain ⟨found,hfound,hmem⟩ := BlobCacheResolver.mem_holders.1 (h.indexed hwait)
        rw [hr] at hfound
        cases hfound
        exact hmem
      have hnodup : earlier.uniqueHashes.Nodup := by
        rw [(h.formed hr).uniqueHashes]
        exact nodup_stableUnique _
      rw [length_filter_ne hnodup hunique (decide_eq_true hwait)]
      change earlier.unresolvedHashes-1=_
      rw [h.unresolved hr]
      rfl
    · rw [if_neg hwait,h.unresolved hr]
      congr 1
      refine filter_congr fun other _=>?_
      by_cases heq : hash=other
      · simp [← heq,hwait]
      · simp [heq]
  resident {sequence other} hheld hwait := by
    rw [hsettled.holders] at hheld
    rw [hsettled.waiting] at hwait
    by_cases hwaited : sequence ∈ world.resolver.waiting other
    · split at hwait
      · rename_i heq
        subst heq
        exact h.promised hmem (Or.inr ⟨sequence,hwaited⟩)
      · exact absurd hwaited hwait
    · exact h.resident hheld hwaited
  settled {sequence} hs := by
    rw [hsettled.resolved] at hs
    rcases hs with hs | ⟨-,hs⟩
    · obtain ⟨transaction,hr,hzero⟩ := h.settled hs
      refine ⟨_,hsettled.lookup_of hr,?_⟩
      split
      · change transaction.unresolvedHashes-1=0
        omega
      · exact hzero
    · exact hs
  formed {sequence transaction} hs := by
    obtain ⟨earlier,hr,rfl⟩ := hsettled.lookup hs
    obtain ⟨hpacket,hcolumns,hunique,hhashes⟩ := SettledHash.settleOne_fields
      (world.resolver.waiting hash) sequence earlier
    have hformed := h.formed hr
    exact {
      hashes := by rw [hhashes,hpacket]; exact hformed.hashes
      uniqueHashes := by rw [hunique,hhashes]; exact hformed.uniqueHashes
      columns := by rw [hcolumns,hpacket]; exact hformed.columns
      cached := fun hcached=>hformed.cached (hpacket ▸ hcached) }
  pendingBelow hs := by
    obtain ⟨earlier,hr,-⟩ := hsettled.lookup hs
    rw [hsettled.next]
    exact h.pendingBelow hr
  readyBelow hs := by
    rw [hsettled.ready] at hs
    obtain ⟨heq,hlt,hnone⟩ := h.readyBelow hs
    exact ⟨heq,by rw [hsettled.next]; exact hlt,hsettled.isNone hnone⟩
  immediateBelow hs := by
    rw [hsettled.immediate] at hs
    obtain ⟨heq,hlt,hnone,hready⟩ := h.immediateBelow hs
    exact ⟨heq,by rw [hsettled.next]; exact hlt,hsettled.isNone hnone, by rw [hsettled.ready]; exact hready⟩
  queueFormed hlookup := h.queueFormed (hsettled.queue ▸ hlookup)

end Settling

section Resolving

/-- An operation's stretch that may mark transactions resolved, and rebuilds those it marks. -/
structure Drained (platform : Platform) (held : List ℕ) (world t : World) : Prop where
  consistent : Consistent platform [] held t
  evolves : Evolves platform [] world.resolver t.resolver
  resolved : world.resolver.resolvedPending = ∅ → t.resolver.resolvedPending = ∅

namespace Drained

variable {u : World}

lemma of_after (h : After platform held world t) : Drained platform held world t :=
  ⟨h.consistent,h.evolves,fun hempty=>Finset.subset_empty.1 (hempty ▸ h.resolved)⟩

lemma trans (h : Drained platform held world t) (h' : Drained platform held t u) :
    Drained platform held world u :=
  ⟨h'.consistent,h.evolves.trans h'.evolves,fun hempty=>h'.resolved (h.resolved hempty)⟩

end Drained

lemma resolveHash_spec (hworld : Consistent platform [] held world) (hmem : hash ∈ held) :
    Meets (resolveHash platform hash) world (fun _ t=>Drained platform held world t)
      fun fault t=>fault = .error .byteCountOverflow ∧ Consistent platform [] held t ∧
        Evolves platform [] world.resolver t.resolver := by
  refine .bind (.bind (.get (.pure ?_)))
  cases hlookup : world.resolver.pendingByHash[hash]? with
  | none => exact .pure (.of_after (.refl hworld))
  | some transactions =>
    have hsettled := settledHash_settleHashes hlookup
    refine (drainReady_spec (hworld.settleHash hmem hsettled)).mono (fun _ t ⟨ht,hempty⟩=>?_)
      fun fault t ⟨hfault,ht⟩=>⟨hfault,ht.consistent,hsettled.evolves.trans ht.evolves⟩
    exact ⟨ht.consistent,hsettled.evolves.trans ht.evolves,fun _=>hempty⟩

lemma resolveHashes_spec {hashes : List ℕ} (hworld : Consistent platform [] held world)
    (hmem : ∀ hash ∈ hashes, hash ∈ held) :
    Meets (resolveHashes platform hashes) world (fun _ t=>Drained platform held world t)
      fun fault t=>fault = .error .byteCountOverflow ∧ Consistent platform [] held t ∧
        Evolves platform [] world.resolver t.resolver := by
  induction hashes generalizing world with
  | nil => exact .pure (.of_after (.refl hworld))
  | cons first hashes ih =>
    refine .bind ((resolveHash_spec hworld (hmem first (.head _))).mono (fun _ t ht=>?_) fun _ _=>id)
    exact (ih ht.consistent fun hash hhash=>hmem hash (.tail _ hhash)).mono (fun _ _ hu=>ht.trans hu)
      fun _ _ hu=>⟨hu.1,hu.2.1,ht.evolves.trans hu.2.2⟩

end Resolving

end Cinnabar.BlobCache
