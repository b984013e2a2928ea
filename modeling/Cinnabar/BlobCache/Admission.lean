import Cinnabar.BlobCache.Framing

/-! # Admitting a cached packet -/

namespace Cinnabar.BlobCache

open Std BlobCacheResolver List

variable {platform : Platform} {owed held : List ℕ} {world t : World} {sequence hash : ℕ}
  {transaction : PendingTransaction}

section Indexing

lemma waiting_indexHash (r : BlobCacheResolver) (hash other : ℕ) : (indexHash sequence r hash).waiting other =
      if hash=other then insert sequence (r.waiting other) else r.waiting other := by
  unfold indexHash
  dsimp only [BlobCacheResolver.waiting]
  rw [count_insert]
  split
  · rename_i heq
    rw [heq]
  · rfl

lemma foldl_indexHash (sequence : ℕ) (hashes : List ℕ) (r : BlobCacheResolver) :
    ∃ index, hashes.foldl (indexHash sequence) r = { r with pendingByHash := index } ∧
      ∀ other, (hashes.foldl (indexHash sequence) r).waiting other =
        if other ∈ hashes then insert sequence (r.waiting other) else r.waiting other :=
  foldl_reindex (insert sequence) (Finset.insert_idem _) (fun _ _=>⟨_,rfl⟩)
    (fun r hash other=>waiting_indexHash r hash other) hashes r

structure Admitted (r : BlobCacheResolver) (transaction : PendingTransaction) (indexed : List ℕ)
    (t : BlobCacheResolver) : Prop where
  next : t.nextReadySequence=r.nextReadySequence+1
  pending : t.pending=r.pending.insert r.nextReadySequence transaction
  waiting : ∀ hash, t.waiting hash =
    if hash ∈ indexed then insert r.nextReadySequence (r.waiting hash) else r.waiting hash
  resolved : t.resolvedPending=r.resolvedPending
  ready : t.ready=r.ready
  immediate : t.immediateReady=r.immediateReady
  queue : t.recoveryReady=r.recoveryReady

lemma admitted_admitTransaction (r : BlobCacheResolver) (transaction : PendingTransaction) (indexed : List ℕ) :
    Admitted r transaction indexed (({ r with nextReadySequence := r.nextReadySequence+1 } :
        BlobCacheResolver).admitTransaction r.nextReadySequence transaction indexed) := by
  unfold admitTransaction
  obtain ⟨index,heq,hwaiting⟩ := foldl_indexHash r.nextReadySequence indexed
    { r with
      nextReadySequence := r.nextReadySequence+1
      pending := r.pending.insert r.nextReadySequence transaction
      pendingAccountedBytes := r.pendingAccountedBytes+transaction.accountedBytes
      retainedColumnSlots := r.retainedColumnSlots+transaction.columns.length }
  refine ⟨?_,?_,hwaiting,?_,?_,?_,?_⟩
  all_goals rw [heq]

namespace Admitted

variable {r s : BlobCacheResolver} {indexed : List ℕ} {found : PendingTransaction}

section

variable (h : Admitted r transaction indexed s)
include h

lemma lookup (hs : s.pending[sequence]? = some found) : (sequence=r.nextReadySequence ∧ found=transaction) ∨
      r.pending[sequence]? = some found := by
  rw [h.pending,lookup_insert] at hs
  split at hs
  · rename_i heq
    cases hs
    exact Or.inl ⟨heq.symm,rfl⟩
  · exact Or.inr hs

lemma lookup_self : s.pending[r.nextReadySequence]? = some transaction := by
  rw [h.pending,lookup_insert,if_pos rfl]

lemma lookup_of (hne : sequence≠r.nextReadySequence) : s.pending[sequence]? = r.pending[sequence]? := by
  rw [h.pending,lookup_insert,if_neg hne.symm]

end

end Admitted

lemma Consistent.admit {indexed : List ℕ} (h : Consistent platform owed held world)
    {s : BlobCacheResolver} (hadmitted : Admitted world.resolver transaction indexed s)
    (hformed : transaction.Formed) (hunique : transaction.uniqueHashes=owed)
    (hindexed : ∀ hash ∈ indexed, hash ∈ owed) (hnodup : indexed.Nodup)
    (hfiled : ∀ hash ∈ owed, hash ∈ held ∨ hash ∈ indexed)
    (hcount : transaction.unresolvedHashes=indexed.length) :
    Consistent platform [] [] { world with resolver := s } := by
  set newest := world.resolver.nextReadySequence with hnewest
  have howed : owed.Nodup := by
    rw [← hunique,hformed.uniqueHashes]
    exact nodup_stableUnique _
  have hfresh : world.resolver.pending[newest]? = none := by
    cases hsome : world.resolver.pending[newest]? with
    | none => rfl
    | some found => exact absurd (h.pendingBelow hsome) (Nat.lt_irrefl _)
  have hnotHeld : ∀ hash, newest ∉ world.resolver.holders hash := by
    intro hash hmem
    obtain ⟨found,hsome,-⟩ := mem_holders.1 hmem
    rw [hfresh] at hsome
    cases hsome
  have hnotWaiting : ∀ hash, newest ∉ world.resolver.waiting hash := fun hash hmem=>hnotHeld hash (h.indexed hmem)
  have hne : ∀ {sequence : ℕ} {found : PendingTransaction},
      world.resolver.pending[sequence]? = some found → sequence≠newest := by
    rintro sequence found hsome rfl
    rw [hfresh] at hsome
    cases hsome
  have hholders : ∀ hash, s.holders hash = if hash ∈ owed then insert newest (world.resolver.holders hash)
      else world.resolver.holders hash := by
    intro hash
    ext sequence
    rw [mem_holders]
    constructor
    · rintro ⟨found,hsome,hmem⟩
      rcases hadmitted.lookup hsome with ⟨rfl,rfl⟩ | hsome
      · rw [if_pos (hunique ▸ hmem)]
        exact Finset.mem_insert_self _ _
      · have hheld := mem_holders.2 ⟨found,hsome,hmem⟩
        split
        · exact Finset.mem_insert_of_mem hheld
        · exact hheld
    · intro hmem
      have hcases : (sequence=newest ∧ hash ∈ owed) ∨ sequence ∈ world.resolver.holders hash := by
        split at hmem
        · rename_i hown
          exact (Finset.mem_insert.1 hmem).imp (fun heq=>⟨heq,hown⟩) id
        · exact Or.inr hmem
      rcases hcases with ⟨rfl,hown⟩ | hheld
      · exact ⟨transaction,hadmitted.lookup_self,hunique ▸ hown⟩
      · obtain ⟨found,hsome,hhash⟩ := mem_holders.1 hheld
        exact ⟨found,(hadmitted.lookup_of (hne hsome)).trans hsome,hhash⟩
  have hwaits : ∀ {sequence hash : ℕ}, sequence≠newest →
      (sequence ∈ s.waiting hash ↔ sequence ∈ world.resolver.waiting hash) := by
    intro sequence hash hne
    rw [hadmitted.waiting]
    split
    · rw [Finset.mem_insert,or_iff_right hne]
    · rfl
  have hwaitsNewest : ∀ {hash : ℕ}, newest ∈ s.waiting hash ↔ hash ∈ indexed := by
    intro hash
    rw [hadmitted.waiting]
    split
    · rename_i hmem
      exact iff_of_true (Finset.mem_insert_self _ _) hmem
    · rename_i hmem
      exact iff_of_false (hnotWaiting hash) hmem
  have hheldBy : ∀ {sequence hash : ℕ}, sequence≠newest → sequence ∈ s.holders hash →
      sequence ∈ world.resolver.holders hash := by
    intro sequence hash hne hmem
    rw [hholders] at hmem
    split at hmem
    · exact (Finset.mem_insert.1 hmem).resolve_left hne
    · exact hmem
  exact {
    pinned := fun hash=>by
      have hpinned := h.pinned hash
      rw [hholders,count_nil]
      by_cases hmem : hash ∈ owed
      · rw [if_pos hmem,Finset.card_insert_of_notMem (hnotHeld hash)]
        rw [count_eq_one_of_mem howed hmem] at hpinned
        omega
      · rw [if_neg hmem]
        dsimp only
        omega
    promised := fun hmem=>absurd hmem not_mem_nil
    valid := h.valid
    indexed := fun {sequence hash} hwait=>by
      by_cases heq : sequence=newest
      · subst heq
        rw [hwaitsNewest] at hwait
        rw [hholders,if_pos (hindexed hash hwait)]
        exact Finset.mem_insert_self _ _
      · have hheld := h.indexed ((hwaits heq).1 hwait)
        rw [hholders]
        split
        · exact Finset.mem_insert_of_mem hheld
        · exact hheld
    unresolved := fun {sequence found} hsome=>by
      rcases hadmitted.lookup hsome with ⟨rfl,rfl⟩ | hsome
      · rw [hcount]
        refine List.Perm.length_eq ((perm_ext_iff_of_nodup hnodup ?_).2 fun hash=>?_)
        · rw [hunique]
          exact howed.filter _
        · rw [waitedHashes,mem_filter,decide_eq_true_eq,hunique]
          rw [hwaitsNewest]
          exact ⟨fun hmem=>⟨hindexed hash hmem,hmem⟩,And.right⟩
      · rw [h.unresolved hsome]
        refine congrArg List.length (filter_congr fun hash _=>?_)
        exact decide_eq_decide.2 (hwaits (hne hsome)).symm
    resident := fun {sequence hash} hheld hwait=>by
      by_cases heq : sequence=newest
      · subst heq
        rw [hwaitsNewest] at hwait
        have hown : hash ∈ owed := by
          rw [hholders] at hheld
          by_contra hnot
          rw [if_neg hnot] at hheld
          exact hnotHeld hash hheld
        exact h.promised ((hfiled hash hown).resolve_right hwait) (Or.inl hown)
      · exact h.resident (hheldBy heq hheld) fun hmem=>hwait ((hwaits heq).2 hmem)
    settled := fun {sequence} hmem=>by
      rw [hadmitted.resolved] at hmem
      obtain ⟨found,hsome,hzero⟩ := h.settled hmem
      exact ⟨found,(hadmitted.lookup_of (hne hsome)).trans hsome,hzero⟩
    formed := fun {sequence found} hsome=>by
      rcases hadmitted.lookup hsome with ⟨rfl,rfl⟩ | hsome
      · exact hformed
      · exact h.formed hsome
    pendingBelow := fun {sequence found} hsome=>by
      rw [hadmitted.next]
      rcases hadmitted.lookup hsome with ⟨rfl,rfl⟩ | hsome
      · exact Nat.lt_succ_self _
      · exact Nat.lt_succ_of_lt (h.pendingBelow hsome)
    readyBelow := fun {sequence item} hsome=>by
      rw [hadmitted.ready] at hsome
      obtain ⟨heq,hlt,hnone⟩ := h.readyBelow hsome
      rw [hadmitted.next,hadmitted.lookup_of (Nat.ne_of_lt hlt)]
      exact ⟨heq,Nat.lt_succ_of_lt hlt,hnone⟩
    immediateBelow := fun {sequence item} hsome=>by
      rw [hadmitted.immediate] at hsome
      obtain ⟨heq,hlt,hnone,hready⟩ := h.immediateBelow hsome
      rw [hadmitted.next,hadmitted.lookup_of (Nat.ne_of_lt hlt),hadmitted.ready]
      exact ⟨heq,Nat.lt_succ_of_lt hlt,hnone,hready⟩
    queueFormed := fun hsome=>h.queueFormed (hadmitted.queue ▸ hsome) }

end Indexing

section Classifying

structure Filed (references : List ℕ) (status : BlobCacheStatus) : Prop where
  nodup : (status.missing++status.outstanding).Nodup
  subset : ∀ hash ∈ status.missing++status.outstanding, hash ∈ stableUnique references
  filed : ∀ hash ∈ stableUnique references, hash ∈ status.have_ ∨ hash ∈ status.missing++status.outstanding

lemma classifyStatus_spec {references : List ℕ} {recovery : Option ChunkResyncEvent}
    {shouldPin : Bool} (hworld : Consistent platform [] [] world) :
    Meets (classifyStatus platform references recovery shouldPin) world
      (fun status t=>status.recovery=recovery ∧ status.accepted=false ∧
        t.resolver=world.resolver ∧ Filed references status ∧
        if shouldPin then Consistent platform (stableUnique references) status.have_ t
        else Undisturbed platform [] [] world t)
      fun _ _=>False := by
  refine .bind (meets_lock hworld fun w hw=>CacheStore.classify_spec.mono
    (fun filed s ⟨hbody,hpins,hheld,hmissing⟩=>?_) fun _ _=>id)
  refine .bind (.bind (.get (.pure (.pure ⟨rfl,rfl,hw.resolver,?_,?_⟩))))
  · have hnodup : filed.missing.Nodup := by
      rw [hmissing]
      exact (nodup_stableUnique _).filter _
    have hmem : ∀ hash, hash ∈ filed.missing.filter (fun hash=>¬w.resolver.pendingByHash.contains hash) ++
        filed.missing.filter (fun hash=>w.resolver.pendingByHash.contains hash) ↔
        hash ∈ filed.missing := by
      intro hash
      rw [mem_append,mem_filter,mem_filter]
      by_cases hcontains : w.resolver.pendingByHash.contains hash=true
      · simp [hcontains]
      · simp [hcontains]
    refine ⟨nodup_append.2 ⟨hnodup.filter _,hnodup.filter _,?_⟩, fun hash h=>?_,fun hash h=>?_⟩
    · intro a ha b hb
      rw [mem_filter,decide_eq_true_eq] at ha
      rw [mem_filter] at hb
      rintro rfl
      exact ha.2 hb.2
    · have hin := (hmem hash).1 h
      rw [hmissing] at hin
      exact (mem_filter.1 hin).1
    · cases hsome : (w.store.body hash).isSome with
      | true =>
        refine Or.inl ?_
        rw [hheld]
        exact mem_filter.2 ⟨h,hsome⟩
      | false =>
        refine Or.inr ((hmem hash).2 ?_)
        rw [hmissing]
        refine mem_filter.2 ⟨h,?_⟩
        rw [Option.isNone_iff_eq_none,← Option.not_isSome_iff_eq_none,hsome]
        exact Bool.false_ne_true
  · cases shouldPin with
    | false =>
      refine hw.trans (.of_store hw.consistent rfl (fun hash=>?_) (.of_body hbody))
      have hcount := hpins hash
      rw [hcount]
      exact hw.consistent.pinned hash
    | true =>
      have hw' := hw.consistent
      have hpinned : ∀ hash, w.foreign hash + (w.resolver.holders hash).card +
          (stableUnique references).count hash ≤ s.pinCount hash := by
        intro hash
        have hcount := hpins hash
        have hle := hw'.pinned hash
        rw [CacheStore.pinsOf,if_pos rfl] at hcount
        omega
      exact {
        pinned := hpinned
        promised := fun {hash} hmem _=>by
          rw [hbody]
          rw [hheld] at hmem
          exact (mem_filter.1 hmem).2
        valid := fun {hash payload} hsome=>by
          rw [hbody] at hsome
          exact hw'.valid hsome
        __ := hw'
        resident := fun {sequence hash} hheld' hwait=>by
          rw [hbody]
          exact hw'.resident hheld' hwait }

end Classifying

end Cinnabar.BlobCache
