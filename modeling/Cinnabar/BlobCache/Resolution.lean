import Cinnabar.BlobCache.Abandonment

/-! # Rebuilding resolved transactions -/

namespace Cinnabar.BlobCache

open Std List

variable {platform : Platform} {owed held : List ℕ} {world t : World} {sequence hash : ℕ}
  {transaction : PendingTransaction}

section Projecting

lemma projectHashes_spec {hashes : List ℕ} {bytes : ℕ} {store : CacheStore} :
    Meets (projectHashes hashes bytes) store (fun projected s=>s=store ∧
        ((∀ hash ∈ hashes, (store.body hash).isSome) → projected.isSome))
      fun error s=>s=store ∧ error = .byteCountOverflow := by
  induction hashes generalizing bytes with
  | nil => exact .pure ⟨rfl,fun _=>rfl⟩
  | cons first hashes ih =>
    refine .bind (.get ?_)
    cases hentry : store.entries[first]? with
    | none =>
      refine .pure ⟨rfl,fun hresident=>?_⟩
      have hfirst := hresident first (.head _)
      rw [CacheStore.body_eq_none.2 hentry] at hfirst
      cases hfirst
    | some entry =>
      refine .bind (CacheStore.meets_addBytes ?_ ⟨rfl,rfl⟩)
      exact ih.mono (fun _ _ ⟨hs,hsome⟩=>⟨hs,fun hresident =>
        hsome fun hash hmem=>hresident hash (.tail _ hmem)⟩) fun _ _=>id

lemma projectEntries_spec {entries : List SubChunkData} {bytes : ℕ} {store : CacheStore} :
    Meets (projectEntries entries bytes) store (fun projected s=>s=store ∧
        ((∀ hash ∈ entries.filterMap SubChunkData.reference, (store.body hash).isSome) → projected.isSome))
      fun error s=>s=store ∧ error = .byteCountOverflow := by
  induction entries generalizing bytes with
  | nil => exact .pure ⟨rfl,fun _=>rfl⟩
  | cons first entries ih =>
    unfold projectEntries
    cases hreference : first.reference with
    | none =>
      rw [filterMap_cons_none hreference]
      exact ih
    | some blobId =>
      rw [filterMap_cons_some hreference]
      refine .bind (.get ?_)
      cases hentry : store.entries[blobId]? with
      | none =>
        refine .pure ⟨rfl,fun hresident=>?_⟩
        have hfirst := hresident blobId (.head _)
        rw [CacheStore.body_eq_none.2 hentry] at hfirst
        cases hfirst
      | some blob =>
        refine .bind (CacheStore.meets_addBytes ?_ ⟨rfl,rfl⟩)
        refine .bind (CacheStore.meets_addBytes ?_ ⟨rfl,rfl⟩)
        exact ih.mono (fun _ _ ⟨hs,hsome⟩=>⟨hs,fun hresident =>
          hsome fun hash hmem=>hresident hash (.tail _ hmem)⟩) fun _ _=>id

lemma projectedReconstructionBytes_spec {packet : PendingPacket} (hworld : Consistent platform owed held world)
    (hcached : ∀ {reply}, packet = .subChunk reply → reply.cacheEnabled=true) :
    Meets (projectedReconstructionBytes platform packet packet.referencedBlobHashes) world
      (fun projected t=>Undisturbed platform owed held world t ∧ ((∀ w, Undisturbed platform owed held world w →
          ∀ hash ∈ packet.referencedBlobHashes, (w.store.body hash).isSome) → projected.isSome))
      fun fault t=>fault = .error .byteCountOverflow ∧
        Undisturbed platform owed held world t := by
  cases packet with
  | levelChunk packet =>
    refine meets_lock hworld fun w hw=>projectHashes_spec.mono
      (fun projected s ⟨hs,hsome⟩=>?_) fun error s ⟨hs,herror⟩=>?_
    · subst hs
      exact ⟨hw,fun hresident=>hsome (hresident w hw)⟩
    · subst hs
      exact ⟨by rw [herror],hw⟩
  | subChunk packet =>
    have henabled := hcached rfl
    refine .ite (fun _=>meets_lock hworld fun w hw=>projectEntries_spec.mono
      (fun projected s ⟨hs,hsome⟩=>?_) fun error s ⟨hs,herror⟩=>?_) fun hdisabled =>
      absurd henabled hdisabled
    · subst hs
      refine ⟨hw,fun hresident=>hsome ?_⟩
      have hentries := hresident w hw
      rw [PendingPacket.referencedBlobHashes,subchunkReferencedBlobHashes,if_pos henabled] at hentries
      exact hentries
    · subst hs
      exact ⟨by rw [herror],hw⟩

end Projecting

section Fetching

structure Resident (hashes : List ℕ) (blob : ℕ → Bytes) (world : World) : Prop where
  holders : ∀ hash ∈ hashes, (world.resolver.holders hash).Nonempty
  body : ∀ hash ∈ hashes, world.store.body hash=some (blob hash)

lemma Resident.undisturbed {hashes : List ℕ} {blob : ℕ → Bytes} (h : Resident hashes blob world)
    (ht : Undisturbed platform owed held world t) : Resident hashes blob t where
  holders hash hmem := by rw [ht.resolver]; exact h.holders hash hmem
  body hash hmem := ht.kept (h.holders hash hmem) (h.body hash hmem)

variable {hashes : List ℕ} {blob : ℕ → Bytes} {E : Fault → World → Prop}

lemma fetchResolved_spec (hworld : Consistent platform owed held world)
    (hresident : Resident hashes blob world) (hmem : hash ∈ hashes) :
    Meets (fetchResolved platform hash) world
      (fun fetched t=>fetched=blob hash ∧ Undisturbed platform owed held world t)
      fun _ _=>False := by
  refine .bind (meets_lock hworld fun w hw=>CacheStore.fetch_spec fun s hpins hbody=>?_)
  rw [(hresident.undisturbed hw).body hash hmem]
  refine .pure ⟨rfl,hw.trans ?_⟩
  exact .of_settled hw.consistent rfl rfl ⟨hpins,.of_body hbody⟩

lemma foldlM_resident {β : Type} {f : β → ℕ → ResolverM β} {I : List ℕ → β → Prop} {start : β}
    (hworld : Consistent platform owed held world) (hresident : Resident hashes blob world)
    (hstart : I [] start)
    (hf : ∀ done hash rest (b : β) w, hashes=done++hash::rest → I done b →
      Consistent platform owed held w → Resident hashes blob w →
      Meets (f b hash) w (fun b' t=>I (done ++ [hash]) b' ∧ Undisturbed platform owed held w t)
        fun fault t=>fault = .error .byteCountOverflow ∧ Undisturbed platform owed held w t) :
    Meets (hashes.foldlM f start) world (fun b t=>I hashes b ∧ Undisturbed platform owed held world t)
      fun fault t=>fault = .error .byteCountOverflow ∧
        Undisturbed platform owed held world t := by
  suffices h : ∀ (rest done : List ℕ) (b : β) (w : World), hashes=done++rest → I done b →
      Undisturbed platform owed held world w →
      Meets (rest.foldlM f b) w (fun b' t=>I hashes b' ∧ Undisturbed platform owed held world t)
        fun fault t=>fault = .error .byteCountOverflow ∧ Undisturbed platform owed held world t from
    h hashes [] start world rfl hstart (.refl hworld)
  intro rest
  induction rest with
  | nil =>
    intro done b w hsplit hI hw
    rw [append_nil] at hsplit
    subst hsplit
    exact .pure ⟨hI,hw⟩
  | cons first rest ih =>
    intro done b w hsplit hI hw
    refine .bind ((hf done first rest b w hsplit hI hw.consistent
      (hresident.undisturbed hw)).mono (fun b' t ⟨hI',ht⟩=>?_)
      fun fault t ⟨hfault,ht⟩=>⟨hfault,hw.trans ht⟩)
    exact ih (done ++ [first]) b' t (by simpa using hsplit) hI' (hw.trans ht)

lemma addCounted_spec {a b : ℕ} {Q : ℕ → World → Prop} (hQ : Q (a+b) world)
    (hE : E (.error .byteCountOverflow) world) : Meets (addCounted a b) world Q E := by
  unfold addCounted checkedAddUsize
  by_cases h : a+b≤usizeMax
  · rw [if_pos h]
    exact .pure hQ
  · rw [if_neg h]
    exact .throw hE

section

variable (hworld : Consistent platform owed held world)
include hworld

lemma measureBlobs_spec {bytes : ℕ} (hresident : Resident hashes blob world) :
    Meets (hashes.foldlM (measureBlob platform) bytes) world (fun _ t=>Undisturbed platform owed held world t)
      fun fault t=>fault = .error .byteCountOverflow ∧
        Undisturbed platform owed held world t := by
  refine (foldlM_resident (I := fun _ _=>True) hworld hresident trivial
    fun done hash rest b w hsplit _ hw hresident=>?_).mono (fun _ _ h=>h.2) fun _ _=>id
  refine .bind ((fetchResolved_spec hw hresident (by simp [hsplit])).mono (fun fetched t ⟨_,ht⟩=>?_) fun _ _ h=>h.elim)
  exact addCounted_spec ⟨trivial,ht⟩ ⟨rfl,ht⟩

lemma appendBlobs_spec (hresident : Resident hashes blob world) : Meets (hashes.foldlM (appendBlob platform) []) world
      (fun payload t=>payload=hashes.flatMap blob ∧ Undisturbed platform owed held world t)
      fun fault t=>fault = .error .byteCountOverflow ∧
        Undisturbed platform owed held world t := by
  refine foldlM_resident (I := fun done payload=>payload=done.flatMap blob) hworld hresident
    rfl fun done hash rest payload w hsplit hI hw hresident=>?_
  refine .bind ((fetchResolved_spec hw hresident (by simp [hsplit])).mono
    (fun fetched t ⟨hfetched,ht⟩=>.pure ⟨?_,ht⟩) fun _ _ h=>h.elim)
  rw [hI,hfetched,flatMap_append,flatMap_singleton]

lemma reconstructEntries_spec {entries : List SubChunkData}
    (hresident : Resident (entries.filterMap SubChunkData.reference) blob world) :
    Meets (entries.foldlM (reconstructEntry platform) []) world
      (fun done t=>done=entries.map (SubChunkData.splice blob) ∧ Undisturbed platform owed held world t)
      fun fault t=>fault = .error .byteCountOverflow ∧
        Undisturbed platform owed held world t := by
  suffices h : ∀ (entries done : List SubChunkData) (w : World),
      Resident (entries.filterMap SubChunkData.reference) blob w →
      Undisturbed platform owed held world w →
      Meets (entries.foldlM (reconstructEntry platform) done) w
        (fun all t=>all=done++entries.map (SubChunkData.splice blob) ∧ Undisturbed platform owed held world t)
        fun fault t=>fault = .error .byteCountOverflow ∧
          Undisturbed platform owed held world t by
    simpa using h entries [] world hresident (.refl hworld)
  intro entries
  induction entries with
  | nil => exact fun done w _ hw=>.pure ⟨by simp,hw⟩
  | cons first entries ih =>
    intro done w hresident hw
    rw [foldlM_cons]
    have hnext : ∀ {t : World}, Undisturbed platform owed held world t →
        Resident (entries.filterMap SubChunkData.reference) blob t →
        Meets (entries.foldlM (reconstructEntry platform) (done ++ [first.splice blob])) t
          (fun all t=>all=done ++ (first::entries).map (SubChunkData.splice blob) ∧
            Undisturbed platform owed held world t)
          fun fault t=>fault = .error .byteCountOverflow ∧
            Undisturbed platform owed held world t := by
      intro t ht hrest
      have hstep := ih (done ++ [first.splice blob]) t hrest ht
      rwa [append_assoc,singleton_append,← map_cons] at hstep
    unfold reconstructEntry
    cases hreference : first.reference with
    | none =>
      rw [filterMap_cons_none hreference] at hresident
      refine .bind (.pure ?_)
      have hsplice : first.splice blob = { first with
          blobId := none, serializedSubChunk := some (first.serializedSubChunk.getD []) } := by
        rw [SubChunkData.splice,hreference]
        rfl
      rw [← hsplice]
      exact hnext hw hresident
    | some blobId =>
      rw [filterMap_cons_some hreference] at hresident
      refine .bind (.bind ((fetchResolved_spec hw.consistent hresident
        mem_cons_self).mono (fun fetched t ⟨hfetched,ht⟩=>?_) fun _ _ h=>h.elim))
      refine .bind (addCounted_spec (.pure ?_) ⟨rfl,hw.trans ht⟩)
      have hsplice : first.splice blob = { first with
          blobId := none
          serializedSubChunk := some (fetched++first.serializedSubChunk.getD []) } := by
        rw [SubChunkData.splice,hreference,hfetched]
        rfl
      rw [← hsplice]
      have hrest := hresident.undisturbed ht
      exact hnext (hw.trans ht) ⟨fun hash hmem=>hrest.holders hash (.tail _ hmem),
        fun hash hmem=>hrest.body hash (.tail _ hmem)⟩

lemma reconstruct_spec (hformed : transaction.Formed) (hresident : Resident transaction.hashes blob world) :
    Meets (reconstruct platform transaction) world
      (fun value t=>value = .packet (transaction.packet.splice blob) ∧ Undisturbed platform owed held world t)
      fun fault t=>fault = .error .byteCountOverflow ∧
        Undisturbed platform owed held world t := by
  unfold reconstruct
  have hhashes := hformed.hashes
  cases hpacket : transaction.packet with
  | levelChunk packet =>
    rw [hpacket] at hhashes
    refine .bind ((measureBlobs_spec hworld hresident).mono (fun _ t ht=>?_) fun _ _=>id)
    refine .bind ((appendBlobs_spec ht.consistent (hresident.undisturbed ht)).mono
      (fun payload u ⟨hpayload,hu⟩=>.pure ⟨?_,ht.trans hu⟩)
      fun fault u ⟨hfault,hu⟩=>⟨hfault,ht.trans hu⟩)
    rw [hpayload,hhashes]
    rfl
  | subChunk packet =>
    have henabled := hformed.cached hpacket
    rw [hpacket,PendingPacket.referencedBlobHashes,subchunkReferencedBlobHashes, if_pos henabled] at hhashes
    rw [hhashes] at hresident
    refine .ite (fun _=>?_) fun hdisabled=>absurd henabled hdisabled
    refine .bind ((reconstructEntries_spec hworld hresident).mono
      (fun entries t ⟨hentries,ht⟩=>.pure ⟨?_,ht⟩) fun _ _=>id)
    rw [hentries]
    rfl

end

end Fetching

section Publishing

variable {value : ResolverReady} {readyBytes : ℕ}

lemma Calm.readyValueAccountedBytes {packet : PendingPacket} {blob : ℕ → Bytes} : Calm platform owed held
      (BlobCache.readyValueAccountedBytes (.packet (packet.splice blob))) := by
  cases packet with
  | levelChunk packet => exact .bind .containerBytes fun _=>.foldlM fun _ _=>.addCounted
  | subChunk packet => exact .bind .containerBytes fun _=>.foldlM fun _ _=>.addCounted

lemma Calm.readyHasRoom : Calm platform owed held (BlobCache.readyHasRoom transaction readyBytes) :=
  .bind .readResolver fun _=>.ite (.bind .retainedCachedBytes fun _=>.ite .overflow
      (.bind .containerBytes fun _=>.bind .addCounted fun _=>.bind .addCounted fun _=>.pure))
    .pure

/-- The rebuilt packet stands where its transaction stood. -/
lemma Consistent.publish {removed : BlobCacheResolver} (hworld : Consistent platform [] held world)
    (hpending : world.resolver.pending[sequence]? = some transaction)
    (hremoved : Removed world.resolver sequence removed) (ht : Consistent platform [] held t)
    (hresolver : t.resolver=removed) {readyAccounted slots : ℕ} :
    Consistent platform [] held { t with resolver := { t.resolver with
      ready := t.resolver.ready.insert sequence ⟨value,transaction.columns,readyBytes,sequence⟩
      readyAccountedBytes := readyAccounted
      retainedColumnSlots := slots } } where
  __ := ht
  readyBelow {other item} hitem := by
    rw [lookup_insert] at hitem
    split at hitem
    · rename_i heq
      cases hitem
      subst heq
      refine ⟨rfl,?_,?_⟩
      · rw [hresolver,hremoved.next]
        exact hworld.pendingBelow hpending
      · rw [hresolver,hremoved.pending,lookup_erase,if_pos rfl]
    · exact ht.readyBelow hitem
  immediateBelow {other item} hitem := by
    obtain ⟨heq,hlt,hnone,hready⟩ := ht.immediateBelow hitem
    refine ⟨heq,hlt,hnone,?_⟩
    rw [lookup_insert,if_neg,hready]
    rintro rfl
    rw [hresolver,hremoved.immediate] at hitem
    rw [(hworld.immediateBelow hitem).2.2.1] at hpending
    cases hpending

lemma Removed.evolves_publish {r removed : BlobCacheResolver} (hremoved : Removed r sequence removed)
    (hpending : r.pending[sequence]? = some transaction)
    (hnotReady : r.ready[sequence]? = none)
    (hrebuilt : Rebuilt platform transaction.packet value) {readyAccounted slots : ℕ} :
    Evolves platform [] r { removed with
      ready := removed.ready.insert sequence ⟨value,transaction.columns,readyBytes,sequence⟩
      readyAccountedBytes := readyAccounted
      retainedColumnSlots := slots } where
  next := hremoved.next
  pending h := ⟨_,(hremoved.lookup h).2,rfl,rfl⟩
  ready {other item} h := by
    rw [lookup_insert,hremoved.ready] at h
    split at h
    · rename_i heq
      cases h
      exact Or.inr ⟨transaction,heq ▸ hpending,rfl,hrebuilt⟩
    · exact Or.inl h
  immediate h := hremoved.immediate ▸ h
  keptPending {other found} h := by
    by_cases heq : sequence=other
    · subst heq
      rw [hpending] at h
      cases h
      exact Or.inr (Or.inl ⟨_,by dsimp only; rw [lookup_insert,if_pos rfl],hrebuilt⟩)
    · exact Or.inl ⟨found,hremoved.lookup_of heq h⟩
  keptReady {other item} h := by
    left
    rw [lookup_insert,if_neg,hremoved.ready]
    · exact h
    · rintro rfl
      rw [hnotReady] at h
      cases h
  queued h := Or.inr (by
    unfold BlobCacheResolver.Queues at *
    rw [hremoved.queue]
    exact h)
  stuck {other} h := by
    obtain ⟨hmem,found,hfound,hzero⟩ := h
    obtain ⟨hne,hfound⟩ := hremoved.lookup hfound
    refine ⟨fun hmem'=>hmem ?_,found,hfound,hzero⟩
    rw [hremoved.resolved]
    exact Finset.mem_erase.2 ⟨hne.symm,hmem'⟩

/-- A step that leaves the transaction out of the resolved set. -/
structure Advances (platform : Platform) (held : List ℕ) (sequence : ℕ) (world t : World) :
    Prop where
  after : After platform held world t
  resolved : t.resolver.resolvedPending ⊆ world.resolver.resolvedPending.erase sequence

lemma Advances.trans {u : World} (h : Advances platform held sequence world t)
    (h' : After platform held t u) : Advances platform held sequence world u :=
  ⟨h.after.trans h',h'.resolved.trans h.resolved⟩

lemma Advances.of_undisturbed {u : World} (h : Undisturbed platform [] held world t)
    (h' : Advances platform held sequence t u) : Advances platform held sequence world u := by
  have hresolved := h'.resolved
  rw [h.resolver] at hresolved
  refine ⟨⟨h'.after.consistent,?_,hresolved.trans (Finset.erase_subset _ _)⟩,hresolved⟩
  rw [← h.resolver]
  exact h'.after.evolves

section

variable (hworld : Consistent platform [] held world)
include hworld

lemma abandonResolved_spec : Meets (abandonResolved platform sequence) world
      (fun _ t=>Advances platform held sequence world t)
      fun fault t=>fault = .error .byteCountOverflow ∧ After platform held world t := by
  refine .bind ((abandonPendingTransaction_spec hworld).mono (fun _ t ht=>?_) fun _ _=>id)
  have hadvances : Advances platform held sequence world t := ⟨ht.after rfl,ht.resolved⟩
  exact (Steady.refreshPendingAccounting.meets ht.consistent).mono
    (fun _ _ hu=>hadvances.trans hu) fun _ _ hu=>⟨hu.1,hadvances.after.trans hu.2⟩

lemma publishReady_spec (hpending : world.resolver.pending[sequence]? = some transaction)
    (hrebuilt : Rebuilt platform transaction.packet value) :
    Meets (publishReady platform sequence transaction value readyBytes) world
      (fun _ t=>Advances platform held sequence world t)
      fun fault t=>fault = .error .byteCountOverflow ∧ After platform held world t := by
  obtain ⟨-,hremoved⟩ := hworld.removed hpending
  have howed := hworld.remove hpending hremoved
  have hnotReady : world.resolver.ready[sequence]? = none := by
    cases hready : world.resolver.ready[sequence]? with
    | none => rfl
    | some item =>
      rw [(hworld.readyBelow hready).2.2] at hpending
      cases hpending
  refine .bind (.bind (.bind (.get (.pure (.bind (.modified (.pure ?_)))))))
  refine .bind (meets_unpinAll howed fun t ht hresolver=>.bind (.modified ?_))
  have hadvances : Advances platform held sequence world { t with resolver := { t.resolver with
      ready := t.resolver.ready.insert sequence ⟨value,transaction.columns,readyBytes,sequence⟩
      readyAccountedBytes := t.resolver.readyAccountedBytes+readyBytes
      retainedColumnSlots := t.resolver.retainedColumnSlots+transaction.columns.length } } := by
    have hresolved : t.resolver.resolvedPending =
        world.resolver.resolvedPending.erase sequence := by
      rw [hresolver]
      exact hremoved.resolved
    refine ⟨⟨hworld.publish hpending hremoved ht hresolver,?_,?_⟩,hresolved.subset⟩
    · rw [hresolver]
      exact hremoved.evolves_publish hpending hnotReady hrebuilt
    · exact hresolved.subset.trans (Finset.erase_subset _ _)
  refine ((Steady.bind .relieveCachedReadyPressure fun _=>.refreshPendingAccounting).meets
    hadvances.after.consistent).mono (fun _ _ hu=>hadvances.trans hu)
    fun _ _ hu=>⟨hu.1,hadvances.after.trans hu.2⟩

lemma Consistent.resident_of_settled (hpending : world.resolver.pending[sequence]? = some transaction)
    (hzero : transaction.unresolvedHashes=0) :
    Resident transaction.hashes (fun hash=>(world.store.body hash).getD []) world := by
  have hunique : ∀ hash ∈ transaction.hashes, hash ∈ transaction.uniqueHashes := by
    intro hash hmem
    rw [(hworld.formed hpending).uniqueHashes,mem_stableUnique]
    exact hmem
  have hheld : ∀ hash ∈ transaction.hashes, sequence ∈ world.resolver.holders hash :=
    fun hash hmem=>BlobCacheResolver.mem_holders.2 ⟨transaction,hpending,hunique hash hmem⟩
  refine ⟨fun hash hmem=>⟨_,hheld hash hmem⟩,fun hash hmem=>?_⟩
  have hnone : sequence ∉ world.resolver.waiting hash := by
    intro hwait
    have hcount := hworld.unresolved hpending
    rw [hzero,eq_comm,length_eq_zero_iff,BlobCacheResolver.waitedHashes, filter_eq_nil_iff] at hcount
    exact hcount hash (hunique hash hmem) (decide_eq_true hwait)
  obtain ⟨payload,hpayload⟩ := Option.isSome_iff_exists.1 (hworld.resident (hheld hash hmem) hnone)
  rw [hpayload]
  rfl

/-- A resolved transaction is rebuilt or given up; neither `expect` fails. -/
lemma movePendingToReady_spec (hmem : sequence ∈ world.resolver.resolvedPending) :
    Meets (movePendingToReady platform sequence) world (fun _ t=>Advances platform held sequence world t)
      fun fault t=>fault = .error .byteCountOverflow ∧ After platform held world t := by
  obtain ⟨transaction,hpending,hzero⟩ := hworld.settled hmem
  have hformed := hworld.formed hpending
  have hresident := hworld.resident_of_settled hpending hzero
  set blob : ℕ → Bytes := fun hash=>(world.store.body hash).getD [] with hblob
  have hcalm : ∀ {t : World}, Undisturbed platform [] held world t → After platform held world t :=
    fun ht=>⟨ht.consistent,by rw [ht.resolver]; exact .refl,by rw [ht.resolver]⟩
  have habandon : ∀ {t : World}, Undisturbed platform [] held world t →
      Meets (abandonResolved platform sequence) t (fun _ u=>Advances platform held sequence world u)
        fun fault u=>fault = .error .byteCountOverflow ∧ After platform held world u := fun ht =>
    (abandonResolved_spec ht.consistent).mono (fun _ _ hu=>.of_undisturbed ht hu)
      fun _ _ hu=>⟨hu.1,(hcalm ht).trans hu.2⟩
  refine .bind (.bind (.get (.pure ?_)))
  rw [hpending]
  dsimp only
  rw [hformed.hashes] at hresident ⊢
  refine .bind ((projectedReconstructionBytes_spec hworld hformed.cached).mono
    (fun projected t ⟨ht,hsome⟩=>?_) fun fault t ⟨hfault,ht⟩=>⟨hfault,hcalm ht⟩)
  obtain ⟨bytes,rfl⟩ := Option.isSome_iff_exists.1 (hsome fun w hw hash hmem=>by
    rw [(hresident.undisturbed hw).body hash hmem]
    rfl)
  refine .ite (fun _=>habandon ht) fun _=>?_
  have hresident' : Resident transaction.hashes blob t := by
    rw [hformed.hashes]
    exact hresident.undisturbed ht
  refine .bind ((reconstruct_spec ht.consistent hformed hresident').mono
    (fun value u ⟨hvalue,hu⟩=>?_) fun fault u ⟨hfault,hu⟩=>⟨hfault,hcalm (ht.trans hu)⟩)
  subst hvalue
  have hrest := ht.trans hu
  refine .bind ((Calm.readyValueAccountedBytes.meets hu.consistent).mono (fun readyBytes v hv=>?_)
    fun fault v ⟨hfault,hv⟩=>⟨hfault,hcalm (hrest.trans hv)⟩)
  refine .bind ((Calm.readyHasRoom.meets hv.consistent).mono (fun room w hw=>?_)
    fun fault w ⟨hfault,hw⟩=>⟨hfault,hcalm (hrest.trans (hv.trans hw))⟩)
  have hall := hrest.trans (hv.trans hw)
  refine .ite (fun _=>?_) fun _=>habandon hall
  have hrebuilt : Rebuilt platform transaction.packet (.packet (transaction.packet.splice blob)) :=
    ⟨blob,fun hash hmem=>hworld.valid (hresident.body hash hmem),rfl⟩
  refine (publishReady_spec hall.consistent ?_ hrebuilt).mono
    (fun _ _ hx=>.of_undisturbed hall hx) fun _ _ hx=>⟨hx.1,(hcalm hall).trans hx.2⟩
  rw [hall.resolver]
  exact hpending

end

end Publishing

section Draining

lemma mem_of_head?_sort {s : Finset ℕ} (h : (s.sort (· ≤ ·)).head? = some sequence) :
    sequence ∈ s := (Finset.mem_sort _).1 (List.mem_of_mem_head? h)

/-- The loop ends with nothing resolved left behind. -/
lemma drainReadyTurns_spec {turns : ℕ} (hworld : Consistent platform [] held world)
    (hturns : world.resolver.resolvedPending.card≤turns) :
    Meets (drainReadyTurns platform turns) world (fun _ t=>After platform held world t ∧ t.resolver.resolvedPending = ∅)
      fun fault t=>fault = .error .byteCountOverflow ∧ After platform held world t := by
  have hdone : ∀ {w : World}, Consistent platform [] held w → w.resolver.resolvedPending = ∅ →
      Meets (refreshPendingAccounting platform) w (fun _ t=>After platform held w t ∧ t.resolver.resolvedPending = ∅)
        fun fault t=>fault = .error .byteCountOverflow ∧ After platform held w t := by
    intro w hw hempty
    refine (Steady.refreshPendingAccounting.meets hw).mono (fun _ t ht=>⟨ht,?_⟩) fun _ _=>id
    exact Finset.subset_empty.1 (hempty ▸ ht.resolved)
  induction turns generalizing world with
  | zero => exact hdone hworld (Finset.card_eq_zero.1 (Nat.le_zero.1 hturns))
  | succ turns ih =>
    refine .bind (.bind (.get (.pure ?_)))
    cases hhead : (world.resolver.resolvedPending.sort (· ≤ ·)).head? with
    | none =>
      refine hdone hworld (Finset.eq_empty_of_forall_notMem fun sequence hmem=>?_)
      rw [List.head?_eq_none_iff] at hhead
      rw [← Finset.mem_sort (· ≤ ·),hhead] at hmem
      exact absurd hmem not_mem_nil
    | some sequence =>
      have hmem := mem_of_head?_sort hhead
      refine .bind ((movePendingToReady_spec hworld hmem).mono (fun _ t ht=>?_) fun _ _=>id)
      refine (ih ht.after.consistent ?_).mono (fun _ _ hu=>⟨ht.after.trans hu.1,hu.2⟩)
        fun _ _ hu=>⟨hu.1,ht.after.trans hu.2⟩
      have hcard := Finset.card_le_card ht.resolved
      rw [Finset.card_erase_of_mem hmem] at hcard
      omega

lemma drainReady_spec (hworld : Consistent platform [] held world) : Meets (drainReady platform) world
      (fun _ t=>After platform held world t ∧ t.resolver.resolvedPending = ∅)
      fun fault t=>fault = .error .byteCountOverflow ∧ After platform held world t :=
  .bind (.bind (.get (.pure (drainReadyTurns_spec hworld le_rfl))))

end Draining

end Cinnabar.BlobCache
