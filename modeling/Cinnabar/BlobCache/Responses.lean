import Cinnabar.BlobCache.Boundaries

/-! # Accepting a miss response -/

namespace Cinnabar.BlobCache

open Std List

variable {platform : Platform} {owed held : List ℕ} {world t : World}

def BlobCacheError.OfStore (error : BlobCacheError) : Prop :=
  error.skipsResponse=true ∨ error = .byteCountOverflow

namespace CacheStore

variable {limits : BlobCacheLimits} {clientBlobHash : Bytes → ℕ} {s : CacheStore} {hash : ℕ}
  {payload : Bytes}

lemma addBytes_error {σ : Type} {a b : ℕ} {w : σ} :
    Meets (addBytes a b : EStateM BlobCacheError σ ℕ) w (fun _ _=>True) fun error _=>error.OfStore :=
  meets_addBytes trivial (Or.inr rfl)

lemma reserveEntry_error : Meets (reserveEntry limits hash) s (fun _ _=>True) fun error _=>error.OfStore :=
  .bind (.get (.ite (fun _=>.bind (.modified (.bind (.get (.ite (fun _=>.throw (Or.inl rfl)) fun _=>.pure trivial)))))
    fun _=>.pure trivial))

lemma pinnedWith_error {w : CacheStore} :
    Meets (s.pinnedWith hash payload) w (fun _ _=>True) fun error _=>error.OfStore :=
  .ite (fun _=>.ite (fun _=>.throw (Or.inl rfl)) fun _=>.pure trivial) fun _=>.pure trivial

lemma insertAbsent_error : Meets (insertAbsent limits hash payload) s (fun _ _=>True) fun error _=>error.OfStore := by
  refine .bind (reserveEntry_error.mono (fun _ _ _=>?_) fun _ _=>id)
  refine .bind (.get (.bind (addBytes_error.mono (fun _ _ _=>?_) fun _ _=>id)))
  exact .bind (pinnedWith_error.mono (fun _ _ _=>.set trivial) fun _ _=>id)

lemma insertShared_error : Meets (insertShared limits hash payload) s (fun _ _=>True) fun error _=>error.OfStore := by
  refine .bind (.get ?_)
  cases s.entries[hash]? with
  | some existing => exact .ite (fun _=>.throw (Or.inl rfl)) fun _=>.pure trivial
  | none => exact insertAbsent_error

variable {unique : List (ℕ × Bytes)}

/-- Every blob is stored; those that are pinned stay until the last one is. -/
lemma insertAll_spec (hvalid : ∀ blob ∈ unique, platform.clientBlobHash blob.2=blob.1) :
    Meets (insertAll platform unique) s (fun _ t=>Settled platform.clientBlobHash s t ∧
        ∀ blob ∈ unique, 0<t.pinCount blob.1 → (t.body blob.1).isSome)
      fun error t=>error.OfStore ∧ Settled platform.clientBlobHash s t := by
  induction unique generalizing s with
  | nil => exact .pure ⟨.refl,fun _ hmem=>absurd hmem not_mem_nil⟩
  | cons first unique ih =>
    have hfirst := hvalid first (.head _)
    refine .bind (((insertShared_spec hfirst).and insertShared_error).mono
      (fun _ t ⟨⟨ht,hbody⟩,_⟩=>?_) fun _ _ h=>⟨h.2,h.1⟩)
    refine (ih fun blob hmem=>hvalid blob (.tail _ hmem)).mono
      (fun _ u ⟨hu,hbodies⟩=>⟨ht.trans hu,fun blob hmem hpins=>?_⟩)
      fun _ _ h=>⟨h.1,ht.trans h.2⟩
    rcases mem_cons.1 hmem with rfl | hmem
    · have hcount : u.pinCount blob.1=t.pinCount blob.1 := by
        rw [pinCount,hu.1]
        rfl
      rw [hu.2.kept (hcount ▸ hpins) hbody]
      rfl
    · exact hbodies blob hmem hpins

lemma validateEntry_spec {delta : Delta} {blob : ℕ × Bytes} : Meets (validateEntry delta blob) s (fun _ t=>t=s)
      fun error t=>error.OfStore ∧ t=s := by
  refine .bind (.get ?_)
  cases s.entries[blob.1]? with
  | some existing => exact .ite (fun _=>.pure rfl) fun _=>.throw ⟨Or.inl rfl,rfl⟩
  | none =>
    refine .bind (meets_addBytes ?_ ⟨Or.inr rfl,rfl⟩)
    exact .ite (fun _=>.ite (fun _=>.throw ⟨Or.inl rfl,rfl⟩) fun _=>.pure rfl) fun _=>.pure rfl

lemma validateEntries_spec {delta : Delta} : Meets (unique.foldlM validateEntry delta) s (fun _ t=>t=s)
      fun error t=>error.OfStore ∧ t=s := by
  induction unique generalizing delta with
  | nil => exact .pure rfl
  | cons first unique ih =>
    refine .bind (validateEntry_spec.mono (fun _ t ht=>?_) fun _ _=>id)
    subst ht
    exact ih

lemma validateDelta_spec : Meets (validateDelta unique) s (fun _ t=>t=s) fun error t=>error.OfStore ∧ t=s := by
  refine .bind (.get (.bind (validateEntries_spec.mono (fun _ t ht=>?_) fun _ _=>id)))
  exact .ite (fun _=>.ite (fun _=>.throw ⟨Or.inl rfl,ht⟩) fun _=>.pure ht) fun _=>.pure ht

lemma publishDelta_spec (hvalid : ∀ blob ∈ unique, platform.clientBlobHash blob.2=blob.1) :
    Meets (publishDelta platform unique) s (fun _ t=>Settled platform.clientBlobHash s t ∧
        ∀ blob ∈ unique, 0<t.pinCount blob.1 → (t.body blob.1).isSome)
      fun error t=>error.OfStore ∧ Settled platform.clientBlobHash s t := by
  refine .bind (validateDelta_spec.mono (fun _ t ht=>?_) fun error t ⟨herror,ht⟩=>?_)
  · subst ht
    exact insertAll_spec hvalid
  · subst ht
    exact ⟨herror,.refl⟩

end CacheStore

section Validating

lemma Calm.solicited {hash : ℕ} : Calm platform owed held (BlobCache.solicited platform hash) := by
  refine .bind .readResolver fun resolver=>.ite .pure ?_
  refine ⟨fun hworld=>.bind (meets_lock hworld fun w hw=>.get (.pure ?_))⟩
  exact hw

variable {validated : Validated}

/-- A blob that is kept has the digest it was sent under. -/
lemma validateBlob_spec {blob : ℕ × Bytes} (hworld : Consistent platform owed held world)
    (hvalid : ∀ earlier ∈ validated.unique, platform.clientBlobHash earlier.2=earlier.1) :
    Meets (validateBlob platform validated blob) world (fun validated' t=>Undisturbed platform owed held world t ∧
        ∀ earlier ∈ validated'.unique, platform.clientBlobHash earlier.2=earlier.1)
      fun fault t=>(∃ error : BlobCacheError, fault = .error error ∧ error.OfStore) ∧
        Undisturbed platform owed held world t := by
  refine .bind ((Calm.solicited.meets hworld).mono (fun wanted t ht=>?_)
    fun fault t ⟨hfault,ht⟩=>⟨⟨_,hfault,Or.inr rfl⟩,ht⟩)
  refine .ite (fun _=>?_) fun _=>.pure ⟨ht,hvalid⟩
  split
  · exact .ite (fun _=>.pure ⟨ht,hvalid⟩) fun _=>.throw ⟨⟨_,rfl,Or.inl rfl⟩,ht⟩
  · refine .ite (fun hdigest=>.pure ⟨ht,fun earlier hmem=>?_⟩) fun _=>.throw ⟨⟨_,rfl,Or.inl rfl⟩,ht⟩
    rcases mem_append.1 hmem with hmem | hmem
    · exact hvalid earlier hmem
    · rw [mem_singleton.1 hmem]
      exact hdigest

lemma validateBlobs_spec {response : List (ℕ × Bytes)} (hworld : Consistent platform owed held world)
    (hvalid : ∀ earlier ∈ validated.unique, platform.clientBlobHash earlier.2=earlier.1) :
    Meets (response.foldlM (validateBlob platform) validated) world
      (fun validated' t=>Undisturbed platform owed held world t ∧
        ∀ earlier ∈ validated'.unique, platform.clientBlobHash earlier.2=earlier.1)
      fun fault t=>(∃ error : BlobCacheError, fault = .error error ∧ error.OfStore) ∧
        Undisturbed platform owed held world t := by
  induction response generalizing validated world with
  | nil => exact .pure ⟨.refl hworld,hvalid⟩
  | cons first response ih =>
    refine .bind ((validateBlob_spec hworld hvalid).mono (fun _ t ⟨ht,hvalid'⟩=>?_) fun _ _=>id)
    exact (ih ht.consistent hvalid').mono (fun _ _ hu=>⟨ht.trans hu.1,hu.2⟩) fun _ _ hu=>⟨hu.1,ht.trans hu.2⟩

end Validating

section Staging

lemma After.stage (h : After platform held world t) (additions : List (ℕ × ℕ)) : After platform held world
      { t with resolver := additions.foldl BlobCacheResolver.stage t.resolver } := by
  induction additions generalizing t with
  | nil => exact h
  | cons first additions ih =>
    have hstep : After platform held world { t with resolver := t.resolver.stage first } := by
      unfold BlobCacheResolver.stage
      cases hpending : t.resolver.pending[first.1]? with
      | none => exact h
      | some transaction =>
        have hagrees : PendingTransaction.Agrees { transaction with
            stagedBytes := saturatingAdd transaction.stagedBytes first.2 } transaction :=
          ⟨rfl,rfl,rfl,rfl,rfl⟩
        exact h.trans ⟨h.consistent.amend hpending hagrees,.amend hpending hagrees,subset_rfl⟩
    exact ih hstep

lemma Steady.stageResponse {unique : List (ℕ × Bytes)} :
    Steady platform held (BlobCache.stageResponse platform unique) := by
  refine .bind .readResolver fun resolver=>.bind (.abandonAll _) fun _=>?_
  exact ⟨fun hworld=>.modified (After.stage (.refl hworld) _)⟩

end Staging

section Responding

/-- How a response is rejected: skipped before anything settled, or for a byte count. -/
inductive Rejected (platform : Platform) (world : World) (fault : Fault) (t : World) : Prop
  | skipped {error : BlobCacheError} (hfault : fault = .error error)
      (hskips : error.skipsResponse=true) (hafter : After platform [] world t)
  | overflow (hfault : fault = .error .byteCountOverflow) (hconsistent : Consistent platform [] [] t)

lemma Rejected.of_store {error : BlobCacheError} {fault : Fault} (hfault : fault = .error error)
    (herror : error.OfStore) (h : After platform [] world t) : Rejected platform world fault t := by
  rcases herror with hskips | rfl
  · exact .skipped hfault hskips h
  · exact .overflow hfault h.consistent

lemma Undisturbed.after (h : Undisturbed platform [] held world t) :
    After platform held world t :=
  ⟨h.consistent,by rw [h.resolver]; exact .refl,by rw [h.resolver]⟩

lemma Drained.forget (h : Drained platform held world t) : Drained platform [] world t :=
  ⟨h.consistent.forget,h.evolves,h.resolved⟩

lemma publish_spec {unique : List (ℕ × Bytes)} (hworld : Consistent platform [] [] world)
    (hvalid : ∀ blob ∈ unique, platform.clientBlobHash blob.2=blob.1) :
    Meets (lock platform (publishDelta platform unique)) world
      (fun _ t=>Consistent platform [] (unique.map Prod.fst) t ∧ After platform [] world t)
      fun fault t=>(∃ error : BlobCacheError, fault = .error error ∧ error.OfStore) ∧
        After platform [] world t := by
  refine meets_lock hworld fun w hw=>(CacheStore.publishDelta_spec hvalid).mono
    (fun _ s ⟨hs,hbodies⟩=>?_) fun error s ⟨herror,hs⟩=>?_
  · have ht : Undisturbed platform [] [] w { w with store := s } := .of_settled hw.consistent rfl rfl hs
    refine ⟨{ ht.consistent with promised := fun {hash} hmem hpins=>?_ },(hw.trans ht).after⟩
    obtain ⟨blob,hblob,rfl⟩ := mem_map.1 hmem
    rcases hpins with howed | ⟨sequence,hwait⟩
    · exact absurd howed not_mem_nil
    · exact hbodies blob hblob (ht.consistent.pinCount_pos (ht.consistent.indexed hwait))
  · have ht : Undisturbed platform [] [] w { w with store := s } := .of_settled hw.consistent rfl rfl hs
    exact ⟨⟨error,rfl,herror⟩,(hw.trans ht).after⟩

variable {response : List (ℕ × Bytes)}

lemma acceptMissResponseInner_spec (hworld : Consistent platform [] [] world) :
    Meets (acceptMissResponseInner platform response) world
      (fun _ t=>Drained platform [] world t) (Rejected platform world) := by
  refine .bind ((validateBlobs_spec hworld fun _ hmem=>absurd hmem not_mem_nil).mono (fun validated t ⟨ht,hvalid⟩=>?_)
    fun fault t ⟨⟨error,hfault,herror⟩,ht⟩=>.of_store hfault herror ht.after)
  have hpublish : ∀ unique : List (ℕ × Bytes), (∀ blob ∈ unique, platform.clientBlobHash blob.2=blob.1) → Meets (do
          stageResponse platform unique
          lock platform (publishDelta platform unique)
          resolveHashes platform (unique.map Prod.fst)
          refreshPendingAccounting platform) t
        (fun _ u=>Drained platform [] world u) (Rejected platform world) := by
    intro unique hunique
    refine .bind ((Steady.stageResponse.meets ht.consistent).mono (fun _ u hu=>?_)
      fun fault u ⟨hfault,hu⟩=>.overflow hfault hu.consistent)
    have hstaged := ht.after.trans hu
    refine .bind ((publish_spec hu.consistent hunique).mono (fun _ v ⟨hheld,hv⟩=>?_)
      fun fault v ⟨⟨error,hfault,herror⟩,hv⟩=>.of_store hfault herror (hstaged.trans hv))
    refine .bind ((resolveHashes_spec hheld fun _=>id).mono (fun _ w hw=>?_)
      fun fault w ⟨hfault,hw,_⟩=>.overflow hfault hw.forget)
    refine (Steady.refreshPendingAccounting.meets hw.forget.consistent).mono (fun _ x hx=>?_)
      fun fault x ⟨hfault,hx⟩=>.overflow hfault hx.consistent
    exact (Drained.of_after (hstaged.trans hv)).trans (hw.forget.trans (.of_after hx))
  split
  · exact .throw (.skipped rfl rfl ht.after)
  · exact hpublish _ hvalid

lemma Steady.recoverSkippedMissResponse {hashes : List ℕ} :
    Steady platform held (BlobCache.recoverSkippedMissResponse platform hashes) :=
  .bind .readResolver fun _=>.bind (.abandonAll _) fun _ =>
    .bind .refreshPendingAccounting fun _=>.pure

/-- What an error leaves: a consistent world, and lanes that lost work at most. -/
inductive Interrupted (platform : Platform) (world t : World) : Prop
  | kept (h : Drained platform [] world t)
  | cleared (h : Consistent platform [] [] t) (hreset : t.resolver = .reset)

lemma acceptMissResponse_spec (hworld : Consistent platform [] [] world) :
    Meets (acceptMissResponse platform response) world (fun _ t=>Drained platform [] world t)
      fun fault t=>fault = .error .byteCountOverflow ∧ Interrupted platform world t := by
  have hinner : Meets (acceptMissResponseInner platform response) world _ _ := acceptMissResponseInner_spec hworld
  unfold Meets acceptMissResponse
  by_cases hempty : response = []
  · rw [if_pos hempty]
    exact .of_after (.refl hworld)
  rw [if_neg hempty]
  unfold Meets at hinner
  cases hrun : acceptMissResponseInner platform response world with
  | ok value t =>
    rw [hrun] at hinner
    exact hinner
  | error fault t =>
    rw [hrun] at hinner
    change Meets (recoverResponse platform (response.map Prod.fst) fault) t _ _
    cases hinner with
    | skipped hfault hskips hafter =>
      rw [hfault]
      refine .ite (fun _=>?_) fun h=>absurd hskips h
      exact (Steady.recoverSkippedMissResponse.meets hafter.consistent).mono (fun _ u hu=>.of_after (hafter.trans hu))
        fun _ u hu=>⟨hu.1,.kept (.of_after (hafter.trans hu.2))⟩
    | overflow hfault hconsistent =>
      rw [hfault]
      exact .bind ((resetPending_spec hconsistent).mono
        (fun _ u ⟨hu,hreset⟩=>.throw ⟨rfl,.cleared hu hreset⟩) fun _ _=>False.elim)

end Responding

end Cinnabar.BlobCache
