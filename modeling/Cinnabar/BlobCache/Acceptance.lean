import Cinnabar.BlobCache.Admission

/-! # Offering a cached packet -/

namespace Cinnabar.BlobCache

open Std List

variable {platform : Platform} {owed held : List ℕ} {world t : World} {r : BlobCacheResolver}
  {packet : PendingPacket} {status : BlobCacheStatus}

inductive Offered (platform : Platform) (packet : PendingPacket) (status : BlobCacheStatus)
    (r t : BlobCacheResolver) : Prop
  | skipped (hevolves : Evolves platform status.recovery.toList r t) (haccepted : status.accepted=false)
      (hrecovered : ∀ chunk, packet = .levelChunk chunk → Recovered status.recovery.toList t packet)
  | admitted {before admitted : BlobCacheResolver} {transaction : PendingTransaction}
      {indexed : List ℕ} {handed handed' : List ChunkResyncEvent}
      (hbefore : Evolves platform handed r before)
      (hadmitted : Admitted before transaction indexed admitted)
      (hpacket : transaction.packet=packet)
      (hcolumns : transaction.columns=pendingPacketColumns packet)
      (hafter : Evolves platform handed' admitted t)
      (hhanded : status.recovery.toList=handed++handed')
      (haccepted : status.accepted=true → (t.pending[before.nextReadySequence]?).isSome ∨
        (t.ready[before.nextReadySequence]?).isSome)

section Requeueing

variable {s : BlobCacheResolver} {event : ChunkResyncEvent}

lemma Recovered.requeue (hrecovered : Recovered [event] s packet) (hformed : s.QueueFormed)
    (hplain : event.requestedSubChunks=none) :
    Recovered [] (s.enqueueRecovery event) packet := by
  obtain ⟨-,hqueues⟩ := queues_enqueueRecovery hformed hplain
  intro need hneed
  rcases hrecovered need hneed with ⟨found,hmem,hcovers⟩ | h
  · rw [mem_singleton] at hmem
    subst hmem
    exact Or.inr (hqueues need (Or.inr hcovers))
  · exact Or.inr (hqueues need (Or.inl h))

/-- A resync that was to be handed out is queued instead. -/
lemma Evolves.requeue (h : Evolves platform [event] r s) (hformed : s.QueueFormed)
    (hplain : event.requestedSubChunks=none) :
    Evolves platform [] r (s.enqueueRecovery event) where
  next := h.next
  pending hsome := h.pending hsome
  ready hsome := h.ready hsome
  immediate hsome := h.immediate hsome
  keptPending hsome := by
    rcases h.keptPending hsome with hlater | hready | hrecovered
    · exact Or.inl hlater
    · exact Or.inr (Or.inl hready)
    · exact Or.inr (Or.inr (hrecovered.requeue hformed hplain))
  keptReady hsome := (h.keptReady hsome).imp id fun hrecovered packet hrebuilt =>
    (hrecovered packet hrebuilt).requeue hformed hplain
  queued hqueues := by
    obtain ⟨-,henqueue⟩ := queues_enqueueRecovery hformed hplain
    rcases h.queued hqueues with ⟨found,hmem,hcovers⟩ | hqueues
    · rw [mem_singleton] at hmem
      subst hmem
      exact Or.inr (henqueue _ (Or.inr hcovers))
    · exact Or.inr (henqueue _ (Or.inl hqueues))
  stuck hstuck := h.stuck hstuck

lemma Consistent.enqueueRecovery (h : Consistent platform owed held world) (hplain : event.requestedSubChunks=none) :
    Consistent platform owed held
      { world with resolver := world.resolver.enqueueRecovery event } := by
  have hevents : ∀ found ∈ [event], found.requestedSubChunks=none := fun _ hmem=>by
    rw [mem_singleton.1 hmem]
    exact hplain
  exact h.enqueueRecoveries hevents

lemma mergeStatusRecovery_spec {recovery : Option ChunkResyncEvent} (hworld : Consistent platform [] held world)
    (hevolves : Evolves platform recovery.toList r world.resolver)
    (hplain : ∀ event ∈ recovery.toList, event.requestedSubChunks=none) :
    Meets (mergeStatusRecovery status recovery) world
      (fun status' t=>Consistent platform [] held t ∧ status'.accepted=status.accepted ∧
        t.resolver.resolvedPending=world.resolver.resolvedPending ∧
        t.resolver.pending=world.resolver.pending ∧
        ∃ handed, status'.recovery.toList=status.recovery.toList++handed ∧ Evolves platform handed r t.resolver ∧
          ∀ packet, Recovered recovery.toList world.resolver packet → Recovered handed t.resolver packet)
      fun _ _=>False := by
  unfold mergeStatusRecovery
  cases hstatus : status.recovery with
  | none =>
    exact .pure ⟨hworld,rfl,rfl,rfl,recovery.toList,by rw [Option.toList_none]; rfl, hevolves,fun _=>id⟩
  | some first =>
    cases recovery with
    | none =>
      exact .pure ⟨hworld,rfl,rfl,rfl,[],by rw [hstatus]; rfl,hevolves,fun _=>id⟩
    | some event =>
      have hnone := hplain event (mem_singleton_self _)
      refine .bind (.modified (.pure ⟨hworld.enqueueRecovery hnone,rfl,rfl,rfl,[],?_,?_,fun packet hrecovered=>?_⟩))
      · rw [hstatus]
        rfl
      · exact hevolves.requeue hworld.queueFormed hnone
      · exact hrecovered.requeue hworld.queueFormed hnone

end Requeueing

section Widening

variable {s : BlobCacheResolver} {handed handed' : List ChunkResyncEvent}

lemma Recovered.widen (h : Recovered handed s packet) (hsubset : handed ⊆ handed') :
    Recovered handed' s packet := fun need hneed =>
  (h need hneed).imp (fun ⟨event,hmem,hcovers⟩=>⟨event,hsubset hmem,hcovers⟩) id

/-- Handing out more requests than needed harms nothing. -/
lemma Evolves.widen (h : Evolves platform handed r s) (hsubset : handed ⊆ handed') :
    Evolves platform handed' r s :=
  { h with
    keptPending := fun hsome=>by
      rcases h.keptPending hsome with hlater | hready | hrecovered
      · exact Or.inl hlater
      · exact Or.inr (Or.inl hready)
      · exact Or.inr (Or.inr (hrecovered.widen hsubset))
    keptReady := fun hsome=>(h.keptReady hsome).imp id fun hrecovered packet hrebuilt =>
      (hrecovered packet hrebuilt).widen hsubset
    queued := fun hneed=>(h.queued hneed).imp (fun ⟨event,hmem,hcovers⟩=>⟨event,hsubset hmem,hcovers⟩) id }

end Widening

section Skipping

/-- The resolver has only given up work since the start, for these requests. -/
structure Rotated (platform : Platform) (handed : List ChunkResyncEvent) (start world : World) :
    Prop where
  evolves : Evolves platform handed start.resolver world.resolver
  resolved : world.resolver.resolvedPending ⊆ start.resolver.resolvedPending

namespace Rotated

variable {handed : List ChunkResyncEvent} {start : World}

lemma refl : Rotated platform [] world world := ⟨.refl,subset_rfl⟩

lemma undisturbed (h : Rotated platform handed start world)
    (ht : Undisturbed platform owed held world t) : Rotated platform handed start t := by
  refine ⟨?_,?_⟩
  · rw [ht.resolver]
    exact h.evolves
  · rw [ht.resolver]
    exact h.resolved

lemma after (h : Rotated platform handed start world) (ht : After platform held world t) :
    Rotated platform handed start t :=
  ⟨by simpa using h.evolves.trans ht.evolves,ht.resolved.trans h.resolved⟩

end Rotated

structure Accepted (platform : Platform) (packet : PendingPacket) (status : BlobCacheStatus)
    (start t : World) : Prop where
  consistent : Consistent platform [] [] t
  offered : Offered platform packet status start.resolver t.resolver
  resolved : start.resolver.resolvedPending = ∅ → t.resolver.resolvedPending = ∅
  stuck : ∀ {sequence : ℕ}, t.resolver.Stuck sequence → start.resolver.Stuck sequence

lemma Accepted.of_skipped {start : World} (hconsistent : Consistent platform [] [] t)
    (h : Rotated platform status.recovery.toList start t) (haccepted : status.accepted=false)
    (hrecovered : ∀ chunk, packet = .levelChunk chunk → Recovered status.recovery.toList t.resolver packet) :
    Accepted platform packet status start t :=
  ⟨hconsistent,.skipped h.evolves haccepted hrecovered,
    fun hempty=>Finset.subset_empty.1 (hempty ▸ h.resolved),h.evolves.stuck⟩

lemma unadmitted_recovered {chunk : LevelChunk} {s : BlobCacheResolver} :
    Recovered (unadmittedPacketRecovery (.levelChunk chunk)).head?.toList s
      (.levelChunk chunk) := by
  rintro need rfl
  exact Or.inl ⟨chunk.resync,mem_singleton_self _,rfl,rfl⟩

lemma unadmittedPacketRecovery_tail : (unadmittedPacketRecovery packet).tail = [] := by
  cases packet <;> rfl

variable {start : World} {recovery : Option ChunkResyncEvent}

/-- A skipped chunk is requested by the status itself. -/
lemma skipUnadmitted_spec (hworld : Consistent platform [] [] world) (h : Rotated platform [] start world) :
    Meets (skipUnadmitted platform packet) world
      (fun status t=>Accepted platform packet status start t) fun _ _=>False := by
  refine .bind (.bind (.modified (.pure ?_)))
  have hresolver : world.resolver.enqueueRecoveries (unadmittedPacketRecovery packet).tail =
      world.resolver := by
    rw [unadmittedPacketRecovery_tail]
    rfl
  dsimp only
  rw [hresolver]
  refine (classifyStatus_spec hworld).mono (fun status t ⟨hrecovery,haccepted,_,_,ht⟩=>?_) fun _ _=>id
  have hrotated := h.undisturbed ht
  refine .of_skipped ht.consistent ⟨hrotated.evolves.widen (nil_subset _), hrotated.resolved⟩ haccepted ?_
  rintro chunk rfl
  rw [hrecovery]
  exact unadmitted_recovered

lemma skipRotated_spec (hworld : Consistent platform [] [] world) (h : Rotated platform recovery.toList start world) :
    Meets (skipRotated platform packet recovery) world (fun status t=>Accepted platform packet status start t)
      fun fault t=>fault = .error .byteCountOverflow ∧ Consistent platform [] [] t := by
  have hplain : ∀ event ∈ unadmittedPacketRecovery packet, event.requestedSubChunks=none :=
    fun _=>unadmittedPacketRecovery_plain
  have hqueue : Meets (enqueueRecoveries (unadmittedPacketRecovery packet)) world (fun _ w=>w.resolver =
        world.resolver.enqueueRecoveries (unadmittedPacketRecovery packet)) fun _ _=>True :=
    .modified rfl
  refine .bind ((((Steady.enqueueRecoveries hplain).meets hworld).and hqueue).mono
    (fun _ w ⟨hw,hresolver⟩=>?_) fun _ w hw=>⟨hw.1.1,hw.1.2.consistent⟩)
  refine .bind ((Steady.refreshPendingAccounting.meets hw.consistent).mono (fun _ u hu=>?_)
    fun _ u hu=>⟨hu.1,hu.2.consistent⟩)
  refine (classifyStatus_spec hu.consistent).mono (fun status t ⟨hrecovery,haccepted,_,_,ht⟩=>?_) fun _ _=>False.elim
  refine .of_skipped ht.consistent ?_ haccepted ?_
  · rw [hrecovery]
    exact ((h.after hw).after hu).undisturbed ht
  · rintro chunk rfl need hneed
    obtain ⟨-,hqueues⟩ := queues_enqueueRecoveries hworld.queueFormed hplain
    have hqueued : w.resolver.Queues need := by
      rw [hresolver]
      exact hqueues need (Or.inr ⟨chunk.resync,mem_singleton_self _,hneed ▸ ⟨rfl,rfl⟩⟩)
    refine Or.inr ?_
    rw [ht.resolver]
    rcases hu.evolves.queued hqueued with ⟨event,hmem,-⟩ | hqueues
    · exact absurd hmem not_mem_nil
    · exact hqueues

/-- One whose resident blobs are too large releases its pins. -/
lemma skipStaged_spec (hworld : Consistent platform (stableUnique packet.referencedBlobHashes) held world)
    (h : Rotated platform status.recovery.toList start world)
    (haccepted : status.accepted=false) :
    Meets (skipStaged platform packet (stableUnique packet.referencedBlobHashes) status) world
      (fun status t=>Accepted platform packet status start t)
      fun fault t=>fault = .error .byteCountOverflow ∧ Consistent platform [] [] t := by
  have howed : Consistent platform (stableUnique packet.referencedBlobHashes ++ []) held world := by
    rw [append_nil]
    exact hworld
  refine .bind (meets_unpinAll howed fun w hw hresolver=>?_)
  refine .bind (.bind (.modified (.pure ?_)))
  have htail : w.resolver.enqueueRecoveries (unadmittedPacketRecovery packet).tail =
      w.resolver := by
    rw [unadmittedPacketRecovery_tail]
    rfl
  dsimp only
  rw [htail]
  have hplain : ∀ event ∈ (unadmittedPacketRecovery packet).head?.toList, event.requestedSubChunks=none := by
    intro event hmem
    have hevent : event ∈ unadmittedPacketRecovery packet := List.mem_of_mem_head? (Option.mem_toList.1 hmem)
    exact unadmittedPacketRecovery_plain hevent
  have hunpinned : Evolves platform (unadmittedPacketRecovery packet).head?.toList
      world.resolver w.resolver := by
    rw [hresolver]
    exact Evolves.refl.widen (nil_subset _)
  refine .bind ((mergeStatusRecovery_spec hw hunpinned hplain).mono
    (fun status' u ⟨hu,haccepted',hresolved,_,handed,hhanded,hevolves,hmerged⟩ => ?_)
    fun _ _=>False.elim)
  refine .bind ((Steady.refreshPendingAccounting.meets hu).mono (fun _ t ht=>.pure ?_)
    fun _ t ht=>⟨ht.1,ht.2.consistent.forget⟩)
  have hrotated : Rotated platform status'.recovery.toList start u := by
    refine ⟨?_,?_⟩
    · rw [hhanded]
      exact h.evolves.trans hevolves
    · rw [hresolved,hresolver]
      exact h.resolved
  refine .of_skipped ht.consistent.forget (hrotated.after ht) (haccepted'.trans haccepted) ?_
  rintro chunk rfl
  have hrecovered := ht.evolves.recovered (hmerged _ unadmitted_recovered)
  rw [append_nil] at hrecovered
  rw [hhanded]
  exact hrecovered.widen (subset_append_right _ _)

end Skipping

section Retaining

variable {start : World} {before admitted : BlobCacheResolver} {transaction : PendingTransaction}
  {indexed : List ℕ}

/-- A new transaction was admitted, and nothing but given up since. -/
structure Retained (platform : Platform) (status : BlobCacheStatus)
    (transaction : PendingTransaction) (indexed : List ℕ) (start : World) (before admitted : BlobCacheResolver) (world : World) :
    Prop where
  given : Evolves platform status.recovery.toList start.resolver before
  marked : before.resolvedPending ⊆ start.resolver.resolvedPending
  entered : Admitted before transaction indexed admitted
  count : transaction.unresolvedHashes=indexed.length
  columns : transaction.columns=pendingPacketColumns transaction.packet
  consistent : Consistent platform [] [] world
  evolves : Evolves platform [] admitted world.resolver
  resolved : world.resolver.resolvedPending ⊆ admitted.resolvedPending
  stays : Stays (· = before.nextReadySequence) admitted world.resolver

namespace Retained

section

variable (h : Retained platform status transaction indexed start before admitted world)
include h

lemma after (ht : After platform [] world t) (hstays : Stays (· = before.nextReadySequence) world.resolver t.resolver) :
    Retained platform status transaction indexed start before admitted t :=
  { h with
    consistent := ht.consistent
    evolves := h.evolves.trans ht.evolves
    resolved := ht.resolved.trans h.resolved
    stays := h.stays.trans hstays }

lemma pending : ∃ later : PendingTransaction,
      world.resolver.pending[before.nextReadySequence]? = some later ∧ later.Agrees transaction :=
  h.stays.later rfl h.entered.lookup_self

lemma empty (hempty : start.resolver.resolvedPending = ∅) : world.resolver.resolvedPending = ∅ := by
  have hbefore : before.resolvedPending = ∅ := Finset.subset_empty.1 (hempty ▸ h.marked)
  have hadmitted := h.entered.resolved.trans hbefore
  exact Finset.subset_empty.1 (hadmitted ▸ h.resolved)

lemma stuck {sequence : ℕ} (hne : sequence≠before.nextReadySequence)
    (hstuck : admitted.Stuck sequence) : start.resolver.Stuck sequence := by
  obtain ⟨hmem,found,hsome,hzero⟩ := hstuck
  rw [h.entered.lookup_of hne] at hsome
  rw [h.entered.resolved] at hmem
  exact h.given.stuck ⟨hmem,found,hsome,hzero⟩

end

end Retained

/-- Dropping the new transaction again hands its needs out with those before it. -/
lemma skipPending_spec (h : Retained platform status transaction indexed start before admitted world)
    (haccepted : status.accepted=false) :
    Meets (skipPending platform before.nextReadySequence status) world
      (fun status t=>Accepted platform transaction.packet status start t)
      fun fault t=>fault = .error .byteCountOverflow ∧ Consistent platform [] [] t := by
  refine .bind ((abandonPendingTransactionWithRecovery_spec h.consistent).mono
    (fun recovery w ⟨_,hw⟩=>?_) fun _ w hw=>⟨hw.1,hw.2.consistent⟩)
  have hevolves : Evolves platform recovery.toList admitted w.resolver := by
    simpa using h.evolves.trans hw.evolves
  refine .bind ((mergeStatusRecovery_spec hw.consistent hevolves hw.plain).mono
    (fun status' u ⟨hu,haccepted',hresolved,hpending,handed,hhanded,hmerged,_⟩ => ?_)
    fun _ _=>False.elim)
  refine .bind ((Steady.refreshPendingAccounting.meets hu).mono (fun _ t ht=>.pure ?_)
    fun _ t ht=>⟨ht.1,ht.2.consistent⟩)
  have hafter : Evolves platform handed admitted t.resolver := by
    simpa using hmerged.trans ht.evolves
  have hnotAccepted := haccepted'.trans haccepted
  refine ⟨ht.consistent,?_,fun hempty=>?_,fun {sequence} hstuck=>?_⟩
  · refine .admitted h.given h.entered rfl h.columns hafter hhanded fun haccepted=>?_
    rw [hnotAccepted] at haccepted
    cases haccepted
  · have hsubset := ht.resolved
    rw [hresolved] at hsubset
    have hshrunk := hsubset.trans (hw.resolved.trans (Finset.erase_subset _ _))
    rw [h.empty hempty] at hshrunk
    exact Finset.subset_empty.1 hshrunk
  · refine h.stuck ?_ (hafter.stuck hstuck)
    rintro rfl
    obtain ⟨-,found,hsome,-⟩ := hstuck
    obtain ⟨earlier,hearlier,-⟩ := ht.evolves.pending hsome
    rw [hpending,hw.gone] at hearlier
    cases hearlier

lemma Consistent.resolve {sequence : ℕ} {found : PendingTransaction} (h : Consistent platform owed held world)
    (hpending : world.resolver.pending[sequence]? = some found)
    (hzero : found.unresolvedHashes=0) :
    Consistent platform owed held { world with resolver := { world.resolver with
      resolvedPending := insert sequence world.resolver.resolvedPending } } :=
  { h with
    settled := fun hmem=>by
      rcases Finset.mem_insert.1 hmem with rfl | hmem
      · exact ⟨found,hpending,hzero⟩
      · exact h.settled hmem }

/-- A new transaction that waits for nothing is rebuilt or given up at once. -/
lemma resolveAdmitted_spec (h : Retained platform status transaction indexed start before admitted world) :
    Meets (resolveAdmitted platform before.nextReadySequence indexed.length) world
      (fun _ t=>Consistent platform [] [] t ∧ Evolves platform [] admitted t.resolver ∧
        (start.resolver.resolvedPending = ∅ → t.resolver.resolvedPending = ∅) ∧
        ∀ {sequence : ℕ}, t.resolver.Stuck sequence → start.resolver.Stuck sequence)
      fun fault t=>fault = .error .byteCountOverflow ∧ Consistent platform [] [] t := by
  obtain ⟨later,hlater,hagrees⟩ := h.pending
  have hcount : later.unresolvedHashes=indexed.length := hagrees.unresolvedHashes.trans h.count
  refine .ite (fun hzero=>.bind (.modified ?_)) fun hzero=>.pure ⟨h.consistent,h.evolves,
    h.empty,fun {sequence} hstuck=>?_⟩
  · have hresolve := h.consistent.resolve hlater (hcount.trans hzero)
    refine (drainReady_spec hresolve).mono (fun _ t ⟨ht,hempty⟩=>?_) fun fault t ⟨hfault,ht⟩=>⟨hfault,ht.consistent⟩
    have hmarked : Evolves platform [] world.resolver { world.resolver with
        resolvedPending := insert before.nextReadySequence world.resolver.resolvedPending } :=
      { Evolves.refl with
        stuck := fun {sequence} hstuck =>
          ⟨fun hmem=>hstuck.1 (Finset.mem_insert_of_mem hmem),hstuck.2⟩ }
    have hevolves := (h.evolves.trans hmarked).trans ht.evolves
    refine ⟨ht.consistent,hevolves,fun _=>hempty,fun {sequence} hstuck=>?_⟩
    refine h.stuck ?_ (hevolves.stuck hstuck)
    rintro rfl
    exact (ht.evolves.stuck hstuck).1 (Finset.mem_insert_self _ _)
  · refine h.stuck ?_ (h.evolves.stuck hstuck)
    rintro rfl
    obtain ⟨-,found,hsome,hnone⟩ := hstuck
    rw [hlater] at hsome
    cases hsome
    exact hzero (hcount.symm.trans hnone)

lemma admittedStatus_spec {sequence : ℕ} {admission : Option SubChunkReplyAdmissionEvent} :
    Meets (admittedStatus sequence admission status) world (fun status' t=>t=world ∧ status'.recovery=status.recovery ∧
        (status'.accepted=true → (world.resolver.pending[sequence]?).isSome ∨ (world.resolver.ready[sequence]?).isSome))
      fun _ _=>False := by
  refine .bind (.bind (.get (.pure (.pure ⟨rfl,rfl,fun haccepted=>?_⟩))))
  rw [Bool.or_eq_true,TreeMap.contains_eq_isSome_getElem?, TreeMap.contains_eq_isSome_getElem?] at haccepted
  exact haccepted

lemma retainTransaction_spec {accountedBytes : ℕ}
    (hworld : Consistent platform (stableUnique packet.referencedBlobHashes) status.have_ world)
    (h : Rotated platform status.recovery.toList start world)
    (hfiled : Filed packet.referencedBlobHashes status)
    (hcached : ∀ {reply}, packet = .subChunk reply → reply.cacheEnabled=true)
    (haccepted : status.accepted=false) :
    Meets (retainTransaction platform packet packet.referencedBlobHashes
        (stableUnique packet.referencedBlobHashes) accountedBytes status) world
      (fun status t=>Accepted platform packet status start t)
      fun fault t=>fault = .error .byteCountOverflow ∧ Consistent platform [] [] t := by
  refine .bind ((Calm.containerBytes.meets hworld).mono (fun capacity w hw=>?_)
    fun _ w hw=>⟨hw.1,hw.2.consistent.forget⟩)
  refine .bind ((Calm.addCounted.meets hw.consistent).mono (fun accounted u hu=>?_)
    fun _ u hu=>⟨hu.1,hu.2.consistent.forget⟩)
  have hrotated := (h.undisturbed hw).undisturbed hu
  refine .bind (.bind (.bind (.get (.pure (.ite (fun _=>.bind (.modified (.pure ?_)))
    fun _=>.throw ⟨rfl,hu.consistent.forget⟩)))))
  refine .bind (.modified ?_)
  set transaction : PendingTransaction :=
    { packet := packet
      hashes := packet.referencedBlobHashes
      uniqueHashes := stableUnique packet.referencedBlobHashes
      ownedHashes := status.missing
      unresolvedHashes := status.missing.length+status.outstanding.length
      stagedBytes := status.stagedBytes
      columns := pendingPacketColumns packet
      accountedBytes := accounted } with htransaction
  have hadmitted := admitted_admitTransaction u.resolver transaction (status.missing++status.outstanding)
  set admitted := ({ u.resolver with
    nextReadySequence := u.resolver.nextReadySequence+1 } :
      BlobCacheResolver).admitTransaction u.resolver.nextReadySequence transaction
    (status.missing++status.outstanding) with hadmittedDef
  have hcount : transaction.unresolvedHashes = (status.missing++status.outstanding).length := length_append.symm
  have hretained : Retained platform status transaction (status.missing++status.outstanding)
      start u.resolver admitted { u with resolver := admitted } := {
    given := hrotated.evolves
    marked := hrotated.resolved
    entered := hadmitted
    count := hcount
    columns := rfl
    consistent := hu.consistent.admit hadmitted ⟨rfl,rfl,rfl,hcached⟩ rfl hfiled.subset hfiled.nodup hfiled.filed hcount
    evolves := .refl
    resolved := subset_rfl
    stays := .of_pending rfl }
  have hlast : ∀ {other : ℕ} {item : ReadyItem}, admitted.ready[other]? = some item →
      item.sequence<u.resolver.nextReadySequence := by
    intro other item hsome
    rw [hadmitted.ready] at hsome
    obtain ⟨heq,hlt,-⟩ := hu.consistent.readyBelow hsome
    rw [heq]
    exact hlt
  refine .bind (((Steady.relieveCachedReadyPressure.meets hretained.consistent).and
    (relieveCachedReadyPressure_spares hlast)).mono (fun _ v ⟨hv,hstays⟩=>?_)
    fun _ v hv=>⟨hv.1.1,hv.1.2.consistent⟩)
  have hrelieved := hretained.after hv hstays
  have hspares : Spares (· = u.resolver.nextReadySequence) (refreshPendingAccounting platform) :=
    .refreshPendingAccounting
  refine .bind (((Steady.refreshPendingAccounting.meets hrelieved.consistent).and
    (hspares.meets v)).mono (fun _ x ⟨hx,hstays'⟩=>?_)
    fun _ x hx=>⟨hx.1.1,hx.1.2.consistent⟩)
  have hrefreshed := hrelieved.after hx hstays'
  refine .bind (.bind (.get (.pure (.ite (fun _=>skipPending_spec hrefreshed haccepted) fun _=>?_))))
  rw [← length_append]
  refine .bind ((resolveAdmitted_spec hrefreshed).mono (fun _ t ⟨ht,hevolves,hempty,hstuck⟩=>?_) fun _ _=>id)
  refine admittedStatus_spec.mono (fun status' y ⟨hy,hrecovery,hkept⟩=>?_) fun _ _=>False.elim
  subst hy
  refine ⟨ht,.admitted hrotated.evolves hadmitted rfl rfl hevolves ?_ hkept,hempty,hstuck⟩
  rw [hrecovery,append_nil]

end Retaining

section Offering

variable {start : World} {recovery : Option ChunkResyncEvent}

lemma Calm.stagedPressure {stagedBytes : ℕ} :
    Calm platform owed held (BlobCache.stagedPressure platform stagedBytes) := by
  refine .ite .pure ⟨fun hworld=>.bind (meets_lock hworld fun w hw=>.get (.pure ?_))⟩
  exact hw

variable {accountedBytes : ℕ}

lemma admitCachedPacket_spec (hworld : Consistent platform [] [] world)
    (h : Rotated platform recovery.toList start world)
    (hcached : ∀ {reply}, packet = .subChunk reply → reply.cacheEnabled=true) :
    Meets (admitCachedPacket platform packet packet.referencedBlobHashes
        (stableUnique packet.referencedBlobHashes) accountedBytes recovery) world
      (fun status t=>Accepted platform packet status start t)
      fun fault t=>fault = .error .byteCountOverflow ∧ Consistent platform [] [] t := by
  refine .bind ((classifyStatus_spec hworld).mono
    (fun status w ⟨hrecovery,haccepted,hresolver,hfiled,hw⟩=>?_) fun _ _=>False.elim)
  refine .bind ((Calm.stagedPressure.meets hw).mono (fun pressure u hu=>?_) fun _ u hu=>⟨hu.1,hu.2.consistent.forget⟩)
  have hrotated : Rotated platform status.recovery.toList start u := by
    rw [hrecovery]
    refine Rotated.undisturbed ⟨?_,?_⟩ hu
    · rw [hresolver]
      exact h.evolves
    · rw [hresolver]
      exact h.resolved
  exact .ite (fun _=>skipStaged_spec hu.consistent hrotated haccepted)
    fun _=>retainTransaction_spec hu.consistent hrotated hfiled hcached haccepted

variable {columns : List ColumnKey}

lemma rotateUnderPressure_spec (hworld : Consistent platform [] [] world) :
    Meets (rotateUnderPressure platform columns) world
      (fun recovery t=>Consistent platform [] [] t ∧ Rotated platform recovery.toList world t)
      fun fault t=>fault = .error .byteCountOverflow ∧ Consistent platform [] [] t := by
  refine .bind (.bind (.get (.pure (.ite (fun _=>?_) fun _=>.pure ⟨hworld,.refl⟩))))
  exact (rotateOldestPendingTransaction_spec hworld).mono (fun _ _ ⟨ht,hevolves,hresolved,_⟩=>⟨ht,hevolves,hresolved⟩)
    fun _ _ h=>⟨h.1,h.2.consistent⟩

/-- A recovery queue at its bound leaves no chunk a slot of its own. -/
lemma underPressure_of_full {resolver : BlobCacheResolver}
    (hfull : maxClientBlobRecoveryReadyEvents ≤ resolver.recoveryReady.size)
    (hcolumns : 0 < columns.length) : resolver.underPressure columns=true := by
  unfold BlobCacheResolver.underPressure BlobCacheResolver.retainedRecoverySlotCount
  rw [Bool.or_eq_true,decide_eq_true_eq,decide_eq_true_eq]
  exact Or.inr (by omega)

lemma acceptWithinBounds_spec (hworld : Consistent platform [] [] world) (h : Rotated platform [] start world)
    (hcached : ∀ {reply}, packet = .subChunk reply → reply.cacheEnabled=true) :
    Meets (acceptWithinBounds platform packet packet.referencedBlobHashes
        (stableUnique packet.referencedBlobHashes) accountedBytes) world
      (fun status t=>Accepted platform packet status start t)
      fun fault t=>fault = .error .byteCountOverflow ∧ Consistent platform [] [] t := by
  refine .bind ((rotateUnderPressure_spec hworld).mono (fun recovery w ⟨hw,hrotated⟩=>?_) fun _ _=>id)
  have hstart : Rotated platform recovery.toList start w :=
    ⟨h.evolves.trans hrotated.evolves,hrotated.resolved.trans h.resolved⟩
  refine .ite (fun _=>skipRotated_spec hw hstart) fun hnotRotated =>
    .ite (fun hpressure=>?_) fun _=>admitCachedPacket_spec hw hstart hcached
  -- A rotated transaction's recovery is never dropped here: without pressure the queue has room.
  have hnone : recovery=none := by
    cases packet with
    | levelChunk chunk =>
      refine Option.not_isSome_iff_eq_none.1 fun hsome=>hnotRotated ⟨hsome,Or.inl ?_⟩
      exact hpressure.elim id fun hfull=>underPressure_of_full hfull Nat.one_pos
    | subChunk reply =>
      exact Option.not_isSome_iff_eq_none.1 fun hsome=>hnotRotated ⟨hsome,Or.inr rfl⟩
  rw [hnone] at hstart
  exact (skipUnadmitted_spec hw hstart).mono (fun _ _=>id) fun _ _=>False.elim

def Packet.pendingPacket : Packet → Option PendingPacket
  | .levelChunk packet => some (.levelChunk packet)
  | .subChunk packet => some (.subChunk packet)
  | .other _ => none

variable {packet : Packet}

/-- How an offer is refused: for its shape with nothing changed, or as a failure. -/
inductive Refused (platform : Platform) (packet : Packet) (world : World) (fault : Fault)
    (t : World) : Prop
  | shape {chunk : LevelChunk} {actual expected : ℕ} (hpacket : packet = .levelChunk chunk)
      (hfault : fault = .error (.invalidLevelChunkHashCount actual expected))
      (h : Undisturbed platform [] [] world t)
  | failed (hfault : fault = .error .notCachedPacket ∨ fault = .error .byteCountOverflow)
      (h : Consistent platform [] [] t)

section

variable (hworld : Consistent platform [] [] world)
include hworld

lemma cachedPacketRetainedBytes_spec : Meets (cachedPacketRetainedBytes packet) world
      (fun _ t=>Undisturbed platform [] [] world t) (Refused platform packet world) := by
  have hcalm : Calm platform [] [] (do
      let containers ← containerBytes
      packet.inlineBytes.foldlM addCounted containers) :=
    .bind .containerBytes fun _=>.foldlM fun _ _=>.addCounted
  have hcounted : Meets (do
      let containers ← containerBytes
      packet.inlineBytes.foldlM addCounted containers) world
      (fun _ t=>Undisturbed platform [] [] world t) (Refused platform packet world) :=
    (hcalm.meets hworld).mono (fun _ _=>id) fun _ _ h=>.failed (Or.inr h.1) h.2.consistent
  cases packet with
  | other id => exact .throw (.failed (Or.inl rfl) hworld)
  | levelChunk chunk => exact hcounted
  | subChunk reply => exact hcounted

lemma cachedPacketHashes_spec : Meets (cachedPacketHashes packet) world
      (fun found t=>t=world ∧ packet.pendingPacket=some found.1 ∧ found.2=found.1.referencedBlobHashes ∧
        ∀ {reply}, found.1 = .subChunk reply → reply.cacheEnabled=true)
      (Refused platform packet world) := by
  cases packet with
  | other id => exact .throw (.failed (Or.inl rfl) hworld)
  | levelChunk chunk =>
    refine .ite (fun _=>.bind ?_) fun _=>.throw (.failed (Or.inl rfl) hworld)
    unfold addCounted
    split
    · refine .pure (.ite (fun _=>.pure ⟨rfl,rfl,rfl,fun h=>?_⟩) fun _=>.throw (.shape rfl rfl (.refl hworld)))
      cases h
    · exact .throw (.failed (Or.inr rfl) hworld)
  | subChunk reply =>
    refine .ite (fun henabled=>.pure ⟨rfl,rfl,rfl,fun h=>?_⟩) fun _=>.throw (.failed (Or.inl rfl) hworld)
    cases h
    exact henabled

variable {rawPacketBytes : Option ℕ}

lemma acceptCachedPacketInner_spec : Meets (acceptCachedPacketInner platform packet rawPacketBytes) world
      (fun status t=>∃ pending, packet.pendingPacket=some pending ∧
        Accepted platform pending status world t) (Refused platform packet world) := by
  refine .bind ((cachedPacketRetainedBytes_spec hworld).mono (fun _ w hw=>?_) fun _ _=>id)
  have hrefused : ∀ {fault : Fault} {u : World}, Refused platform packet w fault u →
      Refused platform packet world fault u := by
    intro fault u h
    cases h with
    | shape hpacket hfault h => exact .shape hpacket hfault (hw.trans h)
    | failed hfault h => exact .failed hfault h
  refine .bind ((cachedPacketHashes_spec hw.consistent).mono
    (fun found u ⟨hsame,hpending,hhashes,hcached⟩=>?_) fun _ _=>hrefused)
  subst hsame
  obtain ⟨pending,hashes⟩ := found
  dsimp only at hpending hhashes hcached ⊢
  subst hhashes
  refine .bind ((Calm.containerBytes.meets hw.consistent).mono (fun capacity v hv=>?_)
    fun _ _ h=>.failed (Or.inr h.1) h.2.consistent)
  refine .bind ((Calm.addCounted.meets hv.consistent).mono (fun accounted x hx=>?_)
    fun _ _ h=>.failed (Or.inr h.1) h.2.consistent)
  refine .bind ((projectedReconstructionBytes_spec hx.consistent hcached).mono
    (fun projected y ⟨hy,_⟩=>?_) fun _ _ h=>.failed (Or.inr h.1) h.2.consistent)
  have hrotated : Rotated platform [] world y :=
    (((Rotated.refl.undisturbed hw).undisturbed hv).undisturbed hx).undisturbed hy
  refine .ite (fun _=>?_) fun _=>?_
  · exact (skipUnadmitted_spec hy.consistent hrotated).mono (fun _ _ ht=>⟨pending,hpending,ht⟩) fun _ _=>False.elim
  · exact (acceptWithinBounds_spec hy.consistent hrotated hcached).mono
      (fun _ _ ht=>⟨pending,hpending,ht⟩) fun _ _ h=>.failed (Or.inr h.1) h.2

/-- An offer that fails drops all retained work; any other is skipped or admitted. -/
lemma acceptCachedPacket_spec : Meets (acceptCachedPacket platform packet rawPacketBytes) world
      (fun status t=>∃ pending, packet.pendingPacket=some pending ∧ Accepted platform pending status world t)
      fun fault t=>(fault = .error .notCachedPacket ∨ fault = .error .byteCountOverflow) ∧
        Consistent platform [] [] t ∧ t.resolver = .reset := by
  have hinner : Meets (acceptCachedPacketInner platform packet rawPacketBytes) world _ _ :=
    acceptCachedPacketInner_spec hworld
  unfold Meets acceptCachedPacket
  unfold Meets at hinner
  cases hrun : acceptCachedPacketInner platform packet rawPacketBytes world with
  | ok status t =>
    rw [hrun] at hinner
    exact hinner
  | error fault t =>
    rw [hrun] at hinner
    cases hinner with
    | @shape chunk actual expected hpacket hfault h =>
      rw [hfault,hpacket]
      refine (classifyStatus_spec h.consistent).mono (fun status u ⟨hrecovery,haccepted,_,_,hu⟩=>?_) fun _ _=>False.elim
      have hrotated := (Rotated.refl.undisturbed h).undisturbed hu
      refine ⟨.levelChunk chunk,rfl,.of_skipped hu.consistent
        ⟨hrotated.evolves.widen (nil_subset _),hrotated.resolved⟩ haccepted
        fun _ _=>?_⟩
      rw [hrecovery]
      exact unadmitted_recovered
    | failed hfault h =>
      have hreset : ∀ error, Meets (resetPending platform >>= fun _ =>
          (fail error : ResolverM BlobCacheStatus)) t
          (fun status u=>∃ pending, packet.pendingPacket=some pending ∧ Accepted platform pending status world u)
          fun fault u=>fault = .error error ∧ Consistent platform [] [] u ∧
            u.resolver = .reset := fun error =>
        .bind ((resetPending_spec h).mono (fun _ u hu=>.throw ⟨rfl,hu⟩) fun _ _=>False.elim)
      rcases hfault with rfl | rfl
      · exact (hreset .notCachedPacket).mono (fun _ _=>id) fun _ _ hu=>⟨Or.inl hu.1,hu.2⟩
      · exact (hreset .byteCountOverflow).mono (fun _ _=>id) fun _ _ hu=>⟨Or.inr hu.1,hu.2⟩

end

end Offering

end Cinnabar.BlobCache
