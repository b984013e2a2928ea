import Cinnabar.BlobCache.Acceptance

/-! # The lanes -/

namespace Cinnabar.BlobCache

open Std BlobCacheResolver List

variable {platform : Platform} {world t : World} {r s : BlobCacheResolver} {sequence : ℕ}
  {item : ReadyItem} {columns : List ColumnKey}

section Lanes

def BlobCacheResolver.Cached (r : BlobCacheResolver) (sequence : ℕ) (columns : List ColumnKey) :
    Prop :=
  (∃ transaction, r.pending[sequence]? = some transaction ∧ transaction.columns=columns) ∨
    ∃ item, r.ready[sequence]? = some item ∧ item.columns=columns

def BlobCacheResolver.Lane (r : BlobCacheResolver) : Popped → Prop
  | .cached sequence item => r.ready[sequence]? = some item
  | .immediate sequence item => r.immediateReady[sequence]? = some item

variable {left right : List ColumnKey}

lemma mem_shareColumn : shareColumn left right=true ↔ ∃ column ∈ left, column ∈ right := by
  simp [shareColumn]

lemma shareColumn_comm : shareColumn left right=shareColumn right left := by
  refine Bool.eq_iff_iff.2 ?_
  rw [mem_shareColumn,mem_shareColumn]
  exact ⟨fun ⟨c,h,h'⟩=>⟨c,h',h⟩,fun ⟨c,h,h'⟩=>⟨c,h',h⟩⟩

lemma sequenceIsUnblocked_iff : r.sequenceIsUnblocked sequence columns=true ↔
    ∀ earlier others, r.Cached earlier others →
      shareColumn others columns=true → sequence≤earlier := by
  have hready : ∀ {key : ℕ} {item : ReadyItem}, (key,item) ∈ r.ready.toList → r.ready[key]? = some item :=
    fun hmem=>TreeMap.mem_toList_iff_getElem?_eq_some.1 hmem
  unfold sequenceIsUnblocked
  rw [Bool.or_eq_true,List.isEmpty_iff,Bool.and_eq_true,Bool.not_eq_true',Bool.not_eq_true', any_eq_false,any_eq_false]
  constructor
  · rintro (hempty | ⟨hpending,hnone⟩) earlier others hcached hshare
    · obtain ⟨column,-,hmem⟩ := mem_shareColumn.1 hshare
      rw [hempty] at hmem
      exact absurd hmem not_mem_nil
    · refine Nat.le_of_not_lt fun hlt=>?_
      rcases hcached with ⟨transaction,hsome,rfl⟩ | ⟨item,hsome,rfl⟩
      · refine hpending (earlier,transaction) (TreeMap.mem_toList_iff_getElem?_eq_some.2 hsome) ?_
        rw [Bool.and_eq_true,decide_eq_true_eq]
        exact ⟨hlt,hshare⟩
      · refine hnone (earlier,item) (TreeMap.mem_toList_iff_getElem?_eq_some.2 hsome) ?_
        rw [Bool.and_eq_true,decide_eq_true_eq]
        exact ⟨hlt,hshare⟩
  · intro hfree
    refine Or.inr ⟨fun entry hmem hblocks=>?_,fun entry hmem hblocks=>?_⟩
    · rw [Bool.and_eq_true,decide_eq_true_eq] at hblocks
      refine absurd (hfree entry.1 entry.2.columns (Or.inl ⟨entry.2,?_,rfl⟩) hblocks.2) (Nat.not_le.2 hblocks.1)
      exact TreeMap.mem_toList_iff_getElem?_eq_some.1 hmem
    · rw [Bool.and_eq_true,decide_eq_true_eq] at hblocks
      exact absurd (hfree entry.1 entry.2.columns (Or.inr ⟨entry.2,hready hmem,rfl⟩) hblocks.2) (Nat.not_le.2 hblocks.1)

variable {lane : TreeMap ℕ ReadyItem}

lemma firstUnblocked_least {found : ℕ × ReadyItem} (h : r.firstUnblocked lane=some found) :
    lane[found.1]? = some found.2 ∧ r.sequenceIsUnblocked found.2.sequence found.2.columns=true ∧
      ∀ sequence item, lane[sequence]? = some item →
        r.sequenceIsUnblocked item.sequence item.columns=true → found.1 ≤ sequence := by
  obtain ⟨hsome,hfree,hleast⟩ := find?_toList_least h
  refine ⟨hsome,hfree,fun sequence item hitem hitemFree=>Nat.le_of_not_lt fun hlt=>?_⟩
  exact hleast sequence item hitem hitemFree (Nat.compare_eq_lt.2 hlt)

lemma firstUnblocked_eq_none (h : r.firstUnblocked lane=none) (hsome : lane[sequence]? = some item) :
    r.sequenceIsUnblocked item.sequence item.columns≠true := fun hfree =>
  List.find?_eq_none.1 h (sequence,item) (TreeMap.mem_toList_iff_getElem?_eq_some.2 hsome) hfree

lemma nextReady_spec {popped : Popped} (h : r.nextReady=some popped) :
    r.Lane popped ∧ r.sequenceIsUnblocked popped.item.sequence popped.item.columns=true ∧
      ∀ sequence item, r.immediateReady[sequence]? = some item →
        r.sequenceIsUnblocked item.sequence item.columns=true → popped.sequence ≤ sequence := by
  unfold nextReady at h
  cases hcached : r.firstUnblocked r.ready with
  | none =>
    cases himmediate : r.firstUnblocked r.immediateReady with
    | none =>
      rw [hcached,himmediate] at h
      cases h
    | some immediate =>
      rw [hcached,himmediate] at h
      cases h
      exact firstUnblocked_least himmediate
  | some cached =>
    obtain ⟨hlane,hfree,-⟩ := firstUnblocked_least hcached
    cases himmediate : r.firstUnblocked r.immediateReady with
    | none =>
      rw [hcached,himmediate] at h
      cases h
      exact ⟨hlane,hfree,fun sequence item hsome hitem =>
        absurd hitem (firstUnblocked_eq_none himmediate hsome)⟩
    | some immediate =>
      obtain ⟨hlane',hfree',hleast⟩ := firstUnblocked_least himmediate
      rw [hcached,himmediate] at h
      dsimp only at h
      split at h
      · rename_i hle
        cases h
        exact ⟨hlane,hfree,fun sequence item hsome hitem =>
          Nat.le_trans hle (hleast sequence item hsome hitem)⟩
      · cases h
        exact ⟨hlane',hfree',hleast⟩

end Lanes

/-- Transactions stay as they are when only the lanes of finished work change. -/
lemma Consistent.lanes (h : Consistent platform [] [] world) {s : BlobCacheResolver}
    (hpending : s.pending=world.resolver.pending)
    (hindex : s.pendingByHash=world.resolver.pendingByHash)
    (hresolved : s.resolvedPending=world.resolver.resolvedPending)
    (hnext : world.resolver.nextReadySequence ≤ s.nextReadySequence)
    (hready : ∀ {sequence : ℕ} {item : ReadyItem}, s.ready[sequence]? = some item →
      world.resolver.ready[sequence]? = some item)
    (himmediate : ∀ {sequence : ℕ} {item : ReadyItem}, s.immediateReady[sequence]? = some item →
      item.sequence=sequence ∧ sequence < s.nextReadySequence ∧ s.pending[sequence]? = none ∧ s.ready[sequence]? = none)
    (hqueue : s.recoveryReady=world.resolver.recoveryReady) :
    Consistent platform [] [] { world with resolver := s } := by
  have hholders : s.holders=world.resolver.holders := by
    funext hash
    rw [holders,hpending]
    rfl
  have hwaiting : s.waiting=world.resolver.waiting := by
    funext hash
    rw [waiting,hindex]
    rfl
  exact {
    pinned := fun hash=>by
      rw [hholders]
      exact h.pinned hash
    promised := fun hmem=>absurd hmem not_mem_nil
    valid := h.valid
    indexed := fun {sequence hash} hwait=>by
      rw [hwaiting] at hwait
      rw [hholders]
      exact h.indexed hwait
    unresolved := fun {sequence transaction} hsome=>by
      rw [hpending] at hsome
      rw [waitedHashes,hwaiting]
      exact h.unresolved hsome
    resident := fun {sequence hash} hheld hwait=>by
      rw [hholders] at hheld
      rw [hwaiting] at hwait
      exact h.resident hheld hwait
    settled := fun {sequence} hmem=>by
      rw [hresolved] at hmem
      rw [hpending]
      exact h.settled hmem
    formed := fun {sequence transaction} hsome=>h.formed (hpending ▸ hsome)
    pendingBelow := fun {sequence transaction} hsome =>
      (h.pendingBelow (hpending ▸ hsome)).trans_le hnext
    readyBelow := fun {sequence item} hsome=>by
      obtain ⟨heq,hlt,hnone⟩ := h.readyBelow (hready hsome)
      rw [hpending]
      exact ⟨heq,hlt.trans_le hnext,hnone⟩
    immediateBelow := himmediate
    queueFormed := fun hlookup=>h.queueFormed (hqueue ▸ hlookup) }

section Entering

/-- The resolver once an item is at the back of the ordinary lane. -/
structure Entered (r : BlobCacheResolver) (columns : List ColumnKey) (t : BlobCacheResolver) :
    Prop where
  next : t.nextReadySequence=r.nextReadySequence+1
  immediate : ∃ item : ReadyItem, item.sequence=r.nextReadySequence ∧ item.columns=columns ∧
    t.immediateReady=r.immediateReady.insert r.nextReadySequence item
  pending : t.pending=r.pending
  index : t.pendingByHash=r.pendingByHash
  resolved : t.resolvedPending=r.resolvedPending
  ready : t.ready=r.ready
  queue : t.recoveryReady=r.recoveryReady

lemma Consistent.enter (h : Consistent platform [] [] world) {s : BlobCacheResolver}
    (hentered : Entered world.resolver columns s) :
    Consistent platform [] [] { world with resolver := s } := by
  refine h.lanes hentered.pending hentered.index hentered.resolved
    (hentered.next ▸ Nat.le_succ _) (fun hsome=>hentered.ready ▸ hsome)
    (fun {sequence item} hsome=>?_) hentered.queue
  obtain ⟨newest,hnewest,-,hinsert⟩ := hentered.immediate
  rw [hinsert,lookup_insert] at hsome
  rw [hentered.next,hentered.pending,hentered.ready]
  split at hsome
  · rename_i heq
    cases hsome
    refine ⟨hnewest.trans heq,heq ▸ Nat.lt_succ_self _,?_,?_⟩
    · cases hpending : world.resolver.pending[sequence]? with
      | none => rfl
      | some found => exact absurd (h.pendingBelow hpending) (heq ▸ Nat.lt_irrefl _)
    · cases hready : world.resolver.ready[sequence]? with
      | none => rfl
      | some found => exact absurd (h.readyBelow hready).2.1 (heq ▸ Nat.lt_irrefl _)
  · obtain ⟨heq,hlt,hnone,hnotReady⟩ := h.immediateBelow hsome
    exact ⟨heq,Nat.lt_succ_of_lt hlt,hnone,hnotReady⟩

/-- Ordinary work enters, or the lane stays as it was; accounting may fail after it entered. -/
structure Arrived (platform : Platform) (columns : List ColumnKey) (world t : World) : Prop where
  consistent : Consistent platform [] [] t
  resolved : world.resolver.resolvedPending = ∅ → t.resolver.resolvedPending = ∅
  entered : ∃ r, Entered world.resolver columns r ∧ Evolves platform [] r t.resolver

lemma acceptImmediate_spec {value : ResolverReady} {accountedBytes : ℕ} (hworld : Consistent platform [] [] world) :
    Meets (acceptImmediate platform value accountedBytes) world
      (fun _ t=>Arrived platform (readyValueColumns value) world t)
      fun fault t=>(∃ error : BlobCacheError, fault = .error error ∧ ∀ hash, error ≠ .missingResolvedBlob hash) ∧
        (t=world ∨ Arrived platform (readyValueColumns value) world t) := by
  have hoverflow : ∃ error : BlobCacheError, Fault.error .byteCountOverflow = .error error ∧
      ∀ hash, error ≠ .missingResolvedBlob hash := ⟨_,rfl,fun _ h=>by cases h⟩
  refine .bind (.bind (.get (.pure ?_)))
  split
  · exact .throw ⟨hoverflow,Or.inl rfl⟩
  · have hadd : ∀ {a b : ℕ} {Q : ℕ → World → Prop} {E : Fault → World → Prop},
        (∀ sum, Q sum world) → E (.error .byteCountOverflow) world →
        Meets (addCounted a b) world Q E := by
      intro a b Q E hQ hE
      unfold addCounted
      split
      · exact .pure (hQ _)
      · exact .throw hE
    refine .bind (hadd (fun bytes=>.bind (hadd (fun bytes=>?_) ⟨hoverflow,Or.inl rfl⟩)) ⟨hoverflow,Or.inl rfl⟩)
    refine .ite (fun _=>.throw ⟨⟨_,rfl,fun _ h=>by cases h⟩,Or.inl rfl⟩) fun _=>?_
    refine .bind (.bind (.bind (.get (.pure (.ite (fun _=>.bind (.modified (.pure ?_)))
      fun _=>.throw ⟨hoverflow,Or.inl rfl⟩)))))
    have hentered : Entered world.resolver (readyValueColumns value) { world.resolver with
        nextReadySequence := world.resolver.nextReadySequence+1
        immediateReady := world.resolver.immediateReady.insert world.resolver.nextReadySequence
          ⟨value,readyValueColumns value,accountedBytes,world.resolver.nextReadySequence⟩ } :=
      ⟨rfl,⟨_,rfl,rfl,rfl⟩,rfl,rfl,rfl,rfl,rfl⟩
    have harrived : ∀ {t : World}, After platform []
        { world with resolver := { world.resolver with
          nextReadySequence := world.resolver.nextReadySequence+1
          immediateReady := world.resolver.immediateReady.insert
            world.resolver.nextReadySequence ⟨value,readyValueColumns value,accountedBytes,
              world.resolver.nextReadySequence⟩ } } t →
        Arrived platform (readyValueColumns value) world t := fun ht =>
      ⟨ht.consistent,fun hempty=>Finset.subset_empty.1 (hempty ▸ ht.resolved), _,hentered,ht.evolves⟩
    exact (Steady.refreshPendingAccounting.meets (hworld.enter hentered)).mono
      (fun _ _ ht=>harrived ht) fun _ _ ht=>⟨ht.1 ▸ hoverflow,Or.inr (harrived ht.2)⟩

lemma Steady.unblockOrdinaryLane : Steady platform [] (BlobCache.unblockOrdinaryLane platform) :=
  .bind .readResolver fun _=>.bind (.abandonAll _) fun _ =>
    .bind .refreshPendingAccounting fun _=>.pure

end Entering

section Leaving

structure Left (r : BlobCacheResolver) (popped : Popped) (t : BlobCacheResolver) : Prop where
  next : t.nextReadySequence=r.nextReadySequence
  pending : t.pending=r.pending
  index : t.pendingByHash=r.pendingByHash
  resolved : t.resolvedPending=r.resolvedPending
  ready : ∀ sequence item, t.ready[sequence]? = some item ↔
    r.ready[sequence]? = some item ∧ popped ≠ .cached sequence item
  immediate : ∀ sequence item, t.immediateReady[sequence]? = some item ↔
    r.immediateReady[sequence]? = some item ∧ popped ≠ .immediate sequence item
  queue : t.recoveryReady=r.recoveryReady

lemma Consistent.leave (h : Consistent platform [] [] world) {popped : Popped} (hleft : Left world.resolver popped s) :
    Consistent platform [] [] { world with resolver := s } := by
  refine h.lanes hleft.pending hleft.index hleft.resolved hleft.next.ge
    (fun hsome=>((hleft.ready _ _).1 hsome).1) (fun {sequence item} hsome=>?_) hleft.queue
  obtain ⟨heq,hlt,hnone,hready⟩ := h.immediateBelow ((hleft.immediate sequence item).1 hsome).1
  rw [hleft.next,hleft.pending]
  refine ⟨heq,hlt,hnone,?_⟩
  cases hsome' : s.ready[sequence]? with
  | none => rfl
  | some found =>
    rw [((hleft.ready sequence found).1 hsome').1] at hready
    cases hready

lemma refreshAfterPop_spec (hworld : Consistent platform [] [] world) :
    Meets (refreshAfterPop platform) world (fun _ t=>After platform [] world t)
      fun fault t=>fault = .accountingExpect ∧ After platform [] world t := by
  have hrefresh := Steady.refreshPendingAccounting.meets hworld
  unfold Meets refreshAfterPop
  unfold Meets at hrefresh
  cases hrun : refreshPendingAccounting platform world with
  | ok value t =>
    rw [hrun] at hrefresh
    exact hrefresh
  | error fault t =>
    rw [hrun] at hrefresh
    exact ⟨rfl,hrefresh.2⟩

/-- An item left its lane, and nothing else happened. -/
structure Departed (platform : Platform) (popped : Popped) (world t : World) : Prop where
  consistent : Consistent platform [] [] t
  resolved : t.resolver.resolvedPending ⊆ world.resolver.resolvedPending
  left : ∃ r, Left world.resolver popped r ∧ Evolves platform [] r t.resolver

lemma left_cached (hlane : r.ready[sequence]? = some item) {bytes slots : ℕ} :
    Left r (.cached sequence item) { r with
      ready := r.ready.erase sequence
      readyAccountedBytes := bytes
      retainedColumnSlots := slots } where
  next := rfl
  pending := rfl
  index := rfl
  resolved := rfl
  ready other found := by
    rw [lookup_erase]
    by_cases heq : sequence=other
    · rw [if_pos heq]
      subst heq
      rw [hlane]
      exact iff_of_false (fun h=>by cases h) fun ⟨h,hne⟩=>hne (by cases h; rfl)
    · rw [if_neg heq]
      exact ⟨fun h=>⟨h,fun hpopped=>heq (by cases hpopped; rfl)⟩,And.left⟩
  immediate other found := ⟨fun h=>⟨h,fun hpopped=>by cases hpopped⟩,And.left⟩
  queue := rfl

lemma left_immediate (hlane : r.immediateReady[sequence]? = some item) :
    Left r (.immediate sequence item) { r with
      immediateReady := r.immediateReady.erase sequence } where
  next := rfl
  pending := rfl
  index := rfl
  resolved := rfl
  ready other found := ⟨fun h=>⟨h,fun hpopped=>by cases hpopped⟩,And.left⟩
  immediate other found := by
    rw [lookup_erase]
    by_cases heq : sequence=other
    · rw [if_pos heq]
      subst heq
      rw [hlane]
      exact iff_of_false (fun h=>by cases h) fun ⟨h,hne⟩=>hne (by cases h; rfl)
    · rw [if_neg heq]
      exact ⟨fun h=>⟨h,fun hpopped=>heq (by cases hpopped; rfl)⟩,And.left⟩
  queue := rfl

lemma departed_spec {popped : Popped} {value : ResolverReady}
    {change : BlobCacheResolver → BlobCacheResolver} (hworld : Consistent platform [] [] world)
    (hleft : Left world.resolver popped (change world.resolver)) :
    Meets (do
        modifyResolver change
        refreshAfterPop platform
        pure (some value)) world
      (fun ready t=>ready=some value ∧ Departed platform popped world t)
      fun fault t=>fault = .accountingExpect ∧ Departed platform popped world t := by
  have hdeparted : ∀ {t : World}, After platform [] { world with resolver := change world.resolver } t →
      Departed platform popped world t := fun ht =>
    ⟨ht.consistent,hleft.resolved ▸ ht.resolved,_,hleft,ht.evolves⟩
  refine .bind (.modified (.bind ?_))
  exact (refreshAfterPop_spec (hworld.leave hleft)).mono
    (fun _ _ ht=>.pure ⟨rfl,hdeparted ht⟩) fun _ _ ht=>⟨ht.1,hdeparted ht.2⟩

lemma popNext_spec (hworld : Consistent platform [] [] world) : Meets (popNext platform) world
      (fun ready t=>ready = (world.resolver.nextReady).map (·.item.value) ∧ match world.resolver.nextReady with
        | some popped => Departed platform popped world t
        | none => t=world)
      fun fault t=>fault = .accountingExpect ∧
        ∃ popped, Departed platform popped world t := by
  refine .bind (.bind (.get (.pure ?_)))
  cases hnext : world.resolver.nextReady with
  | none => exact .pure ⟨rfl,rfl⟩
  | some popped =>
    have hlane := (nextReady_spec hnext).1
    cases popped with
    | cached sequence item =>
      exact (departed_spec hworld (left_cached hlane)).mono (fun _ _ ht=>ht) fun _ _ ht=>⟨ht.1,_,ht.2⟩
    | immediate sequence item =>
      exact (departed_spec hworld (left_immediate hlane)).mono (fun _ _ ht=>ht) fun _ _ ht=>⟨ht.1,_,ht.2⟩

/-- A request leaves the queue. -/
lemma Evolves.unqueue {key : ColumnKey} {recovery : RecoveryReady} (hlookup : r.recoveryReady[key]? = some recovery) :
    Evolves platform [recovery.intoEvent] r { r with recoveryReady := r.recoveryReady.erase key } where
  next := rfl
  pending hsome := ⟨_,hsome,rfl,rfl⟩
  ready := Or.inl
  immediate := id
  keptPending hsome := Or.inl ⟨_,hsome⟩
  keptReady := Or.inl
  queued {need} hqueues := by
    obtain ⟨found,hfound,hcovers⟩ := hqueues
    by_cases heq : key=need.column
    · subst heq
      rw [hlookup] at hfound
      cases hfound
      exact Or.inl ⟨_,mem_singleton_self _,hcovers⟩
    · refine Or.inr ⟨found,?_,hcovers⟩
      rw [lookup_erase,if_neg heq]
      exact hfound
  stuck := id

lemma Consistent.unqueue (h : Consistent platform [] [] world) {key : ColumnKey} :
    Consistent platform [] [] { world with resolver := { world.resolver with
      recoveryReady := world.resolver.recoveryReady.erase key } } :=
  { h with
    queueFormed := fun {other found} hlookup=>by
      rw [lookup_erase] at hlookup
      split at hlookup
      · cases hlookup
      · exact h.queueFormed hlookup }

/-- The request the next pop hands out. -/
def BlobCacheResolver.nextRecovery (r : BlobCacheResolver) : Option ChunkResyncEvent :=
  r.recoveryReady.toList.head?.map (·.2.intoEvent)

lemma popRecoveryReady_spec (hworld : Consistent platform [] [] world) :
    Meets (popRecoveryReady platform) world (fun recovery t=>recovery=world.resolver.nextRecovery ∧
        (recovery=none → t=world) ∧ Rotated platform recovery.toList world t ∧
        Consistent platform [] [] t)
      fun fault t=>fault = .accountingExpect ∧ Consistent platform [] [] t ∧
        ∃ handed, Rotated platform handed world t := by
  refine .bind (.bind (.get (.pure ?_)))
  unfold BlobCacheResolver.nextRecovery
  cases hhead : world.resolver.recoveryReady.toList.head? with
  | none => exact .pure ⟨rfl,fun _=>rfl,.refl,hworld⟩
  | some entry =>
    obtain ⟨key,recovery⟩ := entry
    have hlookup : world.resolver.recoveryReady[key]? = some recovery :=
      TreeMap.mem_toList_iff_getElem?_eq_some.1 (List.mem_of_mem_head? hhead)
    have hrotated : ∀ {t : World}, After platform [] { world with resolver := { world.resolver with
        recoveryReady := world.resolver.recoveryReady.erase key } } t →
        Rotated platform [recovery.intoEvent] world t := fun ht =>
      (⟨.unqueue hlookup,subset_rfl⟩ : Rotated platform [recovery.intoEvent] world
        { world with resolver := { world.resolver with
          recoveryReady := world.resolver.recoveryReady.erase key } }).after ht
    refine .bind (.modified (.bind ((refreshAfterPop_spec hworld.unqueue).mono
      (fun _ t ht=>.pure ⟨rfl,nofun,hrotated ht,ht.consistent⟩)
      fun _ t ht=>⟨ht.1,ht.2.consistent,_,hrotated ht.2⟩)))

/-- What a pop did: nothing, a request handed out, or an item emitted. -/
inductive PopOutcome (platform : Platform) (world : World) (ready : Option BlobCacheReady)
    (t : World) : Prop
  | nothing (hrecovery : world.resolver.nextRecovery=none)
      (hnext : world.resolver.nextReady=none) (hready : ready=none) (hsame : t=world)
  | requested {event : ChunkResyncEvent} (hrecovery : world.resolver.nextRecovery=some event)
      (hready : ready=some (.worldEvent (.chunkResync event)))
      (hrotated : Rotated platform [event] world t)
  | emitted {popped : Popped} (hrecovery : world.resolver.nextRecovery=none)
      (hnext : world.resolver.nextReady=some popped)
      (hready : ready=some popped.item.value.intoPublic)
      (hdeparted : Departed platform popped world t)

lemma popReady_spec (hworld : Consistent platform [] [] world) : Meets (popReady platform) world
      (fun ready t=>Consistent platform [] [] t ∧ PopOutcome platform world ready t)
      fun fault t=>fault = .accountingExpect ∧ Consistent platform [] [] t ∧
        ((∃ handed, Rotated platform handed world t) ∨
          ∃ popped, Departed platform popped world t) := by
  refine .bind (.bind ((popRecoveryReady_spec hworld).mono (fun recovery w ⟨hrecovery,hsame,hrotated,hw⟩=>?_)
    fun _ _ ⟨hfault,hw,hrotated⟩=>⟨hfault,hw,Or.inl hrotated⟩))
  cases recovery with
  | some event => exact .pure (.pure ⟨hw,.requested hrecovery.symm rfl hrotated⟩)
  | none =>
    have hsame := hsame rfl
    subst hsame
    refine (popNext_spec hworld).mono (fun ready t ⟨hready,hpopped⟩=>?_)
      fun _ _ ⟨hfault,popped,hdeparted⟩=>⟨hfault,hdeparted.consistent,Or.inr ⟨_,hdeparted⟩⟩
    subst hready
    cases hnext : w.resolver.nextReady with
    | none =>
      rw [hnext] at hpopped
      subst hpopped
      exact .pure ⟨hworld,.nothing hrecovery.symm hnext rfl rfl⟩
    | some popped =>
      rw [hnext] at hpopped
      exact .pure ⟨hpopped.consistent,.emitted hrecovery.symm hnext rfl hpopped⟩

end Leaving

end Cinnabar.BlobCache
