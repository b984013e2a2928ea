import Cinnabar.BlobCache.Consistency

/-! # How retained work evolves -/

namespace Cinnabar.BlobCache

open Std List

def Rebuilt (platform : Platform) (packet : PendingPacket) (value : ResolverReady) : Prop :=
  ∃ blob : ℕ → Bytes, (∀ hash ∈ packet.referencedBlobHashes, platform.clientBlobHash (blob hash) = hash) ∧
      value = .packet (packet.splice blob)

def Recovered (handed : List ChunkResyncEvent) (resolver : BlobCacheResolver)
    (packet : PendingPacket) : Prop :=
  ∀ need, packet.Needs need → (∃ event ∈ handed, event.Covers need) ∨ resolver.Queues need

/-- A transaction that waits for nothing and is not marked resolved. -/
def BlobCacheResolver.Stuck (resolver : BlobCacheResolver) (sequence : ℕ) : Prop :=
  sequence ∉ resolver.resolvedPending ∧ ∃ transaction, resolver.pending[sequence]? = some transaction ∧
      transaction.unresolvedHashes=0

/-- Retained work is rebuilt or given up, and what is given up is requested again. -/
structure Evolves (platform : Platform) (handed : List ChunkResyncEvent)
    (r t : BlobCacheResolver) : Prop where
  next : t.nextReadySequence=r.nextReadySequence
  pending : ∀ {sequence : ℕ} {transaction : PendingTransaction},
    t.pending[sequence]? = some transaction → ∃ earlier : PendingTransaction,
      r.pending[sequence]? = some earlier ∧ transaction.packet=earlier.packet ∧ transaction.columns=earlier.columns
  ready : ∀ {sequence : ℕ} {item : ReadyItem}, t.ready[sequence]? = some item →
    r.ready[sequence]? = some item ∨ ∃ transaction : PendingTransaction,
      r.pending[sequence]? = some transaction ∧ item.columns=transaction.columns ∧
        Rebuilt platform transaction.packet item.value
  immediate : ∀ {sequence : ℕ} {item : ReadyItem}, t.immediateReady[sequence]? = some item →
    r.immediateReady[sequence]? = some item
  keptPending : ∀ {sequence : ℕ} {transaction : PendingTransaction}, r.pending[sequence]? = some transaction →
    (∃ later : PendingTransaction, t.pending[sequence]? = some later) ∨
      (∃ item : ReadyItem, t.ready[sequence]? = some item ∧ Rebuilt platform transaction.packet item.value) ∨
      Recovered handed t transaction.packet
  keptReady : ∀ {sequence : ℕ} {item : ReadyItem}, r.ready[sequence]? = some item →
    t.ready[sequence]? = some item ∨ ∀ packet, Rebuilt platform packet item.value → Recovered handed t packet
  queued : ∀ {need : Need}, r.Queues need → (∃ event ∈ handed, event.Covers need) ∨ t.Queues need
  stuck : ∀ {sequence : ℕ}, t.Stuck sequence → r.Stuck sequence

namespace Evolves

variable {platform : Platform} {handed handed' : List ChunkResyncEvent}
  {r t u : BlobCacheResolver}

lemma refl : Evolves platform [] r r where
  next := rfl
  pending h := ⟨_,h,rfl,rfl⟩
  ready := Or.inl
  immediate h := h
  keptPending h := Or.inl ⟨_,h⟩
  keptReady := Or.inl
  queued := Or.inr
  stuck h := h

variable {packet : PendingPacket}

lemma recovered (h : Evolves platform handed' t u)
    (hrecovered : Recovered handed t packet) : Recovered (handed++handed') u packet := by
  intro need hneed
  rcases hrecovered need hneed with ⟨event,hmem,hcovers⟩ | hqueues
  · exact Or.inl ⟨event,mem_append_left _ hmem,hcovers⟩
  · rcases h.queued hqueues with ⟨event,hmem,hcovers⟩ | hqueues
    · exact Or.inl ⟨event,mem_append_right _ hmem,hcovers⟩
    · exact Or.inr hqueues

lemma recovered_of_later (h : Recovered handed' u packet) : Recovered (handed++handed') u packet := by
  intro need hneed
  rcases h need hneed with ⟨event,hmem,hcovers⟩ | hqueues
  · exact Or.inl ⟨event,mem_append_right _ hmem,hcovers⟩
  · exact Or.inr hqueues

lemma trans (h : Evolves platform handed r t) (h' : Evolves platform handed' t u) :
    Evolves platform (handed++handed') r u where
  next := h'.next.trans h.next
  pending hu := by
    obtain ⟨transaction,ht,hpacket,hcolumns⟩ := h'.pending hu
    obtain ⟨earlier,hr,hpacket',hcolumns'⟩ := h.pending ht
    exact ⟨earlier,hr,hpacket.trans hpacket',hcolumns.trans hcolumns'⟩
  ready hu := by
    rcases h'.ready hu with ht | ⟨transaction,ht,hcolumns,hrebuilt⟩
    · exact h.ready ht
    · obtain ⟨earlier,hr,hpacket,hcolumns'⟩ := h.pending ht
      exact Or.inr ⟨earlier,hr,hcolumns.trans hcolumns',hpacket ▸ hrebuilt⟩
  immediate hu := h.immediate (h'.immediate hu)
  keptPending hr := by
    rcases h.keptPending hr with ⟨later,ht⟩ | ⟨item,ht,hrebuilt⟩ | hrecovered
    · obtain ⟨earlier,hr',hpacket,-⟩ := h.pending ht
      obtain rfl : earlier=_ := Option.some.inj (hr'.symm.trans hr)
      rcases h'.keptPending ht with hu | ⟨item,hu,hrebuilt⟩ | hrecovered
      · exact Or.inl hu
      · exact Or.inr (Or.inl ⟨item,hu,hpacket ▸ hrebuilt⟩)
      · exact Or.inr (Or.inr (recovered_of_later (hpacket ▸ hrecovered)))
    · rcases h'.keptReady ht with hu | hrecovered
      · exact Or.inr (Or.inl ⟨item,hu,hrebuilt⟩)
      · exact Or.inr (Or.inr (recovered_of_later (hrecovered _ hrebuilt)))
    · exact Or.inr (Or.inr (h'.recovered hrecovered))
  keptReady hr := by
    rcases h.keptReady hr with ht | hrecovered
    · rcases h'.keptReady ht with hu | hrecovered
      · exact Or.inl hu
      · exact Or.inr fun packet hrebuilt=>recovered_of_later (hrecovered packet hrebuilt)
    · exact Or.inr fun packet hrebuilt=>h'.recovered (hrecovered packet hrebuilt)
  queued hr := by
    rcases h.queued hr with ⟨event,hmem,hcovers⟩ | ht
    · exact Or.inl ⟨event,mem_append_left _ hmem,hcovers⟩
    · rcases h'.queued ht with ⟨event,hmem,hcovers⟩ | hu
      · exact Or.inl ⟨event,mem_append_right _ hmem,hcovers⟩
      · exact Or.inr hu
  stuck hu := h.stuck (h'.stuck hu)

/-- A change of the bookkeeping alone. -/
lemma of_eq (hnext : t.nextReadySequence=r.nextReadySequence) (hpending : t.pending=r.pending)
    (hready : t.ready=r.ready) (himmediate : t.immediateReady=r.immediateReady)
    (hqueue : t.recoveryReady=r.recoveryReady)
    (hresolved : t.resolvedPending=r.resolvedPending) : Evolves platform [] r t where
  next := hnext
  pending h := ⟨_,hpending ▸ h,rfl,rfl⟩
  ready h := Or.inl (hready ▸ h)
  immediate h := himmediate ▸ h
  keptPending h := Or.inl ⟨_,hpending ▸ h⟩
  keptReady h := Or.inl (hready ▸ h)
  queued h := Or.inr (by unfold BlobCacheResolver.Queues at *; rw [hqueue]; exact h)
  stuck h := by unfold BlobCacheResolver.Stuck at *; rw [← hresolved,← hpending]; exact h

lemma enqueueRecoveries (hformed : r.QueueFormed) {events : List ChunkResyncEvent}
    (hplain : ∀ event ∈ events, event.requestedSubChunks=none) :
    Evolves platform [] r (r.enqueueRecoveries events) := by
  obtain ⟨queue,heq⟩ := enqueueRecoveries_eq r events
  obtain ⟨-,hqueues⟩ := queues_enqueueRecoveries hformed hplain
  rw [heq] at hqueues ⊢
  exact {
    next := rfl
    pending := fun h=>⟨_,h,rfl,rfl⟩
    ready := Or.inl
    immediate := id
    keptPending := fun h=>Or.inl ⟨_,h⟩
    keptReady := Or.inl
    queued := fun h=>Or.inr (hqueues _ (Or.inl h))
    stuck := id }

end Evolves

structure After (platform : Platform) (held : List ℕ) (world t : World) : Prop where
  consistent : Consistent platform [] held t
  evolves : Evolves platform [] world.resolver t.resolver
  resolved : t.resolver.resolvedPending ⊆ world.resolver.resolvedPending

/-- A program that only rebuilds or gives up, and fails only where a byte count overflows. -/
structure Steady {α : Type} (platform : Platform) (held : List ℕ) (program : ResolverM α) :
    Prop where
  meets : ∀ {world}, Consistent platform [] held world →
    Meets program world (fun _ t=>After platform held world t) fun fault t =>
      fault = .error .byteCountOverflow ∧ After platform held world t

variable {platform : Platform} {owed held : List ℕ} {world t u : World} {α β : Type}

namespace After

lemma refl (h : Consistent platform [] held world) : After platform held world world :=
  ⟨h,.refl,subset_rfl⟩

lemma trans (h : After platform held world t) (h' : After platform held t u) :
    After platform held world u :=
  ⟨h'.consistent,by simpa using h.evolves.trans h'.evolves,h'.resolved.trans h.resolved⟩

end After

namespace Steady

lemma bind {program : ResolverM α} {next : α → ResolverM β} (h : Steady platform held program)
    (hnext : ∀ a, Steady platform held (next a)) : Steady platform held (program >>= next) := by
  refine ⟨fun hworld=>.bind ((h.meets hworld).mono (fun a t ht=>?_) fun _ _=>id)⟩
  exact ((hnext a).meets ht.consistent).mono (fun _ _ hu=>ht.trans hu) fun _ _ hu=>⟨hu.1,ht.trans hu.2⟩

lemma pure {a : α} : Steady platform held (Pure.pure a : ResolverM α) :=
  ⟨fun hworld=>.pure (.refl hworld)⟩

lemma overflow : Steady platform held (fail .byteCountOverflow : ResolverM α) :=
  ⟨fun hworld=>.throw ⟨rfl,.refl hworld⟩⟩

lemma readResolver : Steady platform held BlobCache.readResolver :=
  ⟨fun hworld=>.bind (.get (.pure (.refl hworld)))⟩

lemma ite {c : Prop} [Decidable c] {program other : ResolverM α}
    (h : Steady platform held program) (h' : Steady platform held other) :
    Steady platform held (if c then program else other) := by
  split
  · exact h
  · exact h'

end Steady

section Bookkeeping

lemma Consistent.of_fields (h : Consistent platform owed held world)
    (hstore : t.store=world.store) (hforeign : t.foreign=world.foreign)
    (hnext : t.resolver.nextReadySequence=world.resolver.nextReadySequence)
    (hpending : t.resolver.pending=world.resolver.pending)
    (hindex : t.resolver.pendingByHash=world.resolver.pendingByHash)
    (hready : t.resolver.ready=world.resolver.ready)
    (himmediate : t.resolver.immediateReady=world.resolver.immediateReady)
    (hqueue : t.resolver.recoveryReady=world.resolver.recoveryReady)
    (hresolved : t.resolver.resolvedPending ⊆ world.resolver.resolvedPending) :
    Consistent platform owed held t := by
  have hholders : t.resolver.holders=world.resolver.holders := by
    funext hash
    rw [BlobCacheResolver.holders,hpending]
    rfl
  have hwaiting : t.resolver.waiting=world.resolver.waiting := by
    funext hash
    rw [BlobCacheResolver.waiting,hindex]
    rfl
  exact {
    pinned := fun hash=>by rw [hforeign,hholders,hstore]; exact h.pinned hash
    promised := fun hheld hpins=>by
      rw [hwaiting] at hpins
      rw [hstore]
      exact h.promised hheld hpins
    valid := fun hbody=>h.valid (by rw [← hstore]; exact hbody)
    indexed := fun hmem=>by rw [hwaiting] at hmem; rw [hholders]; exact h.indexed hmem
    unresolved := fun htx=>by
      rw [hpending] at htx
      rw [BlobCacheResolver.waitedHashes,hwaiting]
      exact h.unresolved htx
    resident := fun hheld hmem=>by
      rw [hholders] at hheld
      rw [hwaiting] at hmem
      rw [hstore]
      exact h.resident hheld hmem
    settled := fun hmem=>by rw [hpending]; exact h.settled (hresolved hmem)
    formed := fun htx=>h.formed (by rw [← hpending]; exact htx)
    pendingBelow := fun htx=>by rw [hnext]; exact h.pendingBelow (hpending ▸ htx)
    readyBelow := fun hitem=>by
      rw [hready] at hitem
      rw [hnext,hpending]
      exact h.readyBelow hitem
    immediateBelow := fun hitem=>by
      rw [himmediate] at hitem
      rw [hnext,hpending,hready]
      exact h.immediateBelow hitem
    queueFormed := fun hlookup=>h.queueFormed (by rw [← hqueue]; exact hlookup) }

/-- A program that leaves the resolver as it is, and fails only where a byte count overflows. -/
structure Calm {α : Type} (platform : Platform) (owed held : List ℕ) (program : ResolverM α) :
    Prop where
  meets : ∀ {world}, Consistent platform owed held world →
    Meets program world (fun _ t=>Undisturbed platform owed held world t) fun fault t =>
      fault = .error .byteCountOverflow ∧ Undisturbed platform owed held world t

namespace Calm

variable {program : ResolverM α}

lemma bind {next : α → ResolverM β}
    (h : Calm platform owed held program) (hnext : ∀ a, Calm platform owed held (next a)) :
    Calm platform owed held (program >>= next) := by
  refine ⟨fun hworld=>.bind ((h.meets hworld).mono (fun a t ht=>?_) fun _ _=>id)⟩
  exact ((hnext a).meets ht.consistent).mono (fun _ _ hu=>ht.trans hu) fun _ _ hu=>⟨hu.1,ht.trans hu.2⟩

lemma pure {a : α} : Calm platform owed held (Pure.pure a : ResolverM α) :=
  ⟨fun hworld=>.pure (.refl hworld)⟩

lemma overflow : Calm platform owed held (fail .byteCountOverflow : ResolverM α) :=
  ⟨fun hworld=>.throw ⟨rfl,.refl hworld⟩⟩

lemma readResolver : Calm platform owed held BlobCache.readResolver :=
  ⟨fun hworld=>.bind (.get (.pure (.refl hworld)))⟩

lemma ite {c : Prop} [Decidable c] {program other : ResolverM α}
    (h : Calm platform owed held program) (h' : Calm platform owed held other) :
    Calm platform owed held (if c then program else other) := by
  split
  · exact h
  · exact h'

lemma addCounted {a b : ℕ} : Calm platform owed held (BlobCache.addCounted a b) := by
  unfold BlobCache.addCounted
  split
  · exact .pure
  · exact .overflow

lemma foldlM {f : β → α → ResolverM β} {items : List α} {start : β} (h : ∀ b a, Calm platform owed held (f b a)) :
    Calm platform owed held (items.foldlM f start) := by
  induction items generalizing start with
  | nil => exact .pure
  | cons first items ih =>
    exact .bind (h start first) fun _=>ih

lemma containerBytes : Calm platform owed held BlobCache.containerBytes :=
  ⟨fun hworld=>.bind (.get (.bind (.set (.pure (.of_settled hworld rfl rfl .refl)))))⟩

lemma retainedCachedBytes : Calm platform owed held BlobCache.retainedCachedBytes :=
  .bind .containerBytes fun _=>.bind .readResolver fun _=>.bind .addCounted fun _=>.addCounted

lemma steady (h : Calm platform [] held program) :
    Steady platform held program := by
  have hafter : ∀ {world t : World}, Undisturbed platform [] held world t →
      After platform held world t := fun ht =>
    ⟨ht.consistent,by rw [ht.resolver]; exact .refl,by rw [ht.resolver]⟩
  exact ⟨fun hworld=>(h.meets hworld).mono (fun _ _=>hafter) fun _ _ ht=>⟨ht.1,hafter ht.2⟩⟩

end Calm

lemma Steady.modifyBytes {change : BlobCacheResolver → BlobCacheResolver}
    (h : ∀ r, (change r).nextReadySequence=r.nextReadySequence ∧
      (change r).pending=r.pending ∧ (change r).pendingByHash=r.pendingByHash ∧
      (change r).ready=r.ready ∧ (change r).immediateReady=r.immediateReady ∧
      (change r).recoveryReady=r.recoveryReady ∧
      (change r).resolvedPending=r.resolvedPending) :
    Steady platform held (modifyResolver change) := by
  refine ⟨fun {world} hworld=>?_⟩
  obtain ⟨hnext,hpending,hindex,hready,himmediate,hqueue,hresolved⟩ := h world.resolver
  refine .modified ⟨?_,.of_eq hnext hpending hready himmediate hqueue hresolved,hresolved.subset⟩
  exact hworld.of_fields rfl rfl hnext hpending hindex hready himmediate hqueue hresolved.subset

lemma Consistent.resolvedPending_of_isEmpty
    (h : Consistent platform owed held world) (hempty : world.resolver.pending.isEmpty=true) :
    world.resolver.resolvedPending = ∅ := by
  refine Finset.eq_empty_of_forall_notMem fun sequence hmem=>?_
  obtain ⟨transaction,hpending,-⟩ := h.settled hmem
  have hsome := TreeMap.isEmpty_iff_forall_not_mem.1 hempty sequence
  exact hsome (TreeMap.mem_iff_isSome_getElem?.2 (by rw [hpending]; rfl))

lemma Consistent.dropEmptyPending (h : Consistent platform owed held world) :
    world.resolver.dropEmptyPending=world.resolver := by
  unfold BlobCacheResolver.dropEmptyPending
  split
  · rename_i hempty
    rw [← h.resolvedPending_of_isEmpty hempty]
  · rfl

lemma Steady.refreshPendingAccounting : Steady platform held (BlobCache.refreshPendingAccounting platform) := by
  refine .bind ?_ fun _=>.bind Calm.retainedCachedBytes.steady fun _=>.bind ?_ fun _ =>
    .bind .readResolver fun resolver=>?_
  · refine ⟨fun hworld=>.modified ?_⟩
    rw [hworld.dropEmptyPending]
    exact .refl hworld
  · exact .modifyBytes fun r=>⟨rfl,rfl,rfl,rfl,rfl,rfl,rfl⟩
  · split
    · exact .overflow
    · exact .modifyBytes fun r=>⟨rfl,rfl,rfl,rfl,rfl,rfl,rfl⟩

variable {events : List ChunkResyncEvent}

lemma Consistent.enqueueRecoveries (h : Consistent platform owed held world)
    (hplain : ∀ event ∈ events, event.requestedSubChunks=none) :
    Consistent platform owed held
      { world with resolver := world.resolver.enqueueRecoveries events } := by
  obtain ⟨queue,heq⟩ := enqueueRecoveries_eq world.resolver events
  obtain ⟨hformed,-⟩ := queues_enqueueRecoveries h.queueFormed hplain
  rw [heq] at hformed ⊢
  exact {
    __ := h
    queueFormed := hformed }

lemma resolved_enqueueRecoveries (resolver : BlobCacheResolver) (events : List ChunkResyncEvent) :
    (resolver.enqueueRecoveries events).resolvedPending=resolver.resolvedPending := by
  obtain ⟨queue,heq⟩ := enqueueRecoveries_eq resolver events
  rw [heq]

lemma Steady.enqueueRecoveries (hplain : ∀ event ∈ events, event.requestedSubChunks=none) :
    Steady platform held (BlobCache.enqueueRecoveries events) :=
  ⟨fun hworld=>.modified ⟨hworld.enqueueRecoveries hplain,
    .enqueueRecoveries hworld.queueFormed hplain,(resolved_enqueueRecoveries _ _).subset⟩⟩

end Bookkeeping

end Cinnabar.BlobCache
