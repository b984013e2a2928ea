import Cinnabar.BlobCache.Popping

/-! # Runs of a resolver -/

namespace Cinnabar.BlobCache

open Std

inductive Operation where
  | acceptCachedPacket (packet : Packet) (rawPacketBytes : Option ℕ)
  | acceptImmediate (value : ResolverReady) (accountedBytes : ℕ)
  | acceptMissResponse (response : List (ℕ × Bytes))
  | unblockOrdinaryLane
  | popReady
  | armFastTransferReset
  | resetPendingForFastTransferCandidate
  | recoverPending
  | resetPending
  | idle
deriving DecidableEq

inductive Reply where
  | status (status : BlobCacheStatus)
  | ready (ready : Option BlobCacheReady)
  | done
deriving DecidableEq

/-- An operation, what others do at each of its critical sections, and its container sizes. -/
structure Action where
  operation : Operation
  interference : List (List Interference) := []
  containers : List ℕ := []
deriving DecidableEq

section Operations

variable (platform : Platform)

def runOperation : Operation → ResolverM Reply
  | .acceptCachedPacket packet rawPacketBytes => do
    let status ← acceptCachedPacket platform packet rawPacketBytes
    pure (.status status)
  | .acceptImmediate value accountedBytes => do
    acceptImmediate platform value accountedBytes
    pure .done
  | .acceptMissResponse response => do
    let _ ← acceptMissResponse platform response
    pure .done
  | .unblockOrdinaryLane => do
    let _ ← unblockOrdinaryLane platform
    pure .done
  | .popReady => do
    let ready ← popReady platform
    pure (.ready ready)
  | .armFastTransferReset => do
    armFastTransferReset
    pure .done
  | .resetPendingForFastTransferCandidate => do
    let _ ← resetPendingForFastTransferCandidate platform
    pure .done
  | .recoverPending => do
    recoverPending platform
    pure .done
  | .resetPending => do
    resetPending platform
    pure .done
  | .idle => do
    let _ ← lock platform get
    pure .done

def Operation.offered : Operation → Option PendingPacket
  | .acceptCachedPacket packet _ => packet.pendingPacket
  | .acceptImmediate _ _ => none
  | .acceptMissResponse _ => none
  | .unblockOrdinaryLane => none
  | .popReady => none
  | .armFastTransferReset => none
  | .resetPendingForFastTransferCandidate => none
  | .recoverPending => none
  | .resetPending => none
  | .idle => none

def Operation.isReset (operation : Operation) : Bool := operation = .resetPending

end Operations

/-- An item popped from a lane: when it was accepted, the packet it was offered as, the resolver
it was popped from, and the value handed on. -/
structure Emission where
  popped : Popped
  birth : ℕ
  origin : Option PendingPacket
  before : BlobCacheResolver
  value : BlobCacheReady

def Emission.columns (emission : Emission) : List ColumnKey := emission.popped.item.columns

structure Session where
  world : World := {}
  /-- Operations so far: an item's birth is the clock of the operation that accepted it. -/
  clock : ℕ := 0
  born : ℕ → ℕ := fun _=>0
  origin : ℕ → Option PendingPacket := fun _=>none
  offers : List (ℕ × PendingPacket) := []
  /-- Requests handed out, on a status or by a pop; `answered` are those on a status. -/
  handed : List (ℕ × ChunkResyncEvent) := []
  answered : List ChunkResyncEvent := []
  emitted : List Emission := []
  faults : List Fault := []
  resets : ℕ := 0

/-- A chunk is accounted for whenever it is offered, a reply once it is admitted. -/
def BlobCacheStatus.counts (status : BlobCacheStatus) : PendingPacket → Bool
  | .levelChunk _ => true
  | .subChunk _ => status.accepted

def BlobCacheReady.resyncs : BlobCacheReady → List ChunkResyncEvent
  | .worldEvent (.chunkResync event) => [event]
  | .worldEvent _ => []
  | .packet _ => []

namespace Session

variable (platform : Platform) (session : Session)

def start (action : Action) : World :=
  { session.world with interference := action.interference, containers := action.containers }

/-- The clock advances; the sequence an operation took is dated and bound to its packet. -/
def numbered (operation : Operation) (world : World) : Session :=
  let next := session.world.resolver.nextReadySequence
  { session with
    world := world
    clock := session.clock+1
    born :=
      if world.resolver.nextReadySequence=next+1 then
        Function.update session.born next session.clock
      else session.born
    origin :=
      if world.resolver.nextReadySequence=next+1 then
        Function.update session.origin next operation.offered
      else session.origin
    resets := session.resets + if operation.isReset then 1 else 0 }

def record (operation : Operation) (later : Session) : Reply → Session
  | .status status =>
    { later with
      offers := later.offers ++ (operation.offered.toList.filter status.counts).map fun packet=>(session.clock,packet)
      handed := later.handed++status.recovery.toList.map fun event=>(session.clock,event)
      answered := later.answered++status.recovery.toList }
  | .ready none => later
  | .ready (some value) =>
    match session.world.resolver.nextRecovery, session.world.resolver.nextReady with
    | some _, _ =>
      { later with handed := later.handed++value.resyncs.map fun event=>(session.clock,event) }
    | none, some popped =>
      { later with
        emitted := later.emitted ++ [⟨popped,session.born popped.sequence,session.origin popped.sequence,
            session.world.resolver,value⟩] }
    | none, none => later
  | .done => later

def step (action : Action) : Session :=
  match runOperation platform action.operation (session.start action) with
  | .ok reply world =>
    session.record action.operation (session.numbered action.operation world) reply
  | .error fault world =>
    { session.numbered action.operation world with faults := session.faults ++ [fault] }

def run (actions : List Action) : Session := actions.foldl (step platform) {}

end Session

section Progress

variable {platform : Platform} {world t : World}

/-- What an operation without an error does to the retained work. -/
inductive Progress (platform : Platform) (operation : Operation) (reply : Reply)
    (r t : BlobCacheResolver) : Prop
  | offered {packet : PendingPacket} {status : BlobCacheStatus}
      (hoffered : operation.offered=some packet) (hreply : reply = .status status)
      (h : Offered platform packet status r t)
  | arrived {columns : List ColumnKey} {entered : BlobCacheResolver} (hreply : reply = .done)
      (hentered : Entered r columns entered) (h : Evolves platform [] entered t)
  | evolved (hreply : reply = .done ∨ reply = .ready none) (h : Evolves platform [] r t)
  | requested {event : ChunkResyncEvent} (hrecovery : r.nextRecovery=some event)
      (hreply : reply = .ready (some (.worldEvent (.chunkResync event))))
      (h : Evolves platform [event] r t)
  | emitted {popped : Popped} {left : BlobCacheResolver} (hrecovery : r.nextRecovery=none)
      (hnext : r.nextReady=some popped)
      (hreply : reply = .ready (some popped.item.value.intoPublic))
      (hleft : Left r popped left) (h : Evolves platform [] left t)
  | cleared (hreset : operation.isReset=true) (hreply : reply = .done) (h : t = .reset)

/-- What an operation with an error leaves of the lanes. -/
inductive Breakage (platform : Platform) (r t : BlobCacheResolver) : Prop
  | evolved {handed : List ChunkResyncEvent} (h : Evolves platform handed r t)
  | arrived {columns : List ColumnKey} {entered : BlobCacheResolver}
      (hentered : Entered r columns entered) (h : Evolves platform [] entered t)
  | left {popped : Popped} {left : BlobCacheResolver} (hleft : Left r popped left) (h : Evolves platform [] left t)
  | cleared (h : t = .reset)

/-- Neither `expect` of the resolution, and no blob missing there. -/
def Fault.Harmless (fault : Fault) : Prop :=
  fault ≠ .resolvedExpect ∧ ∀ hash, fault ≠ .error (.missingResolvedBlob hash)

structure Keeping (platform : Platform) (world t : World) : Prop where
  consistent : Consistent platform [] [] t
  resolved : world.resolver.resolvedPending = ∅ → t.resolver.resolvedPending = ∅
  stuck : ∀ {sequence : ℕ}, t.resolver.Stuck sequence → world.resolver.Stuck sequence

lemma Drained.keeping (h : Drained platform [] world t) : Keeping platform world t :=
  ⟨h.consistent,h.resolved,h.evolves.stuck⟩

lemma keeping_of_reset (h : Consistent platform [] [] t) (hreset : t.resolver = .reset) :
    Keeping platform world t := by
  refine ⟨h,fun _=>by rw [hreset]; rfl,fun {sequence} hstuck=>?_⟩
  obtain ⟨-,transaction,hsome,-⟩ := hstuck
  rw [hreset,show BlobCacheResolver.reset.pending[sequence]? = none from
    TreeMap.getElem?_emptyc] at hsome
  cases hsome

lemma Arrived.keeping {columns : List ColumnKey} (h : Arrived platform columns world t) :
    Keeping platform world t := by
  obtain ⟨r,hentered,hevolves⟩ := h.entered
  refine ⟨h.consistent,h.resolved,fun hstuck=>?_⟩
  have hstuck := hevolves.stuck hstuck
  unfold BlobCacheResolver.Stuck at *
  rw [hentered.resolved,hentered.pending] at hstuck
  exact hstuck

lemma Departed.keeping {popped : Popped} (h : Departed platform popped world t) :
    Keeping platform world t := by
  obtain ⟨r,hleft,hevolves⟩ := h.left
  refine ⟨h.consistent,fun hempty=>Finset.subset_empty.1 (hempty ▸ h.resolved), fun hstuck=>?_⟩
  have hstuck := hevolves.stuck hstuck
  unfold BlobCacheResolver.Stuck at *
  rw [hleft.resolved,hleft.pending] at hstuck
  exact hstuck

lemma Rotated.keeping {handed : List ChunkResyncEvent}
    (h : Rotated platform handed world t) (ht : Consistent platform [] [] t) :
    Keeping platform world t :=
  ⟨ht,fun hempty=>Finset.subset_empty.1 (hempty ▸ h.resolved),h.evolves.stuck⟩

lemma harmless_overflow : (Fault.error .byteCountOverflow).Harmless := ⟨nofun,nofun⟩

/-- The operations that only rebuild or give up. -/
lemma drained_spec {α : Type} {program : ResolverM α} {operation : Operation}
    (h : Meets program world (fun _ t=>Drained platform [] world t)
      fun fault t=>fault = .error .byteCountOverflow ∧ Interrupted platform world t) :
    Meets (program >>= fun _=>pure Reply.done) world (fun reply t=>Keeping platform world t ∧
        Progress platform operation reply world.resolver t.resolver)
      fun fault t=>fault.Harmless ∧ Keeping platform world t ∧
        Breakage platform world.resolver t.resolver := by
  refine .bind (h.mono (fun _ t ht=>.pure ⟨ht.keeping,.evolved (Or.inl rfl) ht.evolves⟩) ?_)
  rintro fault t ⟨rfl,ht⟩
  refine ⟨harmless_overflow,?_⟩
  cases ht with
  | kept h => exact ⟨h.keeping,.evolved h.evolves⟩
  | cleared h hreset => exact ⟨keeping_of_reset h hreset,.cleared hreset⟩

lemma runOperation_spec (operation : Operation) (hworld : Consistent platform [] [] world) :
    Meets (runOperation platform operation) world (fun reply t=>Keeping platform world t ∧
        Progress platform operation reply world.resolver t.resolver)
      fun fault t=>fault.Harmless ∧ Keeping platform world t ∧
        Breakage platform world.resolver t.resolver := by
  have hsteady : ∀ {α : Type} {program : ResolverM α} {operation : Operation}, Steady platform [] program →
      Meets (program >>= fun _=>pure Reply.done) world (fun reply t=>Keeping platform world t ∧
          Progress platform operation reply world.resolver t.resolver)
        fun fault t=>fault.Harmless ∧ Keeping platform world t ∧
          Breakage platform world.resolver t.resolver := fun hsteady =>
    drained_spec ((hsteady.meets hworld).mono (fun _ _ ht=>.of_after ht) fun _ _ ht=>⟨ht.1,.kept (.of_after ht.2)⟩)
  cases operation with
  | acceptCachedPacket packet rawPacketBytes =>
    refine .bind ((acceptCachedPacket_spec hworld).mono
      (fun status t ⟨pending,hpending,ht⟩=>.pure ⟨⟨ht.consistent,ht.resolved,ht.stuck⟩,
        .offered hpending rfl ht.offered⟩) ?_)
    rintro fault t ⟨hfault,ht,hreset⟩
    refine ⟨?_,keeping_of_reset ht hreset,.cleared hreset⟩
    rcases hfault with rfl | rfl
    · exact ⟨nofun,nofun⟩
    · exact harmless_overflow
  | acceptImmediate value accountedBytes =>
    refine .bind ((acceptImmediate_spec hworld).mono (fun _ t ht=>?_) ?_)
    · obtain ⟨r,hentered,hevolves⟩ := ht.entered
      exact .pure ⟨ht.keeping,.arrived rfl hentered hevolves⟩
    · rintro fault t ⟨⟨error,rfl,hmissing⟩,ht⟩
      refine ⟨⟨nofun,fun hash h=>hmissing hash (by cases h; rfl)⟩,?_⟩
      rcases ht with rfl | ht
      · exact ⟨⟨hworld,id,id⟩,.evolved .refl⟩
      · obtain ⟨r,hentered,hevolves⟩ := ht.entered
        exact ⟨ht.keeping,.arrived hentered hevolves⟩
  | acceptMissResponse response => exact drained_spec (acceptMissResponse_spec hworld)
  | unblockOrdinaryLane => exact hsteady .unblockOrdinaryLane
  | popReady =>
    refine .bind ((popReady_spec hworld).mono (fun ready t ⟨ht,hpopped⟩=>.pure ?_) ?_)
    · cases hpopped with
      | nothing hrecovery hnext hready hsame =>
        subst hready hsame
        exact ⟨⟨hworld,id,id⟩,.evolved (Or.inr rfl) .refl⟩
      | requested hrecovery hready hrotated =>
        subst hready
        exact ⟨hrotated.keeping ht,.requested hrecovery rfl hrotated.evolves⟩
      | emitted hrecovery hnext hready hdeparted =>
        subst hready
        obtain ⟨r,hleft,hevolves⟩ := hdeparted.left
        exact ⟨hdeparted.keeping,.emitted hrecovery hnext rfl hleft hevolves⟩
    · rintro fault t ⟨rfl,ht,hlost⟩
      refine ⟨⟨nofun,nofun⟩,?_⟩
      rcases hlost with ⟨handed,hrotated⟩ | ⟨popped,hdeparted⟩
      · exact ⟨hrotated.keeping ht,.evolved hrotated.evolves⟩
      · obtain ⟨r,hleft,hevolves⟩ := hdeparted.left
        exact ⟨hdeparted.keeping,.left hleft hevolves⟩
  | armFastTransferReset => exact hsteady .arm
  | resetPendingForFastTransferCandidate =>
    exact drained_spec ((resetPendingForFastTransferCandidate_spec hworld).mono (fun _ _=>id)
      fun _ _ ht=>⟨ht.1,.kept ht.2⟩)
  | recoverPending =>
    exact drained_spec ((recoverPending_spec hworld).mono (fun _ _=>id) fun _ _ ht=>⟨ht.1,.kept ht.2⟩)
  | resetPending =>
    exact .bind ((resetPending_spec hworld).mono
      (fun _ t ⟨ht,hreset⟩=>.pure ⟨keeping_of_reset ht hreset,.cleared rfl rfl hreset⟩)
      fun _ _=>False.elim)
  | idle =>
    have hidle : Calm platform [] [] (lock platform get) := ⟨fun hworld=>meets_lock hworld fun w hw=>.get hw⟩
    exact hsteady hidle.steady

end Progress

end Cinnabar.BlobCache
