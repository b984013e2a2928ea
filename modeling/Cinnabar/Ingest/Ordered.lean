import Cinnabar.Ingest.Footprint
import Cinnabar.Library.Runs

/-! # Ordered commit state -/

namespace Cinnabar.Ingest

def maxAdmittedWorldEvents : ℕ := 64
def maxAdmittedHeavyEvents : ℕ := 32
def maxDeferredWorldEvents : ℕ := maxAdmittedHeavyEvents
def maxStorageCount : ℕ := 16

/-- One block a packet replaces; what it becomes decides nothing here. -/
structure BlockUpdateEvent (V : Type) where
  dimension : ℤ
  position : ℤ × ℤ × ℤ
  layer : ℕ
  value : V

/-- What the workers and the wire hand to the committer: the forms it tells apart, over
sub-chunk entries `S`, block values `V` and everything else `O`. -/
inductive PreparedWorldEvent (S V O : Type) where
  | subChunks (dimension : ℤ) (entries : List S) (duration : ℕ)
  /-- One entry of a partially applied batch. -/
  | subChunk (dimension : ℤ) (entry : S) (duration : ℕ)
  /-- Decoded block mutations. -/
  | blockUpdates (result : O)
  | syncedBlockUpdates (result : O)
  /-- `Immediate(WorldEvent::BlockUpdates(_))` -/
  | immediateBlockUpdates (updates : List (BlockUpdateEvent V))
  /-- `Immediate(WorldEvent::SyncedBlockUpdates(_))` -/
  | immediateSyncedBlockUpdates (updates : List (BlockUpdateEvent V))
  | commitOnly
  | other (event : O)

def PreparedWorldEvent.isDecodedUpdates {S V O : Type} : PreparedWorldEvent S V O → Bool
  | .blockUpdates _ => true
  | .syncedBlockUpdates _ => true
  | _ => false

/-- One synchronous commit operation whose admission remains owned by the committer. -/
inductive CommitStep (S V O : Type) where
  /-- Recheck the shared time budget after installing a partially applied batch. -/
  | batchStarted
  | apply (sequence : ℕ) (event : PreparedWorldEvent S V O)
  | blockUpdates (sequence : ℕ) (events : List (BlockUpdateEvent V))
  | syncedBlockUpdates (sequence : ℕ) (packets : List (List (BlockUpdateEvent V)))

/-- A partially applied network batch retains its original FIFO sequence. -/
structure PendingSubChunkCommit (S : Type) where
  sequence : ℕ
  dimension : ℤ
  entries : List S
  duration : ℕ

/-- Which admission bound an unfinished event holds. -/
inductive Held where
  | light
  | heavy
  /-- Ordered behind earlier terrain without decode admission yet. -/
  | deferred
  /-- A retained payload; light packets may already own admission credit. -/
  | ingress (lightReserved : Bool)
deriving DecidableEq

inductive Slot (S V O : Type) where
  /-- Admitted; its prepared event has not arrived. -/
  | waiting
  | ready (event : PreparedWorldEvent S V O)
  /-- Popped: applying, a partial batch, or a block decode fence. -/
  | active

structure Entry (S V O : Type) where
  footprint : Footprint
  held : Held
  slot : Slot S V O

/-- What one commit pass may spend. -/
structure CommitBudget where
  heavy : Bool
  /-- Heavy steps may include pure chunk data. -/
  chunkData : Bool
  /-- The server position scopes retention, so positional events order with terrain. -/
  couplePosition : Bool

inductive WorldStreamError where
  | duplicateOrPast (sequence next : ℕ)
  | admissionFull (sequence admitted heavyAdmitted : ℕ)
deriving DecidableEq

structure OrderedCommitState (S V O : Type) where
  /-- Lowest unfinished sequence; everything below it has finished. -/
  frontier : ℕ
  /-- Admitted, unfinished events only. -/
  entries : Finmap fun _ : ℕ=>Entry S V O
  /-- Finished runs above the frontier. -/
  finished : Runs := .empty
  unfinished : ℕ := 0
  light : ℕ := 0
  heavy : ℕ := 0
  deferred : ℕ := 0
  ingress : ℕ := 0
  /-- Light slots reserved by payloads still owned by the ingress adapter. -/
  ingressLight : ℕ := 0
  pendingSubChunks : Option (PendingSubChunkCommit S) := none
  /-- The block batch awaiting decode, with the last sequence it merged. -/
  blockingBlockUpdates : Option (ℕ × ℕ) := none
  blockUpdateRangeEnd : Option ℕ := none
  applying : Option ℕ := none
  lastStepHeavy : Bool := false
  earlier : EarlierEvents := {}

namespace OrderedCommitState

variable {S V O : Type}

def new (firstSequence : ℕ) : OrderedCommitState S V O := { frontier := firstSequence, entries := ∅ }

variable (s : OrderedCommitState S V O)

def isFinished (sequence : ℕ) : Bool :=
  sequence < s.frontier || sequence ≤ s.finished.through sequence

/-- `finished_through` where `entry` is the next admitted, unfinished sequence at or after `start`. -/
def finishedThroughBefore (start entry : ℕ) : ℕ :=
  if start=entry then start-1 else s.finished.through start

def scan : List (ℕ × Entry S V O) :=
  ((s.entries.keys.filter (s.frontier ≤ ·)).sort (· ≤ ·)).filterMap fun sequence =>
    (s.entries.lookup sequence).map fun entry=>(sequence,entry)

def validateSequence (sequence : ℕ) : Except WorldStreamError Unit :=
  if s.isFinished sequence || (s.entries.lookup sequence).isSome then
    .error (.duplicateOrPast sequence s.frontier)
  else .ok ()

def full (sequence : ℕ) : WorldStreamError :=
  .admissionFull sequence s.unfinished s.heavy

/-- Counts ordinary and reserved light credit against the same consumer bound. -/
def lightCapacityWithReservations (retainedCommits reservations : ℕ) :
    ℕ :=
  maxAdmittedWorldEvents - (s.light+retainedCommits+reservations)

def lightCapacity (retainedCommits : ℕ) : ℕ :=
  s.lightCapacityWithReservations retainedCommits s.ingressLight

def heavyCapacity : ℕ := maxAdmittedHeavyEvents-s.heavy

def deferredCapacity : ℕ := maxDeferredWorldEvents-s.deferred

/-- Headroom for any next event, light or terrain, before the outbound-request bound. -/
def remainingAdmissionCapacity (retainedCommits : ℕ) : ℕ :=
  let terrain := s.deferredCapacity + if s.deferred=0 then s.heavyCapacity else 0
  min (s.lightCapacity retainedCommits) terrain

def insertEntry (sequence : ℕ) (footprint : Footprint)
    (held : Held) : OrderedCommitState S V O :=
  { s with
    unfinished := s.unfinished+1
    entries := s.entries.insert sequence ⟨footprint,held,.waiting⟩ }

/-- `OrderedCommitState::admit`: reserves one slot in the event's lane. -/
def admitEntry (sequence : ℕ) (footprint : Footprint)
    (retainedCommits : ℕ) : Except WorldStreamError (OrderedCommitState S V O) := do
  s.validateSequence sequence
  if footprint.heavy then
    if s.heavyCapacity=0 then .error (s.full sequence)
    else .ok ({ s with heavy := s.heavy+1 }.insertEntry sequence footprint .heavy)
  else if s.lightCapacity retainedCommits=0 then .error (s.full sequence)
  else .ok ({ s with light := s.light+1 }.insertEntry sequence footprint .light)

/-- Orders an event whose preparation must wait behind earlier deferred terrain. -/
def admitDeferred (sequence : ℕ) (footprint : Footprint)
    (retainedCommits : ℕ) : Except WorldStreamError (OrderedCommitState S V O) := do
  s.validateSequence sequence
  if footprint.heavy then
    if s.deferredCapacity=0 then .error (s.full sequence)
    else .ok ({ s with deferred := s.deferred+1 }.insertEntry sequence footprint .deferred)
  else if s.lightCapacity retainedCommits=0 then .error (s.full sequence)
  else .ok ({ s with light := s.light+1 }.insertEntry sequence footprint .light)

/-- Moves deferred heavy terrain into decode admission. -/
def promoteDeferred (sequence : ℕ) :
    Option (OrderedCommitState S V O) :=
  match s.entries.lookup sequence with
  | none => none
  | some entry =>
    if entry.held = .deferred then
      some { s with
        deferred := s.deferred-1
        heavy := s.heavy+1
        entries := s.entries.insert sequence { entry with held := .heavy } }
    else some s

/-- Queues an admitted prepared event without advancing the mutation frontier. -/
def insertReady (sequence : ℕ) (event : PreparedWorldEvent S V O) :
    Except WorldStreamError (OrderedCommitState S V O) :=
  match s.entries.lookup sequence with
  | some ⟨footprint,held,.waiting⟩ =>
    .ok { s with entries := s.entries.insert sequence ⟨footprint,held,.ready event⟩ }
  | _ => .error (.duplicateOrPast sequence s.frontier)

def normalize (sequence : ℕ) : OrderedCommitState S V O :=
  match s.entries.lookup sequence with
  | none => s
  | some entry =>
    { s with
      entries := s.entries.insert sequence { entry with footprint := { entry.footprint with heavy := false } } }

def releaseHeld : Held → OrderedCommitState S V O
  | .light => { s with light := s.light-1 }
  | .heavy => { s with heavy := s.heavy-1 }
  | .deferred => { s with deferred := s.deferred-1 }
  | .ingress lightReserved =>
    { s with
      ingress := s.ingress-1
      ingressLight := s.ingressLight-lightReserved.toNat }

def release (sequence : ℕ) : OrderedCommitState S V O :=
  match s.entries.lookup sequence with
  | none => s
  | some entry =>
    { s with
      entries := s.entries.erase sequence
      unfinished := s.unfinished-1 }.releaseHeld entry.held

/-- Rolls back admission when preparing an accepted event cannot be queued. -/
def cancelAdmission (sequence : ℕ) : OrderedCommitState S V O :=
  s.release sequence

def reserveIngressLight (sequence retainedCommits : ℕ) :
    Option (Bool × OrderedCommitState S V O) :=
  match s.entries.lookup sequence with
  | some ⟨footprint,.ingress lightReserved,slot⟩ =>
    if footprint.heavy || lightReserved then some (true,s)
    else if s.lightCapacity retainedCommits=0 then some (false,s)
    else some (true,{ s with
      ingressLight := s.ingressLight+1
      entries := s.entries.insert sequence ⟨footprint,.ingress true,slot⟩ })
  | _ => none

/-- Records a bounded ingress payload and reserves light credit when available. -/
def retainIngress (sequence : ℕ) (footprint : Footprint)
    (capacity retainedCommits : ℕ) :
    Except WorldStreamError (Option (Bool × OrderedCommitState S V O)) := do
  s.validateSequence sequence
  if capacity ≤ s.ingress then .error (s.full sequence)
  else .ok (({ s with ingress := s.ingress+1 }.insertEntry sequence footprint
    (.ingress false)).reserveIngressLight sequence retainedCommits)

/-- Borrows a retained payload's dependencies until its reservation is released. -/
def retainedIngressFootprint (sequence : ℕ) : Option Footprint :=
  match s.entries.lookup sequence with
  | some ⟨footprint,.ingress _,_⟩ => some footprint
  | _ => none

/-- Reports light headroom after excluding this payload's own reserved credit. -/
def retainedIngressLightCapacity (sequence retainedCommits : ℕ) :
    Option ℕ :=
  match s.entries.lookup sequence with
  | some ⟨_,.ingress lightReserved,_⟩ =>
    some (s.lightCapacityWithReservations retainedCommits (s.ingressLight-lightReserved.toNat))
  | _ => none

/-- Releases a payload's dependency record and credit immediately before normal admission. -/
def releaseIngress (sequence : ℕ) :
    Option (OrderedCommitState S V O) :=
  match s.entries.lookup sequence with
  | some ⟨_,.ingress _,_⟩ => some (s.cancelAdmission sequence)
  | _ => none

/-- Finishes a whole merged event range, then advances the contiguous frontier. -/
def releaseRange (start last : ℕ) : OrderedCommitState S V O :=
  let sequences := List.range' start (last+1-start)
  let released := sequences.foldl release s
  if sequences.all fun sequence=>(s.entries.lookup sequence).isNone then released
  else
    let (run,finished) := released.finished.merge (start,last)
    if run.1 ≤ released.frontier then
      { released with frontier := run.2+1, finished := finished }
    else { released with finished := finished.insert run }

/-- One partial batch and one block decode fence exist at a time. -/
def kindIsFree : PreparedWorldEvent S V O → Bool
  | .subChunks .. => s.pendingSubChunks.isNone
  | .immediateBlockUpdates _ => s.blockingBlockUpdates.isNone
  | .immediateSyncedBlockUpdates _ => s.blockingBlockUpdates.isNone
  | _ => true

/-- The summary at an entry: a gap before it holds sequences not admitted yet. -/
def earlierAt (expected sequence : ℕ) (earlier : EarlierEvents) :
    EarlierEvents :=
  if sequence≠s.finishedThroughBefore expected sequence+1 then earlier.addUnknown else earlier

def commitsNow (budget : CommitBudget) (earlier : EarlierEvents)
    (entry : Entry S V O) : Bool :=
  match entry.slot with
  | .ready event =>
    (budget.heavy || !(entry.footprint.heavy || entry.footprint.barrier)) &&
      (budget.chunkData || !isHeavyChunkData entry.footprint) && s.kindIsFree event &&
      !earlier.blocks entry.footprint budget.couplePosition
  | _ => false

def scanUnblocked (s : OrderedCommitState S V O) (budget : CommitBudget) :
    ℕ → EarlierEvents → List (ℕ × Entry S V O) → Option ℕ × EarlierEvents
  | _, earlier, [] => (none,earlier)
  | expected, earlier, (sequence,entry) :: rest =>
    let earlier := s.earlierAt expected sequence earlier
    if earlier.isBarrier then (none,earlier)
    else if s.commitsNow budget earlier entry then (some sequence,earlier)
    else s.scanUnblocked budget (sequence+1) (earlier.add entry.footprint budget.couplePosition) rest

def batchWaitsFor : Slot S V O → Option ℕ
  | .ready (.subChunks ..) => s.pendingSubChunks.map (·.sequence)
  | _ => none

def isFree : Slot S V O → Bool
  | .ready event => s.kindIsFree event
  | _ => false

def isPartialBatch (sequence : ℕ) : Bool :=
  s.pendingSubChunks.any fun pending=>pending.sequence=sequence

def chunkDataHoldingReadyWork (s : OrderedCommitState S V O) (couplePosition : Bool) :
    ℕ → EarlierEvents → EarlierEvents → Option ℕ → List (ℕ × Entry S V O) → Option ℕ × EarlierEvents
  | _, earlier, _, _, [] => (none,earlier)
  | expected, earlier, skipped, firstSkipped, (sequence,entry) :: rest =>
    let earlier := s.earlierAt expected sequence earlier
    if earlier.isBarrier then (none,earlier)
    else
      let blocked := earlier.blocks entry.footprint couplePosition
      let free := s.isFree entry.slot
      let waitsFor := s.batchWaitsFor entry.slot
      if !blocked && isHeavyChunkData entry.footprint && (free || s.isPartialBatch sequence || waitsFor.isSome) then
        s.chunkDataHoldingReadyWork couplePosition (sequence+1) earlier (skipped.add entry.footprint couplePosition)
          (firstSkipped.or (some (waitsFor.getD sequence))) rest
      else if !blocked && free && skipped.blocks entry.footprint couplePosition then
        (firstSkipped,earlier)
      else
        s.chunkDataHoldingReadyWork couplePosition (sequence+1)
          (earlier.add entry.footprint couplePosition) skipped firstSkipped rest

/-- The first ready event `budget` may commit that no earlier unfinished event blocks, and the
summary of everything before it; a partial batch's sequence means continuing that batch. -/
def findUnblocked (budget : CommitBudget) :
    Option ℕ × EarlierEvents :=
  match s.scanUnblocked budget s.frontier {} s.scan with
  | (some sequence,earlier) => (some sequence,earlier)
  | (none,earlier) =>
    if !budget.heavy || budget.chunkData then (none,earlier)
    else
      match s.chunkDataHoldingReadyWork budget.couplePosition s.frontier {} {} none s.scan with
      | (none,earlier) => (none,earlier)
      | (some skipped,earlier) =>
        if s.isPartialBatch skipped then (some skipped,earlier)
        else s.scanUnblocked { budget with chunkData := true } s.frontier {} s.scan

variable (events : List (BlockUpdateEvent V))

def blockUpdatesCanCoalesce : Bool :=
  events.all fun event=>event.layer < maxStorageCount

def updateKey (event : BlockUpdateEvent V) : SubChunkKey :=
  ⟨event.dimension,event.position.1/16,event.position.2.1/16,event.position.2.2/16⟩

/-- Identifies a packet-sized section batch; malformed layers retain their own failure boundary. -/
def syncedUpdateKey : Option SubChunkKey :=
  events.head?.bind fun first =>
    if events.all fun event=>event.layer < maxStorageCount && updateKey event=updateKey first then
      some (updateKey first)
    else none

def activate (sequence : ℕ) (entry : Entry S V O) :
    OrderedCommitState S V O :=
  { s with entries := s.entries.insert sequence { entry with slot := .active } }

def takeAdjacentBlockUpdates (last : ℕ) (budget : CommitBudget) :
    Option (List (BlockUpdateEvent V) × OrderedCommitState S V O) :=
  match s.entries.lookup (last+1) with
  | some entry =>
    match entry.slot with
    | .ready (.immediateBlockUpdates updates) =>
      if !blockUpdatesCanCoalesce updates || s.earlier.blocks entry.footprint budget.couplePosition
      then none
      else some (updates,s.activate (last+1) entry)
    | _ => none
  | none => none

/-- Merges only adjacent packets for the same section. -/
def takeAdjacentSyncedUpdates (last : ℕ) (key : SubChunkKey)
    (budget : CommitBudget) : Option (List (BlockUpdateEvent V) × OrderedCommitState S V O) :=
  match s.entries.lookup (last+1) with
  | some entry =>
    match entry.slot with
    | .ready (.immediateSyncedBlockUpdates updates) =>
      if syncedUpdateKey updates≠some key || s.earlier.blocks entry.footprint budget.couplePosition
      then none
      else some (updates,s.activate (last+1) entry)
    | _ => none
  | none => none

/-- `while let Some(next) = take(end)`: the packets taken, and the last sequence merged; every
round takes another entry, so `fuel` is their number. -/
def takeAdjacent (take : OrderedCommitState S V O → ℕ →
    Option (List (BlockUpdateEvent V) × OrderedCommitState S V O)) :
    ℕ → OrderedCommitState S V O → ℕ → List (List (BlockUpdateEvent V)) × ℕ × OrderedCommitState S V O
  | 0, s, last => ([],last,s)
  | fuel+1, s, last =>
    match take s last with
    | none => ([],last,s)
    | some (packet,s) =>
      let merged := takeAdjacent take fuel s (last+1)
      (packet::merged.1,merged.2)

/-- Applies the partial sub-chunk batch's next entry, or finishes the batch. -/
def continueSubChunks (pending : PendingSubChunkCommit S) :
    CommitStep S V O × OrderedCommitState S V O :=
  let s := { s with
    applying := some pending.sequence
    lastStepHeavy := true }
  match pending.entries with
  | [] => (.apply pending.sequence .commitOnly,s)
  | entry::rest =>
    (.apply pending.sequence (.subChunk pending.dimension entry pending.duration),
      { s with pendingSubChunks := some { pending with entries := rest } })

/-- Pops an unblocked ready event; `none` would be a panic. -/
def popReady (budget : CommitBudget) (sequence : ℕ) :
    Option (CommitStep S V O × OrderedCommitState S V O) :=
  match s.entries.lookup sequence with
  | none => none
  | some entry =>
    match entry.slot with
    | .ready event =>
      let fuel := s.entries.keys.card
      let s := s.activate sequence entry
      let heavy := entry.footprint.heavy || entry.footprint.barrier
      match event with
      | .subChunks dimension entries duration =>
        some (.batchStarted, { s with pendingSubChunks := some ⟨sequence,dimension,entries,duration⟩ })
      | .immediateBlockUpdates events =>
        let merged := if blockUpdatesCanCoalesce events then
          takeAdjacent (fun s last=>s.takeAdjacentBlockUpdates last budget) fuel s sequence
          else ([],sequence,s)
        some (.blockUpdates sequence (events++merged.1.flatten),
          { merged.2.2 with
            lastStepHeavy := heavy
            blockUpdateRangeEnd := some merged.2.1
            applying := some sequence })
      | .immediateSyncedBlockUpdates events =>
        let merged := match syncedUpdateKey events with
          | some key =>
            takeAdjacent (fun s last=>s.takeAdjacentSyncedUpdates last key budget) fuel s sequence
          | none => ([],sequence,s)
        some (.syncedBlockUpdates sequence (events::merged.1),
          { merged.2.2 with
            lastStepHeavy := heavy
            blockUpdateRangeEnd := some merged.2.1
            applying := some sequence })
      | event =>
        some (.apply sequence event,
          { s with
            lastStepHeavy := heavy
            applying := some sequence })
    | _ => none

/-- Continues the partial batch when that was found, or pops the ready event found. -/
def takeFound (budget : CommitBudget) :
    Option ℕ → Option (Option (CommitStep S V O) × OrderedCommitState S V O)
  | none => some (none,s)
  | some sequence =>
    match s.pendingSubChunks.filter fun pending=>pending.sequence=sequence with
    | some pending => some ((s.continueSubChunks pending).map some id)
    | none => (s.popReady budget sequence).map fun out=>out.map some id

/-- One synchronous mutation with no earlier unfinished conflict, restricted to what this pass
may spend; the outer `none` would be a panic. -/
def nextCommitWithin (budget : CommitBudget) :
    Option (Option (CommitStep S V O) × OrderedCommitState S V O) :=
  let s := { s with lastStepHeavy := false }
  if s.applying.isSome then some (none,s)
  else
    match if budget.heavy && budget.chunkData then s.pendingSubChunks else none with
    | some pending => some ((s.continueSubChunks pending).map some id)
    | none =>
      let found := s.findUnblocked budget
      { s with earlier := found.2 }.takeFound budget found.1

/-- Applies one decode completion's ordered disposition: whether the popped block batch must
apply now, or the completion waits for its ordinary turn. -/
def completeDecode (sequence : ℕ)
    (event : PreparedWorldEvent S V O) : Except WorldStreamError (Bool × OrderedCommitState S V O) :=
  match s.blockingBlockUpdates with
  | some (start,last) =>
    if start=sequence ∧ event.isDecodedUpdates=true then
      .ok (true,{ s with blockingBlockUpdates := none }.releaseRange sequence last)
    else (s.insertReady sequence event).map fun s=>(false,s)
  | none => (s.insertReady sequence event).map fun s=>(false,s)

/-- Installs the async fence only after the caller snapshots and enqueues a block batch. -/
def deferBlockUpdates (sequence : ℕ) :
    Option (OrderedCommitState S V O) :=
  if s.applying=some sequence then
    some { s with
      applying := none
      blockUpdateRangeEnd := none
      blockingBlockUpdates := some (sequence,s.blockUpdateRangeEnd.getD sequence) }
  else none

/-- Completes one applied step, releasing admission only after its entire event finishes. -/
def finishCommit (sequence : ℕ) : Bool × OrderedCommitState S V O :=
  if s.applying≠some sequence then (false,s)
  else
    let s := { s with applying := none }
    match s.pendingSubChunks with
    | some pending =>
      if pending.sequence=sequence then
        if pending.entries ≠ [] then (false,s)
        else
          (true,{ s with
            pendingSubChunks := none
            blockUpdateRangeEnd := none }.releaseRange sequence (s.blockUpdateRangeEnd.getD sequence))
      else
        (true,{ s with blockUpdateRangeEnd := none }.releaseRange sequence (s.blockUpdateRangeEnd.getD sequence))
    | none =>
      (true,{ s with blockUpdateRangeEnd := none }.releaseRange sequence (s.blockUpdateRangeEnd.getD sequence))

/-- What the stream asks of the committer about an event it was handed. -/
inductive Op (S V O : Type) where
  | admitEntry (sequence : ℕ) (footprint : Footprint) (retainedCommits : ℕ)
  | admitDeferred (sequence : ℕ) (footprint : Footprint) (retainedCommits : ℕ)
  | promoteDeferred (sequence : ℕ)
  | insertReady (sequence : ℕ) (event : PreparedWorldEvent S V O)
  | normalize (sequence : ℕ)
  | cancelAdmission (sequence : ℕ)
  | completeDecode (sequence : ℕ) (event : PreparedWorldEvent S V O)
  | nextCommitWithin (budget : CommitBudget)
  | deferBlockUpdates (sequence : ℕ)
  | finishCommit (sequence : ℕ)

/-- The event an operation is about. -/
def Op.sequence : Op S V O → Option ℕ
  | .admitEntry sequence _ _ => some sequence
  | .admitDeferred sequence _ _ => some sequence
  | .promoteDeferred sequence => some sequence
  | .insertReady sequence _ => some sequence
  | .normalize sequence => some sequence
  | .cancelAdmission sequence => some sequence
  | .completeDecode sequence _ => some sequence
  | .nextCommitWithin _ => none
  | .deferBlockUpdates sequence => some sequence
  | .finishCommit sequence => some sequence

def Op.run (op : Op S V O) (s : OrderedCommitState S V O) : Option (OrderedCommitState S V O) :=
  match op with
  | .admitEntry sequence footprint retainedCommits =>
    (s.admitEntry sequence footprint retainedCommits).toOption
  | .admitDeferred sequence footprint retainedCommits =>
    (s.admitDeferred sequence footprint retainedCommits).toOption
  | .promoteDeferred sequence => s.promoteDeferred sequence
  | .insertReady sequence event => (s.insertReady sequence event).toOption
  | .normalize sequence => some (s.normalize sequence)
  | .cancelAdmission sequence => some (s.cancelAdmission sequence)
  | .completeDecode sequence event => (s.completeDecode sequence event).toOption.map Prod.snd
  | .nextCommitWithin budget => (s.nextCommitWithin budget).map Prod.snd
  | .deferBlockUpdates sequence => s.deferBlockUpdates sequence
  | .finishCommit sequence => some (s.finishCommit sequence).2

end OrderedCommitState

end Cinnabar.Ingest
