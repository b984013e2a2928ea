import Mathlib.Data.List.Basic
import Mathlib.Order.Basic

/-! # The movement ticker

Completed ticks wait in the outbox, are handed to the transport and come back as receipts.
-/

namespace Cinnabar.Movement

/-- Capacity of every movement retry queue. -/
def outboxCapacity : ℕ := 32

/-- The largest `u64`. -/
def u64Max : ℕ := 0xFFFFFFFFFFFFFFFF

/-- `saturating_add(1)` of a `u64`. -/
def saturatingSucc (n : ℕ) : ℕ := min (n+1) u64Max

inductive MovementSource where
  | freeCamera
  | physics
deriving DecidableEq

inductive PhysicsAuthorityFault where
  | unauthorized
  | tickMismatch (expected actual : ℕ)
  | outboxOverflow
  | invalidCompletedSample
  | correctionNotRetained (tick : ℕ)
  | correctionReplayFailed
  | replayWorldIdentityMismatch (tick : ℕ)
  | pendingWorldIdentityMismatch (tick : ℕ)
  | pendingTickMismatch (expected actual : ℕ)
  | pendingSessionMismatch (expected actual : ℕ)
  | indeterminatePhysicsSend (tick : ℕ)
deriving DecidableEq

/-- Failure of one bounded outbound movement flush. -/
inductive MovementSendError where
  | encode
  | transport
  | restoreOverflow
  | missingEvidenceContext
deriving DecidableEq

/-- Identity preserved through movement admission, acknowledgement and cancellation. -/
structure PhysicsSendIdentity where
  sessionGeneration : ℕ
  tick : ℕ
  admissionId : ℕ
  reanchorEpoch : ℕ
deriving DecidableEq

/-- A tick that the simulator completed in the world `worldIdentity`, without its pose. -/
structure PhysicsMovementSample (W : Type) where
  tick : ℕ
  worldIdentity : W
  /-- Every number of the sample is finite. -/
  finite : Bool := true
deriving DecidableEq

structure QueuedPhysicsSample (W : Type) where
  sessionGeneration : ℕ
  tick : ℕ
  worldIdentity : W
deriving DecidableEq

structure PendingPhysicsSend (W : Type) where
  identity : PhysicsSendIdentity
  sample : QueuedPhysicsSample W
  retryAfterCancellation : Bool
deriving DecidableEq

structure RiptideRequest where
  launch : ℕ
  afterTick : ℕ
deriving DecidableEq

/-- A release batch fenced behind the input tick that carries its facing. -/
structure HeldRelease (R : Type) where
  tick : ℕ
  packets : R
  facingSent : Bool
  riptide : Option RiptideRequest
deriving DecidableEq

/-- Bounded retry FIFO for completed, fixed-tick physics samples. -/
structure MovementTicker (W R : Type) where
  sessionActive : Bool := false
  source : MovementSource := .freeCamera
  sessionGeneration : ℕ := 0
  nextTick : ℕ := 0
  outbox : List (QueuedPhysicsSample W) := []
  pendingSends : List (PendingPhysicsSend W) := []
  /-- How much evidence waits to be taken. -/
  tickEvidence : ℕ := 0
  pendingFault : Option PhysicsAuthorityFault := none
  nextAdmissionId : ℕ := 0
  reanchorEpoch : ℕ := 0
  terminalDrain : Bool := false
  heldRelease : Option (HeldRelease R) := none
  /-- A sent release keeps its launch until the following movement reaches the socket. -/
  admittedRiptide : Option RiptideRequest := none
  writtenRiptideTick : Option ℕ := none
deriving DecidableEq

/-- What a replay of the prediction computed: a snap has no replayed samples. -/
structure PhysicsCorrectionPlan (W : Type) where
  snapped : Bool
  correctedTick : ℕ
  finalTick : ℕ
  replayedSamples : List (PhysicsMovementSample W)
deriving DecidableEq

inductive PhysicsCorrectionMode where
  | replayIfRetained
  | snap
deriving DecidableEq

inductive PhysicsCorrectionError where
  | invalidAnchor
  | notRetained (tick : ℕ)
  | replayFailed
  | worldIdentityMismatch (tick : ℕ)
deriving DecidableEq

namespace MovementTicker

variable {W R : Type} (ticker : MovementTicker W R)

def physicsIsAuthorized : Bool :=
  ticker.sessionActive && ticker.source == .physics

def pendingCount : ℕ :=
  ticker.outbox.length+ticker.pendingSends.length

def hasUnresolvedPositionAuthorityChange : Bool :=
  ticker.pendingSends.any fun pending=>pending.identity.reanchorEpoch != ticker.reanchorEpoch

def acceptingPhysicsAdmissions : Bool :=
  ticker.physicsIsAuthorized && !ticker.terminalDrain && !ticker.hasUnresolvedPositionAuthorityChange

def completedTick : ℕ := ticker.nextTick-1

/-- Publishes a new transport epoch and invalidates the transport-owned samples. A release whose
facing never reached the socket must not launch without it. -/
def reanchorPositionAuthority : MovementTicker W R :=
  { ticker with
    reanchorEpoch := ticker.reanchorEpoch+1
    heldRelease := ticker.heldRelease.filter fun held=>held.facingSent
    pendingSends := ticker.pendingSends.map fun pending =>
      { pending with retryAfterCancellation := false } }

/-- Also revokes the queued interactions, which are not modelled. -/
def positionAuthorityChanged : MovementTicker W R :=
  ticker.reanchorPositionAuthority

/-- Also keeps the flags of the next tick, which are not modelled. -/
def correctionAuthorityChanged : MovementTicker W R :=
  ticker.reanchorPositionAuthority

def failPhysicsAuthority (fault : PhysicsAuthorityFault) :
    MovementTicker W R :=
  let ticker := { ticker with pendingFault := ticker.pendingFault.or (some fault) }
  { ticker.positionAuthorityChanged with source := .freeCamera, outbox := [] }

def reset (sessionGeneration initialServerTick : ℕ) :
    MovementTicker W R :=
  { ticker.positionAuthorityChanged with
    heldRelease := none
    admittedRiptide := none
    writtenRiptideTick := none
    sessionActive := true
    sessionGeneration := sessionGeneration
    nextTick := saturatingSucc initialServerTick
    outbox := []
    pendingSends := []
    tickEvidence := 0
    pendingFault := none
    nextAdmissionId := 0
    terminalDrain := false }

def setSource (source : MovementSource) : MovementTicker W R :=
  if ticker.source=source then ticker
  else { ticker.positionAuthorityChanged with source, outbox := [], terminalDrain := false }

def reanchorSurfaceSpawn (tick : ℕ) : MovementTicker W R :=
  { ticker.positionAuthorityChanged with
    nextTick := max ticker.nextTick (saturatingSucc tick), outbox := [] }

def beginTerminalDrain : MovementTicker W R :=
  if ticker.physicsIsAuthorized then { ticker with terminalDrain := true } else ticker

/-- Revokes old-life releases and launches. -/
def discardRespawnActions : MovementTicker W R :=
  { ticker with heldRelease := none, admittedRiptide := none, writtenRiptideTick := none }

def beginRespawnSearch : MovementTicker W R :=
  { ticker.discardRespawnActions.positionAuthorityChanged with outbox := [] }

def snapshot : MovementTicker W R :=
  { ticker with nextTick := saturatingSucc ticker.nextTick }

def enqueueCompletedPhysics (completed : PhysicsMovementSample W) :
    MovementTicker W R × Except PhysicsAuthorityFault Unit :=
  if !ticker.acceptingPhysicsAdmissions then (ticker,.error .unauthorized)
  else if completed.tick≠ticker.nextTick then
    let fault := .tickMismatch ticker.nextTick completed.tick
    (ticker.failPhysicsAuthority fault,.error fault)
  else if ticker.pendingCount=outboxCapacity then
    (ticker.failPhysicsAuthority .outboxOverflow,.error .outboxOverflow)
  else if !completed.finite then
    (ticker.failPhysicsAuthority .invalidCompletedSample,.error .invalidCompletedSample)
  else
    ({ ticker.snapshot with outbox := ticker.outbox ++ [{
        sessionGeneration := ticker.sessionGeneration, tick := ticker.nextTick
        worldIdentity := completed.worldIdentity }] },.ok ())

/-- Advances the global input clock through a stationary tick without a wire packet. -/
def withholdRespawnInput (completed : PhysicsMovementSample W) :
    MovementTicker W R × Except PhysicsAuthorityFault Unit :=
  if !ticker.acceptingPhysicsAdmissions then (ticker,.error .unauthorized)
  else if completed.tick≠ticker.nextTick then
    let fault := .tickMismatch ticker.nextTick completed.tick
    (ticker.failPhysicsAuthority fault,.error fault)
  else (ticker.snapshot,.ok ())

section

variable (sample : QueuedPhysicsSample W)

def nextSendIdentity :
    PhysicsSendIdentity where
  sessionGeneration := sample.sessionGeneration
  tick := sample.tick
  admissionId := ticker.nextAdmissionId
  reanchorEpoch := ticker.reanchorEpoch

def noteCommandAdmitted (identity : PhysicsSendIdentity)
    (sample : QueuedPhysicsSample W) : MovementTicker W R :=
  { ticker with
    nextAdmissionId := saturatingSucc ticker.nextAdmissionId
    pendingSends := ticker.pendingSends ++ [{
      identity, sample, retryAfterCancellation := false }] }

def restoreAdmitted (identity : PhysicsSendIdentity) :
    MovementTicker W R × Except PhysicsAuthorityFault (QueuedPhysicsSample W) :=
  let popped := { ticker with pendingSends := ticker.pendingSends.dropLast }
  match ticker.pendingSends.getLast?.filter fun pending=>pending.identity == identity with
  | some pending =>
    ({ popped with nextAdmissionId := ticker.nextAdmissionId-1 },.ok pending.sample)
  | none => (popped,.error (.pendingTickMismatch identity.tick
      (popped.pendingSends.getLast?.elim 0 fun pending=>pending.identity.tick)))

def retryFront :
    Option (MovementTicker W R) :=
  if !ticker.physicsIsAuthorized || ticker.outbox.length == outboxCapacity then none
  else some { ticker with outbox := sample::ticker.outbox }

/-- A sample goes back in front of the first later one. -/
def retryReplayedSample :
    Option (MovementTicker W R) :=
  if !ticker.physicsIsAuthorized || ticker.pendingCount == outboxCapacity then none
  else
    let insertion := ticker.outbox.findIdx fun queued=>sample.tick<queued.tick
    some { ticker with outbox := ticker.outbox.insertIdx insertion sample }

end

/-- The loop of `flush_player_auth_inputs_guarded`: `encodes` are the samples that can be encoded,
`sends` the commands that the transport takes, and `sent` those handed to it so far. -/
def flushLoop (encodes : QueuedPhysicsSample W → Bool) (sends : PhysicsSendIdentity → Bool) :
    ℕ → MovementTicker W R → List PhysicsSendIdentity →
      MovementTicker W R × List PhysicsSendIdentity × Except MovementSendError Unit
  | 0, ticker, sent => (ticker,sent,.ok ())
  | budget+1, ticker, sent =>
    match ticker.outbox with
    | [] => (ticker,sent,.ok ())
    | sample::rest =>
      if ticker.heldRelease.any fun held=>held.tick < sample.tick then (ticker,sent,.ok ())
      else if ticker.tickEvidence=outboxCapacity then
        (ticker.failPhysicsAuthority .outboxOverflow,sent,.ok ())
      else if !encodes sample then (ticker,sent,.error .encode)
      else
        let identity := ticker.nextSendIdentity sample
        let admitted := { ticker with outbox := rest }.noteCommandAdmitted identity sample
        if sends identity then flushLoop encodes sends budget admitted (sent ++ [identity])
        else
          match admitted.restoreAdmitted identity with
          | (restored,.error _) => (restored,sent,.error .restoreOverflow)
          | (restored,.ok sample) =>
            match restored.retryFront sample with
            | none => (restored,sent,.error .restoreOverflow)
            | some retried => (retried,sent,.error .transport)

def flushPlayerAuthInputs (budget : ℕ) (evidenceContext : Bool)
    (encodes : QueuedPhysicsSample W → Bool) (sends : PhysicsSendIdentity → Bool) :
    MovementTicker W R × List PhysicsSendIdentity × Except MovementSendError Unit :=
  if !ticker.physicsIsAuthorized then (ticker,[],.ok ())
  else if ticker.terminalDrain || ticker.hasUnresolvedPositionAuthorityChange then
    (ticker,[],.ok ())
  else if !ticker.outbox.isEmpty && !evidenceContext then
    (ticker,[],.error .missingEvidenceContext)
  else flushLoop encodes sends budget ticker []

def confirmHeldReleaseFacing (tick : ℕ) : MovementTicker W R :=
  { ticker with heldRelease := ticker.heldRelease.map fun held =>
      if held.tick=tick then { held with facingSent := true } else held }

def confirmRiptideInputWritten (tick : ℕ) : MovementTicker W R :=
  if ticker.admittedRiptide.any fun request=>request.afterTick<tick then
    { ticker with admittedRiptide := none, writtenRiptideTick := some tick }
  else ticker

/-- Commits the oldest matching socket receipt. -/
def acknowledgePhysicsSend (identity : PhysicsSendIdentity) :
    MovementTicker W R × Bool :=
  match ticker.pendingSends with
  | [] => (ticker,false)
  | pending::rest =>
    if pending.identity≠identity then (ticker,false)
    else if ticker.tickEvidence=outboxCapacity then
      ({ ticker with pendingSends := rest }.failPhysicsAuthority .outboxOverflow,false)
    else
      let popped := { ticker with pendingSends := rest }
      let confirmed := if popped.physicsIsAuthorized && identity.sessionGeneration == popped.sessionGeneration &&
            identity.reanchorEpoch == popped.reanchorEpoch then
          popped.confirmHeldReleaseFacing identity.tick
        else popped
      let written := if identity.sessionGeneration=confirmed.sessionGeneration then
          confirmed.confirmRiptideInputWritten identity.tick
        else confirmed
      ({ written with tickEvidence := written.tickEvidence+1 },true)

def resolveCancelledPhysicsSend (identity : PhysicsSendIdentity)
    (definitelyUnsent : Bool) : MovementTicker W R × Bool :=
  match ticker.pendingSends with
  | [] => (ticker,false)
  | pending::rest =>
    if pending.identity≠identity then (ticker,false)
    else
      let popped := { ticker with pendingSends := rest }
      if !definitelyUnsent then
        (popped.failPhysicsAuthority (.indeterminatePhysicsSend identity.tick),true)
      -- a definitely-unsent replay remains required work even in a terminal drain
      else if pending.retryAfterCancellation && popped.physicsIsAuthorized &&
          pending.sample.sessionGeneration == popped.sessionGeneration then
        match popped.retryReplayedSample pending.sample with
        | some restored => (restored,true)
        | none => (popped.failPhysicsAuthority .outboxOverflow,true)
      else (popped,true)

/-- `windows(2)` of the replayed samples: each tick follows the one before. -/
def checkConsecutive : List (PhysicsMovementSample W) → Except PhysicsAuthorityFault Unit
  | first::second::rest =>
    if second.tick≠saturatingSucc first.tick then
      .error (.pendingTickMismatch (saturatingSucc first.tick) second.tick)
    else checkConsecutive (second::rest)
  | _ => .ok ()

/-- The closure `replay_sample`: whether a sample of the session stays. -/
def replaySample [DecidableEq W] (ticker : MovementTicker W R) (plan : PhysicsCorrectionPlan W)
    (pending : QueuedPhysicsSample W) : Except PhysicsAuthorityFault Bool :=
  if pending.sessionGeneration≠ticker.sessionGeneration then
    .error (.pendingSessionMismatch ticker.sessionGeneration pending.sessionGeneration)
  else if pending.tick≤plan.correctedTick then .ok false
  else
    match plan.replayedSamples.find? fun sample=>sample.tick == pending.tick with
    | none => .error (.pendingTickMismatch pending.tick plan.finalTick)
    | some replayed =>
      if pending.worldIdentity≠replayed.worldIdentity then
        .error (.pendingWorldIdentityMismatch pending.tick)
      else .ok true

def replayQueue [DecidableEq W] (ticker : MovementTicker W R) (plan : PhysicsCorrectionPlan W) :
    List (QueuedPhysicsSample W) → Except PhysicsAuthorityFault (List (QueuedPhysicsSample W))
  | [] => .ok []
  | pending::rest => do
    let keep ← ticker.replaySample plan pending
    let replacement ← replayQueue ticker plan rest
    return if keep then pending::replacement else replacement

def applyCorrectionPlan [DecidableEq W] (ticker : MovementTicker W R)
    (plan : PhysicsCorrectionPlan W) : Except PhysicsAuthorityFault (MovementTicker W R) :=
  if !ticker.physicsIsAuthorized then .error .unauthorized
  else if plan.snapped then
    .ok { ticker.correctionAuthorityChanged with
      nextTick := saturatingSucc plan.finalTick, outbox := [] }
  else if ticker.nextTick≠saturatingSucc plan.finalTick then
    .error (.pendingTickMismatch (saturatingSucc plan.finalTick) ticker.nextTick)
  else do
    checkConsecutive plan.replayedSamples
    let outbox ← ticker.replayQueue plan ticker.outbox
    let _ ← ticker.replayQueue plan (ticker.pendingSends.map (·.sample))
    let changed := { ticker with outbox }.correctionAuthorityChanged
    return { changed with pendingSends := changed.pendingSends.map fun pending =>
      { pending with retryAfterCancellation := plan.correctedTick<pending.sample.tick } }

def correctionFault : PhysicsCorrectionError → PhysicsAuthorityFault
  | .invalidAnchor => .correctionReplayFailed
  | .replayFailed => .correctionReplayFailed
  | .notRetained tick => .correctionNotRetained tick
  | .worldIdentityMismatch tick => .replayWorldIdentityMismatch tick

def snapPlan : PhysicsCorrectionPlan W where
  snapped := true
  correctedTick := ticker.nextTick-1
  finalTick := ticker.nextTick-1
  replayedSamples := []

def snapsInstead : PhysicsAuthorityFault → Bool
  | .correctionNotRetained _ => true
  | .correctionReplayFailed => true
  | .replayWorldIdentityMismatch _ => true
  | .pendingWorldIdentityMismatch _ => true
  | _ => false

def snapCandidate [DecidableEq W] (ticker : MovementTicker W R) :
    Except PhysicsAuthorityFault (MovementTicker W R × PhysicsCorrectionPlan W) := do
  let candidate ← ticker.applyCorrectionPlan ticker.snapPlan
  return (candidate,ticker.snapPlan)

/-- The candidate of a replay, where `replay` is what prediction makes of it: the plan of a replay
is no snap. -/
def replayCandidate [DecidableEq W] (ticker : MovementTicker W R)
    (replay : Except PhysicsCorrectionError (PhysicsCorrectionPlan W)) :
    Except PhysicsAuthorityFault (MovementTicker W R × PhysicsCorrectionPlan W) := do
  let plan ← replay.mapError correctionFault
  let plan := { plan with snapped := false }
  let candidate ← ticker.applyCorrectionPlan plan
  return (candidate,plan)

def commitCandidate
    (result : Except PhysicsAuthorityFault (MovementTicker W R × PhysicsCorrectionPlan W)) :
    MovementTicker W R × Except PhysicsAuthorityFault (PhysicsCorrectionPlan W) :=
  match result with
  | .ok (candidate,plan) => (candidate,.ok plan)
  | .error fault => (ticker.failPhysicsAuthority fault,.error fault)

/-- Applies one anchor: a replay that fails snaps to the current tick. -/
def reconcilePhysicsAnchor [DecidableEq W] (ticker : MovementTicker W R) (finite : Bool)
    (mode : PhysicsCorrectionMode)
    (replay : Except PhysicsCorrectionError (PhysicsCorrectionPlan W)) :
    MovementTicker W R × Except PhysicsAuthorityFault (PhysicsCorrectionPlan W) :=
  if !ticker.physicsIsAuthorized then (ticker,.error .unauthorized)
  else if !finite then (ticker,.error .correctionReplayFailed)
  else
    match mode with
    | .snap => ticker.commitCandidate ticker.snapCandidate
    | .replayIfRetained =>
      match ticker.replayCandidate replay with
      | .ok candidate => ticker.commitCandidate (.ok candidate)
      | .error fault =>
        ticker.commitCandidate (if snapsInstead fault then ticker.snapCandidate else .error fault)

/-- Replays retained prediction after a timeline edit. Failure commits nothing. -/
def reconcileTimelineRewind [DecidableEq W] (ticker : MovementTicker W R)
    (replay : Except PhysicsCorrectionError (PhysicsCorrectionPlan W)) :
    MovementTicker W R × Except PhysicsAuthorityFault (PhysicsCorrectionPlan W) :=
  if !ticker.physicsIsAuthorized then (ticker,.error .unauthorized)
  else
    match ticker.replayCandidate replay with
    | .ok (candidate,plan) => (candidate,.ok plan)
    | .error fault => (ticker,.error fault)

/-- Holds a release until its last preceding input is written. -/
def holdReleaseAfterTick (tick : ℕ) (packets : R) :
    MovementTicker W R :=
  { ticker with heldRelease := some { tick, packets, facingSent := false, riptide := none } }

end MovementTicker

inductive BatchSendError where
  | full
  | closed
deriving DecidableEq

namespace MovementTicker

variable {W R : Type}

/-- Sends a held release once its facing tick was written; a full queue keeps the fence. The
packets are those that were handed over. -/
def sendHeldRelease (ticker : MovementTicker W R) (send : R → Except BatchSendError Unit) :
    MovementTicker W R × Option R :=
  match ticker.heldRelease.filter fun held=>held.facingSent with
  | none => (ticker,none)
  | some held =>
    match send held.packets with
    | .ok () =>
      ({ ticker with
          admittedRiptide := held.riptide.or ticker.admittedRiptide
          heldRelease := none },some held.packets)
    | .error .full => (ticker,none)
    | .error .closed => ({ ticker with heldRelease := none },none)

end MovementTicker

end Cinnabar.Movement
