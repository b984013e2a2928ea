import Cinnabar.Movement.Ticker

/-! # Teleport acknowledgements -/

namespace Cinnabar.Movement

open List

/-- Admitted completed ticks one armed assertion may outlive without finding a transmission. -/
def teleportAckAdmittedTickBudget : ℕ := 40

/-- Which observed event reached the acknowledgement state machine. -/
inductive ServerTeleportKind where
  | correctionSnap
  | movePlayer
  | respawn
deriving DecidableEq

namespace MovementTicker

variable {W R : Type} (ticker : MovementTicker W R)

def deactivate : MovementTicker W R :=
  { ticker.positionAuthorityChanged with
    heldRelease := none
    admittedRiptide := none
    writtenRiptideTick := none
    sessionActive := false
    outbox := []
    pendingSends := []
    terminalDrain := false }

def snapNonAuthoritativeAnchor (tick : ℕ) : MovementTicker W R :=
  if !ticker.sessionActive then ticker
  else { ticker.positionAuthorityChanged with nextTick := saturatingSucc tick, outbox := [] }

end MovementTicker

structure TeleportTicker (W R : Type) where
  movement : MovementTicker W R := {}
  /-- The admitted ticks left to one armed, unacknowledged assertion. -/
  pendingTeleportAck : Option ℕ := none
  /-- Enables the provisional correction-snap and respawn routes. -/
  teleportAckEnabled : Bool := false
  teleportAcksExpired : ℕ := 0
deriving DecidableEq

namespace TeleportTicker

variable {W R : Type} (ticker : TeleportTicker W R)

/-- Arms one single-shot assertion on the next transmitted sample. -/
def noteServerTeleport (kind : ServerTeleportKind) :
    TeleportTicker W R :=
  if (!ticker.teleportAckEnabled && kind ≠ .movePlayer) || ticker.pendingTeleportAck.isSome then
    ticker
  else { ticker with pendingTeleportAck := some teleportAckAdmittedTickBudget }

/-- Fallback snaps use the opt-in route; a replay is only counted. -/
def noteCommittedCorrectionOutcome (snapped : Bool) :
    TeleportTicker W R :=
  if snapped then ticker.noteServerTeleport .correctionSnap else ticker

def clearPendingTeleportAck : TeleportTicker W R :=
  { ticker with pendingTeleportAck := none }

/-- Charges one admitted completed tick against the armed budget. -/
def observeAdmittedTick : TeleportTicker W R :=
  match ticker.pendingTeleportAck with
  | none => ticker
  | some 0 => { ticker with
      pendingTeleportAck := none
      teleportAcksExpired := saturatingSucc ticker.teleportAcksExpired }
  | some (remaining+1) => { ticker with pendingTeleportAck := some remaining }

def after (movement : MovementTicker W R) (faulted : Bool) :
    TeleportTicker W R :=
  { ticker with
    movement
    pendingTeleportAck := if faulted then none else ticker.pendingTeleportAck }

def reset (sessionGeneration initialServerTick : ℕ) :
    TeleportTicker W R :=
  { ticker with
    movement := ticker.movement.reset sessionGeneration initialServerTick
    pendingTeleportAck := none }

def deactivate : TeleportTicker W R :=
  { ticker with movement := ticker.movement.deactivate, pendingTeleportAck := none }

def setSource (source : MovementSource) : TeleportTicker W R :=
  if ticker.movement.source=source then ticker
  else { ticker with
    movement := ticker.movement.setSource source
    pendingTeleportAck := if source = .freeCamera then none else ticker.pendingTeleportAck }

def beginRespawnSearch : TeleportTicker W R :=
  { ticker with movement := ticker.movement.beginRespawnSearch, pendingTeleportAck := none }

def enqueueCompletedPhysics (completed : PhysicsMovementSample W) :
    TeleportTicker W R × Except PhysicsAuthorityFault Unit :=
  match ticker.movement.enqueueCompletedPhysics completed with
  | (movement,.ok ()) => ({ ticker.observeAdmittedTick with movement },.ok ())
  | (movement,.error fault) => (ticker.after movement (fault ≠ .unauthorized),.error fault)

def withholdRespawnInput (completed : PhysicsMovementSample W) :
    TeleportTicker W R × Except PhysicsAuthorityFault Unit :=
  match ticker.movement.withholdRespawnInput completed with
  | (movement,.ok ()) => ({ ticker with movement },.ok ())
  | (movement,.error fault) => (ticker.after movement (fault ≠ .unauthorized),.error fault)

/-- The loop of a flush with what its packets carry: `project_pending_teleport_ack` before the
encoding, `consume_pending_teleport_ack` once the transport accepted a flagged packet. -/
def flushLoop (encodes : QueuedPhysicsSample W → Bool) (sends : PhysicsSendIdentity → Bool) :
    ℕ → TeleportTicker W R → List (PhysicsSendIdentity × Bool) →
      TeleportTicker W R × List (PhysicsSendIdentity × Bool) × Except MovementSendError Unit
  | 0, ticker, sent => (ticker,sent,.ok ())
  | budget+1, ticker, sent =>
    match ticker.movement.outbox with
    | [] => (ticker,sent,.ok ())
    | sample::rest =>
      if ticker.movement.heldRelease.any fun held=>held.tick < sample.tick then
        (ticker,sent,.ok ())
      else if ticker.movement.tickEvidence=outboxCapacity then
        (ticker.after (ticker.movement.failPhysicsAuthority .outboxOverflow) true,sent,.ok ())
      else if !encodes sample then (ticker,sent,.error .encode)
      else
        let carried := ticker.pendingTeleportAck.isSome
        let identity := ticker.movement.nextSendIdentity sample
        let admitted := { ticker.movement with outbox := rest }.noteCommandAdmitted identity sample
        if sends identity then
          flushLoop encodes sends budget (ticker.after admitted carried) (sent ++ [(identity,carried)])
        else
          match admitted.restoreAdmitted identity with
          | (restored,.error _) => (ticker.after restored false,sent,.error .restoreOverflow)
          | (restored,.ok sample) =>
            match restored.retryFront sample with
            | none => (ticker.after restored false,sent,.error .restoreOverflow)
            | some retried => (ticker.after retried false,sent,.error .transport)

/-- Hands each tick to transport, with what its packet carries. -/
def flushPlayerAuthInputs (budget : ℕ) (evidenceContext : Bool)
    (encodes : QueuedPhysicsSample W → Bool) (sends : PhysicsSendIdentity → Bool) :
    TeleportTicker W R × List (PhysicsSendIdentity × Bool) × Except MovementSendError Unit :=
  if !ticker.movement.physicsIsAuthorized then (ticker,[],.ok ())
  else if ticker.movement.terminalDrain || ticker.movement.hasUnresolvedPositionAuthorityChange then
    (ticker,[],.ok ())
  else if !ticker.movement.outbox.isEmpty && !evidenceContext then
    (ticker,[],.error .missingEvidenceContext)
  else flushLoop encodes sends budget ticker []

/-- Of what a receipt does, only a fault publishes an epoch. -/
def acknowledgePhysicsSend (identity : PhysicsSendIdentity) :
    TeleportTicker W R × Bool :=
  let resolved := ticker.movement.acknowledgePhysicsSend identity
  (ticker.after resolved.1 (resolved.1.reanchorEpoch≠ticker.movement.reanchorEpoch),resolved.2)

def resolveCancelledPhysicsSend (identity : PhysicsSendIdentity)
    (definitelyUnsent : Bool) : TeleportTicker W R × Bool :=
  let resolved := ticker.movement.resolveCancelledPhysicsSend identity definitelyUnsent
  (ticker.after resolved.1 (resolved.1.reanchorEpoch≠ticker.movement.reanchorEpoch),resolved.2)

/-- A correction fails the authority where neither its replay nor a snap applies. -/
def reconcilePhysicsAnchor [DecidableEq W] (ticker : TeleportTicker W R) (finite : Bool)
    (mode : PhysicsCorrectionMode)
    (replay : Except PhysicsCorrectionError (PhysicsCorrectionPlan W)) : TeleportTicker W R :=
  match ticker.movement.reconcilePhysicsAnchor finite mode replay with
  | (movement,.ok _) => ticker.after movement false
  | (movement,.error _) => ticker.after movement (ticker.movement.physicsIsAuthorized && finite)

lemma after_cases (movement : MovementTicker W R) (faulted : Bool) :
    (ticker.after movement faulted).pendingTeleportAck=none ∨
      (ticker.after movement faulted).pendingTeleportAck=ticker.pendingTeleportAck := by
  cases faulted with
  | true => exact .inl rfl
  | false => exact .inr rfl

lemma noteServerTeleport_cases (kind : ServerTeleportKind) :
    (ticker.noteServerTeleport kind).pendingTeleportAck=ticker.pendingTeleportAck ∨
      ticker.pendingTeleportAck=none ∧ (ticker.noteServerTeleport kind).pendingTeleportAck =
        some teleportAckAdmittedTickBudget := by
  unfold noteServerTeleport
  split_ifs with hkept
  · exact .inl rfl
  · rw [Bool.or_eq_true,not_or] at hkept
    exact .inr ⟨Option.not_isSome_iff_eq_none.1 hkept.2,rfl⟩

structure Carries (ticker ticker' : TeleportTicker W R) (packets : List (PhysicsSendIdentity × Bool)) :
    Prop where
  flagged : packets.countP Prod.snd = if ticker.pendingTeleportAck.isSome ∧ packets ≠ [] then 1 else 0
  consumed : packets ≠ [] → ticker'.pendingTeleportAck=none
  kept : ticker'.pendingTeleportAck=none ∨ ticker'.pendingTeleportAck=ticker.pendingTeleportAck

lemma flushLoop_carries (encodes : QueuedPhysicsSample W → Bool)
    (sends : PhysicsSendIdentity → Bool) (budget : ℕ) (ticker : TeleportTicker W R)
    (sent : List (PhysicsSendIdentity × Bool)) :
    ∃ packets, (flushLoop encodes sends budget ticker sent).2.1=sent++packets ∧
      Carries ticker (flushLoop encodes sends budget ticker sent).1 packets := by
  have hnothing : ∀ {ticker ticker' : TeleportTicker W R}, ticker'.pendingTeleportAck=none ∨
      ticker'.pendingTeleportAck=ticker.pendingTeleportAck →
      Carries ticker ticker' [] := fun hkept=>⟨by simp,fun hne=>absurd rfl hne,hkept⟩
  induction budget generalizing ticker sent with
  | zero => exact ⟨[],(append_nil _).symm,hnothing (.inr rfl)⟩
  | succ budget ih =>
    unfold flushLoop
    cases ticker.movement.outbox with
    | nil => exact ⟨[],(append_nil _).symm,hnothing (.inr rfl)⟩
    | cons sample rest =>
      dsimp only
      split_ifs with hheld hfull hencode hsends
      · exact ⟨[],(append_nil _).symm,hnothing (.inr rfl)⟩
      · exact ⟨[],(append_nil _).symm,hnothing (.inl rfl)⟩
      · exact ⟨[],(append_nil _).symm,hnothing (.inr rfl)⟩
      · -- the packet carries what was armed, and nothing is armed behind it
        obtain ⟨packets,hsent,hcarries⟩ := ih (ticker.after ({ ticker.movement with outbox := rest }.noteCommandAdmitted
            (ticker.movement.nextSendIdentity sample) sample) ticker.pendingTeleportAck.isSome)
          (sent ++ [(ticker.movement.nextSendIdentity sample,ticker.pendingTeleportAck.isSome)])
        have hnone : (ticker.after ({ ticker.movement with outbox := rest }.noteCommandAdmitted
            (ticker.movement.nextSendIdentity sample) sample)
            ticker.pendingTeleportAck.isSome).pendingTeleportAck=none := by
          unfold after
          cases ticker.pendingTeleportAck <;> rfl
        have hflagged := hcarries.flagged
        have hkept := hcarries.kept
        rw [hnone] at hflagged hkept
        rw [append_assoc] at hsent
        refine ⟨_,hsent,⟨?_,fun _=>hkept.elim id id,.inl (hkept.elim id id)⟩⟩
        rw [singleton_append,countP_cons,hflagged]
        cases ticker.pendingTeleportAck <;> simp
      · cases ({ ticker.movement with outbox := rest }.noteCommandAdmitted
            (ticker.movement.nextSendIdentity sample) sample).restoreAdmitted
            (ticker.movement.nextSendIdentity sample) with
        | mk restored result =>
          cases result with
          | error fault => exact ⟨[],(append_nil _).symm,hnothing (.inr rfl)⟩
          | ok sample =>
            dsimp only
            cases restored.retryFront sample with
            | none => exact ⟨[],(append_nil _).symm,hnothing (.inr rfl)⟩
            | some retried => exact ⟨[],(append_nil _).symm,hnothing (.inr rfl)⟩

lemma flushPlayerAuthInputs_carries (budget : ℕ) (evidenceContext : Bool) (encodes : QueuedPhysicsSample W → Bool)
    (sends : PhysicsSendIdentity → Bool) :
    Carries ticker (ticker.flushPlayerAuthInputs budget evidenceContext encodes sends).1
      (ticker.flushPlayerAuthInputs budget evidenceContext encodes sends).2.1 := by
  have hnothing : Carries ticker ticker [] := ⟨by simp,fun hne=>absurd rfl hne,.inr rfl⟩
  unfold flushPlayerAuthInputs
  split_ifs
  · exact hnothing
  · exact hnothing
  · exact hnothing
  · obtain ⟨packets,hsent,hcarries⟩ := flushLoop_carries encodes sends budget ticker []
    rw [hsent]
    exact hcarries

end TeleportTicker

end Cinnabar.Movement
