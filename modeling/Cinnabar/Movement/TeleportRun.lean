import Cinnabar.Movement.TeleportAck

/-! # What becomes of a teleport acknowledgement -/

namespace Cinnabar.Movement

open List

/-- What clears an assertion. -/
inductive Boundary where
  | sessionReset
  | deactivation
  | authorityFault
  | freeCamera
  | dimensionChange
  | respawnSearch
deriving DecidableEq

/-- How the transport resolved a command. -/
inductive Receipt where
  | written
  | unsent
  | indeterminate
deriving DecidableEq

structure TeleportSession (W R : Type) where
  ticker : TeleportTicker W R
  /-- The commands that the transport has yet to resolve, with the assertion each carries. -/
  commands : List (PhysicsSendIdentity × Option ℕ) := []
  /-- The epoch of the command that the transport cancelled last. -/
  cancelled : Option ℕ := none
  receipts : List (PhysicsSendIdentity × Receipt) := []
  /-- What was written to the socket, oldest first. -/
  socket : List (PhysicsSendIdentity × Option ℕ) := []
  /-- What the commands carried that were not written. -/
  unsent : List (Option ℕ) := []
  /-- How many assertions were armed. -/
  armed : ℕ := 0
  /-- The ticks admitted since the last was armed. -/
  admitted : ℕ := 0
  cleared : List (ℕ × Boundary) := []
  /-- The assertions that ran out of budget, with the admissions that took. -/
  expired : List (ℕ × ℕ) := []

/-- What happens next. -/
inductive TeleportAction (W R : Type) where
  | reset (sessionGeneration initialServerTick : ℕ)
  | deactivate
  | setSource (source : MovementSource)
  | snapNonAuthoritativeAnchor (tick : ℕ)
  | changeDimension
  | noteServerTeleport (kind : ServerTeleportKind)
  | noteCommittedCorrectionOutcome (snapped : Bool)
  | complete (completed : PhysicsMovementSample W)
  | withhold (completed : PhysicsMovementSample W)
  | flush (budget : ℕ) (evidenceContext : Bool) (encodes : QueuedPhysicsSample W → Bool)
    (sends : PhysicsSendIdentity → Bool)
  | write
  | cancel
  /-- The oldest command's send fails, written or not. -/
  | fail (written : Bool)
  | deliver
  | reconcile (finite : Bool) (mode : PhysicsCorrectionMode)
    (replay : Except PhysicsCorrectionError (PhysicsCorrectionPlan W))
  | rewind (replay : Except PhysicsCorrectionError (PhysicsCorrectionPlan W))
  | reanchorSurfaceSpawn (tick : ℕ)
  | beginRespawnSearch
  | discardRespawnActions
  | beginTerminalDrain
  | takeTickEvidence
  | holdRelease (tick : ℕ) (packets : R)
  | sendHeldRelease (answer : Except BatchSendError Unit)

namespace TeleportSession

variable {W R : Type} (movement : MovementTicker W R)

def start (teleportAckEnabled : Bool) : TeleportSession W R where
  ticker := { movement, teleportAckEnabled }

/-- A call that may clear the assertion. -/
def bounded (session : TeleportSession W R) (boundary : Boundary) (ticker : TeleportTicker W R) :
    TeleportSession W R :=
  { session with
    ticker
    cleared := if session.ticker.pendingTeleportAck.isSome && ticker.pendingTeleportAck.isNone then
      session.cleared ++ [(session.armed-1,boundary)] else session.cleared }

/-- A call that may arm one. -/
def noted (session : TeleportSession W R) (ticker : TeleportTicker W R) : TeleportSession W R :=
  if session.ticker.pendingTeleportAck.isNone && ticker.pendingTeleportAck.isSome then
    { session with ticker, armed := session.armed+1, admitted := 0 }
  else { session with ticker }

def complete (session : TeleportSession W R) (completed : PhysicsMovementSample W) :
    TeleportSession W R :=
  match session.ticker.enqueueCompletedPhysics completed with
  | (ticker,.ok ()) => { session with
      ticker
      admitted := session.admitted+1
      expired := if session.ticker.pendingTeleportAck=some 0 then
        session.expired ++ [(session.armed-1,session.admitted+1)] else session.expired }
  | (ticker,.error _) => session.bounded .authorityFault ticker

/-- The packets handed over, with the assertion in place of its flag. -/
def flush (session : TeleportSession W R)
    (flushed : TeleportTicker W R × List (PhysicsSendIdentity × Bool)) : TeleportSession W R :=
  { (if flushed.2.isEmpty then session.bounded .authorityFault flushed.1
      else { session with ticker := flushed.1 }) with
    commands := session.commands++flushed.2.map fun packet =>
      (packet.1,if packet.2 then some (session.armed-1) else none) }

def write (session : TeleportSession W R) : Option (TeleportSession W R) :=
  match session.commands with
  | [] => none
  | (identity,carried) :: rest =>
    if identity.reanchorEpoch≠session.ticker.movement.reanchorEpoch ∧
        session.cancelled=some identity.reanchorEpoch then none
    else some { session with
      commands := rest
      receipts := session.receipts ++ [(identity,.written)]
      socket := session.socket ++ [(identity,carried)] }

def cancel (session : TeleportSession W R) : Option (TeleportSession W R) :=
  match session.commands with
  | [] => none
  | (identity,carried) :: rest =>
    if identity.reanchorEpoch=session.ticker.movement.reanchorEpoch then none
    else some { session with
      commands := rest
      cancelled := some identity.reanchorEpoch
      receipts := session.receipts ++ [(identity,.unsent)]
      unsent := session.unsent ++ [carried] }

def fail (session : TeleportSession W R) (written : Bool) : Option (TeleportSession W R) :=
  match session.commands with
  | [] => none
  | (identity,carried) :: rest =>
    some { session with
      commands := rest
      receipts := session.receipts ++ [(identity,.indeterminate)]
      socket := if written then session.socket ++ [(identity,carried)] else session.socket
      unsent := if written then session.unsent else session.unsent ++ [carried] }

/-- The ticker observes the oldest receipt. -/
def deliver (session : TeleportSession W R) : Option (TeleportSession W R) :=
  match session.receipts with
  | [] => none
  | (identity,receipt) :: rest =>
    let session := { session with receipts := rest }
    match receipt with
    | .written => some (session.bounded .authorityFault (session.ticker.acknowledgePhysicsSend identity).1)
    | .unsent => some (session.bounded .authorityFault (session.ticker.resolveCancelledPhysicsSend identity true).1)
    | .indeterminate => some (session.bounded .authorityFault
        (session.ticker.resolveCancelledPhysicsSend identity false).1)

/-- What the acknowledgement has no part in. -/
def moved (session : TeleportSession W R) (movement : MovementTicker W R) : TeleportSession W R :=
  { session with ticker := { session.ticker with movement } }

def step [DecidableEq W] (session : TeleportSession W R) :
    TeleportAction W R → Option (TeleportSession W R)
  | .reset sessionGeneration initialServerTick => some (session.bounded .sessionReset
      (session.ticker.reset sessionGeneration initialServerTick))
  | .deactivate => some (session.bounded .deactivation session.ticker.deactivate)
  | .setSource source => some (session.bounded .freeCamera (session.ticker.setSource source))
  | .snapNonAuthoritativeAnchor tick =>
    some (session.moved (session.ticker.movement.snapNonAuthoritativeAnchor tick))
  | .changeDimension =>
    some (session.bounded .dimensionChange session.ticker.clearPendingTeleportAck)
  | .noteServerTeleport kind => some (session.noted (session.ticker.noteServerTeleport kind))
  | .noteCommittedCorrectionOutcome snapped =>
    some (session.noted (session.ticker.noteCommittedCorrectionOutcome snapped))
  | .complete completed => some (session.complete completed)
  | .withhold completed => some (session.bounded .authorityFault (session.ticker.withholdRespawnInput completed).1)
  | .flush budget evidenceContext encodes sends =>
    let flushed := session.ticker.flushPlayerAuthInputs budget evidenceContext encodes sends
    some (session.flush (flushed.1,flushed.2.1))
  | .write => session.write
  | .cancel => session.cancel
  | .fail written => session.fail written
  | .deliver => session.deliver
  | .reconcile finite mode replay => some (session.bounded .authorityFault
      (session.ticker.reconcilePhysicsAnchor finite mode replay))
  | .rewind replay => some (session.moved (session.ticker.movement.reconcileTimelineRewind replay).1)
  | .reanchorSurfaceSpawn tick =>
    some (session.moved (session.ticker.movement.reanchorSurfaceSpawn tick))
  | .beginRespawnSearch =>
    some (session.bounded .respawnSearch session.ticker.beginRespawnSearch)
  | .discardRespawnActions => some (session.moved session.ticker.movement.discardRespawnActions)
  | .beginTerminalDrain => some (session.moved session.ticker.movement.beginTerminalDrain)
  | .takeTickEvidence => some (session.moved { session.ticker.movement with tickEvidence := 0 })
  | .holdRelease tick packets =>
    some (session.moved (session.ticker.movement.holdReleaseAfterTick tick packets))
  | .sendHeldRelease answer =>
    some (session.moved (session.ticker.movement.sendHeldRelease fun _=>answer).1)

inductive Reachable [DecidableEq W] : TeleportSession W R → Prop
  | start (movement : MovementTicker W R) (teleportAckEnabled : Bool) : Reachable (start movement teleportAckEnabled)
  | step {session session' : TeleportSession W R} (action : TeleportAction W R) :
    Reachable session → session.step action=some session' → Reachable session'

/-- How often an assertion is accounted for: it is armed, was cleared or expired, or its packet is
with the transport, was written or was not sent. -/
def share (session : TeleportSession W R) (n : ℕ) : ℕ :=
  (if session.ticker.pendingTeleportAck.isSome ∧ n+1=session.armed then 1 else 0) +
    (session.cleared.map Prod.fst).count n + (session.expired.map Prod.fst).count n +
    (session.commands.map Prod.snd).count (some n) +
    (session.socket.map Prod.snd).count (some n) + session.unsent.count (some n)

structure Balanced (session : TeleportSession W R) : Prop where
  share : ∀ n, session.share n = if n < session.armed then 1 else 0
  pending : session.ticker.pendingTeleportAck.isSome → 0 < session.armed
  budget : ∀ remaining, session.ticker.pendingTeleportAck=some remaining →
    remaining+session.admitted=teleportAckAdmittedTickBudget
  expired : ∀ entry ∈ session.expired, entry.2=teleportAckAdmittedTickBudget+1

variable {session session' : TeleportSession W R} {ticker : TeleportTicker W R}

/-- How many packets carry an assertion. -/
lemma count_marks (packets : List (PhysicsSendIdentity × Bool)) (k n : ℕ) :
    ((packets.map fun packet=>(packet.1,if packet.2 then some k else none)).map
      Prod.snd).count (some n) = if n=k then packets.countP Prod.snd else 0 := by
  induction packets with
  | nil => simp
  | cons packet rest ih =>
    obtain ⟨identity,carried⟩ := packet
    rw [map_cons,map_cons,count_cons,ih,countP_cons]
    cases carried with
    | false => simp
    | true =>
      by_cases hn : n=k
      · simp [hn]
      · simp [hn,Ne.symm hn]

namespace Balanced

section

variable (h : session.Balanced)
include h

/-- A call that arms nothing takes the assertion or leaves it. -/
lemma bounded (boundary : Boundary) (hkept : ticker.pendingTeleportAck=none ∨
      ticker.pendingTeleportAck=session.ticker.pendingTeleportAck) :
    (session.bounded boundary ticker).Balanced := by
  by_cases hcleared : (session.ticker.pendingTeleportAck.isSome && ticker.pendingTeleportAck.isNone) = true
  · have hdef : session.bounded boundary ticker = { session with
        ticker, cleared := session.cleared ++ [(session.armed-1,boundary)] } := by
      unfold TeleportSession.bounded
      rw [if_pos hcleared]
    rw [Bool.and_eq_true,Option.isNone_iff_eq_none] at hcleared
    obtain ⟨harmed,hnone⟩ := hcleared
    have hpos := h.pending harmed
    rw [hdef]
    refine ⟨fun n=>?_,fun hsome=>?_,fun r hr=>?_,h.expired⟩
    · have hshare := h.share n
      unfold TeleportSession.share at hshare ⊢
      rw [map_append,count_append,map_singleton,count_singleton,hnone]
      rw [harmed] at hshare
      simp only [true_and,Option.isSome_none,Bool.false_eq_true,false_and,if_false, beq_iff_eq] at hshare ⊢
      by_cases hn : n+1=session.armed
      · rw [if_pos hn] at hshare
        rw [if_pos (by omega : session.armed-1=n)]
        omega
      · rw [if_neg hn] at hshare
        rw [if_neg (by omega : ¬session.armed-1=n)]
        omega
    · rw [hnone] at hsome
      cases hsome
    · rw [hnone] at hr
      cases hr
  · have hdef : session.bounded boundary ticker = { session with ticker } := by
      unfold TeleportSession.bounded
      rw [if_neg hcleared]
    -- what was not cleared is as it was
    have hsame : ticker.pendingTeleportAck=session.ticker.pendingTeleportAck := by
      rcases hkept with hnone | hsame
      · rw [hnone]
        rw [hnone] at hcleared
        cases hack : session.ticker.pendingTeleportAck with
        | none => rfl
        | some remaining =>
          rw [hack] at hcleared
          exact absurd rfl hcleared
      · exact hsame
    rw [hdef]
    refine ⟨fun n=>?_,fun hsome=>h.pending (hsame ▸ hsome), fun r hr=>h.budget r (hsame ▸ hr),h.expired⟩
    have hshare := h.share n
    unfold TeleportSession.share at hshare ⊢
    rw [hsame]
    exact hshare

lemma moved (movement : MovementTicker W R) : (session.moved movement).Balanced :=
  ⟨h.share,h.pending,h.budget,h.expired⟩

lemma noted (hnew : ticker.pendingTeleportAck=session.ticker.pendingTeleportAck ∨
      session.ticker.pendingTeleportAck=none ∧ ticker.pendingTeleportAck=some teleportAckAdmittedTickBudget) :
    (session.noted ticker).Balanced := by
  unfold TeleportSession.noted
  rcases hnew with hsame | ⟨hnone,hsome⟩
  · have hno : ¬(session.ticker.pendingTeleportAck.isNone && ticker.pendingTeleportAck.isSome) = true := by
      rw [hsame]
      cases session.ticker.pendingTeleportAck <;> exact Bool.false_ne_true
    rw [if_neg hno]
    refine ⟨fun n=>?_,fun hsome=>h.pending (hsame ▸ hsome), fun r hr=>h.budget r (hsame ▸ hr),h.expired⟩
    have hshare := h.share n
    unfold TeleportSession.share at hshare ⊢
    rw [hsame]
    exact hshare
  · rw [if_pos (by rw [hnone,hsome]; rfl)]
    refine ⟨fun n=>?_,fun _=>Nat.succ_pos _,fun r hr=>?_,h.expired⟩
    · have hshare := h.share n
      unfold TeleportSession.share at hshare ⊢
      rw [hsome]
      rw [hnone] at hshare
      simp only [Option.isSome_none,Bool.false_eq_true,false_and,if_false,Option.isSome_some, true_and] at hshare ⊢
      by_cases hn : n=session.armed
      · rw [if_neg (by omega)] at hshare
        rw [if_pos (by omega),if_pos (by omega)]
        omega
      · rw [if_neg (by omega)]
        by_cases hlt : n < session.armed
        · rw [if_pos hlt] at hshare
          rw [if_pos (by omega)]
          omega
        · rw [if_neg hlt] at hshare
          rw [if_neg (by omega)]
          omega
    · rw [hsome] at hr
      cases hr
      rfl

/-- An admitted tick charges the budget; the forty-first expires it. -/
lemma admitted (hack : ticker.pendingTeleportAck=session.ticker.observeAdmittedTick.pendingTeleportAck) :
    Balanced { session with
      ticker
      admitted := session.admitted+1
      expired := if session.ticker.pendingTeleportAck=some 0 then
        session.expired ++ [(session.armed-1,session.admitted+1)] else session.expired } := by
  unfold TeleportTicker.observeAdmittedTick at hack
  cases hpending : session.ticker.pendingTeleportAck with
  | none =>
    rw [hpending] at hack
    have hnone : ticker.pendingTeleportAck=none := hack.trans hpending
    refine ⟨fun n=>?_,fun hsome=>?_,fun r hr=>?_,h.expired⟩
    · have hshare := h.share n
      unfold TeleportSession.share at hshare ⊢
      rw [hnone]
      rw [hpending] at hshare
      exact hshare
    · rw [hnone] at hsome
      cases hsome
    · rw [hnone] at hr
      cases hr
  | some remaining =>
    have hpos := h.pending (by rw [hpending]; rfl)
    have hbudget := h.budget remaining hpending
    cases remaining with
    | zero =>
      rw [hpending] at hack
      have hnone : ticker.pendingTeleportAck=none := hack
      rw [if_pos rfl]
      refine ⟨fun n=>?_,fun hsome=>?_,fun r hr=>?_,fun entry hentry=>?_⟩
      · have hshare := h.share n
        unfold TeleportSession.share at hshare ⊢
        rw [map_append,count_append,map_singleton,count_singleton,hnone]
        rw [hpending] at hshare
        simp only [Option.isSome_some,true_and,Option.isSome_none,Bool.false_eq_true,false_and,
          if_false,beq_iff_eq] at hshare ⊢
        by_cases hn : n+1=session.armed
        · rw [if_pos hn] at hshare
          rw [if_pos (by omega : session.armed-1=n)]
          omega
        · rw [if_neg hn] at hshare
          rw [if_neg (by omega : ¬session.armed-1=n)]
          omega
      · rw [hnone] at hsome
        cases hsome
      · rw [hnone] at hr
        cases hr
      · rcases mem_append.1 hentry with hold | hnew
        · exact h.expired entry hold
        · rw [mem_singleton.1 hnew]
          omega
    | succ remaining =>
      rw [hpending] at hack
      have hsome : ticker.pendingTeleportAck=some remaining := hack
      refine ⟨fun n=>?_,fun _=>hpos,fun r hr=>?_,h.expired⟩
      · have hshare := h.share n
        unfold TeleportSession.share at hshare ⊢
        rw [hsome]
        rw [hpending] at hshare
        exact hshare
      · rw [hsome] at hr
        cases hr
        dsimp only
        omega

lemma complete (completed : PhysicsMovementSample W) : (session.complete completed).Balanced := by
  unfold TeleportSession.complete TeleportTicker.enqueueCompletedPhysics
  cases hresult : session.ticker.movement.enqueueCompletedPhysics completed with
  | mk movement result =>
    cases result with
    | ok accepted => exact h.admitted rfl
    | error fault => exact h.bounded _ (session.ticker.after_cases _ _)

/-- A packet that carries the armed assertion takes it to the transport. -/
lemma flush {flushed : TeleportTicker W R × List (PhysicsSendIdentity × Bool)}
    (hcarries : TeleportTicker.Carries session.ticker flushed.1 flushed.2) :
    (session.flush flushed).Balanced := by
  have hmarks := count_marks flushed.2 (session.armed-1)
  unfold TeleportSession.flush
  by_cases hempty : flushed.2 = []
  · have hbounded := h.bounded .authorityFault hcarries.kept
    rw [hempty]
    refine ⟨fun n=>?_,hbounded.pending,hbounded.budget,hbounded.expired⟩
    have hshare := hbounded.share n
    have hcommands : (session.bounded .authorityFault flushed.1).commands=session.commands := rfl
    unfold TeleportSession.share at hshare ⊢
    rw [hcommands] at hshare
    simpa using hshare
  · have hnone := hcarries.consumed hempty
    have hflagged := hcarries.flagged
    rw [if_neg (by simpa using hempty)]
    refine ⟨fun n=>?_,fun hsome=>?_,fun r hr=>?_,h.expired⟩
    · have hshare := h.share n
      unfold TeleportSession.share at hshare ⊢
      rw [map_append,count_append,hmarks,hnone,hflagged]
      simp only [Option.isSome_none,Bool.false_eq_true,false_and,if_false]
      cases hpending : session.ticker.pendingTeleportAck with
      | none =>
        rw [hpending] at hshare
        simp only [Option.isSome_none,Bool.false_eq_true,false_and,if_false,ite_self] at hshare ⊢
        omega
      | some remaining =>
        have hpos := h.pending (by rw [hpending]; rfl)
        rw [hpending] at hshare
        simp only [Option.isSome_some,true_and,ne_eq,hempty,not_false_eq_true,if_true] at hshare ⊢
        by_cases hn : n+1=session.armed
        · rw [if_pos hn] at hshare
          rw [if_pos (by omega : n=session.armed-1)]
          omega
        · rw [if_neg hn] at hshare
          rw [if_neg (by omega : ¬n=session.armed-1)]
          omega
    · rw [hnone] at hsome
      cases hsome
    · rw [hnone] at hr
      cases hr

/-- A command leaves the transport for the socket or unsent. -/
lemma resolve {identity : PhysicsSendIdentity} {carried : Option ℕ} {rest : List (PhysicsSendIdentity × Option ℕ)}
    (hcommands : session.commands = (identity,carried) :: rest)
    (hticker : session'.ticker=session.ticker) (hrest : session'.commands=rest)
    (harmed : session'.armed=session.armed) (hadmitted : session'.admitted=session.admitted)
    (hcleared : session'.cleared=session.cleared) (hexpired : session'.expired=session.expired)
    (hresolved : (session'.socket=session.socket ++ [(identity,carried)] ∧ session'.unsent=session.unsent) ∨
      (session'.socket=session.socket ∧ session'.unsent=session.unsent ++ [carried])) :
    session'.Balanced := by
  refine ⟨fun n=>?_,fun hsome=>?_,fun r hr=>?_,fun entry hentry=>?_⟩
  · have hshare := h.share n
    unfold TeleportSession.share at hshare ⊢
    rw [hcommands,map_cons,count_cons] at hshare
    dsimp only at hshare
    rw [hticker,hrest,harmed,hcleared,hexpired]
    rcases hresolved with ⟨hsocket,hunsent⟩ | ⟨hsocket,hunsent⟩
    · rw [hsocket,hunsent,map_append,count_append,map_singleton, count_singleton]
      dsimp only
      omega
    · rw [hsocket,hunsent,count_append,count_singleton]
      omega
  · rw [hticker] at hsome
    rw [harmed]
    exact h.pending hsome
  · rw [hticker] at hr
    rw [hadmitted]
    exact h.budget r hr
  · rw [hexpired] at hentry
    exact h.expired entry hentry

end

end Balanced

section

variable (h : session.Balanced)
include h

lemma Balanced.write (hrun : session.write=some session') :
    session'.Balanced := by
  unfold TeleportSession.write at hrun
  split at hrun
  next => cases hrun
  next identity carried rest hcommands =>
    split_ifs at hrun
    cases hrun
    exact h.resolve hcommands rfl rfl rfl rfl rfl rfl (.inl ⟨rfl,rfl⟩)

lemma Balanced.cancel (hrun : session.cancel=some session') :
    session'.Balanced := by
  unfold TeleportSession.cancel at hrun
  split at hrun
  next => cases hrun
  next identity carried rest hcommands =>
    split_ifs at hrun
    cases hrun
    exact h.resolve hcommands rfl rfl rfl rfl rfl rfl (.inr ⟨rfl,rfl⟩)

lemma Balanced.fail {written : Bool} (hrun : session.fail written=some session') : session'.Balanced := by
  unfold TeleportSession.fail at hrun
  split at hrun
  next => cases hrun
  next identity carried rest hcommands =>
    cases hrun
    cases written with
    | true => exact h.resolve hcommands rfl rfl rfl rfl rfl rfl (.inl ⟨rfl,rfl⟩)
    | false => exact h.resolve hcommands rfl rfl rfl rfl rfl rfl (.inr ⟨rfl,rfl⟩)

lemma Balanced.deliver (hrun : session.deliver=some session') :
    session'.Balanced := by
  unfold TeleportSession.deliver at hrun
  split at hrun
  next => cases hrun
  next identity receipt rest hreceipts =>
    have hrest : ({ session with receipts := rest } : TeleportSession W R).Balanced :=
      ⟨h.share,h.pending,h.budget,h.expired⟩
    split at hrun
    · cases hrun
      exact hrest.bounded _ (session.ticker.after_cases _ _)
    · cases hrun
      exact hrest.bounded _ (session.ticker.after_cases _ _)
    · cases hrun
      exact hrest.bounded _ (session.ticker.after_cases _ _)

lemma Balanced.step [DecidableEq W] {action : TeleportAction W R}
    (hrun : session.step action=some session') : session'.Balanced := by
  cases action with
  | reset sessionGeneration initialServerTick =>
    cases hrun
    exact h.bounded _ (.inl rfl)
  | deactivate =>
    cases hrun
    exact h.bounded _ (.inl rfl)
  | setSource source =>
    cases hrun
    refine h.bounded _ ?_
    unfold TeleportTicker.setSource
    split_ifs with hsame hfree
    · exact .inr rfl
    · exact .inl rfl
    · exact .inr rfl
  | snapNonAuthoritativeAnchor tick =>
    cases hrun
    exact h.moved _
  | changeDimension =>
    cases hrun
    exact h.bounded _ (.inl rfl)
  | noteServerTeleport kind =>
    cases hrun
    exact h.noted (session.ticker.noteServerTeleport_cases kind)
  | noteCommittedCorrectionOutcome snapped =>
    cases hrun
    refine h.noted ?_
    unfold TeleportTicker.noteCommittedCorrectionOutcome
    split_ifs
    · exact session.ticker.noteServerTeleport_cases _
    · exact .inl rfl
  | complete completed =>
    cases hrun
    exact h.complete completed
  | withhold completed =>
    cases hrun
    refine h.bounded _ ?_
    unfold TeleportTicker.withholdRespawnInput
    split
    · exact .inr rfl
    · exact session.ticker.after_cases _ _
  | flush budget evidenceContext encodes sends =>
    cases hrun
    exact h.flush (session.ticker.flushPlayerAuthInputs_carries budget evidenceContext encodes sends)
  | write => exact h.write hrun
  | cancel => exact h.cancel hrun
  | fail written => exact h.fail hrun
  | deliver => exact h.deliver hrun
  | reconcile finite mode replay =>
    cases hrun
    refine h.bounded _ ?_
    unfold TeleportTicker.reconcilePhysicsAnchor
    split
    · exact session.ticker.after_cases _ _
    · exact session.ticker.after_cases _ _
  | rewind replay =>
    cases hrun
    exact h.moved _
  | reanchorSurfaceSpawn tick =>
    cases hrun
    exact h.moved _
  | beginRespawnSearch =>
    cases hrun
    exact h.bounded _ (.inl rfl)
  | discardRespawnActions =>
    cases hrun
    exact h.moved _
  | beginTerminalDrain =>
    cases hrun
    exact h.moved _
  | takeTickEvidence =>
    cases hrun
    exact h.moved _
  | holdRelease tick packets =>
    cases hrun
    exact h.moved _
  | sendHeldRelease answer =>
    cases hrun
    exact h.moved _

end

/-- Where an assertion is, or went, other than into a written input. -/
inductive Outcome (session : TeleportSession W R) (n : ℕ) : Prop
  | armed (h : session.ticker.pendingTeleportAck.isSome) (last : n+1=session.armed)
  | handedOver (h : some n ∈ session.commands.map Prod.snd)
  | cleared (boundary : Boundary) (h : (n,boundary) ∈ session.cleared)
  | expired (h : (n,teleportAckAdmittedTickBudget+1) ∈ session.expired)

def runs [DecidableEq W] (session : TeleportSession W R) :
    List (TeleportAction W R) → Option (TeleportSession W R)
  | [] => some session
  | action::rest => (session.step action).bind fun session=>session.runs rest

lemma Reachable.runs [DecidableEq W] {actions : List (TeleportAction W R)} (h : Reachable session)
    (hruns : session.runs actions=some session') : Reachable session' := by
  induction actions generalizing session with
  | nil =>
    cases hruns
    exact h
  | cons action rest ih =>
    obtain ⟨next,hstep,hrest⟩ := Option.bind_eq_some_iff.1 hruns
    exact ih (h.step action hstep) hrest

/-- An authorized session, a teleport and the next input, handed over with the flag. -/
def answered : List (TeleportAction Unit Unit) :=
  [.reset 0 0,.setSource .physics,.noteServerTeleport .movePlayer,.complete ⟨1,(),true⟩,
    .flush 1 true (fun _=>true) fun _=>true]

end TeleportSession

end Cinnabar.Movement
