import Mathlib.Data.List.Sort
import Cinnabar.Movement.Ticker

/-! # A session of the movement stream -/

namespace Cinnabar.Movement

structure Session (W R : Type) where
  ticker : MovementTicker W R
  /-- The commands that the transport has yet to resolve, oldest first. -/
  commands : List PhysicsSendIdentity := []
  /-- The epoch of the command that the transport cancelled last. -/
  cancelled : Option ℕ := none
  /-- What the transport resolved and whether it was written, until the ticker observes it. -/
  receipts : List (PhysicsSendIdentity × Bool) := []
  /-- What was written to the socket, oldest first. -/
  socket : List PhysicsSendIdentity := []
  /-- The ticks that entered the outbox, oldest first. -/
  completed : List ℕ := []
  /-- The queued ticks that a snap, a reanchor or a replay at or after them dropped. -/
  dropped : List ℕ := []
  /-- The releases that were held, and those handed to the transport. -/
  held : List R := []
  handed : List R := []
deriving DecidableEq

/-- What happens next. -/
inductive Action (W R : Type) where
  | complete (completed : PhysicsMovementSample W)
  | withhold (completed : PhysicsMovementSample W)
  | flush (budget : ℕ) (evidenceContext : Bool) (encodes : QueuedPhysicsSample W → Bool)
    (sends : PhysicsSendIdentity → Bool)
  | write
  | cancel
  | deliver
  | reconcile (finite : Bool) (mode : PhysicsCorrectionMode)
    (replay : Except PhysicsCorrectionError (PhysicsCorrectionPlan W))
  | rewind (replay : Except PhysicsCorrectionError (PhysicsCorrectionPlan W))
  | reanchorSurfaceSpawn (tick : ℕ)
  | beginRespawnSearch
  | discardRespawnActions
  | beginTerminalDrain
  | takeTickEvidence
  | holdRelease (tick : ℕ) (packets : R)
  | sendHeldRelease (answer : Except BatchSendError Unit)

namespace MovementTicker

variable {W R : Type}

section

variable (ticker : MovementTicker W R)

def outboxTicks : List ℕ := ticker.outbox.map (·.tick)

def pendingTicks : List ℕ :=
  ticker.pendingSends.map (·.identity.tick)

def currentTicks : List ℕ :=
  (ticker.pendingSends.filter fun pending =>
    pending.identity.reanchorEpoch == ticker.reanchorEpoch).map (·.identity.tick)

def queuedTicks : List ℕ := ticker.pendingTicks++ticker.outboxTicks

end

end MovementTicker

def PhysicsCorrectionPlan.drops {W : Type} (plan : PhysicsCorrectionPlan W) (queued : List ℕ) :
    List ℕ :=
  queued.filter fun tick=>plan.snapped || tick≤plan.correctedTick

namespace Session

variable {W R : Type}

def start (ticker : MovementTicker W R) (sessionGeneration initialServerTick : ℕ) : Session W R where
  ticker := (ticker.reset sessionGeneration initialServerTick).setSource .physics

variable (session : Session W R)

def write : Option (Session W R) :=
  match session.commands with
  | [] => none
  | identity::rest =>
    if identity.reanchorEpoch≠session.ticker.reanchorEpoch ∧ session.cancelled=some identity.reanchorEpoch then none
    else some { session with
      commands := rest
      receipts := session.receipts ++ [(identity,true)]
      socket := session.socket ++ [identity] }

def cancel : Option (Session W R) :=
  match session.commands with
  | [] => none
  | identity::rest =>
    if identity.reanchorEpoch=session.ticker.reanchorEpoch then none
    else some { session with
      commands := rest
      cancelled := some identity.reanchorEpoch
      receipts := session.receipts ++ [(identity,false)] }

/-- The ticker observes the oldest receipt. -/
def deliver : Option (Session W R) :=
  match session.receipts with
  | [] => none
  | (identity,true) :: rest => some { session with
      ticker := (session.ticker.acknowledgePhysicsSend identity).1, receipts := rest }
  | (identity,false) :: rest => some { session with
      ticker := (session.ticker.resolveCancelledPhysicsSend identity true).1, receipts := rest }

def reanchored (ticker : MovementTicker W R) : Session W R :=
  { session with ticker, dropped := session.dropped++session.ticker.queuedTicks }

def corrected
    (result : MovementTicker W R × Except PhysicsAuthorityFault (PhysicsCorrectionPlan W)) :
    Session W R :=
  match result with
  | (ticker,.ok plan) =>
    { session with ticker, dropped := session.dropped++plan.drops session.ticker.queuedTicks }
  | (ticker,.error _) => { session with ticker }

def step [DecidableEq W] [DecidableEq R] (session : Session W R) (action : Action W R) :
    Option (Session W R) :=
  if !session.ticker.physicsIsAuthorized then none
  else
    match action with
    | .complete completed =>
      match session.ticker.enqueueCompletedPhysics completed with
      | (ticker,.ok ()) =>
        some { session with ticker, completed := session.completed ++ [completed.tick] }
      | (ticker,.error _) => some { session with ticker }
    | .withhold completed =>
      some { session with ticker := (session.ticker.withholdRespawnInput completed).1 }
    | .flush budget evidenceContext encodes sends =>
      let flushed := session.ticker.flushPlayerAuthInputs budget evidenceContext encodes sends
      some { session with ticker := flushed.1, commands := session.commands++flushed.2.1 }
    | .write => session.write
    | .cancel => session.cancel
    | .deliver => session.deliver
    | .reconcile finite mode replay =>
      some (session.corrected (session.ticker.reconcilePhysicsAnchor finite mode replay))
    | .rewind replay => some (session.corrected (session.ticker.reconcileTimelineRewind replay))
    | .reanchorSurfaceSpawn tick =>
      some (session.reanchored (session.ticker.reanchorSurfaceSpawn tick))
    | .beginRespawnSearch => some (session.reanchored session.ticker.beginRespawnSearch)
    | .discardRespawnActions => some { session with ticker := session.ticker.discardRespawnActions }
    | .beginTerminalDrain => some { session with ticker := session.ticker.beginTerminalDrain }
    | .takeTickEvidence => some { session with ticker := { session.ticker with tickEvidence := 0 } }
    | .holdRelease tick packets =>
      if packets ∈ session.held then none
      else some { session with
        ticker := session.ticker.holdReleaseAfterTick tick packets
        held := session.held ++ [packets] }
    | .sendHeldRelease answer =>
      let sent := session.ticker.sendHeldRelease fun _=>answer
      some { session with ticker := sent.1, handed := session.handed++sent.2.toList }

inductive Reachable [DecidableEq W] [DecidableEq R] : Session W R → Prop
  | start (ticker : MovementTicker W R) (sessionGeneration initialServerTick : ℕ) :
    Reachable (start ticker sessionGeneration initialServerTick)
  | step {session session' : Session W R} (action : Action W R) :
    Reachable session → session.step action=some session' → Reachable session'

def runs [DecidableEq W] [DecidableEq R] (session : Session W R) :
    List (Action W R) → Option (Session W R)
  | [] => some session
  | action::rest => (session.step action).bind fun session=>session.runs rest

lemma Reachable.runs [DecidableEq W] [DecidableEq R] {session session' : Session W R}
    {actions : List (Action W R)} (h : Reachable session)
    (hruns : session.runs actions=some session') : Reachable session' := by
  induction actions generalizing session with
  | nil =>
    cases hruns
    exact h
  | cons action rest ih =>
    obtain ⟨next,hstep,hrest⟩ := Option.bind_eq_some_iff.1 hruns
    exact ih (h.step action hstep) hrest

/-- A run from a new session that ends in a state of `P`. -/
lemma exists_of_runs [DecidableEq W] [DecidableEq R] {P : Session W R → Prop}
    [DecidablePred P] (initialServerTick : ℕ) (actions : List (Action W R))
    (h : ((start {} 0 initialServerTick).runs actions).any (fun session=>decide (P session)) = true) :
    ∃ session, Reachable session ∧ P session := by
  cases hruns : (start ({} : MovementTicker W R) 0 initialServerTick).runs actions with
  | none =>
    rw [hruns] at h
    cases h
  | some session =>
    rw [hruns,Option.any_some] at h
    exact ⟨session,(Reachable.start {} 0 initialServerTick).runs hruns,of_decide_eq_true h⟩

end Session

end Cinnabar.Movement

/-! # What one operation of the ticker does

A flush admits inputs from the front of the outbox, a replay keeps the later
ones, and a cancelled input goes back in order.
-/

namespace Cinnabar.Movement

open List

namespace MovementTicker

variable {W R : Type} {ticker : MovementTicker W R}

@[simp] lemma failPhysicsAuthority_authorized (fault : PhysicsAuthorityFault) :
    (ticker.failPhysicsAuthority fault).physicsIsAuthorized=false := by
  simp [failPhysicsAuthority,physicsIsAuthorized]

/-- The ticker that has handed its oldest input to the transport. -/
def admitFront (ticker : MovementTicker W R) (sample : QueuedPhysicsSample W)
    (rest : List (QueuedPhysicsSample W)) : MovementTicker W R :=
  { ticker with outbox := rest }.noteCommandAdmitted (ticker.nextSendIdentity sample) sample

/-- The inputs that one flush hands over, and the ticker after it. -/
inductive Admissions : MovementTicker W R → List PhysicsSendIdentity → MovementTicker W R → Prop
  | done (ticker : MovementTicker W R) : Admissions ticker [] ticker
  | next {ticker ticker' : MovementTicker W R} {sample : QueuedPhysicsSample W}
    {rest : List (QueuedPhysicsSample W)} {sent : List PhysicsSendIdentity} :
    ticker.outbox=sample::rest →
    (∀ held ∈ ticker.heldRelease, sample.tick≤held.tick) →
    Admissions (ticker.admitFront sample rest) sent ticker' →
    Admissions ticker (ticker.nextSendIdentity sample::sent) ticker'

/-- A refused command comes back as it was. -/
lemma restoreAdmitted_admitFront (sample : QueuedPhysicsSample W) (rest : List (QueuedPhysicsSample W)) :
    (ticker.admitFront sample rest).restoreAdmitted (ticker.nextSendIdentity sample) =
      ({ ticker with
          outbox := rest, nextAdmissionId := saturatingSucc ticker.nextAdmissionId-1 },
        .ok sample) := by
  simp [restoreAdmitted,admitFront,noteCommandAdmitted,Option.filter]

/-- There is room for a refused command. -/
lemma retryFront_eq_some (ticker : MovementTicker W R) (hauth : ticker.physicsIsAuthorized=true)
    (hroom : ticker.outbox.length<outboxCapacity) (sample : QueuedPhysicsSample W) :
    ticker.retryFront sample=some { ticker with outbox := sample::ticker.outbox } := by
  unfold retryFront
  simp [hauth,Nat.ne_of_lt hroom]

variable {sample : QueuedPhysicsSample W}

lemma pendingCount_admitFront {rest : List (QueuedPhysicsSample W)} (houtbox : ticker.outbox=sample::rest) :
    (ticker.admitFront sample rest).pendingCount=ticker.pendingCount := by
  simp only [pendingCount,admitFront,noteCommandAdmitted,houtbox,length_append, length_cons,length_nil]
  omega

/-- The loop admits inputs from the front and never fails to restore a refused one. -/
lemma flushLoop_spec (encodes : QueuedPhysicsSample W → Bool)
    (sends : PhysicsSendIdentity → Bool) (budget : ℕ) (sent : List PhysicsSendIdentity)
    (hauth : ticker.physicsIsAuthorized=true)
    (hcapacity : ticker.pendingCount≤outboxCapacity) :
    ∃ admitted ticker', ticker.Admissions admitted ticker' ∧
      (flushLoop encodes sends budget ticker sent).2.1=sent++admitted ∧
      (flushLoop encodes sends budget ticker sent).2.2 ≠ .error .restoreOverflow ∧
      ((∃ n, (flushLoop encodes sends budget ticker sent).1 = { ticker' with nextAdmissionId := n }) ∨
        (flushLoop encodes sends budget ticker sent).1.physicsIsAuthorized=false) := by
  induction budget generalizing ticker sent with
  | zero => exact ⟨[],ticker,.done _,by simp [flushLoop],by simp [flushLoop],.inl ⟨_,rfl⟩⟩
  | succ budget ih =>
    cases houtbox : ticker.outbox with
    | nil =>
      have hstop : flushLoop encodes sends (budget+1) ticker sent = (ticker,sent,.ok ()) := by
        simp [flushLoop,houtbox]
      rw [hstop]
      exact ⟨[],ticker,.done _,by simp,by simp,.inl ⟨_,rfl⟩⟩
    | cons sample rest =>
      by_cases hheld : ticker.heldRelease.any fun held=>held.tick < sample.tick
      · have hstop : flushLoop encodes sends (budget+1) ticker sent = (ticker,sent,.ok ()) := by
          simp [flushLoop,houtbox,hheld]
        rw [hstop]
        exact ⟨[],ticker,.done _,by simp,by simp,.inl ⟨_,rfl⟩⟩
      by_cases hevidence : ticker.tickEvidence=outboxCapacity
      · have hstop : flushLoop encodes sends (budget+1) ticker sent =
            (ticker.failPhysicsAuthority .outboxOverflow,sent,.ok ()) := by
          simp [flushLoop,houtbox,hheld,hevidence]
        rw [hstop]
        exact ⟨[],ticker,.done _,by simp,by simp,.inr (by simp)⟩
      by_cases hencodes : encodes sample=true
      swap
      · have hstop : flushLoop encodes sends (budget+1) ticker sent = (ticker,sent,.error .encode) := by
          simp [flushLoop,houtbox,hheld,hevidence,hencodes]
        rw [hstop]
        exact ⟨[],ticker,.done _,by simp,by simp,.inl ⟨_,rfl⟩⟩
      have hfence : ∀ held ∈ ticker.heldRelease, sample.tick≤held.tick := by
        intro held hsome
        rw [Option.mem_def.mp hsome] at hheld
        simpa using hheld
      by_cases hsends : sends (ticker.nextSendIdentity sample) = true
      · have hnext : flushLoop encodes sends (budget+1) ticker sent =
            flushLoop encodes sends budget (ticker.admitFront sample rest)
              (sent ++ [ticker.nextSendIdentity sample]) := by
          simp [flushLoop,houtbox,hheld,hevidence,hencodes,hsends,admitFront]
        rw [hnext]
        obtain ⟨admitted,ticker',hadmits,hsent,hresult,hfinal⟩ :=
          @ih (ticker.admitFront sample rest) (sent ++ [ticker.nextSendIdentity sample])
            hauth (by rw [pendingCount_admitFront houtbox]; exact hcapacity)
        exact ⟨_::admitted,ticker',.next houtbox hfence hadmits,by simp [hsent],hresult, hfinal⟩
      · have hroom : rest.length<outboxCapacity := by
          unfold pendingCount at hcapacity
          rw [houtbox,length_cons] at hcapacity
          omega
        have hrestored : flushLoop encodes sends (budget+1) ticker sent =
            ({ ticker with nextAdmissionId := saturatingSucc ticker.nextAdmissionId-1 },sent,
              .error .transport) := by
          have hback := ticker.restoreAdmitted_admitFront sample rest
          unfold admitFront at hback
          have hretried := retryFront_eq_some { ticker with
            outbox := rest, nextAdmissionId := saturatingSucc ticker.nextAdmissionId-1 }
            hauth hroom sample
          simp [flushLoop,houtbox,hheld,hevidence,hencodes,hsends,hback,hretried]
        rw [hrestored]
        exact ⟨[],ticker,.done _,by simp,by simp,.inl ⟨_,rfl⟩⟩

lemma insertIdx_findIdx (outbox : List (QueuedPhysicsSample W)) (sample : QueuedPhysicsSample W) :
    outbox.insertIdx (outbox.findIdx fun queued=>sample.tick<queued.tick) sample =
      outbox.orderedInsert (fun sample queued=>sample.tick<queued.tick) sample := by
  induction outbox with
  | nil => rfl
  | cons queued outbox ih =>
    by_cases hlt : sample.tick<queued.tick
    · simp [findIdx_cons,hlt]
    · simp [findIdx_cons,hlt,ih]

lemma pairwise_orderedInsert {outbox : List (QueuedPhysicsSample W)} (h : (outbox.map (·.tick)).Pairwise (· < ·))
    (hnew : sample.tick ∉ outbox.map (·.tick)) :
    ((outbox.orderedInsert (fun sample queued=>sample.tick<queued.tick) sample).map
      (·.tick)).Pairwise (· < ·) := by
  induction outbox with
  | nil => simp
  | cons queued outbox ih =>
    simp only [map_cons,pairwise_cons,mem_cons,not_or] at h hnew
    by_cases hlt : sample.tick<queued.tick
    · simp only [List.orderedInsert,hlt,if_true,map_cons,pairwise_cons, mem_cons]
      refine ⟨fun t ht=>?_,h⟩
      obtain rfl | ht := ht
      · exact hlt
      · exact hlt.trans (h.1 t ht)
    · simp only [List.orderedInsert,hlt,if_false,map_cons,pairwise_cons]
      refine ⟨fun t ht=>?_,ih h.2 hnew.2⟩
      have ht := ((perm_orderedInsert _ sample outbox).map (·.tick)).mem_iff.mp ht
      simp only [map_cons,mem_cons] at ht
      obtain rfl | ht := ht
      · omega
      · exact h.1 t ht

/-- There is room for a cancelled input. -/
lemma retryReplayedSample_eq_some (hauth : ticker.physicsIsAuthorized=true)
    (hroom : ticker.pendingCount<outboxCapacity) (sample : QueuedPhysicsSample W) :
    ticker.retryReplayedSample sample=some { ticker with
      outbox := ticker.outbox.orderedInsert (fun sample queued=>sample.tick<queued.tick)
        sample } := by
  unfold retryReplayedSample
  rw [if_neg (by simp [hauth,Nat.ne_of_lt hroom])]
  dsimp only
  rw [insertIdx_findIdx]

section

variable [DecidableEq W] {plan : PhysicsCorrectionPlan W}

lemma replaySample_ok {pending : QueuedPhysicsSample W} {keep : Bool}
    (h : ticker.replaySample plan pending = .ok keep) :
    keep=decide (plan.correctedTick<pending.tick) := by
  unfold replaySample at h
  split_ifs at h with hsession htick
  · rw [← Except.ok.inj h]
    simpa using htick
  · cases hfind : plan.replayedSamples.find? fun sample=>sample.tick == pending.tick with
    | none =>
      simp only [hfind] at h
      cases h
    | some replayed =>
      simp only [hfind] at h
      split_ifs at h
      rw [← Except.ok.inj h]
      simpa using htick

lemma replayQueue_ok {queue replacement : List (QueuedPhysicsSample W)}
    (h : ticker.replayQueue plan queue = .ok replacement) :
    replacement=queue.filter fun pending=>plan.correctedTick<pending.tick := by
  induction queue generalizing replacement with
  | nil => exact (Except.ok.inj h).symm
  | cons pending queue ih =>
    unfold replayQueue at h
    cases hkeep : ticker.replaySample plan pending with
    | error fault =>
      rw [hkeep] at h
      cases h
    | ok keep =>
      cases hrest : ticker.replayQueue plan queue with
      | error fault =>
        rw [hkeep,hrest] at h
        cases h
      | ok rest =>
        rw [hkeep,hrest] at h
        have hout := Except.ok.inj h
        rw [← hout,replaySample_ok hkeep,ih hrest,filter_cons]

/-- What a replay from `correctedTick` leaves. -/
def replayed (ticker : MovementTicker W R) (correctedTick : ℕ) : MovementTicker W R :=
  let changed := { ticker with
    outbox := ticker.outbox.filter fun pending=>correctedTick<pending.tick }.correctionAuthorityChanged
  { changed with pendingSends := changed.pendingSends.map fun pending =>
      { pending with retryAfterCancellation := correctedTick<pending.sample.tick } }

def snapped (ticker : MovementTicker W R) (finalTick : ℕ) : MovementTicker W R :=
  { ticker.correctionAuthorityChanged with nextTick := saturatingSucc finalTick, outbox := [] }

variable {ticker' : MovementTicker W R}

lemma applyCorrectionPlan_ok (h : ticker.applyCorrectionPlan plan = .ok ticker') :
    (plan.snapped=true ∧ ticker'=ticker.snapped plan.finalTick) ∨
      (plan.snapped=false ∧ ticker'=ticker.replayed plan.correctedTick) := by
  unfold applyCorrectionPlan at h
  split_ifs at h with hauth hsnapped hnext
  · exact .inl ⟨hsnapped,(Except.ok.inj h).symm⟩
  · refine .inr ⟨by simpa using hsnapped,?_⟩
    cases hcheck : checkConsecutive plan.replayedSamples with
    | error fault =>
      rw [hcheck] at h
      cases h
    | ok =>
      cases houtbox : ticker.replayQueue plan ticker.outbox with
      | error fault =>
        rw [hcheck,houtbox] at h
        cases h
      | ok outbox =>
        cases hpending : ticker.replayQueue plan (ticker.pendingSends.map (·.sample)) with
        | error fault =>
          rw [hcheck,houtbox,hpending] at h
          cases h
        | ok pending =>
          rw [hcheck,houtbox,hpending] at h
          rw [← Except.ok.inj h,replayQueue_ok houtbox]
          rfl

structure Applied (ticker ticker' : MovementTicker W R) (plan : PhysicsCorrectionPlan W) :
    Prop where
  applies : ticker.applyCorrectionPlan plan = .ok ticker'
  snap : plan.snapped=true → plan.finalTick=ticker.nextTick-1

lemma snapCandidate_ok (h : ticker.snapCandidate = .ok (ticker',plan)) : ticker.Applied ticker' plan := by
  unfold snapCandidate at h
  cases hplan : ticker.applyCorrectionPlan ticker.snapPlan with
  | error fault =>
    rw [hplan] at h
    cases h
  | ok candidate =>
    rw [hplan] at h
    cases h
    exact ⟨hplan,fun _=>rfl⟩

lemma replayCandidate_ok {replay : Except PhysicsCorrectionError (PhysicsCorrectionPlan W)}
    (h : ticker.replayCandidate replay = .ok (ticker',plan)) : ticker.Applied ticker' plan := by
  cases replay with
  | error error => cases h
  | ok replay =>
    replace h : (ticker.applyCorrectionPlan { replay with snapped := false } >>= fun candidate =>
      pure (candidate,{ replay with snapped := false })) = .ok (ticker',plan) := h
    cases hplan : ticker.applyCorrectionPlan { replay with snapped := false } with
    | error fault =>
      rw [hplan] at h
      cases h
    | ok candidate =>
      rw [hplan] at h
      cases h
      exact ⟨hplan,fun hsnap=>by cases hsnap⟩

def Corrects (ticker : MovementTicker W R)
    (result : MovementTicker W R × Except PhysicsAuthorityFault (PhysicsCorrectionPlan W)) : Prop :=
  (∃ ticker' plan, result = (ticker',.ok plan) ∧ ticker.Applied ticker' plan) ∨
    ∃ ticker' fault, result = (ticker',.error fault) ∧ (ticker'=ticker ∨ ticker'.physicsIsAuthorized=false)

lemma commitCandidate_corrects {result : Except PhysicsAuthorityFault (MovementTicker W R × PhysicsCorrectionPlan W)}
    (h : ∀ {ticker' plan}, result = .ok (ticker',plan) → ticker.Applied ticker' plan) :
    ticker.Corrects (ticker.commitCandidate result) := by
  cases result with
  | ok candidate => exact .inl ⟨_,_,rfl,h rfl⟩
  | error fault => exact .inr ⟨_,_,rfl,.inr (by simp)⟩

lemma reconcilePhysicsAnchor_corrects (finite : Bool) (mode : PhysicsCorrectionMode)
    (replay : Except PhysicsCorrectionError (PhysicsCorrectionPlan W)) :
    ticker.Corrects (ticker.reconcilePhysicsAnchor finite mode replay) := by
  unfold reconcilePhysicsAnchor
  split_ifs with hauth hfinite
  · exact .inr ⟨_,_,rfl,.inl rfl⟩
  · exact .inr ⟨_,_,rfl,.inl rfl⟩
  · cases mode with
    | snap => exact commitCandidate_corrects snapCandidate_ok
    | replayIfRetained =>
      cases hreplay : ticker.replayCandidate replay with
      | ok candidate =>
        refine commitCandidate_corrects fun hok=>?_
        rw [Except.ok.inj hok] at hreplay
        exact replayCandidate_ok hreplay
      | error fault =>
        refine commitCandidate_corrects fun hok=>?_
        split_ifs at hok
        exact snapCandidate_ok hok

lemma reconcileTimelineRewind_corrects (replay : Except PhysicsCorrectionError (PhysicsCorrectionPlan W)) :
    ticker.Corrects (ticker.reconcileTimelineRewind replay) := by
  unfold reconcileTimelineRewind
  split_ifs with hauth
  · exact .inr ⟨_,_,rfl,.inl rfl⟩
  · cases hreplay : ticker.replayCandidate replay with
    | ok candidate => exact .inl ⟨_,_,rfl,replayCandidate_ok hreplay⟩
    | error fault => exact .inr ⟨_,_,rfl,.inl rfl⟩

end

end MovementTicker

end Cinnabar.Movement
