import Cinnabar.Movement.Transport

/-! # Inputs reach the socket once and in order -/

namespace Cinnabar.Movement

open MovementTicker List

namespace Session

variable {W R : Type} {session session' : Session W R}

namespace Ok

variable {ticker : MovementTicker W R}

/-- The position authority changes: `keep` stays in the outbox, `retry` comes back when it is
cancelled, and the rest is dropped. -/
lemma reanchor (h : session.Ok) {dropped : List ℕ}
    (retry : PendingPhysicsSend W → Bool) (keep : QueuedPhysicsSample W → Bool)
    (hpending : ticker.pendingSends=session.ticker.pendingSends.map fun p =>
      { p with retryAfterCancellation := retry p })
    (houtbox : ticker.outbox=session.ticker.outbox.filter keep)
    (hgeneration : ticker.sessionGeneration=session.ticker.sessionGeneration)
    (hepoch : ticker.reanchorEpoch=session.ticker.reanchorEpoch+1)
    (hnext : session.ticker.nextTick≤ticker.nextTick) (hbounded : ticker.nextTick≤u64Max)
    (hlost : ∀ {p}, p ∈ session.ticker.pendingSends → retry p=false → p.identity.tick ∈ dropped)
    (hdropped : ∀ {s}, s ∈ session.ticker.outbox → keep s=false → s.tick ∈ dropped) :
    Ok { session with ticker, dropped := session.dropped++dropped } := by
  have hmem : ∀ {p}, p ∈ ticker.pendingSends → ∃ q ∈ session.ticker.pendingSends,
      q.identity=p.identity ∧ q.sample=p.sample ∧ p.retryAfterCancellation=retry q := by
    intro p hp
    rw [hpending] at hp
    obtain ⟨q,hq,rfl⟩ := mem_map.mp hp
    exact ⟨q,hq,rfl,rfl,rfl⟩
  have hpendingTicks : ticker.pendingTicks=session.ticker.pendingTicks := by
    unfold pendingTicks
    rw [hpending,map_map]
    rfl
  have hsublist : ticker.outboxTicks.Sublist session.ticker.outboxTicks := by
    unfold outboxTicks
    rw [houtbox]
    exact filter_sublist.map _
  exact {
    admission := by
      rw [hpending,map_map]
      exact h.admission
    sampled := by
      rw [hgeneration]
      intro p hp
      obtain ⟨q,hq,hidentity,hsample,-⟩ := hmem hp
      rw [← hidentity,← hsample]
      exact h.sampled hq
    generation := by
      rw [houtbox,hgeneration]
      exact fun hs=>h.generation (mem_filter.mp hs).1
    epoch := by
      intro p p' hp hp'
      obtain ⟨q,hq,hidentity,-⟩ := hmem hp
      obtain ⟨q',hq',hidentity',-⟩ := hmem hp'
      rw [← hidentity,← hidentity']
      exact h.epoch hq hq'
    epoch_le := by
      rw [hepoch]
      intro p hp
      obtain ⟨q,hq,hidentity,-⟩ := hmem hp
      rw [← hidentity]
      exact (h.epoch_le hq).trans (Nat.le_succ _)
    cancelled := by
      rw [hepoch]
      exact fun he=>(h.cancelled he).trans (Nat.lt_succ_self _)
    __ := h
    pendingSorted := by
      rw [hpendingTicks]
      exact h.pendingSorted
    outboxSorted := h.outboxSorted.sublist hsublist
    apart := by
      intro p t hp ht
      obtain ⟨q,hq,hidentity,-⟩ := hmem hp
      rw [← hidentity]
      exact h.apart hq (hsublist.subset ht)
    before := by
      intro p t hp ht hcancelled
      obtain ⟨q,hq,hidentity,-⟩ := hmem hp
      rw [← hidentity] at hcancelled ⊢
      exact h.before hq (hsublist.subset ht) hcancelled
    positive := h.positive.trans_le hnext
    bounded := hbounded
    below := by
      intro t ht
      unfold queuedTicks at ht
      rw [hpendingTicks] at ht
      refine (h.below ?_).trans_le hnext
      obtain ht | ht := mem_append.mp ht
      · exact mem_append_left _ ht
      · exact mem_append_right _ (hsublist.subset ht)
    socketBelow := fun hi=>(h.socketBelow hi).trans_le hnext
    socketOutbox := fun hi ht=>h.socketOutbox hi (hsublist.subset ht)
    capacity := by
      refine le_trans ?_ h.capacity
      unfold pendingCount
      rw [houtbox,hpending,length_map]
      exact Nat.add_le_add_right (length_filter_le _ _) _
    accounted := by
      intro t ht
      obtain hwritten | hqueued | hold := h.accounted ht
      · exact .inl hwritten
      · obtain hflight | hwaits := mem_append.mp hqueued
        · rw [← hpendingTicks] at hflight
          exact .inr (.inl (mem_append_left _ hflight))
        · obtain ⟨s,hs,rfl⟩ := mem_map.mp hwaits
          cases hkeep : keep s with
          | false => exact .inr (.inr (mem_append_right _ (hdropped hs hkeep)))
          | true =>
            refine .inr (.inl (mem_append_right _ ?_))
            unfold outboxTicks
            rw [houtbox]
            exact mem_map_of_mem (mem_filter.mpr ⟨hs,hkeep⟩)
      · exact .inr (.inr (mem_append_left _ hold))
    kept := by
      intro p hp _ hretry
      obtain ⟨q,hq,hidentity,-,hq'⟩ := hmem hp
      rw [hq'] at hretry
      rw [← hidentity]
      exact .inr (mem_append_right _ (hlost hq hretry)) }

lemma saturatingSucc_le (n : ℕ) : saturatingSucc n≤u64Max := min_le_right _ _

/-- A reanchor drops whatever is queued. -/
lemma reanchored (h : session.Ok) {ticker : MovementTicker W R}
    (hpending : ticker.pendingSends=session.ticker.pendingSends.map fun p =>
      { p with retryAfterCancellation := false })
    (houtbox : ticker.outbox = [])
    (hgeneration : ticker.sessionGeneration=session.ticker.sessionGeneration)
    (hepoch : ticker.reanchorEpoch=session.ticker.reanchorEpoch+1)
    (hnext : session.ticker.nextTick≤ticker.nextTick) (hbounded : ticker.nextTick≤u64Max) :
    (session.reanchored ticker).Ok := by
  refine h.reanchor (fun _=>false) (fun _=>false) hpending ?_ hgeneration hepoch hnext hbounded
    (fun hp _=>mem_append_left _ (mem_map_of_mem hp))
    fun hs _=>mem_append_right _ (mem_map_of_mem hs)
  rw [houtbox,filter_false]

/-- A correction keeps the order of the queues. -/
lemma corrected [DecidableEq W] (h : session.Ok)
    {result : MovementTicker W R × Except PhysicsAuthorityFault (PhysicsCorrectionPlan W)}
    (hresult : session.ticker.Corrects result)
    (hauth : (session.corrected result).ticker.physicsIsAuthorized=true) :
    (session.corrected result).Ok := by
  obtain ⟨ticker,plan,rfl,happlied⟩ | ⟨ticker,fault,rfl,rfl | hfailed⟩ := hresult
  · unfold Session.corrected
    dsimp only
    obtain ⟨hsnapped,rfl⟩ | ⟨hsnapped,rfl⟩ := applyCorrectionPlan_ok happlied.applies
    · have hnext : saturatingSucc plan.finalTick=session.ticker.nextTick := by
        have hpositive := h.positive
        rw [happlied.snap hsnapped,saturatingSucc,Nat.sub_add_cancel hpositive]
        exact min_eq_left h.bounded
      have hdrops : plan.drops session.ticker.queuedTicks=session.ticker.queuedTicks := by
        unfold PhysicsCorrectionPlan.drops
        simp [hsnapped]
      rw [hdrops]
      exact h.reanchored rfl rfl rfl rfl hnext.ge (saturatingSucc_le _)
    · refine h.reanchor (fun p=>plan.correctedTick<p.sample.tick)
        (fun s=>plan.correctedTick < s.tick) ?_ rfl rfl rfl le_rfl h.bounded ?_ ?_
      · unfold replayed
        dsimp only
        unfold correctionAuthorityChanged reanchorPositionAuthority
        rw [map_map]
        rfl
      · intro p hp hretry
        rw [(h.sampled hp).1] at hretry
        refine mem_filter.mpr ⟨mem_append_left _ (mem_map_of_mem hp),?_⟩
        simpa [hsnapped] using hretry
      · intro s hs hkeep
        refine mem_filter.mpr ⟨mem_append_right _ (mem_map_of_mem hs),?_⟩
        simpa [hsnapped] using hkeep
  · exact h
  · unfold Session.corrected at hauth
    rw [hfailed] at hauth
    cases hauth

/-- The inputs of one flush. -/
lemma admissions (h : session.Ok) {sent : List PhysicsSendIdentity} (hadmits : session.ticker.Admissions sent ticker)
    (hsettled : ∀ p ∈ session.ticker.pendingSends, p.identity.reanchorEpoch=session.ticker.reanchorEpoch) :
    Ok { session with ticker, commands := session.commands++sent } := by
  generalize hticker : session.ticker=before at hadmits
  induction hadmits generalizing session with
  | done before =>
    rw [← hticker,append_nil]
    exact h
  | @next before ticker sample rest sent houtbox _ _ ih =>
    subst hticker
    have hfirst := ih (h.handOver houtbox hsettled) (fun p hp=>?_) rfl
    · rw [append_assoc] at hfirst
      exact hfirst
    · obtain hp | rfl := mem_append_singleton hp
      · exact hsettled p hp
      · rfl

lemma settled (h : ticker.hasUnresolvedPositionAuthorityChange=false) :
    ∀ p ∈ ticker.pendingSends, p.identity.reanchorEpoch=ticker.reanchorEpoch := by
  intro p hp
  have hcurrent := any_eq_false.mp h p hp
  simpa using hcurrent

lemma flush (h : session.Ok) (hauth : session.ticker.physicsIsAuthorized=true) {budget : ℕ}
    {evidenceContext : Bool} {encodes : QueuedPhysicsSample W → Bool}
    {sends : PhysicsSendIdentity → Bool}
    (hauth' : (session.ticker.flushPlayerAuthInputs budget evidenceContext encodes sends).1.physicsIsAuthorized=true) :
    Ok { session with
      ticker := (session.ticker.flushPlayerAuthInputs budget evidenceContext encodes sends).1
      commands := session.commands ++
        (session.ticker.flushPlayerAuthInputs budget evidenceContext encodes sends).2.1 } := by
  unfold flushPlayerAuthInputs at hauth' ⊢
  split_ifs at hauth' ⊢ with hdenied hclosed hcontext
  · rw [append_nil]
    exact h
  · rw [append_nil]
    exact h
  · rw [append_nil]
    exact h
  · obtain ⟨sent,ticker,hadmits,hsent,-,hfinal⟩ := flushLoop_spec encodes sends budget [] hauth h.capacity
    simp only [Bool.or_eq_true,not_or,Bool.not_eq_true] at hclosed
    have hadmitted := h.admissions hadmits (settled hclosed.2)
    rw [hsent,nil_append]
    obtain ⟨n,hticker⟩ | hfailed := hfinal
    · rw [hticker]
      exact hadmitted.frame rfl rfl rfl rfl le_rfl hadmitted.bounded
    · rw [hfailed] at hauth'
      cases hauth'

lemma enqueue (h : session.Ok) {completed : PhysicsMovementSample W}
    (hrun : session.ticker.enqueueCompletedPhysics completed = (ticker,.ok ()))
    (hmax : completed.tick≠u64Max) :
    Ok { session with ticker, completed := session.completed ++ [completed.tick] } := by
  unfold enqueueCompletedPhysics at hrun
  split_ifs at hrun
  · cases (Prod.mk.inj hrun).2
  · cases (Prod.mk.inj hrun).2
  · cases (Prod.mk.inj hrun).2
  · cases (Prod.mk.inj hrun).2
  · rename_i _ htick hfull _
    rw [Decidable.not_not] at htick
    have hnext : saturatingSucc session.ticker.nextTick=session.ticker.nextTick+1 := by
      have hbounded := h.bounded
      exact min_eq_left (by omega)
    have hcapacity := h.capacity
    rw [htick,← (Prod.mk.inj hrun).1]
    exact h.complete ⟨_,_,_⟩ rfl rfl rfl rfl rfl rfl hnext (saturatingSucc_le _) (by omega)

lemma enqueue_error {ticker ticker' : MovementTicker W R} {completed : PhysicsMovementSample W}
    {fault : PhysicsAuthorityFault}
    (hrun : ticker.enqueueCompletedPhysics completed = (ticker',.error fault)) :
    ticker'=ticker ∨ ticker'.physicsIsAuthorized=false := by
  unfold enqueueCompletedPhysics at hrun
  split_ifs at hrun
  · exact .inl (Prod.mk.inj hrun).1.symm
  · rw [← (Prod.mk.inj hrun).1]
    exact .inr (by simp)
  · rw [← (Prod.mk.inj hrun).1]
    exact .inr (by simp)
  · rw [← (Prod.mk.inj hrun).1]
    exact .inr (by simp)
  · cases hrun

lemma withhold (h : session.Ok) (completed : PhysicsMovementSample W)
    (hauth' : (session.ticker.withholdRespawnInput completed).1.physicsIsAuthorized=true) :
    Ok { session with ticker := (session.ticker.withholdRespawnInput completed).1 } := by
  unfold withholdRespawnInput at hauth' ⊢
  split_ifs at hauth' ⊢
  · exact h
  · simp at hauth'
  · refine h.frame rfl rfl rfl rfl ?_ (saturatingSucc_le _)
    exact le_min (Nat.le_succ _) h.bounded

lemma step [DecidableEq W] [DecidableEq R] (h : session.Ok) {action : Action W R}
    (hrun : session.step action=some session')
    (hauth' : session'.ticker.physicsIsAuthorized=true) (hmax : u64Max ∉ session'.completed) :
    session'.Ok := by
  unfold Session.step at hrun
  split_ifs at hrun with hdenied
  have hauth : session.ticker.physicsIsAuthorized=true := by simpa using hdenied
  cases action with
  | complete completed =>
    dsimp only at hrun
    cases hresult : session.ticker.enqueueCompletedPhysics completed with
    | mk ticker result =>
      rw [hresult] at hrun
      cases result with
      | ok =>
        cases hrun
        exact h.enqueue hresult fun htick=>hmax (by simp [htick])
      | error fault =>
        cases hrun
        obtain rfl | hfailed := enqueue_error hresult
        · exact h
        · rw [hfailed] at hauth'
          cases hauth'
  | withhold completed =>
    cases hrun
    exact h.withhold completed hauth'
  | flush budget evidenceContext encodes sends =>
    cases hrun
    exact h.flush hauth hauth'
  | write => exact h.write hrun
  | cancel => exact h.cancel hrun
  | deliver => exact h.deliver hauth hrun hauth'
  | reconcile finite mode replay =>
    cases hrun
    exact h.corrected (reconcilePhysicsAnchor_corrects finite mode replay) hauth'
  | rewind replay =>
    cases hrun
    exact h.corrected (reconcileTimelineRewind_corrects replay) hauth'
  | reanchorSurfaceSpawn tick =>
    cases hrun
    exact h.reanchored rfl rfl rfl rfl (le_max_left _ _) (max_le h.bounded (saturatingSucc_le _))
  | beginRespawnSearch =>
    cases hrun
    exact h.reanchored rfl rfl rfl rfl le_rfl h.bounded
  | discardRespawnActions =>
    cases hrun
    exact h.frame rfl rfl rfl rfl le_rfl h.bounded
  | beginTerminalDrain =>
    cases hrun
    unfold MovementTicker.beginTerminalDrain
    rw [if_pos hauth]
    exact h.frame rfl rfl rfl rfl le_rfl h.bounded
  | takeTickEvidence =>
    cases hrun
    exact h.frame rfl rfl rfl rfl le_rfl h.bounded
  | holdRelease tick packets =>
    dsimp only at hrun
    split_ifs at hrun
    cases hrun
    exact h.frame rfl rfl rfl rfl le_rfl h.bounded
  | sendHeldRelease answer =>
    cases hrun
    unfold MovementTicker.sendHeldRelease
    split
    · exact h.frame rfl rfl rfl rfl le_rfl h.bounded
    · split
      all_goals exact h.frame rfl rfl rfl rfl le_rfl h.bounded

end Ok

/-- A ticker without inputs starts a session. -/
lemma ok_empty {ticker : MovementTicker W R} (hpending : ticker.pendingSends = [])
    (houtbox : ticker.outbox = []) (hpositive : 0<ticker.nextTick)
    (hbounded : ticker.nextTick≤u64Max) : Ok ({ ticker } : Session W R) := by
  have hnone : ∀ {p}, p ∉ ticker.pendingSends := by
    rw [hpending]
    exact not_mem_nil
  have houtboxTicks : ticker.outboxTicks = [] := by
    unfold outboxTicks
    rw [houtbox]
    rfl
  have hpendingTicks : ticker.pendingTicks = [] := by
    unfold pendingTicks
    rw [hpending]
    rfl
  exact {
    admission := by
      rw [hpending]
      rfl
    sampled := fun hp=>absurd hp hnone
    generation := by
      rw [houtbox]
      exact fun hs=>absurd hs not_mem_nil
    epoch := fun hp=>absurd hp hnone
    epoch_le := fun hp=>absurd hp hnone
    cancelled := fun he=>by cases he
    receipt_false := fun hi=>absurd hi not_mem_nil
    receipt_true := fun hi=>absurd hi not_mem_nil
    pendingSorted := by
      rw [hpendingTicks]
      exact .nil
    outboxSorted := by
      rw [houtboxTicks]
      exact .nil
    apart := fun hp=>absurd hp hnone
    before := fun hp=>absurd hp hnone
    positive := hpositive
    bounded := hbounded
    below := by
      unfold queuedTicks
      rw [hpendingTicks,houtboxTicks]
      exact fun ht=>absurd ht not_mem_nil
    socketSorted := .nil
    socketBelow := fun hi=>absurd hi not_mem_nil
    socketOutbox := fun hi=>absurd hi not_mem_nil
    socketCommands := fun hi=>absurd hi not_mem_nil
    socketCancelled := fun hi=>absurd hi not_mem_nil
    capacity := by
      unfold pendingCount
      rw [hpending,houtbox]
      exact Nat.zero_le _
    accounted := fun ht=>absurd ht not_mem_nil
    kept := fun hp=>absurd hp hnone }

lemma saturatingSucc_pos (n : ℕ) : 0 < saturatingSucc n :=
  lt_min (Nat.succ_pos _) (by decide)

lemma ok_start (ticker : MovementTicker W R) (sessionGeneration initialServerTick : ℕ) :
    (start ticker sessionGeneration initialServerTick).Ok := by
  unfold start setSource
  split_ifs
  · exact ok_empty rfl rfl (saturatingSucc_pos _) (Ok.saturatingSucc_le _)
  · exact ok_empty rfl rfl (saturatingSucc_pos _) (Ok.saturatingSucc_le _)

lemma completed_subset [DecidableEq W] [DecidableEq R] {action : Action W R}
    (hrun : session.step action=some session') : session.completed ⊆ session'.completed := by
  unfold step at hrun
  split_ifs at hrun
  cases action with
  | complete completed =>
    dsimp only at hrun
    cases hresult : session.ticker.enqueueCompletedPhysics completed with
    | mk ticker result =>
      rw [hresult] at hrun
      cases result with
      | ok =>
        cases hrun
        exact subset_append_left _ _
      | error fault =>
        cases hrun
        exact fun _=>id
  | write =>
    replace hrun : session.write=some session' := hrun
    unfold write at hrun
    split at hrun
    · cases hrun
    · split_ifs at hrun
      cases hrun
      exact fun _=>id
  | cancel =>
    replace hrun : session.cancel=some session' := hrun
    unfold cancel at hrun
    split at hrun
    · cases hrun
    · split_ifs at hrun
      cases hrun
      exact fun _=>id
  | deliver =>
    replace hrun : session.deliver=some session' := hrun
    unfold deliver at hrun
    split at hrun
    · cases hrun
    · cases hrun
      exact fun _=>id
    · cases hrun
      exact fun _=>id
  | reconcile finite mode replay =>
    cases hrun
    unfold corrected
    split
    · exact fun _=>id
    · exact fun _=>id
  | rewind replay =>
    cases hrun
    unfold corrected
    split
    · exact fun _=>id
    · exact fun _=>id
  | holdRelease tick packets =>
    dsimp only at hrun
    split_ifs at hrun
    cases hrun
    exact fun _=>id
  | withhold completed =>
    cases hrun
    exact fun _=>id
  | flush budget evidenceContext encodes sends =>
    cases hrun
    exact fun _=>id
  | reanchorSurfaceSpawn tick =>
    cases hrun
    exact fun _=>id
  | beginRespawnSearch =>
    cases hrun
    exact fun _=>id
  | discardRespawnActions =>
    cases hrun
    exact fun _=>id
  | beginTerminalDrain =>
    cases hrun
    exact fun _=>id
  | takeTickEvidence =>
    cases hrun
    exact fun _=>id
  | sendHeldRelease answer =>
    cases hrun
    exact fun _=>id

lemma authorized_of_step [DecidableEq W] [DecidableEq R] {action : Action W R}
    (hrun : session.step action=some session') :
    session.ticker.physicsIsAuthorized=true := by
  unfold step at hrun
  split_ifs at hrun with hdenied
  simpa using hdenied

lemma Reachable.ok [DecidableEq W] [DecidableEq R] (h : Reachable session)
    (hauth : session.ticker.physicsIsAuthorized=true) (hmax : u64Max ∉ session.completed) :
    session.Ok := by
  induction h with
  | start ticker sessionGeneration initialServerTick =>
    exact ok_start ticker sessionGeneration initialServerTick
  | step action _ hrun ih =>
    have hbefore := ih (authorized_of_step hrun) fun hmem=>hmax (completed_subset hrun hmem)
    exact hbefore.step hrun hauth hmax

/-- There is room for the refused inputs of a flush. -/
lemma Ok.restores (h : session.Ok) (budget : ℕ) (evidenceContext : Bool)
    (encodes : QueuedPhysicsSample W → Bool) (sends : PhysicsSendIdentity → Bool) :
    (session.ticker.flushPlayerAuthInputs budget evidenceContext encodes sends).2.2 ≠
      .error .restoreOverflow := by
  unfold flushPlayerAuthInputs
  split_ifs with hdenied
  · simp
  · simp
  · simp
  · have hauth : session.ticker.physicsIsAuthorized=true := by simpa using hdenied
    obtain ⟨sent,ticker,-,-,hresult,-⟩ := flushLoop_spec encodes sends budget [] hauth h.capacity
    exact hresult

/-- There is room for a cancelled input. -/
lemma Ok.resolves (h : session.Ok) (hauth : session.ticker.physicsIsAuthorized=true) (identity : PhysicsSendIdentity) :
    (session.ticker.resolveCancelledPhysicsSend identity true).1.physicsIsAuthorized=true := by
  unfold resolveCancelledPhysicsSend
  cases hpending : session.ticker.pendingSends with
  | nil => exact hauth
  | cons p ps =>
    simp only [Bool.not_true,Bool.false_eq_true,if_false]
    split_ifs
    · exact hauth
    · have hroom : ({ session.ticker with
          pendingSends := ps } : MovementTicker W R).pendingCount<outboxCapacity := by
        have hcapacity := h.capacity
        unfold pendingCount at hcapacity ⊢
        rw [hpending,length_cons] at hcapacity
        dsimp only
        omega
      have hauthPopped : ({ session.ticker with
          pendingSends := ps } : MovementTicker W R).physicsIsAuthorized=true := hauth
      rw [retryReplayedSample_eq_some hauthPopped hroom]
      exact hauth
    · exact hauth

lemma Ok.currentSorted (h : session.Ok) :
    (session.ticker.currentTicks++session.ticker.outboxTicks).Pairwise (· < ·) := by
  rw [pairwise_append]
  refine ⟨h.pendingSorted.sublist (filter_sublist.map _),h.outboxSorted, fun t ht t' ht'=>?_⟩
  obtain ⟨p,hp,rfl⟩ := mem_map.mp ht
  obtain ⟨hp,hcurrent⟩ := mem_filter.mp hp
  exact h.before_current hp ht' (by simpa using hcurrent)

/-- A tick that completes at `u64::MAX` saturates the clock: it completes again. -/
def saturates : List (Action ℕ ℕ) :=
  [.complete ⟨u64Max,0,true⟩,.complete ⟨u64Max,0,true⟩, .flush 2 true (fun _=>true) (fun _=>true),.write,.write]

/-- After the clock has saturated a tick is no longer below the next one and is written twice. -/
theorem saturated_tick_written_twice :
    ∃ session : Session ℕ ℕ, Reachable session ∧ session.ticker.physicsIsAuthorized=true ∧
      (¬ ∀ t ∈ session.ticker.currentTicks, t < session.ticker.nextTick) ∧
      ¬ session.socketTicks.Pairwise (· < ·) :=
  exists_of_runs (u64Max-1) saturates (by decide +kernel)

/-- In every authorized state of a session in which no tick completes at `u64::MAX`, what is in
flight in the current epoch and what is queued is in order, the socket has each tick once and in
order, every completed tick is written or queued unless it was dropped, and no restored input
overflows the queues. -/
theorem movement_inputs_once_in_order [DecidableEq W] [DecidableEq R] (h : Reachable session)
    (hauth : session.ticker.physicsIsAuthorized=true) (hmax : u64Max ∉ session.completed) :
    (session.ticker.currentTicks ++ session.ticker.outboxTicks).Pairwise (· < ·) ∧
    (∀ t ∈ session.ticker.currentTicks ++ session.ticker.outboxTicks, t < session.ticker.nextTick) ∧
    session.socketTicks.Pairwise (· < ·) ∧
    (∀ t ∈ session.completed, t ∈ session.socketTicks ∨ t ∈ session.ticker.queuedTicks ∨ t ∈ session.dropped) ∧
    session.ticker.pendingCount ≤ outboxCapacity ∧
    (∀ budget evidenceContext encodes sends,
      (session.ticker.flushPlayerAuthInputs budget evidenceContext encodes sends).2.2 ≠ .error .restoreOverflow) ∧
    ∀ identity,
      (session.ticker.resolveCancelledPhysicsSend identity true).1.physicsIsAuthorized = true := by
  have hok := h.ok hauth hmax
  refine ⟨hok.currentSorted,fun t ht => ?_,hok.socketSorted,fun t ht => hok.accounted ht,
    hok.capacity,hok.restores,hok.resolves hauth⟩
  obtain ht | ht := mem_append.mp ht
  · exact hok.below (mem_append_left _ ((filter_sublist.map _).subset ht))
  · exact hok.outbox_below ht

/-- Two of three inputs are written when a replay from the second reaches the ticker, and the third
comes back in front of the fourth. -/
def replays : List (Action ℕ ℕ) :=
  [.complete ⟨1,0,true⟩,.complete ⟨2,0,true⟩,.complete ⟨3,0,true⟩,
    .complete ⟨4,0,true⟩,.flush 3 true (fun _=>true) (fun _=>true),.write,.write,
    .rewind (.ok ⟨false,2,4,[⟨3,0,true⟩,⟨4,0,true⟩]⟩),.cancel,.deliver,.deliver,.deliver]

theorem movement_inputs_once_in_order_replays :
    ∃ session : Session ℕ ℕ, session.socketTicks = [1,2] ∧ session.ticker.outboxTicks = [3,4] ∧
      (session.ticker.currentTicks ++ session.ticker.outboxTicks).Pairwise (· < ·) ∧
      session.ticker.pendingCount ≤ outboxCapacity := by
  have hrun : ∃ session : Session ℕ ℕ, Reachable session ∧
      (session.socketTicks = [1,2] ∧ session.ticker.outboxTicks = [3,4] ∧
        session.ticker.physicsIsAuthorized=true ∧ u64Max ∉ session.completed) :=
    exists_of_runs 0 replays (by decide +kernel)
  obtain ⟨session,hreachable,hsocket,houtbox,hauth,hmax⟩ := hrun
  obtain ⟨hsorted,-,-,-,hcapacity,-⟩ := movement_inputs_once_in_order hreachable hauth hmax
  exact ⟨session,hsocket,houtbox,hsorted,hcapacity⟩

end Session

end Cinnabar.Movement
