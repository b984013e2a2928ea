import Cinnabar.Movement.Queues

/-! # The transport and the queues -/

namespace Cinnabar.Movement

open MovementTicker List

namespace Session

variable {W R : Type} {session session' : Session W R}

namespace Ok

lemma handOver (h : session.Ok) {sample : QueuedPhysicsSample W}
    {rest : List (QueuedPhysicsSample W)} (houtbox : session.ticker.outbox=sample::rest)
    (hsettled : ∀ p ∈ session.ticker.pendingSends, p.identity.reanchorEpoch=session.ticker.reanchorEpoch) :
    Ok { session with
      ticker := session.ticker.admitFront sample rest
      commands := session.commands ++ [session.ticker.nextSendIdentity sample] } := by
  have hpending : (session.ticker.admitFront sample rest).pendingSends =
      session.ticker.pendingSends ++ [⟨session.ticker.nextSendIdentity sample,sample,false⟩] := rfl
  have hticks : session.ticker.outboxTicks=sample.tick :: (session.ticker.admitFront sample rest).outboxTicks := by
    unfold outboxTicks
    rw [houtbox]
    rfl
  have hpendingTicks : (session.ticker.admitFront sample rest).pendingTicks =
      session.ticker.pendingTicks ++ [sample.tick] := by
    unfold pendingTicks
    rw [hpending,map_append]
    rfl
  have hqueued : (session.ticker.admitFront sample rest).queuedTicks =
      session.ticker.queuedTicks := by
    unfold queuedTicks
    rw [hpendingTicks,hticks,append_assoc]
    rfl
  have hsorted := h.outboxSorted
  rw [hticks,pairwise_cons] at hsorted
  have hfront : sample.tick ∈ session.ticker.outboxTicks := by
    rw [hticks]
    exact .head _
  have hrest : ∀ {t}, t ∈ (session.ticker.admitFront sample rest).outboxTicks → t ∈ session.ticker.outboxTicks := by
    intro t ht
    rw [hticks]
    exact .tail _ ht
  exact {
    admission := by
      rw [hpending,map_append,h.admission,append_assoc]
      rfl
    sampled := by
      intro p hp
      obtain hp | rfl := mem_append_singleton hp
      · exact h.sampled hp
      · refine ⟨rfl,h.generation ?_⟩
        rw [houtbox]
        exact .head _
    generation := by
      intro s hs
      refine h.generation ?_
      rw [houtbox]
      exact .tail _ hs
    epoch := by
      have hcurrent : ∀ {p}, p ∈ session.ticker.pendingSends ++
          [⟨session.ticker.nextSendIdentity sample,sample,false⟩] →
          p.identity.reanchorEpoch=session.ticker.reanchorEpoch := by
        intro p hp
        obtain hp | rfl := mem_append_singleton hp
        · exact hsettled p hp
        · rfl
      intro p q hp hq
      exact (hcurrent hp).trans (hcurrent hq).symm
    epoch_le := by
      intro p hp
      obtain hp | rfl := mem_append_singleton hp
      · exact h.epoch_le hp
      · exact le_rfl
    __ := h
    pendingSorted := by
      rw [hpendingTicks,pairwise_append]
      refine ⟨h.pendingSorted,pairwise_singleton _ _,fun t ht t' ht'=>?_⟩
      obtain ⟨p,hp,rfl⟩ := mem_map.mp ht
      rw [mem_singleton.mp ht']
      exact h.before_current hp hfront (hsettled p hp)
    outboxSorted := hsorted.2
    apart := by
      intro p t hp ht
      obtain hp | rfl := mem_append_singleton hp
      · exact h.apart hp (hrest ht)
      · exact (hsorted.1 t ht).ne
    before := by
      intro p t hp ht hcancelled
      obtain hp | rfl := mem_append_singleton hp
      · exact h.before hp (hrest ht) hcancelled
      · exact hsorted.1 t ht
    below := by
      rw [hqueued]
      exact h.below
    socketOutbox := fun hi ht=>h.socketOutbox hi (hrest ht)
    socketCommands := by
      intro i c hi hc
      obtain hc | rfl := mem_append_singleton hc
      · exact h.socketCommands hi hc
      · exact h.socketOutbox hi hfront
    capacity := by
      rw [pendingCount_admitFront houtbox]
      exact h.capacity
    accounted := by
      rw [hqueued]
      exact h.accounted
    kept := by
      intro p hp hepoch hretry
      obtain hp | rfl := mem_append_singleton hp
      · exact h.kept hp hepoch hretry
      · exact absurd rfl hepoch }

lemma write (h : session.Ok) (hrun : session.write=some session') : session'.Ok := by
  unfold Session.write at hrun
  cases hcommands : session.commands with
  | nil =>
    rw [hcommands] at hrun
    cases hrun
  | cons c rest =>
    rw [hcommands] at hrun
    dsimp only at hrun
    split_ifs at hrun with hguard
    cases hrun
    have hc : c ∈ session.commands := by
      rw [hcommands]
      exact .head _
    have hrest : ∀ {c'}, c' ∈ rest → c' ∈ session.commands := by
      intro c' hc'
      rw [hcommands]
      exact .tail _ hc'
    obtain ⟨p,hp,hpc⟩ := h.of_command hc
    have hcancelled : session.cancelled≠some c.reanchorEpoch := by
      intro hcancelled
      have hlt := h.cancelled hcancelled
      exact hguard ⟨by omega,hcancelled⟩
    have hsorted := h.pendingSorted
    unfold pendingTicks at hsorted
    rw [← Function.comp_def (fun i : PhysicsSendIdentity=>i.tick),← map_map,h.admission,
      hcommands,map_append,pairwise_append,map_cons,pairwise_cons] at hsorted
    exact {
      admission := by
        rw [h.admission,hcommands,map_append,append_assoc]
        rfl
      __ := h
      receipt_false := by
        intro i hi
        obtain hi | hi := mem_append_singleton hi
        · exact h.receipt_false hi
        · cases hi
      receipt_true := by
        intro i hi
        obtain hi | hi := mem_append_singleton hi
        · exact mem_append_left _ (h.receipt_true hi)
        · cases hi
          exact mem_append_right _ (mem_singleton_self _)
      socketSorted := by
        unfold socketTicks
        rw [map_append,pairwise_append]
        refine ⟨h.socketSorted,pairwise_singleton _ _,fun t ht t' ht'=>?_⟩
        obtain ⟨i,hi,rfl⟩ := mem_map.mp ht
        rw [mem_singleton.mp ht']
        exact h.socketCommands hi hc
      socketBelow := by
        intro i hi
        obtain hi | rfl := mem_append_singleton hi
        · exact h.socketBelow hi
        · rw [← hpc]
          exact h.pending_below hp
      socketOutbox := by
        intro i t hi ht
        obtain hi | rfl := mem_append_singleton hi
        · exact h.socketOutbox hi ht
        · rw [← hpc]
          exact h.before hp ht (by rw [hpc]; exact hcancelled)
      socketCommands := by
        intro i c' hi hc'
        obtain hi | rfl := mem_append_singleton hi
        · exact h.socketCommands hi (hrest hc')
        · exact hsorted.2.1.1 _ (mem_map_of_mem hc')
      socketCancelled := by
        intro i c' hi hc'
        obtain hold | hnew := mem_append_singleton hc'
        · obtain hi | rfl := mem_append_singleton hi
          · exact h.socketCancelled hi hold
          · -- the transport cancelled a command of the same epoch, so it writes none
            obtain ⟨q,hq,hqc⟩ := h.of_receipt hold
            have hepoch := h.epoch hp hq
            rw [hpc,hqc] at hepoch
            have hsome := h.receipt_false hold
            rw [← hepoch] at hsome
            exact absurd hsome hcancelled
        · cases hnew
      accounted := by
        intro t ht
        unfold socketTicks
        rw [map_append]
        obtain hwritten | hqueued | hdropped := h.accounted ht
        · exact .inl (mem_append_left _ hwritten)
        · exact .inr (.inl hqueued)
        · exact .inr (.inr hdropped)
      kept := by
        intro q hq hepoch hretry
        unfold socketTicks
        rw [map_append]
        obtain hwritten | hdropped := h.kept hq hepoch hretry
        · exact .inl (mem_append_left _ hwritten)
        · exact .inr hdropped }

lemma cancel (h : session.Ok) (hrun : session.cancel=some session') : session'.Ok := by
  unfold Session.cancel at hrun
  cases hcommands : session.commands with
  | nil =>
    rw [hcommands] at hrun
    cases hrun
  | cons c rest =>
    rw [hcommands] at hrun
    dsimp only at hrun
    split_ifs at hrun with hguard
    cases hrun
    have hc : c ∈ session.commands := by
      rw [hcommands]
      exact .head _
    obtain ⟨p,hp,hpc⟩ := h.of_command hc
    exact {
      admission := by
        rw [h.admission,hcommands,map_append,append_assoc]
        rfl
      __ := h
      cancelled := by
        intro e he
        cases he
        have hle := h.epoch_le hp
        rw [hpc] at hle
        exact lt_of_le_of_ne hle hguard
      receipt_false := by
        intro i hi
        obtain hi | hi := mem_append_singleton hi
        · obtain ⟨q,hq,hqi⟩ := h.of_receipt hi
          have hepoch := h.epoch hp hq
          rw [hpc,hqi] at hepoch
          rw [hepoch]
        · cases hi
          rfl
      receipt_true := by
        intro i hi
        obtain hi | hi := mem_append_singleton hi
        · exact h.receipt_true hi
        · cases hi
      before := by
        intro q t hq ht hcancelled
        have hepoch := h.epoch hp hq
        rw [hpc] at hepoch
        rw [hepoch] at hcancelled
        exact absurd rfl hcancelled
      socketCommands := by
        intro i c' hi hc'
        refine h.socketCommands hi ?_
        rw [hcommands]
        exact .tail _ hc'
      socketCancelled := by
        intro i c' hi hc'
        obtain hc' | hc' := mem_append_singleton hc'
        · exact h.socketCancelled hi hc'
        · cases hc'
          exact h.socketCommands hi hc }

variable {ps : List (PendingPhysicsSend W)} {ticker : MovementTicker W R}

variable {p : PendingPhysicsSend W}

/-- The ticker observes the oldest receipt: its input is written, dropped or back in the outbox. -/
lemma pop (h : session.Ok) {written : Bool} {rest : List (PhysicsSendIdentity × Bool)}
    (hpending : session.ticker.pendingSends=p::ps)
    (hreceipts : session.receipts = (p.identity,written) :: rest)
    (hps : ticker.pendingSends=ps)
    (hgeneration : ticker.sessionGeneration=session.ticker.sessionGeneration)
    (hepoch : ticker.reanchorEpoch=session.ticker.reanchorEpoch)
    (hnext : ticker.nextTick=session.ticker.nextTick)
    (hsessions : ∀ {s}, s ∈ ticker.outbox → s.sessionGeneration=session.ticker.sessionGeneration)
    (hsorted : ticker.outboxTicks.Pairwise (· < ·))
    (hnew : ∀ {t}, t ∈ ticker.outboxTicks → t ∈ session.ticker.outboxTicks ∨ (t=p.identity.tick ∧ written=false))
    (hstays : ∀ {t}, t ∈ session.ticker.outboxTicks → t ∈ ticker.outboxTicks)
    (hsettled : p.identity.tick ∈ session.socketTicks ∨ p.identity.tick ∈ session.dropped ∨
      p.identity.tick ∈ ticker.outboxTicks)
    (hcapacity : ticker.pendingCount≤outboxCapacity) :
    Ok { session with ticker, receipts := rest } := by
  have hmem : ∀ {q}, q ∈ ticker.pendingSends → q ∈ session.ticker.pendingSends := by
    intro q hq
    rw [hpending]
    rw [hps] at hq
    exact .tail _ hq
  have hp : p ∈ session.ticker.pendingSends := by
    rw [hpending]
    exact .head _
  have hrest : ∀ {r}, r ∈ rest → r ∈ session.receipts := by
    intro r hr
    rw [hreceipts]
    exact .tail _ hr
  have hfront : (p.identity,written) ∈ session.receipts := by
    rw [hreceipts]
    exact .head _
  have hadmission := h.admission
  rw [hpending,hreceipts,map_cons,map_cons,cons_append, List.cons.injEq] at hadmission
  have hpendingSorted := h.pendingSorted
  unfold pendingTicks at hpendingSorted
  rw [hpending,map_cons,pairwise_cons] at hpendingSorted
  exact {
    admission := by
      rw [hps]
      exact hadmission.2
    sampled := by
      rw [hgeneration]
      exact fun hq=>h.sampled (hmem hq)
    generation := by
      rw [hgeneration]
      exact hsessions
    epoch := fun hq hq'=>h.epoch (hmem hq) (hmem hq')
    epoch_le := by
      rw [hepoch]
      exact fun hq=>h.epoch_le (hmem hq)
    cancelled := by
      rw [hepoch]
      exact h.cancelled
    receipt_false := fun hi=>h.receipt_false (hrest hi)
    receipt_true := fun hi=>h.receipt_true (hrest hi)
    pendingSorted := by
      unfold pendingTicks
      rw [hps]
      exact hpendingSorted.2
    outboxSorted := hsorted
    apart := by
      intro q t hq ht
      obtain ht | ⟨rfl,-⟩ := hnew ht
      · exact h.apart (hmem hq) ht
      · rw [hps] at hq
        exact (hpendingSorted.1 _ (mem_map_of_mem hq)).ne'
    before := by
      intro q t hq ht hcancelled
      obtain ht | ⟨-,rfl⟩ := hnew ht
      · exact h.before (hmem hq) ht hcancelled
      · -- the commands after a cancelled one are cancelled too
        have hsome := h.receipt_false hfront
        rw [h.epoch hp (hmem hq)] at hsome
        exact absurd hsome hcancelled
    positive := by
      rw [hnext]
      exact h.positive
    bounded := by
      rw [hnext]
      exact h.bounded
    below := by
      rw [hnext]
      intro t ht
      obtain ht | ht := mem_append.mp ht
      · obtain ⟨q,hq,rfl⟩ := mem_map.mp ht
        exact h.pending_below (hmem hq)
      · obtain ht | ⟨rfl,-⟩ := hnew ht
        · exact h.outbox_below ht
        · exact h.pending_below hp
    socketSorted := h.socketSorted
    socketBelow := by
      rw [hnext]
      exact h.socketBelow
    socketOutbox := by
      intro i t hi ht
      obtain ht | ⟨rfl,rfl⟩ := hnew ht
      · exact h.socketOutbox hi ht
      · exact h.socketCancelled hi hfront
    socketCommands := h.socketCommands
    socketCancelled := fun hi hc=>h.socketCancelled hi (hrest hc)
    capacity := hcapacity
    accounted := by
      intro t ht
      obtain hwritten | hqueued | hdropped := h.accounted ht
      · exact .inl hwritten
      · obtain hflight | houtbox := mem_append.mp hqueued
        · obtain ⟨q,hq,rfl⟩ := mem_map.mp hflight
          rw [hpending,mem_cons] at hq
          obtain rfl | hq := hq
          · obtain hsocket | hdropped | houtbox := hsettled
            · exact .inl hsocket
            · exact .inr (.inr hdropped)
            · exact .inr (.inl (mem_append_right _ houtbox))
          · refine .inr (.inl (mem_append_left _ ?_))
            unfold pendingTicks
            rw [hps]
            exact mem_map_of_mem hq
        · exact .inr (.inl (mem_append_right _ (hstays houtbox)))
      · exact .inr (.inr hdropped)
    kept := by
      rw [hepoch]
      exact fun hq=>h.kept (hmem hq) }

/-- An acknowledgement pops the oldest command in flight, or the ticker fails. -/
lemma acknowledge_cases (hpending : ticker.pendingSends=p::ps) :
    (ticker.acknowledgePhysicsSend p.identity).1.physicsIsAuthorized=false ∨
      ∃ heldRelease admittedRiptide writtenRiptideTick tickEvidence,
        (ticker.acknowledgePhysicsSend p.identity).1 = { ticker with
          pendingSends := ps, heldRelease, admittedRiptide, writtenRiptideTick, tickEvidence } := by
  unfold acknowledgePhysicsSend confirmRiptideInputWritten
  rw [hpending]
  dsimp only
  rw [if_neg (not_not_intro rfl)]
  split_ifs
  · exact .inl (by simp)
  all_goals exact .inr ⟨_,_,_,_,rfl⟩

lemma deliver (h : session.Ok) (hauth : session.ticker.physicsIsAuthorized=true) (hrun : session.deliver=some session')
    (hauth' : session'.ticker.physicsIsAuthorized=true) : session'.Ok := by
  unfold Session.deliver at hrun
  cases hreceipts : session.receipts with
  | nil =>
    rw [hreceipts] at hrun
    cases hrun
  | cons receipt rest =>
    obtain ⟨i,written⟩ := receipt
    have hadmission := h.admission
    rw [hreceipts] at hadmission
    cases hpending : session.ticker.pendingSends with
    | nil =>
      rw [hpending] at hadmission
      cases hadmission
    | cons p ps =>
      have hidentity : p.identity=i := by
        rw [hpending] at hadmission
        exact (List.cons.inj hadmission).1
      subst hidentity
      have hp : p ∈ session.ticker.pendingSends := by
        rw [hpending]
        exact .head _
      have hcapacity : session.ticker.outbox.length+ps.length+1≤outboxCapacity := by
        have hcapacity := h.capacity
        unfold pendingCount at hcapacity
        rw [hpending,length_cons] at hcapacity
        omega
      cases written with
      | true =>
        simp only [hreceipts,Option.some.injEq] at hrun
        subst hrun
        obtain hfailed | ⟨heldRelease,admittedRiptide,writtenRiptideTick,tickEvidence,hack⟩ :=
          acknowledge_cases hpending
        · rw [hfailed] at hauth'
          cases hauth'
        have hfront : (p.identity,true) ∈ session.receipts := by
          rw [hreceipts]
          exact .head _
        rw [hack]
        refine h.pop hpending hreceipts rfl rfl rfl rfl h.generation h.outboxSorted .inl id
          (.inl (mem_map_of_mem (h.receipt_true hfront))) ?_
        unfold pendingCount
        dsimp only
        omega
      | false =>
        simp only [hreceipts,Option.some.injEq] at hrun
        subst hrun
        have hfront : (p.identity,false) ∈ session.receipts := by
          rw [hreceipts]
          exact .head _
        have hsession := (h.sampled hp).2
        have hepoch : p.identity.reanchorEpoch≠session.ticker.reanchorEpoch := (h.cancelled (h.receipt_false hfront)).ne
        unfold resolveCancelledPhysicsSend at hauth' ⊢
        rw [hpending] at hauth' ⊢
        have hauthPopped : ({ session.ticker with
            pendingSends := ps } : MovementTicker W R).physicsIsAuthorized=true := hauth
        dsimp only at hauth' ⊢
        rw [if_neg (not_not_intro rfl)] at hauth' ⊢
        cases hretry : p.retryAfterCancellation with
        | false =>
          simp only [Bool.not_true,Bool.false_and,Bool.false_eq_true,if_false]
          have hsettled := h.kept hp hepoch hretry
          refine h.pop hpending hreceipts rfl rfl rfl rfl h.generation h.outboxSorted .inl id
            (hsettled.elim .inl fun hdropped=>.inr (.inl hdropped)) ?_
          unfold pendingCount
          dsimp only
          omega
        | true =>
          have hroom : ({ session.ticker with
              pendingSends := ps } : MovementTicker W R).pendingCount<outboxCapacity := by
            unfold pendingCount
            dsimp only
            omega
          have hrestored := retryReplayedSample_eq_some hauthPopped hroom p.sample
          simp only [Bool.not_true,Bool.false_eq_true,if_false,hauthPopped,hsession,
            beq_self_eq_true,Bool.and_self,if_true,hrestored]
          have htick := (h.sampled hp).1
          have hperm := perm_orderedInsert (fun sample queued : QueuedPhysicsSample W=>sample.tick<queued.tick) p.sample
            session.ticker.outbox
          have hticks : ∀ {t}, t ∈ ((session.ticker.outbox.orderedInsert
              (fun sample queued=>sample.tick<queued.tick) p.sample).map (·.tick)) ↔
              t=p.identity.tick ∨ t ∈ session.ticker.outboxTicks := by
            intro t
            rw [(hperm.map (·.tick)).mem_iff,map_cons,mem_cons,htick]
            rfl
          refine h.pop hpending hreceipts rfl rfl rfl rfl ?_ ?_ ?_ ?_ ?_ ?_
          · intro s hs
            obtain rfl | hs := mem_cons.mp (hperm.mem_iff.mp hs)
            · exact hsession
            · exact h.generation hs
          · refine pairwise_orderedInsert h.outboxSorted fun hmem=>?_
            rw [htick] at hmem
            exact h.apart hp hmem rfl
          · intro t ht
            obtain rfl | ht := hticks.mp ht
            · exact .inr ⟨rfl,rfl⟩
            · exact .inl ht
          · exact fun ht=>hticks.mpr (.inr ht)
          · exact .inr (.inr (hticks.mpr (.inl rfl)))
          · unfold pendingCount
            dsimp only
            rw [hperm.length_eq,length_cons]
            omega

end Ok

end Session

end Cinnabar.Movement
