import Cinnabar.Movement.Session

/-! # The queues of a session -/

namespace Cinnabar.Movement

open List

lemma mem_append_singleton {α : Type} {a b : α} {l : List α} (h : a ∈ l ++ [b]) : a ∈ l ∨ a=b := by
  simpa using h

namespace Session

variable {W R : Type} {session session' : Session W R}

def socketTicks (session : Session W R) : List ℕ := session.socket.map (·.tick)

/-- What holds of the queues while the session is authorized. -/
structure Ok (session : Session W R) : Prop where
  /-- The transport resolves the commands in admission order. -/
  admission : session.ticker.pendingSends.map (·.identity) = session.receipts.map Prod.fst++session.commands
  sampled : ∀ {p}, p ∈ session.ticker.pendingSends → p.sample.tick=p.identity.tick ∧
    p.sample.sessionGeneration=session.ticker.sessionGeneration
  generation : ∀ {s}, s ∈ session.ticker.outbox → s.sessionGeneration=session.ticker.sessionGeneration
  /-- No command is admitted while one of an older epoch is unresolved. -/
  epoch : ∀ {p q}, p ∈ session.ticker.pendingSends → q ∈ session.ticker.pendingSends →
    p.identity.reanchorEpoch=q.identity.reanchorEpoch
  epoch_le : ∀ {p}, p ∈ session.ticker.pendingSends → p.identity.reanchorEpoch ≤ session.ticker.reanchorEpoch
  cancelled : ∀ {e}, session.cancelled=some e → e < session.ticker.reanchorEpoch
  receipt_false : ∀ {i}, (i,false) ∈ session.receipts → session.cancelled=some i.reanchorEpoch
  receipt_true : ∀ {i}, (i,true) ∈ session.receipts → i ∈ session.socket
  pendingSorted : session.ticker.pendingTicks.Pairwise (· < ·)
  outboxSorted : session.ticker.outboxTicks.Pairwise (· < ·)
  apart : ∀ {p t}, p ∈ session.ticker.pendingSends → t ∈ session.ticker.outboxTicks → p.identity.tick≠t
  /-- A cancelled input may have to go in front of others. -/
  before : ∀ {p t}, p ∈ session.ticker.pendingSends → t ∈ session.ticker.outboxTicks →
    session.cancelled≠some p.identity.reanchorEpoch → p.identity.tick<t
  positive : 0 < session.ticker.nextTick
  bounded : session.ticker.nextTick≤u64Max
  below : ∀ {t}, t ∈ session.ticker.queuedTicks → t < session.ticker.nextTick
  socketSorted : session.socketTicks.Pairwise (· < ·)
  socketBelow : ∀ {i}, i ∈ session.socket → i.tick < session.ticker.nextTick
  socketOutbox : ∀ {i t}, i ∈ session.socket → t ∈ session.ticker.outboxTicks → i.tick<t
  socketCommands : ∀ {i c}, i ∈ session.socket → c ∈ session.commands → i.tick < c.tick
  socketCancelled : ∀ {i c}, i ∈ session.socket → (c,false) ∈ session.receipts → i.tick < c.tick
  capacity : session.ticker.pendingCount≤outboxCapacity
  accounted : ∀ {t}, t ∈ session.completed →
    t ∈ session.socketTicks ∨ t ∈ session.ticker.queuedTicks ∨ t ∈ session.dropped
  /-- An input that a cancellation would lose has been written or dropped. -/
  kept : ∀ {p}, p ∈ session.ticker.pendingSends →
    p.identity.reanchorEpoch≠session.ticker.reanchorEpoch → p.retryAfterCancellation=false →
      p.identity.tick ∈ session.socketTicks ∨ p.identity.tick ∈ session.dropped

namespace Ok

section

variable (h : session.Ok)
include h

lemma of_command {c : PhysicsSendIdentity} (hc : c ∈ session.commands) :
    ∃ p ∈ session.ticker.pendingSends, p.identity=c := by
  have hmem : c ∈ session.ticker.pendingSends.map (·.identity) := by
    rw [h.admission]
    exact mem_append_right _ hc
  exact mem_map.mp hmem

lemma of_receipt {i : PhysicsSendIdentity} {written : Bool}
    (hi : (i,written) ∈ session.receipts) : ∃ p ∈ session.ticker.pendingSends, p.identity=i := by
  have hmem : i ∈ session.ticker.pendingSends.map (·.identity) := by
    rw [h.admission]
    exact mem_append_left _ (mem_map_of_mem hi)
  exact mem_map.mp hmem

variable {p : PendingPhysicsSend W}

lemma pending_below (hp : p ∈ session.ticker.pendingSends) : p.identity.tick < session.ticker.nextTick :=
  h.below (mem_append_left _ (mem_map_of_mem hp))

lemma outbox_below {t : ℕ} (ht : t ∈ session.ticker.outboxTicks) : t < session.ticker.nextTick :=
  h.below (mem_append_right _ ht)

lemma before_current {t : ℕ} (hp : p ∈ session.ticker.pendingSends) (ht : t ∈ session.ticker.outboxTicks)
    (hcurrent : p.identity.reanchorEpoch=session.ticker.reanchorEpoch) : p.identity.tick<t := by
  refine h.before hp ht fun hcancelled=>?_
  have hlt := h.cancelled hcancelled
  omega

variable {ticker : MovementTicker W R}

/-- What changes neither the queues nor the epoch keeps the invariant. -/
lemma frame {held handed : List R} (houtbox : ticker.outbox=session.ticker.outbox)
    (hpending : ticker.pendingSends=session.ticker.pendingSends)
    (hgeneration : ticker.sessionGeneration=session.ticker.sessionGeneration)
    (hepoch : ticker.reanchorEpoch=session.ticker.reanchorEpoch)
    (hnext : session.ticker.nextTick≤ticker.nextTick) (hbounded : ticker.nextTick≤u64Max) :
    Ok { session with ticker, held, handed } := by
  have houtboxTicks : ticker.outboxTicks=session.ticker.outboxTicks := by
    unfold MovementTicker.outboxTicks
    rw [houtbox]
  have hpendingTicks : ticker.pendingTicks=session.ticker.pendingTicks := by
    unfold MovementTicker.pendingTicks
    rw [hpending]
  have hqueued : ticker.queuedTicks=session.ticker.queuedTicks := by
    unfold MovementTicker.queuedTicks
    rw [houtboxTicks,hpendingTicks]
  have hcount : ticker.pendingCount=session.ticker.pendingCount := by
    unfold MovementTicker.pendingCount
    rw [houtbox,hpending]
  exact {
    admission := by
      rw [hpending]
      exact h.admission
    sampled := by
      rw [hpending,hgeneration]
      exact h.sampled
    generation := by
      rw [houtbox,hgeneration]
      exact h.generation
    epoch := by
      rw [hpending]
      exact h.epoch
    epoch_le := by
      rw [hpending,hepoch]
      exact h.epoch_le
    cancelled := by
      rw [hepoch]
      exact h.cancelled
    __ := h
    pendingSorted := by
      rw [hpendingTicks]
      exact h.pendingSorted
    outboxSorted := by
      rw [houtboxTicks]
      exact h.outboxSorted
    apart := by
      rw [hpending,houtboxTicks]
      exact h.apart
    before := by
      rw [hpending,houtboxTicks]
      exact h.before
    positive := h.positive.trans_le hnext
    bounded := hbounded
    below := by
      rw [hqueued]
      exact fun ht=>(h.below ht).trans_le hnext
    socketBelow := fun hi=>(h.socketBelow hi).trans_le hnext
    socketOutbox := by
      rw [houtboxTicks]
      exact h.socketOutbox
    capacity := by
      rw [hcount]
      exact h.capacity
    accounted := by
      rw [hqueued]
      exact h.accounted
    kept := by
      rw [hpending,hepoch]
      exact h.kept }

lemma complete (sample : QueuedPhysicsSample W) (houtbox : ticker.outbox=session.ticker.outbox ++ [sample])
    (htick : sample.tick=session.ticker.nextTick)
    (hsample : sample.sessionGeneration=session.ticker.sessionGeneration)
    (hpending : ticker.pendingSends=session.ticker.pendingSends)
    (hgeneration : ticker.sessionGeneration=session.ticker.sessionGeneration)
    (hepoch : ticker.reanchorEpoch=session.ticker.reanchorEpoch)
    (hnext : ticker.nextTick=session.ticker.nextTick+1) (hbounded : ticker.nextTick≤u64Max)
    (hroom : session.ticker.pendingCount<outboxCapacity) :
    Ok { session with ticker, completed := session.completed ++ [sample.tick] } := by
  have houtboxTicks : ticker.outboxTicks=session.ticker.outboxTicks ++ [session.ticker.nextTick] := by
    unfold MovementTicker.outboxTicks
    rw [houtbox,map_append,← htick]
    rfl
  have hpendingTicks : ticker.pendingTicks=session.ticker.pendingTicks := by
    unfold MovementTicker.pendingTicks
    rw [hpending]
  have hqueued : ticker.queuedTicks=session.ticker.queuedTicks ++ [session.ticker.nextTick] := by
    unfold MovementTicker.queuedTicks
    rw [houtboxTicks,hpendingTicks,append_assoc]
  have hcount : ticker.pendingCount=session.ticker.pendingCount+1 := by
    unfold MovementTicker.pendingCount
    rw [houtbox,hpending,length_append,length_singleton]
    omega
  exact {
    admission := by
      rw [hpending]
      exact h.admission
    sampled := by
      rw [hpending,hgeneration]
      exact h.sampled
    generation := by
      rw [houtbox,hgeneration]
      intro s hs
      rw [mem_append,mem_singleton] at hs
      obtain hs | rfl := hs
      · exact h.generation hs
      · exact hsample
    epoch := by
      rw [hpending]
      exact h.epoch
    epoch_le := by
      rw [hpending,hepoch]
      exact h.epoch_le
    cancelled := by
      rw [hepoch]
      exact h.cancelled
    __ := h
    pendingSorted := by
      rw [hpendingTicks]
      exact h.pendingSorted
    outboxSorted := by
      rw [houtboxTicks,pairwise_append]
      refine ⟨h.outboxSorted,pairwise_singleton _ _,fun t ht t' ht'=>?_⟩
      rw [mem_singleton.mp ht']
      exact h.outbox_below ht
    apart := by
      rw [hpending,houtboxTicks]
      intro p t hp ht
      obtain ht | rfl := mem_append_singleton ht
      · exact h.apart hp ht
      · exact (h.pending_below hp).ne
    before := by
      rw [hpending,houtboxTicks]
      intro p t hp ht hcancelled
      obtain ht | rfl := mem_append_singleton ht
      · exact h.before hp ht hcancelled
      · exact h.pending_below hp
    positive := by
      rw [hnext]
      exact Nat.succ_pos _
    bounded := hbounded
    below := by
      rw [hqueued,hnext]
      intro t ht
      obtain ht | rfl := mem_append_singleton ht
      · exact (h.below ht).trans (Nat.lt_succ_self _)
      · exact Nat.lt_succ_self _
    socketBelow := by
      rw [hnext]
      exact fun hi=>(h.socketBelow hi).trans (Nat.lt_succ_self _)
    socketOutbox := by
      rw [houtboxTicks]
      intro i t hi ht
      obtain ht | rfl := mem_append_singleton ht
      · exact h.socketOutbox hi ht
      · exact h.socketBelow hi
    capacity := by
      rw [hcount]
      exact hroom
    accounted := by
      rw [hqueued,htick]
      intro t ht
      obtain ht | rfl := mem_append_singleton ht
      · obtain hwritten | hqueued | hdropped := h.accounted ht
        · exact .inl hwritten
        · exact .inr (.inl (mem_append_left _ hqueued))
        · exact .inr (.inr hdropped)
      · exact .inr (.inl (mem_append_right _ (mem_singleton_self _)))
    kept := by
      rw [hpending,hepoch]
      exact h.kept }

end

end Ok

end Session

end Cinnabar.Movement
