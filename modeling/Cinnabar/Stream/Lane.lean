import Cinnabar.Stream.Candidates

/-! # Lanes and the refresh of queued ranks -/

namespace Cinnabar.Stream

open List

def maxPendingSchedulerScansPerPoll : ℕ := 128

/-- Longest wait, in readiness polls, before a still-blocked revision is rechecked. -/
def maxRecheckBackoffPolls : ℕ := 32

/-- The answers of the clock at a loop's reads: whether the deadline has passed. -/
abbrev Clock := ℕ → Bool

/-- The clock of a call without a deadline. -/
def Clock.never : Clock := fun _=>false

structure Recheck where
  revision : ℕ
  attempts : ℕ
  notBefore : ℕ
deriving DecidableEq

structure Lane (D : Type) where
  ready : CandidateQueue D
  deferred : CandidateQueue D
  /-- Promoted startup revisions: attempts and the poll before which a blocked one stays deferred. -/
  rechecks : SubChunkKey → Option Recheck
  polls : ℕ

variable {V D : Type}

namespace Lane

def empty : Lane D := ⟨IndexedHeap.empty,IndexedHeap.empty,fun _=>none,0⟩

section

variable (lane : Lane D)

def isEmpty : Bool := lane.ready.isEmpty && lane.deferred.isEmpty

def heap (deferred : Bool) : CandidateQueue D :=
  if deferred then lane.deferred else lane.ready

def setHeap (deferred : Bool) (q : CandidateQueue D) : Lane D :=
  if deferred then { lane with deferred := q } else { lane with ready := q }

/-- The lane holds `key` at `revision` in one of its queues. -/
def Holds (key : SubChunkKey) (revision : ℕ) : Prop :=
  ∃ deferred, (lane.heap deferred).Holds key revision

def size : ℕ := lane.ready.length+lane.deferred.length

@[simp] lemma heap_true : lane.heap true=lane.deferred := rfl

@[simp] lemma heap_false : lane.heap false=lane.ready := rfl

lemma holds_iff {lane : Lane D} {key : SubChunkKey} {revision : ℕ} : lane.Holds key revision ↔
      CandidateQueue.Holds lane.ready key revision ∨
        CandidateQueue.Holds lane.deferred key revision := by
  unfold Holds
  rw [Bool.exists_bool,heap_true,heap_false]

lemma size_eq (deferred : Bool) : lane.size = (lane.heap deferred).length + (lane.heap !deferred).length := by
  cases deferred
  · rfl
  · exact Nat.add_comm _ _

@[simp] lemma heap_setHeap (deferred : Bool) (q : CandidateQueue D) : (lane.setHeap deferred q).heap deferred=q := by
  cases deferred <;> rfl

@[simp] lemma heap_setHeap_not (deferred : Bool) (q : CandidateQueue D) :
    (lane.setHeap deferred q).heap (!deferred) = lane.heap (!deferred) := by
  cases deferred <;> rfl

lemma holds_iff_heap {lane : Lane D} (deferred : Bool) {key : SubChunkKey} {revision : ℕ} : lane.Holds key revision ↔
      (lane.heap deferred).Holds key revision ∨ (lane.heap !deferred).Holds key revision := by
  rw [holds_iff]
  cases deferred
  · exact Iff.rfl
  · exact or_comm

lemma size_setHeap (deferred : Bool) (q : CandidateQueue D) :
    (lane.setHeap deferred q).size=q.length + (lane.heap !deferred).length := by
  rw [size_eq _ deferred,heap_setHeap,heap_setHeap_not]

end

end Lane

variable [Ord D]

structure Currency where
  isCurrent : SubChunkKey → ℕ → Bool
  unique : ∀ {key r r'}, isCurrent key r=true → isCurrent key r'=true → r=r'

namespace Lane

def push (lane : Lane D) (deferred : Bool) (candidate : PendingSchedulerCandidate D) : Lane D :=
  lane.setHeap deferred ((lane.heap deferred).push candidate)

/-- `heap_mut(deferred).pop()` -/
def pop (lane : Lane D) (deferred : Bool) : Option (PendingSchedulerCandidate D × Lane D) :=
  (lane.heap deferred).pop.map fun next=>(next.1,lane.setHeap deferred next.2)

variable {deferred : Bool}

lemma pop_eq_some {lane lane' : Lane D} {candidate : PendingSchedulerCandidate D} :
    lane.pop deferred=some (candidate,lane') ↔
      ∃ q, (lane.heap deferred).pop=some (candidate,q) ∧ lane'=lane.setHeap deferred q := by
  unfold pop
  rw [Option.map_eq_some_iff]
  constructor
  · rintro ⟨next,hnext,h⟩
    cases h
    exact ⟨next.2,hnext,rfl⟩
  · rintro ⟨q,hq,rfl⟩
    exact ⟨(candidate,q),hq,rfl⟩

lemma pop_eq_none {lane : Lane D} : lane.pop deferred=none ↔ (lane.heap deferred).length=0 := by
  unfold pop
  rw [Option.map_eq_none_iff,IndexedHeap.pop_eq_none,← IndexedHeap.isEmpty_iff, IndexedHeap.isEmpty_iff_length]

variable {key : SubChunkKey} {revision : ℕ}

/-- A pop takes one record out and nothing else. -/
lemma holds_of_pop {lane lane' : Lane D}
    {candidate : PendingSchedulerCandidate D} (h : lane.pop deferred=some (candidate,lane')) :
    lane.Holds key revision ↔
      (candidate.key=key ∧ candidate.revision=revision) ∨ lane'.Holds key revision := by
  obtain ⟨q,hq,rfl⟩ := pop_eq_some.1 h
  rw [holds_iff_heap deferred,holds_iff_heap deferred,heap_setHeap,heap_setHeap_not,
    CandidateQueue.holds_of_pop hq,or_assoc]

lemma size_of_pop {lane lane' : Lane D}
    {candidate : PendingSchedulerCandidate D} (h : lane.pop deferred=some (candidate,lane')) :
    lane'.size+1=lane.size := by
  obtain ⟨q,hq,rfl⟩ := pop_eq_some.1 h
  obtain ⟨-,-,hlen⟩ := IndexedHeap.pop_spec hq
  rw [size_setHeap,size_eq lane deferred]
  omega

lemma holds_push_self (lane : Lane D) (deferred : Bool) (candidate : PendingSchedulerCandidate D) :
    (lane.push deferred candidate).Holds candidate.key candidate.revision := by
  rw [holds_iff_heap deferred,push,heap_setHeap]
  exact .inl (CandidateQueue.holds_push.2 (.inl ⟨rfl,rfl⟩))

lemma of_holds_push {lane : Lane D} {candidate : PendingSchedulerCandidate D}
    (h : (lane.push deferred candidate).Holds key revision) :
    (candidate.key=key ∧ candidate.revision=revision) ∨ lane.Holds key revision := by
  rw [holds_iff_heap deferred,push,heap_setHeap,heap_setHeap_not] at h
  rw [holds_iff_heap deferred]
  rcases h with h | h
  · rcases CandidateQueue.holds_push.1 h with h | ⟨-,h⟩
    · exact .inl h
    · exact .inr (.inl h)
  · exact .inr (.inr h)

lemma holds_push_of_holds {lane : Lane D} {candidate : PendingSchedulerCandidate D}
    (h : lane.Holds key revision) (hk : candidate.key=key → candidate.revision=revision) :
    (lane.push deferred candidate).Holds key revision := by
  rw [holds_iff_heap deferred] at h
  rw [holds_iff_heap deferred,push,heap_setHeap,heap_setHeap_not]
  rcases h with h | h
  · left
    rw [CandidateQueue.holds_push]
    by_cases hkey : candidate.key=key
    · exact .inl ⟨hkey,hk hkey⟩
    · exact .inr ⟨hkey,h⟩
  · exact .inr h

lemma size_push_le (lane : Lane D) (deferred : Bool) (candidate : PendingSchedulerCandidate D) :
    (lane.push deferred candidate).size≤lane.size+1 := by
  have := CandidateQueue.length_push_le (lane.heap deferred) candidate
  rw [push,size_setHeap,size_eq lane deferred]
  omega

lemma size_push_ne_zero (lane : Lane D) (deferred : Bool)
    (candidate : PendingSchedulerCandidate D) : (lane.push deferred candidate).size≠0 := by
  have hpos : 0 < ((lane.heap deferred).push candidate).length := length_pos_of_mem (IndexedHeap.mem_put.2 (.inl rfl))
  rw [push,size_setHeap]
  omega

end Lane

structure Moves (currency : Currency) (before after : SubChunkKey → ℕ → Prop) : Prop where
  keeps : ∀ {key r}, currency.isCurrent key r=true → before key r → after key r
  only : ∀ {key r}, after key r → before key r ∨ currency.isCurrent key r=true

namespace Moves

variable {currency : Currency} {before between after : SubChunkKey → ℕ → Prop}

lemma refl (currency : Currency) (records : SubChunkKey → ℕ → Prop) :
    Moves currency records records :=
  ⟨fun _ h=>h,.inl⟩

lemma of_iff (h : ∀ key r, before key r ↔ after key r) : Moves currency before after :=
  ⟨fun _ hb=>(h _ _).1 hb,fun ha=>.inl ((h _ _).2 ha)⟩

lemma trans (h₁ : Moves currency before between) (h₂ : Moves currency between after) :
    Moves currency before after := by
  constructor
  · intro key r hc hb
    exact h₂.keeps hc (h₁.keeps hc hb)
  · intro key r ha
    rcases h₂.only ha with hb | hc
    · exact h₁.only hb
    · exact .inr hc

/-- Moving one part leaves the rest where it is. -/
lemma or_right (rest : SubChunkKey → ℕ → Prop) (h : Moves currency before after) :
    Moves currency (fun key r=>before key r ∨ rest key r)
      (fun key r=>after key r ∨ rest key r) := by
  constructor
  · intro key r hc hb
    exact hb.imp_left (h.keeps hc)
  · rintro key r (ha | hr)
    · exact (h.only ha).imp_left .inl
    · exact .inl (.inr hr)

end Moves

namespace Lane

variable {currency : Currency}

/-- Taking a candidate out of the books and dropping it when its revision is stale. -/
lemma moves_pop_stale {lane lane' : Lane D} {deferred : Bool}
    {candidate : PendingSchedulerCandidate D} (h : lane.pop deferred=some (candidate,lane'))
    (hstale : currency.isCurrent candidate.key candidate.revision≠true) :
    Moves currency lane.Holds lane'.Holds := by
  constructor
  · intro key r hc hb
    rcases (holds_of_pop h).1 hb with ⟨rfl,rfl⟩ | hb
    · exact absurd hc hstale
    · exact hb
  · intro key r ha
    exact .inl ((holds_of_pop h).2 (.inr ha))

lemma moves_push_current (lane : Lane D) (deferred : Bool) {candidate : PendingSchedulerCandidate D}
    (hcur : currency.isCurrent candidate.key candidate.revision=true) :
    Moves currency lane.Holds (lane.push deferred candidate).Holds := by
  constructor
  · intro key r hc hb
    refine holds_push_of_holds hb fun hk=>?_
    rw [hk] at hcur
    exact currency.unique hcur hc
  · intro key r ha
    rcases of_holds_push ha with ⟨rfl,rfl⟩ | hb
    · exact .inr hcur
    · exact .inl hb

/-- Popping a current candidate and pushing it again elsewhere in the lane, or under a new rank. -/
lemma moves_pop_push {lane lane' lane'' : Lane D} {deferred deferred' : Bool}
    {candidate candidate' : PendingSchedulerCandidate D}
    (h : lane.pop deferred=some (candidate,lane')) (hkey : candidate'.key=candidate.key)
    (hrev : candidate'.revision=candidate.revision)
    (hcur : currency.isCurrent candidate.key candidate.revision=true)
    (hsub : Moves currency lane'.Holds lane''.Holds) :
    Moves currency lane.Holds (lane''.push deferred' candidate').Holds := by
  have hcur' : currency.isCurrent candidate'.key candidate'.revision=true := by
    rw [hkey,hrev]
    exact hcur
  have hpush := moves_push_current lane'' deferred' hcur'
  constructor
  · intro key r hc hb
    rcases (holds_of_pop h).1 hb with ⟨rfl,rfl⟩ | hb
    · rw [← hkey,← hrev]
      exact holds_push_self lane'' deferred' candidate'
    · exact hpush.keeps hc (hsub.keeps hc hb)
  · intro key r ha
    rcases hpush.only ha with hb | hc
    · rcases hsub.only hb with hb | hc
      · exact .inl ((holds_of_pop h).2 (.inr hb))
      · exact .inr hc
    · exact .inr hc

def nextRecheck (revision attempts polls : ℕ) : Recheck where
  revision := revision
  attempts := attempts+1
  notBefore := polls+min (2^min attempts 5) maxRecheckBackoffPolls

/-- The loop of `prioritize_deferred`: `examined` after the first candidate, `held` the
candidates whose backoff has not elapsed. -/
def prioritizeLoop (isCurrent : SubChunkKey → ℕ → Bool) (late : Clock)
    (readyBest : Option (PendingSchedulerCandidate D)) :
    (budget : ℕ) → (examined : Bool) → Lane D → List (PendingSchedulerCandidate D) →
      ℕ × Lane D × List (PendingSchedulerCandidate D)
  | 0, _, lane, held => (0,lane,held)
  | budget+1, examined, lane, held =>
    if examined && late budget then (budget+1,lane,held)
    else match lane.pop true with
      | none => (budget+1,lane,held)
      | some (candidate,popped) =>
        if readyBest.any fun ready=>(compare candidate ready).isLE then
          (budget+1,lane,held)
        else if !isCurrent candidate.key candidate.revision then
          prioritizeLoop isCurrent late readyBest budget true popped held
        else
          let recheck := (popped.rechecks candidate.key).filter fun recheck =>
            recheck.revision=candidate.revision
          if recheck.any fun recheck=>popped.polls < recheck.notBefore then
            prioritizeLoop isCurrent late readyBest budget true popped (held ++ [candidate])
          else
            let attempts := recheck.elim 0 Recheck.attempts
            let rechecked := { popped with
              rechecks := Function.update popped.rechecks candidate.key
                (some (nextRecheck candidate.revision attempts popped.polls)) }
            prioritizeLoop isCurrent late readyBest budget true (rechecked.push false candidate) held

/-- Moves current deferred work that outranks the best ready job back to ready, within budget. -/
def prioritizeDeferred (isCurrent : SubChunkKey → ℕ → Bool) (late : Clock) (budget : ℕ)
    (lane : Lane D) : Lane D × ℕ :=
  let polled := { lane with polls := lane.polls+1 }
  let out := prioritizeLoop isCurrent late polled.ready.peek budget false polled []
  ({ out.2.1 with deferred := out.2.1.deferred.extend out.2.2 },out.1)

/-- The end of a lane's ingress: deferred work follows exhausted ready work, and startup
rechecks what outranks it. -/
def settle (isCurrent : SubChunkKey → ℕ → Bool) (late : Clock) (startup : Bool) (budget : ℕ)
    (lane : Lane D) : Lane D × ℕ :=
  let turned :=
    if lane.ready.isEmpty then { lane with ready := lane.deferred, deferred := lane.ready }
    else lane
  if startup then prioritizeDeferred isCurrent late budget turned
  else ({ turned with rechecks := fun _=>none },budget)

def HoldsWith (lane : Lane D) (held : List (PendingSchedulerCandidate D)) (key : SubChunkKey)
    (revision : ℕ) : Prop :=
  lane.Holds key revision ∨ ∃ candidate ∈ held, candidate.key=key ∧ candidate.revision=revision

/-- What the loop keeps from one round to the next. -/
structure Rechecked (currency : Currency) (lane : Lane D)
    (held : List (PendingSchedulerCandidate D)) (lane' : Lane D)
    (held' : List (PendingSchedulerCandidate D)) : Prop where
  moves : Moves currency (lane.HoldsWith held) (lane'.HoldsWith held')
  size : lane'.size+held'.length≤lane.size+held.length
  current : (∀ c ∈ held, currency.isCurrent c.key c.revision=true) →
    ∀ c ∈ held', currency.isCurrent c.key c.revision=true
  ready : 0<lane.ready.length → 0<lane'.ready.length

namespace Rechecked

variable {lane lane' lane'' : Lane D} {held held' held'' : List (PendingSchedulerCandidate D)}

omit [Ord D] in
lemma refl (lane : Lane D) (held : List (PendingSchedulerCandidate D)) :
    Rechecked currency lane held lane held :=
  ⟨Moves.refl currency _,le_refl _,id,id⟩

omit [Ord D] in
lemma trans (h₁ : Rechecked currency lane held lane' held') (h₂ : Rechecked currency lane' held' lane'' held'') :
    Rechecked currency lane held lane'' held'' where
  moves := h₁.moves.trans h₂.moves
  size := h₂.size.trans h₁.size
  current := fun h=>h₂.current (h₁.current h)
  ready := fun h=>h₂.ready (h₁.ready h)

variable {popped : Lane D} {candidate : PendingSchedulerCandidate D}

section

variable (h : lane.pop true=some (candidate,popped))
include h

lemma ready_of_pop : popped.ready=lane.ready := by
  obtain ⟨q,-,rfl⟩ := pop_eq_some.1 h
  rfl

lemma dropped (hstale : currency.isCurrent candidate.key candidate.revision≠true) :
    Rechecked currency lane held popped held where
  moves := (moves_pop_stale h hstale).or_right _
  size := by
    have := size_of_pop h
    omega
  current := id
  ready := fun hready=>by
    rw [ready_of_pop h]
    exact hready

lemma heldBack (hcur : currency.isCurrent candidate.key candidate.revision=true) :
    Rechecked currency lane held popped (held ++ [candidate]) where
  moves := by
    refine Moves.of_iff fun key r=>?_
    simp only [HoldsWith,holds_of_pop h,mem_append,mem_singleton,or_and_right, exists_or,exists_eq_left]
    generalize (∃ c ∈ held, c.key=key ∧ c.revision=r) = waiting
    tauto
  size := by
    have := size_of_pop h
    simp only [length_append,length_singleton]
    omega
  current := by
    intro hheld c hc
    rcases mem_append.1 hc with hc | hc
    · exact hheld c hc
    · rw [mem_singleton] at hc
      subst hc
      exact hcur
  ready := fun hready=>by
    rw [ready_of_pop h]
    exact hready

lemma promoted (hcur : currency.isCurrent candidate.key candidate.revision=true)
    (rechecks : SubChunkKey → Option Recheck) :
    Rechecked currency lane held (push { popped with rechecks := rechecks } false candidate) held where
  moves := by
    have hmoves : Moves currency lane.Holds (push { popped with rechecks := rechecks } false candidate).Holds :=
      moves_pop_push h rfl rfl hcur (Moves.refl currency popped.Holds)
    exact hmoves.or_right _
  size := by
    have := size_of_pop h
    have hpush := size_push_le { popped with rechecks := rechecks } false candidate
    change _≤popped.size+1 at hpush
    omega
  current := id
  ready := fun _=>length_pos_of_mem (IndexedHeap.mem_put.2 (.inl rfl))

end

end Rechecked

lemma prioritizeLoop_rechecked (currency : Currency) (late : Clock)
    (readyBest : Option (PendingSchedulerCandidate D)) (budget : ℕ) (examined : Bool)
    (lane : Lane D) (held : List (PendingSchedulerCandidate D)) :
    Rechecked currency lane held (prioritizeLoop currency.isCurrent late readyBest budget examined lane held).2.1
      (prioritizeLoop currency.isCurrent late readyBest budget examined lane held).2.2 := by
  induction budget generalizing examined lane held with
  | zero => exact Rechecked.refl lane held
  | succ budget ih =>
    rw [prioritizeLoop]
    split_ifs with hlate
    · exact Rechecked.refl lane held
    · split
      next => exact Rechecked.refl lane held
      next candidate popped hpop =>
        dsimp only
        split_ifs with hbest hcur hcool
        · exact Rechecked.refl lane held
        · refine (Rechecked.dropped hpop ?_).trans (ih true popped held)
          simpa using hcur
        · refine (Rechecked.heldBack hpop ?_).trans (ih true popped _)
          simpa using hcur
        · refine (Rechecked.promoted hpop ?_ _).trans (ih true _ held)
          simpa using hcur

/-- Candidates set aside return to the deferred queue. -/
lemma moves_extend {held : List (PendingSchedulerCandidate D)}
    (hheld : ∀ c ∈ held, currency.isCurrent c.key c.revision=true) (lane : Lane D) :
    Moves currency (lane.HoldsWith held)
      (Holds { lane with deferred := lane.deferred.extend held }) := by
  induction held generalizing lane with
  | nil =>
    refine Moves.of_iff fun key r=>?_
    simp [HoldsWith,CandidateQueue.extend]
  | cons c held ih =>
    have hstep : Moves currency (lane.HoldsWith (c::held)) ((lane.push true c).HoldsWith held) := by
      have hcur := hheld c (.head _)
      have hpush := moves_push_current lane true hcur
      constructor
      · rintro key r hc (hb | ⟨d,hd,rfl,rfl⟩)
        · exact .inl (hpush.keeps hc hb)
        · rcases mem_cons.1 hd with rfl | hd
          · exact .inl (holds_push_self lane true d)
          · exact .inr ⟨d,hd,rfl,rfl⟩
      · rintro key r (ha | ⟨d,hd,rfl,rfl⟩)
        · exact (hpush.only ha).imp_left .inl
        · exact .inl (.inr ⟨d,.tail _ hd,rfl,rfl⟩)
    exact hstep.trans (ih (fun d hd=>hheld d (.tail _ hd)) (lane.push true c))

lemma length_extend_le (q : CandidateQueue D) (held : List (PendingSchedulerCandidate D)) :
    (CandidateQueue.extend q held).length≤q.length+held.length := by
  induction held generalizing q with
  | nil => exact le_refl _
  | cons c held ih =>
    have := CandidateQueue.length_push_le q c
    refine (ih (CandidateQueue.push q c)).trans ?_
    rw [length_cons]
    omega

/-- What the end of an ingress leaves of a lane. -/
structure Settled (currency : Currency) (lane lane' : Lane D) : Prop where
  moves : Moves currency lane.Holds lane'.Holds
  size : lane'.size≤lane.size
  /-- Deferred work never waits behind an empty ready queue. -/
  ready : lane.size≠0 → 0<lane'.ready.length

lemma prioritizeDeferred_moves (currency : Currency) (late : Clock) (budget : ℕ) (lane : Lane D) :
    Moves currency lane.Holds (prioritizeDeferred currency.isCurrent late budget lane).1.Holds ∧
      (prioritizeDeferred currency.isCurrent late budget lane).1.size≤lane.size := by
  have hloop := prioritizeLoop_rechecked currency late lane.ready.peek budget false
    { lane with polls := lane.polls+1 } []
  rw [prioritizeDeferred]
  generalize prioritizeLoop currency.isCurrent late lane.ready.peek budget false
    { lane with polls := lane.polls+1 } [] = out at hloop ⊢
  obtain ⟨left,lane',held⟩ := out
  have hstart : Moves currency lane.Holds (HoldsWith { lane with polls := lane.polls+1 } []) :=
    Moves.of_iff fun key r=>by simp [HoldsWith,holds_iff]
  refine ⟨(hstart.trans hloop.moves).trans (moves_extend (hloop.current (by simp)) lane'),?_⟩
  have hsize := hloop.size
  have hext := length_extend_le lane'.deferred held
  simp only [size,length_nil] at hsize ⊢
  omega

lemma prioritizeDeferred_settled (currency : Currency) (late : Clock) (budget : ℕ)
    (lane : Lane D) (hready : lane.size≠0 → 0<lane.ready.length) :
    Settled currency lane (prioritizeDeferred currency.isCurrent late budget lane).1 := by
  obtain ⟨hmoves,hsize⟩ := prioritizeDeferred_moves currency late budget lane
  have hloop := prioritizeLoop_rechecked currency late lane.ready.peek budget false
    { lane with polls := lane.polls+1 } []
  exact ⟨hmoves,hsize,fun h=>hloop.ready (hready h)⟩

lemma settle_settled (currency : Currency) (late : Clock) (startup : Bool) (budget : ℕ)
    (lane : Lane D) : Settled currency lane (settle currency.isCurrent late startup budget lane).1 := by
  have hturn : ∃ turned : Lane D,
      (if lane.ready.isEmpty then { lane with ready := lane.deferred, deferred := lane.ready }
        else lane) = turned ∧ (∀ key r, lane.Holds key r ↔ turned.Holds key r) ∧
      turned.size=lane.size ∧ (lane.size≠0 → 0<turned.ready.length) := by
    refine ⟨_,rfl,?_⟩
    split_ifs with hempty
    · refine ⟨fun key r=>?_,Nat.add_comm _ _,fun h=>?_⟩
      · rw [holds_iff,holds_iff]
        exact or_comm
      · have := IndexedHeap.isEmpty_iff_length.1 hempty
        simp only [size] at h
        change 0<lane.deferred.length
        omega
    · refine ⟨fun key r=>Iff.rfl,rfl,fun h=>?_⟩
      rw [IndexedHeap.isEmpty_iff_length] at hempty
      omega
  obtain ⟨turned,heq,hiff,hsize,hready⟩ := hturn
  unfold settle
  rw [heq]
  rw [← hsize] at hready
  split_ifs
  · have h := prioritizeDeferred_settled currency late budget turned hready
    exact ⟨(Moves.of_iff hiff).trans h.moves,hsize ▸ h.size,hsize ▸ h.ready⟩
  · exact ⟨(Moves.of_iff hiff),hsize.le,hsize ▸ hready⟩

end Lane

end Cinnabar.Stream
