import Cinnabar.Stream.Refresh

/-! # The retry rotation -/

namespace Cinnabar.Stream

/-- One revision waiting for a bounded ordinary readiness check. -/
structure DeferredRetry where
  key : SubChunkKey
  revision : ℕ
  attempts : ℕ
  notBefore : ℕ
deriving DecidableEq

/-- The waiters by their sequence numbers, in ascending order. -/
structure RecheckQueue where
  entries : List (ℕ × DeferredRetry)
  positions : SubChunkKey → Option ℕ
  nextSequence : ℕ
  polls : ℕ

namespace RecheckQueue

def empty : RecheckQueue := ⟨[],fun _=>none,0,0⟩

/-- `BTreeMap::insert` -/
def insertEntry (sequence : ℕ) (retry : DeferredRetry) :
    List (ℕ × DeferredRetry) → List (ℕ × DeferredRetry)
  | [] => [(sequence,retry)]
  | entry::rest =>
    if sequence<entry.1 then (sequence,retry) :: entry::rest
    else if sequence=entry.1 then (sequence,retry) :: rest
    else entry::insertEntry sequence retry rest

variable (q : RecheckQueue)

/-- Rotates a revision to the back without changing its retry history. -/
def requeue (retry : DeferredRetry) : RecheckQueue :=
  let sequence := if q.entries.isEmpty then 0 else q.nextSequence
  { q with
    entries := insertEntry sequence retry q.entries
    positions := Function.update q.positions retry.key (some sequence)
    nextSequence := (sequence+1) % 2^64 }

/-- A newer revision of a waiter starts its history anew. -/
def renew (polls revision : ℕ) (retry : DeferredRetry) : DeferredRetry :=
  if retry.revision=revision then retry
  else { retry with revision := revision, attempts := 0, notBefore := polls }

/-- Registers a revision without letting repeated arrivals move an existing waiter back. -/
def enqueue (key : SubChunkKey) (revision : ℕ) : RecheckQueue :=
  match q.positions key with
  | some sequence =>
    { q with
      entries := q.entries.map fun entry =>
        if entry.1=sequence then (entry.1,renew q.polls revision entry.2) else entry }
  | none => q.requeue ⟨key,revision,0,q.polls⟩

/-- Removes completed work from both indexes. -/
def remove (key : SubChunkKey) : RecheckQueue :=
  match q.positions key with
  | some sequence =>
    { q with
      entries := q.entries.filter fun entry=>entry.1≠sequence
      positions := Function.update q.positions key none }
  | none => q

/-- Drops queued revisions and their poll-based retry history. -/
def clear (_ : RecheckQueue) : RecheckQueue := empty

end RecheckQueue

end Cinnabar.Stream

/-! # Keyed worker jobs

Per-key jobs ordered by the camera: each key's latest pending revision, the
scan lists and lanes that lazily drop superseded records, and the refresh in
progress.  The jobs already dispatched are not part of the scheduling and are
left out.
-/

namespace Cinnabar.Stream

open Function

/-- `MAX_PENDING_MESH_QUEUE_WORK_PER_POLL` -/
def maxPendingMeshQueueWorkPerPoll : ℕ := 512

/-- A queued record superseded by a newer revision of its key. -/
class PendingJob (P : Type) where
  /-- Whether pending revisions join the ordinary deferred retry rotation. -/
  recheckDeferred : Bool
  revision : P → ℕ
  urgent : P → Bool

abbrev PendingMap (P : Type) := Finmap fun _ : SubChunkKey=>P

/-- One queued `(key, revision)`. -/
abbrev ScanRecord := SubChunkKey × ℕ

structure KeyedJobs (P V D : Type) (L : ℕ) where
  pending : PendingMap P
  /-- Urgent records at the front, ordinary ones at the back. -/
  scan : List ScanRecord
  /-- Startup dependencies, ingressed after urgent records and before ordinary ones. -/
  startupScan : List ScanRecord
  lanes : Fin L → Lane D
  refresh : SchedulerRefresh V D L
  retries : RecheckQueue

/-- The clocks of one ingress: of its refresh, of its scan loop and of each lane's recheck. -/
structure Deadline (L : ℕ) where
  refresh : Clock
  scan : Clock
  lane : Fin L → Clock

def Deadline.unlimited (L : ℕ) : Deadline L := ⟨Clock.never,Clock.never,fun _=>Clock.never⟩

variable {P V D : Type} {L : ℕ} [PendingJob P] (pending : PendingMap P)

/-- Whether `key` is pending at `revision`. -/
def isCurrent (key : SubChunkKey) (revision : ℕ) : Bool :=
  (pending.lookup key).any fun job=>PendingJob.revision job=revision

lemma isCurrent_iff {pending : PendingMap P} {key : SubChunkKey} {revision : ℕ} : isCurrent pending key revision=true ↔
      ∃ job, pending.lookup key=some job ∧ PendingJob.revision job=revision := by
  simp [isCurrent,Option.any_eq_true]

def currency : Currency where
  isCurrent := isCurrent pending
  unique := by
    intro key r r' h h'
    obtain ⟨job,hjob,rfl⟩ := isCurrent_iff.1 h
    obtain ⟨job',hjob',rfl⟩ := isCurrent_iff.1 h'
    rw [hjob] at hjob'
    cases hjob'
    rfl

def retainFirst (isLive : SubChunkKey → ℕ → Bool) :
    (seen : List SubChunkKey) → List ScanRecord → List ScanRecord
  | _, [] => []
  | seen, record::rest =>
    if isLive record.1 record.2 && record.1 ∉ seen then
      record::retainFirst isLive (record.1::seen) rest
    else retainFirst isLive seen rest

/-- Drops superseded and duplicate scan entries once they outnumber live work plus one poll of
ingress. -/
def compactSchedulerScan (scan : List ScanRecord) (liveLen : ℕ)
    (isLive : SubChunkKey → ℕ → Bool) : List ScanRecord :=
  if scan.length ≤ min (min (liveLen*2) usizeMax+maxPendingMeshQueueWorkPerPoll) usizeMax then
    scan
  else retainFirst isLive [] scan

namespace KeyedJobs

def new : KeyedJobs P V D L :=
  ⟨∅,[],[],fun _=>Lane.empty,SchedulerRefresh.new,RecheckQueue.empty⟩

section Enqueue

variable [Ord D]

def retireLane (key : SubChunkKey) (lane : Lane D) : Lane D :=
  { lane with
    ready := lane.ready.erase key
    deferred := lane.deferred.erase key
    rechecks := update lane.rechecks key none }

variable (jobs : KeyedJobs P V D L)

def retireLaneOwnership (key : SubChunkKey) : KeyedJobs P V D L :=
  { jobs with
    lanes := fun lane=>retireLane key (jobs.lanes lane)
    refresh := { jobs.refresh with
      previous := fun lane=>retireLane key (jobs.refresh.previous lane) } }

/-- Stores work whose caller owns its ready queue, without geometry scans or retries. -/
def enqueueUnrouted (key : SubChunkKey) (job : P) :
    KeyedJobs P V D L :=
  let retired := jobs.retireLaneOwnership key
  { retired with
    retries := retired.retries.remove key
    pending := retired.pending.insert key job }

omit [PendingJob P] [Ord D] in
def rescan (key : SubChunkKey) (revision : ℕ) (urgent : Bool) :
    KeyedJobs P V D L :=
  { jobs with
    scan := if urgent then (key,revision) :: jobs.scan else jobs.scan ++ [(key,revision)] }

/-- Startup dependencies enter ingress ahead of ordinary work but behind urgent records. -/
def enqueuePrioritized (key : SubChunkKey) (job : P)
    (startup : Bool) : KeyedJobs P V D L :=
  let retired := if (jobs.pending.lookup key).all fun previous =>
        PendingJob.revision previous≠PendingJob.revision job then
      jobs.retireLaneOwnership key
    else jobs
  let scanned := if startup && !PendingJob.urgent job then
      { retired with startupScan := retired.startupScan ++ [(key,PendingJob.revision job)] }
    else retired.rescan key (PendingJob.revision job) (PendingJob.urgent job)
  let rotated := if PendingJob.recheckDeferred P then
      { scanned with retries := scanned.retries.enqueue key (PendingJob.revision job) }
    else scanned
  { rotated with pending := rotated.pending.insert key job }

/-- Retires a job and drops obsolete ingress records when the last pending job leaves. -/
def removePending (key : SubChunkKey) :
    Option P × KeyedJobs P V D L :=
  let retired := { jobs with retries := jobs.retries.remove key }.retireLaneOwnership key
  let rest := retired.pending.erase key
  (jobs.pending.lookup key,
    { retired with
      pending := rest
      scan := if rest.keys.card=0 then [] else retired.scan
      startupScan := if rest.keys.card=0 then [] else retired.startupScan })

def clearLane (lane : Lane D) : Lane D :=
  { lane with ready := IndexedHeap.empty, deferred := IndexedHeap.empty, rechecks := fun _=>none }

def clearQueued : KeyedJobs P V D L :=
  { jobs with
    pending := ∅
    scan := []
    startupScan := []
    retries := jobs.retries.clear
    lanes := fun lane=>clearLane (jobs.lanes lane)
    refresh := { jobs.refresh with previous := fun lane=>clearLane (jobs.refresh.previous lane) } }

end Enqueue

variable [Ord D] [Camera V D]

/-- The loop of `wake_lane`; `index` counts its rounds. -/
def wakeLoop (isCurrent : SubChunkKey → ℕ → Bool) (view : SchedulerView V) (late : Clock) :
    (rounds index : ℕ) → (previous lane : Lane D) → Lane D × Lane D
  | 0, _, previous, lane => (previous,lane)
  | rounds+1, index, previous, lane =>
    if index≠0 && late index then (previous,lane)
    else match (previous.pop false).or (previous.pop true) with
      | none => (previous,lane)
      | some (candidate,popped) =>
        wakeLoop isCurrent view late rounds (index+1) popped (if isCurrent candidate.key candidate.revision then
            lane.push false (candidate.refreshRank view) else lane)

variable (jobs : KeyedJobs P V D L)

/-- Makes bounded work from an older lane generation available without refreshing other lanes. -/
def wakeLane (lane : Fin L) (view : SchedulerView V) (budget : ℕ)
    (late : Clock) : KeyedJobs P V D L :=
  let out := wakeLoop (isCurrent jobs.pending) view late
    (min budget maxPendingSchedulerScansPerPoll) 0 (jobs.refresh.previous lane) (jobs.lanes lane)
  { jobs with
    refresh := { jobs.refresh with previous := update jobs.refresh.previous lane out.1 }
    lanes := update jobs.lanes lane out.2 }

/-- Where a routed candidate goes: its lane, and `true` for ready.  The number of the call stands
for the state the closure keeps between calls. -/
abbrev Route (P : Type) (L : ℕ) := ℕ → SubChunkKey → ℕ → P → Fin L × Bool

structure Ingress (D : Type) (L : ℕ) where
  scan : List ScanRecord
  startupScan : List ScanRecord
  lanes : Fin L → Lane D

/-- Superseded heads go first so a live urgent record behind them is still seen. -/
def skipStale (pending : PendingMap P) (scan : List ScanRecord) : List ScanRecord :=
  scan.dropWhile fun record=>!isCurrent pending record.1 record.2

def takesScan (pending : PendingMap P) (scan startupScan : List ScanRecord) : Bool :=
  (scan.head?.any fun record=>(pending.lookup record.1).any fun job =>
    PendingJob.revision job=record.2 && PendingJob.urgent job) || startupScan.isEmpty

def nextRecord (pending : PendingMap P) (state : Ingress D L) :
    Option (ScanRecord × Ingress D L) :=
  let scan := skipStale pending state.scan
  if takesScan pending scan state.startupScan then
    match scan with
    | [] => none
    | record::rest => some (record,{ state with scan := rest })
  else
    match state.startupScan with
    | [] => none
    | record::rest => some (record,{ state with scan := scan, startupScan := rest })

/-- The scan loop of `ingress`: moves records into the lane `route` picks. -/
def ingressLoop (pending : PendingMap P) (view : SchedulerView V) (late : Clock)
    (route : Route P L) : (rounds index : ℕ) → (ingressed : Bool) → Ingress D L → Ingress D L
  | 0, _, _, state => state
  | rounds+1, index, ingressed, state =>
    if late index && (ingressed || maxPendingSchedulerScansPerPoll ≤ index) then state
    else match nextRecord pending state with
      | none => { state with scan := skipStale pending state.scan }
      | some ((key,revision),rest) =>
        match (pending.lookup key).filter fun job=>PendingJob.revision job=revision with
        | none => ingressLoop pending view late route rounds (index+1) ingressed rest
        | some job =>
          let candidate := PendingSchedulerCandidate.new key revision view (PendingJob.urgent job)
          let target := route index key revision job
          ingressLoop pending view late route rounds (index+1) true
            { rest with
              lanes := update rest.lanes target.1 ((rest.lanes target.1).push (!target.2) candidate) }

def settleLanes (isCurrent : SubChunkKey → ℕ → Bool) (late : Fin L → Clock) (startup : Bool) :
    List (Fin L) → (budget : ℕ) → (Fin L → Lane D) → Fin L → Lane D
  | [], _, lanes => lanes
  | lane::rest, budget, lanes =>
    let out := Lane.settle isCurrent (late lane) startup budget (lanes lane)
    settleLanes isCurrent late startup rest out.2 (update lanes lane out.1)

/-- Re-ranks queues for `view`, then moves bounded scan ingress into the lane `route` picks;
reports whether the view still needs direct local probes. -/
def ingress (view : SchedulerView V) (deadline : Deadline L)
    (route : Route P L) : Bool × KeyedJobs P V D L :=
  let current := isCurrent jobs.pending
  let refreshed := jobs.refresh.refresh view jobs.lanes deadline.refresh current
  let scan := compactSchedulerScan jobs.scan jobs.pending.keys.card current
  let startupScan := compactSchedulerScan jobs.startupScan jobs.pending.keys.card current
  let budget := min (scan.length+startupScan.length) maxPendingMeshQueueWorkPerPoll
  let out := ingressLoop jobs.pending view deadline.scan route budget 0 false ⟨scan,startupScan,refreshed.2.1⟩
  (refreshed.2.2,
    { jobs with
      scan := out.scan
      startupScan := out.startupScan
      refresh := refreshed.1
      lanes := settleLanes current deadline.lane view.startupCenter.isSome (List.finRange L)
        maxPendingSchedulerScansPerPoll out.lanes })

end KeyedJobs

end Cinnabar.Stream
