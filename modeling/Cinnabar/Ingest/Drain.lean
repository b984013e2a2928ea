import Cinnabar.Ingest.Ordered

/-! # Bounded ingress drains -/

namespace Cinnabar.Ingest

def worldEventCapacity : ℕ := 256
def outboundRequestCapacity : ℕ := 64

/-- Local identities that decide whether an event addresses the local player. -/
structure LaneContext where
  localRuntimeId : ℕ
  localUniqueId : ℤ
  dimension : ℤ

/-- What the stream tells world events `E` and level chunks `C` apart by. -/
structure Classes (E C : Type) where
  classify : E → LaneContext → Footprint
  createsRequest : E → Bool
  isReplyAdmission : E → Bool
  /-- `WorldEvent::LevelChunk` -/
  levelChunk : C → E

inductive WorldIngress (E C : Type) where
  | event (sessionGeneration sequence : ℕ) (event : E)
  | levelChunk (sessionGeneration sequence : ℕ) (event : C) (payload : List ℕ)
  | fastTransferBarrier (sessionGeneration sequence actionSequence : ℕ)

namespace WorldIngress

variable {E C : Type}

/-- Identifies the reservation associated with a retained world payload. -/
def sequence : WorldIngress E C → ℕ
  | .event _ sequence _ => sequence
  | .levelChunk _ sequence _ _ => sequence
  | .fastTransferBarrier _ sequence _ => sequence

def isFastTransferBarrier : WorldIngress E C → Bool
  | .fastTransferBarrier .. => true
  | _ => false

end WorldIngress

structure WorldStream (E S V O : Type) where
  order : OrderedCommitState S V O
  /-- `authority.retained_commit_count()` -/
  retainedCommits : ℕ
  deferredIngress : List (ℕ × E)
  /-- `requests.queue.len()` -/
  queuedRequests : ℕ
  laneContext : LaneContext

/-- Why a drain fails: the committer rejects a payload, or an assertion panics. -/
inductive DrainFault where
  | rejected (error : WorldStreamError)
  | panicked
deriving DecidableEq

section
variable {E C S V O : Type}

namespace WorldStream

variable (c : Classes E C) (stream : WorldStream E S V O)

/-- Keeps terrain and definitions in preparation order while session events may pass. -/
def defersPreparation (event : E)
    (footprint : Footprint) : Bool :=
  (footprint.heavy || footprint.barrier || c.isReplyAdmission event) && (!stream.deferredIngress.isEmpty ||
      (footprint.heavy && (stream.order.heavyCapacity=0 ||
        (c.createsRequest event && outboundRequestCapacity ≤ stream.queuedRequests))))

/-- Headroom for light events alone, independent of terrain admission. -/
def lightAdmissionCapacity : ℕ :=
  stream.order.lightCapacity stream.retainedCommits

def remainingAdmissionCapacity : ℕ :=
  stream.order.remainingAdmissionCapacity stream.retainedCommits

def canAdmitWithFootprint (event : E)
    (footprint : Footprint) : Bool :=
  if 0 < stream.remainingAdmissionCapacity then true
  else if footprint.heavy then
    if stream.defersPreparation c event footprint then 0 < stream.order.deferredCapacity
    else 0 < stream.order.heavyCapacity
  else 0 < stream.lightAdmissionCapacity

/-- Describes the dependencies used by both ingress lookahead and ordered commits. -/
def ingressFootprint (event : E) : Footprint :=
  c.classify event stream.laneContext

/-- Reports headroom for this event's lane, independently of unrelated full lanes. -/
def canAdmit (event : E) : Bool :=
  if 0 < stream.remainingAdmissionCapacity then true
  else stream.canAdmitWithFootprint c event (stream.ingressFootprint c event)

end WorldStream

def WorldIngress.worldEvent (c : Classes E C) : WorldIngress E C → Option E
  | .event _ _ world => some world
  | .levelChunk _ _ chunk _ => some (c.levelChunk chunk)
  | .fastTransferBarrier .. => none

/-- Checks the event's own admission lane without copying a chunk's payload buffer. -/
def admits (c : Classes E C) (ingress : WorldIngress E C) (stream : Option (WorldStream E S V O))
    (footprint : Option Footprint) : Bool :=
  stream.all fun stream =>
    match ingress.worldEvent c with
    | some event =>
      match footprint with
      | none => stream.canAdmit c event
      | some footprint => stream.canAdmitWithFootprint c event footprint
    | none => 0 < stream.lightAdmissionCapacity

/-- Allows light session events past retained terrain without reordering terrain preparation. -/
def bypassesTerrain (footprint : Footprint) : Bool :=
  !footprint.heavy && !footprint.barrier && !footprint.retention && footprint.columns = ∅

def footprintOf (c : Classes E C) (ingress : WorldIngress E C) (stream : WorldStream E S V O) :
    Footprint :=
  match ingress.worldEvent c with
  | some event => stream.ingressFootprint c event
  | none => .ofBarrier

def admitsRetained (c : Classes E C) (ingress : WorldIngress E C)
    (stream : Option (WorldStream E S V O)) (footprint : Option Footprint) :
    Except DrainFault Bool :=
  match stream, footprint with
  | some stream, some footprint =>
    if footprint.heavy then .ok (admits c ingress (some stream) (some footprint))
    else
      match stream.order.retainedIngressLightCapacity ingress.sequence stream.retainedCommits with
      | none => .error .panicked
      | some capacity => .ok (0 < capacity)
  | stream, footprint => .ok (admits c ingress stream footprint)

variable (stream : WorldStream E S V O)

/-- Reserves light credit before later packets may pass a retained payload. -/
def WorldStream.reserveIngressLight (sequence : ℕ) :
    Except DrainFault (Bool × WorldStream E S V O) :=
  match stream.order.reserveIngressLight sequence stream.retainedCommits with
  | none => .error .panicked
  | some out => .ok (out.1,{ stream with order := out.2 })

def WorldStream.retainIngress (sequence : ℕ)
    (footprint : Footprint) (capacity : ℕ) : Except DrainFault (Bool × WorldStream E S V O) :=
  match stream.order.retainIngress sequence footprint capacity stream.retainedCommits with
  | .error error => .error (.rejected error)
  | .ok none => .error .panicked
  | .ok (some out) => .ok (out.1,{ stream with order := out.2 })

def WorldStream.releaseIngress (sequence : ℕ) :
    Except DrainFault (WorldStream E S V O) :=
  match stream.order.releaseIngress sequence with
  | none => .error .panicked
  | some order => .ok { stream with order := order }

/-- What the pass over the retained payloads came to. -/
inductive Scanned (E C : Type) where
  /-- Nothing more this call. -/
  | blocked
  | found (ingress : WorldIngress E C)
  | exhausted

structure Drained (E C S V O : Type) where
  result : Option (WorldIngress E C)
  receiver : List (WorldIngress E C)
  pending : List (WorldIngress E C)
  stream : Option (WorldStream E S V O)

variable (ingress : WorldIngress E C)

/-- Without a stream nothing needs credit. -/
def reserveRetained :
    Option (WorldStream E S V O) → Except DrainFault (Bool × Option (WorldStream E S V O))
  | none => .ok (true,none)
  | some stream =>
    (stream.reserveIngressLight ingress.sequence).map fun out=>(out.1,some out.2)

def retainedFootprint :
    Option (WorldStream E S V O) → Except DrainFault (Option Footprint)
  | none => .ok none
  | some stream =>
    match stream.order.retainedIngressFootprint ingress.sequence with
    | none => .error .panicked
    | some footprint => .ok (some footprint)

def releaseRetained :
    Option (WorldStream E S V O) → Except DrainFault (Option (WorldStream E S V O))
  | none => .ok none
  | some stream => (stream.releaseIngress ingress.sequence).map some

/-- Only light session events are admitted past the first retained payload. -/
def admitsAt (c : Classes E C) (index : ℕ) (ingress : WorldIngress E C)
    (stream : Option (WorldStream E S V O)) (footprint : Option Footprint) :
    Except DrainFault Bool :=
  if index=0 || footprint.all bypassesTerrain then admitsRetained c ingress stream footprint
  else .ok false

/-- `for index in 0..pending.len()`: `passed` holds the payloads before the index, and reading
`calls + index` of the clock comes next. -/
def scanRetained (c : Classes E C) (deadline : ℕ) (now : ℕ → ℕ) (calls : ℕ) :
    List (WorldIngress E C) → List (WorldIngress E C) → Option (WorldStream E S V O) → Except DrainFault
        (Scanned E C × List (WorldIngress E C) × Option (WorldStream E S V O))
  | passed, [], stream => .ok (.exhausted,passed,stream)
  | passed, ingress::rest, stream =>
    if deadline≤now (calls+passed.length) then .ok (.blocked,passed++ingress::rest,stream)
    else do
      let (reserved,stream) ← reserveRetained ingress stream
      if !reserved then .ok (.blocked,passed++ingress::rest,stream)
      else
        let footprint ← retainedFootprint ingress stream
        let isBarrier := ingress.isFastTransferBarrier || footprint.any (·.barrier)
        if 0<passed.length && isBarrier then .ok (.blocked,passed++ingress::rest,stream)
        else
          let admitted ← admitsAt c passed.length ingress stream footprint
          if admitted then
            let stream ← releaseRetained ingress stream
            .ok (.found ingress,passed++rest,stream)
          else if isBarrier then .ok (.blocked,passed++ingress::rest,stream)
          else scanRetained c deadline now calls (passed ++ [ingress]) rest stream

/-- `while pending.len() < WORLD_EVENT_CAPACITY` -/
def receiveIngress (c : Classes E C) (deadline : ℕ) (now : ℕ → ℕ) :
    ℕ → List (WorldIngress E C) → List (WorldIngress E C) → Option (WorldStream E S V O) →
      Except DrainFault (Drained E C S V O)
  | calls, receiver, pending, stream =>
    if pending.length<worldEventCapacity then
      if deadline≤now calls then .ok ⟨none,receiver,pending,stream⟩
      else
        match receiver with
        | [] => .ok ⟨none,[],pending,stream⟩
        | ingress::receiver =>
          if pending.isEmpty && admits c ingress stream none then
            .ok ⟨some ingress,receiver,pending,stream⟩
          else
            match stream with
            | none => .error .panicked
            | some stream =>
              let footprint := footprintOf c ingress stream
              if bypassesTerrain footprint && admits c ingress (some stream) (some footprint) then
                .ok ⟨some ingress,receiver,pending,some stream⟩
              else do
                let (hasCredit,stream) ← stream.retainIngress ingress.sequence footprint worldEventCapacity
                if footprint.barrier || !hasCredit then
                  .ok ⟨none,receiver,pending ++ [ingress],some stream⟩
                else
                  receiveIngress c deadline now (calls+1) receiver (pending ++ [ingress]) (some stream)
    else .ok ⟨none,receiver,pending,stream⟩

/-- A frame's drain: its deadline, and whether a transfer marker ended it. -/
structure WorldIngressDrain where
  deadline : ℕ
  stopped : Bool := false

namespace WorldIngressDrain

def admitted (drain : WorldIngressDrain) (ingress : WorldIngress E C) : WorldIngressDrain :=
  { drain with stopped := ingress.isFastTransferBarrier }

/-- Returns the next event with lane capacity, retaining blocked payloads across frames. -/
def next (c : Classes E C) (drain : WorldIngressDrain) (receiver pending : List (WorldIngress E C))
    (stream : Option (WorldStream E S V O)) (now : ℕ → ℕ) :
    Except DrainFault (Drained E C S V O × WorldIngressDrain) :=
  if drain.stopped || drain.deadline≤now 0 then .ok (⟨none,receiver,pending,stream⟩,drain)
  else do
    let (scanned,retained,stream) ← scanRetained c drain.deadline now 1 [] pending stream
    match scanned with
    | .blocked => .ok (⟨none,receiver,retained,stream⟩,drain)
    | .found ingress => .ok (⟨some ingress,receiver,retained,stream⟩,drain.admitted ingress)
    | .exhausted =>
      let out ← receiveIngress c drain.deadline now (1+pending.length) receiver retained stream
      .ok (out,match out.result with
        | some ingress => drain.admitted ingress
        | none => drain)

end WorldIngressDrain

end

end Cinnabar.Ingest
