import Cinnabar.Library.Entries
import Cinnabar.Keys

/-! # Publication permits

A frame grants operations and bytes; credit for payload accumulates up to a burst.
-/

namespace Cinnabar.Publication

abbrev u64Max : ℕ := usizeMax

/-- The limits that admissions read. -/
structure PublicationServiceConfig where
  maximumFrameItems : ℕ
  maximumFrameBytes : ℕ
  maximumBurstItems : ℕ
  maximumBurstBytes : ℕ
  maximumZeroByteOperationsPerFrame : ℕ
  urgentZeroByteReserve : ℕ
deriving DecidableEq

inductive PublicationPermitStage where
  | meshReady
  | handoff
  | renderEntity
  | gpuPrepared
deriving DecidableEq

def PublicationPermitStage.next : PublicationPermitStage → Option PublicationPermitStage
  | .meshReady => some .handoff
  | .handoff => some .renderEntity
  | .renderEntity => some .gpuPrepared
  | .gpuPrepared => none

inductive PublicationPermitClass where
  | payload (bytes : ℕ)
  | zeroByte
deriving DecidableEq

namespace PublicationPermitClass

def items : PublicationPermitClass → ℕ
  | payload _ => 1
  | zeroByte => 0

def bytes : PublicationPermitClass → ℕ
  | payload bytes => bytes
  | zeroByte => 0

def zeroByteOperations : PublicationPermitClass → ℕ
  | payload _ => 0
  | zeroByte => 1

end PublicationPermitClass

structure LivePermit where
  stage : PublicationPermitStage
  cls : PublicationPermitClass
deriving DecidableEq

/-- What a frame grants and admissions spend. -/
structure Credits where
  remainingItems : ℕ
  remainingBytes : ℕ
  frameRemainingOperations : ℕ
  frameRemainingBytes : ℕ
  remainingZeroByteOperations : ℕ
deriving DecidableEq

structure PublicationAllowanceState where
  config : PublicationServiceConfig
  frameSequence : ℕ
  nextPermitId : ℕ
  credits : Credits
  livePayloadItems : ℕ
  livePayloadBytes : ℕ
  liveZeroByteOperations : ℕ
  live : Entries ℕ LivePermit

structure PublicationPermit where
  id : ℕ
  active : Bool
deriving DecidableEq

namespace PublicationAllowanceState

def new (config : PublicationServiceConfig) : PublicationAllowanceState :=
  ⟨config,0,0,⟨0,0,0,0,0⟩,0,0,0,Entries.empty⟩

/-- A later frame grants its operations; `none` refuses one that is not later. -/
def beginFrame (frameSequence issuedItems issuedBytes issuedZeroByteOperations frameItemLimit : ℕ)
    (state : PublicationAllowanceState) : Option PublicationAllowanceState :=
  if frameSequence ≤ state.frameSequence then none
  else
    let remainingItems := min ((checkedAddUsize state.credits.remainingItems issuedItems).getD
      state.config.maximumBurstItems) state.config.maximumBurstItems
    let remainingBytes := min ((checkedAddUsize state.credits.remainingBytes issuedBytes).getD
      state.config.maximumBurstBytes) state.config.maximumBurstBytes
    some { state with
      frameSequence
      credits :=
        { remainingItems
          remainingBytes
          frameRemainingOperations := min state.config.maximumFrameItems frameItemLimit
          frameRemainingBytes := min remainingBytes state.config.maximumFrameBytes
          remainingZeroByteOperations :=
            min issuedZeroByteOperations state.config.maximumZeroByteOperationsPerFrame } }

def nextId (state : PublicationAllowanceState) : ℕ :=
  max ((checkedAddUsize state.nextPermitId 1).getD 1) 1

/-- Records an admitted permit and charges its live counts; no permit comes of it when the assertion
that its identity is new fails, which leaves the replaced record behind. -/
def insertPermit (cls : PublicationPermitClass) (state : PublicationAllowanceState) :
    PublicationAllowanceState × Option PublicationPermit :=
  let id := state.nextId
  let inserted := { state with nextPermitId := id, live := state.live.insert id ⟨.meshReady,cls⟩ }
  if (state.live.find id).isSome then (inserted,none)
  else
    ({ inserted with
      livePayloadItems := state.livePayloadItems+cls.items
      livePayloadBytes := state.livePayloadBytes+cls.bytes
      liveZeroByteOperations := state.liveZeroByteOperations+cls.zeroByteOperations },
      some ⟨id,true⟩)

/-- Admits payload within the credit, the frame and the live capacity. -/
def tryAdmitPayload (bytes : ℕ) (state : PublicationAllowanceState) :
    Option (PublicationAllowanceState × Option PublicationPermit) :=
  if bytes=0 then none
  else if state.credits.remainingItems=0 ∨ state.credits.frameRemainingOperations=0 ∨
      state.credits.remainingBytes<bytes ∨ state.credits.frameRemainingBytes<bytes ∨
      state.config.maximumFrameItems ≤ state.livePayloadItems ∨
      (checkedAddUsize state.livePayloadBytes bytes).all (state.config.maximumFrameBytes < ·) then none
  else
    some ({ state with
      credits := { state.credits with
        remainingItems := state.credits.remainingItems-1
        remainingBytes := state.credits.remainingBytes-bytes
        frameRemainingOperations := state.credits.frameRemainingOperations-1
        frameRemainingBytes := state.credits.frameRemainingBytes-bytes } }.insertPermit (.payload bytes))

variable (urgent : Bool)

def liveLimit (state : PublicationAllowanceState) : ℕ :=
  min (state.config.maximumZeroByteOperationsPerFrame+urgent.toNat*state.config.urgentZeroByteReserve) usizeMax

def tryAdmitZeroByteWithPriority (state : PublicationAllowanceState) :
    Option (PublicationAllowanceState × Option PublicationPermit) :=
  if state.credits.remainingZeroByteOperations=0 ∨ state.credits.frameRemainingOperations=0 ∨
      state.liveLimit urgent ≤ state.liveZeroByteOperations then none
  else
    some ({ state with
      credits := { state.credits with
        frameRemainingOperations := state.credits.frameRemainingOperations-1
        remainingZeroByteOperations := state.credits.remainingZeroByteOperations-1 } }.insertPermit
      .zeroByte)

def zeroByteAdmissionCapacityWithPriority (state : PublicationAllowanceState) : ℕ :=
  min (min state.credits.remainingZeroByteOperations state.credits.frameRemainingOperations)
    (state.liveLimit urgent-state.liveZeroByteOperations)

def transfer (permit : PublicationPermit) (expected next : PublicationPermitStage)
    (state : PublicationAllowanceState) :
    Except PublicationPermit PublicationAllowanceState :=
  match state.live.find permit.id with
  | none => .error { permit with active := false }
  | some live =>
    if live.stage≠expected then .error permit
    else .ok { state with live := state.live.insert permit.id { live with stage := next } }

/-- Charges growth to an admitted payload permit and moves it to its last stage. -/
def intoGpuPreparedWithAdditionalBytes (permit : PublicationPermit) (additionalBytes : ℕ)
    (state : PublicationAllowanceState) : Except PublicationPermit PublicationAllowanceState :=
  match state.live.find permit.id with
  | none => .error { permit with active := false }
  | some live =>
    if live.stage ≠ .renderEntity then .error permit
    else if additionalBytes=0 then
      .ok { state with live := state.live.insert permit.id { live with stage := .gpuPrepared } }
    else
      match live.cls with
      | .zeroByte => .error permit
      | .payload bytes =>
        if state.credits.remainingBytes<additionalBytes ∨ state.credits.frameRemainingBytes<additionalBytes ∨
            (checkedAddUsize state.livePayloadBytes additionalBytes).all
              (state.config.maximumFrameBytes < ·) then .error permit
        else
          match checkedAddUsize bytes additionalBytes with
          | none => .error permit
          | some nextBytes =>
            .ok { state with
              credits := { state.credits with
                remainingBytes := state.credits.remainingBytes-additionalBytes
                frameRemainingBytes := state.credits.frameRemainingBytes-additionalBytes }
              livePayloadBytes := state.livePayloadBytes+additionalBytes
              live := state.live.insert permit.id ⟨.gpuPrepared,.payload nextBytes⟩ }

def removeLivePermit (id : ℕ) (state : PublicationAllowanceState) : Bool × PublicationAllowanceState :=
  match state.live.find id with
  | none => (false,state)
  | some permit =>
    (true,{ state with
      live := state.live.erase id
      livePayloadItems := state.livePayloadItems-permit.cls.items
      livePayloadBytes := state.livePayloadBytes-permit.cls.bytes
      liveZeroByteOperations := state.liveZeroByteOperations-permit.cls.zeroByteOperations })

end PublicationAllowanceState

inductive Event where
  | admitted (permit : ℕ)
  | moved (permit : ℕ) (stage : PublicationPermitStage)
  | left (permit : ℕ)

/-- The allowance and the permits held, by the order of their admission. -/
structure System where
  state : PublicationAllowanceState
  permits : Entries ℕ PublicationPermit
  /-- Admissions so far. -/
  admitted : ℕ
  /-- Whether an admission found its identity live. -/
  collided : Bool
  log : List Event

inductive Operation where
  | beginFrame (frameSequence issuedItems issuedBytes issuedZeroByteOperations frameItemLimit : ℕ)
  | tryAdmitPayload (bytes : ℕ)
  | tryAdmitZeroByte (urgent : Bool)
  | intoHandoff (permit : ℕ)
  | intoRenderEntity (permit : ℕ)
  | intoGpuPrepared (permit additionalBytes : ℕ)
  | retire (permit : ℕ)
  | drop (permit : ℕ)

namespace System

def new (config : PublicationServiceConfig) : System :=
  ⟨.new config,Entries.empty,0,false,[]⟩

variable (system : System)

/-- A system after an admission; a refused one leaves it. -/
def enter :
    Option (PublicationAllowanceState × Option PublicationPermit) → System
  | none => system
  | some (state,none) => { system with state, admitted := system.admitted+1, collided := true }
  | some (state,some permit) =>
    { system with
      state
      permits := system.permits.insert system.admitted permit
      admitted := system.admitted+1
      log := system.log ++ [.admitted system.admitted] }

def move (permit : ℕ) (held : PublicationPermit) (stage : PublicationPermitStage) :
    Except PublicationPermit PublicationAllowanceState → System
  | .error back =>
    if back=held then system else { system with permits := system.permits.insert permit back }
  | .ok state => { system with state, log := system.log ++ [.moved permit stage] }

def leave (permit : ℕ) (held : PublicationPermit) : System :=
  match system.state.removeLivePermit held.id with
  | (false,state) => { system with state, permits := system.permits.erase permit }
  | (true,state) =>
    { system with
      state
      permits := system.permits.erase permit
      log := system.log ++ [.left permit] }

/-- What an owner does with a permit; a permit nobody holds cannot be used. -/
def own (permit : ℕ) (use : PublicationPermit → System) : System :=
  match system.permits.find permit with
  | none => system
  | some held => use held

def step : Operation → System
  | .beginFrame frameSequence items bytes zeroByteOperations frameItemLimit =>
    { system with
      state := (system.state.beginFrame frameSequence items bytes zeroByteOperations frameItemLimit).getD system.state }
  | .tryAdmitPayload bytes => system.enter (system.state.tryAdmitPayload bytes)
  | .tryAdmitZeroByte urgent => system.enter (system.state.tryAdmitZeroByteWithPriority urgent)
  | .intoHandoff permit => system.own permit fun held =>
    system.move permit held .handoff (system.state.transfer held .meshReady .handoff)
  | .intoRenderEntity permit => system.own permit fun held =>
    system.move permit held .renderEntity (system.state.transfer held .handoff .renderEntity)
  | .intoGpuPrepared permit additionalBytes => system.own permit fun held =>
    system.move permit held .gpuPrepared (system.state.intoGpuPreparedWithAdditionalBytes held additionalBytes)
  | .retire permit => system.own permit (system.leave permit)
  | .drop permit => system.own permit fun held =>
    if held.active then system.leave permit held
    else { system with permits := system.permits.erase permit }

def run (operations : List Operation) : System := operations.foldl step system

end System

def Credits.plus (a b : Credits) : Credits :=
  ⟨a.remainingItems+b.remainingItems,a.remainingBytes+b.remainingBytes,
    a.frameRemainingOperations+b.frameRemainingOperations,
    a.frameRemainingBytes+b.frameRemainingBytes,
    a.remainingZeroByteOperations+b.remainingZeroByteOperations⟩

structure Counted (state : PublicationAllowanceState) : Prop where
  items : state.livePayloadItems=state.live.weight fun permit=>permit.cls.items
  bytes : state.livePayloadBytes=state.live.weight fun permit=>permit.cls.bytes
  zeroByteOperations : state.liveZeroByteOperations=state.live.weight fun permit=>permit.cls.zeroByteOperations

/-- Live permits are within the frame's limits, and unspent credit within the burst. -/
structure Bounded (state : PublicationAllowanceState) : Prop where
  items : state.livePayloadItems ≤ state.config.maximumFrameItems
  bytes : state.livePayloadBytes ≤ state.config.maximumFrameBytes
  zeroByteOperations : state.liveZeroByteOperations ≤
    state.config.maximumZeroByteOperationsPerFrame+state.config.urgentZeroByteReserve
  burstItems : state.credits.remainingItems ≤ state.config.maximumBurstItems
  burstBytes : state.credits.remainingBytes ≤ state.config.maximumBurstBytes

namespace PublicationAllowanceState

variable {state after : PublicationAllowanceState} {permit : PublicationPermit}
  {live : LivePermit} {id : ℕ}

def charged (state : PublicationAllowanceState) (cls : PublicationPermitClass) :
    PublicationAllowanceState :=
  { state with
    nextPermitId := state.nextId
    livePayloadItems := state.livePayloadItems+cls.items
    livePayloadBytes := state.livePayloadBytes+cls.bytes
    liveZeroByteOperations := state.liveZeroByteOperations+cls.zeroByteOperations
    live := state.live.insert state.nextId ⟨.meshReady,cls⟩ }

lemma insertPermit_spec (cls : PublicationPermitClass) (state : PublicationAllowanceState) :
    (state.live.find state.nextId=none ∧ state.insertPermit cls = (state.charged cls,some ⟨state.nextId,true⟩)) ∨
    ((state.live.find state.nextId).isSome=true ∧ state.insertPermit cls =
      ({ state with
        nextPermitId := state.nextId
        live := state.live.insert state.nextId ⟨.meshReady,cls⟩ },none)) := by
  unfold insertPermit
  dsimp only
  cases hfind : state.live.find state.nextId with
  | none => exact .inl ⟨rfl,rfl⟩
  | some live => exact .inr ⟨rfl,rfl⟩

/-- An admission debits its cost and charges its live counts, within the limits. -/
structure Admits (state : PublicationAllowanceState) (cls : PublicationPermitClass) (cost : Credits)
    (before : PublicationAllowanceState) : Prop where
  spent : before = { state with credits := before.credits }
  cost : before.credits.plus cost=state.credits
  items : state.livePayloadItems+cls.items ≤ max state.livePayloadItems state.config.maximumFrameItems
  bytes : state.livePayloadBytes+cls.bytes ≤ max state.livePayloadBytes state.config.maximumFrameBytes
  zeroByteOperations : state.liveZeroByteOperations+cls.zeroByteOperations ≤ max state.liveZeroByteOperations
      (state.config.maximumZeroByteOperationsPerFrame+state.config.urgentZeroByteReserve)

lemma checkedAddUsize_all {a b limit : ℕ} (h : ¬((checkedAddUsize a b).all (limit < ·)) = true) : a+b≤limit := by
  unfold checkedAddUsize at h
  split at h
  · simpa using h
  · exact absurd rfl h

variable {result : PublicationAllowanceState × Option PublicationPermit}

lemma tryAdmitPayload_spec {bytes : ℕ} (h : state.tryAdmitPayload bytes=some result) :
    ∃ before, state.Admits (.payload bytes) ⟨1,bytes,1,bytes,0⟩ before ∧
      result=before.insertPermit (.payload bytes) := by
  unfold tryAdmitPayload at h
  split at h
  · cases h
  split at h
  · cases h
  rename_i hallowed
  simp only [not_or] at hallowed
  obtain ⟨hitems,hoperations,hbytes,hframe,hlive,htotal⟩ := hallowed
  have htotal := checkedAddUsize_all htotal
  cases h
  refine ⟨_,⟨rfl,?_,?_,?_,?_⟩,rfl⟩
  · unfold Credits.plus
    rw [Nat.sub_add_cancel (by omega),Nat.sub_add_cancel (by omega),Nat.sub_add_cancel (by omega),
      Nat.sub_add_cancel (by omega),Nat.add_zero]
  · change state.livePayloadItems+1≤_
    omega
  · change state.livePayloadBytes+bytes≤_
    omega
  · exact le_max_left _ _

lemma tryAdmitZeroByte_spec {urgent : Bool} (h : state.tryAdmitZeroByteWithPriority urgent=some result) :
    ∃ before, state.Admits .zeroByte ⟨0,0,1,0,1⟩ before ∧
      result=before.insertPermit .zeroByte := by
  unfold tryAdmitZeroByteWithPriority at h
  split at h
  · cases h
  rename_i hallowed
  simp only [not_or] at hallowed
  obtain ⟨hzero,hoperations,hlimit⟩ := hallowed
  cases h
  refine ⟨_,⟨rfl,?_,le_max_left _ _,le_max_left _ _,?_⟩,rfl⟩
  · unfold Credits.plus
    rw [Nat.sub_add_cancel (by omega),Nat.sub_add_cancel (by omega),Nat.add_zero,Nat.add_zero, Nat.add_zero]
  · unfold liveLimit at hlimit
    change state.liveZeroByteOperations+1≤_
    cases urgent
    · simp only [Bool.toNat_false,Nat.zero_mul] at hlimit
      omega
    · simp only [Bool.toNat_true,Nat.one_mul] at hlimit
      omega

variable {before : PublicationAllowanceState} {cls : PublicationPermitClass}

lemma Admits.counted {cost : Credits} (h : state.Admits cls cost before) (hcounted : Counted state)
    (hnew : before.live.find before.nextId=none) : Counted (before.charged cls) := by
  rw [h.spent] at hnew ⊢
  have hweight (w : LivePermit → ℕ) : (state.live.insert state.nextId ⟨.meshReady,cls⟩).weight w =
      state.live.weight w+w ⟨.meshReady,cls⟩ := by
    have hadd : (state.live.insert state.nextId ⟨.meshReady,cls⟩).weight w +
      (state.live.find state.nextId).elim 0 w=_ := Entries.weight_insert_add
    rw [show state.live.find state.nextId=none from hnew] at hadd
    exact hadd
  refine ⟨?_,?_,?_⟩
  · exact (congrArg (· + cls.items) hcounted.items).trans (hweight _).symm
  · exact (congrArg (· + cls.bytes) hcounted.bytes).trans (hweight _).symm
  · exact (congrArg (· + cls.zeroByteOperations) hcounted.zeroByteOperations).trans (hweight _).symm

lemma Admits.bounded {cost : Credits} (h : state.Admits cls cost before) (hbounded : Bounded state) :
    Bounded (before.charged cls) := by
  have hcost := h.cost
  rw [h.spent]
  refine ⟨?_,?_,?_,?_,?_⟩
  · exact h.items.trans (max_le hbounded.items le_rfl)
  · exact h.bytes.trans (max_le hbounded.bytes le_rfl)
  · exact h.zeroByteOperations.trans (max_le hbounded.zeroByteOperations le_rfl)
  · exact (congrArg Credits.remainingItems hcost ▸ Nat.le_add_right _ _ :
      before.credits.remainingItems ≤ state.credits.remainingItems).trans hbounded.burstItems
  · exact (congrArg Credits.remainingBytes hcost ▸ Nat.le_add_right _ _ :
      before.credits.remainingBytes ≤ state.credits.remainingBytes).trans hbounded.burstBytes

lemma beginFrame_spec {frameSequence items bytes zeroByteOperations frameItemLimit : ℕ}
    (h : state.beginFrame frameSequence items bytes zeroByteOperations frameItemLimit=some after) :
    state.frameSequence<frameSequence ∧ after = { state with frameSequence, credits := after.credits } ∧
      after.credits.remainingItems ≤ state.config.maximumBurstItems ∧
      after.credits.remainingBytes ≤ state.config.maximumBurstBytes := by
  unfold beginFrame at h
  split at h
  · cases h
  · rename_i hlater
    cases h
    exact ⟨not_le.1 hlater,rfl,min_le_right _ _,min_le_right _ _⟩

structure Moves (state : PublicationAllowanceState) (id : ℕ) (live : LivePermit)
    (stage : PublicationPermitStage) (growth : ℕ) (after : PublicationAllowanceState) : Prop where
  record : ∃ cls, after = { state with
    credits := after.credits
    livePayloadBytes := state.livePayloadBytes+growth
    live := state.live.insert id ⟨stage,cls⟩ } ∧ cls.items=live.cls.items ∧
      cls.bytes=live.cls.bytes+growth ∧ cls.zeroByteOperations=live.cls.zeroByteOperations
  cost : after.credits.plus ⟨0,growth,0,growth,0⟩ = state.credits
  bytes : growth=0 ∨ state.livePayloadBytes+growth ≤ state.config.maximumFrameBytes

lemma Moves.plain (state : PublicationAllowanceState) (id : ℕ) (live : LivePermit) (stage : PublicationPermitStage) :
    state.Moves id live stage 0 { state with live := state.live.insert id { live with stage := stage } } where
  record := ⟨live.cls,rfl,rfl,rfl,rfl⟩
  cost := rfl
  bytes := .inl rfl

lemma transfer_spec {expected next : PublicationPermitStage} (hfind : state.live.find permit.id=some live) :
    (∃ held, state.transfer permit expected next = .error held ∧ held=permit) ∨
      (live.stage=expected ∧ ∃ after, state.transfer permit expected next = .ok after ∧
        state.Moves permit.id live next 0 after) := by
  unfold transfer
  rw [hfind]
  by_cases hstage : live.stage=expected
  · exact .inr ⟨hstage,_,if_neg (not_not.2 hstage),.plain _ _ _ _⟩
  · exact .inl ⟨permit,if_pos hstage,rfl⟩

lemma intoGpuPrepared_spec {additionalBytes : ℕ} (hfind : state.live.find permit.id=some live) :
    (∃ held, state.intoGpuPreparedWithAdditionalBytes permit additionalBytes = .error held ∧ held=permit) ∨
      (live.stage = .renderEntity ∧ ∃ after,
        state.intoGpuPreparedWithAdditionalBytes permit additionalBytes = .ok after ∧
          state.Moves permit.id live .gpuPrepared additionalBytes after) := by
  unfold intoGpuPreparedWithAdditionalBytes
  rw [hfind]
  dsimp only
  by_cases hstage : live.stage = .renderEntity
  · rw [if_neg (not_not.2 hstage)]
    by_cases hzero : additionalBytes=0
    · rw [if_pos hzero,hzero]
      exact .inr ⟨hstage,_,rfl,.plain _ _ _ _⟩
    · rw [if_neg hzero]
      obtain ⟨stage,cls⟩ := live
      cases cls with
      | zeroByte => exact .inl ⟨permit,rfl,rfl⟩
      | payload bytes =>
        dsimp only
        split
        · exact .inl ⟨permit,rfl,rfl⟩
        · rename_i hallowed
          simp only [not_or] at hallowed
          obtain ⟨hbytes,hframe,htotal⟩ := hallowed
          have htotal := checkedAddUsize_all htotal
          cases hnext : checkedAddUsize bytes additionalBytes with
          | none => exact .inl ⟨permit,rfl,rfl⟩
          | some nextBytes =>
            have hsum : nextBytes=bytes+additionalBytes := by
              unfold checkedAddUsize at hnext
              split at hnext
              · exact (Option.some.inj hnext).symm
              · cases hnext
            refine .inr ⟨hstage,_,rfl,⟨.payload nextBytes,rfl,rfl,hsum,rfl⟩,?_,.inr htotal⟩
            unfold Credits.plus
            rw [Nat.sub_add_cancel (by omega),Nat.sub_add_cancel (by omega),Nat.add_zero,Nat.add_zero, Nat.add_zero]
  · rw [if_pos hstage]
    exact .inl ⟨permit,rfl,rfl⟩

variable {stage : PublicationPermitStage}

lemma Moves.counted {growth : ℕ} (hcounted : Counted state)
    (hfind : state.live.find id=some live) (h : state.Moves id live stage growth after) :
    Counted after := by
  obtain ⟨cls,heq,hitems,hbytes,hzero⟩ := h.record
  rw [heq]
  have hweight (w : LivePermit → ℕ) : (state.live.insert id ⟨stage,cls⟩).weight w+w live =
      state.live.weight w+w ⟨stage,cls⟩ := by
    have hadd : (state.live.insert id ⟨stage,cls⟩).weight w + (state.live.find id).elim 0 w=_ :=
      Entries.weight_insert_add
    rw [hfind] at hadd
    exact hadd
  have hcountedItems := hcounted.items
  have hcountedBytes := hcounted.bytes
  have hcountedZero := hcounted.zeroByteOperations
  refine ⟨?_,?_,?_⟩
  · have := hweight fun permit=>permit.cls.items
    dsimp only at this ⊢
    omega
  · have := hweight fun permit=>permit.cls.bytes
    dsimp only at this ⊢
    omega
  · have := hweight fun permit=>permit.cls.zeroByteOperations
    dsimp only at this ⊢
    omega

lemma Moves.bounded {growth : ℕ} (hbounded : Bounded state)
    (h : state.Moves id live stage growth after) : Bounded after := by
  obtain ⟨cls,heq,-⟩ := h.record
  have hcost := h.cost
  have hbytes : state.livePayloadBytes+growth ≤ state.config.maximumFrameBytes := by
    rcases h.bytes with hzero | hle
    · rw [hzero]
      exact hbounded.bytes
    · exact hle
  rw [heq]
  refine ⟨hbounded.items,hbytes,hbounded.zeroByteOperations,?_,?_⟩
  · exact (congrArg Credits.remainingItems hcost ▸ Nat.le_add_right _ _ :
      after.credits.remainingItems ≤ state.credits.remainingItems).trans hbounded.burstItems
  · exact (congrArg Credits.remainingBytes hcost ▸ Nat.le_add_right _ _ :
      after.credits.remainingBytes ≤ state.credits.remainingBytes).trans hbounded.burstBytes

lemma removeLivePermit_spec (hfind : state.live.find id=some live) :
    state.removeLivePermit id = (true,{ state with
      live := state.live.erase id
      livePayloadItems := state.livePayloadItems-live.cls.items
      livePayloadBytes := state.livePayloadBytes-live.cls.bytes
      liveZeroByteOperations := state.liveZeroByteOperations-live.cls.zeroByteOperations }) := by
  unfold removeLivePermit
  rw [hfind]

lemma removeLivePermit_counted (hcounted : Counted state) (hfind : state.live.find id=some live) :
    Counted (state.removeLivePermit id).2 := by
  rw [removeLivePermit_spec hfind]
  have hweight (w : LivePermit → ℕ) : (state.live.erase id).weight w+w live=state.live.weight w := by
    have hadd : (state.live.erase id).weight w + (state.live.find id).elim 0 w=_ := Entries.weight_erase
    rw [hfind] at hadd
    exact hadd
  have hcountedItems := hcounted.items
  have hcountedBytes := hcounted.bytes
  have hcountedZero := hcounted.zeroByteOperations
  refine ⟨?_,?_,?_⟩
  · have := hweight fun permit=>permit.cls.items
    dsimp only at this ⊢
    omega
  · have := hweight fun permit=>permit.cls.bytes
    dsimp only at this ⊢
    omega
  · have := hweight fun permit=>permit.cls.zeroByteOperations
    dsimp only at this ⊢
    omega

lemma removeLivePermit_bounded (hbounded : Bounded state) (id : ℕ) : Bounded (state.removeLivePermit id).2 := by
  unfold removeLivePermit
  cases state.live.find id with
  | none => exact hbounded
  | some live =>
    exact ⟨(Nat.sub_le _ _).trans hbounded.items,(Nat.sub_le _ _).trans hbounded.bytes,
      (Nat.sub_le _ _).trans hbounded.zeroByteOperations,hbounded.burstItems,hbounded.burstBytes⟩

end PublicationAllowanceState

end Cinnabar.Publication
