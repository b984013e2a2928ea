import Cinnabar.SessionWire.Splitting

/-! # Frames of a session -/

namespace Cinnabar.SessionWire

open List

variable {T D K E : Type}

/-- The last message of a session. -/
inductive Terminal (T D : Type) where
  | transfer (transfer : T)
  | disconnect (disconnect : D)

/-- What a session fails with, `E` where a batch does not decode. -/
inductive SessionFailure (E : Type) where
  | connectionClosed
  | transport (error : BridgeError)
  | batch (error : E)

inductive Inbound (T D K : Type) where
  | packet (packet : K)
  | terminal (terminal : Terminal T D)

abbrev Outcome (T D K E : Type) : Type := Except (SessionFailure E) (Inbound T D K)

/-- A reader item: a frame, a failure or the close, with what the relay makes of its batch. -/
structure Item where
  next : Option (Except BridgeError Bytes)
  replaced : Option Bytes

structure SessionTransport (K : Type) where
  reader : List Item
  preferInjected : Bool
  startup : List (Bytes × Option Bytes)
  received : List K
  ahead : List Item
  aheadBytes : ℕ
  ended : Bool

inductive Turn (T D K E : Type) where
  | pending
  | again
  | injected (packets : List K)
  | returns (outcome : Outcome T D K E)

def batchFrameBody : Bytes → Option Bytes
  | [] => none
  | kind::body => if kind=kindBatch then some body else none

def Item.bytes (item : Item) : ℕ :=
  match item.next with
  | some (.ok frame) => frame.length
  | _ => 0

def endsSession (item : Item) : Bool :=
  match item.next with
  | some (.ok frame) => (batchFrameBody frame).isNone
  | _ => true

namespace SessionTransport

variable {M : Type} (json : Json M T D) (split : Bytes → Except E (List K))

/-- Continues a handed-off session; `replaced` is what the relay makes of each startup batch. -/
def withTimers (reader : List Item) (startup : List Bytes) (replaced : Bytes → Option Bytes) :
    SessionTransport K :=
  ⟨reader,false,(startupBatches startup).map fun batch=>(batch,replaced batch),[],[],0,false⟩

def relayed (body : Bytes) : List K :=
  match split body with
  | .ok packets => packets
  | .error _ => []

def receiveServerBatch (s : SessionTransport K) (body : Bytes) (replaced : Option Bytes) :
    SessionTransport K × Turn T D K E :=
  match replaced with
  | some replaced => ({ s with received := s.received++relayed split replaced },.again)
  | none =>
    match split body with
    | .ok packets => ({ s with received := s.received++packets },.again)
    | .error error => (s,.returns (.error (.batch error)))

variable (injected : Option Bytes)

/-- The next frame, of the upstream or injected, alternating between the two; `ready` is whether the
reader is. -/
def pollNextFrame (ready : Bool) (s : SessionTransport K) :
    Option ((Item ⊕ Bytes) × SessionTransport K) :=
  match s.preferInjected, injected with
  | true, some body => some (.inr body,{ s with preferInjected := false })
  | _, _ =>
    match s.ahead, s.reader, ready with
    | next::ahead, _, _ =>
      some (.inl next,{ s with ahead, aheadBytes := s.aheadBytes-next.bytes, preferInjected := true })
    | [], next::reader, true => some (.inl next,{ s with reader, preferInjected := true })
    | [], _, _ => injected.map fun body=>(.inr body,{ s with preferInjected := false })

def terminalOf (frame : Bytes) : Except BridgeError (Terminal T D) :=
  match decodeCoreMessage json frame with
  | .ok (.transfer transfer) => .ok (.transfer transfer)
  | .ok (.disconnect disconnect) => .ok (.disconnect disconnect)
  | .ok _ => .error (invalid "setup message after the handoff")
  | .error error => .error error

def receiveItem (s : SessionTransport K) (item : Item) : SessionTransport K × Turn T D K E :=
  match item.next with
  | none => (s,.returns (.error .connectionClosed))
  | some (.error error) => (s,.returns (.error (.transport error)))
  | some (.ok frame) =>
    match batchFrameBody frame with
    | some body => s.receiveServerBatch split body item.replaced
    | none =>
      match terminalOf json frame with
      | .ok terminal => ({ s with ended := true },.returns (.ok (.terminal terminal)))
      | .error error => (s,.returns (.error (.transport error)))

/-- A turn of a receive; a receive is cancelled only where one is pending. -/
def recv (ready : Bool) (s : SessionTransport K) :
    SessionTransport K × Turn T D K E :=
  match s.received, s.startup with
  | packet::received, _ => ({ s with received },.returns (.ok (.packet packet)))
  | [], batch::startup => receiveServerBatch split { s with startup } batch.1 batch.2
  | [], [] =>
    if s.ended then (s,.returns (.error .connectionClosed))
    else
      match s.pollNextFrame injected ready with
      | none => (s,.pending)
      | some (.inr body,s) =>
        ({ s with received := s.received++relayed split body },.injected (relayed split body))
      | some (.inl item,s) => s.receiveItem json split item

/-- Stages at most one reader item, below the bound and before an end. -/
def pollReadAheadOne (maxBytes : ℕ) (ready : Bool) (s : SessionTransport K) : SessionTransport K :=
  if maxBytes ≤ s.aheadBytes ∨ s.ahead.getLast?.any endsSession then s
  else
    match s.reader, ready with
    | next::reader, true =>
      { s with reader, ahead := s.ahead ++ [next], aheadBytes := s.aheadBytes+next.bytes }
    | _, _ => s

def prepend (packets : List K) (s : SessionTransport K) : SessionTransport K :=
  { s with received := packets++s.received }

end SessionTransport

/-- A queue is read at its front, where others may be put. -/
inductive Entry (α : Type) where
  | taken (item : α)
  | put (items : List α)

inductive Follows {α : Type} (queue : List α) : List (Entry α) → List α → Prop where
  | refl : Follows queue [] queue
  | taken {log item rest} : Follows queue log (item::rest) → Follows queue (log ++ [.taken item]) rest
  | put {log rest} (items : List α) : Follows queue log rest → Follows queue (log ++ [.put items]) (items++rest)

def Entry.item? {α : Type} : Entry α → Option α
  | .taken item => some item
  | .put _ => none

/-- Where nothing was put back, the queue was handed out in its order. -/
lemma Follows.append {α : Type} {queue rest : List α} {log : List (Entry α)}
    (h : Follows queue log rest) (hlog : ∀ entry ∈ log, entry.item?.isSome=true) :
    log.filterMap Entry.item? ++ rest=queue := by
  induction h with
  | refl => rfl
  | taken h ih =>
    rw [filterMap_append,append_assoc]
    exact ih fun entry hmem=>hlog entry (mem_append_left _ hmem)
  | put items h ih =>
    have hput := hlog (.put items) (mem_append_right _ (mem_singleton_self _))
    cases hput

section Stream

variable {M : Type} (json : Json M T D) (split : Bytes → Except E (List K))

def packets (packets : List K) : List (Outcome T D K E) := packets.map fun packet=>.ok (.packet packet)

def batchOutcomes (body : Bytes) : Option Bytes → List (Outcome T D K E)
  | some replaced => packets (SessionTransport.relayed split replaced)
  | none =>
    match split body with
    | .ok received => packets received
    | .error error => [.error (.batch error)]

/-- What the items of a reader are received as, up to a terminal message. -/
def itemOutcomes : List Item → List (Outcome T D K E)
  | [] => []
  | item::items =>
    match item.next with
    | none => .error .connectionClosed::itemOutcomes items
    | some (.error error) => .error (.transport error) :: itemOutcomes items
    | some (.ok frame) =>
      match batchFrameBody frame with
      | some body => batchOutcomes split body item.replaced++itemOutcomes items
      | none =>
        match SessionTransport.terminalOf json frame with
        | .ok terminal => [.ok (.terminal terminal)]
        | .error error => .error (.transport error) :: itemOutcomes items

def unread (s : SessionTransport K) : List (Outcome T D K E) :=
  packets s.received ++ (s.startup.flatMap (fun batch=>batchOutcomes split batch.1 batch.2) ++
    if s.ended then [] else itemOutcomes json split (s.ahead++s.reader))

/-- Operations of a session; a receive that is cancelled and resumed takes further turns. -/
inductive Op (K : Type) where
  | recv (injected : Option Bytes) (ready : Bool)
  | readAhead (maxBytes : ℕ) (ready : Bool)
  | prepend (packets : List K)

def Op.maxBytes : Op K → ℕ
  | .readAhead maxBytes _ => maxBytes
  | _ => 0

/-- A closed connection is reported again and again once the session has ended. -/
def SessionTransport.spent (s : SessionTransport K) : Bool :=
  s.ended && s.received.isEmpty && s.startup.isEmpty

/-- An operation, with what it takes from the stream and puts before it. -/
def step (s : SessionTransport K) : Op K → SessionTransport K × List (Entry (Outcome T D K E))
  | .recv injected ready =>
    let turn := s.recv json split injected ready
    (turn.1,match turn.2 with
      | .returns outcome => if s.spent then [] else [.taken outcome]
      | .injected injected => [.put (packets injected)]
      | _ => [])
  | .readAhead maxBytes ready => (s.pollReadAheadOne maxBytes ready,[])
  | .prepend put => (s.prepend put,[.put (packets put)])

def run (s : SessionTransport K) : List (Op K) → SessionTransport K × List (Entry (Outcome T D K E))
  | [] => (s,[])
  | op::ops =>
    let first := step json split s op
    let rest := run first.1 ops
    (rest.1,first.2++rest.2)

def heldBytes (items : List Item) : ℕ := (items.map Item.bytes).sum

structure Held (bound : ℕ) (s : SessionTransport K) : Prop where
  counted : s.aheadBytes=heldBytes s.ahead
  bounded : s.ahead ≠ [] → heldBytes s.ahead.dropLast<bound

variable {json : Json M T D} {split : Bytes → Except E (List K)} {s s' : SessionTransport K} {bound : ℕ}

def Turned (json : Json M T D) (split : Bytes → Except E (List K)) (s s' : SessionTransport K) :
    Turn T D K E → Prop
  | .returns outcome => if s.spent then s'=s else unread json split s=outcome::unread json split s'
  | .injected injected => unread json split s'=packets injected++unread json split s
  | _ => unread json split s'=unread json split s

lemma receiveServerBatch_spec (hempty : s.received = []) (hspent : s'.spent=false) (body : Bytes)
    (replaced : Option Bytes)
    (h : unread json split s'=batchOutcomes split body replaced++unread json split s)
    {after : SessionTransport K} {turn : Turn T D K E}
    (hreceive : s.receiveServerBatch split body replaced = (after,turn)) :
    Turned json split s' after turn := by
  have hqueued (put : List K) (hput : batchOutcomes (E := E) (T := T) (D := D) split body replaced =
      packets put) : Turned json split s' { s with received := s.received++put } (.again : Turn T D K E) := by
    change unread json split { s with received := s.received++put } = unread json split s'
    rw [h,hput]
    unfold unread
    rw [hempty]
    rfl
  unfold SessionTransport.receiveServerBatch at hreceive
  cases replaced with
  | some replaced =>
    cases hreceive
    exact hqueued _ rfl
  | none =>
    unfold batchOutcomes at hqueued h
    cases hsplit : split body with
    | ok received =>
      rw [hsplit] at hqueued hreceive
      cases hreceive
      exact hqueued _ rfl
    | error error =>
      rw [hsplit] at h hreceive
      cases hreceive
      unfold Turned
      rw [hspent]
      exact h

lemma pollNextFrame_spec (bound : ℕ) {injected : Option Bytes} {ready : Bool} {next : Item ⊕ Bytes}
    (h : s.pollNextFrame injected ready=some (next,s')) :
    (∃ body, next = .inr body ∧ s' = { s with preferInjected := false }) ∨
    ∃ item, next = .inl item ∧ s.ahead++s.reader=item :: (s'.ahead++s'.reader) ∧
      s' = { s with reader := s'.reader, ahead := s'.ahead, aheadBytes := s'.aheadBytes, preferInjected := true } ∧
      (Held bound s → Held bound s') := by
  unfold SessionTransport.pollNextFrame at h
  split at h
  · cases h
    exact .inl ⟨_,rfl,rfl⟩
  split at h
  · rename_i item ahead hahead
    cases h
    refine .inr ⟨item,rfl,by rw [hahead]; rfl,rfl,fun hheld=>⟨?_,fun hne=>?_⟩⟩
    · have hcounted := hheld.counted
      rw [hahead] at hcounted
      change s.aheadBytes=item.bytes+heldBytes ahead at hcounted
      dsimp only
      omega
    · have hbounded := hheld.bounded (by rw [hahead]; exact cons_ne_nil _ _)
      rw [hahead,dropLast_cons_of_ne_nil hne] at hbounded
      exact Nat.lt_of_le_of_lt (Nat.le_add_left _ _) hbounded
  · rename_i item reader hahead hreader
    cases h
    refine .inr ⟨item,rfl,by rw [hahead,hreader]; rfl,rfl,fun hheld=>⟨hheld.counted,hheld.bounded⟩⟩
  · obtain ⟨body,-,heq⟩ := Option.map_eq_some_iff.1 h
    cases heq
    exact .inl ⟨body,rfl,rfl⟩

lemma recv_spec (injected : Option Bytes) (ready : Bool) (s : SessionTransport K) :
    Turned json split s (s.recv json split injected ready).1 (s.recv json split injected ready).2 := by
  unfold SessionTransport.recv
  split
  · rename_i packet received hreceived
    have hspent : s.spent=false := by simp [SessionTransport.spent,hreceived]
    unfold Turned unread
    rw [hspent,hreceived]
    rfl
  · rename_i batch startup hreceived hstartup
    refine receiveServerBatch_spec (s := { s with startup }) hreceived (by simp [SessionTransport.spent,hstartup]) _ _ ?_ rfl
    unfold unread
    rw [hreceived,hstartup,flatMap_cons]
    rw [append_assoc]
    rfl
  · rename_i hreceived hstartup
    have hspent : s.spent=s.ended := by simp [SessionTransport.spent,hreceived,hstartup]
    by_cases hended : s.ended=true
    · unfold Turned
      rw [hspent,hended]
      rfl
    rw [if_neg hended]
    rw [Bool.not_eq_true] at hended
    rw [hended] at hspent
    have hunread (s' : SessionTransport K) (hreceived' : s'.received = []) (hstartup' : s'.startup = [])
        (hended' : s'.ended=false) : unread json split s'=itemOutcomes json split (s'.ahead++s'.reader) := by
      unfold unread
      rw [hreceived',hstartup',hended']
      rfl
    split
    · exact rfl
    · rename_i body after hnext
      rcases pollNextFrame_spec 0 hnext with ⟨_,-,rfl⟩ | ⟨_,heq,-⟩
      · change unread json split _=_
        unfold unread packets
        rw [map_append,hreceived]
        rfl
      · cases heq
    · rename_i item after hnext
      rcases pollNextFrame_spec 0 hnext with ⟨_,heq,-⟩ | ⟨_,heq,hitems,hafter,-⟩
      · cases heq
      cases heq
      have hreceived' : after.received = [] := by rw [hafter]; exact hreceived
      have hstartup' : after.startup = [] := by rw [hafter]; exact hstartup
      have hended' : after.ended=false := by rw [hafter]; exact hended
      have hrest := hunread after hreceived' hstartup' hended'
      have hall := hunread s hreceived hstartup hended
      rw [hitems,itemOutcomes] at hall
      have hreturns (outcome : Outcome T D K E) (houtcome : unread json split s=outcome::unread json split after) :
          Turned json split s after (.returns outcome) := by
        unfold Turned
        rw [hspent]
        exact houtcome
      unfold SessionTransport.receiveItem
      split
      · rename_i hnone
        rw [hnone,← hrest] at hall
        exact hreturns _ hall
      · rename_i hfailed
        rw [hfailed,← hrest] at hall
        exact hreturns _ hall
      · rename_i frame hframe
        rw [hframe] at hall
        dsimp only at hall
        split
        · rename_i body hbody
          rw [hbody,← hrest] at hall
          exact receiveServerBatch_spec hreceived' hspent _ _ hall rfl
        · rename_i hbody
          rw [hbody] at hall
          split
          · rename_i terminal hterminal
            rw [hterminal] at hall
            unfold Turned
            rw [hspent]
            refine hall.trans ?_
            rw [hreceived',hstartup']
            rfl
          · rename_i error hterminal
            rw [hterminal,← hrest] at hall
            exact hreturns _ hall

lemma readAhead_spec (maxBytes : ℕ) (ready : Bool) (s : SessionTransport K) :
    unread json split (s.pollReadAheadOne maxBytes ready) = unread json split s := by
  unfold SessionTransport.pollReadAheadOne
  split
  · rfl
  · split
    · rename_i hreader
      unfold unread
      rw [hreader,append_assoc]
      rfl
    · rfl

variable {log : List (Entry (Outcome T D K E))} {queue : List (Outcome T D K E)}

/-- Every operation keeps the stream, but for what it takes from it and puts before it. -/
lemma Follows.step (h : Follows queue log (unread json split s)) (op : Op K) :
    Follows queue (log ++ (SessionWire.step json split s op).2)
      (unread json split (SessionWire.step json split s op).1) := by
  cases op with
  | recv injected ready =>
    have hturn : Turned json split s (s.recv json split injected ready).1
        (s.recv json split injected ready).2 := recv_spec injected ready s
    unfold SessionWire.step
    dsimp only
    cases hcase : (s.recv json split injected ready).2 with
    | returns outcome =>
      rw [hcase] at hturn
      change if s.spent then _ else _ at hturn
      cases hspent : s.spent with
      | true =>
        rw [if_pos hspent] at hturn
        rw [hturn]
        exact (append_nil log).symm ▸ h
      | false =>
        rw [if_neg (by rw [hspent]; exact Bool.false_ne_true)] at hturn
        exact .taken (hturn ▸ h)
    | injected injected =>
      rw [hcase] at hturn
      exact (show unread json split _=_ from hturn) ▸ .put _ h
    | again =>
      rw [hcase] at hturn
      exact (append_nil log).symm ▸ (show unread json split _=_ from hturn) ▸ h
    | pending =>
      rw [hcase] at hturn
      exact (append_nil log).symm ▸ (show unread json split _=_ from hturn) ▸ h
  | readAhead maxBytes ready =>
    exact (append_nil log).symm ▸ (readAhead_spec maxBytes ready s) ▸ h
  | prepend put =>
    have hput : unread json split (s.prepend put) = packets put++unread json split s := by
      unfold unread SessionTransport.prepend packets
      rw [map_append,append_assoc]
    exact hput ▸ .put _ h

section

variable (h : Held bound s)
include h

/-- Operations that leave the held items alone. -/
lemma Held.of_ahead (hahead : s'.ahead=s.ahead) (hbytes : s'.aheadBytes=s.aheadBytes) : Held bound s' :=
  ⟨by rw [hbytes,hahead]; exact h.counted,by rw [hahead]; exact h.bounded⟩

lemma Held.receiveServerBatch (body : Bytes) (replaced : Option Bytes) :
    Held bound (s.receiveServerBatch split body replaced : SessionTransport K × Turn T D K E).1 := by
  unfold SessionTransport.receiveServerBatch
  split
  · exact h.of_ahead rfl rfl
  · split
    · exact h.of_ahead rfl rfl
    · exact h

lemma Held.recv (injected : Option Bytes) (ready : Bool) : Held bound (s.recv json split injected ready).1 := by
  unfold SessionTransport.recv
  split
  · exact h.of_ahead rfl rfl
  · rename_i batch startup _ _
    exact Held.receiveServerBatch (s := { s with startup }) (h.of_ahead rfl rfl) _ _
  split
  · exact h
  split
  · exact h
  · rename_i hnext
    rcases pollNextFrame_spec bound hnext with ⟨_,-,rfl⟩ | ⟨_,heq,-⟩
    · exact h.of_ahead rfl rfl
    · cases heq
  · rename_i hnext
    rcases pollNextFrame_spec bound hnext with ⟨_,heq,-⟩ | ⟨_,-,-,-,hheld⟩
    · cases heq
    have hafter := hheld h
    unfold SessionTransport.receiveItem
    split
    · exact hafter
    · exact hafter
    split
    · exact hafter.receiveServerBatch _ _
    split
    · exact hafter.of_ahead rfl rfl
    · exact hafter

lemma Held.readAhead {maxBytes : ℕ} (hbound : maxBytes≤bound) (ready : Bool) :
    Held bound (s.pollReadAheadOne maxBytes ready) := by
  unfold SessionTransport.pollReadAheadOne
  split
  · exact h
  rename_i hroom
  rw [not_or,not_le] at hroom
  split
  · refine ⟨?_,fun _=>?_⟩
    · rw [h.counted]
      simp [heldBytes]
    · rw [dropLast_concat,← h.counted]
      exact hroom.1.trans_le hbound
  · exact h

lemma Held.step {op : Op K} (hbound : op.maxBytes≤bound) : Held bound (SessionWire.step json split s op).1 := by
  cases op with
  | recv injected ready => exact h.recv injected ready
  | readAhead maxBytes ready => exact h.readAhead hbound ready
  | prepend put => exact h.of_ahead rfl rfl

lemma Held.run {ops : List (Op K)} (hbound : ∀ op ∈ ops, op.maxBytes≤bound) :
    Held bound (SessionWire.run json split s ops).1 := by
  induction ops generalizing s with
  | nil => exact h
  | cons op ops ih =>
    obtain ⟨hop,hops⟩ := forall_mem_cons.1 hbound
    exact ih (h.step hop) hops

end

lemma Follows.run (h : Follows queue log (unread json split s)) (ops : List (Op K)) :
    Follows queue (log ++ (SessionWire.run json split s ops).2)
      (unread json split (SessionWire.run json split s ops).1) := by
  induction ops generalizing s log with
  | nil => exact (append_nil log).symm ▸ h
  | cons op ops ih =>
    have hrest := ih (h.step op)
    rw [append_assoc] at hrest
    exact hrest

/-- What a session hands out is the startup batches and then the core's frames, each once and in
order, but for what is put before them; the bytes held ahead are counted and within the bound up to
one frame. -/
theorem frames_once_in_order (json : Json M T D) (split : Bytes → Except E (List K)) (reader : List Item)
    (startup : List Bytes) (replaced : Bytes → Option Bytes) (ops : List (Op K)) :
    let start := SessionTransport.withTimers reader startup replaced
    let after := run json split start ops
    Follows (unread json split start) after.2 (unread json split after.1) ∧
    ((∀ entry ∈ after.2, entry.item?.isSome=true) →
      after.2.filterMap Entry.item? ++ unread json split after.1 = unread json split start) ∧
    unread json split start =
      (startupBatches startup).flatMap (fun batch => batchOutcomes split batch (replaced batch)) ++
        itemOutcomes json split reader ∧
    ((∀ packet ∈ startup, packet.length < 2^32) → ∃ groups, groups.flatten=startup ∧
      List.Forall₂ WithinBounds (startupBatches startup) groups) ∧
    ∀ bound, (∀ op ∈ ops, op.maxBytes ≤ bound) → Held bound after.1 := by
  intro start after
  have hfollows : Follows (unread json split start) after.2 (unread json split after.1) := Follows.run .refl ops
  refine ⟨hfollows,hfollows.append,?_,startupBatches_groups,fun bound hbound => Held.run ?_ hbound⟩
  · change packets [] ++ (((startupBatches startup).map _).flatMap _ ++ itemOutcomes json split reader) = _
    rw [flatMap_map]
    rfl
  · exact ⟨rfl,fun hne => absurd rfl hne⟩

end Stream

end Cinnabar.SessionWire
