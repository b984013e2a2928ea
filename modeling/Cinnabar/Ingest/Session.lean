import Cinnabar.Ingest.DrainStep

/-! # Sessions of the drain -/

namespace Cinnabar.Ingest

open List

variable {E C S V O : Type}

/-- The footprint a call goes by: recorded for a retained payload, classified for an arrival. -/
def WorldStream.footprintIn (c : Classes E C) (stream : WorldStream E S V O)
    (e : WorldIngress E C) : Footprint :=
  (stream.order.retainedIngressFootprint e.sequence).getD (footprintOf c e stream)

/-- Headroom for any event is headroom for a light one. -/
lemma WorldStream.light_pos (stream : WorldStream E S V O)
    (h : 0 < stream.remainingAdmissionCapacity) : 0 < stream.lightAdmissionCapacity := by
  exact (lt_min_iff.1 h).1

/-- One session: the channel, the retained payloads and the stream, with logs of what arrived,
what the drain handed out, what was submitted and what was dropped at the session's end. -/
structure Session (E C S V O : Type) where
  /-- `NetworkSequencer::next_sequence` -/
  nextSequence : ℕ
  receiver : List (WorldIngress E C)
  pending : List (WorldIngress E C)
  stream : Option (WorldStream E S V O)
  drain : WorldIngressDrain
  arrived : List (WorldIngress E C)
  handed : List (WorldIngress E C)
  submitted : List ℕ
  dropped : List (WorldIngress E C)
  retired : Bool

namespace Session

def new : Session E C S V O := ⟨1,[],[],none,⟨0,false⟩,[],[],[],[],false⟩

/-- Whatever happens next. -/
inductive Step (c : Classes E C) (s : Session E C S V O) : Session E C S V O → Prop where
  /-- The network numbers an event and queues it. -/
  | arrive (e : WorldIngress E C) (h : e.sequence=s.nextSequence) (hlive : s.retired=false) :
    Step c s { s with
      nextSequence := s.nextSequence+1
      receiver := s.receiver ++ [e]
      arrived := s.arrived ++ [e] }
  /-- A frame starts its drain. -/
  | frame (deadline : ℕ) : Step c s { s with drain := ⟨deadline,false⟩ }
  | next (now : ℕ → ℕ) {out : Drained E C S V O} {drain : WorldIngressDrain}
      (h : s.drain.next c s.receiver s.pending s.stream now = .ok (out,drain)) :
    Step c s { s with
      receiver := out.receiver
      pending := out.pending
      stream := out.stream
      drain := drain
      handed := s.handed++out.result.toList }
  /-- `StartGame` brings the stream. -/
  | bootstrap (stream : WorldStream E S V O) (h : s.stream=none) (hnew : stream.order = .new 1)
      (hlive : s.retired=false) : Step c s { s with stream := some stream }
  /-- The stream works on events it was handed, and takes in each of them once. -/
  | operate (op : OrderedCommitState.Op S V O) {stream : WorldStream E S V O}
      {order : OrderedCommitState S V O} (h : s.stream=some stream)
      (hrun : op.run stream.order=some order)
      (hhanded : ∀ n, op.sequence=some n → n ∈ s.handed.map WorldIngress.sequence)
      (hnew : ∀ n, op.admits=some n → n ∉ s.submitted) :
    Step c s { s with
      stream := some { stream with order := order }
      submitted := op.admits.toList++s.submitted }
  /-- The rest of the stream changes. -/
  | elsewhere {stream stream' : WorldStream E S V O} (h : s.stream=some stream)
      (horder : stream'.order=stream.order) : Step c s { s with stream := some stream' }
  /-- The session ends: the stream goes with the payloads it accounts for. -/
  | retire : Step c s { s with
      receiver := []
      pending := []
      stream := none
      dropped := s.dropped ++ (s.pending++s.receiver)
      retired := true }

/-- The sessions that any order of steps leads to. -/
inductive Reachable (c : Classes E C) : Session E C S V O → Prop where
  | new : Reachable c new
  | step {s s' : Session E C S V O} : Reachable c s → Step c s s' → Reachable c s'

/-- What holds between steps. -/
structure Ok (s : Session E C S V O) : Prop where
  positive : 0 < s.nextSequence
  numbered : ∀ e ∈ s.arrived, 0<e.sequence ∧ e.sequence < s.nextSequence
  nodup : (s.arrived.map WorldIngress.sequence).Nodup
  once : (s.handed ++ (s.pending++s.receiver) ++ s.dropped).Perm s.arrived
  order : (s.pending++s.receiver).Sublist s.arrived
  bound : s.pending.length≤worldEventCapacity
  live : s.retired=false → s.dropped = []
  submitted : ∀ n ∈ s.submitted, n ∈ s.handed.map WorldIngress.sequence
  absent : s.stream=none → s.pending = []
  accounted : ∀ {stream}, s.stream=some stream →
    stream.order.Accounted (· ∈ s.submitted) (s.pending.map WorldIngress.sequence)

structure Calls (c : Classes E C) (s : Session E C S V O) (now : ℕ → ℕ) (out : Drained E C S V O) :
    Prop where
  nothing : out.result=none → out.pending++out.receiver=s.pending++s.receiver
  /-- An event handed out of turn bypasses terrain, and passes only retained payloads that are
  no barrier and own the credit they need. -/
  handed : ∀ {x}, out.result=some x → ∃ before after, s.pending++s.receiver=before++x::after ∧
    out.pending++out.receiver=before++after ∧ before <+: out.pending ∧
    (before ≠ [] → ∃ stream stream', s.stream=some stream ∧ out.stream=some stream' ∧
      bypassesTerrain (stream.footprintIn c x) = true ∧ ∀ e ∈ before, Clear stream'.order e)
  /-- With time and headroom the oldest waiting event is handed out. -/
  progress : s.drain.stopped=false → (∀ call, now call < s.drain.deadline) →
    (∀ stream, s.stream=some stream → 0 < stream.remainingAdmissionCapacity) →
    out.result = (s.pending++s.receiver).head?

variable {order : OrderedCommitState S V O} (c : Classes E C) {stream : WorldStream E S V O}
    {s : Session E C S V O}

/-- No event is handed out twice or still waiting once handed out. -/
lemma Ok.apart (h : s.Ok) : (s.handed.map WorldIngress.sequence ++
      (s.pending++s.receiver).map WorldIngress.sequence).Nodup := by
  have hnodup := (h.once.map WorldIngress.sequence).nodup_iff.2 h.nodup
  rw [map_append,map_append] at hnodup
  exact hnodup.of_append_left

lemma Ok.arriving (h : s.Ok) : Arriving (· ∈ s.submitted) (s.pending++s.receiver) := by
  have hnodup := h.apart
  rw [nodup_append] at hnodup
  obtain ⟨-,hwaiting,hapart⟩ := hnodup
  refine ⟨hwaiting,fun e he=>⟨(h.numbered e ?_).1,fun hsubmitted=>?_⟩⟩
  · exact h.once.subset (mem_append_left _ (mem_append_right _ he))
  · exact hapart _ (h.submitted _ hsubmitted) _ (mem_map_of_mem he) rfl

variable {now : ℕ → ℕ} {e : WorldIngress E C}

lemma scanRetained_head {Known : ℕ → Prop} {rest : List (WorldIngress E C)} {deadline : ℕ}
    (h : stream.order.Accounted Known ((e::rest).map WorldIngress.sequence))
    (htime : ∀ call, now call<deadline) (hroom : 0 < stream.remainingAdmissionCapacity) :
    ∃ out, scanRetained c deadline now 1 [] (e::rest) (some stream) = .ok out ∧
      out.1 = .found e := by
  have hlight := stream.light_pos hroom
  have he : e.sequence ∈ (e::rest).map WorldIngress.sequence := .head _
  obtain ⟨credit,order₁,hreserve,h₁,hspec⟩ := reserveRetained_spec stream h he
  obtain ⟨hcredit,hcapacity⟩ := hspec.room hlight
  subst hcredit
  obtain ⟨footprint,hfootprint,hrecorded⟩ := retainedFootprint_spec { stream with order := order₁ } h₁ he
  have hadmits : admitsAt c 0 e (some { stream with order := order₁ }) (some footprint) =
      .ok true := by
    have hspace := hcapacity footprint ((hspec.footprint _).symm.trans hfootprint)
    unfold admitsAt admitsRetained
    dsimp only
    rw [if_pos (by simp)]
    split_ifs at hspace ⊢ with hheavy
    · rw [hspace]
      unfold admits
      rw [Option.all_some]
      cases hevent : e.worldEvent c with
      | none => exact congrArg Except.ok (decide_eq_true hlight)
      | some event =>
        dsimp only
        unfold WorldStream.canAdmitWithFootprint
        rw [if_pos hroom]
    · obtain ⟨capacity,hsome,hpos⟩ := hspace
      rw [hsome]
      exact congrArg Except.ok (decide_eq_true hpos)
  obtain ⟨order₂,hrelease,-,-⟩ := releaseRetained_spec { stream with order := order₁ } h₁
  unfold scanRetained
  rw [if_neg (not_le.2 (htime _)),hreserve]
  simp only [bind,Except.bind]
  rw [if_neg (by simp),hrecorded]
  dsimp only
  rw [length_nil,hadmits]
  dsimp only
  rw [if_pos rfl,hrelease]
  exact ⟨_,rfl,rfl⟩

structure Leaves (s : Session E C S V O) (out : Drained E C S V O) : Prop where
  bound : out.pending.length≤worldEventCapacity
  absent : out.stream=none → out.pending = []
  accounted : ∀ {stream}, out.stream=some stream →
    stream.order.Accounted (· ∈ s.submitted) (out.pending.map WorldIngress.sequence)

lemma Ok.callAbsent (h : s.Ok) (now : ℕ → ℕ) (hstream : s.stream=none) :
    ∃ out, receiveIngress c s.drain.deadline now 1 s.receiver s.pending none = .ok out ∧
      Calls c s now out ∧ s.Leaves out := by
  have hpending := h.absent hstream
  rw [hpending]
  have hcall : receiveIngress (S := S) (V := V) (O := O) c s.drain.deadline now 1 s.receiver []
      none = .ok ⟨if s.drain.deadline≤now 1 then none else s.receiver.head?,
        if s.drain.deadline≤now 1 then s.receiver else s.receiver.tail,[],none⟩ := by
    unfold receiveIngress
    rw [if_pos (by simp [worldEventCapacity])]
    split_ifs with htime
    · rfl
    · cases s.receiver with
      | nil => rfl
      | cons e rest => rfl
  refine ⟨_,hcall,⟨fun hnone=>?_,fun {x} hx=>?_,fun _ htime _=>?_⟩,Nat.zero_le _, fun _=>rfl,fun hsome=>by cases hsome⟩
  · rw [hpending]
    split_ifs at hnone ⊢
    · rfl
    · rw [List.head?_eq_none_iff] at hnone
      rw [hnone]
      rfl
  · split_ifs at hx ⊢
    obtain ⟨rest,hrest⟩ := List.head?_eq_some_iff.1 hx
    refine ⟨[],rest,?_,?_, nil_prefix,fun hne=>absurd rfl hne⟩
    · rw [hpending,hrest,nil_append]
    · rw [hrest]
      rfl
  · rw [if_neg (not_le.2 (htime 1)),hpending]
    rfl

variable {x : WorldIngress E C}

lemma Ok.callFound (h : s.Ok) (now : ℕ → ℕ) (hstream : s.stream=some stream) {retained : List (WorldIngress E C)}
    (haccounted : order.Accounted (· ∈ s.submitted) (retained.map WorldIngress.sequence))
    (hleaves : (Scanned.found x).Leaves (· ∈ s.submitted) stream.order order s.pending retained)
    (hhead : ∀ {e rest}, s.pending=e::rest → (∀ call, now call < s.drain.deadline) →
      0 < stream.remainingAdmissionCapacity → x=e) :
    Calls c s now ⟨some x,s.receiver,retained,some { stream with order := order }⟩ ∧
      s.Leaves ⟨some x,s.receiver,retained,some { stream with order := order }⟩ := by
  obtain ⟨before,after,hsplit,hretained,hclear,hbypass⟩ := hleaves
  refine ⟨⟨fun hnone=>(nomatch hnone),fun {y} hy=>?_,fun _ htime hroom=>?_⟩,?_,
    fun hnone=>(nomatch hnone),fun hsome=>?_⟩
  · cases hy
    refine ⟨before,after++s.receiver,?_,?_,?_,fun hne=>⟨stream, { stream with order := order },hstream,rfl,?_,hclear⟩⟩
    · rw [hsplit,append_assoc]
      rfl
    · rw [hretained,append_assoc]
    · rw [hretained]
      exact prefix_append before after
    · obtain ⟨footprint,hfootprint,hyes⟩ := hbypass hne
      unfold WorldStream.footprintIn
      rw [hfootprint]
      exact hyes
  · cases hpending : s.pending with
    | nil =>
      rw [hpending] at hsplit
      exact absurd hsplit (by simp)
    | cons e rest =>
      have hfound := hhead hpending htime (hroom stream hstream)
      rw [hfound]
      rfl
  · have hbound := h.bound
    rw [hsplit,length_append,length_cons] at hbound
    rw [hretained,length_append]
    omega
  · cases hsome
    exact haccounted

/-- With headroom and nothing retained the channel's oldest event is handed out. -/
lemma receiveIngress_head {deadline : ℕ} (calls : ℕ) (receiver : List (WorldIngress E C))
    (htime : ∀ call, now call<deadline) (hroom : 0 < stream.remainingAdmissionCapacity) :
    ∃ out, receiveIngress c deadline now calls receiver [] (some stream) = .ok out ∧
      out.result=receiver.head? := by
  unfold receiveIngress
  rw [if_pos (by simp [worldEventCapacity]),if_neg (not_le.2 (htime _))]
  cases receiver with
  | nil => exact ⟨_,rfl,rfl⟩
  | cons e rest =>
    have hadmits : admits c e (some stream) none=true := by
      unfold admits
      rw [Option.all_some]
      cases hevent : e.worldEvent c with
      | none => exact decide_eq_true (stream.light_pos hroom)
      | some event =>
        dsimp only
        unfold WorldStream.canAdmit
        rw [if_pos hroom]
    dsimp only
    rw [if_pos (by rw [hadmits]; rfl)]
    exact ⟨_,rfl,rfl⟩

/-- Only retained payloads have a recorded footprint. -/
lemma Ok.footprintIn (c : Classes E C) {s : Session E C S V O} (h : s.Ok)
    {stream : WorldStream E S V O} (hstream : s.stream=some stream)
    (hx : x ∈ s.receiver) : stream.footprintIn c x=footprintOf c x stream := by
  have hfresh : stream.order.retainedIngressFootprint x.sequence=none := by
    by_contra hsome
    obtain ⟨footprint,hfootprint⟩ := Option.ne_none_iff_exists'.1 hsome
    have hreserved : (stream.order.reservation x.sequence).isSome := by
      unfold OrderedCommitState.retainedIngressFootprint at hfootprint
      unfold OrderedCommitState.reservation
      cases hlook : stream.order.entries.lookup x.sequence with
      | none =>
        rw [hlook] at hfootprint
        cases hfootprint
      | some entry =>
        obtain ⟨recorded,held,slot⟩ := entry
        rw [hlook] at hfootprint
        cases held with
        | ingress reserved => rfl
        | light => cases hfootprint
        | heavy => cases hfootprint
        | deferred => cases hfootprint
    have hkept := ((h.accounted hstream).reserved _).2 hreserved
    have hnodup := h.arriving.nodup
    rw [map_append,nodup_append] at hnodup
    exact hnodup.2.2 _ hkept _ (mem_map_of_mem hx) rfl
  unfold WorldStream.footprintIn
  rw [hfresh]
  rfl

/-- All retained payloads are clear, so the call turns to the channel. -/
lemma Ok.callExhausted (h : s.Ok) (now : ℕ → ℕ) (calls : ℕ) (hstream : s.stream=some stream)
    (haccounted : order.Accounted (· ∈ s.submitted) (s.pending.map WorldIngress.sequence))
    (hclear : ∀ e ∈ s.pending, Clear order e)
    (hhead : s.pending = [] ∨ ¬((∀ call, now call < s.drain.deadline) ∧ 0 < stream.remainingAdmissionCapacity))
    (horder : s.pending = [] → order=stream.order) :
    ∃ out, receiveIngress c s.drain.deadline now calls s.receiver s.pending
        (some { stream with order := order }) = .ok out ∧
      Calls c s now out ∧ s.Leaves out := by
  obtain ⟨out,order',hreceive,hout,haccounted',hbound,hdelivers⟩ := receiveIngress_spec
    { stream with order := order } c s.drain.deadline now calls haccounted hclear h.bound h.arriving
  refine ⟨out,hreceive,⟨hdelivers.nothing,fun {x} hx=>?_,fun _ htime hroom=>?_⟩,hbound, fun hnone=>?_,fun hsome=>?_⟩
  · obtain ⟨before,after,hqueue,hleft, hprefix,hall,hby⟩ := hdelivers.handed hx
    refine ⟨before,after,hqueue,hleft, hprefix,fun hne=>⟨stream, { stream with order := order' },hstream,hout,?_,hall⟩⟩
    obtain ⟨hx',hyes⟩ := hby hne
    rw [h.footprintIn c hstream hx']
    exact hyes
  · rcases hhead with hpending | hbusy
    · rw [horder hpending,hpending] at hreceive
      obtain ⟨out',hreceive',hhanded⟩ := receiveIngress_head c calls s.receiver htime (hroom stream hstream)
      have hsame : out'=out := Except.ok.inj (hreceive'.symm.trans hreceive)
      rw [hpending,← hsame]
      exact hhanded
    · exact absurd ⟨htime,hroom stream hstream⟩ hbusy
  · rw [hout] at hnone
    cases hnone
  · rw [hout] at hsome
    cases hsome
    exact haccounted'

/-- A call always comes to an end, and guarantees what it should. -/
lemma Ok.call (c : Classes E C) {s : Session E C S V O} (h : s.Ok) (now : ℕ → ℕ) :
    ∃ out drain, s.drain.next c s.receiver s.pending s.stream now = .ok (out,drain) ∧
      Calls c s now out ∧ s.Leaves out := by
  unfold WorldIngressDrain.next
  by_cases hstop : (s.drain.stopped || decide (s.drain.deadline≤now 0)) = true
  · rw [if_pos hstop]
    refine ⟨_,_,rfl,⟨fun _=>rfl,fun hx=>(nomatch hx),fun hrunning htime _=>?_⟩,h.bound, h.absent,h.accounted⟩
    rw [hrunning,Bool.false_or,decide_eq_true_eq] at hstop
    exact absurd hstop (not_le.2 (htime 0))
  · rw [if_neg hstop]
    cases hstream : s.stream with
    | none =>
      obtain ⟨out,hout,hcalls,hleaves⟩ := h.callAbsent c now hstream
      have hpending := h.absent hstream
      rw [hpending] at hout ⊢
      simp only [bind,Except.bind,scanRetained,length_nil,Nat.add_zero,hout]
      exact ⟨_,_,rfl,hcalls,hleaves⟩
    | some stream =>
      have haccounted := h.accounted hstream
      obtain ⟨scanned,retained,order,hscan,hkept,hleaves⟩ := scanRetained_spec stream c
        s.drain.deadline now 1 [] s.pending haccounted fun e he=>nomatch he
      rw [nil_append] at hleaves
      rw [hscan]
      simp only [bind,Except.bind]
      -- the oldest payload is handed out when there is headroom
      have hhead : ∀ {e rest}, s.pending=e::rest → (∀ call, now call < s.drain.deadline) →
          0 < stream.remainingAdmissionCapacity → scanned = .found e := by
        intro e rest hpending htime hroom
        rw [hpending] at haccounted hscan
        obtain ⟨out,hout,hfound⟩ := scanRetained_head c haccounted htime hroom
        rw [hscan] at hout
        cases hout
        exact hfound
      have hnil : s.pending = [] → scanned = .exhausted ∧ order=stream.order := by
        intro hpending
        rw [hpending] at hscan
        have hout := Except.ok.inj hscan
        exact ⟨(congrArg (·.1) hout).symm, (congrArg WorldStream.order (Option.some.inj (congrArg (·.2.2) hout))).symm⟩
      cases scanned with
      | blocked =>
        refine ⟨_,_,rfl,⟨fun _=>congrArg (· ++ s.receiver) hleaves,fun hx=>(nomatch hx),
          fun _ htime hroom=>?_⟩,?_,fun hnone=>(nomatch hnone),fun hsome=>?_⟩
        · cases hpending : s.pending with
          | nil =>
            have hexhausted := (hnil hpending).1
            cases hexhausted
          | cons e rest =>
            have hfound := hhead hpending htime (hroom stream hstream)
            cases hfound
        · exact (le_of_eq (congrArg List.length hleaves)).trans h.bound
        · cases hsome
          exact hkept
      | found x =>
        obtain ⟨hcalls,hleft⟩ := h.callFound c now hstream hkept hleaves
          fun hpending htime hroom=>Scanned.found.inj (hhead hpending htime hroom)
        exact ⟨_,_,rfl,hcalls,hleft⟩
      | exhausted =>
        obtain ⟨hretained,hclear⟩ := hleaves
        rw [hretained] at hkept ⊢
        obtain ⟨out,hout,hcalls,hleft⟩ := h.callExhausted c now (1+s.pending.length) hstream hkept hclear (by
            cases hpending : s.pending with
            | nil => exact .inl rfl
            | cons e rest =>
              refine .inr fun ⟨htime,hroom⟩=>?_
              have hfound := hhead hpending htime hroom
              cases hfound) fun hpending=>(hnil hpending).2
        rw [hout]
        exact ⟨_,_,rfl,hcalls,hleft⟩

lemma ok_new : (new : Session E C S V O).Ok where
  positive := Nat.one_pos
  numbered := fun _ he=>nomatch he
  nodup := nodup_nil
  once := .refl _
  order := .refl _
  bound := Nat.zero_le _
  live := fun _=>rfl
  submitted := fun _ hn=>nomatch hn
  absent := fun _=>rfl
  accounted := fun h=>nomatch h

lemma accounted_new : (OrderedCommitState.new 1 : OrderedCommitState S V O).Accounted (fun _=>False) [] where
  working := ⟨fun ha=>(nomatch ha),fun _=>rfl,fun hp=>(nomatch hp),fun hp=>(nomatch hp), fun hb=>(nomatch hb)⟩
  finished :=
    { frontier := Nat.one_pos
      below := fun _ hpos hlt=>absurd hlt (not_lt.2 hpos)
      covers := fun _ hn=>absurd hn Runs.not_covers_empty }
  reserved := fun _=>⟨fun hn=>(nomatch hn),fun hn=>(nomatch hn)⟩
  nodup := nodup_nil
  waiting := fun hlook=>(nomatch hlook)
  known := fun hsome=>(nomatch hsome)
  popped := fun hp=>(nomatch hp)
  ingress := rfl
  ingressLight := rfl

/-- The network numbers one more event. -/
lemma Ok.arrive (h : s.Ok) (he : e.sequence=s.nextSequence) :
    ({ s with
      nextSequence := s.nextSequence+1
      receiver := s.receiver ++ [e]
      arrived := s.arrived ++ [e] } : Session E C S V O).Ok where
  positive := Nat.succ_pos _
  numbered := by
    intro e' he'
    rcases mem_append.1 he' with he' | he'
    · obtain ⟨hpos,hlt⟩ := h.numbered e' he'
      exact ⟨hpos,hlt.trans (Nat.lt_succ_self _)⟩
    · rw [mem_singleton.1 he',he]
      exact ⟨h.positive,Nat.lt_succ_self _⟩
  nodup := by
    rw [map_append,nodup_append]
    refine ⟨h.nodup,nodup_singleton _,fun n hn m hm hnm=>?_⟩
    obtain ⟨e',he',rfl⟩ := mem_map.1 hn
    rw [map_singleton,mem_singleton,he] at hm
    exact absurd (hnm.trans hm) (h.numbered e' he').2.ne
  once := by
    rw [← append_assoc s.pending,← append_assoc s.handed]
    have hlast : (s.handed ++ (s.pending++s.receiver) ++ [e] ++ s.dropped).Perm
        (s.handed ++ (s.pending++s.receiver) ++ s.dropped ++ [e]) := by
      rw [append_assoc _ [e],append_assoc _ s.dropped]
      exact perm_append_comm.append_left _
    exact hlast.trans (h.once.append_right [e])
  order := by
    rw [← append_assoc]
    exact h.order.append (List.Sublist.refl _)
  __ := h

lemma Ok.next {c : Classes E C} (h : s.Ok)
    {out : Drained E C S V O} (hcalls : Calls c s now out) (hleaves : s.Leaves out)
    (drain : WorldIngressDrain) :
    ({ s with
      receiver := out.receiver
      pending := out.pending
      stream := out.stream
      drain := drain
      handed := s.handed++out.result.toList } : Session E C S V O).Ok := by
  have hmoved : (out.result.toList ++ (out.pending++out.receiver)).Perm (s.pending++s.receiver) ∧
      (out.pending++out.receiver).Sublist (s.pending++s.receiver) := by
    cases hresult : out.result with
    | none =>
      rw [hcalls.nothing hresult]
      exact ⟨.refl _,.refl _⟩
    | some x =>
      obtain ⟨before,after,hqueue,hleft,-,-⟩ := hcalls.handed hresult
      rw [hqueue,hleft,Option.toList_some,singleton_append]
      exact ⟨perm_middle.symm,(List.Sublist.refl _).append (sublist_cons_self _ _)⟩
  refine ⟨h.positive,h.numbered,h.nodup,?_,hmoved.2.trans h.order,hleaves.bound,h.live,
    fun n hn=>?_,hleaves.absent,hleaves.accounted⟩
  · rw [append_assoc s.handed]
    exact ((hmoved.1.append_left _).append_right _).trans h.once
  · rw [map_append]
    exact mem_append_left _ (h.submitted n hn)

lemma Ok.operate (h : s.Ok) {op : OrderedCommitState.Op S V O} 
    (hstream : s.stream=some stream) (hrun : op.run stream.order=some order)
    (hhanded : ∀ n, op.sequence=some n → n ∈ s.handed.map WorldIngress.sequence)
    (hnew : ∀ n, op.admits=some n → n ∉ s.submitted) :
    ({ s with
      stream := some { stream with order := order }
      submitted := op.admits.toList++s.submitted } : Session E C S V O).Ok := by
  have hnodup := h.apart
  rw [map_append,nodup_append] at hnodup
  have hfree : ∀ n, op.sequence=some n → n ∉ s.pending.map WorldIngress.sequence :=
    fun n hn hin=>hnodup.2.2 _ (hhanded n hn) _ (mem_append_left _ hin) rfl
  have hapart : ∀ n ∈ s.pending.map WorldIngress.sequence, n ∉ s.submitted :=
    fun n hn hin=>hnodup.2.2 _ (h.submitted n hin) _ (mem_append_left _ hn) rfl
  obtain ⟨haccounted,-⟩ := (h.accounted hstream).op hapart hfree hnew hrun
  refine ⟨h.positive,h.numbered,h.nodup,h.once,h.order,h.bound,h.live,fun n hn=>?_,
    fun hnone=>(nomatch hnone),fun hsome=>?_⟩
  · rcases mem_append.1 hn with hn | hn
    · exact hhanded n (op.sequence_of_admits (Option.mem_toList.1 hn))
    · exact h.submitted n hn
  · cases hsome
    refine haccounted.mono fun m hm=>mem_append.2 ?_
    exact hm.symm.imp Option.mem_toList.2 id

lemma Ok.step {c : Classes E C} {s s' : Session E C S V O} (h : s.Ok) (hstep : Step c s s') :
    s'.Ok := by
  cases hstep with
  | arrive e he hlive => exact h.arrive he
  | frame deadline => exact ⟨h.positive,h.numbered,h.nodup,h.once,h.order,h.bound,h.live,h.submitted,
      h.absent,h.accounted⟩
  | next now hcall =>
    obtain ⟨out,drain,hout,hcalls,hleaves⟩ := h.call c now
    cases hcall.symm.trans hout
    exact h.next hcalls hleaves _
  | bootstrap stream hnone hnew hlive =>
    refine ⟨h.positive,h.numbered,h.nodup,h.once,h.order,h.bound,h.live,h.submitted,
      fun hno=>(nomatch hno),fun hsome=>?_⟩
    cases hsome
    rw [hnew]
    rw [h.absent hnone]
    exact accounted_new.mono fun _ hfalse=>hfalse.elim
  | operate op hstream hrun hhanded hnew => exact h.operate hstream hrun hhanded hnew
  | elsewhere hstream horder =>
    refine ⟨h.positive,h.numbered,h.nodup,h.once,h.order,h.bound,h.live,h.submitted,
      fun hno=>(nomatch hno),fun hsome=>?_⟩
    cases hsome
    rw [horder]
    exact h.accounted hstream
  | retire =>
    refine ⟨h.positive,h.numbered,h.nodup,?_,nil_sublist _,Nat.zero_le _,
      fun hlive=>(nomatch hlive),h.submitted,fun _=>rfl,fun hsome=>(nomatch hsome)⟩
    rw [append_nil,append_nil]
    refine (List.Perm.append_left _ perm_append_comm).trans ?_
    rw [← append_assoc]
    exact h.once

lemma Reachable.ok {c : Classes E C} (h : Reachable c s) : s.Ok := by
  induction h with
  | new => exact ok_new
  | step _ hstep ih => exact ih.step hstep

/-- Every retained payload holds one reservation, until it is handed out or dropped. -/
structure Reserves (s : Session E C S V O) : Prop where
  dropped : s.stream=none → s.pending = []
  once : (s.pending.map WorldIngress.sequence).Nodup
  holds : ∀ {stream}, s.stream=some stream → ∀ n,
    n ∈ s.pending.map WorldIngress.sequence ↔ (stream.order.reservation n).isSome
  ingress : ∀ {stream}, s.stream=some stream → stream.order.ingress=s.pending.length
  ingressLight : ∀ {stream}, s.stream=some stream → stream.order.ingressLight =
    s.pending.countP fun e=>stream.order.reservation e.sequence=some true

lemma Ok.reserves (h : s.Ok) : s.Reserves where
  dropped := h.absent
  once := by
    have hnodup := h.arriving.nodup
    rw [map_append] at hnodup
    exact hnodup.of_append_left
  holds := fun hstream=>(h.accounted hstream).reserved
  ingress := by
    intro stream hstream
    rw [(h.accounted hstream).ingress,length_map]
  ingressLight := by
    intro stream hstream
    rw [(h.accounted hstream).ingressLight,countP_map]
    rfl

/-- In every session each event that arrived was handed out once, waits once or went with the
session, the waiting ones are in order of arrival, and every call keeps it so. -/
theorem ingress_drains_once_in_order (c : Classes E C) {s : Session E C S V O} (h : Reachable c s) :
    (s.arrived.map WorldIngress.sequence).Nodup ∧
    (s.handed ++ (s.pending ++ s.receiver) ++ s.dropped).Perm s.arrived ∧
    (s.retired=false → s.dropped = []) ∧
    (s.pending ++ s.receiver).Sublist s.arrived ∧
    s.pending.length ≤ worldEventCapacity ∧ s.Reserves ∧
    ∀ now, ∃ out drain, s.drain.next c s.receiver s.pending s.stream now = .ok (out,drain) ∧ Calls c s now out :=
  ⟨h.ok.nodup,h.ok.once,h.ok.live,h.ok.order,h.ok.bound,h.ok.reserves,fun now => by
    obtain ⟨out,drain,hout,hcalls,-⟩ := h.ok.call c now
    exact ⟨out,drain,hout,hcalls⟩⟩

/-- With the light lane full of retained commits the event is retained, and reserves its entry. -/
theorem ingress_drains_once_in_order_retained :
    ∃ s : Session Unit Unit Unit Unit Unit, s.pending = [.event 0 1 ()] ∧ s.Reserves := by
  let c : Classes Unit Unit := ⟨fun _ _ => {},fun _=>false,fun _=>false,id⟩
  let stream : WorldStream Unit Unit Unit Unit := ⟨.new 1,maxAdmittedWorldEvents,[],0,⟨0,0,0⟩⟩
  have hframe := (((Reachable.new (c := c)).step (.bootstrap stream rfl rfl rfl)).step
    (.arrive (.event 0 1 ()) rfl rfl)).step (.frame 1)
  have hnext := hframe.step (.next (fun _=>0) rfl)
  exact ⟨_,rfl,(ingress_drains_once_in_order c hnext).2.2.2.2.2.1⟩

end Session

end Cinnabar.Ingest
