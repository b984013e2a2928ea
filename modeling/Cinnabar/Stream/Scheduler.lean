import Cinnabar.Stream.Passes

/-! # The scheduler under every sequence of its operations -/

namespace Cinnabar.Stream

open List Function

variable {P V D : Type} {L : ℕ}

structure System (P V D : Type) (L : ℕ) where
  jobs : KeyedJobs P V D L
  /-- Candidates the running dispatch pass popped. -/
  hand : List (PendingSchedulerCandidate D)
  /-- Keys waiting to be popped at their pending revision. -/
  owed : Finset SubChunkKey

/-- What the streaming code does to the jobs. -/
inductive Op (P V D : Type) (L : ℕ) where
  | enqueueUnrouted (key : SubChunkKey) (job : P)
  | enqueuePrioritized (key : SubChunkKey) (job : P) (startup : Bool)
  | rescan (key : SubChunkKey) (revision : ℕ) (urgent : Bool)
  /-- Writes to the pending job in place, such as making it urgent. -/
  | revise (key : SubChunkKey) (job : P)
  | wakeLane (lane : Fin L) (view : SchedulerView V) (budget : ℕ) (late : Clock)
  | wakeNear (key : SubChunkKey)
  | requeueWoken (key : SubChunkKey)
  | takeWoken
  | refresh (view : SchedulerView V) (late : Clock)
  | prioritizeDeferred (lane : Fin L) (late : Clock) (budget : ℕ)
  | compact
  | ingress (view : SchedulerView V) (deadline : Deadline L) (route : KeyedJobs.Route P L)
  | pop (lane : Fin L) (deferred : Bool)
  /-- Puts a popped candidate back, deferring it or not, or offers a pending key directly. -/
  | push (lane : Fin L) (deferred : Bool) (candidate : PendingSchedulerCandidate D)
  | removePending (key : SubChunkKey)
  /-- `pending.remove` without the rest of `remove_pending`. -/
  | dropPending (key : SubChunkKey)
  | clearQueued

namespace System

def new : System P V D L := ⟨KeyedJobs.new,[],∅⟩

variable [PendingJob P] [Ord D] [Camera V D]

/-- Work between dispatch passes: no popped candidate is still in hand. -/
def between (jobs : KeyedJobs P V D L) (owed : Finset SubChunkKey) : System P V D L :=
  ⟨jobs,[],owed⟩

def step (s : System P V D L) : Op P V D L → System P V D L
  | .enqueueUnrouted key job => between (s.jobs.enqueueUnrouted key job) (s.owed.erase key)
  | .enqueuePrioritized key job startup =>
    between (s.jobs.enqueuePrioritized key job startup) (insert key s.owed)
  | .rescan key revision urgent =>
    { s with
      jobs := s.jobs.rescan key revision urgent
      owed := if isCurrent s.jobs.pending key revision then insert key s.owed else s.owed }
  | .revise key job => { s with jobs := { s.jobs with pending := s.jobs.pending.insert key job } }
  | .wakeLane lane view budget late => { s with jobs := s.jobs.wakeLane lane view budget late }
  | .wakeNear key =>
    { s with jobs := { s.jobs with refresh := s.jobs.refresh.wakeNear key } }
  | .requeueWoken key =>
    { s with jobs := { s.jobs with refresh := s.jobs.refresh.requeueWoken key } }
  | .takeWoken => { s with jobs := { s.jobs with refresh := s.jobs.refresh.takeWoken.2 } }
  | .refresh view late =>
    let out := s.jobs.refresh.refresh view s.jobs.lanes late (isCurrent s.jobs.pending)
    { s with jobs := { s.jobs with refresh := out.1, lanes := out.2.1 } }
  | .prioritizeDeferred lane late budget =>
    { s with
      jobs := { s.jobs with
        lanes := update s.jobs.lanes lane
          (Lane.prioritizeDeferred (isCurrent s.jobs.pending) late budget (s.jobs.lanes lane)).1 } }
  | .compact =>
    let compacted := fun scan =>
      compactSchedulerScan scan s.jobs.pending.keys.card (isCurrent s.jobs.pending)
    { s with
      jobs := { s.jobs with
        scan := compacted s.jobs.scan
        startupScan := compacted s.jobs.startupScan } }
  | .ingress view deadline route => { s with jobs := (s.jobs.ingress view deadline route).2 }
  | .pop lane deferred =>
    match (s.jobs.lanes lane).pop deferred with
    | none => s
    | some (candidate,rest) =>
      { jobs := { s.jobs with lanes := update s.jobs.lanes lane rest }
        hand := candidate::s.hand
        owed := if isCurrent s.jobs.pending candidate.key candidate.revision then
            s.owed.erase candidate.key
          else s.owed }
  | .push lane deferred candidate =>
    { s with
      jobs := { s.jobs with
        lanes := update s.jobs.lanes lane ((s.jobs.lanes lane).push deferred candidate) }
      owed := if isCurrent s.jobs.pending candidate.key candidate.revision then
          insert candidate.key s.owed
        else s.owed }
  | .removePending key => { s with jobs := (s.jobs.removePending key).2, owed := s.owed.erase key }
  | .dropPending key =>
    { s with
      jobs := { s.jobs with pending := s.jobs.pending.erase key }
      owed := s.owed.erase key }
  | .clearQueued => between s.jobs.clearQueued ∅

def Allowed (s : System P V D L) : Op P V D L → Prop
  | .revise key job => isCurrent s.jobs.pending key (PendingJob.revision job) = true
  | .push _ _ candidate =>
    candidate ∈ s.hand ∨ isCurrent s.jobs.pending candidate.key candidate.revision=true
  | _ => True

/-- The states runs of the operations reach. -/
inductive Reachable : System P V D L → Prop where
  | new : Reachable new
  | step {s : System P V D L} (op : Op P V D L) : Reachable s → s.Allowed op → Reachable (s.step op)

/-- What every reachable state keeps. -/
structure Invariant (s : System P V D L) : Prop where
  /-- An owed key has a record at its pending revision. -/
  owed : ∀ key ∈ s.owed, ∃ revision, isCurrent s.jobs.pending key revision=true ∧ s.jobs.Recorded key revision
  /-- Lanes hold no stale revision of a pending key. -/
  fresh : ∀ {key r r'}, s.jobs.Queued key r → isCurrent s.jobs.pending key r'=true → r=r'
  hand : ∀ c ∈ s.hand, ∀ r, isCurrent s.jobs.pending c.key r=true → c.revision=r

variable {s : System P V D L}

omit [Ord D] [Camera V D] in
lemma Invariant.of_kept (h : Invariant s) {jobs : KeyedJobs P V D L}
    (hk : KeyedJobs.Kept s.jobs jobs) : Invariant { s with jobs := jobs } := by
  constructor
  · intro key hkey
    obtain ⟨r,hc,hrec⟩ := h.owed key hkey
    refine ⟨r,?_,hk.keeps hc hrec⟩
    rw [hk.pending]
    exact hc
  · intro key r r' hq hc
    rw [hk.pending] at hc
    rcases hk.only hq with hq | hc'
    · exact h.fresh hq hc
    · exact (currency s.jobs.pending).unique hc' hc
  · intro c hc r hr
    rw [hk.pending] at hr
    exact h.hand c hc r hr

omit [Ord D] [Camera V D] in
lemma kept_of_moves {jobs : KeyedJobs P V D L} {lanes : Fin L → Lane D} {refresh : SchedulerRefresh V D L}
    (hmoves : Moves (currency jobs.pending) jobs.Queued (SchedulerRefresh.Both refresh.previous lanes))
    (hsize : Lanes.size refresh.previous+Lanes.size lanes≤Lanes.size jobs.refresh.previous+Lanes.size jobs.lanes) :
    KeyedJobs.Kept jobs { jobs with lanes := lanes, refresh := refresh } where
  pending := rfl
  keeps := fun hc hrec=>hrec.imp_right (hmoves.keeps hc)
  only := hmoves.only
  size := by
    simp only [KeyedJobs.records]
    omega

variable (pending : PendingMap P)

lemma wakeLoop_refreshed (view : SchedulerView V) (late : Clock) (rounds index : ℕ) (previous lane : Lane D) :
    let out := KeyedJobs.wakeLoop (isCurrent pending) view late rounds index previous lane
    Moves (currency pending) (fun key r=>previous.Holds key r ∨ lane.Holds key r)
        (fun key r=>out.1.Holds key r ∨ out.2.Holds key r) ∧
      out.1.size+out.2.size≤previous.size+lane.size := by
  induction rounds generalizing index previous lane with
  | zero => exact ⟨Moves.refl _ _,le_refl _⟩
  | succ rounds ih =>
    rw [KeyedJobs.wakeLoop]
    split_ifs with hlate
    · exact ⟨Moves.refl _ _,le_refl _⟩
    · split
      next => exact ⟨Moves.refl _ _,le_refl _⟩
      next candidate popped hpop =>
        have hpopped : ∃ deferred, previous.pop deferred=some (candidate,popped) := by
          rcases Option.or_eq_some_iff.1 hpop with hpop | ⟨-,hpop⟩
          · exact ⟨false,hpop⟩
          · exact ⟨true,hpop⟩
        obtain ⟨deferred,hpopped⟩ := hpopped
        have hless := Lane.size_of_pop hpopped
        split_ifs with hcur
        · obtain ⟨hmoves,hsize⟩ := ih (index+1) popped (lane.push false (candidate.refreshRank view))
          have hpush := Lane.size_push_le lane false (candidate.refreshRank view)
          refine ⟨Moves.trans ?_ hmoves,by omega⟩
          have hcur' : (currency pending).isCurrent (candidate.refreshRank view).key
              (candidate.refreshRank view).revision=true := hcur
          have hstay := Lane.moves_push_current lane false hcur'
          constructor
          · rintro key r hc (hb | hb)
            · rcases (Lane.holds_of_pop hpopped).1 hb with ⟨rfl,rfl⟩ | hb
              · exact .inr (Lane.holds_push_self lane false (candidate.refreshRank view))
              · exact .inl hb
            · exact .inr (hstay.keeps hc hb)
          · rintro key r (ha | ha)
            · exact .inl (.inl ((Lane.holds_of_pop hpopped).2 (.inr ha)))
            · exact (hstay.only ha).imp_left .inr
        · obtain ⟨hmoves,hsize⟩ := ih (index+1) popped lane
          refine ⟨Moves.trans ?_ hmoves,by omega⟩
          exact (@Lane.moves_pop_stale D _ (currency pending) _ _ _ _ hpopped hcur).or_right _

omit [PendingJob P] [Ord D] [Camera V D] in
lemma moves_update_both {c : Currency} {previous lanes : Fin L → Lane D} {lane : Fin L} {previous' lane' : Lane D}
    (h : Moves c (fun key r=>(previous lane).Holds key r ∨ (lanes lane).Holds key r)
      (fun key r=>previous'.Holds key r ∨ lane'.Holds key r)) :
    Moves c (SchedulerRefresh.Both previous lanes) (SchedulerRefresh.Both (update previous lane previous')
        (update lanes lane lane')) := by
  have hrest := h.or_right fun key r =>
    (∃ other, other≠lane ∧ (previous other).Holds key r) ∨ ∃ other, other≠lane ∧ (lanes other).Holds key r
  have hbefore : ∀ key r, SchedulerRefresh.Both previous lanes key r ↔
      ((previous lane).Holds key r ∨ (lanes lane).Holds key r) ∨ (∃ other, other≠lane ∧ (previous other).Holds key r) ∨
          ∃ other, other≠lane ∧ (lanes other).Holds key r := fun key r=>by
    unfold SchedulerRefresh.Both
    rw [Lanes.holds_iff_lane previous lane,Lanes.holds_iff_lane lanes lane]
    exact or_or_or_comm
  have hafter : ∀ key r, SchedulerRefresh.Both (update previous lane previous') (update lanes lane lane') key r ↔
      (previous'.Holds key r ∨ lane'.Holds key r) ∨ (∃ other, other≠lane ∧ (previous other).Holds key r) ∨
          ∃ other, other≠lane ∧ (lanes other).Holds key r := fun key r=>by
    unfold SchedulerRefresh.Both
    rw [Lanes.holds_update,Lanes.holds_update]
    exact or_or_or_comm
  constructor
  · intro key r hc hb
    exact (hafter key r).2 (hrest.keeps hc ((hbefore key r).1 hb))
  · intro key r ha
    exact (hrest.only ((hafter key r).1 ha)).imp_left (hbefore key r).2

lemma wakeLane_kept (jobs : KeyedJobs P V D L) (lane : Fin L) (view : SchedulerView V) (budget : ℕ) (late : Clock) :
    KeyedJobs.Kept jobs (jobs.wakeLane lane view budget late) := by
  obtain ⟨hmoves,hsize⟩ := wakeLoop_refreshed jobs.pending view late
    (min budget maxPendingSchedulerScansPerPoll) 0 (jobs.refresh.previous lane) (jobs.lanes lane)
  refine kept_of_moves (moves_update_both hmoves) ?_
  have := Lanes.size_update jobs.refresh.previous lane (KeyedJobs.wakeLoop (isCurrent jobs.pending) view late
      (min budget maxPendingSchedulerScansPerPoll) 0 (jobs.refresh.previous lane)
      (jobs.lanes lane)).1
  have := Lanes.size_update jobs.lanes lane (KeyedJobs.wakeLoop (isCurrent jobs.pending) view late
      (min budget maxPendingSchedulerScansPerPoll) 0 (jobs.refresh.previous lane)
      (jobs.lanes lane)).2
  dsimp only
  omega

lemma refresh_kept (jobs : KeyedJobs P V D L) (view : SchedulerView V) (late : Clock) : KeyedJobs.Kept jobs
      { jobs with
        refresh := (jobs.refresh.refresh view jobs.lanes late (isCurrent jobs.pending)).1
        lanes := (jobs.refresh.refresh view jobs.lanes late (isCurrent jobs.pending)).2.1 } := by
  obtain ⟨hmoves,hsize⟩ := KeyedJobs.refresh_spec (currency jobs.pending) jobs.refresh view jobs.lanes late
  exact kept_of_moves hmoves hsize

omit [Camera V D] in
lemma prioritizeDeferred_kept (jobs : KeyedJobs P V D L) (lane : Fin L) (late : Clock) (budget : ℕ) :
    KeyedJobs.Kept jobs
      { jobs with
        lanes := update jobs.lanes lane
          (Lane.prioritizeDeferred (isCurrent jobs.pending) late budget (jobs.lanes lane)).1 } := by
  obtain ⟨hmoves,hsize⟩ := Lane.prioritizeDeferred_moves (currency jobs.pending) late budget (jobs.lanes lane)
  have hlanes := Lanes.moves_update hmoves
  refine @kept_of_moves _ _ _ _ _ jobs _ jobs.refresh ?_ ?_
  · constructor
    · rintro key r hc (hp | hl)
      · exact .inl hp
      · exact .inr (hlanes.keeps hc hl)
    · rintro key r (hp | hl)
      · exact .inl (.inl hp)
      · exact (hlanes.only hl).imp_left .inr
  · have := Lanes.size_update jobs.lanes lane
      (Lane.prioritizeDeferred (isCurrent jobs.pending) late budget (jobs.lanes lane)).1
    change (Lane.prioritizeDeferred (isCurrent jobs.pending) late budget (jobs.lanes lane)).1.size≤_ at hsize
    omega

omit [Ord D] [Camera V D] in
lemma compact_kept (jobs : KeyedJobs P V D L) (liveLen : ℕ) : KeyedJobs.Kept jobs
      { jobs with
        scan := compactSchedulerScan jobs.scan liveLen (isCurrent jobs.pending)
        startupScan := compactSchedulerScan jobs.startupScan liveLen (isCurrent jobs.pending) } where
  pending := rfl
  keeps := by
    rintro key r hc ((hs | hs) | hq)
    · exact .inl (.inl (mem_compactSchedulerScan (c := currency jobs.pending) _ hc hs))
    · exact .inl (.inr (mem_compactSchedulerScan (c := currency jobs.pending) _ hc hs))
    · exact .inr hq
  only := .inl
  size := by
    have := length_compactSchedulerScan_le jobs.scan liveLen (isCurrent jobs.pending)
    have := length_compactSchedulerScan_le jobs.startupScan liveLen (isCurrent jobs.pending)
    simp only [KeyedJobs.records]
    omega

omit [PendingJob P] [Ord D] [Camera V D] in
lemma previous_requeueWoken (refresh : SchedulerRefresh V D L) (key : SubChunkKey) :
    (refresh.requeueWoken key).previous=refresh.previous := by
  unfold SchedulerRefresh.requeueWoken
  split_ifs <;> rfl

omit [PendingJob P] [Ord D] in
lemma previous_wakeNear (refresh : SchedulerRefresh V D L) (key : SubChunkKey) :
    (refresh.wakeNear key).previous=refresh.previous := by
  unfold SchedulerRefresh.wakeNear
  split_ifs
  · exact previous_requeueWoken refresh key
  · rfl

omit [Camera V D] [PendingJob P] in
variable {r : ℕ}

lemma queued_of_pop {jobs : KeyedJobs P V D L} {lane : Fin L} {deferred : Bool}
    {candidate : PendingSchedulerCandidate D} {rest : Lane D}
    (h : (jobs.lanes lane).pop deferred=some (candidate,rest)) {key : SubChunkKey} :
    jobs.Queued key r ↔ Names key r candidate ∨
      KeyedJobs.Queued { jobs with lanes := update jobs.lanes lane rest } key r := by
  unfold KeyedJobs.Queued SchedulerRefresh.Both
  rw [Lanes.holds_iff_lane jobs.lanes lane,Lane.holds_of_pop h,Lanes.holds_update]
  unfold Names
  tauto

lemma Invariant.pop (h : Invariant s) (lane : Fin L) (deferred : Bool) : Invariant (s.step (.pop lane deferred)) := by
  rw [step]
  cases hpop : (s.jobs.lanes lane).pop deferred with
  | none => exact h
  | some next =>
    dsimp only
    constructor
    · intro key hkey
      have howed : key ∈ s.owed := by
        split_ifs at hkey
        · exact Finset.mem_of_mem_erase hkey
        · exact hkey
      obtain ⟨r,hc,hrec⟩ := h.owed key howed
      refine ⟨r,hc,?_⟩
      rcases hrec with hs | hq
      · exact .inl hs
      · rcases (queued_of_pop hpop).1 hq with ⟨hk,hr⟩ | hq
        · -- The popped candidate was the record: the key is no longer owed.
          rw [hk,hr,if_pos hc] at hkey
          exact absurd rfl (Finset.ne_of_mem_erase hkey)
        · exact .inr hq
    · intro key r r' hq hc
      exact h.fresh ((queued_of_pop hpop).2 (.inr hq)) hc
    · intro c hc r hr
      rcases mem_cons.1 hc with rfl | hc
      · exact h.fresh ((queued_of_pop hpop).2 (.inl ⟨rfl,rfl⟩)) hr
      · exact h.hand c hc r hr

lemma Invariant.push (h : Invariant s) (lane : Fin L) (deferred : Bool) (candidate : PendingSchedulerCandidate D)
    (hcandidate : ∀ r, isCurrent s.jobs.pending candidate.key r=true → candidate.revision=r) :
    Invariant (s.step (.push lane deferred candidate)) := by
  have hself : Lanes.Holds (update s.jobs.lanes lane
      ((s.jobs.lanes lane).push deferred candidate)) candidate.key candidate.revision := by
    rw [Lanes.holds_update]
    exact .inl (Lane.holds_push_self _ _ candidate)
  constructor
  · intro key hkey
    have hcases : key=candidate.key ∧
        isCurrent s.jobs.pending candidate.key candidate.revision=true ∨ key ∈ s.owed := by
      simp only [step] at hkey
      split_ifs at hkey with hcur
      · rcases Finset.mem_insert.1 hkey with rfl | hkey
        · exact .inl ⟨rfl,hcur⟩
        · exact .inr hkey
      · exact .inr hkey
    rcases hcases with ⟨rfl,hcur⟩ | howed
    · exact ⟨candidate.revision,hcur,.inr (.inr hself)⟩
    · obtain ⟨r,hc,hrec⟩ := h.owed key howed
      refine ⟨r,hc,?_⟩
      rcases hrec with hs | hp | hl
      · exact .inl hs
      · exact .inr (.inl hp)
      · right
        right
        change Lanes.Holds (update s.jobs.lanes lane ((s.jobs.lanes lane).push deferred candidate)) key r
        rw [Lanes.holds_update]
        refine ((Lanes.holds_iff_lane s.jobs.lanes lane).1 hl).imp_left fun hl=>?_
        refine Lane.holds_push_of_holds hl fun hk=>?_
        exact hcandidate r (by rw [hk]; exact hc)
  · intro key r r' hq hc
    rcases hq with hp | hl
    · exact h.fresh (.inl hp) hc
    · change Lanes.Holds (update s.jobs.lanes lane ((s.jobs.lanes lane).push deferred candidate)) key r at hl
      rw [Lanes.holds_update] at hl
      rcases hl with hl | hl
      · rcases Lane.of_holds_push hl with ⟨rfl,rfl⟩ | hl
        · exact hcandidate r' hc
        · exact h.fresh (.inr ⟨lane,hl⟩) hc
      · obtain ⟨other,-,hl⟩ := hl
        exact h.fresh (.inr ⟨other,hl⟩) hc
  · exact h.hand

omit [PendingJob P] [Camera V D] in
lemma holds_retireLane {key key' : SubChunkKey} {lane : Lane D} :
    (KeyedJobs.retireLane key' lane).Holds key r ↔ key≠key' ∧ lane.Holds key r := by
  rw [Lane.holds_iff,Lane.holds_iff]
  simp only [KeyedJobs.retireLane,CandidateQueue.holds_erase]
  exact and_or_left.symm

omit [PendingJob P] [Camera V D] in
lemma queued_retire {jobs : KeyedJobs P V D L} {key key' : SubChunkKey} :
    (jobs.retireLaneOwnership key').Queued key r ↔ key≠key' ∧ jobs.Queued key r := by
  unfold KeyedJobs.Queued SchedulerRefresh.Both Lanes.Holds
  simp only [KeyedJobs.retireLaneOwnership,holds_retireLane,exists_and_left]
  exact and_or_left.symm

omit [Ord D] [Camera V D] in
lemma isCurrent_insert_self (key : SubChunkKey) (job : P) (r : ℕ) :
    isCurrent (pending.insert key job) key r=true ↔ PendingJob.revision job=r := by
  rw [isCurrent_iff,Finmap.lookup_insert]
  simp

omit [Ord D] [Camera V D] in
lemma isCurrent_insert_of_ne {key key' : SubChunkKey} (job : P) (h : key≠key') (r : ℕ) :
    isCurrent (pending.insert key' job) key r=isCurrent pending key r := by
  unfold isCurrent
  rw [Finmap.lookup_insert_of_ne _ h]

omit [Ord D] [Camera V D] in
lemma isCurrent_erase {key key' : SubChunkKey} :
    isCurrent (pending.erase key') key r=true ↔ key≠key' ∧ isCurrent pending key r=true := by
  unfold isCurrent
  by_cases h : key=key'
  · subst h
    rw [Finmap.lookup_erase]
    simp
  · rw [Finmap.lookup_erase_ne h]
    simp [h]

/-- What an enqueue or a removal does to the keys it is not about. -/
structure Apart (key : SubChunkKey) (jobs jobs' : KeyedJobs P V D L) : Prop where
  pending : ∀ {other r}, other≠key → (isCurrent jobs'.pending other r=true ↔ isCurrent jobs.pending other r=true)
  recorded : ∀ {other r}, other≠key → isCurrent jobs.pending other r=true →
    jobs.Recorded other r → jobs'.Recorded other r
  queued : ∀ {other r}, jobs'.Queued other r → jobs.Queued other r

omit [Ord D] [Camera V D] in
lemma Invariant.edit (h : Invariant s) {key : SubChunkKey} {jobs : KeyedJobs P V D L}
    {hand : List (PendingSchedulerCandidate D)} {owed : Finset SubChunkKey}
    (hapart : Apart key s.jobs jobs) (howed : ∀ other ∈ owed, other≠key → other ∈ s.owed)
    (hself : key ∈ owed → ∃ r, isCurrent jobs.pending key r=true ∧ jobs.Recorded key r)
    (hfresh : ∀ r r', jobs.Queued key r → isCurrent jobs.pending key r'=true → r=r')
    (hhand : ∀ c ∈ hand, c ∈ s.hand ∧ ∀ r, c.key=key → isCurrent jobs.pending key r=true → c.revision=r) :
    Invariant ⟨jobs,hand,owed⟩ := by
  constructor
  · intro other hother
    by_cases hk : other=key
    · subst hk
      exact hself hother
    · obtain ⟨r,hc,hrec⟩ := h.owed other (howed other hother hk)
      exact ⟨r,(hapart.pending hk).2 hc,hapart.recorded hk hc hrec⟩
  · intro other r r' hq hc
    by_cases hk : other=key
    · subst hk
      exact hfresh r r' hq hc
    · exact h.fresh (hapart.queued hq) ((hapart.pending hk).1 hc)
  · intro c hc r hr
    obtain ⟨hmem,hkey⟩ := hhand c hc
    by_cases hk : c.key=key
    · rw [hk] at hr
      exact hkey r hk hr
    · exact h.hand c hmem r ((hapart.pending hk).1 hr)

omit [Camera V D] in
lemma apart_enqueueUnrouted (jobs : KeyedJobs P V D L) (key : SubChunkKey) (job : P) :
    Apart key jobs (jobs.enqueueUnrouted key job) where
  pending := fun hk=>by
    rw [← isCurrent_insert_of_ne jobs.pending job hk]
    rfl
  recorded := fun hk _ hrec=>hrec.imp_right fun hq=>queued_retire.2 ⟨hk,hq⟩
  queued := fun hq=>(queued_retire.1 hq).2

lemma Invariant.enqueueUnrouted (h : Invariant s) (key : SubChunkKey) (job : P) :
    Invariant (s.step (.enqueueUnrouted key job)) := by
  refine h.edit (apart_enqueueUnrouted s.jobs key job) ?_ ?_ ?_ ?_
  · exact fun other hother _=>Finset.mem_of_mem_erase hother
  · exact fun hself=>absurd rfl (Finset.ne_of_mem_erase hself)
  · exact fun r r' hq _=>absurd rfl (queued_retire.1 hq).1
  · exact fun c hc=>absurd hc not_mem_nil

section EnqueuePrioritized

variable (jobs : KeyedJobs P V D L) (key : SubChunkKey) (job : P) (startup : Bool)

/-- The lanes `enqueue_prioritized` leaves: a changed revision retires the key's candidates. -/
def retiredIfChanged : KeyedJobs P V D L :=
  if (jobs.pending.lookup key).all fun previous =>
      PendingJob.revision previous≠PendingJob.revision job then
    jobs.retireLaneOwnership key
  else jobs

omit [Camera V D] in
lemma pending_enqueuePrioritized : (jobs.enqueuePrioritized key job startup).pending=jobs.pending.insert key job := by
  simp only [KeyedJobs.enqueuePrioritized]
  split_ifs <;> rfl

omit [Camera V D] in
lemma queued_enqueuePrioritized (other : SubChunkKey) (r : ℕ) :
    (jobs.enqueuePrioritized key job startup).Queued other r ↔
      (retiredIfChanged jobs key job).Queued other r := by
  simp only [KeyedJobs.enqueuePrioritized,retiredIfChanged]
  split_ifs <;> rfl

omit [Camera V D] in
/-- The scan lists keep what they had and gain the new revision. -/
lemma scanned_enqueuePrioritized (record : ScanRecord) : (record ∈ (jobs.enqueuePrioritized key job startup).scan ∨
        record ∈ (jobs.enqueuePrioritized key job startup).startupScan) ↔
      record = (key,PendingJob.revision job) ∨ record ∈ jobs.scan ∨ record ∈ jobs.startupScan := by
  have hscan : (retiredIfChanged jobs key job).scan=jobs.scan := by
    unfold retiredIfChanged
    split_ifs <;> rfl
  have hstartup : (retiredIfChanged jobs key job).startupScan=jobs.startupScan := by
    unfold retiredIfChanged
    split_ifs <;> rfl
  have hscan' : (jobs.enqueuePrioritized key job startup).scan =
      if startup && !PendingJob.urgent job then (retiredIfChanged jobs key job).scan
      else ((retiredIfChanged jobs key job).rescan key (PendingJob.revision job)
        (PendingJob.urgent job)).scan := by
    simp only [KeyedJobs.enqueuePrioritized,retiredIfChanged]
    split_ifs <;> rfl
  have hstartup' : (jobs.enqueuePrioritized key job startup).startupScan = if startup && !PendingJob.urgent job then
        (retiredIfChanged jobs key job).startupScan ++ [(key,PendingJob.revision job)]
      else (retiredIfChanged jobs key job).startupScan := by
    simp only [KeyedJobs.enqueuePrioritized,retiredIfChanged,KeyedJobs.rescan]
    split_ifs <;> rfl
  rw [hscan',hstartup',hstartup]
  simp only [KeyedJobs.rescan,hscan]
  split_ifs <;> simp only [mem_append,mem_cons,not_mem_nil,or_false] <;> tauto

omit [Camera V D] in
lemma of_queued_retiredIfChanged {other : SubChunkKey} {r : ℕ} (h : (retiredIfChanged jobs key job).Queued other r) :
    jobs.Queued other r ∧
      (other=key → isCurrent jobs.pending key (PendingJob.revision job) = true) := by
  unfold retiredIfChanged at h
  split_ifs at h with hchanged
  · obtain ⟨hne,hq⟩ := queued_retire.1 h
    exact ⟨hq,fun heq=>absurd heq hne⟩
  · refine ⟨h,fun _=>?_⟩
    rw [isCurrent]
    cases hlook : jobs.pending.lookup key with
    | none => simp [hlook] at hchanged
    | some previous => simpa [hlook] using hchanged

omit [Camera V D] in
lemma apart_enqueuePrioritized : Apart key jobs (jobs.enqueuePrioritized key job startup) where
  pending := fun hk=>by
    rw [pending_enqueuePrioritized,isCurrent_insert_of_ne jobs.pending job hk]
  recorded := by
    rintro other r hk - (hs | hq)
    · exact .inl ((scanned_enqueuePrioritized jobs key job startup _).2 (.inr hs))
    · right
      rw [queued_enqueuePrioritized]
      unfold retiredIfChanged
      split_ifs
      · exact queued_retire.2 ⟨hk,hq⟩
      · exact hq
  queued := fun hq =>
    (of_queued_retiredIfChanged jobs key job ((queued_enqueuePrioritized jobs key job startup _ _).1 hq)).1

end EnqueuePrioritized

lemma Invariant.enqueuePrioritized (h : Invariant s) (key : SubChunkKey) (job : P)
    (startup : Bool) : Invariant (s.step (.enqueuePrioritized key job startup)) := by
  refine h.edit (apart_enqueuePrioritized s.jobs key job startup) ?_ ?_ ?_ ?_
  · exact fun other hother hk=>(Finset.mem_insert.1 hother).resolve_left hk
  · intro _
    refine ⟨PendingJob.revision job,?_,.inl ?_⟩
    · rw [pending_enqueuePrioritized,isCurrent_insert_self]
    · exact (scanned_enqueuePrioritized s.jobs key job startup _).2 (.inl rfl)
  · intro r r' hq hc
    rw [pending_enqueuePrioritized,isCurrent_insert_self] at hc
    obtain ⟨hq,hcur⟩ := of_queued_retiredIfChanged s.jobs key job
      ((queued_enqueuePrioritized s.jobs key job startup _ _).1 hq)
    rw [← hc]
    exact h.fresh hq (hcur rfl)
  · exact fun c hc=>absurd hc not_mem_nil

lemma Invariant.rescan (h : Invariant s) (key : SubChunkKey) (revision : ℕ) (urgent : Bool) :
    Invariant (s.step (.rescan key revision urgent)) := by
  have hscan : ∀ record, record ∈ (s.jobs.rescan key revision urgent).scan ↔
      record = (key,revision) ∨ record ∈ s.jobs.scan := by
    intro record
    simp only [KeyedJobs.rescan]
    split_ifs
    · exact mem_cons
    · rw [mem_append,mem_singleton,or_comm]
  have hrec : ∀ {other r}, s.jobs.Recorded other r → (s.jobs.rescan key revision urgent).Recorded other r := by
    rintro other r ((hs | hs) | hq)
    · exact .inl (.inl ((hscan _).2 (.inr hs)))
    · exact .inl (.inr hs)
    · exact .inr hq
  constructor
  · intro other hother
    simp only [step] at hother
    have hcases : (other=key ∧ isCurrent s.jobs.pending key revision=true) ∨ other ∈ s.owed := by
      split_ifs at hother with hcur
      · exact (Finset.mem_insert.1 hother).imp_left fun hk=>⟨hk,hcur⟩
      · exact .inr hother
    rcases hcases with ⟨rfl,hcur⟩ | howed
    · exact ⟨revision,hcur,.inl (.inl ((hscan _).2 (.inl rfl)))⟩
    · obtain ⟨r,hc,hr⟩ := h.owed other howed
      exact ⟨r,hc,hrec hr⟩
  · exact h.fresh
  · exact h.hand

lemma Invariant.revise (h : Invariant s) {key : SubChunkKey} {job : P}
    (hcur : isCurrent s.jobs.pending key (PendingJob.revision job) = true) :
    Invariant (s.step (.revise key job)) := by
  have hsame : ∀ other r, isCurrent (s.jobs.pending.insert key job) other r=true ↔
      isCurrent s.jobs.pending other r=true := by
    intro other r
    by_cases hk : other=key
    · subst hk
      rw [isCurrent_insert_self]
      constructor
      · rintro rfl
        exact hcur
      · exact (currency s.jobs.pending).unique hcur
    · rw [isCurrent_insert_of_ne s.jobs.pending job hk]
  constructor
  · intro other hother
    obtain ⟨r,hc,hrec⟩ := h.owed other hother
    exact ⟨r,(hsame other r).2 hc,hrec⟩
  · exact fun hq hc=>h.fresh hq ((hsame _ _).1 hc)
  · exact fun c hc r hr=>h.hand c hc r ((hsame _ _).1 hr)

omit [Camera V D] in
lemma apart_removePending (jobs : KeyedJobs P V D L) (key : SubChunkKey) :
    Apart key jobs (jobs.removePending key).2 where
  pending := fun hk=>(isCurrent_erase jobs.pending).trans (and_iff_right hk)
  recorded := by
    rintro other r hk hc (hs | hq)
    · -- Another pending key keeps the scan lists from being cleared.
      have hrest : (jobs.pending.erase key).keys.card≠0 := by
        obtain ⟨job,hjob,-⟩ := isCurrent_iff.1 hc
        rw [Finset.card_ne_zero]
        refine ⟨other,?_⟩
        rw [Finmap.mem_keys,Finmap.mem_erase]
        exact ⟨hk,Finmap.mem_of_lookup_eq_some hjob⟩
      left
      change _ ∈ (if (jobs.pending.erase key).keys.card=0 then [] else jobs.scan) ∨
        _ ∈ (if (jobs.pending.erase key).keys.card=0 then [] else jobs.startupScan)
      rw [if_neg hrest,if_neg hrest]
      exact hs
    · exact .inr (queued_retire.2 ⟨hk,hq⟩)
  queued := fun hq=>(queued_retire.1 hq).2

lemma Invariant.removePending (h : Invariant s) (key : SubChunkKey) : Invariant (s.step (.removePending key)) := by
  refine h.edit (apart_removePending s.jobs key) ?_ ?_ ?_ ?_
  · exact fun other hother _=>Finset.mem_of_mem_erase hother
  · exact fun hself=>absurd rfl (Finset.ne_of_mem_erase hself)
  · exact fun r r' hq _=>absurd rfl (queued_retire.1 hq).1
  · refine fun c hc=>⟨hc,fun r _ hr=>?_⟩
    exact absurd rfl ((isCurrent_erase s.jobs.pending).1 hr).1

lemma Invariant.dropPending (h : Invariant s) (key : SubChunkKey) : Invariant (s.step (.dropPending key)) := by
  have hapart : Apart key s.jobs { s.jobs with pending := s.jobs.pending.erase key } :=
    { pending := fun hk=>(isCurrent_erase s.jobs.pending).trans (and_iff_right hk)
      recorded := fun _ _ hrec=>hrec
      queued := fun hq=>hq }
  refine h.edit hapart ?_ ?_ ?_ ?_
  · exact fun other hother _=>Finset.mem_of_mem_erase hother
  · exact fun hself=>absurd rfl (Finset.ne_of_mem_erase hself)
  · exact fun r r' _ hc=>absurd rfl ((isCurrent_erase s.jobs.pending).1 hc).1
  · refine fun c hc=>⟨hc,fun r _ hr=>?_⟩
    exact absurd rfl ((isCurrent_erase s.jobs.pending).1 hr).1

omit [PendingJob P] [Ord D] [Camera V D] in
lemma not_queued_of_cleared {jobs : KeyedJobs P V D L}
    (hprevious : ∀ lane, jobs.refresh.previous lane=KeyedJobs.clearLane (jobs.refresh.previous lane))
    (hlanes : ∀ lane, jobs.lanes lane=KeyedJobs.clearLane (jobs.lanes lane))
    (key : SubChunkKey) (r : ℕ) : ¬jobs.Queued key r := by
  have hclear : ∀ lane : Lane D, ¬(KeyedJobs.clearLane lane).Holds key r := by
    intro lane h
    rcases Lane.holds_iff.1 h with h | h <;> exact CandidateQueue.not_holds_empty key r h
  rintro (⟨lane,h⟩ | ⟨lane,h⟩)
  · rw [hprevious] at h
    exact hclear _ h
  · rw [hlanes] at h
    exact hclear _ h

lemma Invariant.step (h : Invariant s) {op : Op P V D L} (hop : s.Allowed op) : Invariant (s.step op) := by
  cases op with
  | enqueueUnrouted key job => exact h.enqueueUnrouted key job
  | enqueuePrioritized key job startup => exact h.enqueuePrioritized key job startup
  | rescan key revision urgent => exact h.rescan key revision urgent
  | revise key job => exact h.revise hop
  | wakeLane lane view budget late => exact h.of_kept (wakeLane_kept s.jobs lane view budget late)
  | wakeNear key =>
    refine h.of_kept (kept_of_moves ?_ ?_)
    · rw [previous_wakeNear]
      exact Moves.refl _ _
    · rw [previous_wakeNear]
  | requeueWoken key =>
    refine h.of_kept (kept_of_moves ?_ ?_)
    · rw [previous_requeueWoken]
      exact Moves.refl _ _
    · rw [previous_requeueWoken]
  | takeWoken => exact h.of_kept (kept_of_moves (Moves.refl _ _) (le_refl _))
  | refresh view late => exact h.of_kept (refresh_kept s.jobs view late)
  | prioritizeDeferred lane late budget =>
    exact h.of_kept (prioritizeDeferred_kept s.jobs lane late budget)
  | compact => exact h.of_kept (compact_kept s.jobs _)
  | ingress view deadline route => exact h.of_kept (s.jobs.ingress_kept view deadline route)
  | pop lane deferred => exact h.pop lane deferred
  | push lane deferred candidate =>
    refine h.push lane deferred candidate fun r hr=>?_
    rcases hop with hhand | hcur
    · exact h.hand candidate hhand r hr
    · exact (currency s.jobs.pending).unique hcur hr
  | removePending key => exact h.removePending key
  | dropPending key => exact h.dropPending key
  | clearQueued =>
    have hqueued := @not_queued_of_cleared _ _ _ _ s.jobs.clearQueued (fun _=>rfl) (fun _=>rfl)
    constructor
    · exact fun key hkey=>absurd hkey (Finset.notMem_empty key)
    · exact fun hq _=>absurd hq (hqueued _ _)
    · exact fun c hc=>absurd hc not_mem_nil

lemma Reachable.invariant (h : Reachable s) : Invariant s := by
  induction h with
  | new =>
    constructor
    · exact fun key hkey=>absurd hkey (Finset.notMem_empty key)
    · exact fun hq _=>absurd hq (not_queued_of_cleared (fun _=>rfl) (fun _=>rfl) _ _)
    · exact fun c hc=>absurd hc not_mem_nil
  | step op _ hop ih => exact ih.step hop

end System

end Cinnabar.Stream
