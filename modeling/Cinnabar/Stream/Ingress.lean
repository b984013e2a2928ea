import Cinnabar.Stream.KeyedJobs

/-! # What an ingress keeps -/

namespace Cinnabar.Stream

open List Function

variable {P V D : Type} {L : ℕ} [PendingJob P]

variable {scan : List ScanRecord}

lemma mem_retainFirst {c : Currency} {seen : List SubChunkKey}
    {key : SubChunkKey} {revision : ℕ} (hlive : c.isCurrent key revision=true)
    (hmem : (key,revision) ∈ scan) (hseen : key ∉ seen) :
    (key,revision) ∈ retainFirst c.isCurrent seen scan := by
  induction scan generalizing seen with
  | nil => exact absurd hmem not_mem_nil
  | cons record rest ih =>
    rw [retainFirst]
    split_ifs with hkeep
    · rw [Bool.and_eq_true,decide_eq_true_eq] at hkeep
      by_cases hkey : record.1=key
      · have hrev : record.2=revision := by
          have hrecord := hkeep.1
          rw [hkey] at hrecord
          exact c.unique hrecord hlive
        have hrecord : record = (key,revision) := Prod.ext hkey hrev
        rw [hrecord]
        exact .head _
      · have hrest : (key,revision) ∈ rest := by
          rcases mem_cons.1 hmem with h | h
          · exact absurd (by rw [← h]) hkey
          · exact h
        refine .tail _ (ih hrest ?_)
        rw [mem_cons,not_or]
        exact ⟨fun h=>hkey h.symm,hseen⟩
    · rcases mem_cons.1 hmem with h | h
      · rw [← h] at hkeep
        simp [hlive,hseen] at hkeep
      · exact ih h hseen

lemma length_retainFirst_le (isLive : SubChunkKey → ℕ → Bool) (seen : List SubChunkKey)
    (scan : List ScanRecord) : (retainFirst isLive seen scan).length ≤ scan.length := by
  induction scan generalizing seen with
  | nil => exact le_refl _
  | cons record rest ih =>
    rw [retainFirst]
    split_ifs
    · exact Nat.succ_le_succ (ih _)
    · exact (ih seen).trans (Nat.le_succ _)

lemma mem_compactSchedulerScan {c : Currency} (liveLen : ℕ)
    {key : SubChunkKey} {revision : ℕ} (hlive : c.isCurrent key revision=true)
    (hmem : (key,revision) ∈ scan) :
    (key,revision) ∈ compactSchedulerScan scan liveLen c.isCurrent := by
  unfold compactSchedulerScan
  split_ifs
  · exact hmem
  · exact mem_retainFirst hlive hmem not_mem_nil

lemma length_compactSchedulerScan_le (scan : List ScanRecord) (liveLen : ℕ) (isLive : SubChunkKey → ℕ → Bool) :
    (compactSchedulerScan scan liveLen isLive).length ≤ scan.length := by
  unfold compactSchedulerScan
  split_ifs
  · exact le_refl _
  · exact length_retainFirst_le isLive [] scan

namespace KeyedJobs

variable {pending : PendingMap P} (jobs : KeyedJobs P V D L) (view : SchedulerView V)

lemma mem_skipStale {scan : List ScanRecord} {key : SubChunkKey}
    {revision : ℕ} (hlive : isCurrent pending key revision=true)
    (hmem : (key,revision) ∈ scan) : (key,revision) ∈ skipStale pending scan := by
  unfold skipStale
  induction scan with
  | nil => exact hmem
  | cons record rest ih =>
    rw [dropWhile_cons]
    split_ifs with hstale
    · rcases mem_cons.1 hmem with h | h
      · rw [← h] at hstale
        simp [hlive] at hstale
      · exact ih h
    · exact hmem

lemma length_skipStale_le (pending : PendingMap P) (scan : List ScanRecord) :
    (skipStale pending scan).length ≤ scan.length :=
  (dropWhile_suffix _).length_le

namespace Ingress

/-- The scan lists hold `key` at `revision`. -/
def Scanned (state : Ingress D L) (key : SubChunkKey) (revision : ℕ) : Prop :=
  (key,revision) ∈ state.scan ∨ (key,revision) ∈ state.startupScan

def size (state : Ingress D L) : ℕ :=
  state.scan.length+state.startupScan.length+Lanes.size state.lanes

end Ingress

/-- Taking a record leaves the others and the lanes. -/
lemma nextRecord_spec {state rest : Ingress D L} {record : ScanRecord}
    (h : nextRecord pending state=some (record,rest)) :
    rest.lanes=state.lanes ∧ rest.size+1 ≤ state.size ∧ ∀ key r, isCurrent pending key r=true → state.Scanned key r →
        (key,r) = record ∨ rest.Scanned key r := by
  have hskip := length_skipStale_le pending state.scan
  have hkeep : ∀ key r, isCurrent pending key r=true → state.Scanned key r →
      (key,r) ∈ skipStale pending state.scan ∨ (key,r) ∈ state.startupScan :=
    fun key r hc hs=>hs.imp_left (mem_skipStale hc)
  rw [nextRecord] at h
  split_ifs at h with htake
  · cases hscan : skipStale pending state.scan with
    | nil =>
      rw [hscan] at h
      cases h
    | cons first others =>
      rw [hscan] at h hskip hkeep
      cases h
      refine ⟨rfl,?_,fun key r hc hs=>?_⟩
      · simp only [Ingress.size,length_cons] at hskip ⊢
        omega
      · rcases hkeep key r hc hs with hmem | hmem
        · exact (mem_cons.1 hmem).imp_right .inl
        · exact .inr (.inr hmem)
  · cases hstartup : state.startupScan with
    | nil =>
      rw [hstartup] at h
      cases h
    | cons first others =>
      rw [hstartup] at h hkeep
      cases h
      refine ⟨rfl,?_,fun key r hc hs=>?_⟩
      · simp only [Ingress.size,hstartup,length_cons]
        omega
      · rcases hkeep key r hc hs with hmem | hmem
        · exact .inr (.inl hmem)
        · exact (mem_cons.1 hmem).imp_right .inr

lemma nextRecord_eq_none {state : Ingress D L} (h : nextRecord pending state=none) :
    skipStale pending state.scan = [] ∧ state.startupScan = [] := by
  rw [nextRecord] at h
  split_ifs at h with htake
  · cases hscan : skipStale pending state.scan with
    | nil =>
      simpa [takesScan,hscan] using htake
    | cons first others =>
      rw [hscan] at h
      cases h
  · cases hstartup : state.startupScan with
    | nil => simp [takesScan,hstartup] at htake
    | cons first others =>
      rw [hstartup] at h
      cases h

/-- What a round of the scan loop keeps. -/
structure Ingressed (pending : PendingMap P) (state state' : Ingress D L) : Prop where
  keeps : ∀ {key r}, isCurrent pending key r=true → state.Scanned key r ∨ Lanes.Holds state.lanes key r →
      state'.Scanned key r ∨ Lanes.Holds state'.lanes key r
  stays : ∀ {key r}, isCurrent pending key r=true → Lanes.Holds state.lanes key r → Lanes.Holds state'.lanes key r
  only : ∀ {key r}, Lanes.Holds state'.lanes key r → Lanes.Holds state.lanes key r ∨ isCurrent pending key r=true
  size : state'.size ≤ state.size
  queued : 0<Lanes.size state.lanes → 0<Lanes.size state'.lanes

namespace Ingressed

variable {pending : PendingMap P} {state state' state'' : Ingress D L}

lemma refl (pending : PendingMap P) (state : Ingress D L) : Ingressed pending state state :=
  ⟨fun _ h=>h,fun _ h=>h,.inl,le_refl _,id⟩

lemma trans (h₁ : Ingressed pending state state') (h₂ : Ingressed pending state' state'') :
    Ingressed pending state state'' where
  keeps := fun hc h=>h₂.keeps hc (h₁.keeps hc h)
  stays := fun hc h=>h₂.stays hc (h₁.stays hc h)
  only := fun h=>by
    rcases h₂.only h with h | hc
    · exact h₁.only h
    · exact .inr hc
  size := h₂.size.trans h₁.size
  queued := h₂.queued∘h₁.queued

variable {rest : Ingress D L} {record : ScanRecord}

lemma skipped (pending : PendingMap P) (state : Ingress D L) :
    Ingressed pending state { state with scan := skipStale pending state.scan } where
  keeps := fun hc h=>h.imp_left fun hs=>hs.imp_left (mem_skipStale hc)
  stays := fun _ h=>h
  only := .inl
  size := by
    have := length_skipStale_le pending state.scan
    simp only [Ingress.size]
    omega
  queued := id

lemma dropped (h : nextRecord pending state=some (record,rest))
    (hstale : isCurrent pending record.1 record.2≠true) : Ingressed pending state rest := by
  obtain ⟨hlanes,hsize,hscanned⟩ := nextRecord_spec h
  constructor
  · rintro key r hc (hs | hl)
    · rcases hscanned key r hc hs with rfl | hs
      · exact absurd hc hstale
      · exact .inl hs
    · rw [hlanes]
      exact .inr hl
  · intro key r _ hl
    rw [hlanes]
    exact hl
  · intro key r hl
    rw [hlanes] at hl
    exact .inl hl
  · omega
  · rw [hlanes]
    exact id

lemma routed [Ord D] (h : nextRecord pending state=some (record,rest))
    {candidate : PendingSchedulerCandidate D} (hkey : candidate.key=record.1)
    (hrev : candidate.revision=record.2)
    (hcur : isCurrent pending record.1 record.2=true) (target : Fin L) (deferred : Bool) :
    Ingressed pending state
      { rest with
        lanes := update rest.lanes target
          ((rest.lanes target).push deferred candidate) } := by
  obtain ⟨hlanes,hsize,hscanned⟩ := nextRecord_spec h
  have hcur' : (currency pending).isCurrent candidate.key candidate.revision=true := by
    rw [hkey,hrev]
    exact hcur
  have hpush : Moves (currency pending) (Lanes.Holds rest.lanes) (Lanes.Holds
      (update rest.lanes target ((rest.lanes target).push deferred candidate))) :=
    Lanes.moves_update (Lane.moves_push_current (rest.lanes target) deferred hcur')
  rw [hlanes] at hpush
  constructor
  · rintro key r hc (hs | hl)
    · rcases hscanned key r hc hs with hrecord | hs
      · right
        have hk : candidate.key=key := by rw [hkey,← hrecord]
        have hr : candidate.revision=r := by rw [hrev,← hrecord]
        rw [Lanes.holds_update,← hk,← hr]
        exact .inl (Lane.holds_push_self _ _ candidate)
      · exact .inl hs
    · right
      rw [hlanes]
      exact hpush.keeps hc hl
  · intro key r hc hl
    rw [hlanes]
    exact hpush.keeps hc hl
  · intro key r hl
    rw [hlanes] at hl
    exact hpush.only hl
  · have := Lanes.size_update rest.lanes target ((rest.lanes target).push deferred candidate)
    have := Lane.size_push_le (rest.lanes target) deferred candidate
    simp only [Ingress.size] at hsize ⊢
    omega
  · intro _
    refine Lanes.size_pos target ?_
    simp only [update_self]
    exact Lane.size_push_ne_zero _ deferred candidate

end Ingressed

variable [Ord D] [Camera V D]

lemma filter_revision_eq_none {key : SubChunkKey} {revision : ℕ} :
    ((pending.lookup key).filter fun job=>PendingJob.revision job=revision) = none ↔
      isCurrent pending key revision≠true := by
  unfold isCurrent
  cases pending.lookup key with
  | none => simp
  | some job =>
    by_cases hr : PendingJob.revision job=revision <;> simp [hr]

lemma ingressLoop_ingressed (pending : PendingMap P) (view : SchedulerView V) (late : Clock)
    (route : Route P L) (rounds index : ℕ) (started : Bool) (state : Ingress D L) :
    Ingressed pending state
      (ingressLoop pending view late route rounds index started state) := by
  induction rounds generalizing index started state with
  | zero => exact Ingressed.refl pending state
  | succ rounds ih =>
    rw [ingressLoop]
    split_ifs with hlate
    · exact Ingressed.refl pending state
    · split
      next => exact Ingressed.skipped pending state
      next key revision rest hnext =>
        split
        next hnone =>
          exact (Ingressed.dropped hnext (filter_revision_eq_none.1 hnone)).trans (ih _ _ rest)
        next job hjob =>
          have hcur : isCurrent pending key revision=true := by
            by_contra hstale
            rw [filter_revision_eq_none.2 hstale] at hjob
            cases hjob
          exact (Ingressed.routed hnext (PendingSchedulerCandidate.key_new _ _ _ _)
            (PendingSchedulerCandidate.revision_new _ _ _ _) hcur _ _).trans (ih _ _ _)

/-- A first round leaves fewer records, or a candidate in a lane. -/
lemma ingressLoop_progress (pending : PendingMap P) (view : SchedulerView V) (late : Clock)
    (route : Route P L) (rounds : ℕ) (state : Ingress D L) (hsize : 0 < state.size) :
    (ingressLoop pending view late route (rounds+1) 0 false state).size < state.size ∨
      0<Lanes.size (ingressLoop pending view late route (rounds+1) 0 false state).lanes := by
  by_cases hqueued : 0<Lanes.size state.lanes
  · exact .inr ((ingressLoop_ingressed pending view late route _ 0 false state).queued hqueued)
  · have hstart : (late 0 && (false || decide (maxPendingSchedulerScansPerPoll≤0))) = false := by
      simp [maxPendingSchedulerScansPerPoll]
    rw [ingressLoop,hstart]
    simp only [Bool.false_eq_true,if_false]
    split
    next hnone =>
      obtain ⟨hscan,hstartup⟩ := nextRecord_eq_none hnone
      simp only [Ingress.size,hscan,hstartup,length_nil] at hsize ⊢
      omega
    next key revision rest hnext =>
      obtain ⟨hlanes,hless,-⟩ := nextRecord_spec hnext
      split
      next hnone =>
        have := (ingressLoop_ingressed pending view late route rounds (0+1) false rest).size
        omega
      next job hjob =>
        right
        refine (ingressLoop_ingressed pending view late route rounds (0+1) true _).queued ?_
        refine Lanes.size_pos (route 0 key revision job).1 ?_
        simp only [update_self]
        exact Lane.size_push_ne_zero _ _ _

omit [Camera V D] in
lemma settleLanes_apply (isCurrent : SubChunkKey → ℕ → Bool) (late : Fin L → Clock)
    (startup : Bool) (order : List (Fin L)) (budget : ℕ) (lanes : Fin L → Lane D)
    (hnodup : order.Nodup) (lane : Fin L) :
    (lane ∉ order → settleLanes isCurrent late startup order budget lanes lane=lanes lane) ∧
      (lane ∈ order → ∃ left, settleLanes isCurrent late startup order budget lanes lane =
        (Lane.settle isCurrent (late lane) startup left (lanes lane)).1) := by
  induction order generalizing budget lanes with
  | nil => exact ⟨fun _=>rfl,fun h=>absurd h not_mem_nil⟩
  | cons first rest ih =>
    obtain ⟨hfirst,hrest⟩ := nodup_cons.1 hnodup
    rw [settleLanes]
    have hih := ih (Lane.settle isCurrent (late first) startup budget (lanes first)).2 (update lanes first
        (Lane.settle isCurrent (late first) startup budget (lanes first)).1) hrest
    by_cases hlane : lane=first
    · subst hlane
      refine ⟨fun h=>absurd (.head _) h,fun _=>⟨budget,?_⟩⟩
      rw [hih.1 hfirst,update_self]
    · rw [update_of_ne hlane] at hih
      refine ⟨fun h=>hih.1 fun hr=>h (.tail _ hr),fun h=>hih.2 ?_⟩
      exact (mem_cons.1 h).resolve_left hlane

variable (currency : Currency)

lemma settleLanes_settled (late : Fin L → Clock) (startup : Bool) (budget : ℕ) (lanes : Fin L → Lane D) (lane : Fin L) :
    Lane.Settled currency (lanes lane)
      (settleLanes currency.isCurrent late startup (List.finRange L) budget lanes lane) := by
  obtain ⟨left,hleft⟩ := (settleLanes_apply currency.isCurrent late startup (List.finRange L)
    budget lanes (nodup_finRange L) lane).2 (mem_finRange lane)
  rw [hleft]
  exact Lane.settle_settled currency (late lane) startup left (lanes lane)

lemma settleLanes_moves (late : Fin L → Clock) (startup : Bool) (budget : ℕ) (lanes : Fin L → Lane D) :
    Moves currency (Lanes.Holds lanes) (Lanes.Holds
      (settleLanes currency.isCurrent late startup (List.finRange L) budget lanes)) := by
  have h := settleLanes_settled currency late startup budget lanes
  constructor
  · rintro key r hc ⟨lane,hl⟩
    exact ⟨lane,(h lane).moves.keeps hc hl⟩
  · rintro key r ⟨lane,hl⟩
    exact ((h lane).moves.only hl).imp_left fun hb=>⟨lane,hb⟩

omit [PendingJob P] [Ord D] [Camera V D] in
/-- A lane of either generation holds `key` at `revision`. -/
def Queued (jobs : KeyedJobs P V D L) : SubChunkKey → ℕ → Prop :=
  SchedulerRefresh.Both jobs.refresh.previous jobs.lanes

/-- A later pass visits a record of `key` at `revision`: it is in a scan list, in a lane or in
the refresh in progress. -/
def Recorded (jobs : KeyedJobs P V D L) (key : SubChunkKey) (revision : ℕ) : Prop :=
  ((key,revision) ∈ jobs.scan ∨ (key,revision) ∈ jobs.startupScan) ∨ jobs.Queued key revision

/-- How many records later passes have to visit. -/
def records (jobs : KeyedJobs P V D L) : ℕ :=
  jobs.scan.length+jobs.startupScan.length+Lanes.size jobs.refresh.previous+Lanes.size jobs.lanes

/-- What scheduling work keeps of the jobs. -/
structure Kept (jobs jobs' : KeyedJobs P V D L) : Prop where
  pending : jobs'.pending=jobs.pending
  keeps : ∀ {key r}, isCurrent jobs.pending key r=true → jobs.Recorded key r → jobs'.Recorded key r
  only : ∀ {key r}, jobs'.Queued key r → jobs.Queued key r ∨ isCurrent jobs.pending key r=true
  size : jobs'.records≤jobs.records

section

variable (self : SchedulerRefresh V D L)

lemma refresh_refreshed (view : SchedulerView V) (queues : Fin L → Lane D) (late : Clock) :
    SchedulerRefresh.Refreshed currency self.previous queues
        (self.refresh view queues late currency.isCurrent).1.previous
        (self.refresh view queues late currency.isCurrent).2.1 ∨
      SchedulerRefresh.Refreshed currency queues self.previous
        (self.refresh view queues late currency.isCurrent).1.previous
        (self.refresh view queues late currency.isCurrent).2.1 := by
  unfold SchedulerRefresh.refresh
  dsimp only
  split_ifs
  · exact .inr (SchedulerRefresh.refreshLoop_refreshed currency view late _ false _ _)
  · exact .inl (SchedulerRefresh.refreshLoop_refreshed currency view late _ false _ _)

/-- The refresh, whichever way it swapped the generations. -/
lemma refresh_spec (view : SchedulerView V) (queues : Fin L → Lane D) (late : Clock) :
    let out := self.refresh view queues late currency.isCurrent
    Moves currency (SchedulerRefresh.Both self.previous queues) (SchedulerRefresh.Both out.1.previous out.2.1) ∧
      Lanes.size out.1.previous+Lanes.size out.2.1 ≤
        Lanes.size self.previous+Lanes.size queues := by
  rcases refresh_refreshed currency self view queues late with h | h
  · exact ⟨h.moves,h.size⟩
  · refine ⟨(Moves.of_iff fun key r=>or_comm).trans h.moves,?_⟩
    rw [Nat.add_comm (Lanes.size self.previous)]
    exact h.size

lemma refresh_progress (view : SchedulerView V) (queues : Fin L → Lane D) (late : Clock)
    (hsize : 0<Lanes.size self.previous+Lanes.size queues) :
    let out := self.refresh view queues late currency.isCurrent
    Lanes.size out.1.previous+Lanes.size out.2.1 <
        Lanes.size self.previous+Lanes.size queues ∨ 0<Lanes.size out.2.1 := by
  unfold SchedulerRefresh.refresh
  dsimp only
  split_ifs
  · have h := SchedulerRefresh.refreshLoop_progress currency view late 127 queues self.previous (by omega)
    rw [Nat.add_comm (Lanes.size self.previous)]
    exact h
  · exact SchedulerRefresh.refreshLoop_progress currency view late 127 self.previous queues hsize

end

def ingressStart (jobs : KeyedJobs P V D L) (view : SchedulerView V) (late : Clock) :
    Ingress D L where
  scan := compactSchedulerScan jobs.scan jobs.pending.keys.card (isCurrent jobs.pending)
  startupScan := compactSchedulerScan jobs.startupScan jobs.pending.keys.card (isCurrent jobs.pending)
  lanes := (jobs.refresh.refresh view jobs.lanes late (isCurrent jobs.pending)).2.1

/-- The scan lists and lanes at the end of its loop. -/
def ingressEnd (jobs : KeyedJobs P V D L) (view : SchedulerView V) (deadline : Deadline L)
    (route : Route P L) : Ingress D L :=
  let start := jobs.ingressStart view deadline.refresh
  ingressLoop jobs.pending view deadline.scan route
    (min (start.scan.length+start.startupScan.length) maxPendingMeshQueueWorkPerPoll) 0 false
    start

variable (deadline : Deadline L)

lemma ingress_eq (route : Route P L) : (jobs.ingress view deadline route).2 =
      { jobs with
        scan := (jobs.ingressEnd view deadline route).scan
        startupScan := (jobs.ingressEnd view deadline route).startupScan
        refresh := (jobs.refresh.refresh view jobs.lanes deadline.refresh (isCurrent jobs.pending)).1
        lanes := settleLanes (isCurrent jobs.pending) deadline.lane view.startupCenter.isSome
          (List.finRange L) maxPendingSchedulerScansPerPoll
          (jobs.ingressEnd view deadline route).lanes } := rfl

lemma length_ingressStart_le (late : Clock) :
    (jobs.ingressStart view late).scan.length + (jobs.ingressStart view late).startupScan.length ≤
      jobs.scan.length+jobs.startupScan.length :=
  Nat.add_le_add (length_compactSchedulerScan_le _ _ _) (length_compactSchedulerScan_le _ _ _)

/-- An ingress loses no record of a pending revision and queues no other. -/
lemma ingress_kept (route : Route P L) : Kept jobs (jobs.ingress view deadline route).2 := by
  obtain ⟨hrefresh,hsize⟩ := refresh_spec (currency jobs.pending) jobs.refresh view jobs.lanes deadline.refresh
  have hloop : Ingressed jobs.pending (jobs.ingressStart view deadline.refresh) (jobs.ingressEnd view deadline route) :=
    ingressLoop_ingressed jobs.pending view deadline.scan route _ 0 false _
  have hsettle := settleLanes_moves (currency jobs.pending) deadline.lane
    view.startupCenter.isSome maxPendingSchedulerScansPerPoll
    (jobs.ingressEnd view deadline route).lanes
  rw [ingress_eq]
  constructor
  · rfl
  · intro key r hc hrec
    have hstart : ((jobs.ingressStart view deadline.refresh).Scanned key r ∨
        Lanes.Holds (jobs.ingressStart view deadline.refresh).lanes key r) ∨
          Lanes.Holds (jobs.refresh.refresh view jobs.lanes deadline.refresh
            (isCurrent jobs.pending)).1.previous key r := by
      rcases hrec with (hs | hs) | hq
      · exact .inl (.inl (.inl (mem_compactSchedulerScan (c := currency jobs.pending) _ hc hs)))
      · exact .inl (.inl (.inr (mem_compactSchedulerScan (c := currency jobs.pending) _ hc hs)))
      · rcases hrefresh.keeps hc hq with hp | hl
        · exact .inr hp
        · exact .inl (.inr hl)
    rcases hstart with hstart | hp
    · rcases hloop.keeps hc hstart with hs | hl
      · exact .inl hs
      · exact .inr (.inr (hsettle.keeps hc hl))
    · exact .inr (.inl hp)
  · rintro key r (hp | hl)
    · exact hrefresh.only (.inl hp)
    · rcases hsettle.only hl with hl | hc
      · rcases hloop.only hl with hl | hc
        · exact hrefresh.only (.inr hl)
        · exact .inr hc
      · exact .inr hc
  · have hle : Lanes.size (settleLanes (isCurrent jobs.pending) deadline.lane
        view.startupCenter.isSome (List.finRange L) maxPendingSchedulerScansPerPoll
        (jobs.ingressEnd view deadline route).lanes) ≤
        Lanes.size (jobs.ingressEnd view deadline route).lanes :=
      Finset.sum_le_sum fun lane _ =>
        (settleLanes_settled (currency jobs.pending) deadline.lane _ _ _ lane).size
    have hscans := jobs.length_ingressStart_le view deadline.refresh
    have hshrunk : (jobs.ingressEnd view deadline route).scan.length +
        (jobs.ingressEnd view deadline route).startupScan.length +
        Lanes.size (jobs.ingressEnd view deadline route).lanes ≤
        (jobs.ingressStart view deadline.refresh).scan.length +
        (jobs.ingressStart view deadline.refresh).startupScan.length +
        Lanes.size (jobs.refresh.refresh view jobs.lanes deadline.refresh (isCurrent jobs.pending)).2.1 := hloop.size
    simp only [currency] at hsize
    simp only [records]
    omega

/-- An ingress that finds a record sheds one or leaves a lane with ready work. -/
lemma ingress_progress (route : Route P L) (hrecords : 0<jobs.records) :
    (jobs.ingress view deadline route).2.records<jobs.records ∨
      ∃ lane, 0 < ((jobs.ingress view deadline route).2.lanes lane).ready.length := by
  have hsettle := settleLanes_settled (currency jobs.pending) deadline.lane
    view.startupCenter.isSome maxPendingSchedulerScansPerPoll
    (jobs.ingressEnd view deadline route).lanes
  -- A candidate in a lane before the lanes settle is enough.
  suffices h : (jobs.ingress view deadline route).2.records<jobs.records ∨
      0<Lanes.size (jobs.ingressEnd view deadline route).lanes by
    refine h.imp_right fun hlanes=>?_
    obtain ⟨lane,hlane⟩ := Lanes.exists_of_size_pos hlanes
    exact ⟨lane,(hsettle lane).ready hlane⟩
  have hloop : Ingressed jobs.pending (jobs.ingressStart view deadline.refresh) (jobs.ingressEnd view deadline route) :=
    ingressLoop_ingressed jobs.pending view deadline.scan route _ 0 false _
  have hle : Lanes.size (settleLanes (isCurrent jobs.pending) deadline.lane
      view.startupCenter.isSome (List.finRange L) maxPendingSchedulerScansPerPoll
      (jobs.ingressEnd view deadline route).lanes) ≤
      Lanes.size (jobs.ingressEnd view deadline route).lanes :=
    Finset.sum_le_sum fun lane _=>(hsettle lane).size
  have hscans := jobs.length_ingressStart_le view deadline.refresh
  have hrefresh := (refresh_spec (currency jobs.pending) jobs.refresh view jobs.lanes deadline.refresh).2
  have hshrunk := hloop.size
  by_cases hqueued : 0<Lanes.size jobs.refresh.previous+Lanes.size jobs.lanes
  · rcases refresh_progress (currency jobs.pending) jobs.refresh view jobs.lanes
      deadline.refresh hqueued with hless | hlanes
    · rw [ingress_eq]
      simp only [currency] at hless
      simp only [Ingress.size,ingressStart] at hshrunk hscans
      simp only [records]
      omega
    · exact .inr (hloop.queued hlanes)
  · simp only [currency] at hrefresh
    simp only [Ingress.size] at hshrunk
    have hlanes : (jobs.ingressStart view deadline.refresh).lanes =
        (jobs.refresh.refresh view jobs.lanes deadline.refresh (isCurrent jobs.pending)).2.1 := rfl
    rw [hlanes] at hshrunk
    have hless : ∀ state : Ingress D L, jobs.ingressEnd view deadline route=state →
        state.size<jobs.records → (jobs.ingress view deadline route).2.records<jobs.records := by
      rintro state rfl hlt
      rw [ingress_eq]
      simp only [Ingress.size] at hlt
      simp only [records] at hlt ⊢
      omega
    by_cases hstart : 0 < (jobs.ingressStart view deadline.refresh).size
    · have hrounds : ∃ rounds, min ((jobs.ingressStart view deadline.refresh).scan.length +
          (jobs.ingressStart view deadline.refresh).startupScan.length)
          maxPendingMeshQueueWorkPerPoll=rounds+1 := by
        refine Nat.exists_eq_succ_of_ne_zero ?_
        simp only [Ingress.size,hlanes] at hstart
        simp only [maxPendingMeshQueueWorkPerPoll]
        omega
      obtain ⟨rounds,hrounds⟩ := hrounds
      have hprogress := ingressLoop_progress jobs.pending view deadline.scan route rounds
        (jobs.ingressStart view deadline.refresh) hstart
      rw [← hrounds] at hprogress
      rcases hprogress with hlt | hlanes
      · left
        refine hless _ rfl (hlt.trans_le ?_)
        simp only [Ingress.size,hlanes,records]
        omega
      · exact .inr hlanes
    · left
      refine hless _ rfl ?_
      simp only [Ingress.size,hlanes] at hstart ⊢
      omega

end KeyedJobs

end Cinnabar.Stream
