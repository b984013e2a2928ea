import Cinnabar.Stream.Ingress

/-! # Repeated passes pop every recorded job -/

namespace Cinnabar.Stream

open List

variable {P V D : Type} {L : ℕ} [Ord D]

/-- The candidate names `key` at `revision`. -/
def Names (key : SubChunkKey) (revision : ℕ) (candidate : PendingSchedulerCandidate D) : Prop :=
  candidate.key=key ∧ candidate.revision=revision

namespace Lane

def drainReady : ℕ → Lane D → List (PendingSchedulerCandidate D) × Lane D
  | 0, lane => ([],lane)
  | pops+1, lane =>
    match lane.pop false with
    | none => ([],lane)
    | some (candidate,rest) =>
      let out := drainReady pops rest
      (candidate::out.1,out.2)

lemma drainReady_spec (pops : ℕ) (lane : Lane D) : (∀ key r, lane.Holds key r →
      (∃ c ∈ (drainReady pops lane).1, Names key r c) ∨ (drainReady pops lane).2.Holds key r) ∧
    (drainReady pops lane).2.size + (drainReady pops lane).1.length=lane.size := by
  induction pops generalizing lane with
  | zero => exact ⟨fun key r h=>.inr h,rfl⟩
  | succ pops ih =>
    rw [drainReady]
    split
    next => exact ⟨fun key r h=>.inr h,rfl⟩
    next candidate rest hpop =>
      obtain ⟨hholds,hsize⟩ := ih rest
      refine ⟨fun key r h=>?_,?_⟩
      · rcases (holds_of_pop hpop).1 h with hnames | h
        · exact .inl ⟨candidate,.head _,hnames⟩
        · refine (hholds key r h).imp_left ?_
          rintro ⟨c,hc,hnames⟩
          exact ⟨c,.tail _ hc,hnames⟩
      · have := size_of_pop hpop
        simp only [length_cons]
        omega

/-- A ready queue with a candidate gives it up. -/
lemma drainReady_ne_nil {lane : Lane D} (h : 0<lane.ready.length) :
    0 < (drainReady lane.ready.length lane).1.length := by
  obtain ⟨pops,hpops⟩ := Nat.exists_eq_succ_of_ne_zero (Nat.pos_iff_ne_zero.1 h)
  rw [hpops,drainReady]
  split
  next hnone =>
    have := pop_eq_none.1 hnone
    rw [heap_false] at this
    omega
  next => exact Nat.succ_pos _

end Lane

namespace KeyedJobs

variable [PendingJob P] [Camera V D]

/-- What the caller of a pass chooses: the view, how much time there is and the routes. -/
structure PassInput (P V : Type) (L : ℕ) where
  view : SchedulerView V
  deadline : Deadline L
  route : Route P L

def pass (jobs : KeyedJobs P V D L) (input : PassInput P V L) :
    List (PendingSchedulerCandidate D) × KeyedJobs P V D L :=
  let entered := (jobs.ingress input.view input.deadline input.route).2
  let drained := fun lane=>Lane.drainReady (entered.lanes lane).ready.length (entered.lanes lane)
  ((List.finRange L).flatMap fun lane=>(drained lane).1, { entered with lanes := fun lane=>(drained lane).2 })

def afterPasses (jobs : KeyedJobs P V D L) (inputs : ℕ → PassInput P V L) : ℕ → KeyedJobs P V D L
  | 0 => jobs
  | n+1 => ((jobs.afterPasses inputs n).pass (inputs n)).2

/-- The candidates the `n`-th pass pops. -/
def popped (jobs : KeyedJobs P V D L) (inputs : ℕ → PassInput P V L) (n : ℕ) :
    List (PendingSchedulerCandidate D) :=
  ((jobs.afterPasses inputs n).pass (inputs n)).1

variable (jobs : KeyedJobs P V D L) (inputs : ℕ → PassInput P V L)

lemma pass_keeps (input : PassInput P V L) {key : SubChunkKey}
    {revision : ℕ} (hcur : isCurrent jobs.pending key revision=true)
    (hrec : jobs.Recorded key revision) :
    (∃ c ∈ (jobs.pass input).1, Names key revision c) ∨
      (jobs.pass input).2.Recorded key revision := by
  have hkept := (jobs.ingress_kept input.view input.deadline input.route).keeps hcur hrec
  rcases hkept with hs | hp | ⟨lane,hl⟩
  · exact .inr (.inl hs)
  · exact .inr (.inr (.inl hp))
  · rcases (Lane.drainReady_spec _ _).1 key revision hl with ⟨c,hc,hnames⟩ | hl
    · exact .inl ⟨c,mem_flatMap.2 ⟨lane,mem_finRange lane,hc⟩,hnames⟩
    · exact .inr (.inr (.inr ⟨lane,hl⟩))

lemma pass_records (input : PassInput P V L) : (jobs.pass input).2.records≤jobs.records-1 := by
  let entered := (jobs.ingress input.view input.deadline input.route).2
  let drained := fun lane=>(Lane.drainReady (entered.lanes lane).ready.length (entered.lanes lane)).2
  have hle : ∀ lane, (drained lane).size ≤ (entered.lanes lane).size := fun lane=>by
    have := (Lane.drainReady_spec (entered.lanes lane).ready.length (entered.lanes lane)).2
    simp only [drained]
    omega
  have hafter : (jobs.pass input).2.records=entered.scan.length+entered.startupScan.length +
      Lanes.size entered.refresh.previous+Lanes.size drained := rfl
  have hentered : entered.records=entered.scan.length+entered.startupScan.length +
      Lanes.size entered.refresh.previous+Lanes.size entered.lanes := rfl
  have hdrained : Lanes.size drained≤Lanes.size entered.lanes := Finset.sum_le_sum fun lane _=>hle lane
  have hkept : entered.records≤jobs.records := (jobs.ingress_kept input.view input.deadline input.route).size
  by_cases hrecords : 0<jobs.records
  · rcases jobs.ingress_progress input.view input.deadline input.route hrecords with
      hless | ⟨lane,hlane⟩
    · change entered.records<jobs.records at hless
      omega
    · have hpop := Lane.drainReady_ne_nil hlane
      have hsize := (Lane.drainReady_spec (entered.lanes lane).ready.length (entered.lanes lane)).2
      have hlt : Lanes.size drained<Lanes.size entered.lanes := by
        refine Finset.sum_lt_sum (fun lane _=>hle lane) ⟨lane,Finset.mem_univ lane,?_⟩
        simp only [drained]
        change 0 < (Lane.drainReady (entered.lanes lane).ready.length (entered.lanes lane)).1.length at hpop
        omega
      omega
  · omega

lemma afterPasses_pending (n : ℕ) : (jobs.afterPasses inputs n).pending=jobs.pending := by
  induction n with
  | zero => rfl
  | succ n ih =>
    exact ih

lemma afterPasses_records (n : ℕ) : (jobs.afterPasses inputs n).records≤jobs.records-n := by
  induction n with
  | zero => exact le_refl _
  | succ n ih =>
    have := (jobs.afterPasses inputs n).pass_records (inputs n)
    rw [afterPasses]
    omega

omit [Ord D] [PendingJob P] [Camera V D] in
lemma not_recorded_of_records {jobs : KeyedJobs P V D L} (h : jobs.records=0)
    (key : SubChunkKey) (revision : ℕ) : ¬jobs.Recorded key revision := by
  have hlanes : ∀ lanes : Fin L → Lane D, Lanes.size lanes=0 → ¬Lanes.Holds lanes key revision := by
    rintro lanes hsize ⟨lane,deferred,c,hc,-⟩
    have hlane : (lanes lane).size≠0 := by
      have := length_pos_of_mem hc
      rw [Lane.size_eq _ deferred,IndexedHeap.length]
      omega
    have := Lanes.size_pos lane hlane
    omega
  simp only [records] at h
  rintro ((hs | hs) | hp | hl)
  · have := length_pos_of_mem hs
    omega
  · have := length_pos_of_mem hs
    omega
  · exact hlanes _ (by omega) hp
  · exact hlanes _ (by omega) hl

/-- Whatever the views, the time and the routes, a recorded job is popped at its pending revision
within as many passes as there are records. -/
lemma exists_popped {key : SubChunkKey} {revision : ℕ} (hcur : isCurrent jobs.pending key revision=true)
    (hrec : jobs.Recorded key revision) :
    ∃ n<jobs.records, ∃ c ∈ jobs.popped inputs n, Names key revision c := by
  by_contra hnever
  push Not at hnever
  have hstill : ∀ n≤jobs.records, (jobs.afterPasses inputs n).Recorded key revision := by
    intro n hn
    induction n with
    | zero => exact hrec
    | succ n ih =>
      have hcur' : isCurrent (jobs.afterPasses inputs n).pending key revision=true := by
        rw [afterPasses_pending]
        exact hcur
      rcases pass_keeps _ (inputs n) hcur' (ih (by omega)) with ⟨c,hc,hnames⟩ | hleft
      · exact absurd hnames (hnever n (by omega) c hc)
      · exact hleft
  refine not_recorded_of_records ?_ key revision (hstill jobs.records (le_refl _))
  have := jobs.afterPasses_records inputs jobs.records
  omega

end KeyedJobs

end Cinnabar.Stream
