import Cinnabar.Stream.Scheduler

/-! # No scheduled job is lost -/

namespace Cinnabar.Stream

/-- The pending fields the scheduler reads. -/
structure PendingLight where
  revision : ℕ
  urgent : Bool
deriving DecidableEq

structure PendingMesh where
  revision : ℕ
  urgent : Bool
deriving DecidableEq

instance : PendingJob PendingLight := ⟨false,PendingLight.revision,PendingLight.urgent⟩

instance : PendingJob PendingMesh := ⟨true,PendingMesh.revision,PendingMesh.urgent⟩

/-- A camera in the middle of a sub-chunk, without a view direction. -/
structure CellCamera where
  cell : ℤ × ℤ × ℤ

/-- Without a direction a section's rank is its squared distance, in blocks. -/
instance : Camera CellCamera ℤ where
  rank camera key :=
    256 * ((key.x-camera.cell.1) ^ 2 + (key.y-camera.cell.2.1) ^ 2 + (key.z-camera.cell.2.2) ^ 2)
  cell := CellCamera.cell
  turned _ _ := false

namespace System

variable {P V D : Type} {L : ℕ} [PendingJob P] [Ord D] [Camera V D]

def run (ops : List (Op P V D L)) : System P V D L := ops.foldl step new

/-- An operation without a precondition. -/
def Op.Free : Op P V D L → Prop
  | .revise _ _ => False
  | .push _ _ _ => False
  | _ => True

lemma reachable_run {ops : List (Op P V D L)} (hfree : ∀ op ∈ ops, Op.Free op) : Reachable (run ops) := by
  suffices h : ∀ s : System P V D L, Reachable s → Reachable (ops.foldl step s) from
    h new Reachable.new
  induction ops with
  | nil => exact fun s hs=>hs
  | cons op ops ih =>
    intro s hs
    have hop : s.Allowed op := by
      have := hfree op (.head _)
      cases op <;> first | exact trivial | exact this.elim
    exact ih (fun op hop=>hfree op (.tail _ hop)) _ (Reachable.step op hs hop)

/-- In every reachable state an owed key is recorded at its pending revision, no queue holds a key
twice or a pending key at another revision, compaction keeps every live record, and further passes
pop every owed key at its pending revision. -/
theorem scheduler_keeps_owed {s : System P V D L} (h : Reachable s) : (∀ key ∈ s.owed, ∃ revision,
      isCurrent s.jobs.pending key revision = true ∧ s.jobs.Recorded key revision) ∧
    (∀ lane deferred a b, a ∈ (s.jobs.lanes lane).heap deferred →
      b ∈ (s.jobs.lanes lane).heap deferred → a.key=b.key → a=b) ∧
    (∀ lane deferred a b, a ∈ (s.jobs.refresh.previous lane).heap deferred →
      b ∈ (s.jobs.refresh.previous lane).heap deferred → a.key=b.key → a=b) ∧
    (∀ key r r', s.jobs.Queued key r → isCurrent s.jobs.pending key r'=true → r=r') ∧
    (∀ key revision, isCurrent s.jobs.pending key revision = true →
      s.jobs.Recorded key revision → (s.step .compact).jobs.Recorded key revision) ∧
    ∀ (inputs : ℕ → KeyedJobs.PassInput P V L), ∀ key ∈ s.owed, ∃ n < s.jobs.records, ∃ c ∈ s.jobs.popped inputs n,
        c.key=key ∧ isCurrent s.jobs.pending key c.revision = true := by
  have hinv := h.invariant
  refine ⟨hinv.owed,?_,?_,fun key r r' => hinv.fresh,?_,?_⟩
  · intro lane deferred a b
    exact CandidateQueue.one_per_key
  · intro lane deferred a b
    exact CandidateQueue.one_per_key
  · intro key revision
    exact (compact_kept s.jobs s.jobs.pending.keys.card).keeps
  · intro inputs key hkey
    obtain ⟨revision,hcur,hrec⟩ := hinv.owed key hkey
    obtain ⟨n,hn,c,hc,hk,hr⟩ := s.jobs.exists_popped inputs hcur hrec
    refine ⟨n,hn,c,hc,hk,?_⟩
    rw [hr]
    exact hcur

abbrev MeshOp := Op PendingMesh CellCamera ℤ 1

def originView : SchedulerView CellCamera := ⟨⟨0,0,0⟩,none⟩

def originKey : SubChunkKey := ⟨0,0,0,0⟩

def deferAll : MeshOp := .ingress originView (Deadline.unlimited 1) fun _ _ _ _=>(0,false)

def scannedTwice : List MeshOp :=
  [.enqueuePrioritized originKey ⟨1,false⟩ false,deferAll,.rescan originKey 1 true,deferAll]

lemma reachable_scannedTwice : Reachable (run scannedTwice) := by
  refine reachable_run fun op hop=>?_
  simp only [scannedTwice,List.mem_cons,List.not_mem_nil,or_false] at hop
  rcases hop with rfl | rfl | rfl | rfl <;> exact trivial

theorem scheduler_keeps_owed_scannedTwice : ∃ n < (run scannedTwice).jobs.records,
      ∃ c ∈ (run scannedTwice).jobs.popped (fun _=>⟨originView,Deadline.unlimited 1,fun _ _ _ _ => (0,false)⟩) n,
        c.key=originKey ∧ isCurrent (run scannedTwice).jobs.pending c.key c.revision = true := by
  obtain ⟨-,-,-,-,-,hpops⟩ := scheduler_keeps_owed reachable_scannedTwice
  have howed : originKey ∈ (run scannedTwice).owed := by decide +kernel
  obtain ⟨n,hn,c,hc,hk,hcur⟩ := hpops
    (fun _=>⟨originView,Deadline.unlimited 1,fun _ _ _ _ => (0,false)⟩) originKey howed
  exact ⟨n,hn,c,hc,hk,by rw [hk]; exact hcur⟩

lemma heap_scannedTwice :
    ((run scannedTwice).jobs.lanes 0).ready.heap.map (fun c=>(c.key,c.revision)) = [(originKey,1)] ∧
      ((run scannedTwice).jobs.lanes 0).deferred.heap.map (fun c=>(c.key,c.revision)) =
        [(originKey,1)] := by
  decide +kernel

omit [Ord D] in
lemma holds_of_heap {q : CandidateQueue D} {record : ScanRecord}
    (h : q.heap.map (fun c=>(c.key,c.revision)) = [record]) :
    CandidateQueue.Holds q record.1 record.2 := by
  have hmem : record ∈ q.heap.map fun c=>(c.key,c.revision) := by
    rw [h]
    exact List.mem_singleton_self record
  obtain ⟨c,hc,hrecord⟩ := List.mem_map.1 hmem
  subst hrecord
  exact ⟨c,hc,rfl,rfl⟩

/-- A lane can hold a key in both of its queues, and a job enqueued without a route has no record
until its caller queues it. -/
theorem lane_doubles_and_unrouted : (¬∀ s : System PendingMesh CellCamera ℤ 1, Reachable s → ∀ lane key r r',
      CandidateQueue.Holds (s.jobs.lanes lane).ready key r →
        ¬CandidateQueue.Holds (s.jobs.lanes lane).deferred key r') ∧
    ¬∀ s : System PendingMesh CellCamera ℤ 1, Reachable s → s.jobs.pending.keys.card ≠ 0 →
      0 < s.jobs.records := by
  constructor
  · intro hclaim
    exact hclaim _ reachable_scannedTwice 0 originKey 1 1 (holds_of_heap heap_scannedTwice.1)
      (holds_of_heap heap_scannedTwice.2)
  · intro hclaim
    have hreach : Reachable (run [(.enqueueUnrouted originKey ⟨1,false⟩ : MeshOp)]) := by
      refine reachable_run fun op hop => ?_
      rw [List.mem_singleton] at hop
      subst hop
      exact trivial
    have := hclaim _ hreach (by decide +kernel)
    revert this
    decide +kernel

end System

end Cinnabar.Stream
