import Cinnabar.Keys
import Cinnabar.Library.IndexedHeap

/-! # Scheduler candidates and their queue -/

namespace Cinnabar.Stream

/-- The floating-point side of a camera `V`: how it ranks sections by distances `D`, the
sub-chunk it is in and whether it turned far enough to stale the ranks of an earlier view. -/
class Camera (V : Type) (D : outParam Type) where
  rank : V → SubChunkKey → D
  cell : V → ℤ × ℤ × ℤ
  turned : V → V → Bool

/-- `cohort::STARTUP_RADIUS` -/
def startupRadius : ℕ := 1

structure SchedulerView (V : Type) where
  camera : V
  startupCenter : Option ChunkKey

variable {V D : Type}

/-- 0 for the spawn columns, 1 for their light halo, 2 for everything else. -/
def SchedulerView.startupClass (view : SchedulerView V) (key : SubChunkKey) : ℕ :=
  match view.startupCenter.filter fun center=>center.dimension=key.dimension with
  | none => 2
  | some center =>
    let distance := max (key.x-center.x).natAbs (key.z-center.z).natAbs
    if distance ≤ startupRadius then 0 else if distance ≤ startupRadius+1 then 1 else 2

/-- Whether ranks queued under `previous` are stale. -/
def SchedulerView.reranksFrom [Camera V D] (view previous : SchedulerView V) : Bool :=
  Camera.cell view.camera≠Camera.cell previous.camera ||
    view.startupCenter≠previous.startupCenter || Camera.turned view.camera previous.camera

structure PendingSchedulerCandidate (D : Type) where
  distanceSquared : D
  startupClass : ℕ
  key : SubChunkKey
  revision : ℕ
  urgent : Bool
  transfer : Bool
deriving DecidableEq

instance [Ord D] : Ord (PendingSchedulerCandidate D) where
  compare a b := (compare a.transfer b.transfer).then <| (compare a.urgent b.urgent).then <|
    (compare b.startupClass a.startupClass).then <|
    (compare b.distanceSquared a.distanceSquared).then <|
    (compare b.key a.key).then <| compare b.revision a.revision

namespace PendingSchedulerCandidate

variable [Camera V D] (key : SubChunkKey)

def new (revision : ℕ) (view : SchedulerView V) (urgent : Bool) :
    PendingSchedulerCandidate D where
  distanceSquared := Camera.rank view.camera key
  startupClass := view.startupClass key
  key := key
  revision := revision
  urgent := urgent
  transfer := false

variable (candidate : PendingSchedulerCandidate D)

def refreshRank (view : SchedulerView V) :
    PendingSchedulerCandidate D :=
  { candidate with
    distanceSquared := Camera.rank view.camera candidate.key
    startupClass := view.startupClass candidate.key }

@[simp] lemma key_new (revision : ℕ) (view : SchedulerView V)
    (urgent : Bool) : (new key revision view urgent).key=key := rfl

@[simp] lemma revision_new (revision : ℕ) (view : SchedulerView V)
    (urgent : Bool) : (new key revision view urgent).revision=revision := rfl

end PendingSchedulerCandidate

abbrev CandidateQueue (D : Type) :=
  IndexedHeap (α := PendingSchedulerCandidate D) PendingSchedulerCandidate.key

namespace CandidateQueue

/-- The queue holds `key` at `revision`. -/
def Holds (q : CandidateQueue D) (key : SubChunkKey) (revision : ℕ) : Prop :=
  ∃ candidate ∈ q, candidate.key=key ∧ candidate.revision=revision

lemma one_per_key {q : CandidateQueue D} {a b : PendingSchedulerCandidate D} (ha : a ∈ q)
    (hb : b ∈ q) (hk : a.key=b.key) : a=b :=
  IndexedHeap.mem_unique ha hb hk

@[simp] lemma not_holds_empty (key : SubChunkKey) (revision : ℕ) :
    ¬Holds (IndexedHeap.empty : CandidateQueue D) key revision := by
  rintro ⟨candidate,hc,-⟩
  exact IndexedHeap.not_mem_empty candidate hc

variable [Ord D]

/-- What `push` stores: the candidate with the urgency its revision already earned. -/
def merged (q : CandidateQueue D) (candidate : PendingSchedulerCandidate D) :
    PendingSchedulerCandidate D :=
  match q.get candidate.key with
  | none => candidate
  | some queued =>
    if queued.revision=candidate.revision then
      { candidate with urgent := candidate.urgent || queued.urgent }
    else candidate

/-- Replaces a key's rank, preserving urgency earned by the same revision. -/
def push (q : CandidateQueue D) (candidate : PendingSchedulerCandidate D) : CandidateQueue D :=
  q.put (merged q candidate)

def extend (q : CandidateQueue D) (candidates : List (PendingSchedulerCandidate D)) :
    CandidateQueue D :=
  candidates.foldl push q

omit [Ord D] in
@[simp] lemma key_merged (q : CandidateQueue D) (candidate : PendingSchedulerCandidate D) :
    (merged q candidate).key=candidate.key := by
  unfold merged
  split
  · rfl
  · split_ifs <;> rfl

omit [Ord D] in
@[simp] lemma revision_merged (q : CandidateQueue D) (candidate : PendingSchedulerCandidate D) :
    (merged q candidate).revision=candidate.revision := by
  unfold merged
  split
  · rfl
  · split_ifs <;> rfl

variable {candidate : PendingSchedulerCandidate D} {revision : ℕ}

lemma holds_push {q : CandidateQueue D} {key : SubChunkKey} : (push q candidate).Holds key revision ↔
      (candidate.key=key ∧ candidate.revision=revision) ∨
        (candidate.key≠key ∧ Holds q key revision) := by
  constructor
  · rintro ⟨c,hc,rfl,rfl⟩
    rcases IndexedHeap.mem_put.1 hc with rfl | ⟨hq,hne⟩
    · exact .inl ⟨(key_merged q candidate).symm,(revision_merged q candidate).symm⟩
    · rw [key_merged] at hne
      exact .inr ⟨hne.symm,c,hq,rfl,rfl⟩
  · rintro (⟨rfl,rfl⟩ | ⟨hne,c,hc,rfl,rfl⟩)
    · exact ⟨_,IndexedHeap.mem_put.2 (.inl rfl),key_merged q candidate, revision_merged q candidate⟩
    · refine ⟨c,IndexedHeap.mem_put.2 (.inr ⟨hc,?_⟩),rfl,rfl⟩
      rw [key_merged]
      exact hne.symm

lemma holds_erase {q : CandidateQueue D} {key key' : SubChunkKey} :
    Holds (q.erase key') key revision ↔ key≠key' ∧ Holds q key revision := by
  constructor
  · rintro ⟨c,hc,rfl,rfl⟩
    obtain ⟨hq,hne⟩ := IndexedHeap.mem_erase.1 hc
    exact ⟨hne,c,hq,rfl,rfl⟩
  · rintro ⟨hne,c,hc,rfl,rfl⟩
    exact ⟨c,IndexedHeap.mem_erase.2 ⟨hc,hne⟩,rfl,rfl⟩

lemma holds_of_pop {q q' : CandidateQueue D} (h : q.pop=some (candidate,q')) {key : SubChunkKey} :
    Holds q key revision ↔
      (candidate.key=key ∧ candidate.revision=revision) ∨ q'.Holds key revision := by
  obtain ⟨-,hmem,-⟩ := IndexedHeap.pop_spec h
  constructor
  · rintro ⟨c,hc,rfl,rfl⟩
    by_cases hk : c.key=candidate.key
    · cases one_per_key hc (IndexedHeap.mem_of_pop h) hk
      exact .inl ⟨rfl,rfl⟩
    · exact .inr ⟨c,(hmem c).2 ⟨hc,hk⟩,rfl,rfl⟩
  · rintro (⟨rfl,rfl⟩ | ⟨c,hc,rfl,rfl⟩)
    · exact ⟨candidate,IndexedHeap.mem_of_pop h,rfl,rfl⟩
    · exact ⟨c,((hmem c).1 hc).1,rfl,rfl⟩

lemma length_push_le (q : CandidateQueue D) (candidate : PendingSchedulerCandidate D) :
    (push q candidate).length≤q.length+1 :=
  IndexedHeap.length_put_le q (merged q candidate)

end CandidateQueue

end Cinnabar.Stream
