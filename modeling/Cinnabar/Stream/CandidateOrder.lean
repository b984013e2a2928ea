import Cinnabar.Stream.Candidates
import Cinnabar.Library.HeapOrder

/-! # The candidate queue as a priority map -/

namespace Cinnabar.Stream

open Std Function

/-- An `f32` by its bits, ordered as `total_cmp` does. -/
structure Distance where
  bits : BitVec 32

instance : Ord Distance where
  compare := compareOn fun distance : Distance =>
    (distance.bits ^^^ distance.bits.sshiftRight 31 >>> 1).toInt

instance : TransOrd Distance :=
  inferInstanceAs (TransCmp (compareOn _))

variable {D : Type} [Ord D]

open PendingSchedulerCandidate in
instance [TransOrd D] : TransOrd (PendingSchedulerCandidate D) := by
  have hclass : TransCmp fun a b : PendingSchedulerCandidate D=>compareOn startupClass b a := TransCmp.opposite
  have hdistance : TransCmp fun a b : PendingSchedulerCandidate D =>
      compareOn distanceSquared b a := TransCmp.opposite
  have hkey : TransCmp fun a b : PendingSchedulerCandidate D =>
      compareOn PendingSchedulerCandidate.key b a := TransCmp.opposite
  have hrevision : TransCmp fun a b : PendingSchedulerCandidate D=>compareOn revision b a := TransCmp.opposite
  exact inferInstanceAs (TransCmp (compareLex (compareOn transfer) <| compareLex (compareOn urgent) <|
    compareLex (fun a b=>compareOn startupClass b a) <|
    compareLex (fun a b=>compareOn distanceSquared b a) <|
    compareLex (fun a b=>compareOn PendingSchedulerCandidate.key b a) fun a b=>compareOn revision b a))

namespace CandidateQueue

/-- A key is ranked again by a push, and a queue built in bulk by `extend`. -/
inductive Op (D : Type) where
  | push (candidate : PendingSchedulerCandidate D)
  | extend (candidates : List (PendingSchedulerCandidate D))
  | remove (key : SubChunkKey)
  | pop
  | clear

def step (q : CandidateQueue D) : Op D → CandidateQueue D × Option (PendingSchedulerCandidate D)
  | .push candidate => (q.push candidate,none)
  | .extend candidates => (q.extend candidates,none)
  | .remove key => (q.erase key,(q.remove key).map Prod.fst)
  | .pop => (q.pop.elim q Prod.snd,q.pop.map Prod.fst)
  | .clear => (IndexedHeap.empty,none)

def run (ops : List (Op D)) : CandidateQueue D :=
  ops.foldl (fun q op=>(q.step op).1) IndexedHeap.empty

end CandidateQueue

/-- The candidate of each key that has one. -/
abbrev PriorityMap (D : Type) : Type := SubChunkKey → Option (PendingSchedulerCandidate D)

namespace PriorityMap

variable (m : PriorityMap D)

/-- Pushing replaces rank and revision, and keeps the urgency of an equal revision. -/
def push (candidate : PendingSchedulerCandidate D) : PriorityMap D :=
  update m candidate.key <| some <|
    match m candidate.key with
    | some queued =>
      if queued.revision=candidate.revision then
        { candidate with urgent := candidate.urgent || queued.urgent }
      else candidate
    | none => candidate

/-- What an operation answers, and the map it leaves. -/
def Moves : CandidateQueue.Op D → Option (PendingSchedulerCandidate D) → PriorityMap D → Prop
  | .push candidate,answer,m' => answer=none ∧ m'=m.push candidate
  | .extend candidates,answer,m' => answer=none ∧ m'=candidates.foldl push m
  | .remove key,answer,m' => answer=m key ∧ m'=update m key none
  | .pop,none,m' => (∀ key, m key=none) ∧ m'=m
  | .pop,some best,m' => m best.key=some best ∧ (∀ key other, m key=some other → (compare best other).isGE=true) ∧
      m'=update m best.key none
  | .clear,answer,m' => answer=none ∧ m' = fun _=>none

end PriorityMap

namespace CandidateQueue

open IndexedHeap

variable {q : CandidateQueue D}

lemma get_push (candidate : PendingSchedulerCandidate D) : (q.push candidate).get=PriorityMap.push q.get candidate := by
  unfold push PriorityMap.push
  rw [get_put,key_merged,merged]
  cases q.get candidate.key <;> rfl

lemma get_extend (candidates : List (PendingSchedulerCandidate D)) :
    (q.extend candidates).get=candidates.foldl PriorityMap.push q.get := by
  induction candidates generalizing q with
  | nil => rfl
  | cons candidate rest ih => exact (ih (q := q.push candidate)).trans (by rw [get_push]; rfl)

lemma empty_ordered : (IndexedHeap.empty : CandidateQueue D).Ordered :=
  fun _ _=>leads_of_none rfl

variable [TransOrd D]

lemma extend_ordered (h : q.Ordered) (candidates : List (PendingSchedulerCandidate D)) :
    (q.extend candidates).Ordered := by
  induction candidates generalizing q with
  | nil => exact h
  | cons candidate rest ih => exact ih (put_ordered h _)

lemma step_ordered (h : q.Ordered) (op : Op D) : (q.step op).1.Ordered := by
  cases op with
  | push candidate => exact put_ordered h _
  | extend candidates => exact extend_ordered h candidates
  | remove key =>
    change (q.erase key).Ordered
    unfold erase
    cases hremove : q.remove key with
    | none => exact h
    | some next => exact remove_ordered h hremove
  | pop =>
    change (q.pop.elim q Prod.snd).Ordered
    cases hpop : q.pop with
    | none => exact h
    | some next => exact pop_ordered h hpop
  | clear => exact empty_ordered

lemma run_ordered (ops : List (Op D)) : (run ops).Ordered :=
  List.foldlRecOn ops _ empty_ordered fun _ h op _=>step_ordered h op

lemma step_moves (h : q.Ordered) (op : Op D) : PriorityMap.Moves q.get op (q.step op).2 (q.step op).1.get := by
  cases op with
  | push candidate => exact ⟨rfl,get_push candidate⟩
  | extend candidates => exact ⟨rfl,get_extend candidates⟩
  | remove key => exact ⟨remove_fst key,get_without fun _=>mem_erase⟩
  | pop =>
    unfold step
    cases hpop : q.pop with
    | none =>
      exact ⟨fun key=>get_eq_none.2 fun a ha=>absurd ha (pop_eq_none.1 hpop a),rfl⟩
    | some next =>
      obtain ⟨hpeek,hleft,-⟩ := pop_spec hpop
      refine ⟨get_eq_some.2 ⟨mem_of_pop hpop,rfl⟩,fun key other hother=>?_,get_without hleft⟩
      exact h.peek_leads hpeek (get_eq_some.1 hother).1
  | clear => exact ⟨rfl,rfl⟩

omit [Ord D] [TransOrd D] in
lemma keys_nodup : (q.heap.map PendingSchedulerCandidate.key).Nodup := by
  refine List.nodup_iff_injective_get.2 fun i j hij=>?_
  simp only [List.get_eq_getElem,List.getElem_map] at hij
  refine Fin.ext (place_unique q.indexed ?_ ?_ hij) <;> exact List.getElem?_eq_getElem _

/-- Whatever was done to it, the queue is an indexed heap in order that holds a priority map, and
its operations are the map's. -/
theorem refines_map (ops : List (Op Distance)) : (∀ key i, (run ops).positions key=some i ↔
      ∃ candidate, (run ops).heap[i]? = some candidate ∧ candidate.key=key) ∧
    (run ops).Ordered ∧ ((run ops).heap.map PendingSchedulerCandidate.key).Nodup ∧
    (∀ key candidate, (run ops).get key=some candidate ↔ candidate ∈ (run ops).heap ∧ candidate.key=key) ∧
    ∀ op, PriorityMap.Moves (run ops).get op ((run ops).step op).2 ((run ops).step op).1.get :=
  ⟨(run ops).indexed,run_ordered ops,keys_nodup,fun _ _=>get_eq_some,step_moves (run_ordered ops)⟩

/-- After any history, popping until nothing is left gives every candidate once, none after one it
outranks. -/
theorem drains_by_rank (ops : List (Op Distance)) :
    (popAll (run ops) (run ops).heap.length).Pairwise (fun a b=>(compare a b).isGE=true) ∧
      (popAll (run ops) (run ops).heap.length).Perm (run ops).heap := by
  obtain ⟨hpairs,hmem⟩ := popAll_spec (run_ordered ops) rfl
  refine ⟨hpairs.imp And.left,?_⟩
  exact (List.perm_ext_iff_of_nodup (hpairs.imp And.right) (keys_nodup.of_map _)).2 hmem

end CandidateQueue

end Cinnabar.Stream
