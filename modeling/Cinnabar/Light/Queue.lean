import Mathlib.Data.Nat.Bitwise
import Cinnabar.Light.Types
import Cinnabar.Library.Worklist

/-! # Increase queues -/

namespace Cinnabar.Light

open Function (update update_of_ne update_self)
open List

/-- Queued positions retain the dense index already checked for the current solve. -/
structure IncreaseEntry where
  position : BlockPos
  index : ℕ
  directSky : Bool

def pendingFlag : ℕ := 1
def directSkyFlag : ℕ := 2

/-- `flags |= PENDING | if direct_sky { DIRECT_SKY } else { 0 }` -/
def mergeFlags (flags : ℕ) (directSky : Bool) : ℕ :=
  flags ||| (pendingFlag ||| if directSky then directSkyFlag else 0)

lemma mergeFlags_ne_zero (v : ℕ) (d : Bool) : mergeFlags v d≠0 := by
  intro h
  have h0 := congrArg (Nat.testBit · 0) h
  simp [mergeFlags,pendingFlag] at h0

lemma mergeFlags_direct (v : ℕ) (d : Bool) :
    (mergeFlags v d &&& directSkyFlag != 0) = (v &&& directSkyFlag != 0 || d) := by
  have hbit : ∀ w : ℕ, (w &&& directSkyFlag != 0) = w.testBit 1 := by
    intro w
    have hw : w &&& directSkyFlag = (w.testBit 1).toNat*2 := Nat.and_two_pow w 1
    rw [hw]
    cases w.testBit 1 <;> rfl
  rw [hbit,hbit]
  have h1 : Nat.testBit 1 1=false := rfl
  have h3 : Nat.testBit 3 1=true := rfl
  cases d <;> simp [mergeFlags,pendingFlag,directSkyFlag,Nat.testBit_or,h1,h3]

/-- Pending increases merge their latest provenance before the cell visits its neighbours. -/
structure IncreaseQueue where
  entries : List (BlockPos × ℕ)
  pending : ℕ → ℕ
  size : ℕ
  size_le : size≤u32Max
  entries_lt : ∀ e ∈ entries, e.2 < size
  pending_iff : ∀ i, pending i≠0 ↔ i ∈ entries.map Prod.snd
  nodup : (entries.map Prod.snd).Nodup

/-- `enqueue_counted` -/
def enqueueCounted (total amount max : ℕ) : Except Halt ℕ :=
  let total := min (total+amount) usizeMax
  if total > max then .error (.error (.queueLimitExceeded max)) else .ok total

namespace IncreaseQueue

def empty : IncreaseQueue :=
  ⟨[],fun _=>0,0,Nat.zero_le _,by simp,by simp,by simp⟩

variable (q : IncreaseQueue)

def len : ℕ := q.entries.length

/-- The merged provenance of a queued cell. -/
def directAt (index : ℕ) : Bool := q.pending index &&& directSkyFlag != 0

/-- Releases membership before propagation so a later increase can revisit the cell. -/
def popFront : Option (IncreaseEntry × IncreaseQueue) :=
  match h : q.entries with
  | [] => none
  | (position,index) :: rest =>
    some (⟨position,index,q.directAt index⟩,
      { entries := rest
        pending := update q.pending index 0
        size := q.size
        size_le := q.size_le
        entries_lt := fun e he=>q.entries_lt e (by simp [h,he])
        pending_iff := fun i=>by
          have hi := q.pending_iff i
          have hn := q.nodup
          simp only [h,map_cons,mem_cons,nodup_cons] at hi hn
          by_cases he : i=index
          · subst he
            simpa using hn.1
          · rw [update_of_ne he,hi]
            simp [he]
        nodup := by
          have hn := q.nodup
          simp only [h,map_cons,nodup_cons] at hn
          exact hn.2 })

lemma popFront_eq_none {q : IncreaseQueue} : q.popFront=none ↔ q.entries = [] := by
  unfold popFront
  split <;> simp_all

lemma popFront_eq_some {q rest : IncreaseQueue} {entry : IncreaseEntry} (h : q.popFront=some (entry,rest)) :
    q.entries = (entry.position,entry.index) :: rest.entries ∧ entry.directSky=q.directAt entry.index ∧
      rest.pending=update q.pending entry.index 0 ∧ rest.size=q.size := by
  unfold popFront at h
  split at h
  · cases h
  · rename_i position index tail heq
    cases h
    exact ⟨heq,rfl,rfl,rfl⟩

/-- Discards unfinished work while leaving already drained membership slots untouched. -/
def clearFrom : ℕ → IncreaseQueue → IncreaseQueue
  | 0, q => q
  | n+1, q =>
    match q.popFront with
    | none => q
    | some (_,rest) => clearFrom n rest

def clear : IncreaseQueue := clearFrom q.len q

lemma clearFrom_entries (n : ℕ) (q : IncreaseQueue) (h : q.len≤n) : (clearFrom n q).entries = [] := by
  induction n generalizing q with
  | zero => exact eq_nil_of_length_eq_zero (Nat.le_zero.1 h)
  | succ n ih =>
    rw [clearFrom]
    cases hp : q.popFront with
    | none => exact popFront_eq_none.1 hp
    | some next =>
      obtain ⟨entry,rest⟩ := next
      have he := (popFront_eq_some hp).1
      refine ih rest ?_
      simp only [len,he,length_cons] at h
      exact Nat.le_of_succ_le_succ h

lemma clear_entries : q.clear.entries = [] :=
  clearFrom_entries _ _ le_rfl

def fresh (volume : ℕ) (h : volume≤u32Max) : IncreaseQueue :=
  ⟨[],fun _=>0,volume,h,by simp,by simp,by simp⟩

/-- Starts a bounded solve; `clear` leaves every flag unset, so `resize` only sets the length. -/
def reset (volume : ℕ) : Except Halt IncreaseQueue :=
  if h : volume≤u32Max then
    let cleared := q.clear
    .ok { cleared with
      size := volume
      size_le := h
      entries_lt := fun e he=>by simp [cleared,clear_entries] at he }
  else .error .panicked

lemma reset_eq {volume : ℕ} (h : volume≤u32Max) : q.reset volume = .ok (fresh volume h) := by
  have hentries := q.clear_entries
  have hpending : q.clear.pending = fun _=>0 := by
    funext i
    by_contra hi
    have := (q.clear.pending_iff i).1 hi
    simp [hentries] at this
  simp [reset,h,fresh,hentries,hpending]

lemma reset_of_lt {volume : ℕ} (h : u32Max<volume) : q.reset volume = .error .panicked := by
  simp [reset,Nat.not_le.2 h]

def append (entry : IncreaseEntry) (hi : entry.index<q.size)
    (hp : q.pending entry.index=0) : IncreaseQueue where
  entries := q.entries ++ [(entry.position,asU32 entry.index)]
  pending := update q.pending entry.index (mergeFlags (q.pending entry.index) entry.directSky)
  size := q.size
  size_le := q.size_le
  entries_lt e he := by
    rcases mem_append.1 he with he | he
    · exact q.entries_lt e he
    · rw [mem_singleton.1 he]
      exact (Nat.mod_le _ _).trans_lt hi
  pending_iff i := by
    have hmod := asU32_of_le (hi.le.trans q.size_le)
    by_cases he : i=entry.index
    · subst he
      rw [update_self]
      simp [hmod,mergeFlags_ne_zero]
    · rw [update_of_ne he,q.pending_iff]
      simp [hmod,he]
  nodup := by
    have hmod := asU32_of_le (hi.le.trans q.size_le)
    have hnot : entry.index ∉ q.entries.map Prod.snd := fun hm=>(q.pending_iff _).2 hm hp
    rw [map_append,nodup_append]
    refine ⟨q.nodup,by simp,?_⟩
    intro a ha c hc hac
    simp only [map_cons,map_nil,mem_singleton,hmod] at hc
    exact hnot (hc ▸ hac ▸ ha)

def merge (entry : IncreaseEntry) (hp : q.pending entry.index≠0) :
    IncreaseQueue :=
  { q with
    pending := update q.pending entry.index (mergeFlags (q.pending entry.index) entry.directSky)
    pending_iff := fun i=>by
      by_cases he : i=entry.index
      · subst he
        rw [update_self]
        exact iff_of_true (mergeFlags_ne_zero _ _) ((q.pending_iff _).1 hp)
      · rw [update_of_ne he,q.pending_iff] }

/-- Counts only new work; pending direct-sky upgrades merge without spending the queue budget. -/
def pushBack (entry : IncreaseEntry) (queuedTotal max : ℕ) :
    Except Halt (IncreaseQueue × ℕ) :=
  if hi : entry.index<q.size then
    if hp : q.pending entry.index=0 then do
      let queuedTotal ← enqueueCounted queuedTotal 1 max
      return (q.append entry hi hp,queuedTotal)
    else return (q.merge entry hp,queuedTotal)
  else .error .panicked

end IncreaseQueue

def Halt.Exceeds (limits : SolverLimits) (e : Halt) : Prop :=
  e.IsLimit ∧ limits.maxQueueEntries<usizeMax

lemma enqueueCounted_ensures {limits : SolverLimits} {total : ℕ} (amount : ℕ) :
    Ensures (Halt.Exceeds limits) (fun _=>True)
      (enqueueCounted total amount limits.maxQueueEntries) := by
  unfold enqueueCounted
  simp only
  split_ifs with h
  · exact ⟨trivial,by omega⟩
  · trivial

namespace IncreaseQueue

/-- What a successful push leaves: the cell is queued with its provenance merged in, and no other
cell changed. -/
structure Pushed (q : IncreaseQueue) (entry : IncreaseEntry) (q' : IncreaseQueue) : Prop where
  size : q'.size=q.size
  entries : q'.entries=q.entries ∧ q.pending entry.index≠0 ∨
    q'.entries=q.entries ++ [(entry.position,entry.index)] ∧ q.pending entry.index=0
  pending_ne : ∀ i, i≠entry.index → q'.pending i=q.pending i
  queued : q'.pending entry.index≠0
  direct : q'.directAt entry.index = (q.directAt entry.index || entry.directSky)

lemma pushBack_ensures {limits : SolverLimits} {q : IncreaseQueue} {entry : IncreaseEntry}
    {total : ℕ} (hi : entry.index<q.size) :
    Ensures (Halt.Exceeds limits) (fun r=>q.Pushed entry r.1)
      (q.pushBack entry total limits.maxQueueEntries) := by
  rw [pushBack,dif_pos hi]
  by_cases hp : q.pending entry.index=0
  · rw [dif_pos hp]
    refine Ensures.bind (enqueueCounted_ensures 1) fun total' _=>?_
    have hmod := asU32_of_le (hi.le.trans q.size_le)
    refine ⟨rfl,.inr ⟨by simp only [append,hmod],hp⟩,fun i hne=>?_,?_,?_⟩
    · exact update_of_ne hne _ _
    · rw [append]
      simp only [update_self]
      exact mergeFlags_ne_zero _ _
    · simp only [directAt,append,update_self,mergeFlags_direct]
  · rw [dif_neg hp]
    refine ⟨rfl,.inl ⟨rfl,hp⟩,fun i hne=>?_,?_,?_⟩
    · exact update_of_ne hne _ _
    · rw [merge]
      simp only [update_self]
      exact mergeFlags_ne_zero _ _
    · simp only [directAt,merge,update_self,mergeFlags_direct]

end IncreaseQueue

end Cinnabar.Light
