import Cinnabar.Light.Darken

/-! # Propagation -/

namespace Cinnabar.Light

open Function (update update_eq_self update_of_ne update_self)

open LightBounds Relaxation

namespace SolveInput

variable {input : SolveInput} {E : Halt → Prop}

def field (input : SolveInput) (o : MutableOutput) (direct : DensePositionSet) (cell : LightCell) :
    ℕ :=
  if input.scene.Inside cell.1 then
    if cell.2 = .sky ∧ direct.containsAtIndex (input.idx cell.1) = true then directRank
    else input.held o cell.1 cell.2
  else 0

/-- The dense buffers hold a sound field that covers every cell's own source. -/
structure FieldInv (input : SolveInput) (o : MutableOutput) (direct : DensePositionSet) :
    Prop where
  loaded : input.Loaded o
  shape : direct.Over input.bounds
  direct_inside : ∀ p, input.bounds.Contains p → direct.containsAtIndex (input.idx p) = true → input.scene.Inside p
  direct_level : ∀ p, input.scene.Inside p → direct.containsAtIndex (input.idx p) = true → input.held o p .sky=15
  sound : input.scene.system.Sound (input.field o direct)
  base_le : ∀ p, input.scene.Inside p → ∀ c, input.scene.baseRank p c ≤ input.field o direct (p,c)

/-- The queue holds known cells with their provenance, and every other cell is settled. `todo`
names the neighbours a popped cell has still to visit. -/
structure QueueInv (input : SolveInput) (c : LightChannel) (x : LightCell → ℕ)
    (todo : BlockPos → Fin 6 → Prop) (q : IncreaseQueue) : Prop where
  size : q.size=input.bounds.cells
  entries : ∀ e ∈ q.entries, input.scene.Inside e.1 ∧ e.2=input.idx e.1
  flag : ∀ p, input.scene.Inside p → q.pending (input.idx p) ≠ 0 →
    q.directAt (input.idx p) = decide (c = .sky ∧ x (p,c) = directRank)
  settled : ∀ p, input.scene.Inside p → q.pending (input.idx p) ≠ 0 ∨
    ∀ d, input.scene.Inside (p.step (neighbours d)) → todo p d ∨
      input.scene.carried c (opposite d) (input.scene.filterAt (p.step (neighbours d))) (x (p,c)) ≤
        x (p.step (neighbours d),c)

variable {p : BlockPos}

lemma field_of_inside {o : MutableOutput} {direct : DensePositionSet} (hp : input.scene.Inside p) (c : LightChannel) :
    input.field o direct (p,c) = if c = .sky ∧ direct.containsAtIndex (input.idx p) = true then directRank
      else input.held o p c := by
  simp only [field,hp,if_true]

namespace FieldInv

variable {o : MutableOutput} {direct : DensePositionSet}

section

variable (h : input.FieldInv o direct)
include h

lemma held_le (p : BlockPos) (c : LightChannel) : input.held o p c≤15 := h.loaded.le _ _

lemma field_le (cell : LightCell) : input.field o direct cell≤directRank := by
  have := h.held_le cell.1 cell.2
  unfold field directRank
  split_ifs <;> omega

/-- The level is the rank with the provenance forgotten. -/
lemma min_field {p : BlockPos} (hp : input.scene.Inside p)
    (c : LightChannel) : min (input.field o direct (p,c)) 15=input.held o p c := by
  rw [field_of_inside hp]
  split_ifs with hd
  · rw [hd.1,h.direct_level p hp hd.2]
    rfl
  · have := h.held_le p c
    omega

lemma field_eq_direct {p : BlockPos} (hp : input.scene.Inside p)
    (c : LightChannel) : input.field o direct (p,c) = directRank ↔
      c = .sky ∧ direct.containsAtIndex (input.idx p) = true := by
  rw [field_of_inside hp]
  split_ifs with hd
  · simp [hd]
  · have := h.held_le p c
    unfold directRank
    constructor
    · omega
    · exact fun h'=>absurd h' hd

end

end FieldInv

def candidateRank (candidate : ℕ) (isDirect : Bool) : ℕ := if isDirect then directRank else candidate

def raisedOutput (c : LightChannel) (st : Propagation) (index candidate : ℕ) : MutableOutput :=
  if candidate > st.output.getAtIndex index c then st.output.setAtIndex index c candidate
  else st.output

def raisedDirect (st : Propagation) (index : ℕ) (isDirect : Bool) : DensePositionSet :=
  if isDirect then st.directPositions.insertAtIndex index else st.directPositions

/-- The candidate is stronger than what the cell holds. -/
abbrev Raises (c : LightChannel) (st : Propagation) (index candidate : ℕ) (isDirect : Bool) : Prop :=
  candidate > st.output.getAtIndex index c ∨ candidate=st.output.getAtIndex index c ∧
    (isDirect && !st.directPositions.containsAtIndex index) = true

@[simp] lemma raises_false {c : LightChannel} {st : Propagation} {index candidate : ℕ} :
    Raises c st index candidate false ↔ candidate > st.output.getAtIndex index c := by
  simp [Raises]

/-- The tail both seeding and spreading share: raise a cell and queue it where the candidate is
stronger than what it holds. -/
def raise (limits : SolverLimits) (c : LightChannel)
    (peak : LightSolveStats → ℕ → LightSolveStats) (st : Propagation) (p : BlockPos) (index : ℕ)
    (candidate : ℕ) (isDirect : Bool) : Except Halt Propagation :=
  if Raises c st index candidate isDirect then do
    let (queue,queuedTotal) ← st.queue.pushBack ⟨p,index,isDirect⟩ st.queuedTotal limits.maxQueueEntries
    return ⟨raisedOutput c st index candidate,queue,raisedDirect st index isDirect,queuedTotal, peak st.stats queue.len⟩
  else return st

abbrev ranks (input : SolveInput) (st : Propagation) : LightCell → ℕ :=
  input.field st.output st.directPositions

structure SpreadInv (input : SolveInput) (c : LightChannel) (todo : BlockPos → Fin 6 → Prop)
    (st : Propagation) : Prop where
  field : input.FieldInv st.output st.directPositions
  queue : input.QueueInv c (input.ranks st) todo st.queue

def spreadWork (input : SolveInput) (st : Propagation) : ℕ :=
  st.queue.len + ∑ cell ∈ input.region, (directRank-input.ranks st cell)

structure Raised (input : SolveInput) (c : LightChannel) (p : BlockPos) (r : ℕ)
    (st st' : Propagation) : Prop where
  ranks : input.ranks st'=update (input.ranks st) (p,c) (max (input.ranks st (p,c)) r)
  work : input.spreadWork st' ≤ input.spreadWork st

lemma Raised.le {c : LightChannel} {r : ℕ} {st st' : Propagation} (h : input.Raised c p r st st') (cell : LightCell) :
    input.ranks st cell ≤ input.ranks st' cell := by
  rw [h.ranks]
  by_cases hc : cell = (p,c)
  · rw [hc,update_self]
    exact le_max_left _ _
  · rw [update_of_ne hc]

lemma Raised.self {c : LightChannel} {r : ℕ} {st st' : Propagation}
    (h : input.Raised c p r st st') : r ≤ input.ranks st' (p,c) := by
  rw [h.ranks,update_self]
  exact le_max_right _ _

lemma Raised.ne {c : LightChannel} {r : ℕ} {st st' : Propagation}
    (h : input.Raised c p r st st') {cell : LightCell} (hc : cell ≠ (p,c)) :
    input.ranks st' cell=input.ranks st cell := by
  rw [h.ranks,update_of_ne hc]

section
variable {c : LightChannel} {todo : BlockPos → Fin 6 → Prop} {st : Propagation} {q : BlockPos}
  {candidate : ℕ} {isDirect : Bool} (h : input.SpreadInv c todo st) (hq : input.scene.Inside q)
  (hcand : candidate≤15) (hdirect : isDirect=true → candidate=15 ∧ c = .sky)
include h hq hdirect

/-- A cell that already has direct sky takes nothing more. -/
lemma not_direct_of_raises (hraise : Raises c st (input.idx q) candidate isDirect) (hcand : candidate≤15) :
    ¬(c = .sky ∧ st.directPositions.containsAtIndex (input.idx q) = true) := by
  rintro ⟨rfl,hd⟩
  have hlevel : st.output.getAtIndex (input.idx q) .sky=15 := h.field.direct_level q hq hd
  rcases hraise with hgt | ⟨-,hgain⟩
  · omega
  · simp [hd] at hgain

include hcand

lemma lt_of_raises (hraise : Raises c st (input.idx q) candidate isDirect) :
    input.ranks st (q,c) < candidateRank candidate isDirect := by
  have hle := h.field.held_le q c
  rw [ranks,field_of_inside hq,if_neg (not_direct_of_raises h hq hdirect hraise hcand), candidateRank]
  cases isDirect with
  | true =>
    rw [if_pos rfl]
    unfold directRank
    omega
  | false =>
    exact raises_false.1 hraise

lemma field_raise (hraise : Raises c st (input.idx q) candidate isDirect) :
    input.field (raisedOutput c st (input.idx q) candidate) (raisedDirect st (input.idx q) isDirect) =
      update (input.ranks st) (q,c) (candidateRank candidate isDirect) := by
  have hnot := not_direct_of_raises h hq hdirect hraise hcand
  funext cell
  obtain ⟨p,c'⟩ := cell
  by_cases hcell : ((p,c') : LightCell) = (q,c)
  · cases hcell
    rw [update_self,field_of_inside hq]
    cases isDirect with
    | true =>
      obtain ⟨rfl,rfl⟩ := hdirect rfl
      simp [raisedDirect,candidateRank]
    | false =>
      rw [raises_false] at hraise
      simp only [raisedDirect,raisedOutput,Bool.false_eq_true,if_false,hnot,candidateRank, hraise,if_true]
      rw [held_set hq.1 hq.1]
      simp
  · have hne : ¬(p=q ∧ c'=c) := fun he=>hcell (Prod.ext he.1 he.2)
    rw [update_of_ne hcell,ranks]
    by_cases hp : input.scene.Inside p
    · rw [field_of_inside hp,field_of_inside hp]
      have hheld : input.held (raisedOutput c st (input.idx q) candidate) p c' =
          input.held st.output p c' := by
        rw [raisedOutput]
        split_ifs
        · rw [held_set hq.1 hp.1,if_neg hne]
        · rfl
      have hbit : c' = .sky → (raisedDirect st (input.idx q) isDirect).containsAtIndex
          (input.idx p) = st.directPositions.containsAtIndex (input.idx p) := by
        intro hsky
        cases isDirect with
        | false => rfl
        | true =>
          have hpq : input.idx p≠input.idx q := fun he =>
            hne ⟨denseIndex_inj hp.1 hq.1 he,by rw [hsky,(hdirect rfl).2]⟩
          simp [raisedDirect,hpq]
      rw [hheld]
      by_cases hsky : c' = .sky
      · rw [hbit hsky]
      · simp [hsky]
    · simp [field,hp]

lemma le_of_not_raises (hskip : ¬Raises c st (input.idx q) candidate isDirect) :
    candidateRank candidate isDirect ≤ input.ranks st (q,c) := by
  have hle : st.output.getAtIndex (input.idx q) c≤15 := h.field.held_le q c
  have hfield : st.output.getAtIndex (input.idx q) c ≤ input.ranks st (q,c) := by
    change input.held st.output q c≤_
    rw [← h.field.min_field hq c]
    exact min_le_left _ _
  rw [candidateRank]
  cases isDirect with
  | true =>
    obtain ⟨rfl,rfl⟩ := hdirect rfl
    simp only [Bool.true_and,Bool.not_eq_true',not_or,not_and,Bool.not_eq_false] at hskip
    have hbit := hskip.2 (by omega)
    rw [if_pos rfl,ranks,(h.field.field_eq_direct hq .sky).2 ⟨rfl,hbit⟩]
  | false =>
    simp only [Bool.false_eq_true,if_false]
    omega

section

variable (hraise : Raises c st (input.idx q) candidate isDirect)
include hraise

lemma le_field_raise (cell : LightCell) : input.ranks st cell ≤ input.field (raisedOutput c st (input.idx q) candidate)
      (raisedDirect st (input.idx q) isDirect) cell := by
  rw [field_raise h hq hcand hdirect hraise]
  by_cases hc : cell = (q,c)
  · rw [hc,update_self]
    exact (lt_of_raises h hq hcand hdirect hraise).le
  · rw [update_of_ne hc]

lemma fieldInv_raise (hsound : candidateRank candidate isDirect ≤ input.scene.system.source (q,c) ∨
      ∃ s, candidateRank candidate isDirect ≤ input.scene.system.flow s (q,c) (input.ranks st s)) :
    input.FieldInv (raisedOutput c st (input.idx q) candidate) (raisedDirect st (input.idx q) isDirect) where
  loaded := by
    rw [raisedOutput]
    split_ifs
    · exact h.field.loaded.set hq c hcand
    · exact h.field.loaded
  shape := by
    rw [raisedDirect]
    split_ifs
    · exact h.field.shape.insertAtIndex _
    · exact h.field.shape
  direct_inside p hp hd := by
    rw [raisedDirect] at hd
    split_ifs at hd
    · rw [DensePositionSet.containsAtIndex_insertAtIndex,Bool.or_eq_true, decide_eq_true_iff] at hd
      rcases hd with hd | hd
      · exact denseIndex_inj hp hq.1 hd ▸ hq
      · exact h.field.direct_inside p hp hd
    · exact h.field.direct_inside p hp hd
  direct_level p hp hd := by
    have hkeep : st.directPositions.containsAtIndex (input.idx p) = true →
        input.held (raisedOutput c st (input.idx q) candidate) p .sky=15 := by
      intro hold
      have hlevel := h.field.direct_level p hp hold
      rw [raisedOutput]
      split_ifs with hgt
      · rw [held_set hq.1 hp.1]
        split_ifs with hpq
        · rw [hpq.1,hpq.2] at hlevel
          have : st.output.getAtIndex (input.idx q) c=15 := hlevel
          omega
        · exact hlevel
      · exact hlevel
    cases isDirect with
    | false => exact hkeep hd
    | true =>
      obtain ⟨rfl,rfl⟩ := hdirect rfl
      simp only [raisedDirect,if_true,DensePositionSet.containsAtIndex_insertAtIndex,
        Bool.or_eq_true,decide_eq_true_iff] at hd
      rcases hd with hd | hd
      · rw [denseIndex_inj hp.1 hq.1 hd,raisedOutput]
        split_ifs with hgt
        · rw [held_set hq.1 hq.1]
          simp
        · change st.output.getAtIndex (input.idx q) .sky=15
          omega
      · exact hkeep hd
  sound := by
    rw [field_raise h hq hcand hdirect hraise, ← max_eq_right (lt_of_raises h hq hcand hdirect hraise).le]
    exact h.field.sound.raise hsound
  base_le p hp c' :=
    (h.field.base_le p hp c').trans (le_field_raise h hq hcand hdirect hraise _)

variable {queue : IncreaseQueue}

lemma queueInv_raise (hpush : st.queue.Pushed ⟨q,input.idx q,isDirect⟩ queue) :
    input.QueueInv c (input.field (raisedOutput c st (input.idx q) candidate)
      (raisedDirect st (input.idx q) isDirect)) todo queue where
  size := hpush.size.trans h.queue.size
  entries e he := by
    rcases hpush.entries with ⟨hent,-⟩ | ⟨hent,-⟩
    · exact h.queue.entries e (hent ▸ he)
    · simp only [hent,List.mem_append,List.mem_singleton] at he
      rcases he with he | rfl
      · exact h.queue.entries e he
      · exact ⟨hq,rfl⟩
  flag p hp hpend := by
    have hlt := lt_of_raises h hq hcand hdirect hraise
    rw [field_raise h hq hcand hdirect hraise]
    by_cases hpq : p=q
    · subst hpq
      rw [update_self,hpush.direct]
      cases isDirect with
      | true => simp [candidateRank,hdirect rfl]
      | false =>
        have hold : st.queue.directAt (input.idx p) = false := by
          by_cases hz : st.queue.pending (input.idx p) = 0
          · simp [IncreaseQueue.directAt,hz]
          · rw [h.queue.flag p hp hz,decide_eq_false_iff_not]
            rintro ⟨-,h16⟩
            simp only [candidateRank,Bool.false_eq_true,if_false,h16,directRank] at hlt
            omega
        simp only [hold,Bool.or_false,candidateRank,Bool.false_eq_true,if_false,directRank]
        symm
        rw [decide_eq_false_iff_not]
        omega
    · have hi : input.idx p≠input.idx q := fun he=>hpq (denseIndex_inj hp.1 hq.1 he)
      have hne : ((p,c) : LightCell) ≠ (q,c) := fun he=>hpq (congrArg Prod.fst he)
      rw [hpush.pending_ne _ hi] at hpend
      rw [update_of_ne hne,← h.queue.flag p hp hpend,IncreaseQueue.directAt,
        hpush.pending_ne _ hi,IncreaseQueue.directAt]
  settled p hp := by
    by_cases hpq : p=q
    · subst hpq
      exact .inl hpush.queued
    · have hi : input.idx p≠input.idx q := fun he=>hpq (denseIndex_inj hp.1 hq.1 he)
      have hne : ((p,c) : LightCell) ≠ (q,c) := fun he=>hpq (congrArg Prod.fst he)
      rcases h.queue.settled p hp with hpend | hset
      · exact .inl (by rwa [hpush.pending_ne _ hi])
      · refine .inr fun d hd=>(hset d hd).imp_right fun hs=>?_
        have hself : input.field (raisedOutput c st (input.idx q) candidate)
            (raisedDirect st (input.idx q) isDirect) (p,c) = input.ranks st (p,c) := by
          rw [field_raise h hq hcand hdirect hraise,update_of_ne hne]
        rw [hself]
        exact hs.trans (le_field_raise h hq hcand hdirect hraise _)

lemma spreadWork_raise (hpush : st.queue.Pushed ⟨q,input.idx q,isDirect⟩ queue) :
    queue.len + ∑ cell ∈ input.region, (directRank - input.field (raisedOutput c st (input.idx q) candidate)
        (raisedDirect st (input.idx q) isDirect) cell) ≤ input.spreadWork st := by
  have hlt := lt_of_raises h hq hcand hdirect hraise
  have hlen : queue.len ≤ st.queue.len+1 := by
    rcases hpush.entries with ⟨hent,-⟩ | ⟨hent,-⟩ <;> simp [IncreaseQueue.len,hent]
  have hpot : ∑ cell ∈ input.region, (directRank-input.field
      (raisedOutput c st (input.idx q) candidate) (raisedDirect st (input.idx q) isDirect) cell)+1 ≤
      ∑ cell ∈ input.region, (directRank-input.ranks st cell) := by
    rw [field_raise h hq hcand hdirect hraise]
    refine potential_le (a := (q,c)) (mem_region.2 hq.1) (fun cell _ hne=>?_) ?_
    · rw [update_of_ne hne]
    · have hbound : candidateRank candidate isDirect≤directRank := by
        unfold candidateRank directRank
        split_ifs <;> omega
      rw [update_self]
      omega
  rw [spreadWork]
  omega

end

lemma raise_ensures {limits : SolverLimits} {peak : LightSolveStats → ℕ → LightSolveStats}
    (hsound : candidateRank candidate isDirect ≤ input.scene.system.source (q,c) ∨
      ∃ s, candidateRank candidate isDirect ≤ input.scene.system.flow s (q,c) (input.ranks st s)) :
    Ensures (Halt.Exceeds limits) (fun st'=>input.SpreadInv c todo st' ∧
        input.Raised c q (candidateRank candidate isDirect) st st')
      (raise limits c peak st q (input.idx q) candidate isDirect) := by
  rw [raise]
  by_cases hraise : Raises c st (input.idx q) candidate isDirect
  · rw [if_pos hraise]
    have hsize : (⟨q,input.idx q,isDirect⟩ : IncreaseEntry).index < st.queue.size := by
      rw [h.queue.size]
      exact denseIndex_lt hq.1
    refine Ensures.bind (IncreaseQueue.pushBack_ensures hsize) fun pushed hpush=>?_
    refine ⟨⟨fieldInv_raise h hq hcand hdirect hraise hsound, queueInv_raise h hq hcand hdirect hraise hpush⟩,⟨?_,
      spreadWork_raise h hq hcand hdirect hraise hpush⟩⟩
    rw [max_eq_right (lt_of_raises h hq hcand hdirect hraise).le]
    exact field_raise h hq hcand hdirect hraise
  · rw [if_neg hraise]
    refine ⟨h,?_,le_rfl⟩
    rw [max_eq_left (le_of_not_raises h hq hcand hdirect hraise),update_eq_self]

end

end SolveInput

end Cinnabar.Light
