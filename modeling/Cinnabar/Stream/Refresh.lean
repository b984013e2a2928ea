import Cinnabar.Stream.Lane

/-! # Re-ranking queued work after the view changes -/

namespace Cinnabar.Stream

open Function (update update_eq_self update_of_ne update_self)
open Finset

variable {V D : Type} {L : ℕ} (lanes : Fin L → Lane D)

/-- A family of lanes holds `key` at `revision`. -/
def Lanes.Holds (key : SubChunkKey) (revision : ℕ) : Prop :=
  ∃ lane, (lanes lane).Holds key revision

def Lanes.size : ℕ := ∑ lane, (lanes lane).size

/-- Re-ranks a bounded part of existing queues after the view changes. -/
structure SchedulerRefresh (V D : Type) (L : ℕ) where
  previous : Fin L → Lane D
  view : Option (SchedulerView V)
  /-- Nearby work made ready without a new scan record. -/
  woken : List SubChunkKey

namespace SchedulerRefresh

def new : SchedulerRefresh V D L := ⟨fun _=>Lane.empty,none,[]⟩

/-- `NEAR_CAMERA_RADIUS` -/
def nearCameraRadius : ℕ := 4

/-- Whether `key` lies in the camera's neighbourhood. -/
def meshIsNear [Camera V D] (view : SchedulerView V) (key : SubChunkKey) : Bool :=
  let cell := Camera.cell view.camera
  (key.x-cell.1).natAbs≤nearCameraRadius && (key.y-cell.2.1).natAbs≤nearCameraRadius &&
    (key.z-cell.2.2).natAbs≤nearCameraRadius

/-- Keeps an unexamined key for a later dispatch, even if the camera has moved. -/
def requeueWoken (refresh : SchedulerRefresh V D L) (key : SubChunkKey) : SchedulerRefresh V D L :=
  if key ∈ refresh.woken then refresh else { refresh with woken := refresh.woken ++ [key] }

/-- Offers `key` to the next dispatch when it lies in the camera's neighbourhood. -/
def wakeNear [Camera V D] (refresh : SchedulerRefresh V D L) (key : SubChunkKey) :
    SchedulerRefresh V D L :=
  if refresh.view.any fun view=>meshIsNear view key then refresh.requeueWoken key else refresh

/-- Drains the keys offered since the last dispatch. -/
def takeWoken (refresh : SchedulerRefresh V D L) : List SubChunkKey × SchedulerRefresh V D L :=
  (refresh.woken,{ refresh with woken := [] })

def firstQueued (previous : Fin L → Lane D) : Option (Fin L × Bool) :=
  (List.finRange L).findSome? fun lane =>
    if !(previous lane).ready.isEmpty then some (lane,false)
    else if !(previous lane).deferred.isEmpty then some (lane,true)
    else none

variable [Ord D] [Camera V D]

/-- The loop of `refresh`: `refreshed` once a candidate moved. -/
def refreshLoop (isCurrent : SubChunkKey → ℕ → Bool) (view : SchedulerView V) (late : Clock) :
    (scans : ℕ) → (refreshed : Bool) → (previous queues : Fin L → Lane D) → (Fin L → Lane D) × (Fin L → Lane D)
  | 0, _, previous, queues => (previous,queues)
  | scans+1, refreshed, previous, queues =>
    if refreshed && late scans then (previous,queues)
    else match firstQueued previous with
      | none => (previous,queues)
      | some (lane,deferred) =>
        match (previous lane).pop deferred with
        | none => (previous,queues)
        | some (candidate,popped) =>
          if isCurrent candidate.key candidate.revision then
            refreshLoop isCurrent view late scans true (update previous lane popped)
              (update queues lane ((queues lane).push deferred (candidate.refreshRank view)))
          else
            refreshLoop isCurrent view late scans refreshed (update previous lane popped) queues

/-- Refreshes bounded queue work and reports whether the view still needs direct local probes. -/
def refresh (self : SchedulerRefresh V D L) (view : SchedulerView V) (queues : Fin L → Lane D)
    (late : Clock) (isCurrent : SubChunkKey → ℕ → Bool) :
    SchedulerRefresh V D L × (Fin L → Lane D) × Bool :=
  let moved := self.view.all fun previous=>view.reranksFrom previous
  let swaps := (List.finRange L).all (fun lane=>(self.previous lane).isEmpty) && moved
  let previous := if swaps then queues else self.previous
  let queues := if swaps then self.previous else queues
  let probeNear := moved || (List.finRange L).any fun lane=>!(previous lane).isEmpty
  let out := refreshLoop isCurrent view late maxPendingSchedulerScansPerPoll false previous queues
  ({ self with previous := out.1, view := if swaps then some view else self.view },out.2, probeNear)

end SchedulerRefresh

namespace Lanes

variable [Ord D] {currency : Currency}

omit [Ord D] in
lemma holds_update {lanes : Fin L → Lane D} {lane : Fin L} {lane' : Lane D} {key : SubChunkKey} {revision : ℕ} :
    Holds (update lanes lane lane') key revision ↔
      lane'.Holds key revision ∨ ∃ other, other≠lane ∧ (lanes other).Holds key revision := by
  unfold Holds
  constructor
  · rintro ⟨other,h⟩
    by_cases ho : other=lane
    · subst ho
      rw [update_self] at h
      exact .inl h
    · rw [update_of_ne ho] at h
      exact .inr ⟨other,ho,h⟩
  · rintro (h | ⟨other,ho,h⟩)
    · exact ⟨lane,by rwa [update_self]⟩
    · exact ⟨other,by rwa [update_of_ne ho]⟩

omit [Ord D] in
lemma holds_iff_lane (lanes : Fin L → Lane D) (lane : Fin L) {key : SubChunkKey} {revision : ℕ} :
    Holds lanes key revision ↔ (lanes lane).Holds key revision ∨
      ∃ other, other≠lane ∧ (lanes other).Holds key revision := by
  have h := @holds_update _ _ lanes lane (lanes lane) key revision
  rw [update_eq_self] at h
  exact h

omit [Ord D] in
lemma size_update (lanes : Fin L → Lane D) (lane : Fin L) (lane' : Lane D) :
    size (update lanes lane lane') + (lanes lane).size=size lanes+lane'.size := by
  unfold size
  rw [← add_sum_erase _ _ (mem_univ lane), ← add_sum_erase _ (fun other=>(lanes other).size) (mem_univ lane),
    update_self]
  have hrest : ∑ other ∈ Finset.univ.erase lane, (update lanes lane lane' other).size =
      ∑ other ∈ Finset.univ.erase lane, (lanes other).size := by
    refine sum_congr rfl fun other hother=>?_
    rw [update_of_ne (ne_of_mem_erase hother)]
  rw [hrest]
  omega

omit [Ord D] in
lemma size_pos {lanes : Fin L → Lane D} (lane : Fin L) (h : (lanes lane).size≠0) : 0 < size lanes := by
  have hle : (lanes lane).size ≤ size lanes :=
    single_le_sum (f := fun other=>(lanes other).size) (fun _ _=>Nat.zero_le _) (mem_univ lane)
  omega

omit [Ord D] in
lemma exists_of_size_pos {lanes : Fin L → Lane D} (h : 0 < size lanes) : ∃ lane, (lanes lane).size≠0 := by
  by_contra hnone
  push Not at hnone
  have hzero : size lanes=0 := sum_eq_zero fun lane _=>hnone lane
  omega

omit [Ord D] in
lemma moves_update {lanes : Fin L → Lane D} {lane : Fin L} {lane' : Lane D}
    (h : Moves currency (lanes lane).Holds lane'.Holds) :
    Moves currency (Holds lanes) (Holds (update lanes lane lane')) := by
  have hrest := h.or_right fun key r=>∃ other, other≠lane ∧ (lanes other).Holds key r
  constructor
  · intro key r hc hb
    rw [holds_update]
    exact hrest.keeps hc ((holds_iff_lane lanes lane).1 hb)
  · intro key r ha
    rw [holds_update] at ha
    rw [holds_iff_lane lanes lane]
    exact hrest.only ha

end Lanes

namespace SchedulerRefresh

variable [Ord D] {currency : Currency}

omit [Ord D] in
lemma firstQueued_eq_none {previous : Fin L → Lane D} : firstQueued previous=none ↔ Lanes.size previous=0 := by
  unfold firstQueued Lanes.size
  rw [List.findSome?_eq_none_iff,sum_eq_zero_iff]
  refine forall_congr' fun lane=>?_
  simp only [List.mem_finRange,mem_univ,forall_const,Bool.not_eq_true',
    Lane.size,Nat.add_eq_zero_iff,← IndexedHeap.isEmpty_iff_length]
  cases (previous lane).ready.isEmpty <;> cases (previous lane).deferred.isEmpty <;> simp

lemma pop_firstQueued {previous : Fin L → Lane D} {lane : Fin L} {deferred : Bool}
    (h : firstQueued previous=some (lane,deferred)) :
    ∃ candidate popped, (previous lane).pop deferred=some (candidate,popped) := by
  obtain ⟨l,-,hl⟩ := List.exists_of_findSome?_eq_some h
  have hne : ((previous lane).heap deferred).length≠0 := by
    rw [ne_eq,← IndexedHeap.isEmpty_iff_length]
    split_ifs at hl with hready hdeferred
    · cases hl
      simpa using hready
    · cases hl
      simpa using hdeferred
  cases hpop : (previous lane).pop deferred with
  | none => exact absurd (Lane.pop_eq_none.1 hpop) hne
  | some next => exact ⟨next.1,next.2,rfl⟩

def Both (previous queues : Fin L → Lane D) (key : SubChunkKey) (revision : ℕ) : Prop :=
  Lanes.Holds previous key revision ∨ Lanes.Holds queues key revision

/-- What the refresh loop keeps of both generations. -/
structure Refreshed (currency : Currency) (previous queues previous' queues' : Fin L → Lane D) :
    Prop where
  moves : Moves currency (Both previous queues) (Both previous' queues')
  size : Lanes.size previous'+Lanes.size queues'≤Lanes.size previous+Lanes.size queues
  queued : 0<Lanes.size queues → 0<Lanes.size queues'

namespace Refreshed

variable {previous queues previous' queues' previous'' queues'' : Fin L → Lane D}

omit [Ord D] in
lemma refl (previous queues : Fin L → Lane D) :
    Refreshed currency previous queues previous queues :=
  ⟨Moves.refl currency _,le_refl _,id⟩

omit [Ord D] in
lemma trans (h₁ : Refreshed currency previous queues previous' queues')
    (h₂ : Refreshed currency previous' queues' previous'' queues'') :
    Refreshed currency previous queues previous'' queues'' :=
  ⟨h₁.moves.trans h₂.moves,h₂.size.trans h₁.size,h₂.queued∘h₁.queued⟩

variable {lane : Fin L} {deferred deferred' : Bool} {popped : Lane D}
  {candidate candidate' : PendingSchedulerCandidate D}

lemma dropped (h : (previous lane).pop deferred=some (candidate,popped))
    (hstale : currency.isCurrent candidate.key candidate.revision≠true) :
    Refreshed currency previous queues (update previous lane popped) queues where
  moves := (Lanes.moves_update (Lane.moves_pop_stale h hstale)).or_right _
  size := by
    have := Lane.size_of_pop h
    have := Lanes.size_update previous lane popped
    omega
  queued := id

lemma moved (h : (previous lane).pop deferred=some (candidate,popped))
    (hcur : currency.isCurrent candidate.key candidate.revision=true)
    (hkey : candidate'.key=candidate.key) (hrev : candidate'.revision=candidate.revision)
    (target : Fin L) :
    Refreshed currency previous queues (update previous lane popped)
      (update queues target ((queues target).push deferred' candidate')) where
  moves := by
    have hcur' : currency.isCurrent candidate'.key candidate'.revision=true := by
      rw [hkey,hrev]
      exact hcur
    have hpush : Moves currency (Lanes.Holds queues)
        (Lanes.Holds (update queues target ((queues target).push deferred' candidate'))) :=
      Lanes.moves_update (Lane.moves_push_current (queues target) deferred' hcur')
    constructor
    · rintro key r hc (hb | hb)
      · rw [Lanes.holds_iff_lane previous lane,Lane.holds_of_pop h] at hb
        unfold Both
        rw [Lanes.holds_update]
        rcases hb with (⟨rfl,rfl⟩ | hb) | hb
        · right
          rw [Lanes.holds_update,← hkey,← hrev]
          exact .inl (Lane.holds_push_self _ _ candidate')
        · exact .inl (.inl hb)
        · exact .inl (.inr hb)
      · exact .inr (hpush.keeps hc hb)
    · rintro key r (ha | ha)
      · rw [Lanes.holds_update] at ha
        left
        left
        rw [Lanes.holds_iff_lane previous lane,Lane.holds_of_pop h]
        exact ha.imp_left .inr
      · exact (hpush.only ha).imp_left .inr
  size := by
    have := Lane.size_of_pop h
    have := Lane.size_push_le (queues target) deferred' candidate'
    have := Lanes.size_update previous lane popped
    have := Lanes.size_update queues target ((queues target).push deferred' candidate')
    omega
  queued := fun _=>Lanes.size_pos target (by
    rw [update_self]
    exact Lane.size_push_ne_zero (queues target) deferred' candidate')

end Refreshed

variable [Camera V D]

lemma refreshLoop_refreshed (currency : Currency) (view : SchedulerView V) (late : Clock)
    (scans : ℕ) (started : Bool) (previous queues : Fin L → Lane D) :
    Refreshed currency previous queues (refreshLoop currency.isCurrent view late scans started previous queues).1
      (refreshLoop currency.isCurrent view late scans started previous queues).2 := by
  induction scans generalizing started previous queues with
  | zero => exact Refreshed.refl previous queues
  | succ scans ih =>
    rw [refreshLoop]
    split_ifs with hlate
    · exact Refreshed.refl previous queues
    · split
      next => exact Refreshed.refl previous queues
      next lane deferred hfirst =>
        split
        next => exact Refreshed.refl previous queues
        next candidate popped hpop =>
          split_ifs with hcur
          · have hmoved := @Refreshed.moved _ _ _ currency previous queues lane deferred deferred
              popped candidate (candidate.refreshRank view) hpop hcur rfl rfl lane
            exact hmoved.trans (ih true _ _)
          · exact (Refreshed.dropped hpop hcur).trans (ih started _ queues)

/-- A first round leaves fewer records, or queues one. -/
lemma refreshLoop_progress (currency : Currency) (view : SchedulerView V) (late : Clock)
    (scans : ℕ) (previous queues : Fin L → Lane D)
    (hsize : 0<Lanes.size previous+Lanes.size queues) :
    let out := refreshLoop currency.isCurrent view late (scans+1) false previous queues
    Lanes.size out.1+Lanes.size out.2<Lanes.size previous+Lanes.size queues ∨
      0<Lanes.size out.2 := by
  intro out
  by_cases hqueued : 0<Lanes.size queues
  · exact .inr ((refreshLoop_refreshed currency view late (scans+1) false previous queues).queued hqueued)
  · have hprevious : firstQueued previous≠none := by
      rw [ne_eq,firstQueued_eq_none]
      omega
    obtain ⟨⟨lane,deferred⟩,hfirst⟩ := Option.ne_none_iff_exists'.1 hprevious
    obtain ⟨candidate,popped,hpop⟩ := pop_firstQueued hfirst
    have hout : out=refreshLoop currency.isCurrent view late (scans+1) false previous queues := rfl
    rw [refreshLoop] at hout
    simp only [Bool.false_and,Bool.false_eq_true,if_false,hfirst,hpop] at hout
    split_ifs at hout with hcur
    · right
      rw [hout]
      refine (refreshLoop_refreshed currency view late scans true _ _).queued ?_
      refine Lanes.size_pos lane ?_
      rw [update_self]
      exact Lane.size_push_ne_zero _ deferred _
    · have hle := (refreshLoop_refreshed currency view late scans false (update previous lane popped) queues).size
      have := Lane.size_of_pop hpop
      have := Lanes.size_update previous lane popped
      rw [hout]
      omega

end SchedulerRefresh

end Cinnabar.Stream
