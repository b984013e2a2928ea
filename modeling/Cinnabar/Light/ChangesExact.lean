import Cinnabar.Light.Solution

/-! # The change-driven solve -/

namespace Cinnabar.Light

variable (output : MutableOutput)

def candidateStep (position : BlockPos)
    (st : DensePositionSet × List (BlockPos × ℕ)) (offset : Offset) :
    DensePositionSet × List (BlockPos × ℕ) :=
  let (seen,candidates) := st
  match position.checkedOffset offset with
  | none => (seen,candidates)
  | some cell =>
    match output.index cell with
    | none => (seen,candidates)
    | some index =>
      if seen.containsAtIndex index then (seen,candidates)
      else (seen.insertAtIndex index,candidates ++ [(cell,index)])

def changedCells (st : DensePositionSet × List (BlockPos × ℕ))
    (position : BlockPos) : DensePositionSet × List (BlockPos × ℕ) :=
  ((0,0,0) :: directions.map neighbours).foldl (candidateStep output position) st

def changeCandidates (bounds : LightBounds) (changed : List BlockPos) :
    List (BlockPos × ℕ) :=
  (changed.foldl (changedCells output) (.new bounds,[])).2

def spreadNeighbour (position : BlockPos) (spreading : DensePositionSet)
    (d : Fin 6) : DensePositionSet :=
  match (position.checkedOffset (neighbours d)).bind output.index with
  | none => spreading
  | some index => spreading.insertAtIndex index

def spreadAround (spreading : DensePositionSet) (cell : BlockPos × ℕ) :
    DensePositionSet :=
  directions.foldl (spreadNeighbour output cell.1) (spreading.insertAtIndex cell.2)

def spreadingCells (bounds : LightBounds)
    (candidates darkened : List (BlockPos × ℕ)) : DensePositionSet :=
  darkened.foldl (spreadAround output)
    (candidates.foldl (fun spreading cell=>spreading.insertAtIndex cell.2) (.new bounds))

/-- The whole solve, for a `prior` that is the solved light of the same blocks except at the
`changed` cells, with the same light around the bounds. -/
def solveLightChangesWithScratch (source : LightBlockAccess) (priorSource : LightReadAccess)
    (bounds : LightBounds) (generation : ℕ) (profile : DimensionLightProfile)
    (limits : SolverLimits) (scratch : LightSolverScratch) (changed : List BlockPos) :
    Except Halt LightSolveOutput := do
  let volume ← checkedVolume bounds limits
  let blocks := CachedLightBlockAccess.new source bounds
  let prior : CachedLightReadAccess := ⟨priorSource,bounds⟩
  let output ← loadPrior blocks prior bounds (.new bounds generation)
  let candidates := changeCandidates output bounds changed
  let blockIncrease ← scratch.blockIncrease.reset volume
  let skyIncrease ← scratch.skyIncrease.reset volume
  let st ← seedDarken blocks prior profile limits candidates ⟨output,[],[],0,{}⟩
  let st ← darkenLoop blocks prior bounds profile limits st
  let output ← raiseToBase blocks profile ((candidates++st.darkened).map Prod.snd) st.output
  let spreading := spreadingCells output bounds candidates st.darkened
  let queued ← queueLit blocks prior bounds profile limits output spreading.containsAtIndex
    ⟨blockIncrease,skyIncrease,.new bounds,st.queuedTotal⟩
  propagateBoth blocks prior bounds profile limits output queued st.stats

end Cinnabar.Light

/-! # The change-driven solve is a whole solve

Away from the changed cells the solved prior light keeps the support it had, so
only the cells at or next to a change can start darkening, and only those and the
darkened cells' surroundings have new light to send.
-/

namespace Cinnabar.Light

open LightBounds Relaxation List

structure SolvedBefore (input : SolveInput) (changed : List BlockPos) where
  before : LightBlockAccess
  solved : LightCell → ℕ
  seed_le : ∀ p, input.bounds.Contains p → before.skySeed p≤15
  sample_eq : ∀ p, p ∉ changed → before.sample p=input.source.sample p
  seed_eq : ∀ p, p ∉ changed → before.skySeed p=input.source.skySeed p
  isSolution : (Scene.of before input.old input.bounds input.profile).system.IsSolution solved
  level_eq : ∀ p, input.bounds.Contains p → ∀ c, input.level p c=min (solved (p,c)) 15
  direct_eq : ∀ p, input.bounds.Contains p →
    input.old.hasDirectSkyProvenance input.bounds.dimension p=decide (solved (p,.sky) = directRank)

namespace SolveInput

variable {input : SolveInput} {o : MutableOutput}

structure CandidateInv (input : SolveInput) (st : DensePositionSet × List (BlockPos × ℕ)) :
    Prop where
  cell : ∀ e ∈ st.2, input.bounds.Contains e.1 ∧ e.2=input.idx e.1
  seen : ∀ p, input.bounds.Contains p → st.1.containsAtIndex (input.idx p) = true → (p,input.idx p) ∈ st.2

variable {st : DensePositionSet × List (BlockPos × ℕ)}

lemma candidateStep_spec (ho : o.Over input.bounds) (position : BlockPos) (offset : Offset) (h : input.CandidateInv st) :
    input.CandidateInv (candidateStep o position st offset) ∧ (∀ e ∈ st.2, e ∈ (candidateStep o position st offset).2) ∧
      ∀ p, input.bounds.Contains p → position.checkedOffset offset=some p →
        (p,input.idx p) ∈ (candidateStep o position st offset).2 := by
  unfold candidateStep
  cases hcell : position.checkedOffset offset with
  | none => exact ⟨h,fun _ he=>he,fun p _ hp=>by cases hp⟩
  | some cell =>
    by_cases hin : input.bounds.Contains cell
    · simp only [MutableOutput.index_eq ho input.cells_le hin]
      split_ifs with hseen
      · refine ⟨h,fun _ he=>he,fun p hp hpc=>?_⟩
        cases hpc
        exact h.seen _ hp hseen
      · refine ⟨⟨fun e he=>?_,fun p hp hpc=>?_⟩,fun e he=>mem_append_left _ he, fun p _ hpc=>?_⟩
        · rcases mem_append.1 he with he | he
          · exact h.cell e he
          · rw [mem_singleton.1 he]
            exact ⟨hin,rfl⟩
        · rw [DensePositionSet.containsAtIndex_insertAtIndex,Bool.or_eq_true, decide_eq_true_iff] at hpc
          rcases hpc with hpc | hpc
          · rw [(idx_inj hp hin).1 hpc]
            simp
          · exact mem_append_left _ (h.seen p hp hpc)
        · cases hpc
          simp
    · simp only [MutableOutput.index_of_not_contains ho hin]
      refine ⟨h,fun _ he=>he,fun p hp hpc=>?_⟩
      cases hpc
      exact absurd hp hin

lemma changedCells_spec (ho : o.Over input.bounds) (position : BlockPos) (h : input.CandidateInv st) :
    input.CandidateInv (changedCells o st position) ∧ (∀ e ∈ st.2, e ∈ (changedCells o st position).2) ∧
      ∀ p, input.bounds.Contains p → ∀ offset ∈ (0,0,0) :: directions.map neighbours,
        position.checkedOffset offset=some p →
        (p,input.idx p) ∈ (changedCells o st position).2 := by
  refine ⟨?_,fun e he=>?_,fun p hp offset hoff hcell=>?_⟩
  · exact foldl_invariant (I := fun _ st=>input.CandidateInv st) h
      fun _ offset _ b _ hb=>(candidateStep_spec ho position offset hb).1
  · refine (foldl_invariant (I := fun _ st=>input.CandidateInv st ∧ e ∈ st.2) ⟨h,he⟩ fun _ offset _ b _ hb=>?_).2
    have := candidateStep_spec ho position offset hb.1
    exact ⟨this.1,this.2.1 e hb.2⟩
  · exact foldl_reaches (I := input.CandidateInv) (P := fun st=>(p,input.idx p) ∈ st.2) h
      (fun b offset hb=>(candidateStep_spec ho position offset hb).1)
      (fun b offset hb=>(candidateStep_spec ho position offset hb).2.1 _) hoff
      (fun b hb=>(candidateStep_spec ho position offset hb).2.2 p hp hcell)

lemma candidateInv_new : input.CandidateInv (.new input.bounds,[]) :=
  ⟨fun _ he=>absurd he not_mem_nil,fun _ _ h=>by simp at h⟩

lemma mem_candidates (ho : o.Over input.bounds) {changed : List BlockPos} :
    ∀ e ∈ changeCandidates o input.bounds changed, input.bounds.Contains e.1 ∧ e.2=input.idx e.1 :=
  (foldl_invariant (I := fun _ st=>input.CandidateInv st) candidateInv_new
    fun _ position _ _ _ hb=>(changedCells_spec ho position hb).1).cell

lemma candidate_of_changed (ho : o.Over input.bounds) {changed : List BlockPos} {p : BlockPos}
    (hp : input.bounds.Contains p) {position : BlockPos} (hc : position ∈ changed) (offset : Offset)
    (hoff : offset ∈ (0,0,0) :: directions.map neighbours) (hstep : position.step offset=p) :
    (p,input.idx p) ∈ changeCandidates o input.bounds changed := by
  have hcell : position.checkedOffset offset=some p := by
    rw [BlockPos.checkedOffset_eq_some]
    exact ⟨hstep.symm,hp.representable⟩
  exact foldl_reaches (I := input.CandidateInv) (P := fun st=>(p,input.idx p) ∈ st.2)
    candidateInv_new (fun b position hb=>(changedCells_spec ho position hb).1)
    (fun b position hb=>(changedCells_spec ho position hb).2.1 _) hc
    (fun b hb=>(changedCells_spec ho position hb).2.2 p hp offset hoff hcell)

lemma spreads_of_near (ho : o.Over input.bounds) {candidates darkened : List (BlockPos × ℕ)}
    {p : BlockPos} (hp : input.bounds.Contains p)
    (h : (p,input.idx p) ∈ candidates ∨ (p,input.idx p) ∈ darkened ∨ ∃ e ∈ darkened, ∃ d, e.1.step (neighbours d) = p) :
    (spreadingCells o input.bounds candidates darkened).containsAtIndex (input.idx p) = true := by
  have hnear : ∀ e s d, s.containsAtIndex (input.idx p) = true →
      (spreadNeighbour o e s d).containsAtIndex (input.idx p) = true := by
    intro e s d hs
    rw [spreadNeighbour]
    split
    · exact hs
    · simp [hs]
  have haround : ∀ (s : DensePositionSet) (e : BlockPos × ℕ),
      (s.insertAtIndex e.2).containsAtIndex (input.idx p) = true →
      (spreadAround o s e).containsAtIndex (input.idx p) = true := fun s e hs =>
    foldl_invariant (I := fun _ (s : DensePositionSet)=>s.containsAtIndex (input.idx p) = true) hs
      fun _ d _ s _ hs=>hnear e.1 s d hs
  have hkeep : ∀ (s : DensePositionSet) (e : BlockPos × ℕ), s.containsAtIndex (input.idx p) = true →
      (spreadAround o s e).containsAtIndex (input.idx p) = true :=
    fun s e hs=>haround s e (by simp [hs])
  rcases h with hc | hd | ⟨e,he,d,hstep⟩
  · refine foldl_invariant (I := fun _ (s : DensePositionSet)=>s.containsAtIndex (input.idx p) = true) ?_
      fun _ e _ s _ hs=>hkeep s e hs
    exact foldl_reaches (I := fun _=>True)
      (P := fun s : DensePositionSet=>s.containsAtIndex (input.idx p) = true) trivial
      (fun _ _ _=>trivial) (fun s e _ hs=>by simp [hs]) hc (fun s _=>by simp)
  · exact foldl_reaches (I := fun _=>True)
      (P := fun s : DensePositionSet=>s.containsAtIndex (input.idx p) = true) trivial
      (fun _ _ _=>trivial) (fun s e _ hs=>hkeep s e hs) hd
      (fun s _=>haround s _ (by simp))
  · refine foldl_reaches (I := fun _=>True)
      (P := fun s : DensePositionSet=>s.containsAtIndex (input.idx p) = true) trivial
      (fun _ _ _=>trivial) (fun s e _ hs=>hkeep s e hs) he fun s _=>?_
    refine foldl_reaches (I := fun _=>True)
      (P := fun s : DensePositionSet=>s.containsAtIndex (input.idx p) = true) trivial
      (fun _ _ _=>trivial) (fun s d _ hs=>hnear e.1 s d hs) (mem_finRange d) fun s _=>?_
    have hcell : e.1.checkedOffset (neighbours d) = some p :=
      BlockPos.checkedOffset_eq_some.2 ⟨hstep.symm,hp.representable⟩
    simp [spreadNeighbour,hcell,MutableOutput.index_eq ho input.cells_le hp]

variable {changed : List BlockPos}

def Untouched (changed : List BlockPos) (p : BlockPos) : Prop :=
  p ∉ changed ∧ ∀ d, p.step (neighbours d) ∉ changed

lemma untouched_of_not_candidate (ho : o.Over input.bounds) {p : BlockPos} (hp : input.bounds.Contains p)
    (h : (p,input.idx p) ∉ changeCandidates o input.bounds changed) : Untouched changed p := by
  constructor
  · intro hc
    refine h (candidate_of_changed ho hp hc (0,0,0) (by simp) ?_)
    simp [BlockPos.step]
  · intro d hc
    exact h (candidate_of_changed ho hp hc (neighbours (opposite d))
      (.tail _ (mem_map.2 ⟨_,mem_finRange _,rfl⟩)) (step_opposite p d))

end SolveInput

namespace SolvedBefore

variable {input : SolveInput} {changed : List BlockPos} (w : SolvedBefore input changed)

/-- The scene the prior light was solved in. -/
def scene : Scene := .of w.before input.old input.bounds input.profile

lemma seed_le_scene (p : BlockPos) (hp : w.scene.bounds.Contains p) : w.scene.blocks.skySeed p≤15 := w.seed_le p hp

variable {w} {p : BlockPos}

section

variable (hp : p ∉ changed)
include hp

lemma inside_iff : w.scene.Inside p ↔ input.scene.Inside p := by
  change _ ∧ (w.before.sample p).filter≠none ↔ _ ∧ (input.source.sample p).filter≠none
  rw [w.sample_eq p hp]
  rfl

lemma filterAt_eq : w.scene.filterAt p=input.scene.filterAt p := by
  change (w.before.sample p).filter.getD 0 = (input.source.sample p).filter.getD 0
  rw [w.sample_eq p hp]

lemma base_eq (c : LightChannel) : w.scene.base p c=input.scene.base p c := by
  cases c with
  | block =>
    change (w.before.sample p).emission = (input.source.sample p).emission
    rw [w.sample_eq p hp]
  | sky =>
    change (if input.profile.allowsSky then w.before.skySeed p-w.scene.filterAt p else 0) =
      (if input.profile.allowsSky then input.source.skySeed p-input.scene.filterAt p else 0)
    rw [w.seed_eq p hp,filterAt_eq hp]

lemma baseRank_eq (c : LightChannel) : w.scene.baseRank p c=input.scene.baseRank p c := by
  rw [Scene.baseRank,base_eq hp]
  rfl

end

lemma level_le_solved (hp : input.bounds.Contains p) (c : LightChannel) : input.level p c≤w.solved (p,c) := by
  rw [w.level_eq p hp c]
  exact min_le_left _ _

variable (w) in
include w in
lemma base_le_level (hp : input.scene.Inside p) (hu : p ∉ changed)
    (c : LightChannel) : input.scene.base p c ≤ input.level p c := by
  have hle := (Scene.le_source ((inside_iff hu).2 hp) c).trans (w.isSolution.1.source_le (p,c))
  rw [baseRank_eq hu] at hle
  rw [w.level_eq p hp.1 c]
  refine le_trans ?_ (min_le_min_right 15 hle)
  rw [Scene.baseRank,min_rank (SolveInput.base_le hp c)]

variable (w) in
include w in
lemma supported_of_untouched (hp : input.scene.Inside p) (hu : SolveInput.Untouched changed p) (c : LightChannel) :
    input.level p c=0 ∨ input.Supported p c (input.level p c) := by
  have hsol : w.scene.system.IsSolution w.solved := w.isSolution
  rw [w.level_eq p hp.1 c]
  rcases Nat.eq_zero_or_pos (w.solved (p,c)) with hz | hpos
  · exact .inl (by simp [hz])
  refine .inr ?_
  have hallow : ¬(c = .sky ∧ input.profile.allowsSky=false) := by
    rintro ⟨rfl,hno⟩
    have := Scene.solution_sky_zero hsol hno p
    omega
  obtain ⟨-,hb | ⟨d,hd⟩ | ⟨d,hq,hd⟩⟩ := Scene.solution_supported hsol hpos
  · refine .inl ?_
    rw [baseRank_eq hu.1 c] at hb
    rw [← min_rank (SolveInput.base_le hp c) (decide (c = .sky) && input.profile.directSkyDown)]
    exact min_le_min_right _ hb
  · obtain ⟨q,level,direct,hq,hout,hknown,-,hhalo,heq⟩ := Scene.haloRank_eq (hpos.trans_le hd)
    obtain ⟨rfl,-⟩ := BlockPos.checkedOffset_eq_some.1 hq
    have hknown' : (input.source.sample (p.step (neighbours d))).filter≠none := by
      rw [← w.sample_eq _ (hu.2 d)]
      exact hknown
    refine .inr ⟨hallow,d,_,hq,hknown',level,direct,?_,?_⟩
    · exact (if_neg hout).trans hhalo
    · rw [heq,filterAt_eq hu.1] at hd
      have hl := input.scene.halo_le _ _ _ _ hhalo
      refine (min_le_min_right _ hd).trans (Scene.min_carried_le (min_rank hl direct) fun _ h16=>?_)
      rw [rank] at h16
      split_ifs at h16 with hb
      · simp only [Bool.and_eq_true] at hb
        exact hb.1
      · unfold directRank at h16
        omega
  · have hqin : input.scene.Inside (p.step (neighbours d)) := (inside_iff (hu.2 d)).1 hq
    have hstep : p.checkedOffset (neighbours d) = some (p.step (neighbours d)) :=
      BlockPos.checkedOffset_of_representable hqin.1.representable
    refine .inr ⟨hallow,d,_,hstep,hqin.2,_,_,if_pos hqin.1,?_⟩
    rw [filterAt_eq hu.1] at hd
    refine (min_le_min_right _ hd).trans (Scene.min_carried_le (w.level_eq _ hqin.1 c).symm fun hsky h16=>?_)
    subst hsky
    have := (Scene.solution_le w.seed_le_scene hsol (p.step (neighbours d),.sky)).antisymm h16
    rw [SolveInput.direct,w.direct_eq _ hqin.1]
    simp [this]

variable {spreading : ℕ → Bool}

lemma field_le_solved {o : MutableOutput} {st : Queueing} (hq : input.Queued o spreading input.bounds.cells st)
    (hp : input.scene.Inside p) (hu : p ∉ changed) (c : LightChannel)
    (hheld : input.held o p c=input.level p c) :
    input.field o st.directSky (p,c) ≤ w.solved (p,c) := by
  simp only [SolveInput.field_of_inside hp,SolveInput.direct_iff hq hp]
  split_ifs with hd
  · obtain ⟨rfl,⟨hdown,h15,hf⟩,hb | hdir⟩ := hd
    · have hle := (Scene.le_source ((inside_iff hu).2 hp) .sky).trans (w.isSolution.1.source_le (p,.sky))
      rw [baseRank_eq hu] at hle
      refine le_trans ?_ hle
      simp [Scene.baseRank,rank,hb,show input.scene.profile.directSkyDown=true from hdown]
    · rw [w.direct_eq _ hp.1,decide_eq_true_iff] at hdir
      exact hdir.ge
  · exact hheld.le.trans (level_le_solved hp.1 c)

lemma solved_le_field {o : MutableOutput} {st : Queueing}
    (hload : input.Loaded o) (hq : input.Queued o spreading input.bounds.cells st)
    (hp : input.scene.Inside p) (hu : p ∉ changed) (c : LightChannel)
    (hheld : input.level p c ≤ input.held o p c) :
    w.solved (p,c) ≤ input.field o st.directSky (p,c) := by
  have hle16 := Scene.solution_le w.seed_le_scene w.isSolution (p,c)
  have hlevel := w.level_eq p hp.1 c
  have h15 : input.held o p c≤15 := hload.le _ _
  by_cases h16 : w.solved (p,c) = directRank
  · obtain ⟨rfl,hdown,-,hf,-⟩ := Scene.solution_direct w.seed_le_scene w.isSolution h16
    have hbit := w.direct_eq p hp.1
    rw [h16] at hlevel hbit
    have hheld15 : input.held o p .sky=15 := by
      unfold directRank at hlevel
      omega
    have hr : input.RetainedDirect o p := by
      refine ⟨⟨hdown,hheld15,?_⟩,.inr (by simpa using hbit)⟩
      rw [← filterAt_eq (w := w) hu]
      exact hf
    simp only [SolveInput.field_of_inside hp,SolveInput.direct_iff hq hp,hr,and_self,if_true]
    exact hle16
  · refine le_trans ?_ (SolveInput.held_le_field hload _ hp c)
    unfold directRank at hle16 h16
    omega

end SolvedBefore

namespace SolveInput

lemma solveLightChanges_ensures (input : SolveInput) {changed : List BlockPos}
    (w : SolvedBefore input changed) {volume : ℕ} (generation : ℕ) {limits : SolverLimits}
    (scratch : LightSolverScratch) (hv : input.bounds.volume=some volume)
    (hdense : volume≤u32Max) (hmax : volume≤limits.maxVoxels) :
    Ensures (Halt.Exceeds limits) (Exact input.scene)
      (solveLightChangesWithScratch input.source input.old input.bounds generation input.profile
        limits scratch changed) := by
  obtain ⟨rfl,-⟩ := cells_of_volume hv
  have hcheck : checkedVolume input.bounds limits = .ok input.bounds.cells := by
    rw [checkedVolume,hv]
    exact if_neg (Nat.not_lt.2 hmax)
  rw [solveLightChangesWithScratch,hcheck,except_ok_bind]
  refine Ensures.bind (loadPrior_ensures generation) fun o ho=>?_
  obtain ⟨hload,hheld⟩ := ho
  simp only [IncreaseQueue.reset_eq _ hdense,except_ok_bind]
  have hcells := @mem_candidates input o hload.shape changed
  set candidates := changeCandidates o input.bounds changed with hcand
  refine Ensures.bind (seedDarken_ensures hcells (darkenInv_loaded hload hheld)) fun st₁ h₁=>?_
  refine Ensures.bind (darkenLoop_ensures h₁.1 h₁.2) fun st₂ h₂=>?_
  obtain ⟨hinv,hseed,hempty⟩ := h₂
  have hlisted : ∀ i ∈ (candidates++st₂.darkened).map Prod.snd, ∃ p, input.bounds.Contains p ∧ i=input.idx p := by
    intro i hi
    obtain ⟨e,he,rfl⟩ := mem_map.1 hi
    rcases mem_append.1 he with he | he
    · exact ⟨e.1,hcells e he⟩
    · exact ⟨e.1,(hinv.darkened e he).1.1,(hinv.darkened e he).2⟩
  have huntouched : ∀ p, input.bounds.Contains p → (p,input.idx p) ∉ candidates →
      Untouched changed p := fun p hp hnot=>untouched_of_not_candidate hload.shape hp hnot
  refine Ensures.bind (raiseToBase_ensures hinv.loaded hlisted) fun o' ho'=>?_
  obtain ⟨hload',hheld'⟩ := ho'
  have hmem : ∀ p, input.bounds.Contains p → (input.idx p ∈ (candidates++st₂.darkened).map Prod.snd ↔
        (p,input.idx p) ∈ candidates ∨ (p,input.idx p) ∈ st₂.darkened) := by
    intro p hp
    rw [← mem_append]
    constructor
    · intro hi
      obtain ⟨⟨q,i⟩,he,hqi⟩ := mem_map.1 hi
      have hq : input.bounds.Contains q ∧ i=input.idx q := by
        rcases mem_append.1 he with he | he
        · exact hcells _ he
        · exact ⟨(hinv.darkened _ he).1.1,(hinv.darkened _ he).2⟩
      rw [hq.2] at hqi he
      rw [(idx_inj hq.1 hp).1 hqi] at he
      exact he
    · exact fun he=>mem_map.2 ⟨_,he,rfl⟩
  -- Elsewhere every level already reaches its own source.
  have hkeep : ∀ p, input.scene.Inside p → ∀ c, (p,input.idx p) ∉ st₂.darkened →
      input.held st₂.output p c=input.level p c := by
    intro p hp c hnot
    rcases hinv.cell p hp c with hk | ⟨-,-,hd⟩
    · exact hk
    · exact absurd hd hnot
  have hraised : ∀ p, input.scene.Inside p → ∀ c, input.held o' p c =
      max (input.held st₂.output p c) (input.scene.base p c) := by
    intro p hp c
    rw [hheld' p hp c]
    split_ifs with hin
    · rfl
    · rw [hmem p hp.1,not_or] at hin
      rw [hkeep p hp c hin.2]
      exact (max_eq_left (w.base_le_level hp (huntouched p hp.1 hin.1).1 c)).symm
  refine Ensures.bind (queueLit_ensures hdense) fun queued hq=>?_
  have hbase : ∀ p, input.scene.Inside p → ∀ c, input.scene.base p c ≤ input.held o' p c :=
    fun p hp c=>(hraised p hp c) ▸ le_max_right _ _
  have hsup : ∀ p c, input.Kept st₂ (p,c) → input.level p c=0 ∨ input.Supported p c (input.level p c) := by
    intro p c hk
    by_cases hc : (p,input.idx p) ∈ candidates
    · exact hseed (p,input.idx p) hc hk.1 c hk.2
    · exact w.supported_of_untouched hk.1 (huntouched p hk.1.1 hc) c
  have hkept := kept_of_raised hinv hempty hsup hraised
  have hf := fieldInv_queued hload' hq hbase hkept
  refine propagateBoth_ensures hf (queueInv_queued hload' hq hbase hkept ?_)
  intro p hp c hs d hd
  by_cases hzero : input.held o' p c=0
  · rw [carried_field_zero hf hp hzero]
    exact Nat.zero_le _
  -- A cell that may not spread is untouched and undarkened, and so are its neighbours.
  have hnear : ¬((p,input.idx p) ∈ candidates ∨ (p,input.idx p) ∈ st₂.darkened ∨
      ∃ e ∈ st₂.darkened, ∃ d, e.1.step (neighbours d) = p) := fun hn =>
    hs ⟨hzero,spreads_of_near hload'.shape hp.1 hn⟩
  simp only [not_or] at hnear
  obtain ⟨hnc,hnd,hnn⟩ := hnear
  have hu := huntouched p hp.1 hnc
  set q := p.step (neighbours d) with hqdef
  have hqu : q ∉ changed := hu.2 d
  have hqd : (q,input.idx q) ∉ st₂.darkened := fun hm =>
    hnn ⟨_,hm,opposite d,step_opposite p d⟩
  have hpheld : input.held o' p c=input.level p c := by
    rw [hraised p hp c,hkeep p hp c hnd]
    exact max_eq_left (w.base_le_level hp hu.1 c)
  have hqheld : input.level q c ≤ input.held o' q c := by
    rw [hraised q hd c,hkeep q hd c hqd]
    exact le_max_left _ _
  have hback : q.step (neighbours (opposite d)) = p := step_opposite p d
  have hflow := w.scene.le_flow (c := c) (d := opposite d)
    ((SolvedBefore.inside_iff hqu).2 hd) (by rw [hback]; exact (SolvedBefore.inside_iff hu.1).2 hp)
    (w.solved (p,c))
  rw [hback,SolvedBefore.filterAt_eq hqu] at hflow
  calc input.scene.carried c (opposite d) (input.scene.filterAt q) (input.field o' queued.directSky (p,c))
      ≤ input.scene.carried c (opposite d) (input.scene.filterAt q) (w.solved (p,c)) :=
        Scene.carried_mono _ _ _ _ (SolvedBefore.field_le_solved hq hp hu.1 c hpheld)
    _≤w.scene.system.flow (p,c) (q,c) (w.solved (p,c)) := hflow
    _≤w.solved (q,c) := w.isSolution.1.flow_le (p,c) (q,c)
    _ ≤ input.field o' queued.directSky (q,c) :=
        SolvedBefore.solved_le_field hload' hq hd hqu c hqheld

end SolveInput

end Cinnabar.Light
