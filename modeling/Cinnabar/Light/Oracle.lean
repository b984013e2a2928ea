import Cinnabar.Light.Solution

/-! # The scalar relaxation -/

namespace Cinnabar.Light

open LightBounds Relaxation List

/-- The relaxed light of one known cell. -/
structure Cell where
  block : ℕ := 0
  sky : ℕ := 0
  direct : Bool := false
deriving DecidableEq

section
variable (blocks : LightBlockAccess) (prior : LightReadAccess) (bounds : LightBounds)
  (profile : DimensionLightProfile)

def initialCell (p : BlockPos) : Option Cell :=
  match (blocks.sample p).filter with
  | none => none
  | some filter =>
    let sky := if profile.allowsSky then blocks.skySeed p-filter else 0
    some
      { block := (blocks.sample p).emission
        sky := sky
        direct := profile.directSkyDown && decide (sky=15) && decide (filter=0) }

variable (before : BlockPos → Option Cell)

/-- Light standing next to a cell: last round's field, or the trusted halo. -/
def incomingCell (source : BlockPos) : Cell :=
  if bounds.Contains source then (before source).getD {}
  else
    let block := match (prior.boundaryLight bounds.dimension source .block).trustedParts with
      | none => 0
      | some (level,_) => level
    let (sky,direct) := (prior.boundaryLight bounds.dimension source .sky).trustedParts.getD (0,false)
    ⟨block,sky,direct⟩

def relaxNeighbour (p : BlockPos) (filter : ℕ) (cell : Cell)
    (d : Fin 6) : Cell :=
  match p.checkedOffset (neighbours d) with
  | none => cell
  | some source =>
    if (blocks.sample source).filter=none then cell
    else
      let incoming := incomingCell prior bounds before source
      let cell := { cell with block := max cell.block (incoming.block-max filter 1) }
      if !profile.allowsSky then cell
      else
        let direct := profile.directSkyDown && decide (neighbours d = (0,1,0)) &&
          decide (incoming.sky=15) && incoming.direct && decide (filter=0)
        { cell with
          sky := max cell.sky (if direct then 15 else incoming.sky-max filter 1)
          direct := cell.direct || direct }

/-- One round over the complete field. -/
def relaxRound (p : BlockPos) : Option Cell :=
  match before p, (blocks.sample p).filter with
  | some cell, some filter =>
    some (directions.foldl (relaxNeighbour blocks prior bounds profile before p filter) cell)
  | _, _ => none

/-- Rounds until one changes nothing; `none` when `fuel` rounds all changed something. -/
def relaxLoop : ℕ → (BlockPos → Option Cell) → Option (BlockPos → Option Cell)
  | 0, _ => none
  | fuel+1, before =>
    let field := relaxRound blocks prior bounds profile before
    if bounds.positions.all fun p=>decide (field p=before p) then some field
    else relaxLoop fuel field

def scalarFixedPoint (fuel : ℕ) : Option (BlockPos → Option Cell) :=
  relaxLoop blocks prior bounds profile fuel fun p =>
    if bounds.Contains p then initialCell blocks profile p else none

end

def Cell.rank (cell : Cell) : LightChannel → ℕ
  | .block => cell.block
  | .sky => Light.rank cell.sky cell.direct

/-- Levels are nibbles and direct sky is full. -/
structure Cell.Valid (cell : Cell) : Prop where
  block_le : cell.block≤15
  sky_le : cell.sky≤15
  direct_full : cell.direct=true → cell.sky=15

lemma Cell.Valid.rank_le {cell : Cell} (h : cell.Valid) (c : LightChannel) : cell.rank c≤directRank := by
  cases c with
  | block => exact h.block_le.trans (by unfold directRank; omega)
  | sky => exact Light.rank_le h.sky_le _

lemma rank_eq_direct {level : ℕ} {direct : Bool} (h : level≤15) :
    rank level direct=directRank ↔ level=15 ∧ direct=true := by
  unfold rank directRank
  split_ifs with hd
  · simp only [Bool.and_eq_true,beq_iff_eq] at hd
    simp [hd]
  · simp only [Bool.and_eq_true,beq_iff_eq] at hd
    constructor
    · omega
    · exact fun h'=>absurd ⟨h'.2,h'.1⟩ hd

lemma Cell.Valid.ext_rank {cell cell' : Cell} (h : cell.Valid) (h' : cell'.Valid)
    (hr : ∀ c, cell.rank c=cell'.rank c) : cell=cell' := by
  have hsky : Light.rank cell.sky cell.direct=Light.rank cell'.sky cell'.direct := hr .sky
  have hlevel : cell.sky=cell'.sky := by
    rw [← min_rank h.sky_le cell.direct,hsky,min_rank h'.sky_le]
  have hdirect : cell.direct=true ↔ cell'.direct=true := by
    have h1 := @rank_eq_direct _ cell.direct h.sky_le
    have h2 := @rank_eq_direct _ cell'.direct h'.sky_le
    rw [hsky] at h1
    constructor
    · intro hd
      exact (h2.1 (h1.2 ⟨h.direct_full hd,hd⟩)).2
    · intro hd
      exact (h1.1 (h2.2 ⟨h'.direct_full hd,hd⟩)).2
  cases cell; cases cell'
  simp only [Cell.mk.injEq]
  exact ⟨hr .block,hlevel,Bool.eq_iff_iff.2 hdirect⟩

lemma rank_max {level level' : ℕ} {direct direct' : Bool} (hl : level≤15) (hl' : level'≤15)
    (hd : direct=true → level=15) (hd' : direct'=true → level'=15) :
    rank (max level level') (direct || direct') = max (rank level direct) (rank level' direct') := by
  unfold rank directRank
  cases direct <;> cases direct' <;> simp_all <;> omega

def cellRanks (field : BlockPos → Option Cell) (cell : LightCell) : ℕ :=
  match field cell.1 with
  | none => 0
  | some held => held.rank cell.2

namespace Scene

variable {scene : Scene}

lemma carried_sky {d : Fin 6} {f level : ℕ} {direct : Bool} (hl : level≤15) :
    let enters := scene.profile.directSkyDown && decide (neighbours d = (0,1,0)) &&
      decide (level=15) && direct && decide (f=0)
    scene.carried .sky d f (rank level direct) =
      rank (if enters then 15 else level-max f 1) enters := by
  intro enters
  by_cases he : enters=true
  · have hcond := he
    simp only [enters,Bool.and_eq_true,decide_eq_true_eq] at hcond
    obtain ⟨⟨⟨⟨hdown,hup⟩,rfl⟩,rfl⟩,rfl⟩ := hcond
    rw [he,carried_of_direct ⟨rfl,hdown,neighbours_eq_up.1 hup,by simp [rank],rfl⟩]
    rfl
  · rw [Bool.not_eq_true] at he
    rw [he,carried_of_not_direct,min_rank hl,rank_false]
    · rfl
    · rintro ⟨-,hdown,hup,h16,rfl⟩
      obtain ⟨rfl,rfl⟩ := (rank_eq_direct hl).1 ((rank_le hl direct).antisymm h16)
      rw [← neighbours_eq_up] at hup
      simp [enters,hdown,hup] at he

/-- What the neighbour in direction `d` offers a cell. -/
def offer (scene : Scene) (x : LightCell → ℕ) (p : BlockPos) (c : LightChannel) (d : Fin 6) : ℕ :=
  max (scene.haloRank p c d) (if scene.Inside (p.step (neighbours d)) then
      scene.carried c d (scene.filterAt p) (x (p.step (neighbours d),c))
    else 0)

lemma offer_le {x y : LightCell → ℕ} (hy : scene.system.Closed y) (hxy : ∀ cell, x cell≤y cell)
    {p : BlockPos} (hp : scene.Inside p) (c : LightChannel) (d : Fin 6) :
    scene.offer x p c d≤y (p,c) := by
  refine max_le ((haloRank_le_source hp c d).trans (hy.source_le _)) ?_
  split_ifs with hq
  · exact (scene.carried_mono c d _ (hxy _)).trans ((le_flow hp hq _).trans (hy.flow_le _ _))
  · exact Nat.zero_le _

end Scene

namespace SolveInput

variable {input : SolveInput}

structure RelaxInv (input : SolveInput) (field : BlockPos → Option Cell) : Prop where
  inside : ∀ p, field p≠none ↔ input.scene.Inside p
  valid : ∀ p cell, field p=some cell → cell.Valid
  sky_off : input.profile.allowsSky=false → ∀ p, cellRanks field (p,.sky) = 0
  base_le : ∀ p, input.scene.Inside p → ∀ c, input.scene.baseRank p c ≤ cellRanks field (p,c)
  sound : input.scene.system.Sound (cellRanks field)

variable {field : BlockPos → Option Cell} {p : BlockPos}

lemma cellRanks_of_some {cell : Cell}
    (h : field p=some cell) (c : LightChannel) : cellRanks field (p,c) = cell.rank c := by
  simp only [cellRanks,h]

section

variable (h : input.RelaxInv field)
include h

/-- The cell standing next to a known cell, and what it offers. -/
lemma offer_eq_incoming {p q : BlockPos} {d : Fin 6} (hq : p.checkedOffset (neighbours d) = some q)
    (hknown : (input.source.sample q).filter≠none) :
    let incoming := incomingCell input.old input.bounds field q
    incoming.block≤15 ∧ incoming.sky≤15 ∧ ∀ c, ¬(c = .sky ∧ input.profile.allowsSky=false) →
        input.scene.offer (cellRanks field) p c d =
          input.scene.carried c d (input.scene.filterAt p) (incoming.rank c) := by
  intro incoming
  obtain ⟨rfl,-⟩ := BlockPos.checkedOffset_eq_some.1 hq
  by_cases hc : input.bounds.Contains (p.step (neighbours d))
  · have hin : input.scene.Inside (p.step (neighbours d)) := ⟨hc,hknown⟩
    obtain ⟨cell,hcell⟩ := Option.ne_none_iff_exists'.1 ((h.inside _).2 hin)
    have hincoming : incoming=cell := by
      simp only [incoming,incomingCell,if_pos hc,hcell,Option.getD_some]
    have hv := h.valid _ cell hcell
    rw [hincoming]
    refine ⟨hv.block_le,hv.sky_le,fun c _=>?_⟩
    have hhalo : input.scene.haloRank p c d=0 := by
      simp only [Scene.haloRank,hq]
      exact if_pos (.inl hc)
    rw [Scene.offer,hhalo,if_pos hin,cellRanks_of_some hcell,Nat.zero_max]
  · have hhalo : ∀ c, (input.old.boundaryLight input.bounds.dimension (p.step (neighbours d))
        c).trustedParts=input.scene.halo (p.step (neighbours d)) c := fun _=>rfl
    have hin : ¬input.scene.Inside (p.step (neighbours d)) := fun hin=>hc hin.1
    have hle := fun c=>input.scene.halo_le (p.step (neighbours d)) c
    simp only [incoming,incomingCell,if_neg hc,hhalo]
    refine ⟨?_,?_,fun c hallow=>?_⟩
    · cases hb : input.scene.halo (p.step (neighbours d)) .block with
      | none => simp
      | some parts => exact hle _ _ _ hb
    · cases hs : input.scene.halo (p.step (neighbours d)) .sky with
      | none => simp
      | some parts => exact hle _ _ _ hs
    · rw [Scene.offer,if_neg hin,Nat.max_zero]
      have hrank : input.scene.haloRank p c d = match input.scene.halo (p.step (neighbours d)) c with
          | none => 0
          | some (level,direct) =>
            input.scene.carried c d (input.scene.filterAt p) (rank level direct) := by
        simp only [Scene.haloRank,hq]
        refine if_neg ?_
        rintro (h' | h' | h')
        · exact hc h'
        · exact hknown h'
        · exact hallow h'
      rw [hrank]
      cases c with
      | block =>
        cases hb : input.scene.halo (p.step (neighbours d)) .block with
        | none => simp [Cell.rank]
        | some parts =>
          simp only [Cell.rank,Scene.carried_block]
          rw [min_rank (hle _ _ _ hb),min_eq_left (hle _ _ _ hb)]
      | sky =>
        cases hs : input.scene.halo (p.step (neighbours d)) .sky with
        | none => simp [Cell.rank,rank]
        | some parts => rfl

variable {p : BlockPos}

/-- One neighbour raises each rank to its offer. -/
lemma relaxNeighbour_spec {cell : Cell} (hv : cell.Valid) (d : Fin 6) :
    let cell' := relaxNeighbour input.source input.old input.bounds input.profile field p
      (input.scene.filterAt p) cell d
    cell'.Valid ∧
      ∀ c, cell'.rank c=max (cell.rank c) (input.scene.offer (cellRanks field) p c d) := by
  have hnone : (∀ c, input.scene.haloRank p c d=0) → ¬input.scene.Inside (p.step (neighbours d)) →
      ∀ c, cell.rank c=max (cell.rank c) (input.scene.offer (cellRanks field) p c d) := by
    intro hhalo hin c
    rw [Scene.offer,hhalo,if_neg hin]
    simp
  cases hq : p.checkedOffset (neighbours d) with
  | none =>
    simp only [relaxNeighbour,hq]
    refine ⟨hv,hnone (fun c=>by simp [Scene.haloRank,hq]) fun hin=>?_⟩
    rw [BlockPos.checkedOffset_of_representable hin.1.representable] at hq
    cases hq
  | some q =>
    by_cases hknown : (input.source.sample q).filter=none
    · simp only [relaxNeighbour,hq,if_pos hknown]
      obtain ⟨rfl,-⟩ := BlockPos.checkedOffset_eq_some.1 hq
      refine ⟨hv,hnone (fun c=>?_) fun hin=>hin.2 hknown⟩
      simp only [Scene.haloRank,hq]
      exact if_pos (.inr (.inl hknown))
    · obtain ⟨hb,hs,hoffer⟩ := offer_eq_incoming h hq hknown
      have hblock := hoffer .block (by simp)
      rw [Scene.carried_block] at hblock
      simp only [Cell.rank,min_eq_left hb] at hblock
      simp only [relaxNeighbour,hq,if_neg hknown]
      by_cases hsky : input.profile.allowsSky=true
      · have hoff := hoffer .sky (by simp [hsky])
        simp only [Cell.rank] at hoff
        rw [Scene.carried_sky hs] at hoff
        simp only [hsky,Bool.not_true,Bool.false_eq_true,if_false]
        generalize incomingCell input.old input.bounds field q=incoming at hb hs hblock hoff ⊢
        have henter : ∀ enters : Bool, (if enters then 15 else
            incoming.sky-max (input.scene.filterAt p) 1) ≤ 15 := by
          intro enters
          split_ifs <;> omega
        refine ⟨⟨by simp only; have := hv.block_le; omega,?_,?_⟩,fun c=>?_⟩
        · exact max_le hv.sky_le (henter _)
        · intro hd
          simp only [Bool.or_eq_true] at hd
          rcases hd with hd | hd
          · have := hv.direct_full hd
            have := henter (input.profile.directSkyDown && decide (neighbours d = (0,1,0)) &&
              decide (incoming.sky=15) && incoming.direct &&
              decide (input.scene.filterAt p=0))
            simp only
            omega
          · have := hv.sky_le
            simp only [hd,if_true]
            omega
        · cases c with
          | block =>
            rw [hblock]
            rfl
          | sky =>
            rw [hoff]
            refine rank_max hv.sky_le (henter _) hv.direct_full fun hd=>?_
            exact if_pos hd
      · have hfalse : input.profile.allowsSky=false := by simpa using hsky
        simp only [hfalse,Bool.not_false,if_true]
        refine ⟨⟨by simp only; have := hv.block_le; omega,hv.sky_le,hv.direct_full⟩, fun c=>?_⟩
        cases c with
        | block =>
          rw [hblock]
          rfl
        | sky =>
          have hzero : input.scene.offer (cellRanks field) p .sky d=0 := by
            refine Nat.le_zero.1 (max_le (Nat.le_of_eq ?_) ?_)
            · simp only [Scene.haloRank,hq]
              exact if_pos (.inr (.inr ⟨trivial,hfalse⟩))
            · rw [h.sky_off hfalse,Scene.carried_zero,ite_self]
          rw [hzero,Nat.max_zero]
          rfl

/-- A round raises each rank of a known cell to its six offers and nothing else. -/
lemma relaxRound_spec (hp : input.scene.Inside p) :
    ∃ cell, relaxRound input.source input.old input.bounds input.profile field p=some cell ∧
      cell.Valid ∧ ∀ c v, cell.rank c≤v ↔
        cellRanks field (p,c) ≤ v ∧ ∀ d, input.scene.offer (cellRanks field) p c d≤v := by
  obtain ⟨held,hheld⟩ := Option.ne_none_iff_exists'.1 ((h.inside p).2 hp)
  refine ⟨directions.foldl (relaxNeighbour input.source input.old input.bounds input.profile field
    p (input.scene.filterAt p)) held,?_,?_⟩
  · simp only [relaxRound,hheld,filter_eq_some hp.2]
  · have hfold := foldl_invariant (l := directions) (z := held)
      (f := relaxNeighbour input.source input.old input.bounds input.profile field p (input.scene.filterAt p))
      (I := fun pre cell=>cell.Valid ∧ ∀ c v, cell.rank c≤v ↔ cellRanks field (p,c) ≤ v ∧
        ∀ d ∈ pre, input.scene.offer (cellRanks field) p c d≤v)
      ⟨h.valid p held hheld,fun c v=>by simp [cellRanks_of_some hheld]⟩ ?_
    · simpa [directions] using hfold
    · rintro pre d post cell - ⟨hv,hr⟩
      obtain ⟨hv',hr'⟩ := relaxNeighbour_spec (p := p) h hv d
      refine ⟨hv',fun c v=>?_⟩
      rw [hr' c,max_le_iff,hr c v]
      simp only [mem_append,mem_singleton,or_imp,forall_and,forall_eq]
      tauto

lemma relaxRound_of_not_inside (hp : ¬input.scene.Inside p) :
    relaxRound input.source input.old input.bounds input.profile field p=none := by
  have hnone : field p=none := by
    by_contra hne
    exact hp ((h.inside p).1 hne)
  simp only [relaxRound,hnone]

end

section
variable {field : BlockPos → Option Cell} (h : input.RelaxInv field)
include h

lemma cellRanks_le_round (cell : LightCell) : cellRanks field cell ≤
    cellRanks (relaxRound input.source input.old input.bounds input.profile field) cell := by
  obtain ⟨p,c⟩ := cell
  by_cases hp : input.scene.Inside p
  · obtain ⟨cell,hcell,-,hr⟩ := relaxRound_spec h hp
    rw [cellRanks_of_some hcell]
    exact ((hr c _).1 le_rfl).1
  · have hnone : field p=none := by
      by_contra hne
      exact hp ((h.inside p).1 hne)
    simp [cellRanks,hnone]

lemma relaxInv_round : input.RelaxInv (relaxRound input.source input.old input.bounds input.profile field) where
  inside p := by
    by_cases hp : input.scene.Inside p
    · obtain ⟨cell,hcell,-⟩ := relaxRound_spec h hp
      simp [hcell,hp]
    · simp [relaxRound_of_not_inside h hp,hp]
  valid p cell hcell := by
    by_cases hp : input.scene.Inside p
    · obtain ⟨cell',hcell',hv,-⟩ := relaxRound_spec h hp
      rw [hcell',Option.some.injEq] at hcell
      exact hcell ▸ hv
    · rw [relaxRound_of_not_inside h hp] at hcell
      cases hcell
  sky_off hsky p := by
    by_cases hp : input.scene.Inside p
    · obtain ⟨cell,hcell,-,hr⟩ := relaxRound_spec h hp
      rw [cellRanks_of_some hcell]
      refine Nat.le_zero.1 ((hr .sky 0).2 ⟨(h.sky_off hsky p).le,fun d=>max_le ?_ ?_⟩)
      · by_contra hpos
        obtain ⟨_,_,_,-,-,-,hallow,-⟩ := Scene.haloRank_eq (Nat.lt_of_not_le hpos)
        exact hallow ⟨rfl,hsky⟩
      · rw [h.sky_off hsky,Scene.carried_zero,ite_self]
    · simp [cellRanks,relaxRound_of_not_inside h hp]
  base_le p hp c := (h.base_le p hp c).trans (cellRanks_le_round h _)
  sound := by
    rintro y hy ⟨p,c⟩
    by_cases hp : input.scene.Inside p
    · obtain ⟨cell,hcell,-,hr⟩ := relaxRound_spec h hp
      rw [cellRanks_of_some hcell]
      refine (hr c _).2 ⟨h.sound y hy _,fun d=>?_⟩
      exact Scene.offer_le hy (h.sound y hy) hp c d
    · simp [cellRanks,relaxRound_of_not_inside h hp]

lemma cellRanks_le_directRank (cell : LightCell) : cellRanks field cell≤directRank := by
  obtain ⟨p,c⟩ := cell
  cases hc : field p with
  | none => simp [cellRanks,hc]
  | some held =>
    rw [cellRanks_of_some hc]
    exact (h.valid p held hc).rank_le c

lemma isSolution_of_stable (hstable : ∀ p, input.bounds.Contains p →
    relaxRound input.source input.old input.bounds input.profile field p=field p) :
    input.scene.system.IsSolution (cellRanks field) := by
  have hoffer : ∀ p, input.scene.Inside p → ∀ c d,
      input.scene.offer (cellRanks field) p c d ≤ cellRanks field (p,c) := by
    intro p hp c d
    obtain ⟨cell,hcell,-,hr⟩ := relaxRound_spec h hp
    rw [hstable p hp.1] at hcell
    have := ((hr c _).1 le_rfl).2 d
    rwa [← cellRanks_of_some hcell c] at this
  refine System.isSolution_of_sound (System.closed_of_settled ?_ ?_) h.sound
  · rintro ⟨p,c⟩
    exact Scene.source_le (fun hp=>h.base_le p hp c) fun hp d=>(le_max_left _ _).trans (hoffer p hp c d)
  · rintro ⟨p,c⟩
    refine Scene.settled_of_neighbours fun d hp hq=>?_
    have hback : (p.step (neighbours d)).step (neighbours (opposite d)) = p := step_opposite p d
    have := (le_max_right _ _).trans (hoffer _ hq c (opposite d))
    rwa [hback,if_pos hp] at this

/-- A round that changes something raises a rank. -/
lemma round_progress {p : BlockPos} (hp : input.bounds.Contains p)
    (hne : relaxRound input.source input.old input.bounds input.profile field p≠field p) :
    ∑ cell ∈ input.region, (directRank-cellRanks
        (relaxRound input.source input.old input.bounds input.profile field) cell) <
      ∑ cell ∈ input.region, (directRank-cellRanks field cell) := by
  have hin : input.scene.Inside p := by
    by_contra hp'
    refine hne ((relaxRound_of_not_inside h hp').trans ?_)
    by_contra hsome
    exact hp' ((h.inside p).1 (Ne.symm hsome))
  obtain ⟨cell,hcell,hv,-⟩ := relaxRound_spec h hin
  obtain ⟨held,hheld⟩ := Option.ne_none_iff_exists'.1 ((h.inside p).2 hin)
  obtain ⟨c,hc⟩ : ∃ c, held.rank c≠cell.rank c := by
    by_contra hall
    simp only [not_exists,not_not] at hall
    refine hne ?_
    rw [hcell,hheld,hv.ext_rank (h.valid p held hheld) fun c=>(hall c).symm]
  refine Finset.sum_lt_sum (fun cell _=>?_) ⟨(p,c),mem_region.2 hp,?_⟩
  · exact Nat.sub_le_sub_left (cellRanks_le_round h cell) _
  · have hle := cellRanks_le_round h (p,c)
    have hmax := cellRanks_le_directRank (relaxInv_round h) (p,c)
    rw [cellRanks_of_some hheld,cellRanks_of_some hcell] at hle
    rw [cellRanks_of_some hcell] at hmax
    rw [cellRanks_of_some hheld,cellRanks_of_some hcell]
    omega

end

/-- Relaxing stops, within as many rounds as ranks can rise, at the least solution. -/
lemma relaxLoop_spec {fuel : ℕ} (h : input.RelaxInv field)
    (hfuel : ∑ cell ∈ input.region, (directRank-cellRanks field cell) < fuel) :
    ∃ field', relaxLoop input.source input.old input.bounds input.profile fuel field=some field' ∧
      input.RelaxInv field' ∧ input.scene.system.IsSolution (cellRanks field') := by
  induction fuel generalizing field with
  | zero => omega
  | succ fuel ih =>
    rw [relaxLoop]
    by_cases hstable : (input.bounds.positions.all fun p=>decide
        (relaxRound input.source input.old input.bounds input.profile field p=field p)) = true
    · have hstable' : relaxRound input.source input.old input.bounds input.profile field=field := by
        funext p
        by_cases hp : input.bounds.Contains p
        · exact of_decide_eq_true (all_eq_true.1 hstable p (mem_positions.2 hp))
        · have hin : ¬input.scene.Inside p := fun hin=>hp hin.1
          rw [relaxRound_of_not_inside h hin]
          by_contra hne
          exact hin ((h.inside p).1 (Ne.symm hne))
      refine ⟨_,if_pos hstable,relaxInv_round h,?_⟩
      rw [hstable']
      exact isSolution_of_stable h fun p _=>by rw [hstable']
    · rw [if_neg hstable]
      rw [Bool.not_eq_true,all_eq_false] at hstable
      obtain ⟨p,hp,hne⟩ := hstable
      have hlt := round_progress h (mem_positions.1 hp) (by simpa using hne)
      exact ih (relaxInv_round h) (by omega)

abbrev initialField (input : SolveInput) (p : BlockPos) : Option Cell :=
  if input.bounds.Contains p then initialCell input.source input.profile p else none

lemma initialField_of_inside (hp : input.scene.Inside p) : ∃ cell, input.initialField p=some cell ∧ cell.Valid ∧
      ∀ c, cell.rank c=input.scene.baseRank p c := by
  have hcell : input.initialField p=some
      { block := input.scene.base p .block
        sky := input.scene.base p .sky
        direct := input.profile.directSkyDown && decide (input.scene.base p .sky=15) &&
          decide (input.scene.filterAt p=0) } := by
    rw [initialField,if_pos (show input.bounds.Contains p from hp.1),initialCell, filter_eq_some hp.2]
    rfl
  refine ⟨_,hcell,⟨base_le hp .block,base_le hp .sky,fun hd=>?_⟩,fun c=>?_⟩
  · simp only [Bool.and_eq_true,decide_eq_true_eq] at hd
    exact hd.1.2
  · cases c with
    | block => simp [Cell.rank,Scene.baseRank,rank_false]
    | sky =>
      have hfilter := Scene.filterAt_of_base seed_le_scene hp.1
      change rank _ _=rank _ input.profile.directSkyDown
      by_cases h15 : input.scene.base p .sky=15
      · simp [h15,hfilter h15]
      · simp [rank,h15]

lemma initialField_of_not_inside (hp : ¬input.scene.Inside p) : input.initialField p=none := by
  simp only [initialField]
  split_ifs with hc
  · have hnone : (input.source.sample p).filter=none := by
      by_contra hk
      exact hp ⟨hc,hk⟩
    simp [initialCell,hnone]
  · rfl

lemma relaxInv_initial : input.RelaxInv input.initialField where
  inside p := by
    by_cases hp : input.scene.Inside p
    · obtain ⟨cell,hcell,-⟩ := initialField_of_inside hp
      simp [hcell,hp]
    · simp [initialField_of_not_inside hp,hp]
  valid p cell hcell := by
    by_cases hp : input.scene.Inside p
    · obtain ⟨cell',hcell',hv,-⟩ := initialField_of_inside hp
      rw [hcell',Option.some.injEq] at hcell
      exact hcell ▸ hv
    · rw [initialField_of_not_inside hp] at hcell
      cases hcell
  sky_off hsky p := by
    by_cases hp : input.scene.Inside p
    · obtain ⟨cell,hcell,-,hr⟩ := initialField_of_inside hp
      rw [cellRanks_of_some hcell,hr]
      simp [Scene.baseRank,Scene.base,show input.scene.profile.allowsSky=false from hsky,rank]
    · simp [cellRanks,initialField_of_not_inside hp]
  base_le p hp c := by
    obtain ⟨cell,hcell,-,hr⟩ := initialField_of_inside hp
    rw [cellRanks_of_some hcell,hr]
  sound := by
    rintro y hy ⟨p,c⟩
    by_cases hp : input.scene.Inside p
    · obtain ⟨cell,hcell,-,hr⟩ := initialField_of_inside hp
      rw [cellRanks_of_some hcell,hr]
      exact (Scene.le_source hp c).trans (hy.source_le _)
    · simp [cellRanks,initialField_of_not_inside hp]

def relaxRounds (bounds : LightBounds) : ℕ := 32*bounds.cells+1

/-- The reference relaxation stops at the least solution. -/
lemma scalarFixedPoint_spec {fuel : ℕ} (hfuel : relaxRounds input.bounds≤fuel) :
    ∃ field, scalarFixedPoint input.source input.old input.bounds input.profile fuel=some field ∧
      input.RelaxInv field ∧ input.scene.system.IsSolution (cellRanks field) := by
  refine relaxLoop_spec relaxInv_initial ?_
  change ∑ cell ∈ input.region, (directRank-cellRanks input.initialField cell) < fuel
  have hsum : ∑ cell ∈ input.region, (directRank-cellRanks input.initialField cell) ≤ input.region.card • directRank :=
    Finset.sum_le_card_nsmul _ _ _ fun _ _=>Nat.sub_le _ _
  have hcard := input.card_region
  unfold relaxRounds at hfuel
  unfold directRank at hsum
  simp only [smul_eq_mul] at hsum
  unfold directRank
  omega

lemma RelaxInv.levels (h : input.RelaxInv field) (p : BlockPos) :
    ((field p).getD {}).block=min (cellRanks field (p,.block)) 15 ∧
      ((field p).getD {}).sky=min (cellRanks field (p,.sky)) 15 ∧
      ((field p).getD {}).direct=decide (cellRanks field (p,.sky) = directRank) := by
  cases hc : field p with
  | none => simp [cellRanks,hc,directRank]
  | some cell =>
    have hv := h.valid p cell hc
    simp only [Option.getD_some,cellRanks_of_some hc]
    refine ⟨(min_eq_left hv.block_le).symm,(min_rank hv.sky_le _).symm,?_⟩
    rw [Bool.eq_iff_iff,decide_eq_true_iff]
    simp only [Cell.rank,rank_eq_direct hv.sky_le]
    exact ⟨fun hd=>⟨hv.direct_full hd,hd⟩,fun hd=>hd.2⟩

end SolveInput

end Cinnabar.Light
