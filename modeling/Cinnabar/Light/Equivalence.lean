import Cinnabar.Light.ChangesExact
import Cinnabar.Light.Oracle
import Cinnabar.Light.Truncation

/-! # The solves agree

Exactness turns every solve into the same light.
-/

namespace Cinnabar.Light

open LightBounds Relaxation

def HitsLimit (r : Except Halt LightSolveOutput) : Prop := ∃ e, r = .error e ∧ e.IsLimit

lemma not_hitsLimit_ok (out : LightSolveOutput) : ¬HitsLimit (.ok out) := by
  rintro ⟨e,he,-⟩
  cases he

variable {r : Except Halt LightSolveOutput}

lemma not_hitsLimit_of_eq {out : LightSolveOutput} (h : r = .ok out) : ¬HitsLimit r :=
  h ▸ not_hitsLimit_ok out

lemma not_hitsLimit_panicked : ¬HitsLimit (.error .panicked) := by
  rintro ⟨e,he,hl⟩
  cases he
  exact hl

variable {limits : SolverLimits} {bounds : LightBounds}

lemma exists_ok_of_not_hitsLimit {Q : LightSolveOutput → Prop} (h : Ensures (Halt.Exceeds limits) Q r)
    (hno : ¬HitsLimit r) : ∃ out, r = .ok out ∧ Q out := by
  cases r with
  | ok out => exact ⟨out,rfl,h⟩
  | error e => exact absurd ⟨e,rfl,h.1⟩ hno

/-- Two results show the same light. -/
def SameLight (bounds : LightBounds) (out out' : LightSolveOutput) : Prop :=
  ∀ p, bounds.Contains p → (∀ c, out.lightAt p c=out'.lightAt p c) ∧
    out.hasDirectSkyProvenance bounds.dimension p=out'.hasDirectSkyProvenance bounds.dimension p

lemma Exact.sameLight {scene : Scene} {out out' : LightSolveOutput} (h : Exact scene out)
    (h' : Exact scene out') : SameLight scene.bounds out out' := by
  obtain ⟨x,hx,hout⟩ := h
  obtain ⟨x',hx',hout'⟩ := h'
  rw [← hx.unique hx'] at hout'
  exact fun p hp=>⟨fun c=>((hout p hp).1 c).trans ((hout' p hp).1 c).symm, (hout p hp).2.trans (hout' p hp).2.symm⟩

variable {volume : ℕ}

lemma checkedVolume_hitsLimit (hv : bounds.volume=some volume) (hmax : limits.maxVoxels<volume)
    (f : ℕ → Except Halt LightSolveOutput) : HitsLimit (checkedVolume bounds limits >>= f) := by
  rw [checkedVolume,hv]
  simp only [if_pos hmax]
  exact ⟨_,rfl,trivial⟩

/-- Bounds longer than `u32` stop the incremental solve at its assertion. -/
lemma solveLight_panicked (hv : bounds.volume=some volume) (hmax : volume≤limits.maxVoxels) (hlong : u32Max<volume)
    (source : LightBlockAccess) (old : LightReadAccess) (generation : ℕ)
    (profile : DimensionLightProfile) (scratch : LightSolverScratch) :
    solveLightWithScratch source old bounds generation profile limits scratch =
      .error .panicked := by
  have hcheck : checkedVolume bounds limits = .ok volume := by
    rw [checkedVolume,hv]
    exact if_neg (Nat.not_lt.2 hmax)
  rw [solveLightWithScratch,hcheck,except_ok_bind]
  simp only [IncreaseQueue.reset_of_lt _ hlong]
  rfl

lemma SolveInput.solveLightChanges_panicked (input : SolveInput) (hv : input.bounds.volume=some volume) (hmax : volume≤limits.maxVoxels)
    (hlong : u32Max<volume) (generation : ℕ) (scratch : LightSolverScratch)
    (changed : List BlockPos) :
    solveLightChangesWithScratch input.source input.old input.bounds generation input.profile
      limits scratch changed = .error .panicked := by
  have hcheck : checkedVolume input.bounds limits = .ok volume := by
    rw [checkedVolume,hv]
    exact if_neg (Nat.not_lt.2 hmax)
  rw [solveLightChangesWithScratch,hcheck,except_ok_bind]
  obtain ⟨o,ho,-⟩ := (loadPrior_ensures (E := fun _=>False) generation).exists_ok fun _ h=>h
  change loadPrior input.blocks input.prior input.bounds _ >>= _=_
  rw [ho,except_ok_bind]
  simp only [IncreaseQueue.reset_of_lt _ hlong]
  rfl

namespace LightBounds

variable {b : LightBounds}

lemma volume_of_cells_le (h : b.cells≤u32Max) : b.volume=some b.cells := by
  have hz : 0<b.zLen := Nat.zero_lt_of_lt (dz_lt b.contains_min)
  have hxy : b.xLen*b.yLen≤b.cells := Nat.le_mul_of_pos_right _ hz
  unfold u32Max at h
  exact if_pos ⟨by omega,by unfold cells at h; omega⟩

lemma PaddedFits.cells_le (h : b.PaddedFits) : b.cells≤u32Max := by
  refine le_trans ?_ h
  rw [pad_max,cells]
  refine le_trans ?_ (Nat.le_add_right _ _)
  gcongr
  · exact le_trans (Nat.mul_le_mul_left _ (by omega)) (Nat.le_add_right _ _)
  · omega

end LightBounds

/-- At these bounds both solves, whatever the prior and the buffers, show the light the reference
relaxation computes, the least solution of the relaxation. -/
def SolvesAgree (bounds : LightBounds) : Prop :=
  ∀ (source : LightBlockAccess) (old : LightReadAccess) (generation generation' : ℕ)
    (profile : DimensionLightProfile) (limits : SolverLimits)
    (scratch scratch' : LightSolverScratch),
    (∀ p, bounds.Contains p → source.skySeed p≤15) →
    (∀ p, bounds.Contains p → ∀ c, old.readLight bounds.dimension p c≤15) →
    ¬HitsLimit (solveLightWithScratch source old bounds generation profile limits scratch) →
    ¬HitsLimit (solveLightFullWithScratch source old bounds generation' profile limits scratch') →
    ∃ out full field, solveLightWithScratch source old bounds generation profile limits scratch = .ok out ∧
      solveLightFullWithScratch source old bounds generation' profile limits scratch' = .ok full ∧
      scalarFixedPoint source old bounds profile (SolveInput.relaxRounds bounds) = some field ∧
      (Scene.of source old bounds profile).system.IsSolution (cellRanks field) ∧
      SameLight bounds out full ∧
      ∀ p, bounds.Contains p → out.lightAt p .block = ((field p).getD {}).block ∧
        out.lightAt p .sky = ((field p).getD {}).sky ∧
        out.hasDirectSkyProvenance bounds.dimension p = ((field p).getD {}).direct

lemma solvesAgree_of_fits (hfit : bounds.PaddedFits) : SolvesAgree bounds := by
  intro source old generation generation' profile limits scratch scratch' hseed hold hno hno'
  have hdense : bounds.cells≤u32Max := hfit.cells_le
  have hvolume := volume_of_cells_le hdense
  have hmax : bounds.cells≤limits.maxVoxels := by
    by_contra hlt
    exact hno (checkedVolume_hitsLimit hvolume (Nat.lt_of_not_le hlt) _)
  let input : SolveInput := ⟨source,old,bounds,profile,hdense.trans (by unfold u32Max usizeMax; omega),hseed,hold⟩
  obtain ⟨out,hout,hexact⟩ := exists_ok_of_not_hitsLimit
    (input.solveLight_ensures generation scratch hvolume hdense hmax) hno
  obtain ⟨full,hfull,hexact'⟩ := exists_ok_of_not_hitsLimit
    (input.solveLightFull_ensures generation' scratch' hfit hvolume hmax) hno'
  obtain ⟨field,hfield,hinv,hsol⟩ := @SolveInput.scalarFixedPoint_spec input _ le_rfl
  refine ⟨out,full,field,hout,hfull,hfield,hsol,hexact.sameLight hexact',fun p hp=>?_⟩
  obtain ⟨x,hx,hshow⟩ := hexact
  obtain rfl := hx.unique hsol
  have hshow : Shows bounds out (cellRanks field) := hshow
  obtain ⟨hblock,hsky,hdirect⟩ := hinv.levels p
  rw [(hshow p hp).1,(hshow p hp).1,(hshow p hp).2,hblock,hsky,hdirect]
  exact ⟨rfl,rfl,rfl⟩

/-- Beside a lamp in the maximum corner the solves differ where its padded index is no `u32`. -/
lemma lamp_diverges (hdense : bounds.cells≤u32Max) (hfit : ¬bounds.PaddedFits) {d : Fin 6}
    (hd : bounds.Contains (bounds.max.step (neighbours d))) :
    let source := lampBeside bounds.max (bounds.max.step (neighbours d))
    ∃ out full, solveLightWithScratch source emptyLight bounds 0 .nether noLimits .default = .ok out ∧
      solveLightFullWithScratch source emptyLight bounds 0 .nether noLimits .default = .ok full ∧
      14≤out.lightAt (bounds.max.step (neighbours d)) .block ∧
      full.lightAt (bounds.max.step (neighbours d)) .block=0 := by
  have hvolume := volume_of_cells_le hdense
  have hcells : bounds.cells≤usizeMax := hdense.trans (by unfold u32Max usizeMax; omega)
  obtain ⟨full,hfull,hdark⟩ := SolveInput.full_dark hd (step_ne _ d) hfit hvolume 0 .default
  obtain ⟨out,hout,hexact⟩ := ((SolveInput.lampInput bounds _ hcells).solveLight_ensures 0 .default
    hvolume hdense hcells).exists_ok not_exceeds_noLimits
  exact ⟨out,full,hout,hfull, SolveInput.lamp_lit hcells hd (step_ne _ d) rfl hexact,hdark⟩

/-- Where a padded index is no `u32`, the solves disagree or the incremental one panics. -/
lemma not_solvesAgree_of_not_fits
    (hv : bounds.volume=some volume) (hfit : ¬bounds.PaddedFits) : ¬SolvesAgree bounds := by
  intro hagree
  obtain ⟨d,hd⟩ := exists_neighbour hfit
  obtain ⟨full,hfull,hdark⟩ := SolveInput.full_dark hd (step_ne _ d) hfit hv 0 .default
  have hsolves := hagree (lampBeside bounds.max (bounds.max.step (neighbours d))) emptyLight 0 0
    .nether noLimits .default .default (fun _ _=>Nat.zero_le _) (fun _ _ _=>Nat.zero_le _)
  obtain ⟨rfl,hcells⟩ := cells_of_volume hv
  rcases Nat.lt_or_ge u32Max bounds.cells with hlong | hdense
  · rw [solveLight_panicked hv hcells hlong,hfull] at hsolves
    obtain ⟨_,_,_,h,-⟩ := hsolves not_hitsLimit_panicked (not_hitsLimit_ok _)
    cases h
  · obtain ⟨out,full',hout,hfull',hlit,hdark'⟩ := lamp_diverges hdense hfit hd
    rw [hout,hfull'] at hsolves
    obtain ⟨_,_,_,⟨⟩,⟨⟩,-,-,hsame,-⟩ := hsolves (not_hitsLimit_ok _) (not_hitsLimit_ok _)
    have := (hsame _ hd).1 .block
    omega

/-- The two solves and the reference relaxation agree exactly where no solve is possible or every
in-bounds padded index is a `u32`. -/
theorem solvesAgree_iff (bounds : LightBounds) : SolvesAgree bounds ↔ bounds.volume=none ∨ bounds.PaddedFits := by
  constructor
  · intro hagree
    rw [or_iff_not_imp_left]
    intro hv
    obtain ⟨volume,hv⟩ := Option.ne_none_iff_exists'.1 hv
    by_contra hfit
    exact not_solvesAgree_of_not_fits hv hfit hagree
  · rintro (hv | hfit)
    · intro source old generation generation' profile limits scratch scratch' _ _ hno
      refine absurd ⟨.error (.voxelLimitExceeded usizeMax limits.maxVoxels),?_,trivial⟩ hno
      rw [solveLightWithScratch,checkedVolume,hv]
      rfl
    · exact solvesAgree_of_fits hfit

/-- One row of `2 ^ 30` cells. -/
def longRow : LightBounds where
  dimension := 0
  min := ⟨0,0,0⟩
  max := ⟨0,0,1073741823⟩
  min_rep := ⟨by decide,by decide,by decide⟩
  max_rep := ⟨by decide,by decide,by decide⟩
  x_le := by decide
  y_le := by decide
  z_le := by decide

/-- At the end of a long row the full solve leaves the air beside a lamp dark. -/
theorem longRow_diverges : (∃ out full,
      solveLightWithScratch (lampBeside ⟨0,0,1073741823⟩ ⟨0,0,1073741822⟩) emptyLight longRow 0
        .nether noLimits .default = .ok out ∧
      solveLightFullWithScratch (lampBeside ⟨0,0,1073741823⟩ ⟨0,0,1073741822⟩) emptyLight longRow
        0 .nether noLimits .default = .ok full ∧
      14 ≤ out.lightAt ⟨0,0,1073741822⟩ .block ∧ full.lightAt ⟨0,0,1073741822⟩ .block = 0) ∧
    ¬SolvesAgree longRow := by
  have hdense : longRow.cells ≤ u32Max := by decide +kernel
  have hfit : ¬longRow.PaddedFits := by
    unfold PaddedFits
    decide +kernel
  have hq : longRow.max.step (neighbours 4) = ⟨0,0,1073741822⟩ := by decide +kernel
  have hd : longRow.Contains (longRow.max.step (neighbours 4)) := by decide +kernel
  have hrun := lamp_diverges hdense hfit hd
  exact ⟨hrun,not_solvesAgree_of_not_fits (volume_of_cells_le hdense) hfit⟩

def EndsAlike (bounds : LightBounds) :
    Except Halt LightSolveOutput → Except Halt LightSolveOutput → Prop
  | .ok out, .ok out' => SameLight bounds out out'
  | .error e, .error e' => e=e'
  | _, _ => False

section
variable {source before : LightBlockAccess} {old : LightReadAccess} {bounds : LightBounds}
  {profile : DimensionLightProfile} {changed : List BlockPos} {x : LightCell → ℕ}

/-- Where the prior interior is the solved light of the same world but for the changed cells, the
change-driven solve ends as a whole solve does, and its result rests on valid provenance. -/
theorem solveLightChanges_agrees (hseed : ∀ p, bounds.Contains p → source.skySeed p≤15)
    (hseed' : ∀ p, bounds.Contains p → before.skySeed p≤15)
    (hsame : ∀ p, p ∉ changed → before.sample p = source.sample p ∧ before.skySeed p = source.skySeed p)
    (hsolved : (Scene.of before old bounds profile).system.IsSolution x)
    (hprior : ∀ p, bounds.Contains p → (∀ c, old.readLight bounds.dimension p c=min (x (p,c)) 15) ∧
        old.hasDirectSkyProvenance bounds.dimension p = decide (x (p,.sky) = directRank))
    (generation generation' : ℕ) (limits limits' : SolverLimits)
    (scratch scratch' : LightSolverScratch)
    (hno : ¬HitsLimit (solveLightChangesWithScratch source old bounds generation profile limits scratch changed))
    (hno' : ¬HitsLimit (solveLightWithScratch source old bounds generation' profile limits' scratch')) :
    EndsAlike bounds (solveLightChangesWithScratch source old bounds generation profile limits scratch changed)
        (solveLightWithScratch source old bounds generation' profile limits' scratch') ∧
      ∀ out, solveLightChangesWithScratch source old bounds generation profile limits scratch changed = .ok out →
        (Scene.of source old bounds profile).ValidProvenance out := by
  cases hv : bounds.volume with
  | none =>
    refine absurd ⟨.error (.voxelLimitExceeded usizeMax limits'.maxVoxels),?_,trivial⟩ hno'
    rw [solveLightWithScratch,checkedVolume,hv]
    rfl
  | some volume =>
    have hmax : volume ≤ limits.maxVoxels := by
      by_contra hlt
      exact hno (checkedVolume_hitsLimit hv (Nat.lt_of_not_le hlt) _)
    have hmax' : volume ≤ limits'.maxVoxels := by
      by_contra hlt
      exact hno' (checkedVolume_hitsLimit hv (Nat.lt_of_not_le hlt) _)
    let input : SolveInput := ⟨source,old,bounds,profile,(cells_of_volume hv).2,hseed,
      fun p hp c => ((hprior p hp).1 c).le.trans (min_le_right _ _)⟩
    rcases Nat.lt_or_ge u32Max volume with hlong | hdense
    · rw [solveLight_panicked hv hmax' hlong,show solveLightChangesWithScratch source old bounds
        generation profile limits scratch changed = .error .panicked from
          input.solveLightChanges_panicked hv hmax hlong generation scratch changed]
      exact ⟨rfl,fun out h => by cases h⟩
    · let solvedBefore : SolvedBefore input changed :=
        ⟨before,x,hseed',fun p hp => (hsame p hp).1,fun p hp => (hsame p hp).2,hsolved,
          fun p hp => (hprior p hp).1,fun p hp => (hprior p hp).2⟩
      obtain ⟨out,hout,hexact⟩ := exists_ok_of_not_hitsLimit
        (input.solveLightChanges_ensures solvedBefore generation scratch hv hdense hmax) hno
      obtain ⟨whole,hwhole,hexact'⟩ := exists_ok_of_not_hitsLimit
        (input.solveLight_ensures generation' scratch' hv hdense hmax') hno'
      obtain ⟨y,hy,hshow⟩ := id hexact
      have hvalid : input.scene.ValidProvenance out := Scene.validProvenance hseed hy hshow
      rw [hout,hwhole]
      refine ⟨hexact.sameLight hexact',fun out' h => ?_⟩
      cases h
      exact hvalid

end

def nothingKnown : LightBlockAccess where
  sample _ := .unknown
  isKnown _ := false
  skySeed _ := 0
  sampleSection _ := none
  isKnown_eq _ := rfl
  sampleSection_eq _ _ h := by cases h

lemma isSolution_nothingKnown (old : LightReadAccess) (bounds : LightBounds) (profile : DimensionLightProfile) :
    (Scene.of nothingKnown old bounds profile).system.IsSolution fun _=>0 := by
  have hno : ∀ p, ¬(Scene.of nothingKnown old bounds profile).Inside p := fun p hp=>hp.2 rfl
  refine System.isSolution_of_sound ⟨?_,?_⟩ fun _ _ _=>Nat.zero_le _
  · rintro ⟨p,c⟩
    exact Scene.source_le (fun hp=>absurd hp (hno p)) fun hp=>absurd hp (hno p)
  · exact fun s d=>Scene.flow_le fun _ _ _ hs=>absurd hs (hno _)

/-- The two worlds differ only in the lamp's cell. -/
lemma nothingKnown_eq {q p : BlockPos} (hp : p ∉ [q]) : nothingKnown.sample p = (lampBeside q q).sample p ∧
      nothingKnown.skySeed p = (lampBeside q q).skySeed p := by
  rw [List.mem_singleton] at hp
  simp [nothingKnown,lampBeside,hp]

lemma lamp_solves {b : LightBounds} (hdense : b.cells≤u32Max) : ∃ out whole,
    solveLightChangesWithScratch (lampBeside b.max b.max) emptyLight b 1 .nether noLimits .default [b.max]=.ok out ∧
      solveLightWithScratch (lampBeside b.max b.max) emptyLight b 2 .nether noLimits .default=.ok whole := by
  have hvolume := volume_of_cells_le hdense
  have hcells : b.cells≤usizeMax := hdense.trans (by unfold u32Max usizeMax; omega)
  let input := SolveInput.lampInput b b.max hcells
  have solvedBefore : SolvedBefore input [b.max] :=
    ⟨nothingKnown,fun _=>0,fun _ _=>Nat.zero_le _,fun p hp=>(nothingKnown_eq hp).1,
      fun p hp=>(nothingKnown_eq hp).2,isSolution_nothingKnown _ _ _,fun _ _ _=>rfl,fun _ _=>rfl⟩
  obtain ⟨out,hout,-⟩ := (input.solveLightChanges_ensures solvedBefore 1 .default hvolume hdense
    hcells).exists_ok not_exceeds_noLimits
  obtain ⟨whole,hwhole,-⟩ := (input.solveLight_ensures 2 .default hvolume hdense hcells).exists_ok not_exceeds_noLimits
  exact ⟨out,whole,hout,hwhole⟩

lemma lamp_appears {b : LightBounds} (hdense : b.cells≤u32Max) :
    ¬HitsLimit (solveLightChangesWithScratch (lampBeside b.max b.max) emptyLight b 1 .nether
        noLimits .default [b.max]) ∧
      ¬HitsLimit (solveLightWithScratch (lampBeside b.max b.max) emptyLight b 2 .nether noLimits
        .default) :=
  have ⟨_,_,hout,hwhole⟩ := lamp_solves hdense
  ⟨not_hitsLimit_of_eq hout,not_hitsLimit_of_eq hwhole⟩

def oneCell : LightBounds where
  dimension := 0
  min := ⟨0,0,0⟩
  max := ⟨0,0,0⟩
  min_rep := ⟨by decide,by decide,by decide⟩
  max_rep := ⟨by decide,by decide,by decide⟩
  x_le := by decide
  y_le := by decide
  z_le := by decide

/-- A lamp appears in a cell that was unknown and dark. -/
theorem solveLightChanges_agrees_oneCell : EndsAlike oneCell
        (solveLightChangesWithScratch (lampBeside oneCell.max oneCell.max) emptyLight oneCell 1
          .nether noLimits .default [oneCell.max])
        (solveLightWithScratch (lampBeside oneCell.max oneCell.max) emptyLight oneCell 2 .nether noLimits .default) ∧
      ∀ out, solveLightChangesWithScratch (lampBeside oneCell.max oneCell.max) emptyLight oneCell 1
          .nether noLimits .default [oneCell.max] = .ok out →
        (Scene.of (lampBeside oneCell.max oneCell.max) emptyLight oneCell .nether).ValidProvenance
          out :=
  have hno := lamp_appears (b := oneCell) (by decide +kernel)
  solveLightChanges_agrees (fun _ _=>Nat.zero_le _) (fun _ _=>Nat.zero_le _)
    (fun _ hp => nothingKnown_eq hp) (isSolution_nothingKnown _ _ _) (fun _ _=>⟨fun _=>rfl,rfl⟩)
    1 2 noLimits noLimits .default .default hno.1 hno.2

end Cinnabar.Light
