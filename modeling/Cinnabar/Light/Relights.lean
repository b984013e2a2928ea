import Cinnabar.Light.Equivalence

/-! # Relighting after edits

Exact light depends on nothing but the world, so edits relit one by one end where a whole solve does.
-/

namespace Cinnabar.Light

open LightBounds Relaxation

variable {bounds : LightBounds} {profile : DimensionLightProfile} {limits : SolverLimits}

/-- `next` reads the result inside the bounds, and outside them the halo that was there. -/
structure Carries (bounds : LightBounds) (old : LightReadAccess) (out : LightSolveOutput)
    (next : LightReadAccess) : Prop where
  level : ∀ p, bounds.Contains p → ∀ c, next.readLight bounds.dimension p c=out.lightAt p c
  direct : ∀ p, bounds.Contains p →
    next.hasDirectSkyProvenance bounds.dimension p=out.hasDirectSkyProvenance bounds.dimension p
  halo : ∀ p c, next.boundaryLight bounds.dimension p c=old.boundaryLight bounds.dimension p c

/-- Worlds that differ where cells changed, each relit from the result before it. -/
inductive Relit (bounds : LightBounds) (profile : DimensionLightProfile) (limits : SolverLimits)
    (first : LightBlockAccess) (start : LightReadAccess) : LightBlockAccess → LightReadAccess → Prop where
  | start : Relit bounds profile limits first start first start
  | edit {before source : LightBlockAccess} {old next : LightReadAccess} {out : LightSolveOutput}
      {generation : ℕ} {scratch : LightSolverScratch} {changed : List BlockPos}
      (h : Relit bounds profile limits first start before old)
      (hseed : ∀ p, bounds.Contains p → source.skySeed p≤15)
      (hsame : ∀ p, p ∉ changed → before.sample p=source.sample p ∧ before.skySeed p=source.skySeed p)
      (hsolve : solveLightChangesWithScratch source old bounds generation profile limits scratch changed=.ok out)
      (hnext : Carries bounds old out next) : Relit bounds profile limits first start source next

/-- The prior light is the solved light of a world. -/
def Lit (bounds : LightBounds) (profile : DimensionLightProfile) (source : LightBlockAccess)
    (old : LightReadAccess) : Prop :=
  (∀ p, bounds.Contains p → source.skySeed p≤15) ∧
    ∃ x, (Scene.of source old bounds profile).system.IsSolution x ∧ ∀ p, bounds.Contains p →
      (∀ c, old.readLight bounds.dimension p c=min (x (p,c)) 15) ∧
        old.hasDirectSkyProvenance bounds.dimension p=decide (x (p,.sky)=directRank)

lemma Scene.of_congr (source : LightBlockAccess) {old next : LightReadAccess} {bounds : LightBounds}
    (profile : DimensionLightProfile)
    (h : ∀ p c, next.boundaryLight bounds.dimension p c=old.boundaryLight bounds.dimension p c) :
    Scene.of source next bounds profile=Scene.of source old bounds profile := by
  unfold Scene.of
  congr 1
  funext p c
  rw [h]

variable {first source : LightBlockAccess} {start old : LightReadAccess}

lemma Relit.lit (h : Relit bounds profile limits first start source old) (hstart : Lit bounds profile first start)
    {volume : ℕ} (hv : bounds.volume=some volume) (hdense : volume≤u32Max) (hmax : volume≤limits.maxVoxels) :
    Lit bounds profile source old ∧ ∀ p c, old.boundaryLight bounds.dimension p c=start.boundaryLight bounds.dimension p c := by
  induction h with
  | start => exact ⟨hstart,fun _ _=>rfl⟩
  | @edit before source old next out generation scratch changed h hseed hsame hsolve hnext ih =>
    obtain ⟨⟨hseed',x,hx,hprior⟩,hhalo⟩ := ih
    let input : SolveInput := ⟨source,old,bounds,profile,(cells_of_volume hv).2,hseed,
      fun p hp c=>((hprior p hp).1 c).le.trans (min_le_right _ _)⟩
    let solvedBefore : SolvedBefore input changed :=
      ⟨before,x,hseed',fun p hp=>(hsame p hp).1,fun p hp=>(hsame p hp).2,hx,
        fun p hp=>(hprior p hp).1,fun p hp=>(hprior p hp).2⟩
    have hexact : Ensures (Halt.Exceeds limits) (Exact input.scene)
        (solveLightChangesWithScratch source old bounds generation profile limits scratch changed) :=
      input.solveLightChanges_ensures solvedBefore generation scratch hv hdense hmax
    rw [hsolve] at hexact
    obtain ⟨y,hy,hshow⟩ := hexact
    refine ⟨⟨hseed,y,?_,fun p hp=>⟨fun c=>?_,?_⟩⟩,fun p c=>(hnext.halo p c).trans (hhalo p c)⟩
    · rw [Scene.of_congr source profile hnext.halo]
      exact hy
    · rw [hnext.level p hp c]
      exact (hshow p hp).1 c
    · rw [hnext.direct p hp]
      exact (hshow p hp).2

end Cinnabar.Light
