import Mathlib.Data.Finset.Lattice.Fold
import Mathlib.Data.Fintype.Basic
import Cinnabar.Library.Relaxation
import Cinnabar.Light.Grid

/-! # The light a region should have

Light is the least solution of a relaxation over the known in-bounds cells of both channels.
-/

namespace Cinnabar.Light

open Relaxation Finset

/-- What determines the light of a region: blocks, trusted halo, bounds and profile. -/
structure Scene where
  blocks : LightBlockAccess
  halo : BlockPos → LightChannel → Option (ℕ × Bool)
  bounds : LightBounds
  profile : DimensionLightProfile
  halo_le : ∀ p c level direct, halo p c=some (level,direct) → level≤15

def Scene.of (blocks : LightBlockAccess) (prior : LightReadAccess) (bounds : LightBounds)
    (profile : DimensionLightProfile) : Scene where
  blocks := blocks
  halo p c := (prior.boundaryLight bounds.dimension p c).trustedParts
  bounds := bounds
  profile := profile
  halo_le _ _ _ _ h := BoundaryLightSample.trustedParts_le h

abbrev LightCell := BlockPos × LightChannel

def directRank : ℕ := 16

def rank (level : ℕ) (direct : Bool) : ℕ := if direct && level == 15 then directRank else level

lemma rank_false (level : ℕ) : rank level false=level := by simp [rank]

lemma rank_le {level : ℕ} (h : level≤15) (direct : Bool) : rank level direct≤directRank := by
  unfold rank directRank
  split_ifs <;> omega

lemma min_rank {level : ℕ} (h : level≤15) (direct : Bool) : min (rank level direct) 15=level := by
  unfold rank directRank
  split_ifs with hd
  · simp only [Bool.and_eq_true,beq_iff_eq] at hd
    omega
  · omega

/-- The direction that undoes a step. -/
def opposite : Fin 6 → Fin 6 := ![1,0,3,2,5,4]

def above : Fin 6 := 3

lemma step_opposite (p : BlockPos) (d : Fin 6) : (p.step (neighbours d)).step (neighbours (opposite d)) = p := by
  fin_cases d <;> simp [BlockPos.step,neighbours,opposite]

lemma opposite_opposite (d : Fin 6) : opposite (opposite d) = d := by
  fin_cases d <;> rfl

lemma neighbours_eq_up {d : Fin 6} : neighbours d = (0,1,0) ↔ d=above := by
  fin_cases d <;> simp [neighbours,above]

lemma neighbours_eq_down {d : Fin 6} : neighbours d = (0,-1,0) ↔ opposite d=above := by
  fin_cases d <;> simp [neighbours,above,opposite]

lemma step_ne (p : BlockPos) (d : Fin 6) : p.step (neighbours d) ≠ p := by
  cases p
  fin_cases d <;> simp [BlockPos.step,neighbours]

namespace Scene

variable (scene : Scene)

def Inside (p : BlockPos) : Prop :=
  scene.bounds.Contains p ∧ (scene.blocks.sample p).filter≠none

instance (p : BlockPos) : Decidable (scene.Inside p) := by unfold Inside; infer_instance

/-- The filter of a cell; only read where it is known. -/
def filterAt (p : BlockPos) : ℕ := (scene.blocks.sample p).filter.getD 0

/-- Local emission, or the sky seed less the cell's filter. -/
def base (p : BlockPos) : LightChannel → ℕ
  | .block => (scene.blocks.sample p).emission
  | .sky => if scene.profile.allowsSky then scene.blocks.skySeed p-scene.filterAt p else 0

/-- The rank a neighbour of rank `r` in direction `d` lends a cell of filter `f`. -/
def carried (c : LightChannel) (d : Fin 6) (f r : ℕ) : ℕ :=
  if c = .sky ∧ scene.profile.directSkyDown=true ∧ d=above ∧ directRank ≤ r ∧ f=0 then
    directRank
  else min r 15-max f 1

lemma carried_mono (c : LightChannel) (d : Fin 6) (f : ℕ) : Monotone (scene.carried c d f) := by
  intro r r' h
  unfold carried
  split_ifs with h1 h2 h2
  · exact le_rfl
  · exact absurd ⟨h1.1,h1.2.1,h1.2.2.1,h1.2.2.2.1.trans h,h1.2.2.2.2⟩ h2
  · unfold directRank
    omega
  · omega

def baseRank (p : BlockPos) (c : LightChannel) : ℕ :=
  rank (scene.base p c) (decide (c = .sky) && scene.profile.directSkyDown)

/-- The rank the trusted halo cell in direction `d` lends a cell. -/
def haloRank (p : BlockPos) (c : LightChannel) (d : Fin 6) : ℕ :=
  match p.checkedOffset (neighbours d) with
  | none => 0
  | some q =>
    if scene.bounds.Contains q ∨ (scene.blocks.sample q).filter=none ∨ c = .sky ∧ scene.profile.allowsSky=false then 0
    else
      match scene.halo q c with
      | none => 0
      | some (level,direct) => scene.carried c d (scene.filterAt p) (rank level direct)

/-- The relaxation whose least solution is the light of the scene. -/
def system : System LightCell ℕ where
  source cell :=
    if scene.Inside cell.1 then
      max (scene.baseRank cell.1 cell.2) (Finset.univ.sup (scene.haloRank cell.1 cell.2))
    else 0
  flow s d v :=
    Finset.univ.sup fun i : Fin 6 =>
      if d.1.step (neighbours i) = s.1 ∧ d.2=s.2 ∧ scene.Inside s.1 ∧ scene.Inside d.1 then
        scene.carried d.2 i (scene.filterAt d.1) v
      else 0
  flow_mono s d := by
    intro v w hvw
    refine sup_mono_fun fun i _=>?_
    split_ifs
    · exact scene.carried_mono d.2 i _ hvw
    · exact le_rfl

variable {scene}

lemma carried_le (c : LightChannel) (d : Fin 6) (f r : ℕ) : scene.carried c d f r≤directRank := by
  unfold carried
  split_ifs <;> unfold directRank <;> omega

@[simp] lemma carried_zero (c : LightChannel) (d : Fin 6) (f : ℕ) : scene.carried c d f 0=0 := by
  simp [carried,directRank]

variable {p : BlockPos} {c : LightChannel} {d : Fin 6}

lemma carried_of_direct {f r : ℕ} (h : c = .sky ∧ scene.profile.directSkyDown=true ∧ d=above ∧ directRank ≤ r ∧ f=0) :
    scene.carried c d f r=directRank := if_pos h

lemma carried_of_not_direct {f r : ℕ}
    (h : ¬(c = .sky ∧ scene.profile.directSkyDown=true ∧ d=above ∧ directRank ≤ r ∧ f=0)) :
    scene.carried c d f r=min r 15-max f 1 := if_neg h

lemma carried_block (d : Fin 6) (f r : ℕ) : scene.carried .block d f r=min r 15-max f 1 :=
  carried_of_not_direct fun h=>by cases h.1

lemma base_le (hseed : ∀ p, scene.bounds.Contains p → scene.blocks.skySeed p≤15)
    (hp : scene.bounds.Contains p) (c : LightChannel) : scene.base p c≤15 := by
  cases c with
  | block => exact (scene.blocks.sample p).emission_le
  | sky =>
    have := hseed p hp
    simp only [base]
    split_ifs <;> omega

/-- A full sky source is open. -/
lemma filterAt_of_base (hseed : ∀ p, scene.bounds.Contains p → scene.blocks.skySeed p≤15)
    (hp : scene.bounds.Contains p) (h : scene.base p .sky=15) :
    scene.filterAt p=0 := by
  have := hseed p hp
  simp only [base] at h
  split_ifs at h
  omega

lemma le_source (hp : scene.Inside p) (c : LightChannel) : scene.baseRank p c ≤ scene.system.source (p,c) := by
  simp [system,hp]

lemma haloRank_of_halo_none {p q : BlockPos} (hq : p.checkedOffset (neighbours d) = some q) (hh : scene.halo q c=none) :
    scene.haloRank p c d=0 := by
  simp only [haloRank,hq,hh]
  exact ite_self 0

lemma haloRank_of_halo_some {p q : BlockPos} {level : ℕ} {direct : Bool} (hq : p.checkedOffset (neighbours d) = some q)
    (hout : ¬scene.bounds.Contains q) (hknown : (scene.blocks.sample q).filter≠none)
    (hallow : ¬(c = .sky ∧ scene.profile.allowsSky=false))
    (hh : scene.halo q c=some (level,direct)) :
    scene.haloRank p c d=scene.carried c d (scene.filterAt p) (rank level direct) := by
  simp only [haloRank,hq,hh]
  refine if_neg ?_
  rintro (h | h | h)
  · exact hout h
  · exact hknown h
  · exact hallow h

lemma haloRank_le_source (hp : scene.Inside p) (c : LightChannel) (d : Fin 6) :
    scene.haloRank p c d ≤ scene.system.source (p,c) := by
  simp only [system,hp,if_true]
  exact le_max_of_le_right (le_sup (f := scene.haloRank p c) (mem_univ d))

lemma source_le {v : ℕ} (hbase : scene.Inside p → scene.baseRank p c≤v)
    (hhalo : scene.Inside p → ∀ d, scene.haloRank p c d≤v) :
    scene.system.source (p,c) ≤ v := by
  simp only [system]
  split_ifs with hp
  · exact max_le (hbase hp) (Finset.sup_le fun d _=>hhalo hp d)
  · exact Nat.zero_le v

/-- Light reaches a cell from the neighbour in direction `d`. -/
lemma le_flow (hp : scene.Inside p) (hq : scene.Inside (p.step (neighbours d))) (v : ℕ) :
    scene.carried c d (scene.filterAt p) v ≤
      scene.system.flow (p.step (neighbours d),c) (p,c) v := by
  have h := le_sup (f := fun i : Fin 6 =>
    if p.step (neighbours i) = p.step (neighbours d) ∧ c=c ∧ scene.Inside (p.step (neighbours d)) ∧ scene.Inside p then
      scene.carried c i (scene.filterAt p) v else 0) (mem_univ d)
  simpa [hp,hq,system] using h

lemma flow_le {s d : LightCell} {v w : ℕ}
    (h : ∀ i, d.1.step (neighbours i) = s.1 → d.2=s.2 → scene.Inside s.1 → scene.Inside d.1 →
      scene.carried d.2 i (scene.filterAt d.1) v≤w) :
    scene.system.flow s d v≤w := by
  simp only [system]
  refine Finset.sup_le fun i _=>?_
  split_ifs with hi
  · exact h i hi.1 hi.2.1 hi.2.2.1 hi.2.2.2
  · exact Nat.zero_le w

lemma settled_of_neighbours {x : LightCell → ℕ} (h : ∀ d, scene.Inside p → scene.Inside (p.step (neighbours d)) →
      scene.carried c (opposite d) (scene.filterAt (p.step (neighbours d))) (x (p,c)) ≤ x (p.step (neighbours d),c)) :
    scene.system.Settled x (p,c) := by
  rintro ⟨q,cq⟩
  refine flow_le fun i hi hc hp hq=>?_
  simp only at hi hc hp hq
  subst hc
  have hqp : p.step (neighbours (opposite i)) = q := by
    rw [← hi,step_opposite]
  have := h (opposite i) hp (hqp.symm ▸ hq)
  rwa [hqp,opposite_opposite] at this

end Scene

end Cinnabar.Light
