import Cinnabar.Light.Relax
import Cinnabar.Light.Solve

/-! # What the solver reads -/

namespace Cinnabar.Light

open LightBounds

/-- The inputs of a solve whose levels are nibbles and whose cells have `usize` indices. -/
structure SolveInput where
  source : LightBlockAccess
  old : LightReadAccess
  bounds : LightBounds
  profile : DimensionLightProfile
  cells_le : bounds.cells≤usizeMax
  seed_le : ∀ p, bounds.Contains p → source.skySeed p≤15
  old_le : ∀ p, bounds.Contains p → ∀ c, old.readLight bounds.dimension p c≤15

namespace SolveInput

variable (input : SolveInput)

def scene : Scene := .of input.source input.old input.bounds input.profile

def blocks : CachedLightBlockAccess := .new input.source input.bounds

def prior : CachedLightReadAccess := ⟨input.old,input.bounds⟩

/-- The prior level and the prior direct-sky bit of a cell. -/
def level (p : BlockPos) (c : LightChannel) : ℕ := input.old.readLight input.bounds.dimension p c

def direct (p : BlockPos) (c : LightChannel) : Bool :=
  decide (c = .sky) && input.old.hasDirectSkyProvenance input.bounds.dimension p

abbrev idx (p : BlockPos) : ℕ := input.bounds.denseIndex p

variable {input}

lemma scene_bounds : input.scene.bounds=input.bounds := rfl

lemma seed_le_scene (p : BlockPos) (hp : input.scene.bounds.Contains p) :
    input.scene.blocks.skySeed p≤15 := input.seed_le p hp

variable {p : BlockPos}

lemma inside_iff : input.scene.Inside p ↔ input.bounds.Contains p ∧ (input.source.sample p).filter≠none := Iff.rfl

lemma filter_eq_some (h : (input.source.sample p).filter≠none) :
    (input.source.sample p).filter=some (input.scene.filterAt p) := by
  obtain ⟨f,hf⟩ := Option.ne_none_iff_exists'.1 h
  change _=some ((input.source.sample p).filter.getD 0)
  rw [hf]
  rfl

lemma sampleAtIndex_idx (hp : input.bounds.Contains p) :
    input.blocks.sampleAtIndex (input.idx p) = input.source.sample p := by
  simp [blocks,CachedLightBlockAccess.sampleAtIndex,CachedLightBlockAccess.new, positions_getElem?_denseIndex hp]

lemma skySeedAtIndex_idx (hp : input.bounds.Contains p) :
    input.blocks.skySeedAtIndex (input.idx p) = input.source.skySeed p := by
  simp [blocks,CachedLightBlockAccess.skySeedAtIndex,CachedLightBlockAccess.new, positions_getElem?_denseIndex hp]

lemma blocks_index_of_contains (hp : input.bounds.Contains p) : input.blocks.index p=some (input.idx p) :=
  lightDenseIndex_of_contains input.cells_le hp

lemma blocks_index_of_not_contains (hp : ¬input.bounds.Contains p) : input.blocks.index p=none :=
  lightDenseIndex_of_not_contains hp

lemma blocks_sample (p : BlockPos) : input.blocks.sample p=input.source.sample p := by
  by_cases hp : input.bounds.Contains p
  · simp only [CachedLightBlockAccess.sample,blocks_index_of_contains hp,sampleAtIndex_idx hp]
  · simp only [CachedLightBlockAccess.sample,blocks_index_of_not_contains hp]
    rfl

lemma readPrior_eq (hp : input.bounds.Contains p) (c : LightChannel) :
    readPrior input.prior p c = .ok (input.level p c) :=
  if_neg (Nat.not_lt.2 (input.old_le p hp c))

lemma level_le (hp : input.bounds.Contains p) (c : LightChannel) : input.level p c≤15 := input.old_le p hp c

lemma localBase_eq (hp : input.scene.Inside p) (c : LightChannel) :
    localBase input.blocks (input.idx p) c input.profile = .ok (input.scene.base p c) := by
  obtain ⟨hc,hk⟩ := inside_iff.1 hp
  simp only [localBase,sampleAtIndex_idx hc,filter_eq_some hk,skySeedAtIndex_idx hc]
  cases c with
  | block => rfl
  | sky =>
    simp only [Nat.not_lt.2 (input.seed_le p hc),if_false]
    rfl

lemma base_le (hp : input.scene.Inside p) (c : LightChannel) :
    input.scene.base p c≤15 := Scene.base_le seed_le_scene hp.1 c

/-- Prior light next to a cell: interior light, or the trusted halo. -/
def neighbourParts (input : SolveInput) (p : BlockPos) (c : LightChannel) : Option (ℕ × Bool) :=
  if input.bounds.Contains p then some (input.level p c,input.direct p c)
  else input.scene.halo p c

lemma neighbourLight_eq (p : BlockPos) (c : LightChannel) :
    neighbourLight input.blocks input.prior p c = .ok (input.neighbourParts p c) := by
  by_cases hp : input.bounds.Contains p
  · simp only [neighbourLight,blocks_index_of_contains hp,readPrior_eq hp,except_ok_bind]
    rw [neighbourParts,if_pos hp]
    rfl
  · simp only [neighbourLight,blocks_index_of_not_contains hp]
    rw [neighbourParts,if_neg hp]
    rfl

/-- The neighbour in direction `d` supports the level in the prior field. -/
def SupportedFrom (input : SolveInput) (p : BlockPos) (c : LightChannel) (required : ℕ)
    (d : Fin 6) : Prop :=
  ∃ q, p.checkedOffset (neighbours d) = some q ∧ (input.source.sample q).filter≠none ∧
    ∃ level direct, input.neighbourParts q c=some (level,direct) ∧
      required ≤ incomingLevel level (input.scene.filterAt p) c input.profile (neighbours d) direct

/-- The level has a source or a supporting neighbour in the prior field. -/
def Supported (input : SolveInput) (p : BlockPos) (c : LightChannel) (required : ℕ) : Prop :=
  required ≤ input.scene.base p c ∨
    ¬(c = .sky ∧ input.profile.allowsSky=false) ∧ ∃ d, input.SupportedFrom p c required d

lemma supportedBy_spec (p : BlockPos) (c : LightChannel) (required : ℕ) (ds : List (Fin 6)) :
    ∃ r, supportedBy input.blocks input.prior input.profile p (input.scene.filterAt p) c required
        ds = .ok r ∧ (r=true ↔ ∃ d ∈ ds, input.SupportedFrom p c required d) := by
  induction ds with
  | nil => exact ⟨false,rfl,by simp⟩
  | cons d rest ih =>
    obtain ⟨r,hr,hiff⟩ := ih
    have hskip : ¬input.SupportedFrom p c required d →
        (r=true ↔ ∃ d' ∈ d::rest, input.SupportedFrom p c required d') := by
      intro hd
      simp [hiff,hd]
    rw [supportedBy]
    cases hq : p.checkedOffset (neighbours d) with
    | none =>
      refine ⟨r,hr,hskip ?_⟩
      rintro ⟨q,hq',-⟩
      rw [hq] at hq'
      cases hq'
    | some q =>
      simp only [blocks_sample]
      by_cases hk : (input.source.sample q).filter=none
      · rw [if_pos (by simp [hk])]
        refine ⟨r,hr,hskip ?_⟩
        rintro ⟨q',hq',hk',-⟩
        rw [hq] at hq'
        cases hq'
        exact hk' hk
      · rw [if_neg (by simp [hk]),neighbourLight_eq]
        cases hparts : input.neighbourParts q c with
        | none =>
          refine ⟨r,hr,hskip ?_⟩
          rintro ⟨q',hq',-,level,direct,hp',-⟩
          rw [hq] at hq'
          cases hq'
          rw [hparts] at hp'
          cases hp'
        | some parts =>
          obtain ⟨level,direct⟩ := parts
          by_cases hreq : required ≤ incomingLevel level (input.scene.filterAt p) c input.profile (neighbours d) direct
          · refine ⟨true,?_,?_⟩
            · simp only [except_ok_bind,ge_iff_le]
              rw [if_pos hreq]
              rfl
            · exact iff_of_true rfl ⟨d,by simp,q,hq,hk,level,direct,hparts,hreq⟩
          · refine ⟨r,?_,hskip ?_⟩
            · simp only [except_ok_bind,ge_iff_le]
              rw [if_neg hreq]
              exact hr
            · rintro ⟨q',hq',-,level',direct',hp',hle⟩
              rw [hq] at hq'
              cases hq'
              rw [hparts] at hp'
              cases hp'
              exact hreq hle

lemma mem_supportOrder (c : LightChannel) (d : Fin 6) : d ∈ supportOrder c := by
  cases c with
  | block => exact List.mem_finRange d
  | sky => fin_cases d <;> decide

lemma priorSupportsLevel_spec (hp : input.scene.Inside p) (c : LightChannel) (required : ℕ) :
    ∃ r, priorSupportsLevel input.blocks input.prior input.profile p (input.idx p) c required =
        .ok r ∧ (r=true ↔ input.Supported p c required) := by
  obtain ⟨r,hr,hiff⟩ := @supportedBy_spec input p c required (supportOrder c)
  simp only [mem_supportOrder,true_and] at hiff
  simp only [priorSupportsLevel,sampleAtIndex_idx hp.1,filter_eq_some hp.2,localBase_eq hp]
  by_cases hbase : required ≤ input.scene.base p c
  · refine ⟨true,?_,iff_of_true rfl (.inl hbase)⟩
    simp only [except_ok_bind,ge_iff_le]
    rw [if_pos hbase]
    rfl
  · by_cases hsky : c = .sky ∧ input.profile.allowsSky=false
    · refine ⟨false,?_,?_⟩
      · simp only [except_ok_bind,ge_iff_le]
        rw [if_neg hbase,if_pos hsky]
        rfl
      · refine iff_of_false Bool.false_ne_true ?_
        rintro (h | ⟨h,-⟩)
        · exact hbase h
        · exact h hsky
    · refine ⟨r,?_,by rw [hiff,Supported]; simp only [hbase,hsky,not_false_eq_true,true_and,false_or]⟩
      simp only [except_ok_bind,ge_iff_le]
      rw [if_neg hbase,if_neg hsky]
      exact hr

end SolveInput

end Cinnabar.Light
