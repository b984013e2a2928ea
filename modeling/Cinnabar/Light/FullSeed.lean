import Cinnabar.Light.FullGrid
import Cinnabar.Light.Solution

/-! # Seeding the padded grid -/

namespace Cinnabar.Light

open LightBounds Relaxation List Function

namespace LightBounds

variable {b : LightBounds}

/-- The column of a cell in the top face's flags. -/
def column (b : LightBounds) (p : BlockPos) : ℕ := b.dx p*b.zLen+b.dz p

lemma position_offsets {p : BlockPos} (h : b.Contains p) : Grid.position b (b.dx p) (b.dy p) (b.dz p) = p := by
  obtain ⟨h1,-,h3,-,h5,-⟩ := h
  cases p
  simp only [Grid.position,dx,dy,dz,BlockPos.mk.injEq] at *
  omega

lemma mem_triples {xs ys zs : List ℕ} {x y z : ℕ} :
    (x,y,z) ∈ (xs.flatMap fun x=>ys.flatMap fun y=>zs.map fun z=>(x,y,z)) ↔
      x ∈ xs ∧ y ∈ ys ∧ z ∈ zs := by
  simp only [mem_flatMap,mem_map,Prod.mk.injEq]
  constructor
  · rintro ⟨_,hx,_,hy,_,hz,rfl,rfl,rfl⟩
    exact ⟨hx,hy,hz⟩
  · rintro ⟨hx,hy,hz⟩
    exact ⟨x,hx,y,hy,z,hz,rfl,rfl,rfl⟩

/-- The face in direction `d` is the cells whose step leaves the bounds. -/
lemma mem_faceCells {d : Fin 6} {x y z : ℕ} : (x,y,z) ∈ faceCells (Grid.new b) d ↔ ∃ p, b.Contains p ∧
      ¬b.Contains (p.step (neighbours d)) ∧ x=b.dx p ∧ y=b.dy p ∧ z=b.dz p := by
  have hx := b.x_le
  have hy := b.y_le
  have hz := b.z_le
  have hmem : (x,y,z) ∈ faceCells (Grid.new b) d ↔ x<b.xLen ∧ y<b.yLen ∧ z<b.zLen ∧
      ¬b.Contains ((Grid.position b x y z).step (neighbours d)) := by
    match d with
    | 0 | 1 | 2 | 3 | 4 | 5 =>
      simp only [faceCells,mem_triples,Grid.new,mem_range,mem_singleton,neighbours,
        BlockPos.step,Grid.position,Matrix.cons_val,Contains]
      unfold xLen yLen zLen
      omega
  rw [hmem]
  constructor
  · rintro ⟨h1,h2,h3,h4⟩
    unfold xLen yLen zLen at *
    refine ⟨Grid.position b x y z,⟨?_,?_,?_,?_,?_,?_⟩,h4,?_,?_,?_⟩ <;> simp only [Grid.position,dx,dy,dz] <;> omega
  · rintro ⟨p,hp,hq,rfl,rfl,rfl⟩
    rw [position_offsets hp]
    exact ⟨dx_lt hp,dy_lt hp,dz_lt hp,hq⟩

end LightBounds

namespace SolveInput

variable {input : SolveInput}

/-- Seeded grids are sound, and cover every cell's own source. -/
structure HaloInv (input : SolveInput) (full : FullSolveScratch) : Prop where
  filter : input.FilterRead full.filter
  zero : ∀ p, input.bounds.Around p → ¬input.scene.Inside p → ∀ c, full.values c (input.pad p) = 0
  base_le : ∀ p, input.scene.Inside p → ∀ c, input.scene.base p c≤full.values c (input.pad p)
  le : ∀ p, input.scene.Inside p → ∀ c, full.values c (input.pad p) ≤ 15
  full_sky : ∀ p, input.scene.Inside p → full.values .sky (input.pad p) = 15 → input.scene.base p .sky=15
  sound : ∀ p, input.scene.Inside p → ∀ c, ∀ y, input.scene.system.Closed y → full.values c (input.pad p) ≤ y (p,c)
  sky_off : input.profile.allowsSky=false → ∀ p, input.scene.Inside p → full.values .sky (input.pad p) = 0
  direct : full.direct = fun _=>false
  above_sound : ∀ p, input.scene.Inside p → p.y=input.bounds.max.y → full.directAbove (input.bounds.column p) = true →
    directRank ≤ input.scene.haloRank p .sky above

variable {full : FullSolveScratch}

lemma haloInv_read (h : input.GridRead full) : input.HaloInv full := by
  have hv : ∀ p, input.scene.Inside p → ∀ c, full.values c (input.pad p) = input.scene.base p c :=
    fun p hp c=>(h.value p hp.1.around c).trans (if_pos hp)
  refine ⟨h.filter,fun p hp hn c=>(h.value p hp c).trans (if_neg hn),
    fun p hp c=>(hv p hp c).ge,fun p hp c=>?_,fun p hp h15=>(hv p hp .sky).symm.trans h15,
    fun p hp c y hy=>?_,fun hsky p hp=>?_,h.direct,fun p _ _ ha=>?_⟩
  · rw [hv p hp c]
    exact base_le hp c
  · rw [hv p hp c]
    refine le_trans ?_ ((Scene.le_source hp c).trans (hy.source_le (p,c)))
    have hmin := min_rank (base_le hp c) (decide (c = .sky) && input.scene.profile.directSkyDown)
    exact hmin.ge.trans (min_le_left _ _)
  · rw [hv p hp .sky]
    exact if_neg (by rw [show input.scene.profile.allowsSky=false from hsky]; simp)
  · rw [h.directAbove] at ha
    cases ha

/-- A face cell holds what the halo cell in direction `d` sends in; direct sky is only flagged. -/
def Reached (input : SolveInput) (p : BlockPos) (c : LightChannel) (d : Fin 6)
    (full : FullSolveScratch) : Prop :=
  (input.scene.haloRank p c d<directRank → input.scene.haloRank p c d≤full.values c (input.pad p)) ∧
  (directRank ≤ input.scene.haloRank p c d → full.directAbove (input.bounds.column p) = true)

/-- Grids only gain light and flags. -/
structure Gained (full full' : FullSolveScratch) : Prop where
  values : ∀ c i, full.values c i≤full'.values c i
  directAbove : ∀ i, full.directAbove i=true → full'.directAbove i=true

lemma Gained.refl (full : FullSolveScratch) : Gained full full := ⟨fun _ _=>le_rfl,fun _ h=>h⟩

lemma Gained.trans {full₁ full₂ full₃ : FullSolveScratch} (h : Gained full₁ full₂)
    (h' : Gained full₂ full₃) : Gained full₁ full₃ :=
  ⟨fun c i=>(h.values c i).trans (h'.values c i),fun i hi=>h'.directAbove i (h.directAbove i hi)⟩

lemma Reached.gained {p : BlockPos} {c : LightChannel} {d : Fin 6}
    {full full' : FullSolveScratch} (h : input.Reached p c d full) (hg : Gained full full') :
    input.Reached p c d full' :=
  ⟨fun hlt=>(h.1 hlt).trans (hg.values c _),fun hd=>hg.directAbove _ (h.2 hd)⟩

lemma reached_of_zero {p : BlockPos} {c : LightChannel} {d : Fin 6}
    (h : input.scene.haloRank p c d=0) : input.Reached p c d full := by
  refine ⟨fun _=>h.le.trans (Nat.zero_le _),fun hd=>?_⟩
  exact absurd hd (by unfold directRank; omega)

def raisedGrid (full : FullSolveScratch) (cell incoming : ℕ) :
    LightChannel → FullSolveScratch
  | .block => { full with block := update full.block cell (max (full.block cell) incoming) }
  | .sky => { full with sky := update full.sky cell (max (full.sky cell) incoming) }

lemma values_raisedGrid (full : FullSolveScratch) (cell incoming : ℕ) (c c' : LightChannel) :
    (raisedGrid full cell incoming c).values c' =
      if c'=c then update (full.values c) cell (max (full.values c cell) incoming)
      else full.values c' := by
  cases c <;> cases c' <;> rfl

section
variable {full : FullSolveScratch} (h : input.HaloInv full) {p : BlockPos}
  (hp : input.scene.Inside p) {c : LightChannel} {d : Fin 6} {level : ℕ} {direct : Bool}
  (hhalo : input.scene.haloRank p c d=input.scene.carried c d (input.scene.filterAt p) (rank level direct))
  (hlevel : level≤15) (hallow : ¬(c = .sky ∧ input.profile.allowsSky=false))
include h hp hhalo hlevel hallow

lemma haloInv_raised : input.HaloInv (raisedGrid full (input.pad p) (level-max (input.scene.filterAt p) 1) c) := by
  have hincoming : level-max (input.scene.filterAt p) 1 ≤ input.scene.haloRank p c d := by
    rw [hhalo]
    exact le_carried (min_rank hlevel direct).ge
  have hmono : ∀ c' i, full.values c' i ≤
      (raisedGrid full (input.pad p) (level-max (input.scene.filterAt p) 1) c).values c' i := by
    intro c' i
    rw [values_raisedGrid]
    split_ifs with hc
    · subst hc
      by_cases hi : i=input.pad p
      · rw [hi,update_self]
        exact le_max_left _ _
      · rw [update_of_ne hi]
    · exact le_rfl
  have hother : ∀ q, input.bounds.Around q → ∀ c', ¬(q=p ∧ c'=c) →
      (raisedGrid full (input.pad p) (level-max (input.scene.filterAt p) 1) c).values c'
        (input.pad q) = full.values c' (input.pad q) := by
    intro q hq c' hne
    rw [values_raisedGrid]
    split_ifs with hc
    · subst hc
      rw [update_of_ne fun he=>hne ⟨pad_inj hq hp.1.around he,rfl⟩]
    · rfl
  have hself : (raisedGrid full (input.pad p) (level-max (input.scene.filterAt p) 1) c).values c
      (input.pad p) = max (full.values c (input.pad p)) (level-max (input.scene.filterAt p) 1) := by
    rw [values_raisedGrid,if_pos rfl,update_self]
  refine ⟨?_,fun q hq hn c'=>?_,fun q hq c'=>(h.base_le q hq c').trans (hmono c' _),
    fun q hq c'=>?_,fun q hq h15=>?_,fun q hq c' y hy=>?_,fun hsky q hq=>?_,?_,?_⟩
  · cases c <;> exact h.filter
  · rw [hother q hq c' fun hqp=>hn (hqp.1 ▸ hp)]
    exact h.zero q hq hn c'
  · by_cases hqp : q=p ∧ c'=c
    · rw [hqp.1,hqp.2,hself]
      have := h.le p hp c
      omega
    · rw [hother q hq.1.around c' hqp]
      exact h.le q hq c'
  · by_cases hqp : q=p ∧ LightChannel.sky=c
    · obtain ⟨rfl,rfl⟩ := hqp
      exact h.full_sky q hp (by omega)
    · rw [hother q hq.1.around .sky hqp] at h15
      exact h.full_sky q hq h15
  · by_cases hqp : q=p ∧ c'=c
    · obtain ⟨rfl,rfl⟩ := hqp
      rw [hself]
      refine max_le (h.sound q hp c' y hy) (hincoming.trans ?_)
      exact (Scene.haloRank_le_source hp c' d).trans (hy.source_le _)
    · rw [hother q hq.1.around c' hqp]
      exact h.sound q hq c' y hy
  · rw [hother q hq.1.around .sky fun hqp=>hallow ⟨hqp.2.symm,hsky⟩]
    exact h.sky_off hsky q hq
  · cases c <;> exact h.direct
  · cases c <;> exact h.above_sound

end

lemma gained_raised (full : FullSolveScratch) (cell incoming : ℕ) (c : LightChannel) :
    Gained full (raisedGrid full cell incoming c) := by
  refine ⟨fun c' i=>?_,fun i hi=>?_⟩
  · rw [values_raisedGrid]
    split_ifs with hc
    · subst hc
      by_cases hi : i=cell
      · rw [hi,update_self]
        exact le_max_left _ _
      · rw [update_of_ne hi]
    · exact le_rfl
  · cases c <;> exact hi

section

variable (h : input.HaloInv full)
include h

lemma seedHaloChannel_spec {p q : BlockPos}
    (hp : input.scene.Inside p) {d : Fin 6} (hq : p.checkedOffset (neighbours d) = some q)
    (hout : ¬input.bounds.Contains q) (hknown : (input.source.sample q).filter≠none)
    (c : LightChannel) :
    let full' := seedHaloChannel input.old input.bounds (Grid.new input.bounds) input.profile d
      (input.bounds.dx p) (input.bounds.dz p) (input.pad p) (input.scene.filterAt p) q full c
    input.HaloInv full' ∧ Gained full full' ∧ input.Reached p c d full' := by
  intro full'
  by_cases hallow : c = .sky ∧ input.profile.allowsSky=false
  · have hfull : full'=full := if_pos hallow
    have hz : input.scene.haloRank p c d=0 := by
      simp only [Scene.haloRank,hq]
      exact if_pos (.inr (.inr hallow))
    rw [hfull]
    exact ⟨h,.refl _,reached_of_zero hz⟩
  have hhalo : (input.old.boundaryLight input.bounds.dimension q c).trustedParts =
    input.scene.halo q c := rfl
  cases hh : input.scene.halo q c with
  | none =>
    have hdef : full'=full := by
      simp only [full',seedHaloChannel,if_neg hallow,hhalo,hh]
    rw [hdef]
    exact ⟨h,.refl _,reached_of_zero (Scene.haloRank_of_halo_none hq hh)⟩
  | some parts =>
    obtain ⟨level,direct⟩ := parts
    have hrank : input.scene.haloRank p c d=input.scene.carried c d (input.scene.filterAt p) (rank level direct) :=
      Scene.haloRank_of_halo_some hq hout hknown hallow hh
    have hdef : full' = if level=0 then full
        else if c = .sky ∧ d=3 ∧ input.profile.directSkyDown=true ∧ level=15 ∧
            direct=true ∧ input.scene.filterAt p=0 then
          { raisedGrid full (input.pad p) (level-max (input.scene.filterAt p) 1) c with
            directAbove := update full.directAbove (input.bounds.column p) true }
        else raisedGrid full (input.pad p) (level-max (input.scene.filterAt p) 1) c := by
      simp only [full',seedHaloChannel,if_neg hallow,hhalo,hh]
      by_cases hz : level=0
      · simp [hz]
      · cases c with
        | block => simp [hz,raisedGrid]
        | sky => simp [hz,raisedGrid,column]
    have hl := input.scene.halo_le _ _ _ _ hh
    by_cases hz : level=0
    · rw [if_pos hz] at hdef
      rw [hz,show rank 0 direct=0 by simp [rank],Scene.carried_zero] at hrank
      rw [hdef]
      exact ⟨h,.refl _,reached_of_zero hrank⟩
    have hraised := haloInv_raised h hp hrank hl hallow
    have hvalue : level-max (input.scene.filterAt p) 1 ≤
        (raisedGrid full (input.pad p) (level-max (input.scene.filterAt p) 1) c).values c
          (input.pad p) := by
      rw [values_raisedGrid,if_pos rfl,update_self]
      exact le_max_right _ _
    split_ifs at hdef with hdir
    · obtain ⟨rfl,rfl,hdown,rfl,rfl,hf⟩ := hdir
      have h16 : directRank ≤ input.scene.haloRank p .sky 3 := by
        rw [hrank]
        exact (Scene.carried_of_direct ⟨rfl,hdown,rfl,by simp [rank],hf⟩).ge
      rw [hdef]
      refine ⟨⟨hraised.filter,hraised.zero,hraised.base_le,hraised.le,hraised.full_sky,
        hraised.sound,hraised.sky_off,hraised.direct,fun p' hp' htop ha=>?_⟩,?_,?_⟩
      · by_cases hcol : input.bounds.column p'=input.bounds.column p
        · -- Two cells of the top face in one column are the same cell.
          have hy : input.bounds.dy p'=input.bounds.dy p := by
            have hptop : p.y=input.bounds.max.y := by
              obtain ⟨rfl,-⟩ := BlockPos.checkedOffset_eq_some.1 hq
              have hpc := hp.1
              simp only [scene_bounds] at hpc
              simp only [BlockPos.step,neighbours,Matrix.cons_val,Contains] at hout
              omega
            simp only [dy,htop,hptop]
          obtain ⟨hx,hz'⟩ := digits_inj (dz_lt (b := input.bounds) hp'.1) (dz_lt (b := input.bounds) hp.1) hcol
          rw [pos_ext (b := input.bounds) hp'.1 hp.1 hx hy hz']
          exact h16
        · refine h.above_sound p' hp' htop ?_
          simpa [update_of_ne hcol] using ha
      · refine ⟨(gained_raised full _ _ .sky).values,fun i hi=>?_⟩
        by_cases hcol : i=input.bounds.column p
        · simp [hcol]
        · simpa [update_of_ne hcol] using hi
      · exact ⟨fun hlt=>absurd h16 (Nat.not_le.2 hlt),fun _=>by simp⟩
    · rw [hdef]
      have hnot : ¬(c = .sky ∧ input.scene.profile.directSkyDown=true ∧ d=above ∧
          directRank ≤ rank level direct ∧ input.scene.filterAt p=0) := by
        rintro ⟨hsky,hdown,hd,h16,hf⟩
        rw [rank] at h16
        split_ifs at h16 with hb
        · simp only [Bool.and_eq_true,beq_iff_eq] at hb
          exact hdir ⟨hsky,hd,hdown,hb.2,hb.1,hf⟩
        · unfold directRank at h16
          omega
      rw [Scene.carried_of_not_direct hnot,min_rank hl] at hrank
      refine ⟨hraised,gained_raised _ _ _ _,fun _=>hrank.le.trans hvalue,fun h16=>?_⟩
      unfold directRank at h16
      omega

lemma seedHaloCell_spec {p : BlockPos} (hp : input.bounds.Contains p) {d : Fin 6}
    (hout : ¬input.bounds.Contains (p.step (neighbours d))) :
    let full' := seedHaloCell input.source input.old input.bounds (Grid.new input.bounds)
      input.profile d full (input.bounds.dx p,input.bounds.dy p,input.bounds.dz p)
    input.HaloInv full' ∧ Gained full full' ∧
      (input.scene.Inside p → ∀ c, input.Reached p c d full') := by
  intro full'
  have hcell : (Grid.new input.bounds).index (input.bounds.dx p) (input.bounds.dy p)
      (input.bounds.dz p) = input.pad p := index_eq_pad hp
  have hfilter := h.filter p hp.around
  by_cases hin : input.scene.Inside p
  · rw [if_pos hin] at hfilter
    have hopen := (h.filter.ne_blocked hp.around).2 hin
    cases hq : p.checkedOffset (neighbours d) with
    | none =>
      have hstart : full'=full := by
        simp only [full',seedHaloCell,hcell,position_offsets hp,if_neg hopen,hq]
      rw [hstart]
      exact ⟨h,.refl _,fun _ c=>reached_of_zero (by simp [Scene.haloRank,hq])⟩
    | some q =>
      obtain ⟨hqs,-⟩ := BlockPos.checkedOffset_eq_some.1 hq
      by_cases hknown : (input.source.sample q).filter=none
      · have hstart : full'=full := by
          simp only [full',seedHaloCell,hcell,position_offsets hp,if_neg hopen,hq,
            input.source.isKnown_eq,hknown,Option.isSome_none,Bool.not_false,if_true]
        rw [hstart]
        refine ⟨h,.refl _,fun _ c=>reached_of_zero ?_⟩
        simp only [Scene.haloRank,hq]
        exact if_pos (.inr (.inl hknown))
      · have hstart : full'=channels.foldl (seedHaloChannel input.old input.bounds
            (Grid.new input.bounds) input.profile d (input.bounds.dx p) (input.bounds.dz p)
            (input.pad p) (full.filter (input.pad p)) q) full := by
          simp only [full',seedHaloCell,hcell,position_offsets hp,if_neg hopen,hq,
            input.source.isKnown_eq,Option.isSome_iff_ne_none.2 hknown,Bool.not_true,
            Bool.false_eq_true,if_false]
        rw [hfilter] at hstart
        obtain ⟨h₁,hg₁,hr₁⟩ := seedHaloChannel_spec h hin hq (hqs ▸ hout) hknown .block
        obtain ⟨h₂,hg₂,hr₂⟩ := seedHaloChannel_spec h₁ hin hq (hqs ▸ hout) hknown .sky
        rw [hstart]
        refine ⟨h₂,hg₁.trans hg₂,fun _ c=>?_⟩
        cases c with
        | block => exact hr₁.gained hg₂
        | sky => exact hr₂
  · rw [if_neg hin] at hfilter
    have hstart : full'=full := by
      simp only [full',seedHaloCell,hcell,hfilter,if_true]
    rw [hstart]
    exact ⟨h,.refl _,fun hin'=>absurd hin' hin⟩

lemma seedFace_spec (d : Fin 6) :
    let full' := (faceCells (Grid.new input.bounds) d).foldl
      (seedHaloCell input.source input.old input.bounds (Grid.new input.bounds) input.profile d) full
    input.HaloInv full' ∧ Gained full full' ∧ ∀ p, input.scene.Inside p →
      ¬input.bounds.Contains (p.step (neighbours d)) → ∀ c, input.Reached p c d full' := by
  have hspec := foldl_invariant (l := faceCells (Grid.new input.bounds) d) (z := full)
    (f := seedHaloCell input.source input.old input.bounds (Grid.new input.bounds) input.profile d)
    (I := fun seen full'=>input.HaloInv full' ∧ Gained full full' ∧
      ∀ p, input.scene.Inside p → ¬input.bounds.Contains (p.step (neighbours d)) →
        (input.bounds.dx p,input.bounds.dy p,input.bounds.dz p) ∈ seen →
        ∀ c, input.Reached p c d full')
    ⟨h,.refl _,fun _ _ _ hmem=>absurd hmem not_mem_nil⟩ ?_
  · refine ⟨hspec.1,hspec.2.1,fun p hp hout=>hspec.2.2 p hp hout ?_⟩
    exact mem_faceCells.2 ⟨p,hp.1,hout,rfl,rfl,rfl⟩
  · rintro pre ⟨x,y,z⟩ post full₁ hl ⟨h₁,hg₁,hr₁⟩
    obtain ⟨p,hp,hout,rfl,rfl,rfl⟩ := mem_faceCells.1
      (show (x,y,z) ∈ faceCells (Grid.new input.bounds) d by rw [hl]; simp)
    obtain ⟨h₂,hg₂,hr₂⟩ := seedHaloCell_spec h₁ hp hout
    refine ⟨h₂,hg₁.trans hg₂,fun p' hp' hout' hmem c=>?_⟩
    rcases mem_append.1 hmem with hmem | hmem
    · exact (hr₁ p' hp' hout' hmem c).gained hg₂
    · rw [mem_singleton,Prod.mk.injEq,Prod.mk.injEq] at hmem
      obtain ⟨hx,hy,hz⟩ := hmem
      obtain rfl := pos_ext (b := input.bounds) hp'.1 hp hx hy hz
      exact hr₂ hp' c

lemma seedHalo_spec :
    let full' := seedHalo input.source input.old input.bounds (Grid.new input.bounds) input.profile full
    input.HaloInv full' ∧
      ∀ p, input.scene.Inside p → ∀ c d, input.Reached p c d full' := by
  have hspec := foldl_invariant (l := directions) (z := full)
    (f := fun full d=>(faceCells (Grid.new input.bounds) d).foldl
      (seedHaloCell input.source input.old input.bounds (Grid.new input.bounds) input.profile d) full)
    (I := fun seen full'=>input.HaloInv full' ∧ ∀ p, input.scene.Inside p → ∀ d ∈ seen,
      ¬input.bounds.Contains (p.step (neighbours d)) → ∀ c, input.Reached p c d full')
    ⟨h,fun _ _ _ hmem=>absurd hmem not_mem_nil⟩ ?_
  · refine ⟨hspec.1,fun p hp c d=>?_⟩
    by_cases hout : input.bounds.Contains (p.step (neighbours d))
    · refine reached_of_zero ?_
      cases hq : p.checkedOffset (neighbours d) with
      | none => simp [Scene.haloRank,hq]
      | some q =>
        obtain ⟨rfl,-⟩ := BlockPos.checkedOffset_eq_some.1 hq
        simp only [Scene.haloRank,hq]
        exact if_pos (.inl hout)
    · exact hspec.2 p hp d (by simp [directions]) hout c
  · rintro pre d post full₁ - ⟨h₁,hr₁⟩
    obtain ⟨h₂,hg₂,hr₂⟩ := seedFace_spec h₁ d
    refine ⟨h₂,fun p hp d' hd' hout c=>?_⟩
    rcases mem_append.1 hd' with hd' | hd'
    · exact (hr₁ p hp d' hd' hout c).gained hg₂
    · rw [mem_singleton] at hd'
      subst hd'
      exact hr₂ p hp hout c

end

end SolveInput

end Cinnabar.Light
