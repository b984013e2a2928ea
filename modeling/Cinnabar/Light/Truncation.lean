import Cinnabar.Light.FullSpread

/-! # The full solve is exact -/

namespace Cinnabar.Light

open LightBounds Relaxation

namespace SolveInput

variable {input : SolveInput} {full : FullSolveScratch}

/-- The output after the first `n` cells are written. -/
structure WrittenUpTo (input : SolveInput) (full : FullSolveScratch) (n : ℕ)
    (st : MutableOutput × DensePositionSet) : Prop where
  output_over : st.1.Over input.bounds
  direct_over : st.2.Over input.bounds
  le : ∀ i c, st.1.getAtIndex i c≤15
  known : ∀ p, input.bounds.Contains p → (st.1.known (input.idx p) = true ↔ input.idx p<n ∧ input.scene.Inside p)
  held : ∀ p, input.scene.Inside p → input.idx p<n → ∀ c, input.held st.1 p c=full.values c (input.pad p)
  direct : ∀ p, input.bounds.Contains p → (st.2.containsAtIndex (input.idx p) = true ↔
    input.idx p<n ∧ input.scene.Inside p ∧ full.direct (input.pad p) = true)

lemma zipIdx_cells_split {pre post : List (ℕ × ℕ)} {cell dense : ℕ}
    (h : (Grid.new input.bounds).cells.zipIdx=pre ++ (cell,dense) :: post) :
    ∃ p, input.bounds.Contains p ∧ cell=input.pad p ∧ dense=input.idx p ∧
      pre.length=input.idx p := by
  have hget : (Grid.new input.bounds).cells.zipIdx[pre.length]? = some (cell,dense) := by
    rw [h]
    simp
  rw [List.getElem?_zipIdx,Option.map_eq_some_iff] at hget
  obtain ⟨cell',hcell,he⟩ := hget
  simp only [Prod.mk.injEq,Nat.zero_add] at he
  obtain ⟨rfl,rfl⟩ := he
  have hlt : pre.length < input.bounds.cells := by
    rw [← cells_length]
    exact (List.getElem?_eq_some_iff.1 hcell).1
  obtain ⟨p,-,hp,hidx⟩ := positions_getElem? hlt
  rw [← hidx,cells_getElem? hp,Option.some.injEq] at hcell
  exact ⟨p,hp,hcell.symm,hidx.symm,hidx.symm⟩

variable {st : MutableOutput × DensePositionSet}

lemma writeCell_spec (h : input.GridInv full) {p : BlockPos} (hp : input.bounds.Contains p)
    (hst : input.WrittenUpTo full (input.idx p) st) :
    input.WrittenUpTo full (input.idx p+1) (writeCell full st (input.pad p,input.idx p)) := by
  obtain ⟨output,directSky⟩ := st
  simp only [writeCell]
  by_cases hin : input.scene.Inside p
  · rw [if_pos ((h.filter.ne_blocked hp.around).2 hin)]
    refine ⟨(hst.output_over.setAtIndex _ _ _).setAtIndex _ _ _,?_,fun i c=>?_,
      fun q hq=>?_,fun q hq hlt c=>?_,fun q hq=>?_⟩
    · split_ifs
      · exact hst.direct_over.insertAtIndex _
      · exact hst.direct_over
    · simp only [MutableOutput.getAtIndex_setAtIndex]
      split_ifs
      · exact h.le p hin .sky
      · exact h.le p hin .block
      · exact hst.le i c
    · rw [visited_succ hp hq]
      by_cases hqp : q=p
      · subst hqp
        simp [hin]
      · have hidx : input.idx q≠input.idx p := fun h=>hqp (denseIndex_inj hq hp h)
        simpa [hqp,hidx] using hst.known q hq
    · rw [held_set hp hq.1,held_set hp hq.1]
      by_cases hqp : q=p
      · subst hqp
        cases c <;> simp [FullSolveScratch.values]
      · simpa [hqp] using hst.held q hq (by simpa [visited_succ hp hq.1,hqp] using hlt) c
    · rw [visited_succ hp hq]
      by_cases hqp : q=p
      · subst hqp
        by_cases hd : full.direct (input.pad q) = true
        · simp [hd,hin]
        · have hno := (hst.direct q hq).not.2 (by simp)
          rw [if_neg hd]
          exact iff_of_false hno fun hd'=>hd hd'.2.2
      · have hidx : input.idx q≠input.idx p := fun h=>hqp (denseIndex_inj hq hp h)
        have hkeep : (if full.direct (input.pad p) = true then directSky.insertAtIndex (input.idx p)
            else directSky).containsAtIndex (input.idx q) = directSky.containsAtIndex (input.idx q) := by
          split_ifs
          · simp [hidx]
          · rfl
        rw [hkeep]
        simpa [hqp] using hst.direct q hq
  · rw [if_neg fun hb=>hin ((h.filter.ne_blocked hp.around).1 hb)]
    have hsame : ∀ q, input.bounds.Contains q → input.scene.Inside q →
        (input.idx q < input.idx p+1 ↔ input.idx q < input.idx p) := by
      intro q hq hqin
      rw [visited_succ hp hq]
      exact or_iff_right_of_imp fun hqp=>absurd (hqp ▸ hqin) hin
    refine ⟨hst.output_over,hst.direct_over,hst.le,fun q hq=>?_,
      fun q hq hlt=>hst.held q hq ((hsame q hq.1 hq).1 hlt),fun q hq=>?_⟩
    · rw [hst.known q hq]
      exact and_congr_left fun hqin=>(hsame q hq hqin).symm
    · rw [hst.direct q hq]
      exact and_congr_left fun hqin=>(hsame q hq hqin.1).symm

lemma writeCells_spec (h : input.GridInv full) (generation : ℕ) : input.WrittenUpTo full input.bounds.cells
      ((Grid.new input.bounds).cells.zipIdx.foldl (writeCell full)
        (.new input.bounds generation,.new input.bounds)) := by
  have hspec := foldl_invariant (l := (Grid.new input.bounds).cells.zipIdx) (f := writeCell full)
    (z := (.new input.bounds generation,.new input.bounds))
    (I := fun pre=>input.WrittenUpTo full pre.length)
    ⟨MutableOutput.over_new _ _,DensePositionSet.over_new _,fun _ _=>Nat.zero_le _,
      fun p _=>by simp [MutableOutput.new],fun p _ hlt=>absurd hlt (Nat.not_lt_zero _),
      fun p _=>by simp⟩ ?_
  · rwa [List.length_zipIdx,cells_length] at hspec
  · rintro pre ⟨cell,dense⟩ post st hl hst
    obtain ⟨p,hp,rfl,rfl,hlen⟩ := zipIdx_cells_split hl
    rw [hlen] at hst
    rw [List.length_append,List.length_singleton,hlen]
    exact writeCell_spec h hp hst

lemma field_written (hst : input.WrittenUpTo full input.bounds.cells st) :
    input.field st.1 st.2=input.gridField full := by
  funext cell
  obtain ⟨p,c⟩ := cell
  by_cases hp : input.scene.Inside p
  · have hlt : input.idx p < input.bounds.cells := denseIndex_lt (b := input.bounds) hp.1
    rw [field_of_inside hp,gridField_of_inside hp,hst.held p hp hlt]
    exact if_congr (and_congr_right fun _=>by simp [hst.direct p hp.1,hlt,hp]) rfl rfl
  · simp [field,gridField,hp]

lemma fieldInv_written (h : input.GridInv full)
    (hst : input.WrittenUpTo full input.bounds.cells st) : input.FieldInv st.1 st.2 where
  loaded := by
    refine ⟨hst.output_over,fun p hp=>?_,hst.le⟩
    rw [hst.known p hp]
    exact ⟨fun hk=>hk.2.2,fun hk=>⟨denseIndex_lt (b := input.bounds) hp,hp,hk⟩⟩
  shape := hst.direct_over
  direct_inside p hp hd := ((hst.direct p hp).1 hd).2.1
  direct_level p hp hd := by
    have hlt : input.idx p < input.bounds.cells := denseIndex_lt (b := input.bounds) hp.1
    rw [hst.held p hp hlt]
    exact h.direct_level p hp ((hst.direct p hp.1).1 hd).2.2
  sound := field_written hst ▸ h.sound
  base_le p hp c := by
    rw [field_written hst]
    exact h.base_le p hp c

/-- A channel with nothing left to give is complete: direct sky already fell with the grids. -/
lemma channelClosed_of_gives {c : LightChannel} {values : ℕ → ℕ} (h : input.GridInv (full.setValues c values))
    (hgives : ∀ p, input.scene.Inside p → ∀ d, input.scene.Inside (p.step (neighbours d)) → input.Gives values p d) :
    input.ChannelClosed c (input.gridField (full.setValues c values)) where
  halo p hp d := h.halo_le p hp c d
  settled p hp d hq := by
    by_cases hdir : directRank ≤ input.scene.carried c (opposite d) (input.scene.filterAt (p.step (neighbours d)))
        (input.gridField (full.setValues c values) (p,c))
    · obtain ⟨rfl,-⟩ := Scene.carried_eq_direct hdir
      rw [gridField_of_inside hq,if_pos ⟨rfl,h.down p hp d hq hdir⟩]
      exact Scene.carried_le _ _ _ _
    · rw [Scene.carried_of_not_direct,h.min_gridField hp]
      · refine (hgives p hp d hq).trans ?_
        rw [← h.min_gridField hq]
        exact min_le_left _ _
      · exact fun hd=>hdir (Scene.carried_of_direct hd).ge

lemma gridField_congr {full full' : FullSolveScratch} {c : LightChannel}
    (hv : full'.values c=full.values c) (hd : full'.direct=full.direct) (p : BlockPos) :
    input.gridField full' (p,c) = input.gridField full (p,c) := by
  simp only [gridField,hv,hd]

lemma gridField_sky_zero (h : input.GridInv full) (hsky : input.profile.allowsSky=false)
    (p : BlockPos) : input.gridField full (p,.sky) = 0 := by
  have := h.sound _ (Scene.closed_without_sky hsky (Scene.closed_directRank seed_le_scene)) (p,.sky)
  simpa using this

lemma spreadChannels_ensures {limits : SolverLimits} (hfit : input.bounds.PaddedFits)
    (h : input.GridInv full) (buckets : ℕ → List ℕ) :
    Ensures (Halt.Exceeds limits) (fun r=>input.GridInv r.1 ∧ ∀ c, input.ChannelClosed c (input.gridField r.1))
      (spreadChannels (Grid.new input.bounds) input.profile limits full buckets) := by
  refine Ensures.bind (spread_ensures hfit h .block _ _ _) fun block ⟨hblock,hgives⟩=>?_
  have hclosed := channelClosed_of_gives hblock hgives
  by_cases hsky : input.profile.allowsSky=true
  · simp only [hsky,if_true]
    refine Ensures.bind (spread_ensures hfit hblock .sky _ _ _) fun sky ⟨hsky,hgives'⟩=>?_
    refine ⟨hsky,fun c=>?_⟩
    cases c with
    | block => exact hclosed.congr fun p=>gridField_congr rfl rfl p
    | sky => exact channelClosed_of_gives hsky hgives'
  · simp only [hsky]
    refine ⟨hblock,fun c=>?_⟩
    cases c with
    | block => exact hclosed
    | sky =>
      refine ⟨fun p hp d=>hblock.halo_le p hp .sky d,fun p _ d _=>?_⟩
      change input.scene.carried _ _ _ (input.gridField (full.setValues .block block.values) _) ≤ _
      rw [gridField_sky_zero hblock (by simpa using hsky),Scene.carried_zero]
      exact Nat.zero_le _

lemma gridInv_seeded : Ensures (fun _=>False) (fun full=>input.GridInv (if input.profile.directSkyDown then
        fillDirectSky (Grid.new input.bounds) (seedHalo input.source input.old input.bounds
          (Grid.new input.bounds) input.profile full)
      else seedHalo input.source input.old input.bounds (Grid.new input.bounds) input.profile full))
    (readBlocks input.source input.bounds (Grid.new input.bounds) input.profile {}) := by
  refine readBlocks_ensures.mono fun full hread=>?_
  obtain ⟨hseed,hreached⟩ := seedHalo_spec (haloInv_read hread)
  split_ifs with hdown
  · exact gridInv_of_filled hseed hreached (fillDirectSky_spec hseed.direct) hdown
  · exact gridInv_of_no_fall hseed hreached (by simpa using hdown)

/-- The full solve yields the light of its scene, where its padded indices are `u32` values. -/
lemma solveLightFull_ensures (input : SolveInput) {volume : ℕ} (generation : ℕ)
    {limits : SolverLimits} (scratch : LightSolverScratch) (hfit : input.bounds.PaddedFits)
    (hv : input.bounds.volume=some volume) (hmax : volume≤limits.maxVoxels) :
    Ensures (Halt.Exceeds limits) (Exact input.scene)
      (solveLightFullWithScratch input.source input.old input.bounds generation input.profile limits
        scratch) := by
  have hcheck : checkedVolume input.bounds limits = .ok volume := by
    rw [checkedVolume,hv]
    exact if_neg (Nat.not_lt.2 hmax)
  rw [solveLightFullWithScratch,hcheck,except_ok_bind]
  refine Ensures.bind gridInv_seeded.of_never fun full hfull=>?_
  refine Ensures.bind (spreadChannels_ensures hfit hfull _) fun r hr=>?_
  obtain ⟨hgrid,hclosed⟩ := hr
  have hwritten := writeCells_spec hgrid generation
  have hfield := fieldInv_written hgrid hwritten
  refine ((freeze_shows hfield _).mono fun out hout=>⟨_,isSolution_of_closed hfield ?_,hout⟩).of_never
  rw [field_written hwritten]
  exact hclosed

end SolveInput

end Cinnabar.Light

/-! # Bounds whose padded indices exceed `u32`

The buckets record `cell as u32` of a padded index, and nothing checks that the
padded grid fits.  Past `u32::MAX` the recorded index names another cell, which
holds no light, so the queued cell is skipped and its neighbours stay dark.
-/

namespace Cinnabar.Light

open LightBounds Relaxation List Function

namespace LightBounds

variable {b : LightBounds}

lemma pad_max : b.pad b.max = (b.xLen * (b.yLen+2) + b.yLen) * (b.zLen+2) + b.zLen := rfl

/-- Where the padded grid is longer than `u32`, the maximum corner has a neighbour. -/
lemma exists_neighbour (h : ¬b.PaddedFits) : ∃ d, b.Contains (b.max.step (neighbours d)) := by
  have hx := b.x_le
  have hy := b.y_le
  have hz := b.z_le
  by_contra hno
  simp only [not_exists] at hno
  have h0 := hno 0
  have h2 := hno 2
  have h4 := hno 4
  simp only [neighbours,BlockPos.step,Matrix.cons_val,Contains] at h0 h2 h4
  have hx1 : b.xLen=1 := by unfold xLen; omega
  have hy1 : b.yLen=1 := by unfold yLen; omega
  have hz1 : b.zLen=1 := by unfold zLen; omega
  refine h ?_
  rw [PaddedFits,pad_max,hx1,hy1,hz1]
  decide

end LightBounds

/-- A full emitter. -/
def lamp : LightProperties := ⟨15,0,le_rfl,Nat.zero_le _⟩

/-- A lamp at `p`, known air at `q`, and nothing known elsewhere. -/
def lampBeside (p q : BlockPos) : LightBlockAccess where
  sample r := if r=p then .resident lamp else if r=q then .knownAir else .unknown
  isKnown r := decide (r=p ∨ r=q)
  skySeed _ := 0
  sampleSection _ := none
  isKnown_eq r := by
    by_cases hp : r=p
    · simp [hp,LightBlockSample.filter]
    · by_cases hq : r=q
      · subst hq
        simp [hp,LightBlockSample.filter]
      · simp [hp,hq,LightBlockSample.filter]
  sampleSection_eq _ _ h := by cases h

/-- Limits no `usize` exceeds. -/
def noLimits : SolverLimits := ⟨usizeMax,usizeMax⟩

lemma not_exceeds_noLimits (e : Halt) : ¬Halt.Exceeds noLimits e :=
  fun h=>absurd h.2 (Nat.lt_irrefl _)

namespace SolveInput

def lampInput (b : LightBounds) (q : BlockPos) (hcells : b.cells≤usizeMax) : SolveInput where
  source := lampBeside b.max q
  old := emptyLight
  bounds := b
  profile := .nether
  cells_le := hcells
  seed_le _ _ := Nat.zero_le _
  old_le _ _ _ := Nat.zero_le _

lemma seedHalo_empty (source : LightBlockAccess) (b : LightBounds) (grid : Grid)
    (profile : DimensionLightProfile) (full : FullSolveScratch) :
    seedHalo source emptyLight b grid profile full=full := by
  have hchannel : ∀ d x z cell filter q full c,
      seedHaloChannel emptyLight b grid profile d x z cell filter q full c=full := by
    intro d x z cell filter q full c
    exact ite_self _
  have hcell : ∀ d full cell, seedHaloCell source emptyLight b grid profile d full cell=full := by
    rintro d full ⟨x,y,z⟩
    simp only [seedHaloCell]
    split_ifs
    · rfl
    · cases (Grid.position b x y z).checkedOffset (neighbours d) with
      | none => rfl
      | some q =>
        simp only [channels,foldl_cons,foldl_nil,hchannel,ite_self]
  have hfold : ∀ (d : Fin 6) (cells : List (ℕ × ℕ × ℕ)) (full : FullSolveScratch),
      cells.foldl (seedHaloCell source emptyLight b grid profile d) full=full := by
    intro d cells
    induction cells with
    | nil => exact fun _=>rfl
    | cons cell cells ih => exact fun full=>by rw [foldl_cons,hcell,ih]
  have hfaces : ∀ (ds : List (Fin 6)) (full : FullSolveScratch), ds.foldl (fun full d=>(faceCells grid d).foldl
        (seedHaloCell source emptyLight b grid profile d) full) full=full := by
    intro ds
    induction ds with
    | nil => exact fun _=>rfl
    | cons d ds ih => exact fun full=>by rw [foldl_cons,hfold,ih]
  exact hfaces _ full

/-- Spreading changes nothing where every lit cell is queued under a dark index. -/
lemma spread_stale {grid : Grid} {limits : SolverLimits} {filter values : ℕ → ℕ} {t : ℕ}
    (hqueued : ∀ cell ∈ grid.cells, 1<values cell → asU32 cell=t) (hdark : values t≤1)
    (buckets : ℕ → List ℕ) (total : ℕ) (stats : LightSolveStats) :
    Ensures (Halt.Exceeds limits) (fun st=>st.values=values)
      (spread grid limits filter values buckets total stats) := by
  refine Ensures.bind (Ensures.foldlM_const (I := fun st : Spread =>
    st.values=values ∧ ∀ l, ∀ cell ∈ st.buckets l, cell=t) ⟨rfl,by simp⟩ ?_) fun st hst=>?_
  · rintro cell hcell st ⟨hv,hb⟩
    simp only [seedCell]
    split_ifs with hseed
    · refine Ensures.bind (enqueueCounted_ensures 1) fun _ _=>?_
      refine ⟨hv,fun l cell' hmem=>?_⟩
      rcases GridSpread.of_mem_push hmem with ⟨-,rfl⟩ | hold
      · exact hqueued cell hcell (hv ▸ hseed.1)
      · exact hb l cell' hold
    · exact ⟨hv,hb⟩
  · refine (Ensures.foldlM_const (I := fun st : Spread =>
      st.values=values ∧ ∀ l, ∀ cell ∈ st.buckets l, cell=t) ?_ ?_).mono fun _ h=>h.1
    · exact hst
    intro level hlevel st hst
    have h2 : 2≤level := by
      simp only [spreadLevels,mem_cons,not_mem_nil,or_false] at hlevel
      omega
    refine (drain_ensures (fun st : Spread=>(st.buckets level).length) ?_ ?_ hst le_rfl).mono fun _ h=>h.1
    · intro st next _ hpop
      rw [Spread.pop] at hpop
      cases hb : st.buckets level with
      | nil => simp [hb] at hpop
      | cons _ _ => simp
    · rintro st cell rest ⟨hv,hb⟩ hpop
      rw [Spread.pop] at hpop
      cases hlist : st.buckets level with
      | nil => simp [hlist] at hpop
      | cons head tail =>
        simp only [hlist,Option.some.injEq,Prod.mk.injEq] at hpop
        obtain ⟨rfl,rfl⟩ := hpop
        obtain rfl := hb level head (by simp [hlist])
        have hstale : st.values head≠level := by
          rw [hv]
          omega
        rw [spreadCell,if_pos hstale,Ensures.ok_iff]
        refine ⟨⟨hv,fun l cell hmem=>?_⟩,by simp⟩
        by_cases hl : l=level
        · subst hl
          simp only [update_self] at hmem
          exact hb l cell (by simp [hlist,hmem])
        · simp only [update_of_ne hl] at hmem
          exact hb l cell hmem

lemma readBlocks_dark (input : SolveInput) : Ensures (fun _=>False)
    (fun full=>∀ i, (∀ p, input.scene.Inside p → i≠input.pad p) → full.block i=0)
    (readBlocks input.source input.bounds (Grid.new input.bounds) input.profile {}) := by
  refine Ensures.foldlM_const (fun _ _=>rfl) ?_
  rintro ⟨key,p⟩ hmem full hdark
  rw [readBlock_eq (mem_sectionedCells hmem),Ensures.ok_iff]
  split_ifs with hp
  · intro i hi
    simp only [writtenBlock,update_of_ne (hi p hp)]
    exact hdark i hi
  · exact hdark

section
variable {b : LightBounds} {q : BlockPos} (hcells : b.cells≤usizeMax) (hq : b.Contains q)
  (hne : q≠b.max)

lemma lampInput_inside {p : BlockPos} : (lampInput b q hcells).scene.Inside p ↔ b.Contains p ∧ (p=b.max ∨ p=q) := by
  refine and_congr_right fun _=>?_
  have h := (lampBeside b.max q).isKnown_eq p
  rw [← Option.isSome_iff_ne_none]
  exact (Bool.eq_iff_iff.1 h).symm.trans decide_eq_true_iff

lemma lampInput_base {p : BlockPos} : (lampInput b q hcells).scene.base p .block = if p=b.max then 15 else 0 := by
  change ((lampBeside b.max q).sample p).emission=_
  simp only [lampBeside]
  split_ifs <;> rfl

/-- Spreading block light in a profile without sky, where it changes nothing. -/
lemma spreadChannels_nether {grid : Grid} {full : FullSolveScratch} {limits : SolverLimits} {buckets : ℕ → List ℕ}
    (h : Ensures (Halt.Exceeds limits) (fun st=>st.values=full.block)
      (spread grid limits full.filter full.block buckets 0 {})) :
    Ensures (Halt.Exceeds limits) (fun r=>r.1=full)
      (spreadChannels grid .nether limits full buckets) := by
  refine Ensures.bind h fun st hst=>?_
  simp only [DimensionLightProfile.allowsSky,hst]
  rfl

include hq hne in
lemma full_dark (hfit : ¬b.PaddedFits) {volume : ℕ} (hv : b.volume=some volume)
    (generation : ℕ) (scratch : LightSolverScratch) :
    ∃ out, solveLightFullWithScratch (lampBeside b.max q) emptyLight b generation .nether noLimits
      scratch = .ok out ∧ out.lightAt q .block=0 := by
  refine Ensures.exists_ok (Q := fun out : LightSolveOutput=>out.lightAt q .block=0) ?_ not_exceeds_noLimits
  obtain ⟨rfl,hcells⟩ := cells_of_volume hv
  set input := lampInput b q hcells
  have hcheck : checkedVolume b noLimits = .ok b.cells := by
    rw [checkedVolume,hv]
    exact if_neg (Nat.not_lt.2 hcells)
  rw [solveLightFullWithScratch,hcheck,except_ok_bind]
  refine Ensures.bind (gridInv_seeded |>.and (readBlocks_ensures.and (readBlocks_dark input))).of_never
    fun full hfull=>?_
  obtain ⟨hgrid,hread,hdark⟩ := hfull
  change input.GridInv (seedHalo (lampBeside b.max q) emptyLight b (Grid.new b) .nether full) at hgrid
  rw [seedHalo_empty] at hgrid
  simp only [seedHalo_empty,DimensionLightProfile.directSkyDown,Bool.false_eq_true,if_false]
  have hvalue : ∀ p, input.scene.Inside p → full.block (input.pad p) = if p=b.max then 15 else 0 := by
    intro p hp
    have := hread.value p hp.1.around .block
    rw [if_pos hp,lampInput_base] at this
    exact this
  have hindex : u32Max<b.pad b.max := Nat.lt_of_not_le hfit
  have hshort : asU32 (b.pad b.max) ≠ b.pad b.max := by
    have : asU32 (b.pad b.max) < u32Max+1 := Nat.mod_lt _ (Nat.succ_pos _)
    omega
  have hstale : Ensures (Halt.Exceeds noLimits) (fun st=>st.values=full.block)
      (spread (Grid.new b) noLimits full.filter full.block scratch.buckets 0 {}) := by
    refine SolveInput.spread_stale (t := asU32 (b.pad b.max)) (fun cell hcell hlit=>?_) ?_ _ _ _
    · obtain ⟨p,hp,rfl⟩ := mem_cells.1 hcell
      by_cases hin : input.scene.Inside p
      · have := hvalue p hin
        split_ifs at this with hmax
        · rw [hmax]
        · have hlit' : 1<full.block (input.pad p) := hlit
          omega
      · have := hread.value p hp.around .block
        rw [if_neg hin] at this
        have hlit' : 1<full.values .block (input.pad p) := hlit
        omega
    · by_cases hp : ∃ p, input.scene.Inside p ∧ asU32 (b.pad b.max) = input.pad p
      · obtain ⟨p,hin,he⟩ := hp
        rw [he,hvalue p hin,if_neg]
        · exact Nat.zero_le _
        · rintro rfl
          exact hshort he
      · simp only [not_exists,not_and] at hp
        rw [hdark _ hp]
        exact Nat.zero_le _
  refine Ensures.bind (spreadChannels_nether hstale) fun r hr=>?_
  rw [← hr] at hgrid hvalue
  have hwritten := writeCells_spec hgrid generation
  refine ((freeze_shows (fieldInv_written hgrid hwritten) _).mono fun out hout=>?_).of_never
  have hin : input.scene.Inside q := (lampInput_inside hcells).2 ⟨hq,.inr rfl⟩
  rw [field_written hwritten] at hout
  rw [(hout q hq).1 .block,gridField_of_inside hin]
  simp only [reduceCtorEq,false_and,if_false]
  rw [show r.1.values .block (input.pad q) = 0 from (hvalue q hin).trans (if_neg hne)]
  rfl

include hq hne in
lemma lamp_lit {d : Fin 6} (hd : q=b.max.step (neighbours d)) {out : LightSolveOutput}
    (hout : Exact (lampInput b q hcells).scene out) : 14≤out.lightAt q .block := by
  obtain ⟨x,hx,hshow⟩ := hout
  have hmax := (lampInput_inside hcells (q := q)).2 ⟨b.contains_max,.inl rfl⟩
  have hin := (lampInput_inside hcells (q := q)).2 ⟨hq,.inr rfl⟩
  have hlamp : 15≤x (b.max,.block) := by
    have := (Scene.le_source hmax .block).trans (hx.1.source_le _)
    rwa [Scene.baseRank,lampInput_base,if_pos rfl] at this
  have hfilter : (lampInput b q hcells).scene.filterAt q=0 := by
    change ((lampBeside b.max q).sample q).filter.getD 0=0
    simp [lampBeside,hne,LightBlockSample.filter]
  have hback : q.step (neighbours (opposite d)) = b.max := by rw [hd,step_opposite]
  have hflow := (Scene.le_flow (c := .block) (d := opposite d) hin (hback.symm ▸ hmax) _).trans
    (hx.1.flow_le (q.step (neighbours (opposite d)),.block) (q,.block))
  rw [hback,Scene.carried_block,hfilter] at hflow
  rw [(hshow q hq).1 .block]
  omega

end

end SolveInput

end Cinnabar.Light
