import Cinnabar.Light.FullSeed

/-! # Direct sky in the padded grid -/

namespace Cinnabar.Light

open LightBounds Relaxation List Function

/-- Counting down, everything larger comes first. -/
lemma mem_reverse_range {n y : ℕ} {pre post : List ℕ} (h : (List.range n).reverse=pre++y::post) :
    y<n ∧ ∀ k, k ∈ pre ↔ y<k ∧ k<n := by
  have hsorted : (pre++y::post).Pairwise (· > ·) := by
    rw [← h,pairwise_reverse]
    exact pairwise_lt_range
  have hmem : ∀ k, k ∈ pre++y::post ↔ k<n := by
    intro k
    rw [← h,mem_reverse,mem_range]
  obtain ⟨-,htail,hcross⟩ := pairwise_append.1 hsorted
  refine ⟨(hmem y).1 (by simp),fun k=>⟨fun hk=>?_,fun ⟨hyk,hkn⟩=>?_⟩⟩
  · exact ⟨hcross k hk y (.head _),(hmem k).1 (mem_append_left _ hk)⟩
  · rcases mem_append.1 ((hmem k).2 hkn) with hk | hk
    · exact hk
    · rcases mem_cons.1 hk with rfl | hk
      · exact absurd hyk (Nat.lt_irrefl _)
      · exact absurd ((pairwise_cons.1 htail).1 k hk) (by omega)

namespace SolveInput

variable {input : SolveInput}

/-- The cell in the column above carries direct sky down, or the halo does into the top face. -/
def LitAbove (input : SolveInput) (full : FullSolveScratch) (p : BlockPos) : Prop :=
  if p.y=input.bounds.max.y then full.directAbove (input.bounds.column p) = true
  else full.direct (input.pad (p.step (neighbours above))) = true

/-- Direct sky is marked in the cells `done`, and nothing else has changed since `start`. -/
structure Filled (input : SolveInput) (start : FullSolveScratch) (done : BlockPos → Prop)
    (full : FullSolveScratch) : Prop where
  filter : full.filter=start.filter
  block : full.block=start.block
  directAbove : full.directAbove=start.directAbove
  sky : ∀ p, input.bounds.Contains p → full.sky (input.pad p) =
    if full.direct (input.pad p) = true then 15 else start.sky (input.pad p)
  direct : ∀ p, input.bounds.Contains p → (full.direct (input.pad p) = true ↔
    done p ∧ full.filter (input.pad p) = 0 ∧ (start.sky (input.pad p) = 15 ∨ input.LitAbove full p))

lemma Filled.congr {start full : FullSolveScratch} {done done' : BlockPos → Prop}
    (h : input.Filled start done full) (hd : ∀ p, input.bounds.Contains p → (done p ↔ done' p)) :
    input.Filled start done' full :=
  ⟨h.filter,h.block,h.directAbove,h.sky,fun p hp=>by rw [h.direct p hp,hd p hp]⟩

def markedGrid (full : FullSolveScratch) (cell : ℕ) : FullSolveScratch :=
  { full with
    sky := update full.sky cell 15
    direct := update full.direct cell true }

variable {full : FullSolveScratch}

lemma litAbove_marked {p q : BlockPos} (hp : input.bounds.Contains p)
    (hq : input.bounds.Contains q) (hne : q.step (neighbours above) ≠ p) :
    input.LitAbove (markedGrid full (input.pad p)) q ↔ input.LitAbove full q := by
  simp only [LitAbove,markedGrid]
  rw [update_of_ne fun he=>hne (pad_inj (hq.around_step above) hp.around he)]

variable {p : BlockPos} {done : BlockPos → Prop}

/-- Visiting a cell whose upper neighbour is done, before the cell below it. -/
lemma Filled.visit {start full : FullSolveScratch}
    (h : input.Filled start done full) (hp : input.bounds.Contains p) (hnew : ¬done p)
    (hbelow : ∀ q, done q → q.step (neighbours above) ≠ p) {lit : Bool}
    (hlit : lit=true ↔ input.LitAbove full p) :
    let direct := decide (full.filter (input.pad p) = 0) && (lit || decide (full.sky (input.pad p) = 15))
    let full' := if direct then markedGrid full (input.pad p) else full
    input.Filled start (fun q=>done q ∨ q=p) full' ∧
      (direct=true ↔ full'.direct (input.pad p) = true) := by
  intro direct full'
  have hclear : full.direct (input.pad p) = false := by
    rw [Bool.eq_false_iff]
    exact fun hd=>hnew ((h.direct p hp).1 hd).1
  have hsky : full.sky (input.pad p) = start.sky (input.pad p) := by
    rw [h.sky p hp,hclear]
    rfl
  have hdirect : direct=true ↔ full.filter (input.pad p) = 0 ∧
      (start.sky (input.pad p) = 15 ∨ input.LitAbove full p) := by
    simp only [direct,Bool.and_eq_true,Bool.or_eq_true,decide_eq_true_eq,hlit,hsky]
    tauto
  have hself : p.step (neighbours above) ≠ p := step_ne p above
  by_cases hd : direct=true
  · have hfull : full'=markedGrid full (input.pad p) := if_pos hd
    rw [hfull]
    refine ⟨⟨h.filter,h.block,h.directAbove,fun q hq=>?_,fun q hq=>?_⟩,?_⟩
    · by_cases hqp : q=p
      · simp [hqp,markedGrid]
      · simp only [markedGrid, update_of_ne fun he=>hqp (pad_inj hq.around hp.around he)]
        exact h.sky q hq
    · by_cases hqp : q=p
      · subst hqp
        rw [litAbove_marked hp hp hself]
        simp only [markedGrid,update_self,or_true,true_and,true_iff]
        exact hdirect.1 hd
      · have hkeep : (markedGrid full (input.pad p)).direct (input.pad q) = full.direct (input.pad q) :=
          update_of_ne (fun he=>hqp (pad_inj hq.around hp.around he)) _ _
        rw [hkeep,h.direct q hq]
        simp only [hqp,or_false]
        constructor
        · rintro ⟨hdone,hrest⟩
          rw [litAbove_marked hp hq (hbelow q hdone)]
          exact ⟨hdone,hrest⟩
        · rintro ⟨hdone,hrest⟩
          rw [litAbove_marked hp hq (hbelow q hdone)] at hrest
          exact ⟨hdone,hrest⟩
    · simp [hd,markedGrid]
  · have hfull : full'=full := if_neg hd
    rw [hfull]
    refine ⟨⟨h.filter,h.block,h.directAbove,h.sky,fun q hq=>?_⟩,?_⟩
    · rw [h.direct q hq]
      by_cases hqp : q=p
      · subst hqp
        tauto
      · simp only [hqp,or_false]
    · rw [hclear]
      simpa using hd

/-- The cells of a column whose height is in `ys`. -/
abbrev inColumn (input : SolveInput) (x z : ℕ) (ys : List ℕ) (p : BlockPos) : Prop :=
  input.bounds.dx p=x ∧ input.bounds.dz p=z ∧ input.bounds.dy p ∈ ys

lemma step_above : p.step (neighbours above) = ⟨p.x,p.y+1,p.z⟩ := by
  simp [BlockPos.step,neighbours,above]

/-- One column is marked from its top down. -/
lemma fillColumn_spec {start full : FullSolveScratch} {x z : ℕ}
    (h : input.Filled start done full) (hx : x < input.bounds.xLen) (hz : z < input.bounds.zLen)
    (hdone : ∀ p, done p → ¬(input.bounds.dx p=x ∧ input.bounds.dz p=z)) :
    input.Filled start (fun p=>done p ∨ input.bounds.dx p=x ∧ input.bounds.dz p=z)
      (fillColumn (Grid.new input.bounds) full (x,z)) := by
  have hspec := foldl_invariant (l := (List.range input.bounds.yLen).reverse)
    (z := (full.directAbove (x*input.bounds.zLen+z),full))
    (f := fillCell (Grid.new input.bounds) x z)
    (I := fun ys st=>input.Filled start (fun p=>done p ∨ input.inColumn x z ys p) st.2 ∧
      ∀ p, input.bounds.Contains p → input.bounds.dx p=x → input.bounds.dz p=z →
        (∀ k, k ∈ ys ↔ input.bounds.dy p<k ∧ k < input.bounds.yLen) →
        (st.1=true ↔ input.LitAbove st.2 p)) ⟨?_,?_⟩ ?_
  · refine hspec.1.congr fun p hp=>?_
    simp [inColumn,dy_lt (b := input.bounds) hp]
  · exact h.congr fun p _=>by simp [inColumn]
  · intro p hp hpx hpz hys
    have htop : p.y=input.bounds.max.y := by
      have hno := (hys (input.bounds.dy p+1)).not.1 not_mem_nil
      unfold dy yLen at *
      omega
    rw [LitAbove,if_pos htop,column,hpx,hpz]
  · rintro pre y post ⟨lit,full₁⟩ hl ⟨h₁,hlit⟩
    obtain ⟨hy,hpre⟩ := mem_reverse_range hl
    obtain ⟨p,hp,rfl,rfl,rfl⟩ : ∃ p, input.bounds.Contains p ∧ x=input.bounds.dx p ∧
        y=input.bounds.dy p ∧ z=input.bounds.dz p := by
      unfold xLen yLen zLen at *
      refine ⟨Grid.position input.bounds x y z,⟨?_,?_,?_,?_,?_,?_⟩,?_,?_,?_⟩ <;>
        simp only [Grid.position,dx,dy,dz] <;> omega
    have hnew : ¬(done p ∨ input.inColumn (input.bounds.dx p) (input.bounds.dz p) pre p) := by
      rintro (hd | ⟨-,-,hmem⟩)
      · exact hdone p hd ⟨rfl,rfl⟩
      · exact absurd ((hpre _).1 hmem).1 (Nat.lt_irrefl _)
    have hbelow : ∀ q, done q ∨ input.inColumn (input.bounds.dx p) (input.bounds.dz p) pre q →
        q.step (neighbours above) ≠ p := by
      rintro q (hd | ⟨-,-,hmem⟩) rfl
      · refine hdone q hd ?_
        rw [step_above]
        exact ⟨rfl,rfl⟩
      · have := ((hpre _).1 hmem).1
        rw [step_above] at this
        simp only [dy] at this
        omega
    have hstep := h₁.visit hp hnew hbelow (hlit p hp rfl rfl hpre)
    have hcell : (Grid.new input.bounds).index (input.bounds.dx p) (input.bounds.dy p)
        (input.bounds.dz p) = input.pad p := index_eq_pad hp
    simp only [fillCell,hcell]
    refine ⟨hstep.1.congr fun q hq=>?_,fun q hq hqx hqz hys=>?_⟩
    · constructor
      · rintro ((hd | ⟨h1,h2,h3⟩) | rfl)
        · exact .inl hd
        · exact .inr ⟨h1,h2,mem_append_left _ h3⟩
        · exact .inr ⟨rfl,rfl,by simp⟩
      · rintro (hd | ⟨h1,h2,h3⟩)
        · exact .inl (.inl hd)
        · rcases mem_append.1 h3 with h3 | h3
          · exact .inl (.inr ⟨h1,h2,h3⟩)
          · exact .inr (pos_ext (b := input.bounds) hq hp h1 (mem_singleton.1 h3) h2)
    · -- The next cell of the column lies right under the one just visited.
      have hlow := (hys (input.bounds.dy p)).1 (by simp)
      have hnext : input.bounds.dy q+1=input.bounds.dy p := by
        by_contra hne
        have hmem := (hys (input.bounds.dy q+1)).2 (by omega)
        rcases mem_append.1 hmem with hmem | hmem
        · have := ((hpre _).1 hmem).1
          omega
        · exact hne (mem_singleton.1 hmem)
      obtain ⟨p1,-,p3,p4,p5,-⟩ := hp
      unfold dx at hqx
      unfold dy at hnext
      unfold dz at hqz
      have hup : q.step (neighbours above) = p := by
        rw [step_above]
        cases p
        simp only [BlockPos.mk.injEq] at *
        omega
      rw [LitAbove,if_neg (by omega),hup]
      exact hstep.2

lemma fillDirectSky_spec (h : full.direct = fun _=>false) :
    input.Filled full input.bounds.Contains (fillDirectSky (Grid.new input.bounds) full) := by
  have hnodup : ((List.range input.bounds.xLen).flatMap fun x =>
      (List.range input.bounds.zLen).map fun z=>(x,z)).Nodup :=
    nodup_range.product nodup_range
  have hspec := foldl_invariant (l := (List.range input.bounds.xLen).flatMap fun x =>
      (List.range input.bounds.zLen).map fun z=>(x,z))
    (z := full) (f := fillColumn (Grid.new input.bounds))
    (I := fun seen=>input.Filled full fun p=>(input.bounds.dx p,input.bounds.dz p) ∈ seen)
    ⟨rfl,rfl,rfl,fun p _=>by simp [h],fun p _=>by simp [h]⟩ ?_
  · refine hspec.congr fun p hp=>?_
    simp only [mem_flatMap,mem_map,mem_range,Prod.mk.injEq]
    exact iff_of_true ⟨_,dx_lt hp,_,dz_lt hp,rfl,rfl⟩ hp
  · rintro pre ⟨x,z⟩ post full₁ hl h₁
    have hmem : (x,z) ∈ (List.range input.bounds.xLen).flatMap fun x =>
        (List.range input.bounds.zLen).map fun z=>(x,z) := by
      rw [hl]
      simp
    simp only [mem_flatMap,mem_map,mem_range,Prod.mk.injEq] at hmem
    obtain ⟨_,hx,_,hz,rfl,rfl⟩ := hmem
    rw [hl,nodup_append] at hnodup
    refine (fillColumn_spec h₁ hx hz ?_).congr fun p _=>by simp
    rintro p hp ⟨rfl,rfl⟩
    exact hnodup.2.2 _ hp _ (.head _) rfl

def gridField (input : SolveInput) (full : FullSolveScratch) (cell : LightCell) : ℕ :=
  if input.scene.Inside cell.1 then
    if cell.2 = .sky ∧ full.direct (input.pad cell.1) = true then directRank
    else full.values cell.2 (input.pad cell.1)
  else 0

lemma gridField_of_inside (hp : input.scene.Inside p) (c : LightChannel) : input.gridField full (p,c) =
      if c = .sky ∧ full.direct (input.pad p) = true then directRank
      else full.values c (input.pad p) := by
  simp only [gridField,hp,if_true]

/-- The grids before spreading: a sound field that holds every source, with direct sky complete. -/
structure GridInv (input : SolveInput) (full : FullSolveScratch) : Prop where
  filter : input.FilterRead full.filter
  le : ∀ p, input.scene.Inside p → ∀ c, full.values c (input.pad p) ≤ 15
  direct_inside : ∀ p, input.bounds.Contains p → full.direct (input.pad p) = true → input.scene.Inside p
  direct_level : ∀ p, input.scene.Inside p → full.direct (input.pad p) = true → full.sky (input.pad p) = 15
  sound : input.scene.system.Sound (input.gridField full)
  base_le : ∀ p, input.scene.Inside p → ∀ c, input.scene.baseRank p c ≤ input.gridField full (p,c)
  halo_le : ∀ p, input.scene.Inside p → ∀ c d, input.scene.haloRank p c d ≤ input.gridField full (p,c)
  down : ∀ p, input.scene.Inside p → ∀ d, input.scene.Inside (p.step (neighbours d)) →
    directRank ≤ input.scene.carried .sky (opposite d) (input.scene.filterAt (p.step (neighbours d)))
      (input.gridField full (p,.sky)) →
    full.direct (input.pad (p.step (neighbours d))) = true

/-- Where sky does not fall straight down, the seeded grids are complete as they stand. -/
lemma gridInv_of_no_fall (h : input.HaloInv full) (hr : ∀ p, input.scene.Inside p → ∀ c d, input.Reached p c d full)
    (hdown : input.profile.directSkyDown=false) : input.GridInv full := by
  have hclear : ∀ i, full.direct i=false := fun i=>by rw [h.direct]
  have hfield : ∀ p, input.scene.Inside p → ∀ c, input.gridField full (p,c) = full.values c (input.pad p) := by
    intro p hp c
    rw [gridField_of_inside hp,if_neg]
    simp [hclear]
  refine ⟨h.filter,h.le,fun p _ hd=>?_,fun p _ hd=>?_,?_,fun p hp c=>?_, fun p hp c d=>?_,fun p hp d hq hd=>?_⟩
  · rw [hclear] at hd
    cases hd
  · rw [hclear] at hd
    cases hd
  · rintro y hy ⟨p,c⟩
    by_cases hp : input.scene.Inside p
    · rw [hfield p hp]
      exact h.sound p hp c y hy
    · simp [gridField,hp]
  · rw [hfield p hp,Scene.baseRank,show input.scene.profile.directSkyDown=false from hdown, Bool.and_false,rank_false]
    exact h.base_le p hp c
  · rw [hfield p hp]
    refine (hr p hp c d).1 (Nat.lt_of_not_le fun h16=>?_)
    have hpos : 0 < input.scene.haloRank p c d := lt_of_lt_of_le (by unfold directRank; omega) h16
    obtain ⟨_,_,_,-,-,-,-,-,heq⟩ := Scene.haloRank_eq hpos
    obtain ⟨-,hfall,-⟩ := Scene.carried_eq_direct (heq ▸ h16)
    exact absurd (hdown.symm.trans hfall) (by decide)
  · obtain ⟨-,hfall,-⟩ := Scene.carried_eq_direct hd
    exact absurd (hdown.symm.trans hfall) (by decide)

lemma directRank_le_of_full {start : FullSolveScratch} (h : input.HaloInv start)
    (hp : input.scene.Inside p) (h15 : start.sky (input.pad p) = 15)
    (hdown : input.profile.directSkyDown=true) {y : LightCell → ℕ}
    (hy : input.scene.system.Closed y) : directRank≤y (p,.sky) := by
  refine le_trans ?_ ((Scene.le_source hp .sky).trans (hy.source_le (p,.sky)))
  rw [Scene.baseRank,h.full_sky p hp h15,show input.scene.profile.directSkyDown=true from hdown]
  exact le_rfl

section
variable {start full : FullSolveScratch} (h : input.HaloInv start)
  (hr : ∀ p, input.scene.Inside p → ∀ c d, input.Reached p c d start)
  (hf : input.Filled start input.bounds.Contains full)
include h hf

lemma Filled.read : input.FilterRead full.filter := by
  rw [hf.filter]
  exact h.filter

variable {p : BlockPos}

lemma direct_iff_filled (hp : input.bounds.Contains p) :
    full.direct (input.pad p) = true ↔ input.scene.Inside p ∧ input.scene.filterAt p=0 ∧
      (start.sky (input.pad p) = 15 ∨ input.LitAbove full p) := by
  rw [hf.direct p hp,Filled.read h hf p hp.around]
  split_ifs with hin
  · exact ⟨fun hd=>⟨hin,hd.2⟩,fun hd=>⟨hp,hd.2⟩⟩
  · simp [hin,blocked]

omit h in
lemma filled_values (hp : input.bounds.Contains p) (c : LightChannel) : full.values c (input.pad p) =
      if c = .sky ∧ full.direct (input.pad p) = true then 15
      else start.values c (input.pad p) := by
  cases c with
  | block => simp [FullSolveScratch.values,hf.block]
  | sky => simp [FullSolveScratch.values,hf.sky p hp]

lemma directRank_le_of_filled (hdown : input.profile.directSkyDown=true)
    {y : LightCell → ℕ} (hy : input.scene.system.Closed y) (n : ℕ)
    (hp : input.bounds.Contains p) (hn : (input.bounds.max.y-p.y).toNat=n)
    (hd : full.direct (input.pad p) = true) : directRank≤y (p,.sky) := by
  induction n generalizing p with
  | zero =>
    obtain ⟨hin,hfz,hlit⟩ := (direct_iff_filled h hf hp).1 hd
    have htop : p.y=input.bounds.max.y := by
      omega
    rcases hlit with h15 | hlit
    · exact directRank_le_of_full h hin h15 hdown hy
    · rw [LitAbove,if_pos htop,hf.directAbove] at hlit
      exact (h.above_sound p hin htop hlit).trans ((Scene.haloRank_le_source hin .sky above).trans (hy.source_le _))
  | succ n ih =>
    obtain ⟨hin,hfz,hlit⟩ := (direct_iff_filled h hf hp).1 hd
    have htop : p.y≠input.bounds.max.y := by omega
    rcases hlit with h15 | hlit
    · exact directRank_le_of_full h hin h15 hdown hy
    · rw [LitAbove,if_neg htop] at hlit
      have hq : input.bounds.Contains (p.step (neighbours above)) := by
        obtain ⟨h1,h2,h3,h4,h5,h6⟩ := hp
        rw [step_above]
        exact ⟨h1,h2,by simp only; omega,by simp only; omega,h5,h6⟩
      have hup := ih hq (by rw [step_above]; simp only; omega) hlit
      have hqin := ((direct_iff_filled h hf hq).1 hlit).1
      refine le_trans ?_ ((Scene.le_flow hin hqin _).trans (hy.flow_le _ _))
      exact (Scene.carried_of_direct ⟨rfl,hdown,rfl,hup,hfz⟩).ge

include hr in
lemma gridInv_of_filled (hdown : input.profile.directSkyDown=true) : input.GridInv full := by
  have hvalues : ∀ p, input.scene.Inside p → ∀ c, start.values c (input.pad p) ≤ full.values c (input.pad p) := by
    intro p hp c
    rw [filled_values hf hp.1]
    split_ifs
    · exact h.le p hp c
    · exact le_rfl
  have hle : ∀ p, input.scene.Inside p → ∀ c, full.values c (input.pad p) ≤ 15 := by
    intro p hp c
    rw [filled_values hf hp.1]
    split_ifs
    · exact le_rfl
    · exact h.le p hp c
  have hfield : ∀ p, input.scene.Inside p → ∀ c, start.values c (input.pad p) ≤ input.gridField full (p,c) := by
    intro p hp c
    rw [gridField_of_inside hp]
    split_ifs
    · exact (h.le p hp c).trans (by unfold directRank; omega)
    · exact hvalues p hp c
  have hdirect : ∀ p, input.scene.Inside p → input.scene.filterAt p=0 →
      start.sky (input.pad p) = 15 ∨ input.LitAbove full p →
      full.direct (input.pad p) = true :=
    fun p hp hfz hlit=>(direct_iff_filled h hf hp.1).2 ⟨hp,hfz,hlit⟩
  have hfull : ∀ p, input.scene.Inside p → full.direct (input.pad p) = true →
      input.gridField full (p,.sky) = directRank := by
    intro p hp hd
    rw [gridField_of_inside hp,if_pos ⟨rfl,hd⟩]
  refine ⟨Filled.read h hf,hle,fun p hp hd=>((direct_iff_filled h hf hp).1 hd).1,
    fun p hp hd=>?_,?_,fun p hp c=>?_,fun p hp c d=>?_,fun p hp d hq hd=>?_⟩
  · rw [hf.sky p hp.1,if_pos hd]
  · rintro y hy ⟨p,c⟩
    by_cases hp : input.scene.Inside p
    · rw [gridField_of_inside hp]
      split_ifs with hd
      · rw [hd.1]
        exact directRank_le_of_filled h hf hdown hy _ hp.1 rfl hd.2
      · rw [filled_values hf hp.1,if_neg hd]
        exact h.sound p hp c y hy
    · simp [gridField,hp]
  · rw [Scene.baseRank,rank]
    split_ifs with hb
    · simp only [Bool.and_eq_true,beq_iff_eq,decide_eq_true_eq] at hb
      obtain ⟨⟨rfl,-⟩,h15⟩ := hb
      have hs : start.sky (input.pad p) = 15 := by
        have h1 := h.base_le p hp .sky
        have h2 := h.le p hp .sky
        simp only [FullSolveScratch.values] at h1 h2
        omega
      rw [hfull p hp (hdirect p hp (Scene.filterAt_of_base seed_le_scene hp.1 h15) (.inl hs))]
    · exact (h.base_le p hp c).trans (hfield p hp c)
  · rcases Nat.lt_or_ge (input.scene.haloRank p c d) directRank with hlt | h16
    · exact ((hr p hp c d).1 hlt).trans (hfield p hp c)
    · have hpos : 0 < input.scene.haloRank p c d := lt_of_lt_of_le (by unfold directRank; omega) h16
      obtain ⟨q,_,_,hq,hout,-,-,-,heq⟩ := Scene.haloRank_eq hpos
      obtain ⟨rfl,-,rfl,-,hfz⟩ := Scene.carried_eq_direct (heq ▸ h16)
      have htop : p.y=input.bounds.max.y := by
        obtain ⟨rfl,-⟩ := BlockPos.checkedOffset_eq_some.1 hq
        obtain ⟨h1,h2,h3,h4,h5,h6⟩ := hp.1
        rw [step_above] at hout
        simp only [scene_bounds,Contains] at h1 h2 h3 h4 h5 h6 hout
        omega
      have hlit : input.LitAbove full p := by
        rw [LitAbove,if_pos htop,hf.directAbove]
        exact (hr p hp .sky above).2 h16
      rw [hfull p hp (hdirect p hp hfz (.inr hlit)),heq]
      exact Scene.carried_le _ _ _ _
  · obtain ⟨-,-,hup,h16,hfz⟩ := Scene.carried_eq_direct hd
    have hback : (p.step (neighbours d)).step (neighbours above) = p := by
      rw [← hup,step_opposite]
    have hdp : full.direct (input.pad p) = true := by
      rw [gridField_of_inside hp] at h16
      split_ifs at h16 with hc
      · exact hc.2
      · have := hle p hp .sky
        unfold directRank at h16
        omega
    refine hdirect _ hq hfz (.inr ?_)
    have htop : (p.step (neighbours d)).y≠input.bounds.max.y := by
      have hy := congrArg BlockPos.y hback
      simp only [step_above] at hy
      obtain ⟨-,-,-,h4,-⟩ := hp.1
      simp only [scene_bounds] at h4
      omega
    rw [LitAbove,if_neg htop,hback]
    exact hdp

end

end SolveInput

end Cinnabar.Light
