import Cinnabar.Light.Input

/-! # Darkening -/

namespace Cinnabar.Light

open LightBounds List

namespace SolveInput

variable {input : SolveInput} {E : Halt → Prop}

/-- The level a dense output holds for a cell. -/
def held (input : SolveInput) (o : MutableOutput) (p : BlockPos) (c : LightChannel) : ℕ :=
  o.getAtIndex (input.idx p) c

structure Loaded (input : SolveInput) (o : MutableOutput) : Prop where
  shape : o.Over input.bounds
  known : ∀ p, input.bounds.Contains p → (o.known (input.idx p) = true ↔ (input.source.sample p).filter≠none)
  le : ∀ i c, o.getAtIndex i c≤15

lemma held_set {o : MutableOutput} {p q : BlockPos} (hp : input.bounds.Contains p)
    (hq : input.bounds.Contains q) (c c' : LightChannel) (v : ℕ) :
    input.held (o.setAtIndex (input.idx p) c v) q c' =
      if q=p ∧ c'=c then v else input.held o q c' := by
  simp only [held,MutableOutput.getAtIndex_setAtIndex]
  have hidx : input.idx q=input.idx p ↔ q=p := ⟨denseIndex_inj hq hp,fun h=>by rw [h]⟩
  simp only [hidx]

variable {p : BlockPos} {st : Darkening} {limits : SolverLimits}
    {candidates : List (BlockPos × ℕ)}

lemma Loaded.set {o : MutableOutput} (h : input.Loaded o)
    (hp : input.scene.Inside p) (c : LightChannel) {v : ℕ} (hv : v≤15) :
    input.Loaded (o.setAtIndex (input.idx p) c v) where
  shape := h.shape.setAtIndex _ _ _
  known q hq := by
    rw [MutableOutput.known_setAtIndex,Bool.or_eq_true,decide_eq_true_iff,h.known q hq]
    constructor
    · rintro (he | hk)
      · rw [denseIndex_inj hq hp.1 he]
        exact hp.2
      · exact hk
    · exact .inr
  le i c' := by
    rw [MutableOutput.getAtIndex_setAtIndex]
    split_ifs
    · exact hv
    · exact h.le i c'

lemma loadPrior_ensures (generation : ℕ) : Ensures E (fun o=>input.Loaded o ∧
      ∀ p, input.scene.Inside p → ∀ c, input.held o p c=input.level p c)
    (loadPrior input.blocks input.prior input.bounds (.new input.bounds generation)) := by
  refine (ensures_forEach (I := fun n o=>o.Over input.bounds ∧ (∀ i c, o.getAtIndex i c≤15) ∧
    ∀ p, input.bounds.Contains p →
      (o.known (input.idx p) = true ↔ input.idx p<n ∧ (input.source.sample p).filter≠none) ∧
      (input.idx p<n → (input.source.sample p).filter≠none → ∀ c, input.held o p c=input.level p c))
    ⟨MutableOutput.over_new _ _,fun _ _=>Nat.zero_le _,fun p _=>⟨?_,?_⟩⟩ ?_).mono ?_
  · simp [MutableOutput.new]
  · intro h
    exact absurd h (Nat.not_lt_zero _)
  · rintro p hp o ⟨hover,hle,hcells⟩
    simp only [sampleAtIndex_idx hp]
    split_ifs with hf
    · have hnone : (input.source.sample p).filter=none := Option.isNone_iff_eq_none.1 hf
      refine ⟨hover,hle,fun q hq=>?_⟩
      rw [visited_succ hp hq]
      by_cases hqp : q=p
      · subst hqp
        simp [hnone,(hcells q hq).1]
      · simpa [hqp] using hcells q hq
    · have hsome : (input.source.sample p).filter≠none := by
        simpa [Option.isNone_iff_eq_none] using hf
      simp only [channels,foldlM_cons,foldlM_nil,readPrior_eq hp,except_ok_bind, except_pure_bind,Ensures.pure_iff]
      refine ⟨(hover.setAtIndex _ _ _).setAtIndex _ _ _,fun i c=>?_,fun q hq=>?_⟩
      · simp only [MutableOutput.getAtIndex_setAtIndex]
        split_ifs
        · exact level_le hp _
        · exact level_le hp _
        · exact hle i c
      · rw [visited_succ hp hq]
        by_cases hqp : q=p
        · subst hqp
          refine ⟨by simp [hsome],fun _ _ c=>?_⟩
          rw [held_set hp hp,held_set hp hp]
          cases c <;> simp
        · have hidx : input.idx q≠input.idx p := fun h=>hqp (denseIndex_inj hq hp h)
          refine ⟨?_,fun hv hk c=>?_⟩
          · simpa [hqp,hidx] using (hcells q hq).1
          · rw [held_set hp hq,held_set hp hq]
            simpa [hqp] using (hcells q hq).2 (by simpa [hqp] using hv) hk c
  · rintro o ⟨hover,hle,hcells⟩
    refine ⟨⟨hover,fun p hp=>?_,hle⟩,fun p hp c=>?_⟩
    · simpa [denseIndex_lt hp] using (hcells p hp).1
    · exact (hcells p hp.1).2 (denseIndex_lt hp.1) hp.2 c

/-- A level held next to a removed one may have depended on it. -/
def Depended (input : SolveInput) (p : BlockPos) (c : LightChannel) (d : Fin 6) (current : ℕ) :
    Prop :=
  current < input.level p c ∨ c = .sky ∧ input.profile.directSkyDown=true ∧
    input.direct p c=true ∧ neighbours d = (0,-1,0) ∧ current=15 ∧ input.level p c=15

/-- The invariant of darkening. `todo` names the neighbours a cell being visited has still to
look at. -/
structure DarkenInv (input : SolveInput) (todo : BlockPos → LightChannel → Fin 6 → Prop)
    (st : Darkening) : Prop where
  loaded : input.Loaded st.output
  cell : ∀ p, input.scene.Inside p → ∀ c, input.held st.output p c=input.level p c ∨
    input.held st.output p c=input.scene.base p c ∧ input.scene.base p c < input.level p c ∧
      (p,input.idx p) ∈ st.darkened
  entry : ∀ e ∈ st.darken, input.scene.Inside e.position ∧ e.oldLevel=input.level e.position e.channel ∧
    e.directSky=input.direct e.position e.channel
  darkened : ∀ e ∈ st.darkened, input.scene.Inside e.1 ∧ e.2=input.idx e.1
  frontier : ∀ p, input.scene.Inside p → ∀ c, input.held st.output p c≠input.level p c →
    ∀ d, input.scene.Inside (p.step (neighbours d)) → (∃ e ∈ st.darken, e.position=p ∧ e.channel=c) ∨ todo p c d ∨
      ¬(input.scene.base (p.step (neighbours d)) c < input.held st.output (p.step (neighbours d)) c ∧
        input.Depended p c d (input.held st.output (p.step (neighbours d)) c))

/-- Every kept cell among the candidates has support in the prior field. -/
def Seeded (input : SolveInput) (candidates : List (BlockPos × ℕ)) (st : Darkening) : Prop :=
  ∀ e ∈ candidates, input.scene.Inside e.1 → ∀ c, input.held st.output e.1 c=input.level e.1 c →
    input.level e.1 c=0 ∨ input.Supported e.1 c (input.level e.1 c)

def region (input : SolveInput) : Finset LightCell :=
  input.bounds.positions.toFinset ×ˢ {.block, .sky}

variable {c : LightChannel}

lemma mem_region : (p,c) ∈ input.region ↔ input.bounds.Contains p := by
  cases c <;> simp [region,mem_positions]

lemma card_region : input.region.card≤2*input.bounds.cells := by
  have h := toFinset_card_le input.bounds.positions
  rw [positions_length] at h
  have h2 : ({LightChannel.block, LightChannel.sky} : Finset LightChannel).card=2 := by decide
  rw [region,Finset.card_product,h2]
  omega

def excess (input : SolveInput) (o : MutableOutput) : ℕ :=
  ∑ cell ∈ input.region, if input.scene.base cell.1 cell.2 < input.held o cell.1 cell.2 then 1 else 0

lemma excess_le (o : MutableOutput) : input.excess o≤2*input.bounds.cells := by
  refine (Finset.sum_le_card_nsmul _ _ 1 fun cell _=>?_).trans (by simpa using card_region)
  split_ifs <;> omega

/-- Pops that remain at most. -/
def darkenWork (input : SolveInput) (st : Darkening) : ℕ :=
  st.darken.length+input.excess st.output

variable {todo : BlockPos → LightChannel → Fin 6 → Prop}

lemma DarkenInv.stats {st : Darkening} (h : input.DarkenInv todo st) (stats : LightSolveStats) :
    input.DarkenInv todo { st with stats := stats } :=
  ⟨h.loaded,h.cell,h.entry,h.darkened,h.frontier⟩

/-- A cell is only dropped from its prior level. -/
lemma DarkenInv.level_of_lt (h : input.DarkenInv todo st) (hp : input.scene.Inside p)
    (hlt : input.scene.base p c < input.held st.output p c) :
    input.held st.output p c=input.level p c := by
  rcases h.cell p hp c with he | ⟨he,-⟩
  · exact he
  · omega

structure Dropped (input : SolveInput) (p : BlockPos) (c : LightChannel) (st st' : Darkening) :
    Prop where
  held : ∀ q, input.scene.Inside q → ∀ c', input.held st'.output q c' =
    if q=p ∧ c'=c then input.scene.base p c else input.held st.output q c'
  work : input.darkenWork st' ≤ input.darkenWork st

lemma Dropped.seeded {st st' : Darkening} (h : input.Dropped p c st st')
    (hlt : input.scene.base p c < input.level p c) (hs : input.Seeded candidates st) :
    input.Seeded candidates st' := by
  intro e he hin c' hl
  rw [h.held e.1 hin] at hl
  split_ifs at hl with hep
  · rw [hep.1,hep.2] at hl
    omega
  · exact hs e he hin c' hl

lemma drop_ensures (h : input.DarkenInv todo st) (hp : input.scene.Inside p)
    (hlt : input.scene.base p c < input.held st.output p c) :
    Ensures (Halt.Exceeds limits) (fun st'=>input.DarkenInv todo st' ∧ input.Dropped p c st st')
      (st.drop input.prior limits p (input.idx p) c (input.scene.base p c)
        (input.held st.output p c)) := by
  have hlevel := h.level_of_lt hp hlt
  refine Ensures.bind (enqueueCounted_ensures 1) fun total _=>?_
  have hheld : ∀ q, input.scene.Inside q → ∀ c', input.held
      (st.output.setAtIndex (input.idx p) c (input.scene.base p c)) q c' =
      if q=p ∧ c'=c then input.scene.base p c else input.held st.output q c' :=
    fun q hq c'=>held_set hp.1 hq.1 c c' _
  refine ⟨⟨h.loaded.set hp c (base_le hp c),fun q hq c'=>?_,fun e he=>?_,fun e he=>?_,
    fun q hq c' hne d hd=>?_⟩,hheld,?_⟩
  · rw [hheld q hq]
    split_ifs with hqp
    · rw [hqp.1,hqp.2]
      exact .inr ⟨rfl,hlevel ▸ hlt,by simp⟩
    · rcases h.cell q hq c' with hc | ⟨hc,hb,hm⟩
      · exact .inl hc
      · exact .inr ⟨hc,hb,mem_append_left _ hm⟩
  · rcases mem_append.1 he with he | he
    · exact h.entry e he
    · rw [mem_singleton.1 he]
      exact ⟨hp,hlevel,rfl⟩
  · rcases mem_append.1 he with he | he
    · exact h.darkened e he
    · rw [mem_singleton.1 he]
      exact ⟨hp,rfl⟩
  · rw [hheld q hq] at hne
    rw [hheld _ hd]
    by_cases hqp : q=p ∧ c'=c
    · exact .inl ⟨_,mem_append_right _ (mem_singleton_self _),hqp.1.symm,hqp.2.symm⟩
    · rw [if_neg hqp] at hne
      rcases h.frontier q hq c' hne d hd with ⟨e,he,hpos⟩ | ht | hdone
      · exact .inl ⟨e,mem_append_left _ he,hpos⟩
      · exact .inr (.inl ht)
      · refine .inr (.inr ?_)
        split_ifs with hnp
        · rw [hnp.1,hnp.2]
          exact fun hb=>Nat.lt_irrefl _ hb.1
        · exact hdone
  · simp only [darkenWork,length_append,length_singleton]
    have hfall : input.excess (st.output.setAtIndex (input.idx p) c (input.scene.base p c))+1 ≤
        input.excess st.output := by
      refine potential_le (a := (p,c)) (mem_region.2 hp.1) (fun cell hcell hne=>?_) ?_
      · have hcell' : ¬(cell.1=p ∧ cell.2=c) := fun he=>hne (Prod.ext he.1 he.2)
        rw [held_set hp.1 (mem_region.1 hcell),if_neg hcell']
      · rw [held_set hp.1 hp.1]
        simp [hlt]
    omega

lemma seedDarkenCell_ensures (h : input.DarkenInv (fun _ _ _=>False) st) (hp : input.scene.Inside p)
    (c : LightChannel) {done : List (BlockPos × ℕ)} (hs : input.Seeded done st) :
    Ensures (Halt.Exceeds limits) (fun st'=>input.DarkenInv (fun _ _ _=>False) st' ∧ input.Seeded done st' ∧
        (∀ c', input.held st'.output p c'=input.level p c' → input.held st.output p c'=input.level p c') ∧
        (input.held st'.output p c=input.level p c → input.level p c=0 ∨ input.Supported p c (input.level p c)))
      (seedDarkenCell input.blocks input.prior input.profile limits st p (input.idx p) c) := by
  rw [seedDarkenCell,localBase_eq hp,except_ok_bind]
  obtain ⟨r,hr,hiff⟩ := priorSupportsLevel_spec hp c (input.held st.output p c)
  split_ifs with hzero
  · exact ⟨h,hs,fun _ hl=>hl,fun hl=>.inl (hl ▸ hzero)⟩
  · rw [show st.output.getAtIndex (input.idx p) c=input.held st.output p c from rfl,hr, except_ok_bind]
    cases r with
    | true => exact ⟨h,hs,fun _ hl=>hl,fun hl=>.inr (hl ▸ hiff.1 rfl)⟩
    | false =>
      have hlt : input.scene.base p c < input.held st.output p c := by
        refine Nat.lt_of_not_le fun hle=>?_
        exact Bool.false_ne_true (hiff.2 (.inl hle))
      have hlevel := h.level_of_lt hp hlt
      refine Ensures.bind (drop_ensures h hp hlt) fun st' hst'=>?_
      obtain ⟨hinv,hdrop⟩ := hst'
      refine ⟨hinv.stats _,hdrop.seeded (hlevel ▸ hlt) hs,fun c' hl=>?_,fun hl=>?_⟩
      · rw [hdrop.held p hp] at hl
        split_ifs at hl with hc
        · rw [hc.2,hlevel]
        · exact hl
      · rw [hdrop.held p hp,if_pos ⟨rfl,rfl⟩] at hl
        omega

lemma seedDarken_ensures (hc : ∀ e ∈ candidates, input.bounds.Contains e.1 ∧ e.2=input.idx e.1)
    (h : input.DarkenInv (fun _ _ _=>False) st) :
    Ensures (Halt.Exceeds limits) (fun st'=>input.DarkenInv (fun _ _ _=>False) st' ∧ input.Seeded candidates st')
      (seedDarken input.blocks input.prior input.profile limits candidates st) := by
  refine Ensures.bind (Ensures.foldlM (I := fun pre st=>input.DarkenInv (fun _ _ _=>False) st ∧ input.Seeded pre st)
    ⟨h,fun e he=>absurd he not_mem_nil⟩ ?_) fun st' hst'=>⟨hst'.1.stats _,hst'.2⟩
  rintro pre ⟨p,i⟩ post st hl ⟨hinv,hs⟩
  obtain ⟨hp,hi⟩ := hc (p,i) (by rw [hl]; simp)
  simp only at hp hi
  subst hi
  have hextend : ∀ st, input.Seeded pre st → (input.scene.Inside p → ∀ c, input.held st.output p c=input.level p c →
      input.level p c=0 ∨ input.Supported p c (input.level p c)) →
      input.Seeded (pre ++ [(p,input.idx p)]) st := by
    intro st hpre hcell e he hin
    rcases mem_append.1 he with he | he
    · exact hpre e he hin
    · rw [mem_singleton.1 he] at hin ⊢
      exact hcell hin
  simp only [sampleAtIndex_idx hp]
  split_ifs with hf
  · refine ⟨hinv,hextend st hs fun hin=>?_⟩
    exact absurd (Option.isNone_iff_eq_none.1 hf) hin.2
  · have hin : input.scene.Inside p := ⟨hp,fun hnone=>hf (Option.isNone_iff_eq_none.2 hnone)⟩
    refine Ensures.bind (seedDarkenCell_ensures hinv hin .block hs) fun st₁ h₁=>?_
    obtain ⟨hinv₁,hs₁,-,hblock⟩ := h₁
    refine Ensures.bind (seedDarkenCell_ensures hinv₁ hin .sky hs₁) fun st₂ h₂=>?_
    obtain ⟨hinv₂,hs₂,hkept,hsky⟩ := h₂
    refine ⟨hinv₂,hextend st₂ hs₂ fun _ c hl=>?_⟩
    cases c with
    | block => exact hblock (hkept .block hl)
    | sky => exact hsky hl

lemma darkenNeighbour_ensures {e : DarkenEntry} {pre : List (Fin 6)} {d : Fin 6} (hin : input.scene.Inside e.position)
    (hold : e.oldLevel=input.level e.position e.channel)
    (hdirect : e.directSky=input.direct e.position e.channel)
    (h : input.DarkenInv (fun p c d=>p=e.position ∧ c=e.channel ∧ d ∉ pre) st)
    (hs : input.Seeded candidates st) :
    Ensures (Halt.Exceeds limits) (fun st'=>input.DarkenInv
          (fun p c d'=>p=e.position ∧ c=e.channel ∧ d' ∉ pre ++ [d]) st' ∧
        input.Seeded candidates st' ∧ input.darkenWork st' ≤ input.darkenWork st)
      (darkenNeighbour input.blocks input.prior input.profile limits e (input.idx e.position) st
        d) := by
  -- Once the neighbour in direction `d` needs nothing more, it leaves the obligations.
  have hshrink : ∀ st', input.DarkenInv (fun p c d'=>p=e.position ∧ c=e.channel ∧ d' ∉ pre) st' →
      (input.scene.Inside (e.position.step (neighbours d)) →
        ¬(input.scene.base (e.position.step (neighbours d)) e.channel <
            input.held st'.output (e.position.step (neighbours d)) e.channel ∧
          input.Depended e.position e.channel d (input.held st'.output (e.position.step (neighbours d)) e.channel))) →
      input.DarkenInv (fun p c d'=>p=e.position ∧ c=e.channel ∧ d' ∉ pre ++ [d]) st' := by
    intro st' hst' hdone
    refine ⟨hst'.loaded,hst'.cell,hst'.entry,hst'.darkened,fun p hp c hne d' hd'=>?_⟩
    rcases hst'.frontier p hp c hne d' hd' with hq | ⟨rfl,rfl,hd⟩ | hdone'
    · exact .inl hq
    · by_cases hdd : d'=d
      · subst hdd
        exact .inr (.inr (hdone hd'))
      · exact .inr (.inl ⟨rfl,rfl,by simp [hd,hdd]⟩)
    · exact .inr (.inr hdone')
  rw [darkenNeighbour]
  by_cases hn : input.bounds.Contains (e.position.step (neighbours d))
  · rw [MutableOutput.neighbour_of_contains h.loaded.shape hin.1 hn]
    simp only [sampleAtIndex_idx hn]
    split_ifs with hf
    · have hnot : ¬input.scene.Inside (e.position.step (neighbours d)) := fun hi =>
        hi.2 (Option.isNone_iff_eq_none.1 hf)
      exact ⟨hshrink st h fun hi=>absurd hi hnot,hs,le_rfl⟩
    · have hni : input.scene.Inside (e.position.step (neighbours d)) :=
        ⟨hn,fun hnone=>hf (Option.isNone_iff_eq_none.2 hnone)⟩
      rw [localBase_eq hni,except_ok_bind,hold,hdirect]
      split_ifs with hdrop
      · have hlevel := h.level_of_lt hni hdrop.1
        refine Ensures.bind (drop_ensures h hni hdrop.1) fun st' hst'=>?_
        obtain ⟨hinv,hd⟩ := hst'
        refine ⟨(hshrink st' hinv fun _=>?_).stats _,hd.seeded (hlevel ▸ hdrop.1) hs,hd.work⟩
        rw [hd.held _ hni,if_pos ⟨rfl,rfl⟩]
        exact fun hb=>Nat.lt_irrefl _ hb.1
      · exact ⟨hshrink st h fun _=>hdrop,hs,le_rfl⟩
  · rw [MutableOutput.neighbour_of_not_contains h.loaded.shape hin.1 hn]
    exact ⟨hshrink st h fun hi=>absurd hi.1 hn,hs,le_rfl⟩

/-- Darkening ends with no kept cell leaning on a dropped one. -/
lemma darkenLoop_ensures (h : input.DarkenInv (fun _ _ _=>False) st) (hs : input.Seeded candidates st) :
    Ensures (Halt.Exceeds limits)
      (fun st'=>input.DarkenInv (fun _ _ _=>False) st' ∧ input.Seeded candidates st' ∧ st'.darken = [])
      (darkenLoop input.blocks input.prior input.bounds input.profile limits st) := by
  refine (drain_ensures (I := fun st=>input.DarkenInv (fun _ _ _=>False) st ∧ input.Seeded candidates st)
    input.darkenWork ?_ ?_ ⟨h,hs⟩ ?_).mono ?_
  · rintro st next - hpop
    rw [Darkening.pop] at hpop
    split at hpop
    · cases hpop
    · rename_i heq
      simp [darkenWork,heq]
  · rintro st e rest ⟨hinv,hseed⟩ hpop
    rw [Darkening.pop] at hpop
    split at hpop
    · cases hpop
    rename_i entry tail heq
    cases hpop
    obtain ⟨hin,hold,hdirect⟩ := hinv.entry e (by rw [heq]; simp)
    have hwork : input.darkenWork { st with darken := tail } + 1=input.darkenWork st := by
      simp only [darkenWork,heq,length_cons]
      omega
    have hinv' : input.DarkenInv (fun p c d=>p=e.position ∧ c=e.channel ∧ d ∉ ([] : List _))
        { st with darken := tail } := by
      refine ⟨hinv.loaded,hinv.cell,fun e' he'=>hinv.entry e' (by rw [heq]; simp [he']),
        hinv.darkened,fun p hp c hne d hd=>?_⟩
      rcases hinv.frontier p hp c hne d hd with ⟨e',he',hpos,hch⟩ | hf | hdone
      · rw [heq] at he'
        rcases mem_cons.1 he' with rfl | he'
        · exact .inr (.inl ⟨hpos.symm,hch.symm,not_mem_nil⟩)
        · exact .inl ⟨e',he',hpos,hch⟩
      · exact hf.elim
      · exact .inr (.inr hdone)
    rw [darkenEntry]
    simp only [MutableOutput.index_eq hinv.loaded.shape input.cells_le hin.1]
    refine (Ensures.foldlM (I := fun pre st'=>input.DarkenInv (fun p c d=>p=e.position ∧ c=e.channel ∧ d ∉ pre) st' ∧
      input.Seeded candidates st' ∧
      input.darkenWork st' ≤ input.darkenWork { st with darken := tail })
      ⟨hinv'.stats { st.stats with darkenDequeued := st.stats.darkenDequeued+1 },hseed,le_rfl⟩
      fun pre d post st' _ hst'=>?_).mono fun st' hst'=>?_
    · obtain ⟨h₁,h₂,h₃⟩ := hst'
      refine (darkenNeighbour_ensures hin hold hdirect h₁ h₂).mono fun st'' h''=>?_
      exact ⟨h''.1,h''.2.1,h''.2.2.trans h₃⟩
    · obtain ⟨h₁,h₂,h₃⟩ := hst'
      refine ⟨⟨⟨h₁.loaded,h₁.cell,h₁.entry,h₁.darkened,fun p hp c hne d hd=>?_⟩,h₂⟩, by omega⟩
      rcases h₁.frontier p hp c hne d hd with hq | ⟨-,-,hd⟩ | hdone
      · exact .inl hq
      · exact absurd (mem_finRange d) hd
      · exact .inr (.inr hdone)
  · have := input.excess_le st.output
    simp only [darkenWork]
    omega
  · rintro st' ⟨⟨hinv,hseed⟩,hpop⟩
    refine ⟨hinv,hseed,?_⟩
    rw [Darkening.pop] at hpop
    split at hpop
    · assumption
    · cases hpop

end SolveInput

end Cinnabar.Light
