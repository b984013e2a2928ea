import Cinnabar.Light.Requeue

/-! # The incremental solve is exact -/

namespace Cinnabar.Light

open LightBounds Relaxation List

/-- The result shows the levels and the direct-sky bits of a field of ranks. -/
def Shows (bounds : LightBounds) (out : LightSolveOutput) (x : LightCell → ℕ) : Prop :=
  ∀ p, bounds.Contains p → (∀ c, out.lightAt p c=min (x (p,c)) 15) ∧
    out.hasDirectSkyProvenance bounds.dimension p=decide (x (p,.sky) = directRank)

def Exact (scene : Scene) (out : LightSolveOutput) : Prop :=
  ∃ x, scene.system.IsSolution x ∧ Shows scene.bounds out x

namespace SolveInput

variable {input : SolveInput} {o : MutableOutput}

lemma held_le_field (hload : input.Loaded o) (direct : DensePositionSet)
    {p : BlockPos} (hp : input.scene.Inside p) (c : LightChannel) :
    input.held o p c ≤ input.field o direct (p,c) := by
  have : input.held o p c≤15 := hload.le _ _
  rw [field_of_inside hp]
  split_ifs
  · unfold directRank
    omega
  · exact le_rfl

section
variable {o : MutableOutput} {spreading : ℕ → Bool} {st : Queueing}
  (hload : input.Loaded o) (hq : input.Queued o spreading input.bounds.cells st)
  (hbase : ∀ p, input.scene.Inside p → ∀ c, input.scene.base p c ≤ input.held o p c)
  (hkept : ∀ p, input.scene.Inside p → ∀ c, input.held o p c ≤ input.scene.base p c ∨
    input.held o p c=input.level p c ∧ ∀ y, input.scene.system.Closed y → input.priorRank (p,c) ≤ y (p,c))
include hq

lemma direct_iff {p : BlockPos} (hp : input.scene.Inside p) :
    st.directSky.containsAtIndex (input.idx p) = true ↔ input.RetainedDirect o p := by
  rw [hq.direct p hp.1]
  simp [hp,denseIndex_lt (b := input.bounds) hp.1]

include hload

include hkept in
lemma sound_of_kept : input.scene.system.Sound (input.field o st.directSky) := by
  rintro y hy ⟨p,c⟩
  by_cases hp : input.scene.Inside p
  · simp only [field_of_inside hp,direct_iff hq hp]
    rcases hkept p hp c with hle | ⟨hlevel,hsound⟩
    · refine le_trans ?_ ((Scene.le_source hp c).trans (hy.source_le (p,c)))
      rw [Scene.baseRank,rank]
      split_ifs with hd hb hb
      · exact le_rfl
      · obtain ⟨rfl,⟨hdown,h15,-⟩,-⟩ := hd
        have hb15 := base_le hp .sky
        simp only [Bool.and_eq_true,beq_iff_eq,decide_eq_true_eq,true_and] at hb
        exact absurd ⟨hdown,by omega⟩ hb
      · have : input.held o p c≤15 := hload.le _ _
        unfold directRank
        omega
      · exact hle
    · refine le_trans ?_ (hsound y hy)
      rw [priorRank,rank]
      split_ifs with hd hb hb
      · exact le_rfl
      · obtain ⟨rfl,⟨hdown,h15,-⟩,-⟩ := hd
        simp only [Bool.and_eq_true,beq_iff_eq,decide_eq_true_eq,true_and] at hb
        exact absurd ⟨hdown,hlevel ▸ h15⟩ hb
      · have : input.held o p c≤15 := hload.le _ _
        unfold directRank
        omega
      · exact hlevel.le
  · simp [field,hp]

include hbase in
lemma baseRank_le_field {p : BlockPos} (hp : input.scene.Inside p) (c : LightChannel) :
    input.scene.baseRank p c ≤ input.field o st.directSky (p,c) := by
  have hle : input.held o p c≤15 := hload.le _ _
  rw [Scene.baseRank,rank]
  split_ifs with hb
  · simp only [Bool.and_eq_true,beq_iff_eq,decide_eq_true_eq] at hb
    obtain ⟨⟨rfl,hdown⟩,hb15⟩ := hb
    have h15 : input.held o p .sky=15 := by
      have := hbase p hp .sky
      omega
    have hr : input.RetainedDirect o p := ⟨⟨hdown,h15,Scene.filterAt_of_base seed_le_scene hp.1 hb15⟩,.inl hb15⟩
    simp only [field_of_inside hp,direct_iff hq hp,hr,and_self,if_true,le_refl]
  · exact (hbase p hp c).trans (held_le_field hload _ hp c)

include hbase hkept in
lemma fieldInv_queued : input.FieldInv o st.directSky where
  loaded := hload
  shape := hq.shape
  direct_inside _ hp hd := ((hq.direct _ hp).1 hd).2.1
  direct_level _ hp hd := ((direct_iff hq hp).1 hd).1.2.1
  sound := sound_of_kept hload hq hkept
  base_le _ hp c := baseRank_le_field hload hq hbase hp c

include hbase hkept in
lemma queueInv_queued (hsettled : ∀ p, input.scene.Inside p → ∀ c, ¬input.Spreads o spreading p c → ∀ d,
      input.scene.Inside (p.step (neighbours d)) →
      input.scene.carried c (opposite d) (input.scene.filterAt (p.step (neighbours d)))
        (input.field o st.directSky (p,c)) ≤
        input.field o st.directSky (p.step (neighbours d),c)) (c : LightChannel) :
    input.QueueInv c (input.field o st.directSky) (fun _ _=>False) (st.queue c) where
  size := hq.size c
  entries := hq.entries c
  flag p hp hpend := by
    have hf := fieldInv_queued hload hq hbase hkept
    rw [hq.flag c p hp hpend,decide_eq_decide,hf.field_eq_direct hp,direct_iff hq hp]
    tauto
  settled p hp := by
    by_cases hs : input.Spreads o spreading p c
    · exact .inl ((hq.pending c p hp.1).2 ⟨denseIndex_lt (b := input.bounds) hp.1,hp,hs⟩)
    · exact .inr fun d hd=>.inr (hsettled p hp c hs d hd)

end

variable {c : LightChannel} {x x' : LightCell → ℕ}

lemma QueueInv.congr {todo : BlockPos → Fin 6 → Prop}
    {q : IncreaseQueue} (h : input.QueueInv c x todo q) (hx : ∀ p, x' (p,c) = x (p,c)) :
    input.QueueInv c x' todo q :=
  ⟨h.size,h.entries,fun p hp=>by rw [hx]; exact h.flag p hp, fun p hp=>by simpa only [hx] using h.settled p hp⟩

lemma ChannelClosed.congr (h : input.ChannelClosed c x) (hx : ∀ p, x' (p,c) = x (p,c)) : input.ChannelClosed c x' :=
  ⟨fun p hp d=>by rw [hx]; exact h.halo p hp d, fun p hp d hd=>by rw [hx,hx]; exact h.settled p hp d hd⟩

variable {direct : DensePositionSet}

lemma isSolution_of_closed (h : input.FieldInv o direct) (hc : ∀ c, input.ChannelClosed c (input.field o direct)) :
    input.scene.system.IsSolution (input.field o direct) := by
  refine System.isSolution_of_sound (System.closed_of_settled ?_ ?_) h.sound
  · rintro ⟨p,c⟩
    exact Scene.source_le (fun hp=>h.base_le p hp c) fun hp d=>(hc c).halo p hp d
  · rintro ⟨p,c⟩
    exact Scene.settled_of_neighbours fun d hp hd=>(hc c).settled p hp d hd

lemma freeze_shows (h : input.FieldInv o direct) (stats : LightSolveStats) :
    Ensures (fun _=>False) (fun out=>Shows input.bounds out (input.field o direct))
      (o.freeze direct stats) := by
  refine (MutableOutput.freeze_spec h.loaded.shape input.cells_le h.loaded.le h.shape stats).mono
    fun out hout p hp=>⟨fun c=>?_,?_⟩
  · rw [(hout.2.2 p hp).1 c]
    by_cases hin : input.scene.Inside p
    · rw [if_pos ((h.loaded.known p hp).2 hin.2),h.min_field hin]
      rfl
    · rw [if_neg fun hk=>hin ⟨hp,(h.loaded.known p hp).1 hk⟩]
      simp [field,hin]
  · rw [(hout.2.2 p hp).2]
    by_cases hin : input.scene.Inside p
    · rw [Bool.eq_iff_iff,decide_eq_true_iff,h.field_eq_direct hin]
      simp
    · have hzero : input.field o direct (p,.sky) = 0 := by simp [field,hin]
      rw [hzero,Bool.eq_false_iff.2 fun hd=>hin (h.direct_inside p hp hd)]
      rfl

variable {stats : LightSolveStats} {limits : SolverLimits}

lemma propagateBoth_ensures {st : Queueing} (hf : input.FieldInv o st.directSky)
    (hq : ∀ c, input.QueueInv c (input.field o st.directSky) (fun _ _=>False) (st.queue c)) :
    Ensures (Halt.Exceeds limits) (Exact input.scene)
      (propagateBoth input.blocks input.prior input.bounds input.profile limits o st stats) := by
  refine Ensures.bind (propagate_ensures (c := .block) ⟨hf,hq .block⟩) fun block hblock=>?_
  obtain ⟨hf₁,hadv₁,hclosed₁⟩ := hblock
  have hsky : input.QueueInv .sky (input.field block.output block.directPositions) (fun _ _=>False) st.skyIncrease :=
    (hq .sky).congr fun p=>hadv₁.other (p,.sky) (by simp)
  refine Ensures.bind (propagate_ensures (c := .sky) ⟨hf₁,hsky⟩) fun sky hsky=>?_
  obtain ⟨hf₂,hadv₂,hclosed₂⟩ := hsky
  refine ((freeze_shows hf₂ _).mono fun out hout=>⟨_,isSolution_of_closed hf₂ ?_,hout⟩).of_never
  intro c
  cases c with
  | block => exact hclosed₁.congr fun p=>hadv₂.other (p,.block) (by simp)
  | sky => exact hclosed₂

lemma darkenInv_loaded {total : ℕ} (h : input.Loaded o)
    (hheld : ∀ p, input.scene.Inside p → ∀ c, input.held o p c=input.level p c) :
    input.DarkenInv (fun _ _ _=>False) ⟨o,[],[],total,stats⟩ :=
  ⟨h,fun p hp c=>.inl (hheld p hp c),fun _ he=>absurd he not_mem_nil,
    fun _ he=>absurd he not_mem_nil,fun p hp c hne=>absurd (hheld p hp c) hne⟩

/-- Raising darkened light to its sources leaves each cell at its source or at a sound prior
level. -/
lemma kept_of_raised {st : Darkening} (h : input.DarkenInv (fun _ _ _=>False) st) (hempty : st.darken = [])
    (hsup : ∀ p c, input.Kept st (p,c) → input.level p c=0 ∨ input.Supported p c (input.level p c))
    (hraised : ∀ p, input.scene.Inside p → ∀ c, input.held o p c=max (input.held st.output p c) (input.scene.base p c))
    (p : BlockPos) (hp : input.scene.Inside p) (c : LightChannel) :
    input.held o p c ≤ input.scene.base p c ∨ input.held o p c=input.level p c ∧
      ∀ y, input.scene.system.Closed y → input.priorRank (p,c) ≤ y (p,c) := by
  rw [hraised p hp c]
  rcases h.cell p hp c with hk | ⟨hb,-,-⟩
  · rcases le_total (input.level p c) (input.scene.base p c) with hle | hle
    · exact .inl (by rw [hk,max_eq_right hle])
    · exact .inr ⟨by rw [hk,max_eq_left hle], fun y hy=>kept_sound h hempty hsup hy (p,c) ⟨hp,hk⟩⟩
  · exact .inl (by rw [hb,max_self])

/-- A dark cell sends nothing. -/
lemma carried_field_zero (h : input.FieldInv o direct) {p : BlockPos} (hp : input.scene.Inside p)
    (hzero : input.held o p c=0) (d : Fin 6) (f : ℕ) :
    input.scene.carried c d f (input.field o direct (p,c)) = 0 := by
  have hfz : input.field o direct (p,c) = 0 := by
    rw [field_of_inside hp,if_neg,hzero]
    rintro ⟨rfl,hd⟩
    have := h.direct_level p hp hd
    omega
  rw [hfz,Scene.carried_zero]

/-- The incremental solve yields the light of its scene, whatever the prior and the buffers. -/
lemma solveLight_ensures (input : SolveInput) {volume : ℕ} (generation : ℕ) (scratch : LightSolverScratch)
    (hv : input.bounds.volume=some volume) (hdense : volume≤u32Max)
    (hmax : volume≤limits.maxVoxels) :
    Ensures (Halt.Exceeds limits) (Exact input.scene)
      (solveLightWithScratch input.source input.old input.bounds generation input.profile limits
        scratch) := by
  obtain ⟨rfl,-⟩ := cells_of_volume hv
  have hcheck : checkedVolume input.bounds limits = .ok input.bounds.cells := by
    rw [checkedVolume,hv]
    exact if_neg (Nat.not_lt.2 hmax)
  rw [solveLightWithScratch,hcheck,except_ok_bind]
  simp only [IncreaseQueue.reset_eq _ hdense,except_ok_bind]
  refine Ensures.bind (loadPrior_ensures generation) fun o ho=>?_
  obtain ⟨hload,hheld⟩ := ho
  have hall : ∀ e ∈ input.bounds.positions.zipIdx, input.bounds.Contains e.1 ∧ e.2=input.idx e.1 := by
    rintro ⟨p,i⟩ he
    obtain ⟨pre,post,hl⟩ := append_of_mem he
    obtain ⟨hp,hi,-⟩ := zipIdx_split hl
    exact ⟨hp,hi⟩
  refine Ensures.bind (seedDarken_ensures hall (darkenInv_loaded hload hheld)) fun st₁ h₁=>?_
  refine Ensures.bind (darkenLoop_ensures h₁.1 h₁.2) fun st₂ h₂=>?_
  obtain ⟨hinv,hseed,hempty⟩ := h₂
  have hrange : ∀ i ∈ List.range input.bounds.cells, ∃ p, input.bounds.Contains p ∧ i=input.idx p := by
    intro i hi
    obtain ⟨p,-,hp,hpi⟩ := positions_getElem? (mem_range.1 hi)
    exact ⟨p,hp,hpi.symm⟩
  refine Ensures.bind (raiseToBase_ensures hinv.loaded hrange) fun o' ho'=>?_
  obtain ⟨hload',hheld'⟩ := ho'
  have hheld'' : ∀ p, input.scene.Inside p → ∀ c, input.held o' p c =
      max (input.held st₂.output p c) (input.scene.base p c) := by
    intro p hp c
    rw [hheld' p hp c,if_pos (mem_range.2 (denseIndex_lt (b := input.bounds) hp.1))]
  refine Ensures.bind (queueLit_ensures hdense) fun queued hq=>?_
  have hbase : ∀ p, input.scene.Inside p → ∀ c, input.scene.base p c ≤ input.held o' p c :=
    fun p hp c=>(hheld'' p hp c) ▸ le_max_right _ _
  have hsup : ∀ p c, input.Kept st₂ (p,c) → input.level p c=0 ∨ input.Supported p c (input.level p c) := by
    intro p c hk
    have hmem : (p,input.idx p) ∈ input.bounds.positions.zipIdx :=
      List.mk_mem_zipIdx_iff_getElem?.2 (positions_getElem?_denseIndex hk.1.1)
    exact hseed (p,input.idx p) hmem hk.1 c hk.2
  have hkept := kept_of_raised hinv hempty hsup hheld''
  have hf := fieldInv_queued hload' hq hbase hkept
  refine propagateBoth_ensures hf (queueInv_queued hload' hq hbase hkept ?_)
  intro p hp c hs d hd
  have hzero : input.held o' p c=0 := by
    by_contra hne
    exact hs ⟨hne,rfl⟩
  rw [carried_field_zero hf hp hzero]
  exact Nat.zero_le _

end SolveInput

end Cinnabar.Light
