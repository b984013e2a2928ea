import Cinnabar.Light.Converge

/-! # Retained light is real -/

namespace Cinnabar.Light

open LightBounds Relaxation

namespace SolveInput

variable {input : SolveInput}

/-- The rank a supported prior level stands for: where sky falls straight down, only direct sky
can be supported at 15. -/
def priorRank (input : SolveInput) (cell : LightCell) : ℕ :=
  rank (input.level cell.1 cell.2) (decide (cell.2 = .sky) && input.profile.directSkyDown)

/-- Brighter cells come first; among full levels, higher ones. -/
def Brighter (input : SolveInput) : LightCell → LightCell → Prop :=
  InvImage (Prod.Lex (· < ·) (· < ·)) fun cell =>
    (15-input.level cell.1 cell.2,(input.bounds.max.y-cell.1.y).toNat)

lemma brighter_wf : WellFounded input.Brighter :=
  InvImage.wf _ (WellFounded.prod_lex Nat.lt_wfRel.wf Nat.lt_wfRel.wf)

variable {c : LightChannel}

lemma brighter_of_lt {p q : BlockPos} (hq : input.bounds.Contains q)
    (h : input.level p c < input.level q c) : input.Brighter (q,c) (p,c) := by
  have := level_le hq c
  refine Prod.Lex.left _ _ ?_
  simp only
  omega

variable {p : BlockPos}

lemma brighter_of_above (hq : input.bounds.Contains (p.step (neighbours above)))
    (h : input.level p c=input.level (p.step (neighbours above)) c) :
    input.Brighter (p.step (neighbours above),c) (p,c) := by
  rw [Brighter,InvImage,h]
  have hy := hq.2.2.2.1
  simp only [BlockPos.step,neighbours,above,Matrix.cons_val] at hy ⊢
  omega

lemma le_carried {d : Fin 6} {f r level : ℕ} (h : level ≤ min r 15) : level-max f 1 ≤ input.scene.carried c d f r := by
  unfold Scene.carried directRank
  split_ifs <;> omega

lemma level_le_priorRank (hp : input.bounds.Contains p) (c : LightChannel) :
    input.level p c ≤ min (input.priorRank (p,c)) 15 := by
  rw [priorRank,min_rank (level_le hp c)]

lemma priorRank_le_base (hp : input.scene.Inside p) (h : input.level p c ≤ input.scene.base p c) :
    input.priorRank (p,c) ≤ input.scene.system.source (p,c) := by
  refine le_trans ?_ (Scene.le_source hp c)
  have hb := base_le hp c
  change rank (input.level p c) (decide (c = .sky) && input.profile.directSkyDown) ≤
    rank (input.scene.base p c) (decide (c = .sky) && input.profile.directSkyDown)
  unfold rank directRank
  split_ifs with h1 h2 h2
  · exact le_rfl
  · simp only [Bool.and_eq_true,beq_iff_eq] at h1 h2
    exact absurd ⟨h1.1,by omega⟩ h2
  · omega
  · exact h

/-- What a supporting neighbour passes on, in ranks. -/
lemma priorRank_le_carried {d : Fin 6} {level r : ℕ} {direct : Bool} (hlevel : level ≤ min r 15)
    (hdirect : c = .sky ∧ input.profile.directSkyDown=true ∧ level=15 ∧ direct=true → directRank ≤ r)
    (hp : input.level p c≤15)
    (h : input.level p c ≤ incomingLevel level (input.scene.filterAt p) c input.profile (neighbours d) direct) :
    input.priorRank (p,c) ≤ input.scene.carried c d (input.scene.filterAt p) r := by
  rw [incomingLevel] at h
  split_ifs at h with hd
  · obtain ⟨hsky,hdown,hup,hl,hdir,hf⟩ := hd
    rw [Scene.carried_of_direct ⟨hsky,hdown,neighbours_eq_up.1 hup,hdirect ⟨hsky,hdown,hl,hdir⟩,hf⟩]
    exact rank_le hp _
  · have hlt : input.level p c≠15 := by omega
    have hrank : input.priorRank (p,c) = input.level p c := by
      simp [priorRank,rank,hlt]
    rw [hrank]
    exact h.trans (le_carried hlevel)

def Kept (input : SolveInput) (st : Darkening) (cell : LightCell) : Prop :=
  input.scene.Inside cell.1 ∧ input.held st.output cell.1 cell.2=input.level cell.1 cell.2

section
variable {st : Darkening} (h : input.DarkenInv (fun _ _ _=>False) st) (hempty : st.darken = [])
include h hempty

lemma kept_of_supports {p q : BlockPos} {c : LightChannel} {d : Fin 6}
    (hp : input.Kept st (p,c)) (hpq : p.step (neighbours d) = q) (hq : input.scene.Inside q)
    (hbase : ¬input.level p c ≤ input.scene.base p c)
    (hsup : input.level p c ≤ incomingLevel (input.level q c) (input.scene.filterAt p) c
      input.profile (neighbours d) (input.direct q c)) : input.Kept st (q,c) := by
  refine ⟨hq,?_⟩
  by_contra hne
  have hback : q.step (neighbours (opposite d)) = p := by rw [← hpq,step_opposite]
  have hfront := h.frontier q hq c hne (opposite d) (hback.symm ▸ hp.1)
  rw [hback,hempty] at hfront
  have hkeep : input.held st.output p c=input.level p c := hp.2
  rcases hfront with ⟨e,he,-⟩ | hf | hdone
  · exact List.not_mem_nil he
  · exact hf
  · rw [hkeep] at hdone
    refine hdone ⟨Nat.lt_of_not_le hbase,?_⟩
    rw [incomingLevel] at hsup
    split_ifs at hsup with hd
    · obtain ⟨hsky,hdown,hup,hl,hdir,-⟩ := hd
      by_cases h15 : input.level p c=15
      · refine .inr ⟨hsky,hdown,hdir,neighbours_eq_down.2 ?_,h15,hl⟩
        rw [opposite_opposite]
        exact neighbours_eq_up.1 hup
      · exact .inl (by omega)
    · exact .inl (by omega)

lemma kept_sound (hsup : ∀ p c, input.Kept st (p,c) → input.level p c=0 ∨ input.Supported p c (input.level p c))
    {y : LightCell → ℕ} (hy : input.scene.system.Closed y) (cell : LightCell)
    (hk : input.Kept st cell) : input.priorRank cell≤y cell := by
  refine System.kept_le (K := input.Kept st) (@brighter_wf input) ?_ hy cell hk
  rintro ⟨p,c⟩ hp
  have hpi : input.scene.Inside p := hp.1
  have hl15 : input.level p c≤15 := level_le hpi.1 c
  by_cases hbase : input.level p c ≤ input.scene.base p c
  · exact .inl (priorRank_le_base hpi hbase)
  rcases hsup p c hp with hz | hb | ⟨hallow,d,q,hq,hknown,level,direct,hparts,hle⟩
  · exact absurd (hz.le.trans (Nat.zero_le _)) hbase
  · exact absurd hb hbase
  obtain ⟨rfl,-⟩ := BlockPos.checkedOffset_eq_some.1 hq
  rw [neighbourParts] at hparts
  split_ifs at hparts with hin
  · -- The neighbour is in bounds: it is kept too, and comes first.
    obtain ⟨rfl,rfl⟩ := hparts
    have hqi : input.scene.Inside (p.step (neighbours d)) := ⟨hin,hknown⟩
    refine .inr ⟨(p.step (neighbours d),c),kept_of_supports h hempty hp rfl hqi hbase hle,?_,?_⟩
    · rw [incomingLevel] at hle
      split_ifs at hle with hd
      · by_cases h15 : input.level p c=15
        · obtain rfl := neighbours_eq_up.1 hd.2.2.1
          exact brighter_of_above hin (h15.trans hd.2.2.2.1.symm)
        · exact brighter_of_lt hin (by omega)
      · exact brighter_of_lt hin (by omega)
    · refine le_trans ?_ (Scene.le_flow hpi hqi _)
      refine priorRank_le_carried (level_le_priorRank hin c) ?_ hl15 hle
      rintro ⟨rfl,hdown,h15,-⟩
      simp [priorRank,rank,hdown,h15]
  · -- The neighbour is a trusted halo cell.
    refine .inl (le_trans ?_ (Scene.haloRank_le_source hpi c d))
    have hlevel := input.scene.halo_le _ _ _ _ hparts
    have hhalo : input.scene.haloRank p c d=input.scene.carried c d (input.scene.filterAt p) (rank level direct) := by
      simp only [Scene.haloRank,hq,hparts]
      refine if_neg ?_
      rintro (hc | hk' | hs)
      · exact hin hc
      · exact hknown hk'
      · exact hallow hs
    rw [hhalo]
    refine priorRank_le_carried (min_rank hlevel direct).ge ?_ hl15 hle
    rintro ⟨-,-,h15,hdir⟩
    simp [rank,h15,hdir]

end

end SolveInput

end Cinnabar.Light

/-! # Queueing what survived

Cells are raised to their own sources, surviving direct sky is marked, and every
lit cell that may spread is queued with its provenance.
-/

namespace Cinnabar.Light

open LightBounds Relaxation List

namespace SolveInput

variable {input : SolveInput} {E : Halt → Prop}

lemma idx_inj {p q : BlockPos} (hp : input.bounds.Contains p) (hq : input.bounds.Contains q) :
    input.idx p=input.idx q ↔ p=q :=
  ⟨denseIndex_inj hp hq,fun h=>by rw [h]⟩

def baseRaised (input : SolveInput) (o : MutableOutput) (p : BlockPos) (c : LightChannel) :
    MutableOutput :=
  if input.scene.base p c > o.getAtIndex (input.idx p) c then
    o.setAtIndex (input.idx p) c (input.scene.base p c) else o

variable {spreading : ℕ → Bool} {o : MutableOutput} {p : BlockPos}

lemma loaded_baseRaised (h : input.Loaded o)
    (hp : input.scene.Inside p) (c : LightChannel) : input.Loaded (input.baseRaised o p c) := by
  rw [baseRaised]
  split_ifs
  · exact h.set hp c (base_le hp c)
  · exact h

lemma held_baseRaised {p q : BlockPos} (hp : input.bounds.Contains p)
    (hq : input.bounds.Contains q) (c c' : LightChannel) :
    input.held (input.baseRaised o p c) q c' = if q=p ∧ c'=c then max (input.held o p c) (input.scene.base p c)
      else input.held o q c' := by
  change input.held (if input.scene.base p c > input.held o p c then _ else _) q c'=_
  split_ifs with hgt hqp hqp
  · rw [held_set hp hq,if_pos hqp]
    omega
  · rw [held_set hp hq,if_neg hqp]
  · rw [hqp.1,hqp.2]
    omega
  · rfl

/-- Listed cells reach their own sources; the others keep their levels. -/
lemma raiseToBase_ensures {indices : List ℕ} (h : input.Loaded o)
    (hidx : ∀ i ∈ indices, ∃ p, input.bounds.Contains p ∧ i=input.idx p) :
    Ensures E (fun o'=>input.Loaded o' ∧ ∀ p, input.scene.Inside p → ∀ c,
      input.held o' p c = if input.idx p ∈ indices then
        max (input.held o p c) (input.scene.base p c) else input.held o p c)
      (raiseToBase input.blocks input.profile indices o) := by
  refine Ensures.foldlM (I := fun pre o'=>input.Loaded o' ∧ ∀ p, input.scene.Inside p → ∀ c,
    input.held o' p c = if input.idx p ∈ pre then
      max (input.held o p c) (input.scene.base p c) else input.held o p c)
    ⟨h,fun p _ c=>by simp⟩ ?_
  rintro pre i post o' hl ⟨hload,hheld⟩
  obtain ⟨p,hp,rfl⟩ := hidx i (by rw [hl]; simp)
  simp only [sampleAtIndex_idx hp]
  split_ifs with hf
  · have hnot : ¬input.scene.Inside p := fun hi=>hi.2 (Option.isNone_iff_eq_none.1 hf)
    refine ⟨hload,fun q hq c=>?_⟩
    have hqp : input.idx q≠input.idx p := fun he=>hnot ((idx_inj hq.1 hp).1 he ▸ hq)
    rw [hheld q hq c]
    simp [hqp]
  · have hin : input.scene.Inside p := ⟨hp,fun hnone=>hf (Option.isNone_iff_eq_none.2 hnone)⟩
    have hfold : channels.foldlM (fun output c=>do
        let base ← localBase input.blocks (input.idx p) c input.profile
        return if base > output.getAtIndex (input.idx p) c then
          output.setAtIndex (input.idx p) c base else output) o' =
        (.ok (input.baseRaised (input.baseRaised o' p .block) p .sky) : Except Halt _) := by
      simp only [channels,foldlM_cons,foldlM_nil,localBase_eq hin,except_ok_bind, except_pure_bind]
      rfl
    rw [hfold]
    refine ⟨loaded_baseRaised (loaded_baseRaised hload hin _) hin _,fun q hq c=>?_⟩
    rw [held_baseRaised hp hq.1,held_baseRaised hp hp,held_baseRaised hp hq.1]
    by_cases hqp : q=p
    · subst hqp
      have hmem : input.idx q ∈ pre ++ [input.idx q] := by simp
      cases c <;> simp [hheld q hq] <;> split_ifs <;> omega
    · have hne : input.idx q≠input.idx p := fun he=>hqp ((idx_inj hq.1 hp).1 he)
      simp [hqp,hne,hheld q hq c]

def RetainedDirect (input : SolveInput) (o : MutableOutput) (p : BlockPos) : Prop :=
  (input.profile.directSkyDown=true ∧ input.held o p .sky=15 ∧ input.scene.filterAt p=0) ∧
    (input.scene.base p .sky=15 ∨ input.old.hasDirectSkyProvenance input.bounds.dimension p=true)

instance (o : MutableOutput) (p : BlockPos) : Decidable (input.RetainedDirect o p) := by
  unfold RetainedDirect
  infer_instance

/-- A lit cell allowed to spread. -/
def Spreads (input : SolveInput) (o : MutableOutput) (spreading : ℕ → Bool) (p : BlockPos)
    (c : LightChannel) : Prop :=
  input.held o p c≠0 ∧ spreading (input.idx p) = true

lemma isDirectSky_eq (hp : input.scene.Inside p)
    (c : LightChannel) : isDirectSky input.blocks input.prior input.profile p (input.idx p)
      (input.scene.filterAt p) c (input.held o p c) =
      .ok (decide (c = .sky ∧ input.RetainedDirect o p)) := by
  rw [isDirectSky]
  split_ifs with hcond
  · obtain ⟨rfl,hcond⟩ := hcond
    have hiff : input.RetainedDirect o p ↔ input.scene.base p .sky=15 ∨ input.prior.directSkyAtIndex p=true := by
      rw [RetainedDirect,and_iff_right hcond]
      rfl
    rw [localBase_eq hp,except_ok_bind]
    simp only [true_and,hiff,Bool.decide_or,Bool.decide_eq_true]
    rfl
  · rw [decide_eq_false]
    · rfl
    · rintro ⟨rfl,hr,-⟩
      exact hcond ⟨rfl,hr⟩

variable {limits : SolverLimits}

lemma queueCell_ensures (hp : input.scene.Inside p) (c : LightChannel) {st : Queueing}
    (hsize : (st.queue c).size=input.bounds.cells) :
    Ensures (Halt.Exceeds limits) (fun st' =>
        st'.directSky = (if c = .sky ∧ input.RetainedDirect o p then
          st.directSky.insertAtIndex (input.idx p) else st.directSky) ∧
        (∀ c', c'≠c → st'.queue c'=st.queue c') ∧
        (input.Spreads o spreading p c ∧ (st.queue c).Pushed
            ⟨p,input.idx p,decide (c = .sky ∧ input.RetainedDirect o p)⟩ (st'.queue c) ∨
          ¬input.Spreads o spreading p c ∧ st'.queue c=st.queue c))
      (queueCell input.blocks input.prior input.profile limits o spreading p (input.idx p)
        (input.scene.filterAt p) st c) := by
  change Ensures _ _ (if input.held o p c=0 then _ else _)
  by_cases hz : input.held o p c=0
  · rw [if_pos hz]
    refine ⟨?_,fun _ _=>rfl,.inr ⟨fun hs=>hs.1 hz,rfl⟩⟩
    rw [if_neg]
    rintro ⟨rfl,⟨-,h15,-⟩,-⟩
    omega
  · rw [if_neg hz]
    change Ensures _ _ (isDirectSky input.blocks input.prior input.profile p (input.idx p)
      (input.scene.filterAt p) c (input.held o p c) >>= _)
    rw [isDirectSky_eq hp]
    rw [except_ok_bind]
    simp only [decide_eq_true_eq]
    by_cases hs : spreading (input.idx p) = true
    · have hqueue : ∀ c', (if c = .sky ∧ input.RetainedDirect o p then
          { st with directSky := st.directSky.insertAtIndex (input.idx p) } else st).queue c' =
          st.queue c' := by
        intro c'
        split_ifs <;> rfl
      simp only [hs,Bool.not_true,Bool.false_eq_true,if_false,hqueue]
      have hlt : (⟨p,input.idx p,decide (c = .sky ∧ input.RetainedDirect o p)⟩ :
          IncreaseEntry).index < (st.queue c).size := by
        rw [hsize]
        exact denseIndex_lt hp.1
      refine Ensures.bind (IncreaseQueue.pushBack_ensures hlt) fun pushed hpush=>?_
      refine ⟨?_,fun c' hc'=>?_,.inl ⟨⟨hz,hs⟩,?_⟩⟩
      · cases c <;> (simp only [Queueing.setQueue]; split_ifs <;> rfl)
      · rw [← hqueue c']
        cases c <;> cases c' <;> first | exact absurd rfl hc' | rfl
      · cases c <;> exact hpush
    · simp only [hs,Bool.not_false,if_true]
      refine ⟨?_,fun c' _=>?_,.inr ⟨fun h=>hs h.2,?_⟩⟩
      all_goals split_ifs <;> rfl

/-- What is queued once the first `n` cells are visited. -/
structure Queued (input : SolveInput) (o : MutableOutput) (spreading : ℕ → Bool) (n : ℕ)
    (st : Queueing) : Prop where
  shape : st.directSky.Over input.bounds
  direct : ∀ p, input.bounds.Contains p → (st.directSky.containsAtIndex (input.idx p) = true ↔
    input.idx p<n ∧ input.scene.Inside p ∧ input.RetainedDirect o p)
  size : ∀ c, (st.queue c).size=input.bounds.cells
  entries : ∀ c, ∀ e ∈ (st.queue c).entries, input.scene.Inside e.1 ∧ e.2=input.idx e.1
  pending : ∀ c p, input.bounds.Contains p → ((st.queue c).pending (input.idx p) ≠ 0 ↔
    input.idx p<n ∧ input.scene.Inside p ∧ input.Spreads o spreading p c)
  flag : ∀ c p, input.scene.Inside p → (st.queue c).pending (input.idx p) ≠ 0 →
    (st.queue c).directAt (input.idx p) = decide (c = .sky ∧ input.RetainedDirect o p)

structure ChannelQueued (input : SolveInput) (o : MutableOutput) (spreading : ℕ → Bool)
    (p : BlockPos) (c : LightChannel) (q q' : IncreaseQueue) : Prop where
  size : q'.size=q.size
  entries : ∀ e ∈ q'.entries, e ∈ q.entries ∨ e = (p,input.idx p)
  pending_ne : ∀ i, i≠input.idx p → q'.pending i=q.pending i
  pending : q'.pending (input.idx p) ≠ 0 ↔ input.Spreads o spreading p c
  flag : q'.pending (input.idx p) ≠ 0 → q'.directAt (input.idx p) = decide (c = .sky ∧ input.RetainedDirect o p)

lemma channelQueued {c : LightChannel} {q q' : IncreaseQueue} (hfresh : q.pending (input.idx p) = 0)
    (h : input.Spreads o spreading p c ∧ q.Pushed ⟨p,input.idx p,decide (c = .sky ∧ input.RetainedDirect o p)⟩ q' ∨
      ¬input.Spreads o spreading p c ∧ q'=q) :
    input.ChannelQueued o spreading p c q q' := by
  rcases h with ⟨hs,hpush⟩ | ⟨hs,rfl⟩
  · refine ⟨hpush.size,fun e he=>?_,hpush.pending_ne,iff_of_true hpush.queued hs,fun _=>?_⟩
    · rcases hpush.entries with ⟨hent,-⟩ | ⟨hent,-⟩
      · exact .inl (hent ▸ he)
      · simp only [hent,mem_append,mem_singleton] at he
        exact he
    · rw [hpush.direct]
      simp [IncreaseQueue.directAt,hfresh]
  · exact ⟨rfl,fun e he=>.inl he,fun _ _=>rfl,iff_of_false (by simp [hfresh]) hs, fun hne=>absurd hfresh hne⟩

lemma Queued.visit {st st' : Queueing} (h : input.Queued o spreading (input.idx p) st) (hp : input.scene.Inside p)
    (hdirect : st'.directSky = if input.RetainedDirect o p then
      st.directSky.insertAtIndex (input.idx p) else st.directSky)
    (hqueue : ∀ c, input.ChannelQueued o spreading p c (st.queue c) (st'.queue c)) :
    input.Queued o spreading (input.idx p+1) st' where
  shape := by
    rw [hdirect]
    split_ifs
    · exact h.shape.insertAtIndex _
    · exact h.shape
  direct q hq := by
    rw [hdirect,visited_succ (b := input.bounds) hp.1 hq]
    by_cases hqp : q=p
    · subst hqp
      have hold : st.directSky.containsAtIndex (input.idx q) = false := by
        by_contra hc
        exact Nat.lt_irrefl _ ((h.direct q hq).1 (by simpa using hc)).1
      split_ifs with hr
      · simp [hr,hp]
      · simp [hold,hr]
    · have hne : input.idx q≠input.idx p := fun he=>hqp ((idx_inj hq hp.1).1 he)
      split_ifs
      · simpa [hqp,hne] using h.direct q hq
      · simpa [hqp] using h.direct q hq
  size c := (hqueue c).size.trans (h.size c)
  entries c e he := by
    rcases (hqueue c).entries e he with he | rfl
    · exact h.entries c e he
    · exact ⟨hp,rfl⟩
  pending c q hq := by
    rw [visited_succ (b := input.bounds) hp.1 hq]
    by_cases hqp : q=p
    · subst hqp
      rw [(hqueue c).pending]
      simp [hp]
    · have hne : input.idx q≠input.idx p := fun he=>hqp ((idx_inj hq hp.1).1 he)
      rw [(hqueue c).pending_ne _ hne,h.pending c q hq]
      simp [hqp]
  flag c q hq hpend := by
    by_cases hqp : q=p
    · subst hqp
      exact (hqueue c).flag hpend
    · have hne : input.idx q≠input.idx p := fun he=>hqp ((idx_inj hq.1 hp.1).1 he)
      rw [(hqueue c).pending_ne _ hne] at hpend
      rw [IncreaseQueue.directAt,(hqueue c).pending_ne _ hne]
      exact h.flag c q hq hpend

lemma queueLit_ensures {total : ℕ} (hdense : input.bounds.cells≤u32Max) :
    Ensures (Halt.Exceeds limits) (input.Queued o spreading input.bounds.cells)
      (queueLit input.blocks input.prior input.bounds input.profile limits o spreading
        ⟨.fresh input.bounds.cells hdense,.fresh input.bounds.cells hdense,
          .new input.bounds,total⟩) := by
  refine ensures_forEach (I := input.Queued o spreading) ?_ ?_
  · refine ⟨DensePositionSet.over_new _,fun p _=>by simp,fun c=>?_,fun c e he=>?_, fun c p _=>?_,fun c p _ hpend=>?_⟩
    · cases c <;> rfl
    · cases c <;> exact absurd he not_mem_nil
    · cases c <;> simp [Queueing.queue,IncreaseQueue.fresh]
    · cases c <;> exact absurd rfl hpend
  · intro p hp st hst
    simp only [sampleAtIndex_idx hp]
    by_cases hf : (input.source.sample p).filter=none
    · rw [hf]
      have hnot : ¬input.scene.Inside p := fun hi=>hi.2 hf
      refine ⟨hst.shape,fun q hq=>?_,hst.size,hst.entries,fun c q hq=>?_,hst.flag⟩
      · rw [visited_succ hp hq,hst.direct q hq]
        by_cases hqp : q=p
        · subst hqp
          simp [hnot]
        · simp [hqp]
      · rw [visited_succ hp hq,hst.pending c q hq]
        by_cases hqp : q=p
        · subst hqp
          simp [hnot]
        · simp [hqp]
    · have hin : input.scene.Inside p := ⟨hp,hf⟩
      have hfresh : ∀ c, (st.queue c).pending (input.idx p) = 0 := by
        intro c
        by_contra hne
        exact Nat.lt_irrefl _ ((hst.pending c p hp).1 hne).1
      rw [filter_eq_some hf]
      refine Ensures.bind (queueCell_ensures hin .block (hst.size _)) fun st₁ h₁=>?_
      obtain ⟨hdir₁,hother₁,hblock⟩ := h₁
      have hsky₁ : st₁.queue .sky=st.queue .sky := hother₁ .sky (by decide)
      refine Ensures.bind (queueCell_ensures hin .sky (by rw [hsky₁]; exact hst.size _)) fun st₂ h₂=>?_
      obtain ⟨hdir₂,hother₂,hsky⟩ := h₂
      have hblock₂ : st₂.queue .block=st₁.queue .block := hother₂ .block (by decide)
      refine hst.visit hin ?_ fun c=>?_
      · rw [hdir₂,hdir₁]
        simp
      · cases c with
        | block =>
          rw [hblock₂]
          exact channelQueued (hfresh _) hblock
        | sky =>
          rw [hsky₁] at hsky
          exact channelQueued (hfresh _) hsky

end SolveInput

end Cinnabar.Light
