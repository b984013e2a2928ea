import Cinnabar.Light.Propagate

/-! # Propagation reaches the least solution -/

namespace Cinnabar.Light

open LightBounds Relaxation List Function

namespace SolveInput

variable {input : SolveInput} {c : LightChannel} {d : Fin 6}

/-- The rank a popped cell offers a neighbour is what the relaxation carries there. -/
lemma candidateRank_increase {f source r : ℕ} {direct : Bool} (hr : r≤directRank) (hsource : source=min r 15)
    (hdirect : direct=decide (c = .sky ∧ r=directRank)) {continues : Bool}
    (hc : continues=decide (c = .sky ∧ input.profile.directSkyDown=true ∧ direct=true ∧
      neighbours d = (0,-1,0) ∧ source=15 ∧ f=0)) :
    candidateRank (if continues then 15 else source-max f 1) continues =
      input.scene.carried c (opposite d) f r := by
  cases continues with
  | true =>
    obtain ⟨hsky,hdown,hdir,hoff,-,hf⟩ := of_decide_eq_true hc.symm
    rw [hdir] at hdirect
    obtain ⟨-,hr16⟩ := of_decide_eq_true hdirect.symm
    rw [Scene.carried_of_direct ⟨hsky,hdown,neighbours_eq_down.1 hoff,hr16.ge,hf⟩]
    rfl
  | false =>
    have hnot := of_decide_eq_false hc.symm
    rw [Scene.carried_of_not_direct,hsource]
    · rfl
    · rintro ⟨hsky,hdown,hup,h16,hf⟩
      have hr16 : r=directRank := hr.antisymm h16
      refine hnot ⟨hsky,hdown,?_,neighbours_eq_down.2 hup,?_,hf⟩
      · rw [hdirect]
        exact decide_eq_true ⟨hsky,hr16⟩
      · rw [hsource,hr16]
        rfl

/-- The rank a trusted halo cell offers is what the relaxation carries in. -/
lemma candidateRank_halo {f level : ℕ} {boundaryDirect : Bool} (hl : level≤15)
    {direct : Bool} (hc : direct=decide (c = .sky ∧ input.profile.directSkyDown=true ∧
      neighbours d = (0,1,0) ∧ level=15 ∧ boundaryDirect=true ∧ f=0)) :
    candidateRank (if direct then 15 else level-max f 1) direct =
      input.scene.carried c d f (rank level boundaryDirect) := by
  cases direct with
  | true =>
    obtain ⟨hsky,hdown,hoff,hl15,hb,hf⟩ := of_decide_eq_true hc.symm
    rw [Scene.carried_of_direct ⟨hsky,hdown,neighbours_eq_up.1 hoff,by simp [rank,hl15,hb],hf⟩]
    rfl
  | false =>
    have hnot := of_decide_eq_false hc.symm
    rw [Scene.carried_of_not_direct,min_rank hl]
    · rfl
    · rintro ⟨hsky,hdown,hup,h16,hf⟩
      rw [rank] at h16
      split_ifs at h16 with hd
      · simp only [Bool.and_eq_true,beq_iff_eq] at hd
        exact hnot ⟨hsky,hdown,neighbours_eq_up.2 hup,hd.2,hd.1,hf⟩
      · unfold directRank at h16
        omega

/-- The obligations of a cell whose directions `pre` are visited. -/
abbrev todoFrom (position : BlockPos) (pre : List (Fin 6)) : BlockPos → Fin 6 → Prop :=
  fun p d=>p=position ∧ d ∉ pre

variable {st : Propagation} {limits : SolverLimits} {p : BlockPos}

lemma SpreadInv.visited {pre : List (Fin 6)} (h : input.SpreadInv c (todoFrom p pre) st)
    (hd : input.scene.Inside (p.step (neighbours d)) →
      input.scene.carried c (opposite d) (input.scene.filterAt (p.step (neighbours d)))
        (input.ranks st (p,c)) ≤ input.ranks st (p.step (neighbours d),c)) :
    input.SpreadInv c (todoFrom p (pre ++ [d])) st := by
  refine ⟨h.field,h.queue.size,h.queue.entries,h.queue.flag,fun p' hp'=>?_⟩
  refine (h.queue.settled p' hp').imp_right fun hset d' hd'=>?_
  rcases hset d' hd' with ⟨rfl,hnot⟩ | hs
  · by_cases hdd : d'=d
    · subst hdd
      exact .inr (hd hd')
    · exact .inl ⟨rfl,by simp [hnot,hdd]⟩
  · exact .inr hs

/-- What a phase of propagation leaves alone: the other channel, and every lower bound. -/
structure Advanced (input : SolveInput) (c : LightChannel) (st st' : Propagation) : Prop where
  other : ∀ cell : LightCell, cell.2≠c → input.ranks st' cell=input.ranks st cell
  le : ∀ cell, input.ranks st cell ≤ input.ranks st' cell

lemma Advanced.refl (st : Propagation) : input.Advanced c st st := ⟨fun _ _=>rfl,fun _=>le_rfl⟩

lemma Advanced.trans {st₁ st₂ st₃ : Propagation} (h : input.Advanced c st₁ st₂)
    (h' : input.Advanced c st₂ st₃) : input.Advanced c st₁ st₃ :=
  ⟨fun cell hc=>(h'.other cell hc).trans (h.other cell hc),fun cell=>(h.le cell).trans (h'.le cell)⟩

lemma Raised.advanced {q : BlockPos} {r : ℕ} {st st' : Propagation}
    (h : input.Raised c q r st st') : input.Advanced c st st' :=
  ⟨fun cell hc=>h.ne fun he=>hc (by rw [he]),h.le⟩

variable {entry : IncreaseEntry}

lemma increaseNeighbour_ensures {source r : ℕ} {pre : List (Fin 6)}
    (hin : input.scene.Inside entry.position) (hidx : entry.index=input.idx entry.position)
    (hr : input.ranks st (entry.position,c) = r) (hsource : source=min r 15)
    (hflag : entry.directSky=decide (c = .sky ∧ r=directRank))
    (h : input.SpreadInv c (todoFrom entry.position pre) st) :
    Ensures (Halt.Exceeds limits) (fun st'=>input.SpreadInv c (todoFrom entry.position (pre ++ [d])) st' ∧
        input.ranks st' (entry.position,c) = r ∧ input.Advanced c st st' ∧
        input.spreadWork st' ≤ input.spreadWork st)
      (increaseNeighbour input.blocks input.profile limits c entry source st d) := by
  have hr16 : r≤directRank := hr ▸ h.field.field_le _
  rw [increaseNeighbour,hidx]
  by_cases hn : input.bounds.Contains (entry.position.step (neighbours d))
  · rw [MutableOutput.neighbour_of_contains h.field.loaded.shape hin.1 hn]
    simp only [sampleAtIndex_idx hn]
    by_cases hf : (input.source.sample (entry.position.step (neighbours d))).filter=none
    · rw [hf]
      have hnot : ¬input.scene.Inside (entry.position.step (neighbours d)) := fun hi=>hi.2 hf
      exact ⟨h.visited fun hi=>absurd hi hnot,hr,.refl _,le_rfl⟩
    · have hni : input.scene.Inside (entry.position.step (neighbours d)) := ⟨hn,hf⟩
      rw [filter_eq_some hf]
      set q := entry.position.step (neighbours d) with hq
      set continues := decide (c = .sky ∧ input.profile.directSkyDown=true ∧
        entry.directSky=true ∧ neighbours d = (0,-1,0) ∧ source=15 ∧
        input.scene.filterAt q=0) with hcont
      have hrank := candidateRank_increase hr16 hsource hflag hcont
      change Ensures _ _ (raise limits c (fun s len=>{ s with queuePeak := max s.queuePeak len })
        st q (input.idx q) (if continues then 15 else source-max (input.scene.filterAt q) 1)
        continues)
      have hflow : candidateRank (if continues then 15 else source-max (input.scene.filterAt q) 1)
          continues ≤ input.scene.system.flow (entry.position,c) (q,c)
            (input.ranks st (entry.position,c)) := by
        rw [hrank,hr]
        have hback : q.step (neighbours (opposite d)) = entry.position := by
          rw [hq,step_opposite]
        have := Scene.le_flow (c := c) (d := opposite d) hni (hback.symm ▸ hin) r
        rwa [hback] at this
      refine (raise_ensures h hni ?_ ?_ (.inr ⟨_,hflow⟩)).mono fun st' hst'=>?_
      · split_ifs <;> omega
      · intro hc
        rw [if_pos hc]
        exact ⟨rfl,(of_decide_eq_true (hcont.symm.trans hc)).1⟩
      · obtain ⟨hinv,hraised⟩ := hst'
        have hne : ((entry.position,c) : LightCell) ≠ (q,c) := fun he =>
          step_ne entry.position d (congrArg Prod.fst he).symm
        have hkeep : input.ranks st' (entry.position,c) = r := (hraised.ne hne).trans hr
        refine ⟨hinv.visited fun _=>?_,hkeep,hraised.advanced,hraised.work⟩
        rw [hkeep,← hrank]
        exact hraised.self
  · rw [MutableOutput.neighbour_of_not_contains h.field.loaded.shape hin.1 hn]
    exact ⟨h.visited fun hi=>absurd hi.1 hn,hr,.refl _,le_rfl⟩

/-- Popping a cell leaves its six directions to visit. -/
lemma pop_inv {st rest : Propagation} (h : input.SpreadInv c (fun _ _=>False) st) (hpop : st.pop=some (entry,rest)) :
    input.scene.Inside entry.position ∧ entry.index=input.idx entry.position ∧
      entry.directSky=decide (c = .sky ∧ input.ranks st (entry.position,c) = directRank) ∧
      input.SpreadInv c (todoFrom entry.position []) rest ∧ input.ranks rest=input.ranks st ∧
      input.spreadWork rest+1=input.spreadWork st := by
  rw [Propagation.pop,Option.map_eq_some_iff] at hpop
  obtain ⟨⟨entry',queue⟩,hq,he⟩ := hpop
  cases he
  obtain ⟨hent,hflag,hpend,hsize⟩ := IncreaseQueue.popFront_eq_some hq
  obtain ⟨hin,hidx⟩ := h.queue.entries (entry.position,entry.index) (by rw [hent]; simp)
  simp only at hin hidx
  have hne : st.queue.pending (input.idx entry.position) ≠ 0 := by
    rw [st.queue.pending_iff,hent,← hidx]
    simp
  refine ⟨hin,hidx,?_,⟨h.field,hsize.trans h.queue.size,fun e he=>?_,fun p hp hz=>?_, fun p hp=>?_⟩,rfl,?_⟩
  · rw [hflag,hidx]
    exact h.queue.flag _ hin hne
  · exact h.queue.entries e (by rw [hent]; simp [he])
  · rw [hpend] at hz
    have hpi : input.idx p≠entry.index := by
      intro hpi
      rw [hpi,update_self] at hz
      exact hz rfl
    rw [update_of_ne hpi] at hz
    rw [IncreaseQueue.directAt,hpend,update_of_ne hpi]
    exact h.queue.flag p hp hz
  · by_cases hpe : p=entry.position
    · exact .inr fun d _=>.inl ⟨hpe,not_mem_nil⟩
    · have hpi : input.idx p≠entry.index := fun he =>
        hpe (denseIndex_inj hp.1 hin.1 (he.trans hidx))
      rw [hpend,update_of_ne hpi]
      exact (h.queue.settled p hp).imp_right fun hs d hd=>.inr ((hs d hd).resolve_left id)
  · change queue.len + ∑ cell ∈ input.region, (directRank-input.ranks st cell)+1=_
    simp only [spreadWork,IncreaseQueue.len,hent,length_cons]
    omega

lemma increaseEntry_ensures {st rest : Propagation} (h : input.SpreadInv c (fun _ _=>False) st)
    (hpop : st.pop=some (entry,rest)) :
    Ensures (Halt.Exceeds limits) (fun st'=>input.SpreadInv c (fun _ _=>False) st' ∧ input.Advanced c st st' ∧
        input.spreadWork st' < input.spreadWork st)
      (increaseEntry input.blocks input.profile limits c entry rest) := by
  obtain ⟨hin,hidx,hflag,hinv,hranks,hwork⟩ := pop_inv h hpop
  set r := input.ranks st (entry.position,c) with hr
  rw [increaseEntry]
  obtain ⟨start,hstart,hinv',hranks',hwork'⟩ : ∃ start : Propagation,
      start = { rest with stats :=
        { rest.stats with increaseDequeued := rest.stats.increaseDequeued+1 } } ∧
      input.SpreadInv c (todoFrom entry.position []) start ∧ input.ranks start=input.ranks st ∧
      input.spreadWork start+1=input.spreadWork st :=
    ⟨_,rfl,⟨hinv.field,hinv.queue⟩,hranks,hwork⟩
  rw [← hstart]
  have hsource : start.output.getAtIndex entry.index c=min r 15 := by
    rw [hidx,hr,← hranks',hinv'.field.min_field hin]
    rfl
  refine (Ensures.foldlM (I := fun pre st'=>input.SpreadInv c (todoFrom entry.position pre) st' ∧
    input.ranks st' (entry.position,c) = r ∧ input.Advanced c start st' ∧
    input.spreadWork st' ≤ input.spreadWork start) ⟨hinv',congrFun hranks' _,.refl _,le_rfl⟩
    fun pre d post st' _ hst'=>?_).mono fun st' hst'=>?_
  · obtain ⟨h₁,h₂,h₃,h₄⟩ := hst'
    refine (increaseNeighbour_ensures hin hidx h₂ hsource hflag h₁).mono fun st'' hst''=>?_
    exact ⟨hst''.1,hst''.2.1,h₃.trans hst''.2.2.1,hst''.2.2.2.trans h₄⟩
  · obtain ⟨h₁,-,h₃,h₄⟩ := hst'
    refine ⟨⟨h₁.field,h₁.queue.size,h₁.queue.entries,h₁.queue.flag,fun p hp=>?_⟩,?_, by omega⟩
    · refine (h₁.queue.settled p hp).imp_right fun hs d hd=>.inr ?_
      exact (hs d hd).resolve_left fun ht=>ht.2 (mem_finRange d)
    · exact ⟨fun cell hc=>(h₃.other cell hc).trans (congrFun hranks' cell),
        fun cell=>(congrFun hranks' cell).ge.trans (h₃.le cell)⟩

/-- The best candidate so far bounds every halo cell looked at, and is one of them. -/
structure HaloBest (input : SolveInput) (p : BlockPos) (c : LightChannel) (seen : List (Fin 6))
    (best : ℕ × Bool) : Prop where
  le : ∀ d ∈ seen, input.scene.haloRank p c d ≤ candidateRank best.1 best.2
  attained : candidateRank best.1 best.2=0 ∨ ∃ d, candidateRank best.1 best.2=input.scene.haloRank p c d
  level_le : best.1≤15
  direct : best.2=true → best.1=15 ∧ c = .sky

lemma haloCandidate_best {seen : List (Fin 6)} {best : ℕ × Bool}
    (hsky : ¬(c = .sky ∧ input.profile.allowsSky=false)) (h : input.HaloBest p c seen best) :
    input.HaloBest p c (seen ++ [d]) (haloCandidate input.blocks input.prior input.bounds
      input.profile p (input.scene.filterAt p) c best d) := by
  have hkeep : input.scene.haloRank p c d ≤ candidateRank best.1 best.2 → input.HaloBest p c (seen ++ [d]) best := by
    intro hd
    refine ⟨fun d' hd'=>?_,h.attained,h.level_le,h.direct⟩
    rcases mem_append.1 hd' with hd' | hd'
    · exact h.le d' hd'
    · rw [mem_singleton.1 hd']
      exact hd
  rw [haloCandidate]
  cases hq : p.checkedOffset (neighbours d) with
  | none => exact hkeep (by simp [Scene.haloRank,hq])
  | some q =>
    simp only [blocks_sample,contains_iff,Option.isNone_iff_eq_none]
    by_cases hout : input.bounds.Contains q ∨ (input.source.sample q).filter=none
    · rw [if_pos hout]
      refine hkeep ?_
      have hz : input.scene.haloRank p c d=0 := by
        simp only [Scene.haloRank,hq]
        exact if_pos (hout.imp_right .inl)
      omega
    · rw [if_neg hout]
      have hparts : (input.prior.boundaryLight q c).trustedParts=input.scene.halo q c := rfl
      rw [hparts]
      cases hhalo : input.scene.halo q c with
      | none => exact hkeep ((Scene.haloRank_of_halo_none hq hhalo).trans_le (Nat.zero_le _))
      | some parts =>
        obtain ⟨level,boundaryDirect⟩ := parts
        have hrank : input.scene.haloRank p c d =
            input.scene.carried c d (input.scene.filterAt p) (rank level boundaryDirect) :=
          Scene.haloRank_of_halo_some hq (fun h=>hout (.inl h)) (fun h=>hout (.inr h)) hsky hhalo
        have hl := input.scene.halo_le _ _ _ _ hhalo
        dsimp only
        by_cases hz : level=0
        · rw [if_pos hz]
          refine hkeep ?_
          rw [hrank,hz,show rank 0 boundaryDirect=0 by simp [rank],Scene.carried_zero]
          exact Nat.zero_le _
        · set direct := decide (c = .sky ∧ input.profile.directSkyDown=true ∧
            neighbours d = (0,1,0) ∧ level=15 ∧ boundaryDirect=true ∧
            input.scene.filterAt p=0) with hdir
          have hcand := candidateRank_halo hl hdir
          rw [← hrank] at hcand
          set incoming := if direct then 15 else level-max (input.scene.filterAt p) 1 with hin
          have hle15 : incoming≤15 := by
            rw [hin]
            split_ifs <;> omega
          have hd15 : direct=true → incoming=15 ∧ c = .sky := fun hd =>
            ⟨by rw [hin,if_pos hd],(of_decide_eq_true (hdir.symm.trans hd)).1⟩
          have hbest := h.level_le
          have hbestd := h.direct
          split_ifs with hbetter
          · refine ⟨fun d' hd'=>?_,.inr ⟨d,hcand⟩,hle15,hd15⟩
            have hmono : candidateRank best.1 best.2 ≤ candidateRank incoming direct := by
              unfold candidateRank directRank
              cases hb : best.2 with
              | true =>
                have := (hbestd hb).1
                rcases hbetter with hgt | ⟨-,hd⟩
                · omega
                · rw [hd]
                  simp
              | false =>
                simp only [Bool.false_eq_true,if_false]
                split_ifs <;> omega
            rcases mem_append.1 hd' with hd' | hd'
            · exact (h.le d' hd').trans hmono
            · rw [mem_singleton.1 hd',hcand]
          · refine hkeep ?_
            rw [← hcand]
            unfold candidateRank directRank
            cases hd : direct with
            | true =>
              have := (hd15 hd).1
              exact absurd (.inr ⟨by omega,hd⟩) hbetter
            | false =>
              simp only [Bool.false_eq_true,if_false]
              split_ifs <;> omega

lemma haloBest (p : BlockPos) (hsky : ¬(c = .sky ∧ input.profile.allowsSky=false)) :
    input.HaloBest p c directions (haloLight input.blocks input.prior input.bounds input.profile p
      (input.scene.filterAt p) c) := by
  refine foldl_invariant (I := input.HaloBest p c)
    ⟨fun d hd=>absurd hd not_mem_nil,.inl rfl,Nat.zero_le _,fun h=>by cases h⟩ ?_
  intro pre d post best _ hbest
  exact haloCandidate_best hsky hbest

lemma seedBoundaryCell_ensures (hp : input.bounds.Contains p) (hsky : ¬(c = .sky ∧ input.profile.allowsSky=false))
    (h : input.SpreadInv c (fun _ _=>False) st) :
    Ensures (Halt.Exceeds limits) (fun st'=>input.SpreadInv c (fun _ _=>False) st' ∧ input.Advanced c st st' ∧
        (input.scene.Inside p → ∀ d, input.scene.haloRank p c d ≤ input.ranks st' (p,c)))
      (seedBoundaryCell input.blocks input.prior input.bounds input.profile limits c st p) := by
  rw [seedBoundaryCell,blocks_sample]
  by_cases hf : (input.source.sample p).filter=none
  · rw [hf]
    exact ⟨h,.refl _,fun hin=>absurd hf hin.2⟩
  · have hin : input.scene.Inside p := ⟨hp,hf⟩
    have hbest := haloBest p hsky
    rw [filter_eq_some hf]
    obtain ⟨candidate,isDirect,hlight⟩ : ∃ candidate isDirect, haloLight input.blocks input.prior
        input.bounds input.profile p (input.scene.filterAt p) c = (candidate,isDirect) :=
      ⟨_,_,rfl⟩
    rw [hlight] at hbest
    simp only [hlight,MutableOutput.index_eq h.field.loaded.shape input.cells_le hp]
    have hcond : (candidate > st.output.getAtIndex (input.idx p) c ∨
        candidate=st.output.getAtIndex (input.idx p) c ∧ candidate≠0 ∧
          (isDirect && !st.directPositions.contains p) = true) ↔
        Raises c st (input.idx p) candidate isDirect := by
      rw [h.field.shape.contains_eq input.cells_le hp,Raises]
      have hnz : isDirect=true → candidate≠0 := by
        intro hd h0
        have : candidate=15 := (hbest.direct hd).1
        omega
      constructor
      · rintro (hgt | ⟨heq,-,hgain⟩)
        · exact .inl hgt
        · exact .inr ⟨heq,hgain⟩
      · rintro (hgt | ⟨heq,hgain⟩)
        · exact .inl hgt
        · exact .inr ⟨heq,hnz (Bool.and_eq_true_iff.1 hgain).1,hgain⟩
    have hsound : candidateRank candidate isDirect ≤ input.scene.system.source (p,c) := by
      rcases hbest.attained with hz | ⟨d,hd⟩
      · exact hz.le.trans (Nat.zero_le _)
      · exact hd.le.trans (Scene.haloRank_le_source hin c d)
    have hspec : Ensures (Halt.Exceeds limits)
        (fun st'=>input.SpreadInv c (fun _ _=>False) st' ∧ input.Advanced c st st' ∧
          (input.scene.Inside p → ∀ d, input.scene.haloRank p c d ≤ input.ranks st' (p,c)))
        (raise limits c (fun s _=>s) st p (input.idx p) candidate isDirect) := by
      refine (raise_ensures h hin hbest.level_le hbest.direct (.inl hsound)).mono fun st' hst'=>?_
      refine ⟨hst'.1,hst'.2.advanced,fun _ d=>?_⟩
      exact (hbest.le d (mem_finRange d)).trans hst'.2.self
    simp only [hcond]
    cases isDirect with
    | false => exact hspec
    | true =>
      simp only [if_true,h.field.shape.insert_eq input.cells_le hp,except_ok_bind]
      exact hspec

lemma haloRank_of_not_onFace (hp : input.bounds.Contains p)
    (hface : ¬input.bounds.OnFace p) (d : Fin 6) : input.scene.haloRank p c d=0 := by
  rw [Scene.haloRank]
  cases hq : p.checkedOffset (neighbours d) with
  | none => rfl
  | some q =>
    obtain ⟨rfl,-⟩ := BlockPos.checkedOffset_eq_some.1 hq
    exact if_pos (.inl (hp.step hface d))

lemma seedBoundaryFromHalo_ensures (h : input.SpreadInv c (fun _ _=>False) st) : Ensures (Halt.Exceeds limits)
      (fun st'=>input.SpreadInv c (fun _ _=>False) st' ∧ input.Advanced c st st' ∧
        ∀ p, input.scene.Inside p → ∀ d, input.scene.haloRank p c d ≤ input.ranks st' (p,c))
      (seedBoundaryFromHalo input.blocks input.prior input.bounds input.profile limits c st) := by
  rw [seedBoundaryFromHalo]
  by_cases hsky : c = .sky ∧ input.profile.allowsSky=false
  · rw [if_pos hsky]
    refine ⟨h,.refl _,fun p _ d=>?_⟩
    have hz : input.scene.haloRank p c d=0 := by
      rw [Scene.haloRank]
      split
      · rfl
      · exact if_pos (.inr (.inr hsky))
    omega
  · rw [if_neg hsky]
    refine (Ensures.foldlM (I := fun pre st'=>input.SpreadInv c (fun _ _=>False) st' ∧
      input.Advanced c st st' ∧ ∀ p ∈ pre, input.scene.Inside p → ∀ d,
        input.scene.haloRank p c d ≤ input.ranks st' (p,c))
      ⟨h,.refl _,fun p hp=>absurd hp not_mem_nil⟩ fun pre p post st' hl hst'=>?_).mono
      fun st' hst'=>⟨hst'.1,hst'.2.1,fun p hp d=>?_⟩
    · obtain ⟨h₁,h₂,h₃⟩ := hst'
      have hp := contains_of_mem_surface (b := input.bounds) (q := p) (by rw [hl]; simp)
      refine (seedBoundaryCell_ensures hp hsky h₁).mono fun st'' hst''=>?_
      refine ⟨hst''.1,h₂.trans hst''.2.1,fun p' hp' hin d=>?_⟩
      rcases mem_append.1 hp' with hp' | hp'
      · exact (h₃ p' hp' hin d).trans (hst''.2.1.le _)
      · rw [mem_singleton.1 hp'] at hin ⊢
        exact hst''.2.2 hin d
    · by_cases hface : input.bounds.OnFace p
      · exact hst'.2.2 p (mem_surface hp.1 hface) hp d
      · rw [haloRank_of_not_onFace hp.1 hface]
        exact Nat.zero_le _

structure ChannelClosed (input : SolveInput) (c : LightChannel) (x : LightCell → ℕ) : Prop where
  halo : ∀ p, input.scene.Inside p → ∀ d, input.scene.haloRank p c d≤x (p,c)
  settled : ∀ p, input.scene.Inside p → ∀ d, input.scene.Inside (p.step (neighbours d)) →
    input.scene.carried c (opposite d) (input.scene.filterAt (p.step (neighbours d))) (x (p,c)) ≤
      x (p.step (neighbours d),c)

lemma spreadWork_le (st : Propagation) : input.spreadWork st ≤ st.queue.len+32*input.bounds.cells := by
  have hsum : ∑ cell ∈ input.region, (directRank-input.ranks st cell) ≤ input.region.card • directRank :=
    Finset.sum_le_card_nsmul _ _ _ fun cell _=>Nat.sub_le _ _
  have hcard := input.card_region
  rw [spreadWork,smul_eq_mul,directRank] at *
  omega

/-- Propagating a channel completes it and leaves the other alone. -/
lemma propagate_ensures (h : input.SpreadInv c (fun _ _=>False) st) : Ensures (Halt.Exceeds limits)
      (fun st'=>input.FieldInv st'.output st'.directPositions ∧ input.Advanced c st st' ∧
        input.ChannelClosed c (input.ranks st'))
      (propagate input.blocks input.prior input.bounds input.profile limits c st) := by
  refine Ensures.bind (seedBoundaryFromHalo_ensures h) fun st₁ hst₁=>?_
  obtain ⟨hinv,hadv,hhalo⟩ := hst₁
  have hinv' : input.SpreadInv c (fun _ _=>False)
      { st₁ with stats := { st₁.stats with queuePeak := max st₁.stats.queuePeak st₁.queue.len } } :=
    ⟨hinv.field,hinv.queue⟩
  refine (drain_ensures (I := fun st'=>input.SpreadInv c (fun _ _=>False) st' ∧
    input.Advanced c st₁ st') input.spreadWork ?_ ?_ ⟨hinv',⟨fun _ _=>rfl,fun _=>le_rfl⟩⟩
    (spreadWork_le _)).mono ?_
  · rintro st' ⟨entry,rest⟩ ⟨h',-⟩ hpop
    have := (pop_inv h' hpop).2.2.2.2.2
    omega
  · rintro st' entry rest ⟨h',hadv'⟩ hpop
    refine (increaseEntry_ensures h' hpop).mono fun st'' hst''=>?_
    exact ⟨⟨hst''.1,hadv'.trans hst''.2.1⟩,hst''.2.2⟩
  · rintro st' ⟨⟨h',hadv'⟩,hpop⟩
    refine ⟨h'.field,hadv.trans hadv',fun p hp d=>(hhalo p hp d).trans (hadv'.le _), fun p hp d hd=>?_⟩
    have hempty : st'.queue.entries = [] := by
      rw [← IncreaseQueue.popFront_eq_none]
      simpa [Propagation.pop] using hpop
    have hpend : ¬st'.queue.pending (input.idx p) ≠ 0 := by
      rw [st'.queue.pending_iff,hempty]
      exact not_mem_nil
    exact ((h'.queue.settled p hp).resolve_left hpend d hd).resolve_left id

end SolveInput

end Cinnabar.Light
