import Cinnabar.Light.Exact

/-! # The shape of solved light -/

namespace Cinnabar.Light

open LightBounds Relaxation Finset

namespace Scene

variable {scene : Scene} {x : LightCell → ℕ} {c : LightChannel}

variable {d : Fin 6}

lemma carried_eq_direct {f r : ℕ} (h : directRank ≤ scene.carried c d f r) :
    c = .sky ∧ scene.profile.directSkyDown=true ∧ d=above ∧ directRank ≤ r ∧ f=0 := by
  by_contra hnot
  rw [carried_of_not_direct hnot] at h
  unfold directRank at h
  omega

lemma haloRank_eq {p : BlockPos} (h : 0 < scene.haloRank p c d) :
    ∃ q level direct, p.checkedOffset (neighbours d) = some q ∧ ¬scene.bounds.Contains q ∧
      (scene.blocks.sample q).filter≠none ∧ ¬(c = .sky ∧ scene.profile.allowsSky=false) ∧
      scene.halo q c=some (level,direct) ∧
      scene.haloRank p c d=scene.carried c d (scene.filterAt p) (rank level direct) := by
  rw [haloRank] at h ⊢
  cases hq : p.checkedOffset (neighbours d) with
  | none => simp [hq] at h
  | some q =>
    simp only [hq] at h ⊢
    split_ifs at h ⊢ with hout
    · exact absurd h (Nat.lt_irrefl _)
    · simp only [not_or] at hout
      cases hh : scene.halo q c with
      | none => simp [hh] at h
      | some parts =>
        exact ⟨q,parts.1,parts.2,rfl,hout.1,hout.2.1,hout.2.2,hh,rfl⟩

lemma solution_supported (hx : scene.system.IsSolution x) {p : BlockPos}
    (h : 0<x (p,c)) : scene.Inside p ∧ (x (p,c) ≤ scene.baseRank p c ∨ (∃ d, x (p,c) ≤ scene.haloRank p c d) ∨
      ∃ d, scene.Inside (p.step (neighbours d)) ∧
        x (p,c) ≤ scene.carried c d (scene.filterAt p) (x (p.step (neighbours d),c))) := by
  have hpred : x (p,c)-1<x (p,c) := by omega
  rcases hx.supported hpred with hs | ⟨⟨q,cq⟩,hs⟩
  · have hle : x (p,c) ≤ scene.system.source (p,c) := by omega
    simp only [system] at hle
    split_ifs at hle with hp
    · refine ⟨hp,?_⟩
      rcases le_max_iff.1 hle with hb | hh
      · exact .inl hb
      · obtain ⟨d,-,hd⟩ := exists_mem_eq_sup Finset.univ univ_nonempty (scene.haloRank p c)
        exact .inr (.inl ⟨d,hd ▸ hh⟩)
    · omega
  · have hle : x (p,c) ≤ scene.system.flow (q,cq) (p,c) (x (q,cq)) := by omega
    simp only [system] at hle
    obtain ⟨d,-,hd⟩ := exists_mem_eq_sup Finset.univ univ_nonempty
      (fun i : Fin 6=>if p.step (neighbours i) = q ∧ c=cq ∧ scene.Inside q ∧ scene.Inside p then
        scene.carried c i (scene.filterAt p) (x (q,cq)) else 0)
    rw [hd] at hle
    split_ifs at hle with hcond
    · obtain ⟨rfl,rfl,hq,hp⟩ := hcond
      exact ⟨hp,.inr (.inr ⟨d,hq,hle⟩)⟩
    · omega

section
variable (hseed : ∀ p, scene.bounds.Contains p → scene.blocks.skySeed p≤15)
  (hx : scene.system.IsSolution x)
include hseed hx

lemma solution_le (cell : LightCell) : x cell≤directRank := by
  obtain ⟨p,c⟩ := cell
  rcases Nat.eq_zero_or_pos (x (p,c)) with hz | hpos
  · exact hz.le.trans (Nat.zero_le _)
  · obtain ⟨hp,hb | ⟨d,hd⟩ | ⟨d,-,hd⟩⟩ := solution_supported hx hpos
    · exact hb.trans (rank_le (base_le hseed hp.1 c) _)
    · obtain ⟨_,_,_,-,-,-,-,-,heq⟩ := haloRank_eq (hpos.trans_le hd)
      exact hd.trans (heq.le.trans (carried_le _ _ _ _))
    · exact hd.trans (carried_le _ _ _ _)

lemma solution_direct {p : BlockPos} {c : LightChannel} (h : x (p,c) = directRank) :
    c = .sky ∧ scene.profile.directSkyDown=true ∧ scene.Inside p ∧ scene.filterAt p=0 ∧
      (scene.base p .sky=15 ∨ directRank ≤ scene.haloRank p .sky above ∨ scene.Inside (p.step (neighbours above)) ∧
          x (p.step (neighbours above),.sky) = directRank) := by
  have hpos : 0<x (p,c) := by
    rw [h]
    unfold directRank
    omega
  obtain ⟨hp,hb | ⟨d,hd⟩ | ⟨d,hq,hd⟩⟩ := solution_supported hx hpos
  · rw [h,baseRank,rank] at hb
    have hb15 := base_le hseed hp.1 c
    split_ifs at hb with hdir
    · simp only [Bool.and_eq_true,beq_iff_eq,decide_eq_true_eq] at hdir
      obtain ⟨⟨rfl,hdown⟩,h15⟩ := hdir
      exact ⟨rfl,hdown,hp,filterAt_of_base hseed hp.1 h15,.inl h15⟩
    · unfold directRank at hb
      omega
  · obtain ⟨_,_,_,-,-,-,-,-,heq⟩ := haloRank_eq (hpos.trans_le hd)
    have hd16 : directRank ≤ scene.haloRank p c d := h ▸ hd
    obtain ⟨rfl,hdown,rfl,-,hf⟩ := carried_eq_direct (heq ▸ hd16)
    exact ⟨rfl,hdown,hp,hf,.inr (.inl hd16)⟩
  · obtain ⟨rfl,hdown,rfl,h16,hf⟩ := carried_eq_direct (h ▸ hd)
    exact ⟨rfl,hdown,hp,hf,.inr (.inr ⟨hq,(solution_le hseed hx _).antisymm h16⟩)⟩

end

lemma haloRank_le (p : BlockPos) (c : LightChannel) (d : Fin 6) : scene.haloRank p c d≤directRank := by
  rcases Nat.eq_zero_or_pos (scene.haloRank p c d) with hz | hpos
  · exact hz.le.trans (Nat.zero_le _)
  · obtain ⟨_,_,_,-,-,-,-,-,heq⟩ := haloRank_eq hpos
    exact heq.le.trans (carried_le _ _ _ _)

/-- Full light everywhere is closed. -/
lemma closed_directRank (hseed : ∀ p, scene.bounds.Contains p → scene.blocks.skySeed p≤15) :
    scene.system.Closed fun _=>directRank := by
  refine ⟨fun cell=>source_le (fun hp=>?_) fun _ d=>haloRank_le _ _ d,fun s d=>?_⟩
  · exact rank_le (base_le hseed hp.1 _) _
  · exact flow_le fun i _ _ _ _=>carried_le _ _ _ _

lemma closed_without_sky (hsky : scene.profile.allowsSky=false) {y : LightCell → ℕ} (hy : scene.system.Closed y) :
    scene.system.Closed fun cell=>if cell.2 = .sky then 0 else y cell := by
  have hhalo : ∀ q d, scene.haloRank q .sky d=0 := by
    intro q d
    by_contra hne
    obtain ⟨_,_,_,-,-,-,hallow,-⟩ := haloRank_eq (Nat.pos_of_ne_zero hne)
    exact hallow ⟨rfl,hsky⟩
  constructor
  · rintro ⟨q,c⟩
    cases c with
    | block => exact hy.source_le _
    | sky =>
      refine source_le (fun _=>?_) fun _ d=>(hhalo q d).le
      simp [baseRank,base,hsky,rank]
  · rintro ⟨s,cs⟩ ⟨q,c⟩
    refine flow_le fun i hi hc hs hq=>?_
    subst hc hi
    cases c with
    | block => exact (le_flow hq hs _).trans (hy.flow_le _ _)
    | sky => simp

lemma solution_sky_zero (hx : scene.system.IsSolution x) (hsky : scene.profile.allowsSky=false)
    (p : BlockPos) : x (p,.sky) = 0 := by
  have := hx.2 (closed_without_sky hsky hx.1) (p,.sky)
  simpa using this

/-- The levels and provenance of a result rest on sources, the halo or other cells of it. -/
structure ValidProvenance (scene : Scene) (out : LightSolveOutput) : Prop where
  level : ∀ p, scene.Inside p → ∀ c, out.lightAt p c ≤ scene.base p c ∨ (∃ d, scene.Inside (p.step (neighbours d)) ∧
      out.lightAt p c ≤ incomingLevel (out.lightAt (p.step (neighbours d)) c) (scene.filterAt p) c
        scene.profile (neighbours d) (decide (c = .sky) &&
          out.hasDirectSkyProvenance scene.bounds.dimension (p.step (neighbours d)))) ∨
    ∃ d q level direct, p.checkedOffset (neighbours d) = some q ∧ ¬scene.bounds.Contains q ∧
      (scene.blocks.sample q).filter≠none ∧ scene.halo q c=some (level,direct) ∧
      out.lightAt p c ≤ incomingLevel level (scene.filterAt p) c scene.profile (neighbours d) direct
  direct : ∀ p, scene.bounds.Contains p → out.hasDirectSkyProvenance scene.bounds.dimension p=true →
    scene.Inside p ∧ scene.profile.directSkyDown=true ∧ out.lightAt p .sky=15 ∧ scene.filterAt p=0 ∧
      (scene.base p .sky=15 ∨ (scene.Inside (p.step (neighbours above)) ∧
          out.hasDirectSkyProvenance scene.bounds.dimension (p.step (neighbours above)) = true) ∨
        ∃ q, p.checkedOffset (neighbours above) = some q ∧ ¬scene.bounds.Contains q ∧
          (scene.blocks.sample q).filter≠none ∧ scene.halo q .sky=some (15,true))

lemma min_carried_le {f r level : ℕ} {direct : Bool}
    (hl : min r 15=level) (hd : c = .sky → directRank ≤ r → direct=true) :
    min (scene.carried c d f r) 15 ≤
      incomingLevel level f c scene.profile (neighbours d) direct := by
  by_cases hdir : c = .sky ∧ scene.profile.directSkyDown=true ∧ d=above ∧ directRank ≤ r ∧ f=0
  · obtain ⟨rfl,hdown,rfl,h16,rfl⟩ := hdir
    have hl' : level=15 := by
      unfold directRank at h16
      omega
    rw [incomingLevel,if_pos ⟨rfl,hdown,rfl,hl',hd rfl h16,rfl⟩]
    exact min_le_right _ _
  · rw [carried_of_not_direct hdir,hl,incomingLevel]
    split_ifs <;> omega

lemma validProvenance (hseed : ∀ p, scene.bounds.Contains p → scene.blocks.skySeed p≤15)
    (hx : scene.system.IsSolution x) {out : LightSolveOutput} (h : Shows scene.bounds out x) :
    scene.ValidProvenance out where
  level p hp c := by
    rw [(h p hp.1).1 c]
    rcases Nat.eq_zero_or_pos (x (p,c)) with hz | hpos
    · exact .inl (by simp [hz])
    obtain ⟨-,hb | ⟨d,hd⟩ | ⟨d,hq,hd⟩⟩ := solution_supported hx hpos
    · refine .inl ?_
      rw [← min_rank (base_le hseed hp.1 c) (decide (c = .sky) && scene.profile.directSkyDown)]
      exact min_le_min_right _ hb
    · obtain ⟨q,level,direct,hq,hout,hknown,-,hhalo,heq⟩ := haloRank_eq (hpos.trans_le hd)
      refine .inr (.inr ⟨d,q,level,direct,hq,hout,hknown,hhalo,?_⟩)
      refine (min_le_min_right _ (heq ▸ hd)).trans
        (min_carried_le (min_rank (scene.halo_le _ _ _ _ hhalo) direct) fun _ h16=>?_)
      have hl := scene.halo_le _ _ _ _ hhalo
      rw [rank] at h16
      split_ifs at h16 with hb
      · simp only [Bool.and_eq_true] at hb
        exact hb.1
      · unfold directRank at h16
        omega
    · refine .inr (.inl ⟨d,hq,?_⟩)
      rw [(h _ hq.1).1 c,(h _ hq.1).2]
      refine (min_le_min_right _ hd).trans (min_carried_le rfl fun hsky h16=>?_)
      subst hsky
      simp [(solution_le hseed hx _).antisymm h16]
  direct p hp hd := by
    rw [(h p hp).2,decide_eq_true_iff] at hd
    obtain ⟨-,hdown,hin,hf,hsup⟩ := solution_direct hseed hx hd
    refine ⟨hin,hdown,?_,hf,?_⟩
    · rw [(h p hp).1,hd]
      rfl
    · rcases hsup with hb | hh | ⟨hq,hq16⟩
      · exact .inl hb
      · have hpos : 0 < scene.haloRank p .sky above := lt_of_lt_of_le (by unfold directRank; omega) hh
        obtain ⟨q,level,direct,hq,hout,hknown,-,hhalo,heq⟩ := haloRank_eq hpos
        obtain ⟨-,-,-,h16,-⟩ := carried_eq_direct (heq ▸ hh)
        have hl := scene.halo_le _ _ _ _ hhalo
        rw [rank] at h16
        split_ifs at h16 with hb
        · simp only [Bool.and_eq_true,beq_iff_eq] at hb
          exact .inr (.inr ⟨q,hq,hout,hknown,by rw [hhalo,hb.1,hb.2]⟩)
        · unfold directRank at h16
          omega
      · refine .inr (.inl ⟨hq,?_⟩)
        rw [(h _ hq.1).2,decide_eq_true_iff]
        exact hq16

end Scene

end Cinnabar.Light
