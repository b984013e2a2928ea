import Cinnabar.Meshing.Occlusion

/-! # What is hidden

A box that is hidden has an opaque face on every segment from the eye into it.
-/

namespace Cinnabar.Meshing

open List Function

variable {eye low high point : Vec3} {axis : Fin 3} {positive : Bool} {σ : Type}
  {isOpaque : σ → Cell → Cell → Bool × σ} {p p' : Probes σ}

/-- The predicate is asked once for every two probes, and its answers are kept. -/
structure Spends (p p' : Probes σ) : Prop where
  charged : 2*p'.asked.length+p'.budget.remaining≤2*p.asked.length+p.budget.remaining
  kept : p.asked ⊆ p'.asked

lemma Spends.refl (p : Probes σ) : Spends p p := ⟨le_rfl,List.Subset.refl _⟩

lemma Spends.trans {p'' : Probes σ} (h : Spends p p') (h' : Spends p' p'') : Spends p p'' :=
  ⟨h'.charged.trans h.charged,fun _ hmem=>h'.kept (h.kept hmem)⟩

lemma charge_le (b : OcclusionBudget) : b.charge.2.remaining≤b.remaining := by
  unfold OcclusionBudget.charge
  split_ifs
  · exact le_rfl
  · exact Nat.sub_le _ _

lemma charge_paid {b : OcclusionBudget} (h : b.charge.1=true) : b.charge.2.remaining+1=b.remaining := by
  unfold OcclusionBudget.charge at h ⊢
  split_ifs at h ⊢ with hzero
  exact Nat.succ_pred_eq_of_pos (Nat.pos_of_ne_zero hzero)

lemma probeCell_spends (isOpaque : σ → Cell → Cell → Bool × σ) (cells : Cell × Cell) (p : Probes σ) :
    Spends p (probeCell isOpaque cells p).2 := by
  unfold probeCell
  dsimp only
  have hfirst := charge_le p.budget
  have hsecond := charge_le p.budget.charge.2
  split_ifs with hpaid hpaid'
  · exact ⟨Nat.add_le_add_left hfirst _,List.Subset.refl _⟩
  · exact ⟨Nat.add_le_add_left (hsecond.trans hfirst) _,List.Subset.refl _⟩
  · have hone := charge_paid (b := p.budget) (by simpa using hpaid)
    have htwo := charge_paid (b := p.budget.charge.2) (by simpa using hpaid')
    refine ⟨?_,fun entry h=>mem_append_left _ h⟩
    dsimp only
    rw [length_append,length_singleton]
    omega

lemma probeCell_asked {cells : Cell × Cell} (h : probeCell isOpaque cells p = (some true,p')) :
    (cells.1,cells.2,true) ∈ p'.asked := by
  unfold probeCell at h
  dsimp only at h
  split_ifs at h
  · cases h
  · cases h
  · obtain ⟨hanswer,rfl⟩ := Prod.mk.inj h
    rw [← Option.some.inj hanswer]
    exact mem_append_right _ (.head _)

lemma probeCells_spends (isOpaque : σ → Cell → Cell → Bool × σ) (face : ℤ × ℤ → Cell × Cell)
    (cells : List (ℤ × ℤ)) (p : Probes σ) :
    Spends p (probeCells isOpaque face cells p).2 := by
  induction cells generalizing p with
  | nil => exact .refl p
  | cons xy rest ih =>
    have hcell := probeCell_spends isOpaque (face xy) p
    unfold probeCells
    split
    next next heq =>
      rw [heq] at hcell
      exact hcell.trans (ih next)
    next => exact hcell

lemma probeCells_covered {face : ℤ × ℤ → Cell × Cell} {cells : List (ℤ × ℤ)}
    (h : probeCells isOpaque face cells p = (some true,p')) :
    ∀ xy ∈ cells, ((face xy).1,(face xy).2,true) ∈ p'.asked := by
  induction cells generalizing p with
  | nil => exact fun xy hxy=>absurd hxy not_mem_nil
  | cons first rest ih =>
    intro xy hxy
    unfold probeCells at h
    split at h
    next next heq =>
      have hrest := probeCells_spends isOpaque face rest next
      rw [h] at hrest
      rcases mem_cons.1 hxy with rfl | hxy
      · exact hrest.kept (probeCell_asked heq)
      · exact ih h xy hxy
    next hne => exact absurd h (hne p')

/-- The point at `t` on the way from the eye. -/
def onSegment (eye point : Vec3) (t : ℚ) : Vec3 := fun i=>eye i+t * (point i-eye i)

def InCell (cell : Cell) (q : Vec3) : Prop := ∀ i, (cell i : ℚ) ≤ q i ∧ q i ≤ cell i+1

/-- The open segment from the eye passes the face of `position` shared with its neighbour
toward the eye, at `t`. -/
structure Crosses (eye point : Vec3) (position neighbour : Cell) (axis : Fin 3) (t : ℚ) :
    Prop where
  between : 0<t ∧ t<1
  inPosition : InCell position (onSegment eye point t)
  inNeighbour : InCell neighbour (onSegment eye point t)
  front : (neighbour=update position axis (position axis-1) ∧ eye axis<onSegment eye point t axis) ∨
    (neighbour=update position axis (position axis+1) ∧ onSegment eye point t axis<eye axis)

def BeforeBox (eye low high : Vec3) (axis : Fin 3) (plane : ℚ) : Prop :=
  (eye axis<plane ∧ plane<low axis) ∨ (high axis<plane ∧ plane<eye axis)

structure Tested (eye low high : Vec3) (axis : Fin 3) (positive : Bool) (cell : ℤ) : Prop where
  gap : if positive then eye axis+1≤planeAt positive cell
    else planeAt positive cell≤eye axis-1
  before : if positive then planeAt positive cell+1<low axis
    else high axis<planeAt positive cell-1
  near : |planeAt positive cell-eye axis| ≤ 66

/-- A face cell lies in its plane at the place asked about. -/
lemma faceCells_fst (axis : Fin 3) (positive : Bool) (cell : ℤ) (xy : ℤ × ℤ) :
    (faceCells axis positive cell xy).1 axis=cell ∧ (faceCells axis positive cell xy).1 (axis+1) = xy.1 ∧
      (faceCells axis positive cell xy).1 (axis+2) = xy.2 := by
  have hnext : ∀ axis : Fin 3, axis+1≠axis ∧ axis+2≠axis ∧ axis+2≠axis+1 := by decide
  obtain ⟨hone,htwo,hboth⟩ := hnext axis
  unfold faceCells
  dsimp only
  rw [if_pos rfl,if_neg hone,if_pos rfl,if_neg htwo,if_neg hboth]
  exact ⟨rfl,rfl,rfl⟩

lemma faceCells_snd (axis : Fin 3) (positive : Bool) (cell : ℤ) (xy : ℤ × ℤ) :
    (faceCells axis positive cell xy).2=update (faceCells axis positive cell xy).1 axis
        (cell + if positive then -1 else 1) := rfl

lemma fin_three (axis : Fin 3) (i : Fin 3) : i=axis ∨ i=axis+1 ∨ i=axis+2 := by
  revert axis i
  decide

lemma inCell_floor (v : ℚ) : (⌊v⌋ : ℚ) ≤ v ∧ v ≤ ⌊v⌋ + 1 :=
  ⟨Int.floor_le v,(Int.lt_floor_add_one v).le⟩

variable {cell : ℤ}

lemma Tested.reaches (h : Tested eye low high axis positive cell) (hpoint : InBox low high point) :
    ∃ t, 0<t ∧ t<1 ∧ ∀ i, onSegment eye point t i=eye i +
      (planeAt positive cell-eye axis) * ((point i-eye i) / (point axis-eye axis)) := by
  obtain ⟨hlow,hhigh⟩ := hpoint axis
  have hgap := h.gap
  have hbefore := h.before
  refine ⟨(planeAt positive cell-eye axis) / (point axis-eye axis),?_,?_,fun i=>?_⟩
  · cases positive with
    | true =>
      rw [if_pos rfl] at hgap hbefore
      exact div_pos (by linarith) (by linarith)
    | false =>
      rw [if_neg Bool.false_ne_true] at hgap hbefore
      exact div_pos_of_neg_of_neg (by linarith) (by linarith)
  · cases positive with
    | true =>
      rw [if_pos rfl] at hgap hbefore
      exact (div_lt_one (by linarith)).2 (by linarith)
    | false =>
      rw [if_neg Bool.false_ne_true] at hgap hbefore
      exact (div_lt_one_of_neg (by linarith)).2 (by linarith)
  · unfold onSegment
    ring

/-- A covered plane is crossed by every segment into the box. -/
lemma Tested.crosses (h : Tested eye low high axis positive cell) (hbeside : Beside eye low high axis positive)
    (hlimit : ∀ i, |eye i| ≤ coordinateLimit ∧ |low i| ≤ coordinateLimit ∧
      |high i| ≤ coordinateLimit)
    (hpoint : InBox low high point) :
    ∃ xy ∈ planeCells eye low high axis positive cell, ∃ t,
      Crosses eye point (faceCells axis positive cell xy).1 (faceCells axis positive cell xy).2 axis t ∧
        BeforeBox eye low high axis (onSegment eye point t axis) ∧
        occlusionEyeGapBlocks ≤ |onSegment eye point t axis-eye axis| := by
  obtain ⟨t,ht,ht',hsegment⟩ := h.reaches hpoint
  obtain ⟨hlow,hhigh⟩ := hpoint axis
  have hgap := h.gap
  have hbefore := h.before
  have hdepth : point axis-eye axis≠0 := by
    cases positive with
    | true =>
      rw [if_pos rfl] at hgap hbefore
      exact ne_of_gt (by linarith)
    | false =>
      rw [if_neg Bool.false_ne_true] at hgap hbefore
      exact ne_of_lt (by linarith)
  have hplane : onSegment eye point t axis=planeAt positive cell := by
    rw [hsegment,div_self hdepth]
    ring
  have hside : if positive then 0≤planeAt positive cell-eye axis
      else planeAt positive cell-eye axis≤0 := by
    split_ifs at hgap ⊢
    · linarith
    · linarith
  have hacross := silhouette_mem (a := axis+1) hbeside hlimit hpoint hside h.near
  have halong := silhouette_mem (a := axis+2) hbeside hlimit hpoint hside h.near
  rw [← hsegment] at hacross halong
  let xy : ℤ × ℤ := (⌊onSegment eye point t (axis+1)⌋,⌊onSegment eye point t (axis+2)⌋)
  have hmem : xy ∈ planeCells eye low high axis positive cell := by
    refine mem_product.2 ⟨Int.mem_range_iff.2 ?_,Int.mem_range_iff.2 ?_⟩
    · exact ⟨hacross.1,Int.lt_add_one_of_le hacross.2⟩
    · exact ⟨halong.1,Int.lt_add_one_of_le halong.2⟩
  obtain ⟨hcell,hx,hy⟩ := faceCells_fst axis positive cell xy
  have hposition : InCell (faceCells axis positive cell xy).1 (onSegment eye point t) := by
    intro i
    rcases fin_three axis i with rfl | rfl | rfl
    · rw [hcell,hplane]
      unfold planeAt
      cases positive <;> simp
    · rw [hx]
      exact inCell_floor _
    · rw [hy]
      exact inCell_floor _
  have hneighbour : InCell (faceCells axis positive cell xy).2 (onSegment eye point t) := by
    intro i
    by_cases hi : i=axis
    · subst hi
      have hfront : (faceCells i positive cell xy).2 i=cell + if positive then -1 else 1 := by
        rw [faceCells_snd,update_self]
      rw [hfront,hplane]
      unfold planeAt
      cases positive <;> simp
    · have hsame : (faceCells axis positive cell xy).2 i = (faceCells axis positive cell xy).1 i := by
        rw [faceCells_snd,update_of_ne hi]
      rw [hsame]
      exact hposition i
  refine ⟨xy,hmem,t,⟨⟨ht,ht'⟩,hposition,hneighbour,?_⟩,?_,?_⟩
  · rw [hcell,hplane]
    cases positive with
    | true =>
      rw [if_pos rfl] at hgap
      exact .inl ⟨rfl,by linarith⟩
    | false =>
      rw [if_neg Bool.false_ne_true] at hgap
      exact .inr ⟨rfl,by linarith⟩
  · cases positive with
    | true =>
      rw [if_pos rfl] at hgap hbefore
      exact .inl ⟨by linarith,by linarith⟩
    | false =>
      rw [if_neg Bool.false_ne_true] at hgap hbefore
      exact .inr ⟨by linarith,by linarith⟩
  · unfold occlusionEyeGapBlocks
    cases positive with
    | true =>
      rw [if_pos rfl] at hgap
      exact le_abs.2 (.inl (by push_cast; linarith))
    | false =>
      rw [if_neg Bool.false_ne_true] at hgap
      exact le_abs.2 (.inr (by push_cast; linarith))

lemma probePlanes_spends (isOpaque : σ → Cell → Cell → Bool × σ) (first : ℤ) (left step : ℕ) (p : Probes σ) :
    Spends p (probePlanes isOpaque eye low high axis positive first left step p).2 := by
  induction left generalizing step p with
  | zero => exact .refl p
  | succ left ih =>
    have hcharge : Spends p { p with budget := p.budget.charge.2 } :=
      ⟨Nat.add_le_add_left (charge_le p.budget) _,List.Subset.refl _⟩
    unfold probePlanes
    dsimp only
    split_ifs
    · exact hcharge
    · exact hcharge
    · have hcells := hcharge.trans (probeCells_spends isOpaque (faceCells axis positive (cellAt positive first step))
        (planeCells eye low high axis positive (cellAt positive first step)) _)
      split
      next heq =>
        rw [heq] at hcells
        exact hcells
      next heq =>
        rw [heq] at hcells
        exact hcells
      next heq =>
        rw [heq] at hcells
        exact hcells.trans (ih (step+1) _)

def Starts (eye : Vec3) (axis : Fin 3) : Bool → ℤ → Prop
  | true, first => eye axis+1≤first ∧ (first : ℚ) ≤ eye axis+2
  | false, first => (first+1 : ℚ) ≤ eye axis-1 ∧ eye axis-2≤first+1

lemma Starts.tested {first : ℤ} {step : ℕ} (h : Starts eye axis positive first) (hstep : step < maxPlanes)
    (hbefore : ¬reachesBox low high axis positive (cellAt positive first step) = true) :
    Tested eye low high axis positive (cellAt positive first step) := by
  have hfar : (step : ℚ) ≤ 63 := by
    exact_mod_cast Nat.le_of_lt_succ hstep
  unfold reachesBox cellAt at hbefore
  cases positive with
  | true =>
    obtain ⟨hlow,hhigh⟩ := h
    simp only [if_true,Bool.true_and,Bool.not_true,Bool.false_and,Bool.or_false, decide_eq_true_eq,not_le] at hbefore
    push_cast at hbefore
    have hplane : planeAt true (cellAt true first step) = first+step := by
      simp [planeAt,cellAt]
    refine ⟨?_,?_,?_⟩
    · rw [if_pos rfl,hplane]
      linarith
    · rw [if_pos rfl,hplane]
      linarith
    · exact abs_le.2 ⟨by linarith,by linarith⟩
  | false =>
    obtain ⟨hhigh,hlow⟩ := h
    simp only [Bool.false_eq_true,if_false,Bool.false_and,Bool.not_false,Bool.true_and,
      Bool.false_or,decide_eq_true_eq,not_le] at hbefore
    push_cast at hbefore
    have hplane : planeAt false (cellAt false first step) = first-step+1 := by
      simp [planeAt,cellAt]
      ring
    refine ⟨?_,?_,?_⟩
    · rw [if_neg Bool.false_ne_true,hplane]
      linarith
    · rw [if_neg Bool.false_ne_true,hplane]
      linarith
    · exact abs_le.2 ⟨by linarith,by linarith⟩

lemma probePlanes_hidden {first : ℤ} {left step : ℕ} (hstart : Starts eye axis positive first)
    (hleft : left+step=maxPlanes)
    (h : probePlanes isOpaque eye low high axis positive first left step p = (true,p')) :
    ∃ cell, Tested eye low high axis positive cell ∧ ∀ xy ∈ planeCells eye low high axis positive cell,
        ((faceCells axis positive cell xy).1,(faceCells axis positive cell xy).2,true) ∈
          p'.asked := by
  induction left generalizing step p with
  | zero => cases h
  | succ left ih =>
    unfold probePlanes at h
    dsimp only at h
    by_cases hunpaid : (!p.budget.charge.1) = true
    · rw [if_pos hunpaid] at h
      cases h
    rw [if_neg hunpaid] at h
    by_cases hpast : reachesBox low high axis positive (cellAt positive first step) = true
    · rw [if_pos hpast] at h
      cases h
    rw [if_neg hpast] at h
    have htested := hstart.tested (by omega) hpast
    split at h
    next => cases h
    next heq =>
      cases h
      exact ⟨_,htested,probeCells_covered heq⟩
    next => exact ih (by omega) h

lemma starts_first (eye : Vec3) (axis : Fin 3) (heye : |eye axis| ≤ coordinateLimit) (positive : Bool) :
    Starts eye axis positive (firstCell eye axis positive) := by
  have hfloor : asI32 ⌊eye axis⌋ = ⌊eye axis⌋ := asI32_floor (heye.trans (by
    unfold coordinateLimit
    norm_num))
  unfold firstCell occlusionEyeGapBlocks
  cases positive with
  | true =>
    rw [if_pos rfl,asI32_ceil heye]
    have hle := Int.le_ceil (eye axis)
    have hlt := (Int.ceil_lt_add_one (eye axis)).le
    constructor <;> push_cast <;> linarith
  | false =>
    rw [if_neg Bool.false_ne_true,hfloor]
    have hle := Int.floor_le (eye axis)
    have hlt := (Int.lt_floor_add_one (eye axis)).le
    constructor <;> push_cast <;> linarith

/-- Calls are paid for by two probes each, and a hidden box has an opaque face, asked about in the
call, across every open segment from the eye into it: at the gap from the eye or past it, and
strictly before the box. -/
theorem hidesBox_sound (isOpaque : σ → Cell → Cell → Bool × σ) (eye low high : Vec3)
    (budget : OcclusionBudget) (state : σ) :
    2 * (hidesBox isOpaque eye low high ⟨budget,state,[]⟩).2.asked.length +
        (hidesBox isOpaque eye low high ⟨budget,state,[]⟩).2.budget.remaining ≤
      budget.remaining ∧
    ((hidesBox isOpaque eye low high ⟨budget,state,[]⟩).1=true →
      ∀ point, InBox low high point → ∃ position neighbour axis t, (position,neighbour,true) ∈
            (hidesBox isOpaque eye low high ⟨budget,state,[]⟩).2.asked ∧
          Crosses eye point position neighbour axis t ∧
          BeforeBox eye low high axis (onSegment eye point t axis) ∧
          occlusionEyeGapBlocks ≤ |onSegment eye point t axis-eye axis|) := by
  unfold hidesBox
  dsimp only
  split_ifs with hinvalid hnear
  · exact ⟨by simp,fun h => nomatch h⟩
  · exact ⟨by simp,fun h => nomatch h⟩
  · have hlimit : ∀ i, |eye i| ≤ coordinateLimit ∧ |low i| ≤ coordinateLimit ∧
        |high i| ≤ coordinateLimit := by
      intro i
      by_contra hover
      refine hinvalid (.inl ⟨i,?_⟩)
      by_contra hwithin
      simp only [not_or,not_lt] at hwithin
      exact hover hwithin
    have hstart := starts_first eye (farthestAxis eye low high) (hlimit _).1
      (decide (eye (farthestAxis eye low high) < low (farthestAxis eye low high)))
    refine ⟨(probePlanes_spends isOpaque _ maxPlanes 0 _).charged.trans_eq (Nat.zero_add _),
      fun hhides point hpoint => ?_⟩
    have hbeside := beside_of_distance eye low high (farthestAxis eye low high) ((hpoint _).1.trans (hpoint _).2) (by
        unfold occlusionEyeGapBlocks at hnear
        push_cast at hnear
        linarith)
    obtain ⟨cell,htested,hcovered⟩ := probePlanes_hidden hstart (Nat.add_zero _) (Prod.ext hhides rfl)
    obtain ⟨xy,hxy,t,hcrosses⟩ := htested.crosses hbeside hlimit hpoint
    exact ⟨_,_,_,t,hcovered xy hxy,hcrosses⟩

/-- Solid ground before the box. -/
theorem hidesBox_solid : (hidesBox (fun (_ : Unit) _ _ => (true,())) ![1/2,9/2,1/2] ![10,3,-1] ![11,6,2]
        ⟨{},(),[]⟩).1=true ∧
      ∃ position neighbour axis t, (position,neighbour,true) ∈ (hidesBox (fun (_ : Unit) _ _ => (true,()))
            ![1/2,9/2,1/2] ![10,3,-1] ![11,6,2] ⟨{},(),[]⟩).2.asked ∧
          Crosses ![1/2,9/2,1/2] ![10,3,0] position neighbour axis t := by
  have hhides : (hidesBox (fun (_ : Unit) _ _ => (true,())) ![1/2,9/2,1/2] ![10,3,-1]
      ![11,6,2] ⟨{},(),[]⟩).1=true := by decide +kernel
  have hinside : InBox ![10,3,-1] ![11,6,2] ![10,3,0] := by
    intro i
    fin_cases i <;> norm_num
  obtain ⟨position,neighbour,axis,t,hasked,hcrosses,-⟩ :=
    (hidesBox_sound (fun (_ : Unit) _ _ => (true,())) ![1/2,9/2,1/2] ![10,3,-1] ![11,6,2] {} ()).2 hhides _ hinside
  exact ⟨hhides,position,neighbour,axis,t,hasked,hcrosses⟩

/-- From an eye on a cell border a face at exactly the gap hides. -/
theorem hidesBox_at_gap : (hidesBox (fun (_ : Unit) _ _ => (true,())) ![0,1/2,1/2] ![5,1/2,1/2]
        ![5,1/2,1/2] ⟨{},(),[]⟩).1=true ∧
      InBox ![5,1/2,1/2] ![5,1/2,1/2] ![5,1/2,1/2] ∧
      ¬∃ position neighbour axis t, (position,neighbour,true) ∈ (hidesBox (fun (_ : Unit) _ _ => (true,()))
            ![0,1/2,1/2] ![5,1/2,1/2] ![5,1/2,1/2] ⟨{},(),[]⟩).2.asked ∧
          Crosses ![0,1/2,1/2] ![5,1/2,1/2] position neighbour axis t ∧
          occlusionEyeGapBlocks <
            |onSegment ![0,1/2,1/2] ![5,1/2,1/2] t axis -
              ![0,1/2,1/2] axis| := by
  refine ⟨by decide +kernel,fun i => ⟨le_rfl,le_rfl⟩,?_⟩
  rintro ⟨position,neighbour,axis,t,hasked,hcrosses,hfar⟩
  have hall : ∀ entry ∈ (hidesBox (fun (_ : Unit) _ _ => (true,())) ![0,1/2,1/2]
      ![5,1/2,1/2] ![5,1/2,1/2] ⟨{},(),[]⟩).2.asked,
      entry.1 0=1 ∧ entry.2.1 0=0 := by decide +kernel
  obtain ⟨hposition,hneighbour⟩ := hall _ hasked
  dsimp only at hposition hneighbour
  -- only the first axis tells the two cells apart
  have haxis : axis=0 := by
    by_contra hne
    have hsame : neighbour 0 = position 0 := by
      rcases hcrosses.front with ⟨hfront,-⟩ | ⟨hfront,-⟩
      · rw [hfront,Function.update_of_ne (Ne.symm hne)]
      · rw [hfront,Function.update_of_ne (Ne.symm hne)]
    rw [hposition,hneighbour] at hsame
    cases hsame
  subst haxis
  have hfrom := (hcrosses.inPosition 0).1
  have hto := (hcrosses.inNeighbour 0).2
  rw [hposition] at hfrom
  rw [hneighbour] at hto
  unfold occlusionEyeGapBlocks at hfar
  rw [show onSegment ![0,1/2,1/2] ![5,1/2,1/2] t 0=1 by linarith] at hfar
  norm_num at hfar

end Cinnabar.Meshing
