import Cinnabar.Light.Full
import Cinnabar.Light.Exact

/-! # The padded grid -/

namespace Cinnabar.Light

open LightBounds Relaxation List Function

/-- A read at `x * m + r` of equally long rows is a read at `r` of row `x`. -/
lemma getElem?_flatMap_range {α : Type} {n m : ℕ} {f : ℕ → List α}
    (hlen : ∀ x, (f x).length=m) {x r : ℕ} (hx : x<n) (hr : r < m) :
    ((List.range n).flatMap f)[x*m+r]? = (f x)[r]? := by
  have hflat : ∀ k, ((List.range k).flatMap f).length=k*m := by
    intro k
    induction k with
    | zero => simp
    | succ k ih => rw [range_succ,flatMap_append,length_append,ih]; simp [hlen]; ring
  induction n with
  | zero => omega
  | succ n ih =>
    rw [range_succ,flatMap_append]
    rcases Nat.lt_succ_iff_lt_or_eq.1 hx with hlt | rfl
    · have hbound : x*m+r<n*m := by
        have := Nat.mul_le_mul_right m hlt
        rw [Nat.succ_mul] at this
        omega
      rw [List.getElem?_append_left (by rw [hflat]; exact hbound)]
      exact ih hlt
    · rw [List.getElem?_append_right (by rw [hflat]; omega),hflat]
      simp

namespace LightBounds

variable (b : LightBounds)

/-- The bounds and the shell of one cell around them. -/
abbrev Around (p : BlockPos) : Prop :=
  b.min.x-1≤p.x ∧ p.x≤b.max.x+1 ∧ b.min.y-1≤p.y ∧ p.y≤b.max.y+1 ∧ b.min.z-1≤p.z ∧ p.z≤b.max.z+1

/-- The padded index of a cell of the bounds or their shell. -/
def pad (p : BlockPos) : ℕ :=
  ((p.x-b.min.x+1).toNat * (b.yLen+2) + (p.y-b.min.y+1).toNat) * (b.zLen+2) + (p.z-b.min.z+1).toNat

variable {b} {p : BlockPos}

lemma Contains.around (h : b.Contains p) : b.Around p := by
  exact ⟨by omega,by omega,by omega,by omega,by omega,by omega⟩

lemma Contains.around_step (h : b.Contains p) (d : Fin 6) : b.Around (p.step (neighbours d)) := by
  match d with
  | 0 | 1 | 2 | 3 | 4 | 5 =>
    simp only [neighbours,BlockPos.step,Matrix.cons_val,Around]
    omega

lemma pad_inj {p q : BlockPos} (hp : b.Around p) (hq : b.Around q) (h : b.pad p=b.pad q) : p=q := by
  obtain ⟨p1,p2,p3,p4,p5,p6⟩ := hp
  obtain ⟨q1,q2,q3,q4,q5,q6⟩ := hq
  obtain ⟨hxy,hzz⟩ := digits_inj (by unfold zLen; omega) (by unfold zLen; omega) h
  obtain ⟨hxx,hyy⟩ := digits_inj (by unfold yLen; omega) (by unfold yLen; omega) hxy
  cases p; cases q
  simp only [BlockPos.mk.injEq] at *
  omega

lemma index_eq_pad (h : b.Contains p) : (Grid.new b).index (p.x-b.min.x).toNat (p.y-b.min.y).toNat (p.z-b.min.z).toNat =
      b.pad p := by
  have hx : (p.x-b.min.x+1).toNat = (p.x-b.min.x).toNat+1 := by omega
  have hy : (p.y-b.min.y+1).toNat = (p.y-b.min.y).toNat+1 := by omega
  have hz : (p.z-b.min.z+1).toNat = (p.z-b.min.z).toNat+1 := by omega
  rw [pad,hx,hy,hz,Grid.index,Grid.new]
  ring

lemma pad_cast (h : b.Around p) : (b.pad p : ℤ) = ((p.x-b.min.x+1) * (b.yLen+2) + (p.y-b.min.y+1)) * (b.zLen+2) +
      (p.z-b.min.z+1) := by
  have hx : ((p.x-b.min.x+1).toNat : ℤ) = p.x-b.min.x+1 := by omega
  have hy : ((p.y-b.min.y+1).toNat : ℤ) = p.y-b.min.y+1 := by omega
  have hz : ((p.z-b.min.z+1).toNat : ℤ) = p.z-b.min.z+1 := by omega
  rw [pad]
  push_cast
  rw [hx,hy,hz]

lemma next_pad (h : b.Contains p) (d : Fin 6) : (Grid.new b).next (b.pad p) d=b.pad (p.step (neighbours d)) := by
  have hq := pad_cast (h.around_step d)
  have hstep : (b.pad p : ℤ) + (Grid.new b).steps d=b.pad (p.step (neighbours d)) := by
    rw [pad_cast h.around,hq]
    match d with
    | 0 | 1 | 2 | 3 | 4 | 5 =>
      simp only [Grid.steps,Grid.new,neighbours,BlockPos.step,Matrix.cons_val]
      push_cast
      ring
  rw [Grid.next,hstep]
  exact Int.toNat_natCast _

lemma mem_cells {cell : ℕ} : cell ∈ (Grid.new b).cells ↔ ∃ p, b.Contains p ∧ cell=b.pad p := by
  simp only [Grid.cells,mem_flatMap,mem_map,mem_range]
  constructor
  · rintro ⟨x,hx',y,hy',z,hz',rfl⟩
    simp only [Grid.new,xLen,yLen,zLen] at hx' hy' hz'
    have hc : b.Contains ⟨b.min.x+x,b.min.y+y,b.min.z+z⟩ :=
      ⟨by simp,by simp only; omega,by simp,by simp only; omega,by simp,by simp only; omega⟩
    refine ⟨_,hc,?_⟩
    rw [← index_eq_pad hc]
    simp [Grid.index]
    omega
  · rintro ⟨p,hp,rfl⟩
    refine ⟨_,dx_lt hp,_,dy_lt hp,_,dz_lt hp,?_⟩
    rw [← index_eq_pad hp]
    simp only [Grid.index,dx,dy,dz]
    omega

lemma cells_getElem? (h : b.Contains p) : (Grid.new b).cells[b.denseIndex p]? = some (b.pad p) := by
  have hrow : ∀ x, ((List.range b.yLen).flatMap fun y =>
      (List.range b.zLen).map fun z=>(Grid.new b).index x y 0+z).length=b.yLen*b.zLen := by
    simp [length_flatMap]
  have hidx : b.denseIndex p=b.dx p * (b.yLen*b.zLen) + (b.dy p*b.zLen+b.dz p) := by
    rw [denseIndex]
    ring
  have hlt : b.dy p*b.zLen+b.dz p<b.yLen*b.zLen := by
    have h1 := dz_lt h
    have h2 := Nat.mul_le_mul_right b.zLen (dy_lt h)
    rw [Nat.succ_mul] at h2
    omega
  rw [Grid.cells,hidx,Grid.new_xLen,Grid.new_yLen,Grid.new_zLen, getElem?_flatMap_range hrow (dx_lt h) hlt]
  rw [getElem?_flatMap_range (m := b.zLen) (fun y=>by simp) (dy_lt h) (dz_lt h)]
  rw [List.getElem?_map,List.getElem?_range (dz_lt h),Option.map_some,← index_eq_pad h]
  simp only [Grid.index,dx,dy,dz,Option.some.injEq]
  omega

lemma cells_length : (Grid.new b).cells.length=b.cells := by
  simp [Grid.cells,Grid.new,length_flatMap,cells]
  ring

end LightBounds

namespace FullSolveScratch

def values (full : FullSolveScratch) : LightChannel → ℕ → ℕ
  | .block => full.block
  | .sky => full.sky

end FullSolveScratch

namespace SolveInput

variable {input : SolveInput} {E : Halt → Prop}

abbrev pad (input : SolveInput) (p : BlockPos) : ℕ := input.bounds.pad p

variable {p : BlockPos}

lemma filterAt_le (hp : input.scene.Inside p) : input.scene.filterAt p≤15 :=
  LightBlockSample.filter_le (filter_eq_some hp.2)

/-- The filter grid opens exactly the known in-bounds cells. -/
def FilterRead (input : SolveInput) (filter : ℕ → ℕ) : Prop :=
  ∀ p, input.bounds.Around p → filter (input.pad p) = if input.scene.Inside p then input.scene.filterAt p else blocked

lemma FilterRead.ne_blocked {filter : ℕ → ℕ} (h : input.FilterRead filter)
    (hp : input.bounds.Around p) : filter (input.pad p) ≠ blocked ↔ input.scene.Inside p := by
  rw [h p hp]
  split_ifs with hin
  · have := filterAt_le hin
    exact iff_of_true (by unfold blocked; omega) hin
  · exact iff_of_false (fun h=>h rfl) hin

/-- The grids hold the blocks of the bounds and nothing else. -/
structure GridRead (input : SolveInput) (full : FullSolveScratch) : Prop where
  filter : input.FilterRead full.filter
  value : ∀ p, input.bounds.Around p → ∀ c, full.values c (input.pad p) =
    if input.scene.Inside p then input.scene.base p c else 0
  direct : full.direct = fun _=>false
  directAbove : full.directAbove = fun _=>false

variable {key : SubChunkKey}

lemma mem_sectionedCells (h : (key,p) ∈ sectionedCells input.bounds) :
    p ∈ MutableOutput.sectionCells input.bounds key := by
  simp only [sectionedCells,mem_flatMap,mem_map,Prod.mk.injEq] at h
  obtain ⟨key',-,p',hp',rfl,rfl⟩ := h
  exact hp'

lemma exists_sectionedCells (hp : input.bounds.Contains p) : p ∈ (sectionedCells input.bounds).map Prod.snd := by
  simp only [sectionedCells,mem_map,mem_flatMap]
  refine ⟨(_,p),⟨_,MutableOutput.mem_sectionKeys hp,p,?_,rfl⟩,rfl⟩
  rw [MutableOutput.mem_sectionCells]
  simp only [splitPosition]
  omega

lemma readBlock_sample (hp : p ∈ MutableOutput.sectionCells input.bounds key) :
    sectionSample input.source key p=input.source.sample p := by
  obtain ⟨-,hx,hx',hy,hy',hz,hz'⟩ := MutableOutput.mem_sectionCells.1 hp
  rw [sectionSample]
  cases hs : input.source.sampleSection key with
  | none => rfl
  | some out =>
    simp only [MutableOutput.sectionOrigin]
    rw [input.source.sampleSection_eq key out hs _ _ _ (by omega) (by omega) (by omega)]
    congr 1
    cases p
    simp only [BlockPos.mk.injEq] at *
    omega

/-- The grid after the cells in `seen` are read. -/
structure ReadUpTo (input : SolveInput) (seen : List (SubChunkKey × BlockPos))
    (full : FullSolveScratch) : Prop where
  filter : ∀ p, input.bounds.Around p → full.filter (input.pad p) =
    if input.scene.Inside p ∧ p ∈ seen.map Prod.snd then input.scene.filterAt p else blocked
  value : ∀ p, input.bounds.Around p → ∀ c, full.values c (input.pad p) =
    if input.scene.Inside p ∧ p ∈ seen.map Prod.snd then input.scene.base p c else 0
  direct : full.direct = fun _=>false
  directAbove : full.directAbove = fun _=>false

/-- The grid with one known cell written. -/
def writtenBlock (input : SolveInput) (full : FullSolveScratch) (p : BlockPos) :
    FullSolveScratch :=
  { full with
    filter := update full.filter (input.pad p) (input.scene.filterAt p)
    block := update full.block (input.pad p) (input.scene.base p .block)
    sky := if input.profile.allowsSky then
      update full.sky (input.pad p) (input.scene.base p .sky) else full.sky }

lemma readBlock_eq {full : FullSolveScratch} (hp : p ∈ MutableOutput.sectionCells input.bounds key) :
    readBlock input.source input.bounds (Grid.new input.bounds) input.profile full (key,p) =
      .ok (if input.scene.Inside p then input.writtenBlock full p else full) := by
  have hc := (MutableOutput.mem_sectionCells.1 hp).1
  simp only [readBlock,readBlock_sample hp]
  by_cases hk : (input.source.sample p).filter=none
  · rw [hk,if_neg fun hin=>hin.2 hk]
  · rw [filter_eq_some hk,if_pos ⟨hc,hk⟩]
    simp only [Nat.not_lt.2 (input.seed_le p hc),if_false,index_eq_pad hc,writtenBlock]
    by_cases hsky : input.profile.allowsSky=true
    · simp only [hsky,if_true]
      have hb : input.scene.base p .sky=input.source.skySeed p-input.scene.filterAt p := if_pos hsky
      rw [hb]
      rfl
    · simp only [hsky]
      rfl

lemma readBlocks_ensures : Ensures E (GridRead input)
      (readBlocks input.source input.bounds (Grid.new input.bounds) input.profile {}) := by
  refine (Ensures.foldlM (I := ReadUpTo input) ⟨fun p _=>by simp,fun p _ c=>?_,rfl,rfl⟩ ?_).mono ?_
  · cases c <;> simp [FullSolveScratch.values]
  · rintro seen ⟨key,p⟩ post full hl hfull
    have hp : p ∈ MutableOutput.sectionCells input.bounds key := mem_sectionedCells (by rw [hl]; simp)
    have hc := (MutableOutput.mem_sectionCells.1 hp).1
    rw [readBlock_eq hp,Ensures.ok_iff]
    split_ifs with hin
    · have hne : ∀ q, input.bounds.Around q → q≠p → input.pad q≠input.pad p :=
        fun q hq hqp he=>hqp (pad_inj hq hc.around he)
      refine ⟨fun q hq=>?_,fun q hq c=>?_,hfull.direct,hfull.directAbove⟩
      · by_cases hqp : q=p
        · subst hqp
          simp [writtenBlock,hin]
        · simp only [writtenBlock,update_of_ne (hne q hq hqp),hfull.filter q hq]
          exact if_congr (by simp [hqp]) rfl rfl
      · by_cases hqp : q=p
        · subst hqp
          cases c with
          | block => simp [writtenBlock,FullSolveScratch.values,hin]
          | sky =>
            by_cases hsky : input.profile.allowsSky=true
            · simp [writtenBlock,FullSolveScratch.values,hin,hsky]
            · have hz : input.scene.base q .sky=0 := if_neg hsky
              have hv := hfull.value q hq .sky
              rw [hz,ite_self] at hv
              simp only [writtenBlock,FullSolveScratch.values,hsky,hz,ite_self]
              exact hv
        · have hv := hfull.value q hq c
          cases c with
          | block =>
            simp only [writtenBlock,FullSolveScratch.values, update_of_ne (hne q hq hqp)] at hv ⊢
            rw [hv]
            exact if_congr (by simp [hqp]) rfl rfl
          | sky =>
            have hs : (input.writtenBlock full p).values .sky (input.pad q) = full.values .sky (input.pad q) := by
              simp only [writtenBlock,FullSolveScratch.values]
              split_ifs
              · rw [update_of_ne (hne q hq hqp)]
              · rfl
            rw [hs,hv]
            exact if_congr (by simp [hqp]) rfl rfl
    · have hmem : ∀ q, input.scene.Inside q ∧ q ∈ (seen ++ [(key,p)]).map Prod.snd ↔
          input.scene.Inside q ∧ q ∈ seen.map Prod.snd := by
        intro q
        by_cases hqp : q=p
        · subst hqp
          simp [hin]
        · simp [hqp]
      exact ⟨fun q hq=>by simpa only [hmem q] using hfull.filter q hq,
        fun q hq c=>by simpa only [hmem q] using hfull.value q hq c,hfull.direct,
        hfull.directAbove⟩
  · rintro full ⟨hfilter,hvalue,hdirect,habove⟩
    have hmem : ∀ q, input.scene.Inside q ∧ q ∈ (sectionedCells input.bounds).map Prod.snd ↔
        input.scene.Inside q := fun q=>and_iff_left_of_imp fun hq=>exists_sectionedCells hq.1
    exact ⟨fun p hp=>by simpa only [hmem p] using hfilter p hp,
      fun p hp c=>by simpa only [hmem p] using hvalue p hp c,hdirect,habove⟩

end SolveInput

end Cinnabar.Light
