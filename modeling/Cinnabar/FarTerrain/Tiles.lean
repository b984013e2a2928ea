import Mathlib.Analysis.SpecialFunctions.Pow.NNReal
import Mathlib.Data.Int.Range

/-! # Tiles of the far ring

A view selects the tiles around its centre, finer toward it.
-/

namespace Cinnabar.FarTerrain

open List

def tileCells : ℤ := 64

def levelCount : ℕ := 5

/-- A square of `tileCells` cells a side, each `2 ^ level` blocks wide. -/
structure TileKey where
  level : ℕ
  x : ℤ
  z : ℤ
deriving DecidableEq

namespace TileKey

def widthBlocks (tile : TileKey) : ℤ := tileCells*2^tile.level

/-- The minimum corner. -/
def origin (tile : TileKey) : ℤ × ℤ := (tile.x*tile.widthBlocks,tile.z*tile.widthBlocks)

def overlaps (tile other : TileKey) : Bool :=
  tile.origin.1<other.origin.1+other.widthBlocks && other.origin.1<tile.origin.1+tile.widthBlocks &&
    tile.origin.2<other.origin.2+other.widthBlocks &&
    other.origin.2<tile.origin.2+tile.widthBlocks

def containing (level : ℕ) (x z : ℤ) : TileKey :=
  ⟨level,x / (tileCells*2^level),z / (tileCells*2^level)⟩

def children (tile : TileKey) : List TileKey :=
  [(0,0),(1,0),(0,1),(1,1)].map fun (offset : ℤ × ℤ) =>
    ⟨tile.level-1,tile.x*2+offset.1,tile.z*2+offset.2⟩

def le (tile other : TileKey) : Bool :=
  tile.level<other.level || tile.level=other.level && (tile.x<other.x || tile.x=other.x && tile.z≤other.z)

end TileKey

noncomputable section

/-- The widths of a tile within which it splits. -/
def levelSplitDistance : ℝ := 1

def hypot (a b : ℝ) : ℝ := √(a^2+b^2)

/-- The nearest and the farthest that a point is from a span of blocks. -/
def spanNear (point low width : ℝ) : ℝ := max (max (low-point) (point - (low+width))) 0

def spanFar (point low width : ℝ) : ℝ := max |point-low| |low+width-point|

/-- The distances from a point to the nearest and farthest points of the tile. -/
def TileKey.distances (tile : TileKey) (point : ℝ × ℝ) : ℝ × ℝ :=
  (hypot (spanNear point.1 tile.origin.1 tile.widthBlocks) (spanNear point.2 tile.origin.2 tile.widthBlocks),
    hypot (spanFar point.1 tile.origin.1 tile.widthBlocks) (spanFar point.2 tile.origin.2 tile.widthBlocks))

structure TileView where
  centre : ℝ × ℝ
  /-- Only the finest level reaches inside this distance. -/
  nearBlocks : ℝ
  /-- Tiles wholly inside this distance are left out. -/
  skipBlocks : ℝ
  farBlocks : ℝ

namespace TileView

variable (view : TileView)

def reach : ℝ := view.nearBlocks+view.farBlocks

def skips (tile : TileKey) : Prop :=
  view.reach < (tile.distances view.centre).1 ∨ (tile.distances view.centre).2<view.skipBlocks

/-- A tile splits while it is close to the near edge. -/
def splits (tile : TileKey) : Prop :=
  0<tile.level ∧ (tile.distances view.centre).1<view.nearBlocks+levelSplitDistance*tile.widthBlocks

open Classical in
/-- Pops tiles until none is pending. -/
def selectPending : List TileKey → List TileKey → List TileKey
  | [], selected => selected
  | tile::pending, selected =>
    if view.skips tile then selectPending pending selected
    else if view.splits tile then selectPending (tile.children.reverse++pending) selected
    else selectPending pending (selected ++ [tile])
termination_by pending => (pending.map fun tile=>5^tile.level).sum
decreasing_by
  · simp
  · rename_i hsplits
    obtain ⟨level,hlevel⟩ := Nat.exists_eq_succ_of_ne_zero hsplits.1.ne'
    simp [TileKey.children,hlevel,Nat.pow_succ]
    have := Nat.pow_pos (n := level) (show 0<5 by decide)
    omega
  · simp

/-- Conversion to an integer rounds toward zero. -/
def truncate (r : ℝ) : ℤ := if 0 ≤ r then ⌊r⌋ else ⌈r⌉

/-- The tiles that cover the ring of a view. -/
def selectTiles : List TileKey :=
  let top := levelCount-1
  let low := TileKey.containing top (truncate (view.centre.1-view.reach)) (truncate (view.centre.2-view.reach))
  let high := TileKey.containing top (truncate (view.centre.1+view.reach)) (truncate (view.centre.2+view.reach))
  let pending := (Int.range low.z (high.z+1)).flatMap fun z =>
    (Int.range low.x (high.x+1)).map fun x=>(⟨top,x,z⟩ : TileKey)
  (view.selectPending pending.reverse []).mergeSort TileKey.le

end TileView

/-- The points of the span at an index, whose end belongs to the next. -/
def InSpan (width : ℝ) (index : ℤ) (r : ℝ) : Prop := index*width ≤ r ∧ r < index*width+width

def TileKey.Covers (tile : TileKey) (point : ℝ × ℝ) : Prop :=
  InSpan tile.widthBlocks tile.x point.1 ∧ InSpan tile.widthBlocks tile.z point.2

/-- The points of the square and of its edges. -/
def TileKey.Bounds (tile : TileKey) (point : ℝ × ℝ) : Prop :=
  point.1 ∈ Set.Icc (tile.origin.1 : ℝ) (tile.origin.1+tile.widthBlocks) ∧
    point.2 ∈ Set.Icc (tile.origin.2 : ℝ) (tile.origin.2+tile.widthBlocks)

def TileView.distance (view : TileView) (point : ℝ × ℝ) : ℝ :=
  hypot (point.1-view.centre.1) (point.2-view.centre.2)

end

section Geometry

variable {tile other : TileKey} {point : ℝ × ℝ} {r low width : ℝ} {i j : ℤ}

lemma TileKey.widthBlocks_pos (tile : TileKey) : 0<tile.widthBlocks :=
  mul_pos (by decide) (by positivity)

lemma hypot_mono {a b a' b' : ℝ} (ha : |a| ≤ |a'|) (hb : |b| ≤ |b'|) : hypot a b≤hypot a' b' :=
  Real.sqrt_le_sqrt (add_le_add (sq_le_sq.2 ha) (sq_le_sq.2 hb))

lemma abs_le_hypot (a b : ℝ) : |a| ≤ hypot a b ∧ |b| ≤ hypot a b := by
  constructor
  · exact Real.abs_le_sqrt (le_add_of_nonneg_right (sq_nonneg b))
  · exact Real.abs_le_sqrt (le_add_of_nonneg_left (sq_nonneg a))

lemma InSpan.unique (hi : InSpan width i r) (hj : InSpan width j r) : i=j := by
  have hwidth : 0<width := by linarith [hi.1,hi.2]
  have hlt {i j : ℤ} (hi : InSpan width i r) (hj : InSpan width j r) : i≤j := by
    have hmul : (i : ℝ) * width < (j+1) * width := by linarith [hi.1,hj.2]
    exact Int.lt_add_one_iff.1 (by exact_mod_cast lt_of_mul_lt_mul_right hmul hwidth.le)
  exact le_antisymm (hlt hi hj) (hlt hj hi)

lemma InSpan.halves : InSpan (2*width) i r ↔ InSpan width (i*2+0) r ∨ InSpan width (i*2+1) r := by
  unfold InSpan
  push_cast
  constructor
  · rintro ⟨hlow,hhigh⟩
    rcases lt_or_ge r (i * (2*width) + width) with hlt | hge
    · exact .inl ⟨by linarith,by linarith⟩
    · exact .inr ⟨by linarith,by linarith⟩
  · rintro (⟨hlow,hhigh⟩ | ⟨hlow,hhigh⟩)
    · exact ⟨by linarith,by linarith⟩
    · exact ⟨by linarith,by linarith⟩

lemma spanNear_le (hr : r ∈ Set.Icc low (low+width)) (c : ℝ) : |spanNear c low width| ≤ |r-c| := by
  unfold spanNear
  rw [abs_of_nonneg (le_max_right _ _)]
  refine max_le (max_le ?_ ?_) (abs_nonneg _)
  · exact le_trans (sub_le_sub_right hr.1 c) (le_abs_self _)
  · exact le_trans (by linarith [hr.2]) (neg_le_abs (r-c))

lemma le_spanFar (hr : r ∈ Set.Icc low (low+width)) (c : ℝ) : |r-c| ≤ |spanFar c low width| := by
  unfold spanFar
  refine le_trans (abs_le.2 ⟨?_,?_⟩) (le_abs_self _)
  · have hlow := le_trans (le_abs_self (c-low)) (le_max_left _ |low+width-c|)
    linarith [hr.1]
  · have hhigh := le_trans (le_abs_self (low+width-c)) (le_max_right |c-low| _)
    linarith [hr.2]

lemma spanNear_attained (hwidth : 0≤width) (c low : ℝ) :
    ∃ r ∈ Set.Icc low (low+width), |r-c| ≤ |spanNear c low width| := by
  refine ⟨max low (min c (low+width)),⟨le_max_left _ _,max_le (by linarith) (min_le_right _ _)⟩,?_⟩
  refine le_trans (abs_le.2 ⟨?_,?_⟩) (le_abs_self _)
  · have hnear : c - (low+width) ≤ spanNear c low width := le_max_of_le_left (le_max_right _ _)
    have hzero : 0 ≤ spanNear c low width := le_max_right _ _
    rcases min_choice c (low+width) with hmin | hmin
    · linarith [le_max_right low (min c (low+width))]
    · linarith [le_max_right low (min c (low+width))]
  · have hnear : low-c ≤ spanNear c low width := le_max_of_le_left (le_max_left _ _)
    have hzero : 0 ≤ spanNear c low width := le_max_right _ _
    rcases max_choice low (min c (low+width)) with hmax | hmax
    · linarith
    · linarith [min_le_left c (low+width)]

lemma spanFar_attained (hwidth : 0≤width) (c low : ℝ) :
    ∃ r ∈ Set.Icc low (low+width), |spanFar c low width| ≤ |r-c| := by
  unfold spanFar
  rw [abs_of_nonneg (le_max_of_le_left (abs_nonneg _))]
  rcases max_choice |c - low| |low+width - c| with hmax | hmax
  · exact ⟨low,⟨le_refl _,by linarith⟩,by rw [hmax,abs_sub_comm]⟩
  · exact ⟨low+width,⟨by linarith,le_refl _⟩,by rw [hmax]⟩

variable {view : TileView}

/-- The distances of a tile bound those of its points, and points of it attain them. -/
lemma distances_spec (view : TileView) (tile : TileKey) :
    (∀ point, tile.Bounds point → (tile.distances view.centre).1≤view.distance point ∧
      view.distance point ≤ (tile.distances view.centre).2) ∧
    (∃ point, tile.Bounds point ∧ view.distance point ≤ (tile.distances view.centre).1) ∧
    ∃ point, tile.Bounds point ∧ (tile.distances view.centre).2≤view.distance point := by
  have hwidth : (0 : ℝ) ≤ tile.widthBlocks := by exact_mod_cast tile.widthBlocks_pos.le
  refine ⟨fun point hpoint=>⟨?_,?_⟩,?_,?_⟩
  · exact hypot_mono (spanNear_le hpoint.1 _) (spanNear_le hpoint.2 _)
  · exact hypot_mono (le_spanFar hpoint.1 _) (le_spanFar hpoint.2 _)
  · obtain ⟨x,hx,hxnear⟩ := spanNear_attained hwidth view.centre.1 tile.origin.1
    obtain ⟨z,hz,hznear⟩ := spanNear_attained hwidth view.centre.2 tile.origin.2
    exact ⟨(x,z),⟨hx,hz⟩,hypot_mono hxnear hznear⟩
  · obtain ⟨x,hx,hxfar⟩ := spanFar_attained hwidth view.centre.1 tile.origin.1
    obtain ⟨z,hz,hzfar⟩ := spanFar_attained hwidth view.centre.2 tile.origin.2
    exact ⟨(x,z),⟨hx,hz⟩,hypot_mono hxfar hzfar⟩

lemma TileKey.Covers.bounds (h : tile.Covers point) : tile.Bounds point := by
  unfold TileKey.Bounds TileKey.origin
  push_cast
  exact ⟨⟨h.1.1,h.1.2.le⟩,h.2.1,h.2.2.le⟩

end Geometry

section Selection

variable {tile other : TileKey} {point : ℝ × ℝ} {view : TileView} {pending selected : List TileKey}

/-- Tiles that share no point. -/
def Apart (tile other : TileKey) : Prop := ∀ point, tile.Covers point → ¬other.Covers point

lemma Apart.symm (h : Apart tile other) : Apart other tile := fun point ho ht=>h point ht ho

instance : Std.Symm Apart := ⟨fun _ _=>Apart.symm⟩

lemma Apart.overlaps (h : Apart tile other) : tile.overlaps other=false := by
  refine Bool.eq_false_iff.2 fun htrue=>?_
  simp only [TileKey.overlaps,Bool.and_eq_true,decide_eq_true_eq] at htrue
  obtain ⟨⟨⟨hx,hx'⟩,hz⟩,hz'⟩ := htrue
  unfold TileKey.origin at hx hx' hz hz'
  have hwidth := tile.widthBlocks_pos
  have hwidth' := other.widthBlocks_pos
  refine h (max (tile.x*tile.widthBlocks : ℤ) (other.x*other.widthBlocks : ℤ),
    max (tile.z*tile.widthBlocks : ℤ) (other.z*other.widthBlocks : ℤ)) ?_ ?_ <;>
    refine ⟨⟨?_,?_⟩,?_,?_⟩ <;> dsimp only <;> norm_cast <;> omega

lemma apart_of_ne (hlevel : tile.level=other.level) (hne : tile≠other) : Apart tile other := by
  intro point ht ho
  unfold TileKey.Covers TileKey.widthBlocks at ht ho
  rw [hlevel] at ht
  obtain ⟨level,x,z⟩ := tile
  obtain ⟨level',x',z'⟩ := other
  obtain rfl : level=level' := hlevel
  obtain rfl : x=x' := ht.1.unique ho.1
  obtain rfl : z=z' := ht.2.unique ho.2
  exact hne rfl

lemma covers_children (hlevel : 0<tile.level) : tile.Covers point ↔ ∃ child ∈ tile.children, child.Covers point := by
  obtain ⟨level,x,z⟩ := tile
  obtain ⟨level,rfl⟩ := Nat.exists_eq_succ_of_ne_zero hlevel.ne'
  have hwidth : ((TileKey.widthBlocks ⟨level+1,x,z⟩ : ℤ) : ℝ) = 2 * ((tileCells*2^level : ℤ) : ℝ) := by
    unfold TileKey.widthBlocks
    push_cast
    ring
  have hchildren : (∃ child ∈ TileKey.children ⟨level+1,x,z⟩, child.Covers point) ↔
      (InSpan (tileCells*2^level : ℤ) (x*2+0) point.1 ∨ InSpan (tileCells*2^level : ℤ) (x*2+1) point.1) ∧
      (InSpan (tileCells*2^level : ℤ) (z*2+0) point.2 ∨
        InSpan (tileCells*2^level : ℤ) (z*2+1) point.2) := by
    simp only [TileKey.children,TileKey.Covers,TileKey.widthBlocks,map_cons,map_nil,
      exists_mem_cons_iff,not_mem_nil,Nat.add_sub_cancel]
    tauto
  rw [hchildren,← InSpan.halves,← InSpan.halves,← hwidth]
  rfl

lemma children_apart (tile : TileKey) : tile.children.Pairwise Apart := by
  refine List.Pairwise.imp_of_mem (fun {a b} ha hb hne=>apart_of_ne ?_ hne) (nodup_iff_pairwise_ne.1 ?_)
  · obtain ⟨_,-,rfl⟩ := mem_map.1 ha
    obtain ⟨_,-,rfl⟩ := mem_map.1 hb
    rfl
  · refine List.Nodup.map (fun offset offset' heq=>?_) (by decide)
    simp only [TileKey.mk.injEq,add_right_inj] at heq
    exact Prod.ext heq.2.1 heq.2.2

/-- What each selected tile meets. -/
structure Selected (view : TileView) (tile : TileKey) : Prop where
  kept : ¬view.skips tile
  whole : ¬view.splits tile

/-- Popping a tile keeps the tiles apart and every point that no tile may leave out. -/
lemma selectPending_spec (hapart : (pending++selected).Pairwise Apart)
    (hselected : ∀ tile ∈ selected, Selected view tile) :
    (view.selectPending pending selected).Pairwise Apart ∧
      (∀ tile ∈ view.selectPending pending selected, Selected view tile) ∧
      ∀ point, view.skipBlocks≤view.distance point → view.distance point≤view.reach →
        (∃ tile ∈ pending++selected, tile.Covers point) →
        ∃ tile ∈ view.selectPending pending selected, tile.Covers point := by
  induction pending, selected using TileView.selectPending.induct view with
  | case1 selected =>
    rw [TileView.selectPending]
    exact ⟨hapart,hselected,fun _ _ _ hcovers=>hcovers⟩
  | case2 tile pending selected hskips ih =>
    rw [TileView.selectPending,if_pos hskips]
    obtain ⟨hresult,hall,hcovers⟩ := ih (pairwise_cons.1 hapart).2 hselected
    refine ⟨hresult,hall,fun point hskip hreach hpoint=>hcovers point hskip hreach ?_⟩
    obtain ⟨found,hmem,hfound⟩ := hpoint
    rcases mem_cons.1 hmem with rfl | hmem
    · -- A tile is left out only when the point is out of the ring.
      obtain ⟨hnear,hfar⟩ := (distances_spec view found).1 point hfound.bounds
      rcases hskips with hbeyond | hwithin
      · exact absurd (hnear.trans hreach) hbeyond.not_ge
      · exact absurd (hskip.trans hfar) hwithin.not_ge
    · exact ⟨found,hmem,hfound⟩
  | case3 tile pending selected hskips hsplits ih =>
    rw [TileView.selectPending,if_neg hskips,if_pos hsplits]
    obtain ⟨htile,hrest⟩ := pairwise_cons.1 hapart
    have hsplit : (tile.children.reverse++pending++selected).Pairwise Apart := by
      rw [append_assoc,pairwise_append]
      refine ⟨pairwise_reverse.2 ((children_apart tile).imp Apart.symm),hrest,?_⟩
      intro child hchild other hother point hcovers
      exact htile other hother point ((covers_children hsplits.1).2 ⟨child,mem_reverse.1 hchild,hcovers⟩)
    obtain ⟨hresult,hall,hcovers⟩ := ih hsplit hselected
    refine ⟨hresult,hall,fun point hskip hreach hpoint=>hcovers point hskip hreach ?_⟩
    obtain ⟨found,hmem,hfound⟩ := hpoint
    rw [append_assoc]
    rcases mem_cons.1 hmem with rfl | hmem
    · obtain ⟨child,hchild,hcovered⟩ := (covers_children hsplits.1).1 hfound
      exact ⟨child,mem_append_left _ (mem_reverse.2 hchild),hcovered⟩
    · exact ⟨found,mem_append_right _ hmem,hfound⟩
  | case4 tile pending selected hskips hsplits ih =>
    rw [TileView.selectPending,if_neg hskips,if_neg hsplits]
    have hperm : (pending ++ (selected ++ [tile])).Perm (tile :: (pending++selected)) := by
      rw [← append_assoc]
      exact perm_append_singleton tile _
    obtain ⟨hresult,hall,hcovers⟩ := ih ((hperm.pairwise_iff Apart.symm).2 hapart) fun other hother=>by
        rcases mem_append.1 hother with hother | hother
        · exact hselected other hother
        · rw [mem_singleton.1 hother]
          exact ⟨hskips,hsplits⟩
    refine ⟨hresult,hall,fun point hskip hreach ⟨found,hmem,hfound⟩=>?_⟩
    exact hcovers point hskip hreach ⟨found,hperm.mem_iff.2 hmem,hfound⟩

lemma truncate_near (r : ℝ) : r-1<TileView.truncate r ∧ TileView.truncate r < r+1 := by
  unfold TileView.truncate
  split
  · exact ⟨Int.sub_one_lt_floor r,(Int.floor_le r).trans_lt (lt_add_one r)⟩
  · exact ⟨(sub_one_lt r).trans_le (Int.le_ceil r),Int.ceil_lt_add_one r⟩

/-- The index of a point lies between those of the truncated ends of its range. -/
lemma exists_index {width : ℤ} (hwidth : 0<width) {r low high : ℝ} (hlow : low+1 ≤ r)
    (hhigh : r≤high-1) : ∃ i ∈ Int.range (TileView.truncate low/width)
      (TileView.truncate high/width+1), InSpan width i r := by
  have hpos : (0 : ℝ) < width := by exact_mod_cast hwidth
  have hspan : InSpan width ⌊r/width⌋ r := by
    have hle := mul_le_mul_of_nonneg_right (Int.floor_le (r/width)) hpos.le
    have hlt := mul_lt_mul_of_pos_right (Int.lt_floor_add_one (r/width)) hpos
    rw [div_mul_cancel₀ _ hpos.ne'] at hle hlt
    exact ⟨hle,by linarith⟩
  refine ⟨_,Int.mem_range_iff.2 ⟨?_,Int.lt_add_one_iff.2 ?_⟩,hspan⟩
  · rw [Int.le_floor,le_div_iff₀ hpos]
    have hdiv : (TileView.truncate low/width*width : ℤ) ≤ TileView.truncate low := Int.ediv_mul_le _ hwidth.ne'
    have hcast : ((TileView.truncate low/width : ℤ) : ℝ) * width≤TileView.truncate low := by
      exact_mod_cast hdiv
    linarith [(truncate_near low).2]
  · rw [Int.le_ediv_iff_mul_le hwidth]
    have hcast : ((⌊r/width⌋ : ℤ) : ℝ) * width≤TileView.truncate high := by
      linarith [hspan.1,(truncate_near high).1]
    exact_mod_cast hcast

lemma nodup_range (low high : ℤ) : (Int.range low high).Nodup :=
  List.nodup_range.map fun _ _ heq=>by simpa using heq

/-- The selected tiles are disjoint; each point of the ring is in exactly one; each reaches into the
ring, and one that is coarser than the finest level is farther from the near edge than its width. -/
theorem selectTiles_partitions (view : TileView) :
    view.selectTiles.Pairwise (fun tile other => tile.overlaps other = false) ∧
      (∀ point, view.skipBlocks ≤ view.distance point → view.distance point ≤ view.nearBlocks+view.farBlocks-1 →
        ∃! tile, tile ∈ view.selectTiles ∧ tile.Covers point) ∧
      ∀ tile ∈ view.selectTiles, (∃ point, tile.Bounds point ∧ view.skipBlocks ≤ view.distance point) ∧
        (∃ point, tile.Bounds point ∧ view.distance point ≤ view.nearBlocks+view.farBlocks) ∧
        (0 < tile.level → ∀ point, tile.Bounds point →
          view.nearBlocks+tile.widthBlocks ≤ view.distance point) := by
  have hroots : ∀ columns rows : List ℤ, columns.Nodup → rows.Nodup →
      (rows.flatMap fun z => columns.map fun x => (⟨levelCount-1,x,z⟩ : TileKey)).Pairwise Apart := by
    intro columns rows hcolumns hrows
    refine pairwise_flatMap.2 ⟨fun z _ => ?_,hrows.imp fun hne a ha b hb => ?_⟩
    · rw [pairwise_map]
      refine hcolumns.imp ?_
      intro x x' hne
      exact apart_of_ne rfl fun heq => hne (congrArg TileKey.x heq)
    · obtain ⟨x,-,rfl⟩ := mem_map.1 ha
      obtain ⟨x',-,rfl⟩ := mem_map.1 hb
      exact apart_of_ne rfl fun heq => hne (congrArg TileKey.z heq)
  unfold TileView.selectTiles
  extract_lets top low high pending
  obtain ⟨hapart,hall,hcovers⟩ := @selectPending_spec view pending.reverse [] (by
    rw [append_nil,pairwise_reverse]
    exact (hroots _ _ (nodup_range _ _) (nodup_range _ _)).imp Apart.symm) fun _ h => by cases h
  have hperm := mergeSort_perm (view.selectPending pending.reverse []) TileKey.le
  have hsorted := (hperm.pairwise_iff Apart.symm).2 hapart
  refine ⟨hsorted.imp Apart.overlaps,fun point hskip hreach => ?_,fun tile htile => ?_⟩
  · have hdistance := abs_le_hypot (point.1-view.centre.1) (point.2-view.centre.2)
    change view.distance point ≤ view.reach-1 at hreach
    have hx := abs_le.1 (hdistance.1.trans hreach)
    have hz := abs_le.1 (hdistance.2.trans hreach)
    obtain ⟨x,hmemx,hspanx⟩ := @exists_index (tileCells * 2^top) (by decide) point.1
      (view.centre.1-view.reach) (view.centre.1+view.reach) (by linarith) (by linarith)
    obtain ⟨z,hmemz,hspanz⟩ := @exists_index (tileCells * 2^top) (by decide) point.2
      (view.centre.2-view.reach) (view.centre.2+view.reach) (by linarith) (by linarith)
    have hroot : (⟨top,x,z⟩ : TileKey) ∈ pending := mem_flatMap.2 ⟨z,hmemz,mem_map.2 ⟨x,hmemx,rfl⟩⟩
    obtain ⟨tile,htile,hcovered⟩ := hcovers point hskip (by linarith)
      ⟨_,mem_append_left _ (mem_reverse.2 hroot),hspanx,hspanz⟩
    refine ⟨tile,⟨hperm.mem_iff.2 htile,hcovered⟩,fun other hother => ?_⟩
    by_contra hne
    exact hsorted.forall hother.1 (hperm.mem_iff.2 htile) hne point hother.2 hcovered
  · obtain ⟨hkept,hwhole⟩ := hall tile (hperm.mem_iff.1 htile)
    obtain ⟨hbounds,⟨near,hnear,hnearest⟩,far,hfar,hfarthest⟩ := distances_spec view tile
    unfold TileView.skips at hkept
    rw [not_or,not_lt,not_lt] at hkept
    refine ⟨⟨far,hfar,hkept.2.trans hfarthest⟩,⟨near,hnear,hnearest.trans hkept.1⟩, fun hlevel point hpoint => ?_⟩
    unfold TileView.splits levelSplitDistance at hwhole
    rw [not_and,not_lt,one_mul] at hwhole
    exact (hwhole hlevel).trans (hbounds point hpoint).1

end Selection

end Cinnabar.FarTerrain
