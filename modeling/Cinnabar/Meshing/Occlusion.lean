import Mathlib.Data.Int.Range
import Mathlib.Data.Rat.Floor
import Cinnabar.Keys
import Cinnabar.Library.Corners

/-! # Entity occlusion -/

namespace Cinnabar.Meshing

abbrev Vec3 := Fin 3 → ℚ
abbrev Cell := Fin 3 → ℤ

/-- Maximum plane and cell probes shared by one kind of entity in a frame. -/
def entityOcclusionProbes : ℕ := 4096
/-- Minimum gap from the eye to a tested face. -/
def occlusionEyeGapBlocks : ℤ := 1
def maxPlanes : ℕ := 64
def roundingMargin : ℚ := 1/10000
def coordinateLimit : ℚ := 8000000

/-- `as i32` of a floor or a ceiling. -/
def asI32 (v : ℤ) : ℤ := max i32Min (min i32Max v)

structure OcclusionBudget where
  remaining : ℕ := entityOcclusionProbes
deriving DecidableEq

def OcclusionBudget.charge (b : OcclusionBudget) : Bool × OcclusionBudget :=
  if b.remaining=0 then (false,b) else (true,⟨b.remaining-1⟩)

/-- Angular bounds of a box along one axis perpendicular to the proof direction. -/
structure ProjectionSlopes where
  axis : Fin 3
  low : ℚ
  high : ℚ
  margin : ℚ

def ProjectionSlopes.widen (range : ProjectionSlopes) (slope : ℚ) : ProjectionSlopes :=
  { range with
    low := min range.low slope
    high := max range.high slope
    margin := max range.margin (2*roundingMargin * (1 + |slope|)) }

section Box

variable (eye low high : Vec3)

section

variable (axis : Fin 3)

def distance : ℚ := max (low axis-eye axis) (eye axis-high axis)

/-- `max_by`: the later of equals. -/
def farthestAxis : Fin 3 :=
  let first : Fin 3 := if distance eye low high 0≤distance eye low high 1 then 1 else 0
  if distance eye low high first≤distance eye low high 2 then 2 else first

def cornerSlopes (axis a : Fin 3) : List ℚ :=
  [low a,high a].flatMap fun across =>
    [low axis,high axis].map fun depth=>(across-eye a) / (depth-eye axis)

section

variable (positive : Bool)

/-- The slopes of the box's corners; the infinities they start from give way to the first. -/
def projection (a : Fin 3) : ProjectionSlopes :=
  let slopes := cornerSlopes eye low high axis a
  let start : ProjectionSlopes := ⟨a,slopes.headD 0,slopes.headD 0,roundingMargin⟩
  let range := slopes.foldl .widen start
  if positive then range else { range with low := range.high, high := range.low }

def silhouette (plane : ℚ) (axis : Fin 3) (positive : Bool) (a : Fin 3) : ℤ × ℤ :=
  let range := projection eye low high axis positive a
  let delta := plane-eye axis
  let first := eye range.axis+delta*range.low
  let last := eye range.axis+delta*range.high
  (asI32 ⌊first-range.margin⌋,asI32 ⌊last+range.margin⌋)

def planeAt (cell : ℤ) : ℚ := (cell + if positive then 0 else 1 : ℤ)

def planeCells (cell : ℤ) : List (ℤ × ℤ) :=
  let across := silhouette eye low high (planeAt positive cell) axis positive (axis+1)
  let along := silhouette eye low high (planeAt positive cell) axis positive (axis+2)
  Int.range across.1 (across.2+1) ×ˢ Int.range along.1 (along.2+1)

def firstCell : ℤ :=
  if positive then asI32 ⌈eye axis⌉ + occlusionEyeGapBlocks
  else asI32 ⌊eye axis⌋ - 1-occlusionEyeGapBlocks

def reachesBox (cell : ℤ) : Bool :=
  (positive && decide (low axis ≤ (cell+1 : ℤ))) || (!positive && decide ((cell : ℚ) ≤ high axis))

end

end

end Box

def cellAt (positive : Bool) (first : ℤ) (step : ℕ) : ℤ :=
  first + if positive then (step : ℤ) else -step

/-- A cell of the plane and its front neighbour. -/
def faceCells (axis : Fin 3) (positive : Bool) (cell : ℤ) (xy : ℤ × ℤ) : Cell × Cell :=
  let position : Cell := fun i=>if i=axis then cell else if i=axis+1 then xy.1 else xy.2
  (position,Function.update position axis (cell + if positive then -1 else 1))

structure Probes (σ : Type) where
  budget : OcclusionBudget
  state : σ
  /-- What the predicate was asked, in order. -/
  asked : List (Cell × Cell × Bool) := []

section Probing

variable {σ : Type} (isOpaque : σ → Cell → Cell → Bool × σ)

/-- Charges the face cell and its front neighbour before querying them; `none` ends the proof. -/
def probeCell (cells : Cell × Cell) (p : Probes σ) : Option Bool × Probes σ :=
  let (paid,budget) := p.budget.charge
  if !paid then (none,{ p with budget := budget })
  else
    let (paid,budget) := budget.charge
    if !paid then (none,{ p with budget := budget })
    else
      let (answer,state) := isOpaque p.state cells.1 cells.2
      (some answer,⟨budget,state,p.asked ++ [(cells.1,cells.2,answer)]⟩)

/-- Whether a plane's cells are covered. -/
def probeCells (face : ℤ × ℤ → Cell × Cell) :
    List (ℤ × ℤ) → Probes σ → Option Bool × Probes σ
  | [], p => (some true,p)
  | xy::rest, p =>
    match probeCell isOpaque (face xy) p with
    | (some true,p) => probeCells face rest p
    | out => out

/-- The planes from the `step`th on. -/
def probePlanes (eye low high : Vec3) (axis : Fin 3) (positive : Bool) (first : ℤ) :
    ℕ → ℕ → Probes σ → Bool × Probes σ
  | 0, _, p => (false,p)
  | left+1, step, p =>
    let (paid,budget) := p.budget.charge
    let p := { p with budget := budget }
    if !paid then (false,p)
    else
      let cell := cellAt positive first step
      if reachesBox low high axis positive cell then (false,p)
      else
        let cells := planeCells eye low high axis positive cell
        match probeCells isOpaque (faceCells axis positive cell) cells p with
        | (none,p) => (false,p)
        | (some true,p) => (true,p)
        | (some false,p) => probePlanes eye low high axis positive first left (step+1) p

/-- Hides only if one complete opaque slab separates `eye` from every point of the box. -/
def hidesBox (eye low high : Vec3) (p : Probes σ) : Bool × Probes σ :=
  if (∃ axis, coordinateLimit < |eye axis| ∨ coordinateLimit < |low axis| ∨
      coordinateLimit < |high axis|) ∨ ∃ axis, high axis<low axis then (false,p)
  else
    let axis := farthestAxis eye low high
    if distance eye low high axis≤occlusionEyeGapBlocks+1 then (false,p)
    else
      let positive : Bool := eye axis<low axis
      probePlanes isOpaque eye low high axis positive (firstCell eye axis positive) maxPlanes 0 p

end Probing

end Cinnabar.Meshing

/-! # Silhouettes

The segment from the eye to a point of the box passes a plane before the box inside
the cells that the box's corner slopes enclose there.
-/

namespace Cinnabar.Meshing

open List

variable {eye low high point : Vec3} {axis a : Fin 3} {positive : Bool} {B delta : ℚ}

def InBox (low high point : Vec3) : Prop := ∀ i, low i≤point i ∧ point i≤high i

/-- The box lies on one side of the eye, past the gap and a cell. -/
def Beside (eye low high : Vec3) (axis : Fin 3) : Bool → Prop
  | true => 2<low axis-eye axis
  | false => high axis-eye axis < -2

lemma beside_of_distance (eye low high : Vec3) (axis : Fin 3) (hbox : low axis≤high axis)
    (h : 2<distance eye low high axis) :
    Beside eye low high axis (eye axis<low axis) := by
  by_cases hpositive : eye axis<low axis
  · rw [decide_eq_true hpositive]
    rcases lt_max_iff.1 h with hlow | hhigh
    · exact hlow
    · linarith
  · rw [decide_eq_false hpositive]
    change high axis-eye axis < -2
    rcases lt_max_iff.1 h with hlow | hhigh
    · linarith
    · linarith

/-- Depths keep their sign, and are not small. -/
lemma Beside.sign (h : Beside eye low high axis positive) : 0<low axis-eye axis ∨ high axis-eye axis<0 := by
  cases positive with
  | true => exact .inl (by linarith [show 2<low axis-eye axis from h])
  | false => exact .inr (by linarith [show high axis-eye axis < -2 from h])

lemma Beside.deep (h : Beside eye low high axis positive) {depth : ℚ} (hlow : low axis≤depth)
    (hhigh : depth≤high axis) : 2 < |depth-eye axis| := by
  cases positive with
  | true =>
    have hdeep : 2<low axis-eye axis := h
    exact lt_abs.2 (.inl (by linarith))
  | false =>
    have hdeep : high axis-eye axis < -2 := h
    exact lt_abs.2 (.inr (by linarith))

structure Widened (range widened : ProjectionSlopes) (slopes : List ℚ) : Prop where
  axis : widened.axis=range.axis
  low : widened.low ≤ range.low
  high : range.high≤widened.high
  margin : range.margin≤widened.margin
  encloses : ∀ slope ∈ slopes, widened.low ≤ slope ∧ slope≤widened.high
  bounded : ∀ B, |range.low| ≤ B → |range.high| ≤ B →
    range.margin≤2*roundingMargin * (1+B) → (∀ slope ∈ slopes, |slope| ≤ B) →
      |widened.low| ≤ B ∧ |widened.high| ≤ B ∧ widened.margin≤2*roundingMargin * (1+B)

lemma widened_foldl (slopes : List ℚ) (range : ProjectionSlopes) :
    Widened range (slopes.foldl .widen range) slopes := by
  induction slopes generalizing range with
  | nil =>
    exact ⟨rfl,le_rfl,le_rfl,le_rfl,fun _ h=>absurd h not_mem_nil, fun _ hlow hhigh hmargin _=>⟨hlow,hhigh,hmargin⟩⟩
  | cons slope rest ih =>
    have hrest := ih (range.widen slope)
    refine ⟨hrest.axis,hrest.low.trans (min_le_left _ _),(le_max_left _ _).trans hrest.high,
      (le_max_left _ _).trans hrest.margin,fun s hs=>?_,fun B hlow hhigh hmargin hall=>?_⟩
    · rcases mem_cons.1 hs with rfl | hs
      · exact ⟨hrest.low.trans (min_le_right _ _),(le_max_right _ _).trans hrest.high⟩
      · exact hrest.encloses s hs
    · have hslope := hall slope (.head _)
      refine hrest.bounded B ?_ ?_ ?_ fun s hs=>hall s (.tail _ hs)
      · exact (abs_min_le_max_abs_abs).trans (max_le hlow hslope)
      · exact (abs_max_le_max_abs_abs).trans (max_le hhigh hslope)
      · refine max_le hmargin ?_
        unfold roundingMargin
        linarith

lemma mem_cornerSlopes {across depth : ℚ} (hacross : across=low a ∨ across=high a)
    (hdepth : depth=low axis ∨ depth=high axis) :
    (across-eye a) / (depth-eye axis) ∈ cornerSlopes eye low high axis a := by
  rcases hacross with rfl | rfl <;> rcases hdepth with rfl | rfl <;> simp [cornerSlopes]

section

variable (h : Beside eye low high axis positive)
include h

lemma cornerSlopes_bounded (hbox : low axis≤high axis)
    (heye : |eye a| ≤ coordinateLimit) (hlow : |low a| ≤ coordinateLimit)
    (hhigh : |high a| ≤ coordinateLimit) :
    ∀ slope ∈ cornerSlopes eye low high axis a, |slope| ≤ coordinateLimit := by
  have hslope : ∀ {across depth}, |across| ≤ coordinateLimit → low axis≤depth →
      depth≤high axis → |(across-eye a) / (depth-eye axis)| ≤ coordinateLimit := by
    intro across depth hacross hdepth hdepth'
    have hdeep := h.deep hdepth hdepth'
    have hwide : |across-eye a| ≤ 2*coordinateLimit := by
      have htriangle := abs_sub across (eye a)
      linarith
    rw [abs_div,div_le_iff₀ (by linarith)]
    unfold coordinateLimit at hwide ⊢
    linarith
  intro slope hs
  simp only [cornerSlopes,flatMap_cons,flatMap_nil,map_cons,map_nil,
    append_nil,cons_append,nil_append,mem_cons,not_mem_nil,
    or_false] at hs
  rcases hs with rfl | rfl | rfl | rfl
  · exact hslope hlow le_rfl hbox
  · exact hslope hlow hbox le_rfl
  · exact hslope hhigh le_rfl hbox
  · exact hslope hhigh hbox le_rfl

lemma slope_mem (hpoint : InBox low high point) {range : ProjectionSlopes}
    (hrange : ∀ slope ∈ cornerSlopes eye low high axis a, range.low ≤ slope ∧ slope ≤ range.high) :
    range.low ≤ (point a-eye a) / (point axis-eye axis) ∧
      (point a-eye a) / (point axis-eye axis) ≤ range.high := by
  have hl := sub_le_sub_right (hpoint a).1 (eye a)
  have hh := sub_le_sub_right (hpoint a).2 (eye a)
  have hw := sub_le_sub_right (hpoint axis).1 (eye axis)
  have hw' := sub_le_sub_right (hpoint axis).2 (eye axis)
  have hll := hrange _ (mem_cornerSlopes (.inl rfl) (.inl rfl))
  have hlh := hrange _ (mem_cornerSlopes (.inl rfl) (.inr rfl))
  have hhl := hrange _ (mem_cornerSlopes (.inr rfl) (.inl rfl))
  have hhh := hrange _ (mem_cornerSlopes (.inr rfl) (.inr rfl))
  exact ⟨Corners.le_div_of_corners h.sign hl hh hw hw' hll.1 hlh.1 hhl.1 hhh.1,
    Corners.div_le_of_corners h.sign hl hh hw hw' hll.2 hlh.2 hhl.2 hhh.2⟩

/-- The bounds are swapped where the depths are negative. -/
lemma projection_spec (hpoint : InBox low high point) (hdelta : if positive then 0≤delta else delta≤0) :
    (projection eye low high axis positive a).axis=a ∧ 0 ≤ (projection eye low high axis positive a).margin ∧
      delta * (projection eye low high axis positive a).low≤delta * ((point a-eye a) / (point axis-eye axis)) ∧
      delta * ((point a-eye a) / (point axis-eye axis)) ≤
        delta * (projection eye low high axis positive a).high := by
  have hwidened := widened_foldl (cornerSlopes eye low high axis a)
    ⟨a,(cornerSlopes eye low high axis a).headD 0,(cornerSlopes eye low high axis a).headD 0, roundingMargin⟩
  have hmargin : 0 ≤ roundingMargin := by
    unfold roundingMargin
    norm_num
  obtain ⟨hlow,hhigh⟩ := slope_mem h hpoint hwidened.encloses
  unfold projection
  cases positive with
  | true =>
    exact ⟨hwidened.axis,hmargin.trans hwidened.margin,
      mul_le_mul_of_nonneg_left hlow hdelta,mul_le_mul_of_nonneg_left hhigh hdelta⟩
  | false =>
    exact ⟨hwidened.axis,hmargin.trans hwidened.margin,
      mul_le_mul_of_nonpos_left hhigh hdelta,mul_le_mul_of_nonpos_left hlow hdelta⟩

lemma projection_bounded (hbox : low axis≤high axis)
    (heye : |eye a| ≤ coordinateLimit) (hlow : |low a| ≤ coordinateLimit)
    (hhigh : |high a| ≤ coordinateLimit) :
    |(projection eye low high axis positive a).low| ≤ coordinateLimit ∧
      |(projection eye low high axis positive a).high| ≤ coordinateLimit ∧
      (projection eye low high axis positive a).margin ≤
        2*roundingMargin * (1+coordinateLimit) := by
  have hall := cornerSlopes_bounded h hbox heye hlow hhigh
  have hhead : |(cornerSlopes eye low high axis a).headD 0| ≤ coordinateLimit := hall _ (.head _)
  have hwidened := (widened_foldl (cornerSlopes eye low high axis a)
    ⟨a,(cornerSlopes eye low high axis a).headD 0,(cornerSlopes eye low high axis a).headD 0,
      roundingMargin⟩).bounded coordinateLimit hhead hhead (by
        unfold roundingMargin coordinateLimit
        norm_num) hall
  unfold projection
  cases positive with
  | true => exact hwidened
  | false => exact ⟨hwidened.2.1,hwidened.1,hwidened.2.2⟩

end

/-- Floors of what the limit allows are `i32`s. -/
lemma asI32_floor {v : ℚ} (h : |v| ≤ 2000000000) : asI32 ⌊v⌋ = ⌊v⌋ := by
  obtain ⟨hlow,hhigh⟩ := abs_le.1 h
  have hlower : (-2000000000 : ℤ) ≤ ⌊v⌋ := Int.le_floor.2 (by exact_mod_cast hlow)
  have hupper : ⌊v⌋ ≤ (2000000000 : ℤ) := by
    exact_mod_cast (Int.floor_le v).trans hhigh
  unfold asI32 i32Min i32Max
  omega

lemma asI32_ceil {v : ℚ} (h : |v| ≤ coordinateLimit) : asI32 ⌈v⌉ = ⌈v⌉ := by
  obtain ⟨hlow,hhigh⟩ := abs_le.1 h
  unfold coordinateLimit at hlow hhigh
  have hupper : ⌈v⌉ ≤ (8000000 : ℤ) := Int.ceil_le.2 (by exact_mod_cast hhigh)
  have hlower : (-8000000 : ℤ) ≤ ⌈v⌉ := by
    exact_mod_cast hlow.trans (Int.le_ceil v)
  unfold asI32 i32Min i32Max
  omega

lemma silhouette_mem {plane : ℚ} (h : Beside eye low high axis positive)
    (hlimit : ∀ i, |eye i| ≤ coordinateLimit ∧ |low i| ≤ coordinateLimit ∧
      |high i| ≤ coordinateLimit)
    (hpoint : InBox low high point)
    (hplane : if positive then 0≤plane-eye axis else plane-eye axis≤0)
    (hnear : |plane-eye axis| ≤ 66) :
    (silhouette eye low high plane axis positive a).1 ≤
        ⌊eye a + (plane-eye axis) * ((point a-eye a) / (point axis-eye axis))⌋ ∧
      ⌊eye a + (plane-eye axis) * ((point a-eye a) / (point axis-eye axis))⌋ ≤
        (silhouette eye low high plane axis positive a).2 := by
  obtain ⟨haxis,hmargin,hlow,hhigh⟩ := projection_spec (a := a) h hpoint hplane
  have hbox := (hpoint axis).1.trans (hpoint axis).2
  obtain ⟨hlowBound,hhighBound,hmarginBound⟩ :=
    projection_bounded (a := a) h hbox (hlimit a).1 (hlimit a).2.1 (hlimit a).2.2
  unfold silhouette
  dsimp only
  rw [haxis]
  have hbound : ∀ {slope margin : ℚ}, |slope| ≤ coordinateLimit → |margin| ≤ 1601 →
      |eye a + (plane-eye axis) * slope+margin| ≤ 2000000000 := by
    intro slope margin hslope hm
    have hproduct : |(plane-eye axis) * slope| ≤ 66*coordinateLimit := by
      rw [abs_mul]
      exact mul_le_mul hnear hslope (abs_nonneg _) (by norm_num)
    have htriangle := (abs_add_le (eye a + (plane-eye axis) * slope) margin)
    have htriangle' := abs_add_le (eye a) ((plane-eye axis) * slope)
    have heye := (hlimit a).1
    unfold coordinateLimit at hproduct heye
    linarith
  have hm : |(projection eye low high axis positive a).margin| ≤ 1601 := by
    rw [abs_of_nonneg hmargin]
    refine hmarginBound.trans ?_
    unfold roundingMargin coordinateLimit
    norm_num
  have hfirst := hbound hlowBound ((abs_neg _).trans_le hm)
  rw [← sub_eq_add_neg] at hfirst
  rw [asI32_floor hfirst,asI32_floor (hbound hhighBound hm)]
  exact ⟨Int.floor_le_floor (by linarith),Int.floor_le_floor (by linarith)⟩

end Cinnabar.Meshing
