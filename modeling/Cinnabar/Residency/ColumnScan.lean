import Cinnabar.Keys

/-! # Row cursors -/

namespace Cinnabar.Residency

/-- An `i32` coordinate. -/
abbrev Coordinate : Type := { value : ℤ // InI32 value }

structure Column where
  dimension : ℤ
  x : Coordinate
  z : Coordinate
deriving DecidableEq

/-- Columns in key order: dimension, then `x` and `z`. -/
instance : LinearOrder Column :=
  LinearOrder.lift' (fun column=>toLex (column.dimension,toLex (column.x,column.z))) (by
    intro a b h
    cases a
    cases b
    simpa [Prod.ext_iff] using h)

def saturate (value : ℤ) : Coordinate :=
  ⟨max i32Min (min value i32Max),by unfold InI32 i32Min i32Max; omega⟩

section Spans

/-- The largest distance a search finds to hold; it halves what is left. -/
def searchReach (holds : ℕ → Bool) (low high : ℕ) : ℕ :=
  if low<high then
    let middle := low + (high-low) / 2+1
    if holds middle then searchReach holds middle high else searchReach holds low (middle-1)
  else low
  termination_by high-low

def rowSpan (centre : Coordinate) (reach : ℤ) (contains : ℤ → Bool) :
    Option (Coordinate × Coordinate) :=
  if !contains centre then none
  else
    -- A representable side of the row is tested even at the coordinate limits.
    let low := searchReach (fun middle=>contains
      (if (centre : ℤ) + middle ≤ i32Max then centre+middle else centre-middle)) 0 reach.toNat
    some (saturate (centre-low),saturate (centre+low))

lemma searchReach_spec (holds : ℕ → Bool) (low high : ℕ) (hdown : ∀ d<high, holds (d+1) = true → holds d=true)
    (hle : low≤high) (hlow : holds low=true) :
    low ≤ searchReach holds low high ∧ searchReach holds low high≤high ∧
      ∀ d≤high, holds d=true ↔ d ≤ searchReach holds low high := by
  have hbelow : ∀ m d, d ≤ m → m≤high → holds m=true → holds d=true := by
    intro m d hdm
    induction m, hdm using Nat.le_induction with
    | base => exact fun _ h=>h
    | succ m _ ih => exact fun hm h=>ih (by omega) (hdown m (by omega) h)
  induction low, high using searchReach.induct holds with
  | case1 low high hlt middle hmiddle ih =>
    obtain ⟨h1,h2,h3⟩ := ih hdown (by omega) hmiddle hbelow
    have hstep : searchReach holds low high=searchReach holds middle high := by
      rw [searchReach,if_pos hlt]
      exact if_pos hmiddle
    rw [hstep]
    exact ⟨by omega,h2,h3⟩
  | case2 low high hlt middle hmiddle ih =>
    obtain ⟨h1,h2,h3⟩ := ih (fun d hd=>hdown d (by omega)) (by omega) hlow fun m d hdm hm=>hbelow m d hdm (by omega)
    have hstep : searchReach holds low high=searchReach holds low (middle-1) := by
      rw [searchReach,if_pos hlt]
      exact if_neg hmiddle
    rw [hstep]
    refine ⟨h1,by omega,fun d hd=>?_⟩
    by_cases hdm : d ≤ middle-1
    · exact h3 d hdm
    · exact ⟨fun h=>absurd (hbelow d middle (by omega) (by omega) h) hmiddle,fun h=>by omega⟩
  | case3 low high hge =>
    rw [searchReach,if_neg hge]
    refine ⟨le_rfl,hle,fun d hd=>⟨fun _=>by omega,fun h=>hbelow low d h hle hlow⟩⟩

structure Circular (centre : Coordinate) (reach : ℤ) (contains : ℤ → Bool) (within : ℕ → Bool) :
    Prop where
  eq : ∀ z, InI32 z → contains z=within (z-centre).natAbs
  down : ∀ d, within (d+1) = true → within d=true
  le_reach : ∀ d, within d=true → (d : ℤ) ≤ reach
  bound : reach ≤ i32Max

variable {c : Coordinate} {reach : ℤ} {contains : ℤ → Bool} {within : ℕ → Bool}

section

variable (h : Circular c reach contains within)
include h

lemma Circular.within_le {m d : ℕ} (hdm : d ≤ m) (hm : within m=true) : within d=true := by
  induction m, hdm using Nat.le_induction with
  | base => exact hm
  | succ m _ ih => exact ih (h.down m hm)

lemma Circular.centre {z : ℤ} (hz : InI32 z) (hcontains : contains z=true) : contains c=true := by
  rw [h.eq _ c.2,sub_self]
  rw [h.eq z hz] at hcontains
  exact h.within_le (Nat.zero_le _) hcontains

lemma Circular.rowSpan : (contains c=false ∧ rowSpan c reach contains=none ∧ ∀ z, InI32 z → contains z=false) ∨
    ∃ first last, rowSpan c reach contains=some (first,last) ∧
      ∀ z, InI32 z → (contains z=true ↔ first≤z ∧ z ≤ (last : ℤ)) := by
  by_cases hcentre : contains c=true
  · right
    unfold Residency.rowSpan
    rw [hcentre]
    refine ⟨_,_,rfl,fun z hz=>?_⟩
    have hholds : ∀ d : ℕ, (d : ℤ) ≤ i32Max → contains (if (c : ℤ) + d ≤ i32Max then
        (c : ℤ) + d else c-d) = within d := by
      intro d hd
      have hc := c.2
      unfold InI32 i32Min i32Max at hc
      split
      · rename_i hfits
        rw [h.eq _ ⟨by unfold i32Min; omega,hfits⟩]
        congr 1
        omega
      · rw [h.eq _ ⟨by unfold i32Min i32Max at *; omega,by unfold i32Max at *; omega⟩]
        congr 1
        omega
    generalize hsearch : (fun middle : ℕ=>contains
      (if (c : ℤ) + middle ≤ i32Max then (c : ℤ) + middle else c-middle)) = holds at *
    have hwithin : ∀ d : ℕ, d ≤ reach.toNat → holds d=within d := by
      intro d hd
      rw [← hsearch]
      have hbound := h.bound
      unfold i32Max at hbound
      exact hholds d (by unfold i32Max; omega)
    have hzero : within 0=true := by
      rw [h.eq _ c.2,sub_self] at hcentre
      exact hcentre
    obtain ⟨-,hle,hspan⟩ := searchReach_spec holds 0 reach.toNat (fun d hd hnext=>by
      rw [hwithin _ hd] at hnext
      rw [hwithin d (by omega)]
      exact h.down d hnext) (Nat.zero_le _) (by rw [hwithin 0 (Nat.zero_le _)]; exact hzero)
    generalize searchReach holds 0 reach.toNat=low at *
    have hiff : ∀ d, within d=true ↔ d≤low := by
      intro d
      by_cases hd : d ≤ reach.toNat
      · rw [← hwithin d hd]
        exact hspan d hd
      · refine ⟨fun hd'=>?_,fun hd'=>by omega⟩
        have := h.le_reach d hd'
        omega
    rw [h.eq z hz,hiff]
    unfold saturate
    dsimp only
    omega
  · have hnone := Bool.not_eq_true _ ▸ hcentre
    refine .inl ⟨hnone,?_,fun z hz=>?_⟩
    · unfold Residency.rowSpan
      rw [hnone]
      rfl
    · by_contra hcontains
      exact hcentre (h.centre hz (Bool.not_eq_false _ ▸ hcontains))

end

end Spans

/-- A circular full-detail region. -/
structure Disk where
  centre : Column
  radius : Coordinate

namespace Disk

variable (disk : Disk)

/-- Membership, without squaring differences outside the radius. -/
def containsAt (dimension x z : ℤ) : Bool :=
  let dx := x-disk.centre.x
  let dz := z-disk.centre.z
  dimension=disk.centre.dimension && (dx.natAbs : ℤ) ≤ disk.radius &&
    (dz.natAbs : ℤ) ≤ disk.radius && dx*dx+dz*dz ≤ (disk.radius : ℤ) * disk.radius

def contains (column : Column) : Bool :=
  disk.containsAt column.dimension column.x column.z

def row (x : Coordinate) : Option (Coordinate × Coordinate) :=
  rowSpan disk.centre.z disk.radius fun z=>disk.containsAt disk.centre.dimension x z

lemma circular_row (x : Coordinate) :
    Circular disk.centre.z disk.radius (fun z=>disk.containsAt disk.centre.dimension x z)
      fun d=>(((x : ℤ) - disk.centre.x).natAbs : ℤ) ≤ disk.radius && (d : ℤ) ≤ disk.radius &&
        ((x : ℤ) - disk.centre.x) * (x-disk.centre.x) + d*d ≤ (disk.radius : ℤ) * disk.radius where
  eq := by
    intro z _
    unfold containsAt
    dsimp only
    have hsquare : ((z-disk.centre.z).natAbs : ℤ) * (z-disk.centre.z).natAbs =
        (z-disk.centre.z) * (z-disk.centre.z) := Int.natAbs_mul_self' _
    rw [hsquare,decide_eq_true rfl,Bool.true_and]
  down := by
    intro d h
    simp only [Bool.and_eq_true,decide_eq_true_eq,Nat.cast_add,Nat.cast_one] at h ⊢
    refine ⟨⟨h.1.1,by omega⟩,?_⟩
    nlinarith [h.2,Int.natCast_nonneg d]
  le_reach := by
    intro d h
    simp only [Bool.and_eq_true,decide_eq_true_eq] at h
    exact h.1.2
  bound := disk.radius.2.2

lemma contains_iff (column : Column) (hdimension : column.dimension=disk.centre.dimension) : disk.contains column=true ↔
      ∃ first last, disk.row column.x=some (first,last) ∧ first ≤ column.z ∧ column.z≤last := by
  unfold contains row
  rw [hdimension]
  rcases (disk.circular_row column.x).rowSpan with ⟨-,hnone,hout⟩ | ⟨first,last,hspan,hin⟩
  · rw [hnone,hout _ column.z.2]
    simp
  · rw [hspan,hin _ column.z.2]
    constructor
    · exact fun h=>⟨first,last,rfl,h⟩
    · rintro ⟨_,_,heq,h⟩
      cases heq
      exact h

end Disk

/-- Visits only the entering portions of rows. -/
structure EnteringColumns where
  disk : Disk
  previous : Option Disk
  x : ℤ
  z : ℤ
  same_dimension : ∀ old, previous=some old → old.centre.dimension=disk.centre.dimension
  le_x : i32Min≤x

namespace EnteringColumns

def new (disk : Disk) (previous : Option Disk) : EnteringColumns where
  disk := disk
  previous := previous.filter fun old=>old.centre.dimension=disk.centre.dimension
  x := saturate (disk.centre.x-disk.radius)
  z := i32Min
  same_dimension := fun _ h=>of_decide_eq_true (Option.filter_eq_some_iff.1 h).2
  le_x := (saturate _).2.1

def lastRow (columns : EnteringColumns) : Coordinate :=
  saturate (columns.disk.centre.x+columns.disk.radius)

def rowNext (columns : EnteringColumns) : Option Column :=
  let x := saturate columns.x
  match columns.disk.row x with
  | none => none
  | some (first,last) =>
    let z := max columns.z (first : ℤ)
    let z : ℤ := match columns.previous.bind fun old=>old.row x with
      | some (oldFirst,oldLast) => if (oldFirst : ℤ) ≤ z ∧ z≤oldLast then (oldLast : ℤ)+1 else z
      | none => z
    if z≤last then some ⟨columns.disk.centre.dimension,x,saturate z⟩ else none

/-- Skips overlapping row intervals instead of testing every interior column. -/
def next (columns : EnteringColumns) : Option (Column × EnteringColumns) :=
  if columns.x ≤ columns.lastRow then
    match columns.rowNext with
    | some column => some (column,{ columns with z := column.z+1 })
    | none => next { columns with x := columns.x+1, z := i32Min, le_x := Int.le_add_one columns.le_x }
  else none
  termination_by (columns.lastRow+1-columns.x).toNat
  decreasing_by
    change ((columns.lastRow : ℤ)+1 - (columns.x+1)).toNat<_
    omega

/-- The columns not visited yet: of the new disk, not of the old one, from the cursor on. -/
def Pending (columns : EnteringColumns) (column : Column) : Prop :=
  columns.disk.contains column=true ∧ (∀ old, columns.previous=some old → old.contains column=false) ∧
    (columns.x < column.x ∨ columns.x=column.x ∧ columns.z ≤ column.z)

variable {columns : EnteringColumns} {column : Column}

lemma coe_saturate {value : ℤ} (h : InI32 value) : (saturate value : ℤ) = value := by
  unfold saturate
  dsimp only
  omega

lemma rowNext_spec (hx : columns.x ≤ columns.lastRow) : (∀ next, columns.rowNext=some next →
      (next.x : ℤ) = columns.x ∧ next.dimension=columns.disk.centre.dimension ∧
        columns.Pending next ∧ ∀ column, columns.Pending column → (column.x : ℤ) = columns.x →
          next.z ≤ column.z) ∧
    (columns.rowNext=none → ∀ column, columns.Pending column → (column.x : ℤ) ≠ columns.x) := by
  have hcoe : (saturate columns.x : ℤ) = columns.x := coe_saturate ⟨columns.le_x,hx.trans columns.lastRow.2.2⟩
  have hrow : ∀ column, columns.Pending column → (column.x : ℤ) = columns.x →
      column.dimension=columns.disk.centre.dimension ∧ column.x=saturate columns.x := by
    intro column hpending heq
    have hcontains := hpending.1
    unfold Disk.contains Disk.containsAt at hcontains
    simp only [Bool.and_eq_true,decide_eq_true_eq] at hcontains
    exact ⟨hcontains.1.1.1,Subtype.ext (heq.trans hcoe.symm)⟩
  have hpending_iff : ∀ z : Coordinate, columns.Pending ⟨columns.disk.centre.dimension,saturate columns.x,z⟩ ↔
      (∃ first last, columns.disk.row (saturate columns.x) = some (first,last) ∧ first≤z ∧ z≤last) ∧
        (∀ first last, (columns.previous.bind fun old=>old.row (saturate columns.x)) = some (first,last) →
          ¬(first≤z ∧ z≤last)) ∧ columns.z≤z := by
    intro z
    have hnew := columns.disk.contains_iff ⟨columns.disk.centre.dimension,saturate columns.x,z⟩ rfl
    unfold Pending
    rw [hnew]
    refine and_congr_right fun _=>and_congr ?_ ?_
    · cases hprevious : columns.previous with
      | none => simp
      | some old =>
        have hold : old.contains ⟨columns.disk.centre.dimension,saturate columns.x,z⟩ = true ↔ _ :=
          Disk.contains_iff old _ (columns.same_dimension old hprevious).symm
        simp only [Option.some.injEq,forall_eq',Option.bind_some]
        rw [← Bool.not_eq_true,hold]
        simp only [not_exists,not_and]
    · rw [hcoe]
      simp
  have hof : ∀ column, columns.Pending column → (column.x : ℤ) = columns.x →
      columns.Pending ⟨columns.disk.centre.dimension,saturate columns.x,column.z⟩ := by
    intro column hpending heq
    obtain ⟨hdimension,hx'⟩ := hrow column hpending heq
    rw [← hdimension,← hx']
    exact hpending
  unfold rowNext
  dsimp only
  cases hspan : columns.disk.row (saturate columns.x) with
  | none =>
    refine ⟨fun next h=>(by cases h),fun _ column hpending heq=>?_⟩
    obtain ⟨⟨first,last,hsome,-⟩,-⟩ := (hpending_iff _).1 (hof column hpending heq)
    rw [hspan] at hsome
    cases hsome
  | some span =>
    obtain ⟨first,last⟩ := span
    dsimp only
    have hsecond : (first : ℤ) ≤ max columns.z first := le_max_right _ _
    have hcursor : columns.z ≤ max columns.z (first : ℤ) := le_max_left _ _
    have hmax : ∀ w : ℤ, columns.z≤w → (first : ℤ) ≤ w → max columns.z (first : ℤ) ≤ w := fun w=>max_le
    generalize max columns.z (first : ℤ) = start at hsecond hcursor hmax ⊢
    generalize hz : (match columns.previous.bind fun old=>old.row (saturate columns.x) with
      | some (oldFirst,oldLast) =>
        if (oldFirst : ℤ) ≤ start ∧ start≤oldLast then (oldLast : ℤ)+1 else start
      | none => start) = z
    have hmin : start≤z ∧ (∀ oldFirst oldLast, (columns.previous.bind fun old=>old.row (saturate columns.x)) =
          some (oldFirst,oldLast) → ¬((oldFirst : ℤ) ≤ z ∧ z≤oldLast) ∧
            ∀ w : ℤ, start≤w → ¬((oldFirst : ℤ) ≤ w ∧ w≤oldLast) → z≤w) ∧
        ((columns.previous.bind fun old=>old.row (saturate columns.x)) = none →
          z=start) := by
      cases hold : columns.previous.bind fun old=>old.row (saturate columns.x) with
      | none =>
        rw [hold] at hz
        exact ⟨hz.le,fun _ _ h=>(by cases h),fun _=>hz.symm⟩
      | some span =>
        obtain ⟨oldFirst,oldLast⟩ := span
        rw [hold] at hz
        dsimp only at hz
        by_cases hin : (oldFirst : ℤ) ≤ start ∧ start≤oldLast
        · rw [if_pos hin] at hz
          refine ⟨by omega,fun a b h=>?_,fun h=>(by cases h)⟩
          cases h
          exact ⟨by omega,fun w hw hout=>by omega⟩
        · rw [if_neg hin] at hz
          refine ⟨by omega,fun a b h=>?_,fun h=>(by cases h)⟩
          cases h
          exact ⟨by omega,fun w hw hout=>by omega⟩
    have hleast : ∀ w : Coordinate, columns.Pending ⟨columns.disk.centre.dimension,saturate columns.x,w⟩ →
        z≤w ∧ w≤last := by
      intro w hw
      obtain ⟨⟨_,_,hsome,hfirst,hlast⟩,hout,hfrom⟩ := (hpending_iff w).1 hw
      rw [hspan] at hsome
      cases hsome
      have hstart : start≤w := hmax w hfrom hfirst
      refine ⟨?_,hlast⟩
      cases hold : columns.previous.bind fun old=>old.row (saturate columns.x) with
      | none => exact (hmin.2.2 hold).le.trans hstart
      | some span => exact (hmin.2.1 span.1 span.2 hold).2 w hstart (hout span.1 span.2 hold)
    split
    · rename_i hle
      have hzcoe : (saturate z : ℤ) = z := coe_saturate ⟨first.2.1.trans (hsecond.trans hmin.1),hle.trans last.2.2⟩
      refine ⟨fun next h=>?_,fun h=>(by cases h)⟩
      cases h
      refine ⟨hcoe,rfl,(hpending_iff _).2 ⟨⟨first,last,hspan,?_,?_⟩,?_,?_⟩,fun column hpending heq=>?_⟩
      · change (first : ℤ) ≤ saturate z
        rw [hzcoe]
        exact hsecond.trans hmin.1
      · change (saturate z : ℤ) ≤ last
        rw [hzcoe]
        exact hle
      · intro oldFirst oldLast hold hin
        refine (hmin.2.1 oldFirst oldLast hold).1 ?_
        rw [← hzcoe]
        exact hin
      · rw [hzcoe]
        exact hcursor.trans hmin.1
      · change (saturate z : ℤ) ≤ column.z
        rw [hzcoe]
        exact (hleast column.z (hof column hpending heq)).1
    · rename_i hgt
      refine ⟨fun next h=>(by cases h),fun _ column hpending heq=>?_⟩
      obtain ⟨hlow,hhigh⟩ := hleast column.z (hof column hpending heq)
      exact hgt (hlow.trans hhigh)

/-- Columns of the disk lie between its first and last rows. -/
lemma row_bounds {disk : Disk} (h : disk.contains column=true) :
    disk.centre.x-disk.radius ≤ (column.x : ℤ) ∧ (column.x : ℤ) ≤ disk.centre.x+disk.radius ∧
      column.dimension=disk.centre.dimension := by
  unfold Disk.contains Disk.containsAt at h
  simp only [Bool.and_eq_true,decide_eq_true_eq] at h
  omega

/-- How far a scan has to go. -/
def left (columns : EnteringColumns) : ℕ × ℕ :=
  ((columns.lastRow+1-columns.x).toNat,(i32Max+1-columns.z).toNat)

lemma next_spec (columns : EnteringColumns) : (columns.next=none → ∀ column, ¬columns.Pending column) ∧
    ∀ column after, columns.next=some (column,after) → columns.Pending column ∧ ¬after.Pending column ∧
        (∀ other, columns.Pending other ↔ other=column ∨ after.Pending other) ∧
        Prod.Lex (· < ·) (· < ·) after.left columns.left := by
  induction columns using EnteringColumns.next.induct with
  | case1 columns hx next hnext =>
    obtain ⟨hrow,-⟩ := rowNext_spec hx
    obtain ⟨hxeq,hdimension,hpending,hleast⟩ := hrow next hnext
    rw [EnteringColumns.next,if_pos hx,hnext]
    refine ⟨fun h=>(by cases h),fun column after h=>?_⟩
    cases h
    refine ⟨hpending,fun h=>?_,fun other=>⟨fun h=>?_,fun h=>?_⟩,?_⟩
    · rcases h.2.2 with hlt | ⟨-,hle⟩
      · dsimp only at hlt
        omega
      · dsimp only at hle
        omega
    · by_cases heq : (other.x : ℤ) = columns.x
      · have hz := hleast other h heq
        by_cases hsame : other.z=next.z
        · have hd := (row_bounds h.1).2.2
          have hx' : other.x=next.x := Subtype.ext (heq.trans hxeq.symm)
          cases other
          cases next
          simp_all
        · right
          refine ⟨h.1,h.2.1,.inr ⟨heq.symm,?_⟩⟩
          have hne : (other.z : ℤ) ≠ next.z := fun h=>hsame (Subtype.ext h)
          have hz' : (next.z : ℤ) ≤ other.z := hz
          dsimp only
          omega
      · right
        refine ⟨h.1,h.2.1,.inl ?_⟩
        rcases h.2.2 with hlt | ⟨heq',-⟩
        · exact hlt
        · exact absurd heq'.symm heq
    · rcases h with rfl | h
      · exact hpending
      · refine ⟨h.1,h.2.1,h.2.2.imp_right fun hz=>⟨hz.1,?_⟩⟩
        have hcursor := hpending.2.2
        have hz2 := hz.2
        dsimp only at hz2
        omega
    · refine Prod.Lex.right _ ?_
      have hcursor := hpending.2.2
      have hz := next.z.2.2
      change (i32Max+1 - ((next.z : ℤ)+1)).toNat < (i32Max+1-columns.z).toNat
      omega
  | case2 columns hx hnext ih =>
    obtain ⟨-,hrow⟩ := rowNext_spec hx
    have hsame : ∀ column, columns.Pending column ↔
        ({ columns with x := columns.x+1, z := i32Min, le_x := Int.le_add_one columns.le_x } :
          EnteringColumns).Pending column := by
      intro column
      refine ⟨fun h=>⟨h.1,h.2.1,?_⟩,fun h=>⟨h.1,h.2.1,.inl ?_⟩⟩
      · have hne := hrow hnext column h
        have hz := column.z.2.1
        have hcursor := h.2.2
        dsimp only
        omega
      · have hcursor := h.2.2
        dsimp only at hcursor
        omega
    rw [EnteringColumns.next,if_pos hx,hnext]
    refine ⟨fun h column=>(hsame column).not.2 (ih.1 h column),fun column after h=>?_⟩
    obtain ⟨h1,h2,h3,h4⟩ := ih.2 column after h
    refine ⟨(hsame column).2 h1,h2,fun other=>(hsame other).trans (h3 other),?_⟩
    have hfirst : (columns.lastRow+1 - (columns.x+1)).toNat < (columns.lastRow+1-columns.x).toNat := by omega
    have hle : after.left.1 ≤ (columns.lastRow+1 - (columns.x+1)).toNat := by
      rcases Prod.lex_def.1 h4 with hlt | ⟨heq,-⟩
      · exact hlt.le
      · exact heq.le
    exact Prod.lex_def.2 (.inl (hle.trans_lt hfirst))
  | case3 columns hx =>
    rw [EnteringColumns.next,if_neg hx]
    refine ⟨fun _ column h=>hx ?_,fun column after h=>(by cases h)⟩
    have hbounds := row_bounds h.1
    have hfits := column.x.2
    have hcursor := h.2.2
    unfold lastRow saturate
    dsimp only
    omega

/-- All the columns a scan visits, in order. -/
def collect (columns : EnteringColumns) : List Column :=
  match h : columns.next with
  | none => []
  | some (column,after) => column::after.collect
  termination_by columns.left
  decreasing_by exact (columns.next_spec.2 column after h).2.2.2

lemma collect_none (h : columns.next=none) : columns.collect = [] := by
  rw [collect]
  split
  · rfl
  · rename_i hsome
    rw [h] at hsome
    cases hsome

lemma collect_some {after : EnteringColumns} (h : columns.next=some (column,after)) :
    columns.collect=column::after.collect := by
  rw [collect]
  split
  · rename_i hnone
    rw [h] at hnone
    cases hnone
  · rename_i hsome
    rw [h] at hsome
    cases hsome
    rfl

lemma collect_spec (columns : EnteringColumns) :
    columns.collect.Nodup ∧ ∀ column, column ∈ columns.collect ↔ columns.Pending column := by
  induction columns using EnteringColumns.collect.induct with
  | case1 columns h =>
    rw [collect_none h]
    exact ⟨List.nodup_nil,fun column=>iff_of_false List.not_mem_nil (columns.next_spec.1 h column)⟩
  | case2 columns column after h ih =>
    obtain ⟨-,hfresh,hpending,-⟩ := columns.next_spec.2 column after h
    rw [collect_some h]
    refine ⟨List.nodup_cons.2 ⟨fun hmem=>hfresh ((ih.2 column).1 hmem),ih.1⟩,fun other=>?_⟩
    rw [List.mem_cons,hpending,ih.2]

lemma mem_collect_new (disk : Disk) (previous : Option Disk) :
    (new disk previous).collect.Nodup ∧ ∀ column, column ∈ (new disk previous).collect ↔
      disk.contains column=true ∧ ∀ old, previous=some old → old.contains column=false := by
  obtain ⟨hnodup,hmem⟩ := (new disk previous).collect_spec
  refine ⟨hnodup,fun column=>(hmem column).trans ⟨fun h=>⟨h.1,fun old hold=>?_⟩,fun h =>
    ⟨h.1,fun old hold=>h.2 old (Option.filter_eq_some_iff.1 hold).1,?_⟩⟩⟩
  · by_cases hdimension : old.centre.dimension=disk.centre.dimension
    · exact h.2.1 old (Option.filter_eq_some_iff.2 ⟨hold,decide_eq_true hdimension⟩)
    · by_contra hcontains
      have hold := (row_bounds (Bool.not_eq_false _ ▸ hcontains)).2.2
      exact hdimension (hold.symm.trans (row_bounds h.1).2.2)
  · have hbounds := row_bounds h.1
    have hx := column.x.2
    have hz := column.z.2
    change max i32Min (min ((disk.centre.x : ℤ) - disk.radius) i32Max) < column.x ∨
      max i32Min (min ((disk.centre.x : ℤ) - disk.radius) i32Max) = column.x ∧ i32Min ≤ (column.z : ℤ)
    omega

end EnteringColumns

end Cinnabar.Residency
