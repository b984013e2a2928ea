import Cinnabar.Keys

/-! # Free ranges of an arena stream -/

namespace Cinnabar.Uploads

open Finset

structure FreeRanges where
  /-- Each hole's start with its end. -/
  byStart : Finset (ℕ ×ₗ ℕ)
  /-- Each hole's length with its start. -/
  bySize : Finset (ℕ ×ₗ ℕ)

def checkedAlignUp (value alignment : ℕ) : Option ℕ :=
  if alignment=0 ∨ u32Max<value+(alignment-1) then none
  else some ((value+(alignment-1)) &&& (u32Max ^^^ (alignment-1)))

namespace FreeRanges

def empty : FreeRanges := ⟨∅,∅⟩

def remove (free : FreeRanges) (hole : ℕ ×ₗ ℕ) : FreeRanges :=
  ⟨free.byStart.erase hole,free.bySize.erase (toLex (hole.2-hole.1,hole.1))⟩

/-- A hole at a start that has none. -/
def add (free : FreeRanges) (start stop : ℕ) : FreeRanges :=
  ⟨Insert.insert (toLex (start,stop)) free.byStart,Insert.insert (toLex (stop-start,start)) free.bySize⟩

/-- The loop of `insert`: merges the holes that start inside or at the end. -/
def absorb (free : FreeRanges) (start stop : ℕ) : FreeRanges :=
  match _h : (free.byStart.filter fun hole=>start≤hole.1 ∧ hole.1 ≤ stop).min with
  | some hole => absorb (free.remove hole) start (max stop hole.2)
  | none => free.add start stop
termination_by free.byStart.card
decreasing_by exact card_erase_lt_of_mem (mem_filter.1 (mem_of_min _h)).1

/-- Frees a range, merging it with every hole it overlaps or touches. -/
def insert (free : FreeRanges) (start stop : ℕ) : FreeRanges :=
  if stop ≤ start then free else
    match (free.byStart.filter fun hole=>hole.1 ≤ start).max with
    | some hole =>
      if start≤hole.2 then (free.remove hole).absorb hole.1 (max stop hole.2)
      else free.absorb start stop
    | none => free.absorb start stop

/-- Where a hole, given by size, holds `required` items. -/
def fit (required alignment : ℕ) (hole : ℕ ×ₗ ℕ) : Option (ℕ × ℕ) :=
  (checkedAlignUp hole.2 alignment).bind fun aligned =>
    if aligned+required≤u32Max ∧ aligned+required≤hole.2+hole.1 then some (hole.2,aligned) else none

/-- The smallest hole that holds `required` items, as its start and the aligned start. -/
def bestFit (free : FreeRanges) (required alignment : ℕ) : Option (ℕ × ℕ) :=
  (free.bySize.sort.filter (toLex (required,0) ≤ ·)).findSome? (fit required alignment)

/-- Allocates from the best fit; a size entry without its hole would be a panic. -/
def take (free : FreeRanges) (required alignment : ℕ) : Option (ℕ × FreeRanges) :=
  (free.bestFit required alignment).bind fun fit =>
    match (free.byStart.filter fun hole=>hole.1=fit.1).min with
    | some hole =>
      some (fit.2,((free.remove hole).insert hole.1 fit.2).insert (fit.2+required) hole.2)
    | none => none

/-- Lowers `len` past every hole that ends at it. -/
def trimTail (free : FreeRanges) (len : ℕ) : FreeRanges × ℕ :=
  match _h : free.byStart.max with
  | some hole => if hole.2=len then trimTail (free.remove hole) hole.1 else (free,len)
  | none => (free,len)
termination_by free.byStart.card
decreasing_by exact card_erase_lt_of_mem (mem_of_max _h)

/-- Inserts one by one. -/
def insertAll (free : FreeRanges) (ranges : List (ℕ × ℕ)) : FreeRanges :=
  ranges.foldl (fun free range=>free.insert range.1 range.2) free

def fromIter (ranges : List (ℕ × ℕ)) : FreeRanges :=
  if (∀ range ∈ ranges, range.1 < range.2) ∧ ranges.IsChain fun before after=>before.2<after.1 then
    ⟨(ranges.map toLex).toFinset,(ranges.map fun range=>toLex (range.2-range.1,range.1)).toFinset⟩
  else empty.insertAll ranges

/-- The two indexes hold the same holes, which neither overlap nor touch. -/
structure Valid (free : FreeRanges) : Prop where
  whole : ∀ hole ∈ free.byStart, hole.1<hole.2 ∧ hole.2≤u32Max
  apart : ∀ hole ∈ free.byStart, ∀ other ∈ free.byStart, hole=other ∨ hole.2<other.1 ∨ other.2<hole.1
  sized : ∀ size start, toLex (size,start) ∈ free.bySize ↔ toLex (start,start+size) ∈ free.byStart

def Free (free : FreeRanges) (item : ℕ) : Prop :=
  ∃ hole ∈ free.byStart, hole.1 ≤ item ∧ item<hole.2

variable {free : FreeRanges} {hole : ℕ ×ₗ ℕ} {start stop item : ℕ}

lemma same_hole (hlt : start < stop) (size first : ℕ) :
    toLex (size,first) = toLex (stop-start,start) ↔ toLex (first,first+size) = toLex (start,stop) := by
  rw [toLex_inj,toLex_inj]
  grind

lemma Valid.remove (h : free.Valid) (hmem : hole ∈ free.byStart) : (free.remove hole).Valid where
  whole other hother := h.whole other (mem_of_mem_erase hother)
  apart other hother third hthird :=
    h.apart other (mem_of_mem_erase hother) third (mem_of_mem_erase hthird)
  sized size start := by
    have hsame := not_congr (same_hole (h.whole _ hmem).1 size start)
    exact mem_erase.trans ((and_congr hsame (h.sized size start)).trans mem_erase.symm)

lemma free_remove (h : free.Valid) (hmem : hole ∈ free.byStart) :
    (free.remove hole).Free item ↔ free.Free item ∧ ¬(hole.1 ≤ item ∧ item<hole.2) := by
  constructor
  · rintro ⟨other,hother,hin⟩
    obtain ⟨hne,hother⟩ := mem_erase.1 hother
    refine ⟨⟨other,hother,hin⟩,fun hself=>?_⟩
    rcases h.apart other hother hole hmem with heq | hlt | hlt
    · exact hne heq
    all_goals omega
  · rintro ⟨⟨other,hother,hin⟩,hout⟩
    refine ⟨other,mem_erase.2 ⟨?_,hother⟩,hin⟩
    rintro rfl
    exact hout hin

lemma absorb_spec (h : free.Valid) (hlt : start < stop) (hmax : stop≤u32Max)
    (hbelow : ∀ hole ∈ free.byStart, hole.1 < start → hole.2 < start) :
    (free.absorb start stop).Valid ∧
      ∀ item, (free.absorb start stop).Free item ↔ free.Free item ∨ start ≤ item ∧ item < stop := by
  fun_induction absorb free start stop with
  | case1 free stop hole hmin ih =>
    obtain ⟨hmem,hin⟩ := mem_filter.1 (mem_of_min hmin)
    have hwhole := h.whole hole hmem
    obtain ⟨hvalid,hfree⟩ := ih (h.remove hmem) (by omega) (by omega) fun other hother =>
      hbelow other (mem_of_mem_erase hother)
    refine ⟨hvalid,fun item=>?_⟩
    rw [hfree,free_remove h hmem]
    have hself : hole.1 ≤ item ∧ item<hole.2 → free.Free item := fun hin=>⟨hole,hmem,hin⟩
    grind
  | case2 free stop hnone =>
    have hclear (hole) (hmem : hole ∈ free.byStart) : hole.2 < start ∨ stop<hole.1 := by
      have hout := filter_eq_empty_iff.1 (Finset.min_eq_top.1 hnone) hmem
      have hbelow := hbelow hole hmem
      omega
    refine ⟨⟨fun hole hmem=>?_,fun hole hmem other hother=>?_,fun size first=>?_⟩,fun item=>?_⟩
    · rcases mem_insert.1 hmem with rfl | hmem
      · exact ⟨hlt,hmax⟩
      · exact h.whole hole hmem
    · rcases mem_insert.1 hmem with rfl | hmem <;> rcases mem_insert.1 hother with rfl | hother
      · exact .inl rfl
      · exact .inr (hclear other hother).symm
      · exact .inr (hclear hole hmem)
      · exact h.apart hole hmem other hother
    · have hsame := same_hole hlt size first
      exact mem_insert.trans ((or_congr hsame (h.sized size first)).trans mem_insert.symm)
    · refine exists_mem_insert _ _ _ |>.trans or_comm

lemma insert_spec (start : ℕ) (h : free.Valid) (hmax : stop≤u32Max) : (free.insert start stop).Valid ∧
    ∀ item, (free.insert start stop).Free item ↔ free.Free item ∨ start ≤ item ∧ item < stop := by
  unfold insert
  split_ifs with hempty
  · exact ⟨h,fun item=>(or_iff_left (by omega)).symm⟩
  have hlt := Nat.lt_of_not_le hempty
  split
  next hole hlast =>
    obtain ⟨hmem,hle⟩ := mem_filter.1 (mem_of_max hlast)
    have hwhole := h.whole hole hmem
    have hbefore (other) (hother : other ∈ free.byStart) (hlow : other.1<hole.1) : other.2<hole.1 := by
      rcases h.apart other hother hole hmem with rfl | hapart | hapart
      all_goals have hlong := h.whole other hother; omega
    split_ifs with htouch
    · obtain ⟨hvalid,hfree⟩ := absorb_spec (h.remove hmem) (by omega) (by omega : max stop hole.2≤u32Max)
        fun other hother=>hbefore other (mem_of_mem_erase hother)
      refine ⟨hvalid,fun item=>?_⟩
      rw [hfree,free_remove h hmem]
      have hself : hole.1 ≤ item ∧ item<hole.2 → free.Free item := fun hin=>⟨hole,hmem,hin⟩
      grind
    · refine absorb_spec h hlt hmax fun other hother hlow=>?_
      have hfirst : other.1≤hole.1 := Prod.Lex.monotone_fst _ _ (le_max_of_eq (mem_filter.2 ⟨hother,hlow.le⟩) hlast)
      have hlong := h.whole other hother
      rcases h.apart other hother hole hmem with rfl | hapart | hapart
      · exact Nat.lt_of_not_le htouch
      all_goals omega
  next hlast =>
    refine absorb_spec h hlt hmax fun other hother hlow=>?_
    exact absurd hlow.le (filter_eq_empty_iff.1 (Finset.max_eq_bot.1 hlast) hother)

/-- The last hole lies beyond all others. -/
lemma Valid.last (h : free.Valid) (hmax : free.byStart.max=some hole) {other : ℕ ×ₗ ℕ}
    (hother : other ∈ free.byStart) : other=hole ∨ other.2<hole.1 := by
  have hfirst : other.1≤hole.1 := Prod.Lex.monotone_fst _ _ (le_max_of_eq hother hmax)
  have hmem := mem_of_max hmax
  have hwhole := h.whole hole hmem
  have hwhole' := h.whole other hother
  rcases h.apart other hother hole hmem with heq | hlt | hlt
  · exact .inl heq
  · exact .inr hlt
  · omega

/-- `hole` ends at the length, and none lies beyond. -/
def Ends (free : FreeRanges) (len : ℕ) (hole : ℕ ×ₗ ℕ) : Prop :=
  hole ∈ free.byStart ∧ hole.2=len ∧ ∀ other ∈ free.byStart, other.2≤len

lemma trimTail_spec (h : free.Valid) (len : ℕ) :
    (∃ hole, free.Ends len hole ∧ free.trimTail len = (free.remove hole,hole.1)) ∨
    (∀ hole, ¬free.Ends len hole) ∧ free.trimTail len = (free,len) := by
  rw [trimTail]
  split
  next hole hmax =>
    have hmem := mem_of_max hmax
    have hwhole := h.whole hole hmem
    split_ifs with hend
    · refine .inl ⟨hole,⟨hmem,hend,fun other hother=>?_⟩,?_⟩
      · rcases h.last hmax hother with rfl | hlt <;> omega
      · rw [trimTail]
        split
        next last hlast =>
          obtain ⟨hne,hmem'⟩ := mem_erase.1 (mem_of_max hlast)
          exact if_neg ((h.last hmax hmem').resolve_left hne).ne
        next => rfl
    · refine .inr ⟨fun other ⟨hother,heq,hall⟩=>?_,rfl⟩
      have hlow := hall hole hmem
      rcases h.last hmax hother with rfl | hlt
      · exact hend heq
      · omega
  next hnone =>
    refine .inr ⟨fun other hends=>?_,rfl⟩
    have hother := hends.1
    rw [Finset.max_eq_bot.1 hnone] at hother
    cases hother

variable {value required exponent first : ℕ}

/-- The hole has room for an aligned block. -/
def Holds (hole : ℕ ×ₗ ℕ) (required alignment : ℕ) : Prop :=
  ∃ start, alignment ∣ start ∧ hole.1 ≤ start ∧ start+required≤hole.2

/-- `start` begins an aligned block in `hole`, the smallest with room for one and of these the
lowest. -/
structure Best (free : FreeRanges) (required alignment : ℕ) (hole : ℕ ×ₗ ℕ) (start : ℕ) : Prop where
  mem : hole ∈ free.byStart
  aligned : alignment ∣ start
  lower : hole.1 ≤ start
  upper : start+required≤hole.2
  least : ∀ other ∈ free.byStart, Holds other required alignment →
    toLex (hole.2-hole.1,hole.1) ≤ toLex (other.2-other.1,other.1)

lemma and_mask (hvalue : value≤u32Max) (exponent : ℕ) :
    value &&& (u32Max ^^^ (2^exponent-1)) = value/2^exponent*2^exponent := by
  rw [← Nat.shiftRight_eq_div_pow,← Nat.shiftLeft_eq]
  refine Nat.eq_of_testBit_eq fun i=>?_
  rw [Nat.testBit_and,Nat.testBit_xor,Nat.testBit_shiftLeft,Nat.testBit_shiftRight,
    Nat.testBit_two_pow_sub_one,show u32Max=2^32-1 from rfl,Nat.testBit_two_pow_sub_one]
  rcases Nat.lt_or_ge i 32 with hi | hi
  · rcases Nat.lt_or_ge i exponent with hlow | hlow
    · simp [hi,hlow,Nat.not_le_of_lt hlow]
    · simp [hi,hlow,Nat.not_lt_of_le hlow]
  · have hlt : value<2^i := lt_of_le_of_lt hvalue
      (lt_of_lt_of_le (by decide : u32Max<2^32) (Nat.pow_le_pow_right (by decide) hi))
    rw [Nat.testBit_lt_two_pow hlt]
    rcases Nat.lt_or_ge i exponent with hlow | hlow
    · simp [Nat.not_le_of_lt hlow]
    · simp [hlow,Nat.testBit_lt_two_pow hlt]

lemma checkedAlignUp_sound (h : checkedAlignUp value (2^exponent) = some first) : 2^exponent ∣ first ∧ value≤first := by
  unfold checkedAlignUp at h
  split_ifs at h with hbad
  obtain ⟨hpos,hfits⟩ := not_or.1 hbad
  rw [and_mask (Nat.le_of_not_lt hfits)] at h
  cases h
  have hdiv := Nat.div_add_mod' (value+(2^exponent-1)) (2^exponent)
  have hmod := Nat.mod_lt (value+(2^exponent-1)) (Nat.pos_of_ne_zero hpos)
  exact ⟨Nat.dvd_mul_left _ _,by omega⟩

/-- Aligning up finds the lowest aligned item. -/
lemma checkedAlignUp_least (hexponent : exponent<32) (hdvd : 2^exponent ∣ start)
    (hle : value ≤ start) (hmax : start≤u32Max) :
    ∃ first ≤ start, checkedAlignUp value (2^exponent) = some first := by
  obtain ⟨count,rfl⟩ := hdvd
  have hpos := Nat.two_pow_pos exponent
  have hnext : 2^exponent*(count+1) ≤ u32Max+1 := by
    have hwhole : 2^exponent*2^(32-exponent) = u32Max+1 := by
      rw [← pow_add,Nat.add_sub_cancel' hexponent.le]
      rfl
    rw [← hwhole]
    refine Nat.mul_le_mul_left _ (Nat.succ_le_of_lt (Nat.lt_of_mul_lt_mul_left (a := 2^exponent) ?_))
    omega
  rw [Nat.mul_add_one] at hnext
  refine ⟨_,?_,if_neg (by omega)⟩
  rw [and_mask (by omega),Nat.mul_comm _ count]
  refine Nat.mul_le_mul_right _ (Nat.le_of_lt_succ (Nat.div_lt_of_lt_mul ?_))
  rw [Nat.mul_add_one]
  omega

lemma fit_sound {size : ℕ} {fitted : ℕ × ℕ} (h : fit required (2^exponent) (toLex (size,start)) = some fitted) :
    fitted.1=start ∧ 2^exponent ∣ fitted.2 ∧ start≤fitted.2 ∧ fitted.2+required ≤ start+size := by
  obtain ⟨aligned,haligned,h⟩ := Option.bind_eq_some_iff.1 h
  split_ifs at h with hfits
  cases h
  obtain ⟨hdvd,hle⟩ := checkedAlignUp_sound haligned
  exact ⟨rfl,hdvd,hle,hfits.2⟩

lemma fit_complete {size : ℕ} (hexponent : exponent<32) (hmax : start+size≤u32Max)
    (h : Holds (toLex (start,start+size)) required (2^exponent)) :
    ∃ fitted, fit required (2^exponent) (toLex (size,start)) = some fitted := by
  obtain ⟨block,hdvd,hle,hend⟩ := h
  have hend : block+required ≤ start+size := hend
  obtain ⟨aligned,hlow,haligned⟩ := checkedAlignUp_least hexponent hdvd hle (by omega)
  refine ⟨(start,aligned),Option.bind_eq_some_iff.2 ⟨aligned,haligned,if_pos ?_⟩⟩
  exact ⟨by omega,show aligned+required ≤ start+size by omega⟩

lemma bestFit_spec (required : ℕ) (h : free.Valid) (hexponent : exponent<32) : (free.bestFit required (2^exponent) = none →
      ∀ hole ∈ free.byStart, ¬Holds hole required (2^exponent)) ∧
    ∀ fitted, free.bestFit required (2^exponent) = some fitted →
      ∃ hole, fitted.1=hole.1 ∧ free.Best required (2^exponent) hole fitted.2 := by
  have hentry (other) (hother : other ∈ free.byStart) (hholds : Holds other required (2^exponent)) :
      toLex (other.2-other.1,other.1) ∈ free.bySize.sort.filter (toLex (required,0) ≤ ·) ∧
        ∃ fitted, fit required (2^exponent) (toLex (other.2-other.1,other.1)) = some fitted := by
    obtain ⟨start,stop⟩ := other
    have hwhole := h.whole _ hother
    have hstop : start+(stop-start)=stop := Nat.add_sub_cancel' hwhole.1.le
    refine ⟨List.mem_filter.2 ⟨(mem_sort _).2 ((h.sized _ _).2 (by rwa [hstop])),?_⟩,
      fit_complete hexponent (by rw [hstop]; exact hwhole.2) (by rwa [hstop])⟩
    obtain ⟨block,-,hle,hend⟩ := hholds
    refine decide_eq_true (Prod.Lex.toLex_le_toLex'.2 ⟨?_,fun _=>Nat.zero_le _⟩)
    show required ≤ stop-start
    omega
  unfold bestFit
  refine ⟨fun hnone hole hmem hholds=>?_,fun fitted hsome=>?_⟩
  · obtain ⟨hlisted,fitted,hfit⟩ := hentry hole hmem hholds
    rw [List.findSome?_eq_none_iff.1 hnone _ hlisted] at hfit
    cases hfit
  · obtain ⟨before,⟨size,start⟩,after,hlist,hfit,hbefore⟩ := List.findSome?_eq_some_iff.1 hsome
    have hlisted : toLex (size,start) ∈ free.bySize.sort.filter (toLex (required,0) ≤ ·) := by
      rw [hlist]
      exact List.mem_append_right _ (.head _)
    obtain ⟨hfirst,hdvd,hle,hend⟩ := fit_sound hfit
    have hmem := (h.sized _ _).1 ((mem_sort _).1 (List.mem_of_mem_filter hlisted))
    refine ⟨_,hfirst,hmem,hdvd,hle,hend,fun other hother hholds=>?_⟩
    obtain ⟨hother,fitted,hfits⟩ := hentry other hother hholds
    show toLex (start+size-start,start) ≤ _
    rw [Nat.add_sub_cancel_left]
    have hsorted := (pairwise_sort free.bySize (· ≤ ·)).filter (toLex (required,0) ≤ ·)
    rw [hlist] at hother hsorted
    rcases List.mem_append.1 hother with hother | hother
    · rw [hbefore _ hother] at hfits
      cases hfits
    · rcases List.mem_cons.1 hother with heq | hother
      · exact heq.ge
      · exact (List.pairwise_cons.1 (List.pairwise_append.1 hsorted).2.1).1 _ hother

lemma take_spec (h : free.Valid) (hexponent : exponent<32) :
    (free.take required (2^exponent) = none ↔ ∀ hole ∈ free.byStart, ¬Holds hole required (2^exponent)) ∧
    ∀ start next, free.take required (2^exponent) = some (start,next) →
      next.Valid ∧ (∃ hole, free.Best required (2^exponent) hole start) ∧
      ∀ item, next.Free item ↔ free.Free item ∧ ¬(start ≤ item ∧ item < start+required) := by
  obtain ⟨hnone,hsome⟩ := bestFit_spec required h hexponent
  unfold take
  cases hfit : free.bestFit required (2^exponent) with
  | none => exact ⟨iff_of_true rfl (hnone hfit),fun _ _ h=>by cases h⟩
  | some fitted =>
    obtain ⟨hole,hfirst,hbest⟩ := hsome fitted hfit
    have hmem := hbest.mem
    have hle := hbest.lower
    have hend := hbest.upper
    have hwhole := h.whole hole hmem
    have hfind : (free.byStart.filter fun hole=>hole.1=fitted.1).min=some hole := by
      have hin : hole ∈ free.byStart.filter fun hole=>hole.1=fitted.1 := mem_filter.2 ⟨hmem,hfirst.symm⟩
      obtain ⟨other,hother⟩ := min_of_mem hin
      obtain ⟨hmem',heq⟩ := mem_filter.1 (mem_of_min hother)
      have hwhole' := h.whole other hmem'
      rcases h.apart other hmem' hole hmem with rfl | hlt | hlt
      · exact hother
      all_goals omega
    dsimp only [Option.bind_some]
    rw [hfind]
    refine ⟨iff_of_false (fun hbad=>by cases hbad) fun hnone=>hnone hole hmem ⟨_,hbest.aligned,hle,hend⟩,?_⟩
    rintro start next hnext
    cases hnext
    obtain ⟨hvalid,hfree⟩ := insert_spec hole.1 (h.remove hmem) (by omega : fitted.2≤u32Max)
    obtain ⟨hvalid,hfree'⟩ := insert_spec (fitted.2+required) hvalid hwhole.2
    refine ⟨hvalid,⟨hole,hbest⟩,fun item=>?_⟩
    rw [hfree',hfree,free_remove h hmem]
    have hself : hole.1 ≤ item ∧ item<hole.2 → free.Free item := fun hin=>⟨hole,hmem,hin⟩
    grind

lemma insert_above (hwhole : ∀ hole ∈ free.byStart, hole.1<hole.2 ∧ hole.2 < start)
    (hlt : start < stop) : free.insert start stop=free.add start stop := by
  have habsorb : free.absorb start stop=free.add start stop := by
    rw [absorb]
    split
    next hole hmin =>
      obtain ⟨hmem,hin⟩ := mem_filter.1 (mem_of_min hmin)
      have hlow := hwhole hole hmem
      omega
    next => rfl
  rw [insert,if_neg (Nat.not_le_of_lt hlt)]
  split
  next hole hlast =>
    have hlow := hwhole hole (mem_filter.1 (mem_of_max hlast)).1
    rw [if_neg (by omega),habsorb]
  next => exact habsorb

lemma insertAll_above {ranges : List (ℕ × ℕ)} (hranges : ∀ range ∈ ranges, range.1 < range.2)
    (hchain : ranges.IsChain fun before after=>before.2<after.1)
    (hfree : ∀ hole ∈ free.byStart, hole.1<hole.2 ∧ ∀ range ∈ ranges.head?, hole.2 < range.1) :
    free.insertAll ranges = ⟨free.byStart ∪ (ranges.map toLex).toFinset,
        free.bySize ∪ (ranges.map fun range=>toLex (range.2-range.1,range.1)).toFinset⟩ := by
  induction ranges generalizing free with
  | nil => simp [insertAll]
  | cons range rest ih =>
    obtain ⟨hrange,hrest⟩ := List.forall_mem_cons.1 hranges
    obtain ⟨hhead,hchain⟩ := List.isChain_cons.1 hchain
    change (free.insert range.1 range.2).insertAll rest=_
    rw [insert_above (fun hole hmem=>(hfree hole hmem).imp_right fun h=>h range rfl) hrange, ih hrest hchain]
    · simp only [add,List.map_cons,List.toFinset_cons,insert_union,union_insert]
    · intro hole hmem
      rcases mem_insert.1 hmem with rfl | hmem
      · exact ⟨hrange,hhead⟩
      · obtain ⟨hlt,hlow⟩ := hfree hole hmem
        refine ⟨hlt,fun next hnext=>?_⟩
        have hstep := hhead next hnext
        have hlow := hlow range rfl
        omega

lemma fromIter_eq (ranges : List (ℕ × ℕ)) : fromIter ranges=empty.insertAll ranges := by
  unfold fromIter
  split_ifs with h
  · rw [insertAll_above h.1 h.2 fun hole hmem=>by cases hmem]
    simp [empty]
  · rfl

inductive Op where
  | insert (start stop : UInt32)
  /-- The alignment is a power of two. -/
  | take (required : UInt32) (exponent : Fin 32)
  | trimTail (len : ℕ)
  | collect (ranges : List (UInt32 × UInt32))

def step (free : FreeRanges) : Op → FreeRanges
  | .insert start stop => free.insert start.toNat stop.toNat
  | .take required exponent => (free.take required.toNat (2^exponent.val)).elim free Prod.snd
  | .trimTail len => (free.trimTail len).1
  | .collect ranges => fromIter (ranges.map fun range=>(range.1.toNat,range.2.toNat))

def run (ops : List Op) : FreeRanges := ops.foldl step empty

lemma le_u32Max (value : UInt32) : value.toNat≤u32Max := Nat.le_of_lt_succ value.toNat_lt

lemma valid_empty : empty.Valid where
  whole _ h := by cases h
  apart _ h := by cases h
  sized _ _ := iff_of_false (notMem_empty _) (notMem_empty _)

lemma valid_step (h : free.Valid) (op : Op) : (free.step op).Valid := by
  cases op with
  | insert start stop => exact (insert_spec _ h (le_u32Max stop)).1
  | take required exponent =>
    change ((free.take required.toNat (2^exponent.val)).elim free Prod.snd).Valid
    cases htake : free.take required.toNat (2^exponent.val) with
    | none => exact h
    | some next => exact ((take_spec h exponent.isLt).2 _ _ htake).1
  | trimTail len =>
    change (free.trimTail len).1.Valid
    rcases trimTail_spec h len with ⟨hole,⟨hmem,-⟩,heq⟩ | ⟨-,heq⟩
    · rw [heq]
      exact h.remove hmem
    · rw [heq]
      exact h
  | collect ranges =>
    change (fromIter _).Valid
    rw [fromIter_eq,insertAll,List.foldl_map]
    exact List.foldlRecOn ranges _ valid_empty fun _ h range _=>(insert_spec _ h (le_u32Max range.2)).1

lemma valid_run (ops : List Op) : (run ops).Valid :=
  List.foldlRecOn ops _ valid_empty fun _ h op _=>valid_step h op

/-- After any run the indexes agree on holes that neither overlap nor touch, and the operations
are those of the exact set of free items, with best fit. -/
theorem run_exact (ops : List Op) : (run ops).Valid ∧
    (∀ (start stop : UInt32) item, ((run ops).insert start.toNat stop.toNat).Free item ↔
      (run ops).Free item ∨ start.toNat ≤ item ∧ item < stop.toNat) ∧
    (∀ (required : UInt32) (exponent : Fin 32), ((run ops).take required.toNat (2^exponent.val) = none ↔
        ∀ hole ∈ (run ops).byStart, ¬Holds hole required.toNat (2^exponent.val)) ∧
      ∀ start next, (run ops).take required.toNat (2^exponent.val) = some (start,next) → next.Valid ∧
        (∃ hole, (run ops).Best required.toNat (2^exponent.val) hole start) ∧
        ∀ item, next.Free item ↔ (run ops).Free item ∧ ¬(start ≤ item ∧ item < start+required.toNat)) ∧
    (∀ len, (∃ hole, (run ops).Ends len hole ∧ (run ops).trimTail len = ((run ops).remove hole,hole.1)) ∨
      (∀ hole, ¬(run ops).Ends len hole) ∧ (run ops).trimTail len = (run ops,len)) ∧
    ∀ ranges, fromIter ranges = empty.insertAll ranges :=
  ⟨valid_run ops,fun _ stop => (insert_spec _ (valid_run ops) (le_u32Max stop)).2,
    fun _ exponent => take_spec (valid_run ops) exponent.isLt,trimTail_spec (valid_run ops),fromIter_eq⟩

variable {free other : FreeRanges}

lemma Valid.hole_of_same (h : free.Valid) (h' : other.Valid) (hsame : ∀ item, free.Free item ↔ other.Free item)
    {hole : ℕ ×ₗ ℕ} (hmem : hole ∈ free.byStart) : hole ∈ other.byStart := by
  have hwhole := h.whole hole hmem
  obtain ⟨found,hfound,hlow,hhigh⟩ := (hsame hole.1).1 ⟨hole,hmem,le_rfl,hwhole.1⟩
  -- a hole that reached further on either side would touch the first one
  have hfirst : found.1=hole.1 := by
    by_contra hne
    obtain ⟨near,hnear,hbelow,habove⟩ := (hsame (hole.1-1)).2 ⟨found,hfound,by omega,by omega⟩
    rcases h.apart near hnear hole hmem with rfl | hlt | hlt <;> omega
  have hlast : found.2=hole.2 := by
    by_contra hne
    rcases Nat.lt_or_gt_of_ne hne with hshort | hlong
    · obtain ⟨near,hnear,hbelow,habove⟩ := (hsame found.2).1 ⟨hole,hmem,by omega,by omega⟩
      rcases h'.apart near hnear found hfound with rfl | hlt | hlt <;> omega
    · obtain ⟨near,hnear,hbelow,habove⟩ := (hsame hole.2).2 ⟨found,hfound,by omega,by omega⟩
      rcases h.apart near hnear hole hmem with rfl | hlt | hlt <;> omega
  exact (Prod.ext hfirst hlast : found=hole) ▸ hfound

/-- The free items determine both indexes. -/
lemma Valid.ext (h : free.Valid) (h' : other.Valid) (hsame : ∀ item, free.Free item ↔ other.Free item) :
    free=other := by
  have hstart : free.byStart=other.byStart := Finset.ext fun _=>
    ⟨h.hole_of_same h' hsame,h'.hole_of_same h fun item=>(hsame item).symm⟩
  have hsize : free.bySize=other.bySize := Finset.ext fun hole=>
    (h.sized hole.1 hole.2).trans (hstart ▸ (h'.sized hole.1 hole.2).symm)
  obtain ⟨byStart,bySize⟩ := free
  rw [show byStart=other.byStart from hstart,show bySize=other.bySize from hsize]

lemma insertAll_spec (h : free.Valid) (ranges : List (UInt32 × UInt32)) :
    (free.insertAll (ranges.map fun range=>(range.1.toNat,range.2.toNat))).Valid ∧
      ∀ item, (free.insertAll (ranges.map fun range=>(range.1.toNat,range.2.toNat))).Free item ↔
        free.Free item ∨ ∃ range ∈ ranges, range.1.toNat ≤ item ∧ item < range.2.toNat := by
  induction ranges generalizing free with
  | nil => exact ⟨h,fun item=>(or_iff_left fun ⟨_,hmem,_⟩=>List.not_mem_nil hmem).symm⟩
  | cons range rest ih =>
    obtain ⟨hvalid,hfree⟩ := insert_spec range.1.toNat h (le_u32Max range.2)
    refine ⟨(ih hvalid).1,fun item=>((ih hvalid).2 item).trans ?_⟩
    rw [hfree,or_assoc,List.exists_mem_cons_iff]

/-- After any run ranges can be freed in any order, and freeing what was taken undoes the take. -/
theorem frees_in_any_order (ops : List Op) :
    (∀ ranges ranges' : List (UInt32 × UInt32), (∀ range, range ∈ ranges ↔ range ∈ ranges') →
      (run ops).insertAll (ranges.map fun range=>(range.1.toNat,range.2.toNat))=
        (run ops).insertAll (ranges'.map fun range=>(range.1.toNat,range.2.toNat))) ∧
    ∀ (required : UInt32) (exponent : Fin 32) start next,
      (run ops).take required.toNat (2^exponent.val)=some (start,next) →
        next.insert start (start+required.toNat)=run ops := by
  have h := valid_run ops
  constructor
  · intro ranges ranges' hsame
    obtain ⟨hvalid,hfree⟩ := insertAll_spec h ranges
    obtain ⟨hvalid',hfree'⟩ := insertAll_spec h ranges'
    refine hvalid.ext hvalid' fun item=>(hfree item).trans (Iff.trans ?_ (hfree' item).symm)
    simp only [hsame]
  · intro required exponent start next htake
    obtain ⟨hnext,⟨hole,hbest⟩,hfree⟩ := (take_spec h exponent.isLt).2 start next htake
    have hmax := hbest.upper.trans (h.whole hole hbest.mem).2
    obtain ⟨hvalid,hback⟩ := insert_spec start hnext hmax
    refine hvalid.ext h fun item=>?_
    rw [hback,hfree]
    have hin : start ≤ item → item < start+required.toNat → (run ops).Free item := fun hlow hhigh=>
      ⟨hole,hbest.mem,hbest.lower.trans hlow,hhigh.trans_le hbest.upper⟩
    grind

end FreeRanges

end Cinnabar.Uploads
