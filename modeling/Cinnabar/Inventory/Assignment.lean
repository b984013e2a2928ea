import Cinnabar.Inventory.Matching

/-! # A complete assignment

Every ingredient is placed unless none of them can be.
-/

namespace Cinnabar.Inventory

open List

section Feeding

def Ingredient.Names (vanillaTagContains : String → String → Option Bool) (ingredient : Ingredient)
    (cell : CraftGridCell) : Prop :=
  if ingredient.tag then
    ingredient.name ∈ cell.tags ∨ vanillaTagContains ingredient.name cell.identifier=some true
  else ingredient.name=cell.identifier ∧ (ingredient.aux=recipeAnyAux ∨ ingredient.aux.toUInt32=cell.metadata)

def Recipe.Feeds (vanillaTagContains : String → String → Option Bool) (recipe : Recipe)
    (cells : List (Option CraftGridCell)) (crafts ingredient cell : ℕ) : Prop :=
  ∃ taken item, recipe.flat[ingredient]? = some taken ∧ cells[cell]? = some (some item) ∧
    taken.Names vanillaTagContains item ∧ taken.count.toNat*crafts ≤ item.count.toNat ∧
    taken.count.toNat*crafts≤255

/-- Distinct cells that feed the ingredients in order. -/
structure Recipe.Assigns (vanillaTagContains : String → String → Option Bool) (recipe : Recipe)
    (cells : List (Option CraftGridCell)) (crafts : ℕ) (assignment : List ℕ) : Prop where
  length : assignment.length=recipe.flat.length
  nodup : assignment.Nodup
  feeds : ∀ ingredient cell, assignment[ingredient]? = some cell →
    recipe.Feeds vanillaTagContains cells crafts ingredient cell

variable {vanillaTagContains : String → String → Option Bool} {recipe : Recipe}
  {cells : List (Option CraftGridCell)} {crafts ingredient cell : ℕ}

lemma Recipe.Feeds.fewer {fewer : ℕ} (h : recipe.Feeds vanillaTagContains cells crafts ingredient
      cell) (hle : fewer ≤ crafts) :
    recipe.Feeds vanillaTagContains cells fewer ingredient cell := by
  obtain ⟨taken,item,hflat,hcell,hnames,hheld,hmax⟩ := h
  have hmul := Nat.mul_le_mul_left taken.count.toNat hle
  exact ⟨taken,item,hflat,hcell,hnames,hmul.trans hheld,hmul.trans hmax⟩

lemma Recipe.Assigns.fewer {fewer : ℕ} {assignment : List ℕ}
    (h : recipe.Assigns vanillaTagContains cells crafts assignment) (hle : fewer ≤ crafts) :
    recipe.Assigns vanillaTagContains cells fewer assignment :=
  ⟨h.length,h.nodup,fun ingredient cell hsome=>(h.feeds ingredient cell hsome).fewer hle⟩

lemma amount_toNat (count crafts : UInt8) : (count.toUInt16*crafts.toUInt16).toNat=count.toNat*crafts.toNat := by
  have hcount := count.toNat_lt
  have hcrafts := crafts.toNat_lt
  refine Nat.mod_eq_of_lt ?_
  calc count.toNat*crafts.toNat≤255*255 := Nat.mul_le_mul (by omega) (by omega)
    _<2^16 := by decide

lemma accepts_iff (taken : Ingredient) (item : CraftGridCell) (crafts : UInt8) :
    accepts vanillaTagContains taken item crafts.toUInt16=true ↔ taken.Names vanillaTagContains item ∧
        taken.count.toNat*crafts.toNat ≤ item.count.toNat := by
  have hneeded : (checkedMulU16 taken.count.toUInt16 crafts.toUInt16).any (fun needed=>needed ≤ item.count) = true ↔
      taken.count.toNat*crafts.toNat ≤ item.count.toNat := by
    have hamount := amount_toNat taken.count crafts
    have hsmall := (taken.count.toUInt16*crafts.toUInt16).toNat_lt
    unfold checkedMulU16
    rw [UInt8.toNat_toUInt16,UInt8.toNat_toUInt16,if_pos (by omega),Option.any_some,
      decide_eq_true_eq,UInt16.le_iff_toNat_le,hamount]
  unfold accepts Ingredient.Names Ingredient.acceptsMetadata
  rw [Bool.and_eq_true,hneeded]
  cases taken.tag <;> simp [any_eq_true]

end Feeding

namespace IngredientMatcher

def of (vanillaTagContains : String → String → Option Bool) (recipe : Recipe)
    (cells : List (Option CraftGridCell)) (crafts : UInt8) : IngredientMatcher :=
  ⟨vanillaTagContains,recipe,cells,crafts,recipe.ingredientCounts⟩

lemma fits_of {vanillaTagContains : String → String → Option Bool} {recipe : Recipe}
    {cells : List (Option CraftGridCell)} {crafts : UInt8} {ingredient cell : ℕ} :
    (of vanillaTagContains recipe cells crafts).Fits ingredient cell ↔
      recipe.Feeds vanillaTagContains cells crafts.toNat ingredient cell := by
  unfold Fits exceeds acceptsCell recipeIngredientAccepts of Recipe.Feeds Recipe.ingredientCounts
  rw [List.getD_eq_getElem?_getD,List.getD_eq_getElem?_getD,List.getElem?_map]
  cases hflat : recipe.flat[ingredient]? with
  | none => simp
  | some taken =>
    cases hcell : cells[cell]? with
    | none => simp
    | some entry =>
      cases entry with
      | none => simp
      | some item =>
        have hamount := amount_toNat taken.count crafts
        simp only [Option.map_some,Option.getD_some,decide_eq_false_iff_not,Option.any_some,
          accepts_iff,Option.some.injEq,exists_and_left,exists_eq_left']
        rw [UInt16.lt_iff_toNat_lt,hamount,UInt16.toNat_ofNat,Nat.not_lt]
        tauto

variable {matcher : IngredientMatcher} {occupied : List (Option ℕ)} {done : ℕ}

/-- The ingredients before `done` are placed, each once. -/
structure Placing (matcher : IngredientMatcher) (done : ℕ) (occupied : List (Option ℕ)) : Prop where
  length : occupied.length=matcher.cells.length
  fits : ∀ cell ingredient, occupied[cell]? = some (some ingredient) → matcher.Fits ingredient cell
  claims : ∀ ingredient, occupied.count (some ingredient) = if ingredient<done then 1 else 0

def fresh (matcher : IngredientMatcher) (occupied : List (Option ℕ)) : Visit :=
  ⟨occupied,List.replicate matcher.cells.length false⟩

lemma getElem?_claim {visit : Visit} {cell claim : ℕ} :
    visit.occupied[cell]? = some (some claim) ↔ visit.claim cell=some claim := by
  unfold Visit.claim
  rw [List.getD_eq_getElem?_getD]
  cases visit.occupied[cell]? <;> simp

lemma saw_fresh {cell : ℕ} : (matcher.fresh occupied).saw cell=false := by
  unfold fresh Visit.saw
  rw [List.getD_eq_getElem?_getD,List.getElem?_replicate]
  split <;> rfl

lemma placing_nil (matcher : IngredientMatcher) : matcher.Placing 0 (List.replicate matcher.cells.length none) where
  length := length_replicate
  fits cell ingredient h := by
    rw [List.getElem?_replicate] at h
    split at h <;> cases h
  claims ingredient := by
    rw [if_neg (Nat.not_lt_zero _),count_replicate]
    rfl

section

variable (h : matcher.Placing done occupied)
include h

lemma assign_fresh (ingredient : ℕ) : matcher.Answers ingredient (matcher.fresh occupied)
      (matcher.assign (matcher.cells.length+1) ingredient (matcher.fresh occupied)) := by
  refine assign_spec ⟨h.length,length_replicate⟩ ?_
  unfold Visit.unseen fresh
  rw [count_replicate_self]
  exact Nat.lt_succ_self _

lemma Placing.extend {visit : Visit} (hplaced : matcher.Placed done (matcher.fresh occupied) visit) :
    matcher.Placing (done+1) visit.occupied where
  length := hplaced.shaped.occupied
  fits cell ingredient hclaim :=
    (hplaced.fits (getElem?_claim.1 hclaim)).elim (fun hold=>h.fits cell ingredient (getElem?_claim.2 hold)) id
  claims ingredient := by
    have hcount : visit.occupied.count (some ingredient) =
        occupied.count (some ingredient) + if done=ingredient then 1 else 0 :=
      hplaced.claims ingredient
    rw [hcount,h.claims]
    split <;> split <;> split <;> omega

lemma Placing.claim_inj {cell other ingredient : ℕ} (hcell : occupied[cell]? = some (some ingredient))
    (hother : occupied[other]? = some (some ingredient)) : cell=other := by
  by_contra hne
  obtain ⟨hlt,hget⟩ := List.getElem?_eq_some_iff.1 hcell
  obtain ⟨hlt',hget'⟩ := List.getElem?_eq_some_iff.1 hother
  have hdup : occupied.Duplicate (some ingredient) := by
    rw [duplicate_iff_exists_distinct_get]
    rcases Nat.lt_or_gt_of_ne hne with hless | hless
    · exact ⟨⟨cell,hlt⟩,⟨other,hlt'⟩,hless,hget.symm,hget'.symm⟩
    · exact ⟨⟨other,hlt'⟩,⟨cell,hlt⟩,hless,hget'.symm,hget.symm⟩
  have htwo : 2≤occupied.count (some ingredient) := by
    convert duplicate_iff_two_le_count.1 hdup
  rw [h.claims] at htwo
  split at htwo <;> omega

/-- After a failed augmentation the ingredients up to `done` have no distinct cells: those that
claim a visited cell fit visited cells only, and so does `done`. -/
lemma Placing.obstructed {visit : Visit} (hfailed : matcher.Failed done (matcher.fresh occupied) visit) {f : ℕ → ℕ}
    (hfits : ∀ ingredient≤done, matcher.Fits ingredient (f ingredient)) :
    ¬Set.InjOn f {ingredient | ingredient≤done} := by
  intro hinj
  let visited := (Finset.range matcher.cells.length).filter fun cell=>visit.saw cell=true
  let previous := fun cell=>((matcher.fresh occupied).claim cell).getD 0
  have hsaw : ∀ ingredient cell, (∀ other, matcher.Fits ingredient other → visit.saw other=true) →
      matcher.Fits ingredient cell → cell ∈ visited := by
    intro ingredient cell hall hfit
    refine Finset.mem_filter.2 ⟨Finset.mem_range.2 ?_,hall cell hfit⟩
    by_contra hge
    have hlength := hfailed.shaped.seen
    have hvisited := hall cell hfit
    unfold Visit.saw at hvisited
    rw [getD_eq_default _ _ (by omega)] at hvisited
    cases hvisited
  have hprevious : ∀ cell ∈ visited, occupied[cell]? = some (some (previous cell)) ∧
      ∀ other, matcher.Fits (previous cell) other → visit.saw other=true := by
    intro cell hmem
    obtain ⟨claim,hclaim,hall⟩ := hfailed.closed (Finset.mem_filter.1 hmem).2 saw_fresh
    have heq : previous cell=claim := by
      change ((matcher.fresh occupied).claim cell).getD 0=claim
      rw [hclaim,Option.getD_some]
    rw [heq]
    exact ⟨getElem?_claim.2 hclaim,hall⟩
  have hplaced : ∀ cell ∈ visited, previous cell<done := by
    intro cell hmem
    have hpos := count_pos_iff.2 (List.mem_of_getElem? (hprevious cell hmem).1)
    rw [h.claims] at hpos
    split at hpos
    · assumption
    · cases hpos
  have hcard : (insert done (visited.image previous)).card=visited.card+1 := by
    rw [Finset.card_insert_of_notMem,Finset.card_image_of_injOn]
    · intro cell hcell other hother heq
      have hclaim := (hprevious other hother).1
      rw [← show previous cell=previous other from heq] at hclaim
      exact h.claim_inj (hprevious cell hcell).1 hclaim
    · rw [Finset.mem_image]
      rintro ⟨cell,hmem,heq⟩
      exact absurd (hplaced cell hmem) (heq ▸ Nat.lt_irrefl _)
  have hmaps : ∀ ingredient ∈ insert done (visited.image previous), f ingredient ∈ visited := by
    intro ingredient hmem
    rcases Finset.mem_insert.1 hmem with rfl | hmem
    · exact hsaw _ _ hfailed.exhausted (hfits _ (Nat.le_refl _))
    · obtain ⟨cell,hcell,rfl⟩ := Finset.mem_image.1 hmem
      exact hsaw _ _ (hprevious cell hcell).2 (hfits _ (Nat.le_of_lt (hplaced cell hcell)))
  have hle := Finset.card_le_card_of_injOn f hmaps (hinj.mono fun ingredient hmem=>?_)
  · omega
  · rcases Finset.mem_insert.1 hmem with rfl | hmem
    · exact Nat.le_refl _
    · obtain ⟨cell,hcell,rfl⟩ := Finset.mem_image.1 hmem
      exact Nat.le_of_lt (hplaced cell hcell)

lemma assignAll_spec {left : ℕ} : (∀ result, matcher.assignAll (List.range' done left) occupied=some result →
      matcher.Placing (done+left) result) ∧
    ∀ f : ℕ → ℕ, (∀ ingredient<done+left, matcher.Fits ingredient (f ingredient)) →
      Set.InjOn f {ingredient | ingredient<done+left} →
      matcher.assignAll (List.range' done left) occupied≠none := by
  induction left generalizing done occupied with
  | zero => exact ⟨fun result hresult=>(by cases hresult; exact h),fun _ _ _=>nofun⟩
  | succ left ih =>
    rw [range'_succ,assignAll]
    obtain ⟨hplaced,hfailed⟩ := assign_fresh h done
    unfold fresh at hplaced hfailed
    cases hcall : matcher.assign (matcher.cells.length+1) done
        ⟨occupied,List.replicate matcher.cells.length false⟩ with
    | mk found visit =>
      rw [hcall] at hplaced hfailed
      cases found with
      | true =>
        have hnext := ih (h.extend (hplaced rfl))
        rw [Nat.add_right_comm,Nat.add_assoc] at hnext
        exact hnext
      | false =>
        refine ⟨fun result hresult=>(by cases hresult),fun f hfits hinj=>?_⟩
        refine absurd (hinj.mono fun ingredient hle=>?_) (h.obstructed (hfailed rfl)
          fun ingredient hle=>hfits ingredient (by omega))
        exact Nat.lt_of_le_of_lt hle (by omega)

end

/-- All ingredients are placed when distinct cells fit them. -/
lemma assignAll_range (matcher : IngredientMatcher) (count : ℕ) : (∀ result, matcher.assignAll (List.range count)
        (List.replicate matcher.cells.length none) = some result → matcher.Placing count result) ∧
    ∀ f : ℕ → ℕ, (∀ ingredient < count, matcher.Fits ingredient (f ingredient)) →
      Set.InjOn f {ingredient | ingredient < count} →
      matcher.assignAll (List.range count) (List.replicate matcher.cells.length none) ≠ none := by
  rw [range_eq_range',← Nat.zero_add count]
  simpa only [Nat.zero_add] using assignAll_spec matcher.placing_nil

end IngredientMatcher

section Cells

variable {occupied : List (Option ℕ)} {ingredient cell start : ℕ} {assignment : List ℕ}

/-- Reading the claims from the cell `start` on. -/
def readCells (occupied : List (Option ℕ)) (start : ℕ) (assignment : List ℕ) : List ℕ :=
  (occupied.zipIdx start).foldl (fun assignment claim =>
      match claim.1 with
      | some ingredient => assignment.set ingredient claim.2
      | none => assignment)
    assignment

lemma length_readCells : (readCells occupied start assignment).length=assignment.length := by
  induction occupied generalizing start assignment with
  | nil => rfl
  | cons claim occupied ih =>
    change (readCells occupied (start+1) _).length=_
    rw [ih]
    cases claim with
    | none => rfl
    | some ingredient => exact length_set

lemma readCells_absent (h : some ingredient ∉ occupied) :
    (readCells occupied start assignment)[ingredient]? = assignment[ingredient]? := by
  induction occupied generalizing start assignment with
  | nil => rfl
  | cons claim occupied ih =>
    rw [mem_cons,not_or] at h
    change (readCells occupied (start+1) _)[ingredient]? = _
    rw [ih h.2]
    cases claim with
    | none => rfl
    | some other => exact List.getElem?_set_ne fun heq=>h.1 (by rw [heq])

lemma readCells_claim (hcell : occupied[cell]? = some (some ingredient))
    (honce : occupied.count (some ingredient) ≤ 1) (hlt : ingredient<assignment.length) :
    (readCells occupied start assignment)[ingredient]? = some (start+cell) := by
  induction occupied generalizing start cell assignment with
  | nil => cases hcell
  | cons claim occupied ih =>
    cases cell with
    | zero =>
      cases hcell
      have habsent : some ingredient ∉ occupied := by
        rw [count_cons_self] at honce
        exact count_eq_zero.1 (Nat.le_zero.1 (Nat.le_of_succ_le_succ honce))
      change (readCells occupied (start+1) (assignment.set ingredient start))[ingredient]? = _
      rw [readCells_absent habsent,List.getElem?_set_self hlt,Nat.add_zero]
    | succ cell =>
      change (readCells occupied (start+1) _)[ingredient]? = _
      rw [ih hcell ((count_le_count_cons).trans honce),Nat.add_assoc,Nat.add_comm 1]
      cases claim with
      | none => exact hlt
      | some other =>
        rw [length_set]
        exact hlt

end Cells

section Assigning

variable {vanillaTagContains : String → String → Option Bool} {recipe : Recipe}
  {cells : List (Option CraftGridCell)} {crafts : UInt8}

/-- The claims of all ingredients, read off in order. -/
lemma assigns_cellsOf {occupied : List (Option ℕ)}
    (h : (IngredientMatcher.of vanillaTagContains recipe cells crafts).Placing recipe.flat.length occupied) :
    recipe.Assigns vanillaTagContains cells crafts.toNat
      (cellsOf recipe.flat.length occupied) := by
  have hlength : (cellsOf recipe.flat.length occupied).length=recipe.flat.length :=
    length_readCells.trans length_replicate
  have hclaimed : ∀ ingredient cell : ℕ, (cellsOf recipe.flat.length occupied)[ingredient]? = some cell →
      occupied[cell]? = some (some ingredient) := by
    intro ingredient cell hsome
    have hlt : ingredient < recipe.flat.length := hlength ▸ (List.getElem?_eq_some_iff.1 hsome).1
    have hcount := h.claims ingredient
    rw [if_pos hlt] at hcount
    obtain ⟨claimed,hget⟩ := List.mem_iff_getElem?.1 (count_pos_iff.1 (hcount ▸ Nat.one_pos))
    have hread : (cellsOf recipe.flat.length occupied)[ingredient]? = some (0+claimed) :=
      readCells_claim hget hcount.le (by rw [length_replicate]; exact hlt)
    rw [hsome,Nat.zero_add] at hread
    cases hread
    exact hget
  refine ⟨hlength,?_,fun ingredient cell hsome =>
    IngredientMatcher.fits_of.1 (h.fits cell ingredient (hclaimed ingredient cell hsome))⟩
  rw [List.nodup_iff_getElem?_ne_getElem?]
  intro ingredient other hless hlt heq
  have hcell := List.getElem?_eq_getElem hlt
  have hfirst := hclaimed other _ hcell
  have hsecond := hclaimed ingredient _ (heq.trans hcell)
  rw [hfirst] at hsecond
  cases hsecond
  exact Nat.lt_irrefl _ hless

lemma ingredientAssignment_spec :
    (∀ assignment, ingredientAssignment vanillaTagContains recipe cells crafts=some assignment →
      recipe.Assigns vanillaTagContains cells crafts.toNat assignment) ∧
    ((∃ assignment, recipe.Assigns vanillaTagContains cells crafts.toNat assignment) →
      (ingredientAssignment vanillaTagContains recipe cells crafts).isSome=true) := by
  have hcounts : recipe.ingredientCounts.length=recipe.flat.length := length_map _
  obtain ⟨hplaced,hcomplete⟩ := IngredientMatcher.assignAll_range
    (IngredientMatcher.of vanillaTagContains recipe cells crafts) recipe.flat.length
  unfold ingredientAssignment
  dsimp only
  rw [hcounts]
  constructor
  · intro assignment hsome
    obtain ⟨occupied,hoccupied,rfl⟩ := Option.map_eq_some_iff.1 hsome
    exact assigns_cellsOf (hplaced occupied hoccupied)
  · rintro ⟨assignment,hassigns⟩
    rw [Option.isSome_map,Option.isSome_iff_ne_none]
    refine hcomplete (fun ingredient=>assignment.getD ingredient 0) (fun ingredient hlt=>?_)
      fun ingredient hlt other hlt' heq=>?_
    · refine IngredientMatcher.fits_of.2 (hassigns.feeds ingredient _ ?_)
      have hbound := hassigns.length.symm ▸ hlt
      rw [getD_eq_getElem _ _ hbound]
      exact List.getElem?_eq_getElem hbound
    · have hbound : ingredient<assignment.length := hassigns.length.symm ▸ hlt
      have hbound' : other<assignment.length := hassigns.length.symm ▸ hlt'
      dsimp only at heq
      rw [getD_eq_getElem _ _ hbound,getD_eq_getElem _ _ hbound'] at heq
      exact (List.Nodup.getElem_inj_iff hassigns.nodup).1 heq

end Assigning

section Searching

variable {vanillaTagContains : String → String → Option Bool} {recipe : Recipe}
  {cells : List (Option CraftGridCell)} {low high : UInt8} {turns : ℕ}

def Recipe.Craftable (vanillaTagContains : String → String → Option Bool) (recipe : Recipe)
    (cells : List (Option CraftGridCell)) (crafts : UInt8) : Prop :=
  ∃ assignment, recipe.Assigns vanillaTagContains cells crafts.toNat assignment

lemma ingredientAssignment_isSome {crafts : UInt8} :
    (ingredientAssignment vanillaTagContains recipe cells crafts).isSome=true ↔
      recipe.Craftable vanillaTagContains cells crafts := by
  refine ⟨fun hsome=>?_,ingredientAssignment_spec.2⟩
  obtain ⟨assignment,hassignment⟩ := Option.isSome_iff_exists.1 hsome
  exact ⟨assignment,ingredientAssignment_spec.1 assignment hassignment⟩

/-- The upper half starts above `low` and ends at `high`. -/
lemma middle_bounds (h : low<high) : (low + ((high-low) / 2 + (high-low) % 2)).toNat =
      low.toNat + (high.toNat-low.toNat+1) / 2 := by
  rw [UInt8.lt_iff_toNat_lt] at h
  have hsub : (high-low).toNat=high.toNat-low.toNat :=
    UInt8.toNat_sub_of_le _ _ (UInt8.le_iff_toNat_le.2 (Nat.le_of_lt h))
  have hhigh := high.toNat_lt
  rw [UInt8.toNat_add,UInt8.toNat_add,UInt8.toNat_div,UInt8.toNat_mod,hsub]
  change (low.toNat + ((high.toNat-low.toNat) / 2 + (high.toNat-low.toNat) % 2) % 2^8) % 2^8=_
  omega

lemma searchCrafts_spec (hlow : low=0 ∨ recipe.Craftable vanillaTagContains cells low)
    (hhigh : ∀ crafts, recipe.Craftable vanillaTagContains cells crafts → crafts≤high)
    (hle : low≤high) (hturns : high.toNat-low.toNat≤turns) :
    let found := searchCrafts vanillaTagContains recipe cells turns low high
    (found=0 ∨ recipe.Craftable vanillaTagContains cells found) ∧
      ∀ crafts, recipe.Craftable vanillaTagContains cells crafts → crafts≤found := by
  induction turns generalizing low high with
  | zero =>
    have heq : high=low := by
      rw [UInt8.le_iff_toNat_le] at hle
      exact UInt8.toNat_inj.1 (by omega)
    exact ⟨hlow,heq ▸ hhigh⟩
  | succ turns ih =>
    intro found
    have hfound : found=searchCrafts vanillaTagContains recipe cells (turns+1) low high := rfl
    clear_value found
    rw [searchCrafts] at hfound
    split at hfound
    · rename_i hlt
      have hmiddle := middle_bounds hlt
      generalize low + ((high-low) / 2 + (high-low) % 2) = middle at hfound hmiddle
      have hlt' := UInt8.lt_iff_toNat_lt.1 hlt
      by_cases hcraftable : recipe.Craftable vanillaTagContains cells middle
      · rw [if_pos (ingredientAssignment_isSome.2 hcraftable)] at hfound
        subst hfound
        exact ih (.inr hcraftable) hhigh (UInt8.le_iff_toNat_le.2 (by omega)) (by omega)
      · rw [if_neg (fun hsome=>hcraftable (ingredientAssignment_isSome.1 hsome))] at hfound
        subst hfound
        have hone : (1 : UInt8) ≤ middle := UInt8.le_iff_toNat_le.2 (by
          change 1 ≤ middle.toNat
          omega)
        have hless : (middle-1).toNat=middle.toNat-1 := UInt8.toNat_sub_of_le _ _ hone
        refine ih hlow (fun crafts hcrafts=>?_) (UInt8.le_iff_toNat_le.2 (by omega)) (by omega)
        obtain ⟨assignment,hassigns⟩ := hcrafts
        -- a craftable count from `middle` on would make `middle` craftable
        rw [UInt8.le_iff_toNat_le,hless]
        by_contra hnot
        exact hcraftable ⟨assignment,hassigns.fewer (by omega)⟩
    · rename_i hnot
      have heq : high=low := by
        rw [UInt8.lt_iff_toNat_lt] at hnot
        rw [UInt8.le_iff_toNat_le] at hle
        exact UInt8.toNat_inj.1 (by omega)
      rw [hfound]
      exact ⟨hlow,heq ▸ hhigh⟩

/-- An assignment is found exactly when distinct occupied cells feed all ingredients, and it is
one; the largest craft count is the greatest for which there is one. -/
theorem ingredient_assignment_complete (vanillaTagContains : String → String → Option Bool)
    (recipe : Recipe) (cells : List (Option CraftGridCell)) :
    (∀ crafts : UInt8, (ingredientAssignment vanillaTagContains recipe cells crafts).isSome = true ↔
      ∃ assignment, recipe.Assigns vanillaTagContains cells crafts.toNat assignment) ∧
    (∀ (crafts : UInt8) (assignment : List ℕ),
      ingredientAssignment vanillaTagContains recipe cells crafts = some assignment →
        recipe.Assigns vanillaTagContains cells crafts.toNat assignment) ∧
    (∀ crafts : UInt8, maxCrafts vanillaTagContains recipe (some cells) = .ok crafts ↔
      crafts ≠ 0 ∧ recipe.Craftable vanillaTagContains cells crafts ∧
        ∀ other, recipe.Craftable vanillaTagContains cells other → other ≤ crafts) ∧
    (maxCrafts vanillaTagContains recipe (some cells) = .error .invalidRequest ↔
      ∀ crafts, crafts ≠ 0 → ¬recipe.Craftable vanillaTagContains cells crafts) ∧
    maxCrafts vanillaTagContains recipe none = .error .invalidRequest := by
  have hsearch : (searchCrafts vanillaTagContains recipe cells 255 0 255=0 ∨
      recipe.Craftable vanillaTagContains cells (searchCrafts vanillaTagContains recipe cells 255 0 255)) ∧
      ∀ crafts, recipe.Craftable vanillaTagContains cells crafts →
        crafts ≤ searchCrafts vanillaTagContains recipe cells 255 0 255 :=
    searchCrafts_spec (.inl rfl)
      (fun crafts _ => UInt8.le_iff_toNat_le.2 (Nat.le_of_lt_succ crafts.toNat_lt)) (by decide)
      (by decide)
  obtain ⟨hfound,hgreatest⟩ := hsearch
  have hmax : maxCrafts vanillaTagContains recipe (some cells) =
      if searchCrafts vanillaTagContains recipe cells 255 0 255=0 then .error .invalidRequest
      else .ok (searchCrafts vanillaTagContains recipe cells 255 0 255) := rfl
  generalize searchCrafts vanillaTagContains recipe cells 255 0 255 = found at *
  refine ⟨fun crafts => ingredientAssignment_isSome,fun crafts => ingredientAssignment_spec.1, fun crafts => ?_,?_,rfl⟩
  · rw [hmax]
    split
    · rename_i hzero
      refine ⟨fun h => (by cases h),fun ⟨hne,hcraftable,_⟩ => absurd ?_ hne⟩
      have hle := hgreatest crafts hcraftable
      rw [hzero,UInt8.le_iff_toNat_le] at hle
      exact UInt8.toNat_inj.1 (Nat.le_zero.1 hle)
    · rename_i hne
      constructor
      · intro h
        cases h
        exact ⟨hne,hfound.resolve_left hne,hgreatest⟩
      · rintro ⟨-,hcraftable,hall⟩
        have hle := UInt8.le_iff_toNat_le.1 (hgreatest crafts hcraftable)
        have hge := UInt8.le_iff_toNat_le.1 (hall found (hfound.resolve_left hne))
        exact congrArg _ (UInt8.toNat_inj.1 (Nat.le_antisymm hge hle))
  · rw [hmax]
    split
    · rename_i hzero
      refine ⟨fun _ crafts hne hcraftable => hne ?_,fun _=>rfl⟩
      have hle := hgreatest crafts hcraftable
      rw [hzero,UInt8.le_iff_toNat_le] at hle
      exact UInt8.toNat_inj.1 (Nat.le_zero.1 hle)
    · rename_i hne
      exact ⟨fun h => (by cases h),fun hnone => absurd (hfound.resolve_left hne) (hnone found hne)⟩

end Searching

end Cinnabar.Inventory
