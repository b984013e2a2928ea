import Cinnabar.Inventory.Crafting

/-! # One augmentation -/

namespace Cinnabar.Inventory

open List

namespace Visit

variable {visit : Visit} {cell other ingredient : ℕ}

@[simp] lemma claim_mark : (visit.mark cell).claim other=visit.claim other := rfl

@[simp] lemma occupied_mark : (visit.mark cell).occupied=visit.occupied := rfl

@[simp] lemma seen_occupy : (visit.occupy cell ingredient).seen=visit.seen := rfl

lemma saw_mark (h : cell<visit.seen.length) :
    (visit.mark cell).saw other = if cell=other then true else visit.saw other := by
  unfold saw mark
  rw [List.getD_eq_getElem?_getD,List.getD_eq_getElem?_getD,List.getElem?_set]
  split
  · rfl
  · rfl

lemma claim_occupy (h : cell<visit.occupied.length) : (visit.occupy cell ingredient).claim other =
      if cell=other then some ingredient else visit.claim other := by
  unfold claim occupy
  rw [List.getD_eq_getElem?_getD,List.getD_eq_getElem?_getD,List.getElem?_set]
  split
  · rfl
  · rfl

lemma claim_eq_getElem (h : cell<visit.occupied.length) : visit.claim cell=visit.occupied[cell] := getD_eq_getElem _ _ h

def claims (visit : Visit) (ingredient : ℕ) : ℕ := visit.occupied.count (some ingredient)

lemma claims_occupy (visit : Visit) (ingredient other : ℕ) (h : cell<visit.occupied.length) :
    (visit.occupy cell ingredient).claims other + (if visit.claim cell=some other then 1 else 0) =
      visit.claims other + if ingredient=other then 1 else 0 := by
  unfold claims occupy
  rw [count_set h,claim_eq_getElem h]
  have hpos : visit.occupied[cell] = some other → 0<visit.occupied.count (some other) :=
    fun heq=>count_pos_iff.2 (heq ▸ getElem_mem h)
  by_cases hold : visit.occupied[cell] = some other
  · have := hpos hold
    simp only [hold,beq_self_eq_true,if_true,Option.some_beq_some,beq_iff_eq]
    omega
  · simp only [hold,beq_iff_eq,if_false,Option.some_beq_some,Nat.sub_zero,Nat.add_zero]

def unseen (visit : Visit) : ℕ := visit.seen.count false

lemma unseen_mark (h : cell<visit.seen.length) (hsaw : visit.saw cell=false) :
    (visit.mark cell).unseen+1=visit.unseen := by
  have hget : visit.seen[cell] = false := by
    rw [← hsaw]
    exact (getD_eq_getElem _ _ h).symm
  have hpos : 0<visit.seen.count false := count_pos_iff.2 (hget ▸ getElem_mem h)
  unfold unseen mark
  rw [count_set h,hget]
  simp only [beq_self_eq_true,if_true,Bool.true_beq,Bool.false_eq_true,if_false]
  omega

end Visit

namespace IngredientMatcher

variable {matcher : IngredientMatcher} {v w u : Visit} {cell ingredient turns : ℕ}

def Fits (matcher : IngredientMatcher) (ingredient cell : ℕ) : Prop :=
  matcher.exceeds ingredient=false ∧ matcher.acceptsCell ingredient cell=true

structure Shaped (matcher : IngredientMatcher) (visit : Visit) : Prop where
  occupied : visit.occupied.length=matcher.cells.length
  seen : visit.seen.length=matcher.cells.length

lemma Shaped.mark (h : matcher.Shaped v) : matcher.Shaped (v.mark cell) :=
  ⟨h.occupied,by rw [← h.seen]; exact length_set⟩

lemma Shaped.occupy (h : matcher.Shaped v) : matcher.Shaped (v.occupy cell ingredient) :=
  ⟨by rw [← h.occupied]; exact length_set,h.seen⟩

structure Placed (matcher : IngredientMatcher) (ingredient : ℕ) (v w : Visit) : Prop where
  shaped : matcher.Shaped w
  kept : ∀ {cell : ℕ}, v.saw cell=true → w.claim cell=v.claim cell
  fits : ∀ {cell claim : ℕ}, w.claim cell=some claim → v.claim cell=some claim ∨ matcher.Fits claim cell
  claims : ∀ other, w.claims other=v.claims other + if ingredient=other then 1 else 0

/-- A search that has placed nothing: whoever claims a visited cell has no unvisited one. -/
structure Searched (matcher : IngredientMatcher) (v w : Visit) : Prop where
  shaped : matcher.Shaped w
  occupied : w.occupied=v.occupied
  grows : ∀ {cell : ℕ}, v.saw cell=true → w.saw cell=true
  unseen : w.unseen≤v.unseen
  closed : ∀ {cell : ℕ}, w.saw cell=true → v.saw cell=false →
    ∃ previous, v.claim cell=some previous ∧ ∀ other, matcher.Fits previous other → w.saw other=true

structure Failed (matcher : IngredientMatcher) (ingredient : ℕ) (v w : Visit) : Prop
    extends Searched matcher v w where
  exhausted : ∀ other, matcher.Fits ingredient other → w.saw other=true

namespace Searched

lemma refl (h : matcher.Shaped v) : Searched matcher v v :=
  ⟨h,rfl,id,Nat.le_refl _,fun hsaw hnot=>by rw [hsaw] at hnot; cases hnot⟩

lemma claim (h : Searched matcher v w) : w.claim cell=v.claim cell := by
  unfold Visit.claim
  rw [h.occupied]

lemma trans (h : Searched matcher v w) (h' : Searched matcher w u) : Searched matcher v u where
  shaped := h'.shaped
  occupied := h'.occupied.trans h.occupied
  grows hsaw := h'.grows (h.grows hsaw)
  unseen := h'.unseen.trans h.unseen
  closed {cell} hsaw hnot := by
    cases hw : w.saw cell with
    | true =>
      obtain ⟨previous,hclaim,hall⟩ := h.closed hw hnot
      exact ⟨previous,hclaim,fun other hfits=>h'.grows (hall other hfits)⟩
    | false =>
      obtain ⟨previous,hclaim,hall⟩ := h'.closed hsaw hw
      exact ⟨previous,h.claim ▸ hclaim,hall⟩

lemma of_failed {previous : ℕ} (hcell : cell<v.seen.length) (hnot : v.saw cell=false)
    (hclaim : v.claim cell=some previous) (h : Failed matcher previous (v.mark cell) w) :
    Searched matcher v w where
  shaped := h.shaped
  occupied := h.occupied
  grows {other} hsaw := h.grows (by rw [Visit.saw_mark hcell]; split <;> trivial)
  unseen := h.unseen.trans (by have := Visit.unseen_mark hcell hnot; omega)
  closed {other} hsaw hunseen := by
    by_cases heq : cell=other
    · subst heq
      exact ⟨previous,hclaim,h.exhausted⟩
    · refine h.closed hsaw ?_
      rw [Visit.saw_mark hcell,if_neg heq]
      exact hunseen

end Searched

lemma Placed.after (h : Searched matcher v w) (h' : Placed matcher ingredient w u) : Placed matcher ingredient v u where
  shaped := h'.shaped
  kept hsaw := (h'.kept (h.grows hsaw)).trans h.claim
  fits hclaim := (h'.fits hclaim).imp_left fun hw=>h.claim ▸ hw
  claims other := by rw [h'.claims,Visit.claims,Visit.claims,h.occupied]

lemma Placed.free (hshaped : matcher.Shaped v) (hcell : cell < matcher.cells.length)
    (hfits : matcher.Fits ingredient cell) (hnot : v.saw cell=false)
    (hclaim : v.claim cell=none) :
    Placed matcher ingredient v ((v.mark cell).occupy cell ingredient) where
  shaped := hshaped.mark.occupy
  kept {other} hsaw := by
    rw [Visit.claim_occupy (hshaped.mark.occupied ▸ hcell),if_neg,Visit.claim_mark]
    rintro rfl
    rw [hsaw] at hnot
    cases hnot
  fits {other claim} hother := by
    rw [Visit.claim_occupy (hshaped.mark.occupied ▸ hcell)] at hother
    split at hother
    · rename_i heq
      cases hother
      exact .inr (heq ▸ hfits)
    · exact .inl hother
  claims other := by
    have hcount := (v.mark cell).claims_occupy ingredient other (hshaped.mark.occupied ▸ hcell)
    rw [Visit.claim_mark,hclaim,if_neg (by simp),Nat.add_zero] at hcount
    exact hcount

lemma Placed.moved {previous : ℕ} (hshaped : matcher.Shaped v)
    (hcell : cell < matcher.cells.length) (hfits : matcher.Fits ingredient cell)
    (hnot : v.saw cell=false) (hclaim : v.claim cell=some previous)
    (h : Placed matcher previous (v.mark cell) w) :
    Placed matcher ingredient v (w.occupy cell ingredient) where
  shaped := h.shaped.occupy
  kept {other} hsaw := by
    have hne : cell≠other := by
      rintro rfl
      rw [hsaw] at hnot
      cases hnot
    rw [Visit.claim_occupy (h.shaped.occupied ▸ hcell),if_neg hne]
    refine h.kept ?_
    rw [Visit.saw_mark (hshaped.seen ▸ hcell),if_neg hne]
    exact hsaw
  fits {other claim} hother := by
    rw [Visit.claim_occupy (h.shaped.occupied ▸ hcell)] at hother
    split at hother
    · rename_i heq
      cases hother
      exact .inr (heq ▸ hfits)
    · exact h.fits hother
  claims other := by
    have hcount := w.claims_occupy ingredient other (h.shaped.occupied ▸ hcell)
    have hkept : w.claim cell=some previous := by
      rw [h.kept (by rw [Visit.saw_mark (hshaped.seen ▸ hcell),if_pos rfl])]
      exact hclaim
    have hmoved : w.claims other=v.claims other + if previous=other then 1 else 0 := h.claims other
    rw [hkept,hmoved] at hcount
    by_cases heq : previous=other
    · simp only [heq,if_true] at hcount ⊢
      omega
    · simp only [heq,Option.some.injEq,if_false] at hcount
      exact hcount

def Answers (matcher : IngredientMatcher) (ingredient : ℕ) (v : Visit) (result : Bool × Visit) :
    Prop :=
  (result.1=true → Placed matcher ingredient v result.2) ∧ (result.1=false → Failed matcher ingredient v result.2)

lemma visitCells_spec {assign : ℕ → Visit → Bool × Visit} (moveAssigned : Bool) {cells : List ℕ}
    (hfits : matcher.exceeds ingredient=false)
    (hassign : ∀ previous v, matcher.Shaped v → v.unseen<turns → Answers matcher previous v (assign previous v))
    (hcells : ∀ cell ∈ cells, cell < matcher.cells.length) (hshaped : matcher.Shaped v)
    (hturns : v.unseen≤turns) :
    let result := matcher.visitCells assign ingredient moveAssigned cells v
    (result.1=true → Placed matcher ingredient v result.2) ∧ (result.1=false → Searched matcher v result.2 ∧
        ∀ cell ∈ cells, matcher.acceptsCell ingredient cell=true →
          (v.claim cell).isSome=moveAssigned → result.2.saw cell=true) := by
  induction cells generalizing v with
  | nil =>
    exact ⟨fun h=>(by cases h),fun _=>⟨.refl hshaped,fun _ hmem =>
      absurd hmem not_mem_nil⟩⟩
  | cons cell cells ih =>
    have hcell : cell < matcher.cells.length := hcells cell (.head _)
    have hrest : ∀ other ∈ cells, other < matcher.cells.length := fun other hmem =>
      hcells other (.tail _ hmem)
    intro result
    have hresult : result=matcher.visitCells assign ingredient moveAssigned (cell::cells) v := rfl
    clear_value result
    rw [visitCells] at hresult
    split at hresult
    · -- the cell is passed over
      rename_i hskip
      subst hresult
      obtain ⟨hplaced,hsearched⟩ := ih hrest hshaped hturns
      refine ⟨hplaced,fun hfalse=>⟨(hsearched hfalse).1,fun other hmem haccepts hpass=>?_⟩⟩
      rcases mem_cons.1 hmem with rfl | hmem
      · refine (hsearched hfalse).1.grows ?_
        simpa [haccepts,hpass] using hskip
      · exact (hsearched hfalse).2 other hmem haccepts hpass
    · rename_i hvisit
      simp only [Bool.or_eq_true,bne_iff_ne,Bool.not_eq_true',not_or,Bool.not_eq_true,
        not_not,Bool.not_eq_false] at hvisit
      obtain ⟨⟨hnot,-⟩,haccepts⟩ := hvisit
      have hfit : matcher.Fits ingredient cell := ⟨hfits,haccepts⟩
      dsimp only at hresult
      rw [Visit.claim_mark] at hresult
      cases hclaim : v.claim cell with
      | none =>
        rw [hclaim] at hresult
        subst hresult
        exact ⟨fun _=>.free hshaped hcell hfit hnot hclaim,fun h=>by cases h⟩
      | some previous =>
        rw [hclaim] at hresult
        dsimp only at hresult
        have hless := Visit.unseen_mark (hshaped.seen ▸ hcell) hnot
        obtain ⟨hplaced,hfailed⟩ := hassign previous (v.mark cell) hshaped.mark (by omega)
        cases hcall : assign previous (v.mark cell) with
        | mk found w =>
          rw [hcall] at hresult hplaced hfailed
          cases found with
          | true =>
            subst hresult
            exact ⟨fun _=>.moved hshaped hcell hfit hnot hclaim (hplaced rfl), fun h=>by cases h⟩
          | false =>
            subst hresult
            have hstep : Searched matcher v w := .of_failed (hshaped.seen ▸ hcell) hnot hclaim (hfailed rfl)
            have hsawCell : w.saw cell=true := (hfailed rfl).grows (by
              rw [Visit.saw_mark (hshaped.seen ▸ hcell),if_pos rfl])
            obtain ⟨hplaced',hsearched⟩ := ih hrest hstep.shaped (hstep.unseen.trans hturns)
            refine ⟨fun htrue=>.after hstep (hplaced' htrue),fun hfalse =>
              ⟨hstep.trans (hsearched hfalse).1,fun other hmem haccepts' hpass=>?_⟩⟩
            rcases mem_cons.1 hmem with rfl | hmem
            · exact (hsearched hfalse).1.grows hsawCell
            · exact (hsearched hfalse).2 other hmem haccepts' (hstep.claim ▸ hpass)

lemma assign_spec (hshaped : matcher.Shaped v) (hturns : v.unseen<turns) :
    Answers matcher ingredient v (matcher.assign turns ingredient v) := by
  induction turns generalizing ingredient v with
  | zero => exact absurd hturns (Nat.not_lt_zero _)
  | succ turns ih =>
    rw [assign]
    by_cases hexceeds : matcher.exceeds ingredient=true
    · rw [if_pos hexceeds]
      refine ⟨fun h=>(by cases h),fun _=>⟨.refl hshaped,fun other hfits=>?_⟩⟩
      cases hexceeds.symm.trans hfits.1
    · rw [if_neg hexceeds]
      have hfits : matcher.exceeds ingredient=false := Bool.eq_false_iff.2 hexceeds
      have hrange : ∀ cell ∈ List.range matcher.cells.length, cell < matcher.cells.length := fun _=>mem_range.1
      have hassign : ∀ previous v, matcher.Shaped v → v.unseen<turns →
          Answers matcher previous v (matcher.assign turns previous v) := fun previous v=>ih
      obtain ⟨hplaced,hsearched⟩ := visitCells_spec false hfits hassign hrange hshaped (Nat.le_of_lt_succ hturns)
      cases hfree : matcher.visitCells (matcher.assign turns) ingredient false
          (List.range matcher.cells.length) v with
      | mk found w =>
        rw [hfree] at hplaced hsearched
        cases found with
        | true => exact ⟨fun _=>hplaced rfl,fun h=>by cases h⟩
        | false =>
          obtain ⟨hfirst,hfreeCells⟩ := hsearched rfl
          obtain ⟨hplaced',hsearched'⟩ := visitCells_spec true hfits hassign
            hrange hfirst.shaped (hfirst.unseen.trans (Nat.le_of_lt_succ hturns))
          refine ⟨fun htrue=>.after hfirst (hplaced' htrue),fun hfalse=>?_⟩
          obtain ⟨hsecond,hclaimed⟩ := hsearched' hfalse
          refine ⟨hfirst.trans hsecond,fun other hother=>?_⟩
          have hlt : other < matcher.cells.length := by
            by_contra hge
            have hnone : matcher.cells.getD other none=none := getD_eq_default _ _ (Nat.le_of_not_lt hge)
            have := hother.2
            rw [acceptsCell,hnone] at this
            cases this
          -- free cells were tried by the first pass, claimed ones by the second
          cases hclaim : v.claim other with
          | none =>
            refine hsecond.grows (hfreeCells other (mem_range.2 hlt) hother.2 ?_)
            rw [hclaim]
            rfl
          | some previous =>
            refine hclaimed other (mem_range.2 hlt) hother.2 ?_
            rw [hfirst.claim,hclaim]
            rfl

end IngredientMatcher

end Cinnabar.Inventory
