import Mathlib.Algebra.Order.Field.Basic

/-! # Bounds from corners

A product, or a quotient by what keeps its sign, is bounded over a rectangle by its corners.
-/

namespace Cinnabar.Corners

variable {K : Type*} [Field K] [LinearOrder K] [IsStrictOrderedRing K] {a l h w lower upper B : K}

/-- Along one side a product is bounded by its ends. -/
lemma mul_le_of_ends (hl : l≤a) (hh : a≤h) (hlow : l*w≤B) (hhigh : h*w≤B) : a*w≤B := by
  rcases le_total 0 w with hw | hw
  · exact (mul_le_mul_of_nonneg_right hh hw).trans hhigh
  · exact (mul_le_mul_of_nonpos_right hl hw).trans hlow

lemma mul_le_of_corners (hl : l≤a) (hh : a≤h) (hw : lower≤w) (hw' : w≤upper)
    (hll : l*lower≤B) (hlu : l*upper≤B) (hhl : h*lower≤B) (hhu : h*upper≤B) :
    a*w≤B := by
  have hside : ∀ x, x*lower≤B → x*upper≤B → x*w≤B := by
    intro x hxl hxu
    rw [mul_comm] at hxl hxu ⊢
    exact mul_le_of_ends hw hw' hxl hxu
  exact mul_le_of_ends hl hh (hside l hll hlu) (hside h hhl hhu)

section

variable (hsign : 0<lower ∨ upper<0)
include hsign

/-- Where a depth keeps its sign, its reciprocal lies between those of its bounds. -/
lemma inv_mem (hw : lower≤w) (hw' : w≤upper) : upper⁻¹≤w⁻¹ ∧ w⁻¹≤lower⁻¹ := by
  rcases hsign with hpos | hneg
  · exact ⟨inv_anti₀ (hpos.trans_le hw) hw',inv_anti₀ hpos hw⟩
  · have hw0 : w<0 := hw'.trans_lt hneg
    exact ⟨(inv_le_inv_of_neg hneg hw0).2 hw',(inv_le_inv_of_neg hw0 (hw.trans_lt hw0)).2 hw⟩

lemma div_le_of_corners (hl : l≤a) (hh : a≤h) (hw : lower≤w) (hw' : w≤upper) (hll : l/lower≤B) (hlu : l/upper≤B)
    (hhl : h/lower≤B) (hhu : h/upper≤B) : a/w≤B := by
  rw [div_eq_mul_inv] at *
  obtain ⟨hinv,hinv'⟩ := inv_mem hsign hw hw'
  exact mul_le_of_corners hl hh hinv hinv' hlu hll hhu hhl

lemma le_div_of_corners (hl : l≤a) (hh : a≤h) (hw : lower≤w) (hw' : w≤upper) (hll : B≤l/lower) (hlu : B≤l/upper)
    (hhl : B≤h/lower) (hhu : B≤h/upper) : B≤a/w := by
  have hneg : ∀ x y : K, B≤x/y → -x/y ≤ -B := fun x y hxy=>by
    rw [neg_div]
    exact neg_le_neg hxy
  have hle := div_le_of_corners hsign (neg_le_neg hh) (neg_le_neg hl) hw hw' (hneg _ _ hhl)
    (hneg _ _ hhu) (hneg _ _ hll) (hneg _ _ hlu)
  rw [neg_div] at hle
  exact neg_le_neg_iff.1 hle

end

end Cinnabar.Corners
