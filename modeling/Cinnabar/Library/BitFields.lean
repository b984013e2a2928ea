import Mathlib.Data.List.Basic
import Mathlib.Data.Nat.Bitwise
import Mathlib.Algebra.Order.Ring.Nat
import Mathlib.Tactic.Ring

/-! # Bit fields packed into 32-bit words

A run of cells is packed a whole number of equal fields to a word, low bits first.
-/

namespace Cinnabar.BitFields

open Nat Function

/-- The ones of a field of `bits` bits at `shift`. -/
def fieldMask (bits shift : ℕ) : ℕ := (2^bits-1) <<< shift

/-- Reads the field of `bits` bits at `shift`. -/
def getField (bits shift word : ℕ) : ℕ := (word >>> shift) &&& (2^bits-1)

/-- Writes the field of `bits` bits at `shift` of a 32-bit word. -/
def setField (bits shift value word : ℕ) : ℕ :=
  (word &&& ((2^32-1) ^^^ fieldMask bits shift)) ||| ((value <<< shift) &&& fieldMask bits shift)

section Word
variable {bits shift shift' value word word' i : ℕ}

lemma testBit_getField : (getField bits shift word).testBit i = (word.testBit (shift+i) && decide (i<bits)) := by
  rw [getField,testBit_and,testBit_shiftRight,testBit_two_pow_sub_one]

lemma testBit_fieldMask : (fieldMask bits shift).testBit i = (decide (shift ≤ i) && decide (i < shift+bits)) := by
  rw [fieldMask,testBit_shiftLeft,testBit_two_pow_sub_one]
  by_cases h : shift ≤ i
  · simp only [h,decide_true,Bool.true_and,decide_eq_decide]
    omega
  · simp [h]

lemma testBit_setField (h : shift+bits≤32) : (setField bits shift value word).testBit i =
    if shift ≤ i ∧ i < shift+bits then value.testBit (i-shift)
    else word.testBit i && decide (i<32) := by
  simp only [setField,testBit_or,testBit_and,testBit_xor,testBit_fieldMask, testBit_two_pow_sub_one,testBit_shiftLeft]
  by_cases h1 : shift ≤ i
  · by_cases h2 : i < shift+bits
    · have h32 : i<32 := by omega
      simp [h1,h2,h32]
    · simp [h1,h2]
  · simp [h1]

lemma getField_lt : getField bits shift word<2^bits := by
  rw [getField,and_two_pow_sub_one_eq_mod]
  exact mod_lt _ (Nat.two_pow_pos bits)

lemma getField_setField_self (h : shift+bits≤32) :
    getField bits shift (setField bits shift value word) = value % 2^bits := by
  refine eq_of_testBit_eq fun i=>?_
  rw [testBit_getField,testBit_setField h,testBit_mod_two_pow]
  by_cases hi : i<bits
  · simp [hi]
  · simp [hi]

lemma getField_setField_ne (h : shift+bits≤32) (h' : shift'+bits≤32) (hne : shift'+bits ≤ shift ∨ shift+bits ≤ shift') :
    getField bits shift' (setField bits shift value word) = getField bits shift' word := by
  refine eq_of_testBit_eq fun i=>?_
  rw [testBit_getField,testBit_getField,testBit_setField h]
  by_cases hi : i<bits
  · rw [if_neg (by omega)]
    have : shift'+i<32 := by omega
    simp [hi,this]
  · simp [hi]

lemma setField_lt {n : ℕ} (h : shift+bits≤n) (hn : n≤32) (hw : word<2^n) : setField bits shift value word<2^n := by
  refine lt_pow_two_of_testBit _ fun i hi=>?_
  rw [testBit_setField (h.trans hn),if_neg (by omega),
    testBit_lt_two_pow (hw.trans_le (Nat.pow_le_pow_right (by omega) hi)),Bool.false_and]

/-- Words with the same fields and nothing above them are equal. -/
lemma word_ext {slots : ℕ} (hbits : 0<bits) (hw : word<2 ^ (slots*bits)) (hw' : word'<2 ^ (slots*bits))
    (h : ∀ slot < slots, getField bits (slot*bits) word=getField bits (slot*bits) word') :
    word=word' := by
  refine eq_of_testBit_eq fun i=>?_
  by_cases hi : i < slots*bits
  · have hslot : i/bits < slots := Nat.div_lt_of_lt_mul (by rwa [Nat.mul_comm] at hi)
    have hfield := congrArg (fun n=>n.testBit (i % bits)) (h _ hslot)
    have hindex : i/bits*bits+i % bits=i := div_add_mod' i bits
    simpa only [testBit_getField,hindex,mod_lt _ hbits,decide_true,Bool.and_true] using hfield
  · rw [testBit_lt_two_pow (hw.trans_le (Nat.pow_le_pow_right (by omega) (by omega))),
      testBit_lt_two_pow (hw'.trans_le (Nat.pow_le_pow_right (by omega) (by omega)))]

end Word

/-- Fields of `bits` bits a 32-bit word holds. -/
abbrev perWord (bits : ℕ) : ℕ := 32/bits

/-- Words that hold `cells` fields. -/
def wordsFor (bits cells : ℕ) : ℕ := (cells+perWord bits-1) / perWord bits

/-- Reads one cell's field; `none` where its word is missing. -/
def readCell (bits : ℕ) (words : List ℕ) (cell : ℕ) : Option ℕ :=
  words[cell/perWord bits]?.map (getField bits (cell % perWord bits*bits))

def writeCell (bits : ℕ) (words : List ℕ) (cell value : ℕ) : List ℕ :=
  words.modify (cell/perWord bits) (setField bits (cell % perWord bits*bits) value)

/-- `words` holds exactly the values of `f` on the first `cells` cells. -/
structure Packs (bits cells : ℕ) (f : ℕ → ℕ) (words : List ℕ) : Prop where
  length : words.length=wordsFor bits cells
  padding : ∀ k word, words[k]? = some word → word<2 ^ (min (cells - k*perWord bits) (perWord bits) * bits)
  read : ∀ cell < cells, readCell bits words cell=some (f cell)

section Pack
variable {bits cells : ℕ} {f g : ℕ → ℕ} {words words' : List ℕ}

lemma perWord_pos (hbits : 0<bits) (h32 : bits≤32) : 0<perWord bits :=
  Nat.div_pos h32 hbits

lemma perWord_mul_le : perWord bits*bits≤32 := div_mul_le_self 32 bits

lemma field_end_le (hpos : 0<perWord bits) (cell : ℕ) : cell % perWord bits*bits+bits≤32 := by
  have hlt := mod_lt cell hpos
  have hle := Nat.mul_le_mul_right bits hlt
  rw [succ_mul] at hle
  exact hle.trans perWord_mul_le

lemma word_lt_wordsFor {cell : ℕ} (hpos : 0<perWord bits) (hcell : cell < cells) :
    cell/perWord bits<wordsFor bits cells := by
  rw [wordsFor,Nat.div_lt_iff_lt_mul hpos]
  have h := div_add_mod (cells+perWord bits-1) (perWord bits)
  have hmod := mod_lt (cells+perWord bits-1) hpos
  rw [Nat.mul_comm]
  omega

lemma Packs.congr (h : Packs bits cells f words) (hfg : ∀ cell < cells, f cell=g cell) :
    Packs bits cells g words :=
  ⟨h.length,h.padding,fun cell hcell=>hfg cell hcell ▸ h.read cell hcell⟩

lemma packs_zero (hpos : 0<perWord bits) : Packs bits cells (fun _=>0) (List.replicate (wordsFor bits cells) 0) := by
  refine ⟨List.length_replicate,fun k word hk=>?_,fun cell hcell=>?_⟩
  · rw [List.getElem?_replicate] at hk
    split_ifs at hk
    cases hk
    exact Nat.two_pow_pos _
  · rw [readCell,List.getElem?_replicate,if_pos (word_lt_wordsFor hpos hcell),Option.map_some]
    simp [getField]

lemma readCell_writeCell (hpos : 0<perWord bits) {c cell value v : ℕ} (hread : readCell bits words c=some v) :
    readCell bits (writeCell bits words cell value) c =
      some (update (fun _=>v) cell (value % 2^bits) c) := by
  have hend := field_end_le hpos cell
  rw [readCell] at hread ⊢
  obtain ⟨old,hold,rfl⟩ := Option.map_eq_some_iff.1 hread
  rw [writeCell,List.getElem?_modify,hold,Option.map_eq_map,Option.map_some,Option.map_some, Option.some.injEq]
  by_cases hcc : c=cell
  · subst hcc
    rw [if_pos rfl,update_self,getField_setField_self hend]
  · rw [update_of_ne hcc]
    split_ifs with hword
    · have hne : c % perWord bits≠cell % perWord bits := by
        intro hmod
        refine hcc ?_
        rw [← div_add_mod c (perWord bits),← div_add_mod cell (perWord bits),hword,hmod]
      refine getField_setField_ne hend (field_end_le hpos c) ?_
      rcases Nat.lt_or_gt_of_ne hne with hlt | hgt
      · have hle := Nat.mul_le_mul_right bits hlt
        rw [succ_mul] at hle
        exact .inl hle
      · have hle := Nat.mul_le_mul_right bits hgt
        rw [succ_mul] at hle
        exact .inr hle
    · rfl

lemma writeCell_lt (hpos : 0<perWord bits) {cell value : ℕ} (hwords : ∀ word ∈ words, word<2^32) :
    ∀ word ∈ writeCell bits words cell value, word<2^32 := by
  intro word hword
  obtain ⟨k,hk⟩ := List.mem_iff_getElem?.1 hword
  rw [writeCell,List.getElem?_modify] at hk
  obtain ⟨old,hold,rfl⟩ := Option.map_eq_some_iff.1 hk
  have hlt := hwords old (List.mem_of_getElem? hold)
  split_ifs
  · exact setField_lt (field_end_le hpos cell) le_rfl hlt
  · exact hlt

lemma Packs.write (h : Packs bits cells f words) (hpos : 0<perWord bits) {cell value : ℕ}
    (hcell : cell < cells) : Packs bits cells (update f cell (value % 2^bits))
      (writeCell bits words cell value) := by
  refine ⟨by rw [writeCell,List.length_modify,h.length],fun k word hk=>?_,fun c hc=>?_⟩
  · rw [writeCell,List.getElem?_modify] at hk
    obtain ⟨old,hold,rfl⟩ := Option.map_eq_some_iff.1 hk
    have hlt := h.padding k old hold
    split_ifs with hword
    · -- The written cell's field ends within the used bits of its word.
      refine setField_lt ?_ ((Nat.mul_le_mul_right bits (min_le_right _ _)).trans perWord_mul_le) hlt
      have hslot : cell % perWord bits < min (cells - k*perWord bits) (perWord bits) := by
        have hdiv := div_add_mod' cell (perWord bits)
        have hmod := mod_lt cell hpos
        rw [hword] at hdiv
        omega
      have hle := Nat.mul_le_mul_right bits hslot
      rwa [succ_mul] at hle
    · exact hlt
  · rw [readCell_writeCell hpos (h.read c hc)]
    by_cases hcc : c=cell
    · rw [hcc,update_self,update_self]
    · rw [update_of_ne hcc,update_of_ne hcc]

lemma Packs.unique (h : Packs bits cells f words) (h' : Packs bits cells f words')
    (hbits : 0<bits) (hpos : 0<perWord bits) : words=words' := by
  refine List.ext_getElem? fun k=>?_
  by_cases hk : k<wordsFor bits cells
  · have hw := List.getElem?_eq_getElem (h.length ▸ hk : k<words.length)
    have hw' := List.getElem?_eq_getElem (h'.length ▸ hk : k<words'.length)
    rw [hw,hw',Option.some.injEq]
    refine word_ext hbits (h.padding k _ hw) (h'.padding k _ hw') fun slot hslot=>?_
    have hcell : k*perWord bits+slot < cells := by omega
    have hdiv : (k*perWord bits+slot) / perWord bits=k := by
      rw [Nat.mul_comm,mul_add_div hpos,div_eq_of_lt (by omega),Nat.add_zero]
    have hmod : (k*perWord bits+slot) % perWord bits=slot := by
      rw [Nat.mul_comm,mul_add_mod,mod_eq_of_lt (by omega)]
    have hr := h.read _ hcell
    have hr' := h'.read _ hcell
    rw [readCell,hdiv,hmod,hw,Option.map_some] at hr
    rw [readCell,hdiv,hmod,hw',Option.map_some,← hr,Option.some.injEq] at hr'
    exact hr'.symm
  · rw [List.getElem?_eq_none (by rw [h.length]; omega), List.getElem?_eq_none (by rw [h'.length]; omega)]

end Pack

end Cinnabar.BitFields
