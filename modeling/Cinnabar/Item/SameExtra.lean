import Cinnabar.Item.ExtraTree

/-! # Equality of item user data -/

namespace Cinnabar.Item

open Reader

variable {a b c x y z : Bytes} {count room : ℕ} {tag : UInt8}

section Equivalence

lemma sameFloat_comm (width exponentBits mantissaBits : ℕ) (a b : Bytes) :
    sameFloat width exponentBits mantissaBits a b =
      sameFloat width exponentBits mantissaBits b a := by
  unfold sameFloat
  by_cases h : a.length=width ∧ b.length=width
  · rw [if_pos h,if_pos h.symm]
    simp only [eq_comm,Bool.and_comm,Bool.and_left_comm]
  · rw [if_neg h,if_neg fun h'=>h h'.symm]

lemma sameFloat_eq {width exponentBits mantissaBits : ℕ} (ha : a.length=width)
    (hb : b.length=width) : sameFloat width exponentBits mantissaBits a b =
      some (sameBits width exponentBits mantissaBits (fromLe a) (fromLe b)) := if_pos ⟨ha,hb⟩

lemma sameBits_trans {width exponentBits mantissaBits a b c : ℕ} (h : sameBits width exponentBits mantissaBits a b=true)
    (h' : sameBits width exponentBits mantissaBits b c=true) :
    sameBits width exponentBits mantissaBits a c=true := by
  simp only [sameBits,Bool.and_eq_true,Bool.or_eq_true,decide_eq_true_eq] at h h' ⊢
  obtain ⟨⟨ha,-⟩,hab⟩ := h
  obtain ⟨⟨-,hc⟩,hbc⟩ := h'
  refine ⟨⟨ha,hc⟩,?_⟩
  rcases hab with rfl | ⟨ha,hb⟩
  · exact hbc
  · rcases hbc with rfl | ⟨-,hc⟩
    · exact .inr ⟨ha,hb⟩
    · exact .inr ⟨ha,hc⟩

lemma sameFloat_trans {width exponentBits mantissaBits : ℕ}
    (h : sameFloat width exponentBits mantissaBits a b=some true)
    (h' : sameFloat width exponentBits mantissaBits b c=some true) :
    sameFloat width exponentBits mantissaBits a c=some true := by
  have hlength : ∀ {a b : Bytes}, sameFloat width exponentBits mantissaBits a b=some true →
      a.length=width ∧ b.length=width := by
    intro a b h
    unfold sameFloat at h
    split at h
    · assumption
    · cases h
  have hab := hlength h
  have hbc := hlength h'
  rw [sameFloat_eq hab.1 hab.2,Option.some.injEq] at h
  rw [sameFloat_eq hbc.1 hbc.2,Option.some.injEq] at h'
  rw [sameFloat_eq hab.1 hbc.2,sameBits_trans h h']

variable {payload : Reader Bytes} {same : Bytes → Bytes → Option Bool}

lemma sameElements_succ : sameElements payload same (count+1) a b =
    (payload a).bind fun left=>(payload b).bind fun right =>
      (same left.1 right.1).bind fun equal =>
        if equal then sameElements payload same count left.2 right.2 else some false := rfl

lemma sameElements_comm (hsame : ∀ x y, same x y=same y x) (a b : Bytes) :
    sameElements payload same count a b=sameElements payload same count b a := by
  induction count generalizing a b with
  | zero => exact congrArg some (Bool.and_comm _ _)
  | succ count ih =>
    rw [sameElements_succ,sameElements_succ]
    cases ha : payload a with
    | none => cases hb : payload b <;> rfl
    | some left =>
      cases hb : payload b with
      | none => rfl
      | some right =>
        simp only [Option.bind_some]
        rw [hsame,ih]

lemma sameElements_trans (htrans : ∀ {x y z}, same x y=some true → same y z=some true → same x z=some true)
    (h : sameElements payload same count a b=some true)
    (h' : sameElements payload same count b c=some true) :
    sameElements payload same count a c=some true := by
  induction count generalizing a b c with
  | zero =>
    simp only [sameElements,Option.some.injEq,Bool.and_eq_true] at h h' ⊢
    exact ⟨h.1,h'.2⟩
  | succ count ih =>
    rw [sameElements_succ] at h h' ⊢
    obtain ⟨left,hleft,h⟩ := Option.bind_eq_some_iff.1 h
    obtain ⟨middle,hmiddle,h⟩ := Option.bind_eq_some_iff.1 h
    obtain ⟨middle',hmiddle',h'⟩ := Option.bind_eq_some_iff.1 h'
    obtain ⟨right,hright,h'⟩ := Option.bind_eq_some_iff.1 h'
    cases Option.some.inj (hmiddle.symm.trans hmiddle')
    obtain ⟨equal,hsame,h⟩ := Option.bind_eq_some_iff.1 h
    obtain ⟨equal',hsame',h'⟩ := Option.bind_eq_some_iff.1 h'
    cases equal with
    | false => cases h
    | true =>
      cases equal' with
      | false => cases h'
      | true =>
        rw [hleft,hright]
        simp only [Option.bind_some,htrans hsame hsame',if_true]
        exact ih h h'

variable {payloads : UInt8 → Reader Bytes} {sames : UInt8 → Bytes → Bytes → Option Bool}
  {entries others lasts : List Entry}

lemma sameList_eq : sameList payloads sames a b = (readU8 a).bind fun element=>(readU8 b).bind fun other =>
      (readCount element.2).bind fun count=>(readCount other.2).bind fun otherCount =>
        if element.1≠other.1 ∨ count.1≠otherCount.1 then some false
        else sameElements (payloads element.1) (sames element.1) count.1 count.2 otherCount.2 := rfl

lemma sameList_comm (hsame : ∀ tag x y, sames tag x y=sames tag y x) (a b : Bytes) :
    sameList payloads sames a b=sameList payloads sames b a := by
  rw [sameList_eq,sameList_eq]
  cases readU8 a with
  | none => cases readU8 b <;> rfl
  | some element =>
    cases readU8 b with
    | none => rfl
    | some other =>
      simp only [Option.bind_some]
      cases readCount element.2 with
      | none => cases readCount other.2 <;> rfl
      | some count =>
        cases readCount other.2 with
        | none => rfl
        | some otherCount =>
          simp only [Option.bind_some]
          by_cases h : element.1=other.1 ∧ count.1=otherCount.1
          · rw [if_neg (by simp [h]),if_neg (by simp [h]),h.1,h.2]
            exact sameElements_comm (hsame _) _ _
          · rw [if_pos (not_and_or.1 h),if_pos (not_and_or.1 fun h'=>h ⟨h'.1.symm,h'.2.symm⟩)]

lemma sameList_trans (htrans : ∀ {tag x y z}, sames tag x y=some true → sames tag y z=some true →
      sames tag x z=some true)
    (h : sameList payloads sames a b=some true) (h' : sameList payloads sames b c=some true) :
    sameList payloads sames a c=some true := by
  rw [sameList_eq] at h h' ⊢
  obtain ⟨⟨element,rest⟩,helement,h⟩ := Option.bind_eq_some_iff.1 h
  obtain ⟨⟨middle,middleRest⟩,hmiddle,h⟩ := Option.bind_eq_some_iff.1 h
  obtain ⟨⟨count,elements⟩,hcount,h⟩ := Option.bind_eq_some_iff.1 h
  obtain ⟨⟨middleCount,middleElements⟩,hmiddleCount,h⟩ := Option.bind_eq_some_iff.1 h
  rw [hmiddle,Option.bind_some] at h'
  obtain ⟨⟨last,lastRest⟩,hlast,h'⟩ := Option.bind_eq_some_iff.1 h'
  rw [hmiddleCount,Option.bind_some] at h'
  obtain ⟨⟨lastCount,lastElements⟩,hlastCount,h'⟩ := Option.bind_eq_some_iff.1 h'
  rw [helement,hlast]
  simp only [Option.bind_some]
  rw [hcount,hlastCount]
  simp only [Option.bind_some]
  split at h
  · cases h
  rename_i heq
  obtain ⟨rfl,rfl⟩ := not_not.1 fun hne=>heq (not_and_or.1 hne)
  split at h'
  · cases h'
  rename_i heq'
  rw [if_neg heq']
  exact sameElements_trans htrans h h'

lemma sameEntries_cons (entry other : Entry) : sameEntries sames (entry::entries) (other::others) =
      if entry.name≠other.name ∨ entry.tag≠other.tag then some false
      else (sames entry.tag entry.payload other.payload).bind fun equal =>
        if equal then sameEntries sames entries others else some false := rfl

lemma sameEntries_comm (hsame : ∀ tag x y, sames tag x y=sames tag y x) (entries others : List Entry) :
    sameEntries sames entries others=sameEntries sames others entries := by
  induction entries generalizing others with
  | nil => cases others <;> rfl
  | cons entry entries ih =>
    cases others with
    | nil => rfl
    | cons other others =>
      rw [sameEntries_cons,sameEntries_cons]
      by_cases h : entry.name=other.name ∧ entry.tag=other.tag
      · rw [if_neg (by simp [h]),if_neg (by simp [h]),h.2,hsame,ih]
      · rw [if_pos (not_and_or.1 h),if_pos (not_and_or.1 fun h'=>h ⟨h'.1.symm,h'.2.symm⟩)]

lemma sameEntries_trans (htrans : ∀ {tag x y z}, sames tag x y=some true → sames tag y z=some true →
      sames tag x z=some true)
    (hlength : entries.length=others.length) (hlength' : others.length=lasts.length)
    (h : sameEntries sames entries others=some true)
    (h' : sameEntries sames others lasts=some true) :
    sameEntries sames entries lasts=some true := by
  induction entries generalizing others lasts with
  | nil => rfl
  | cons entry entries ih =>
    cases others with
    | nil => cases hlength
    | cons other others =>
      cases lasts with
      | nil => cases hlength'
      | cons last lasts =>
        rw [sameEntries_cons] at h h' ⊢
        split at h
        · cases h
        rename_i heq
        obtain ⟨hname,htag⟩ := not_not.1 fun hne=>heq (not_and_or.1 hne)
        split at h'
        · cases h'
        rename_i heq'
        rw [hname,htag,if_neg heq']
        obtain ⟨equal,hsame,h⟩ := Option.bind_eq_some_iff.1 h
        obtain ⟨equal',hsame',h'⟩ := Option.bind_eq_some_iff.1 h'
        cases equal with
        | false => cases h
        | true =>
          cases equal' with
          | false => cases h'
          | true =>
            rw [htag] at hsame
            rw [htrans hsame hsame',Option.bind_some]
            exact ih (Nat.succ.inj hlength) (Nat.succ.inj hlength') h h'

/-- The tags whose payloads are compared as bytes. -/
def IsLeaf (tag : UInt8) : Prop :=
  tag.toNat≠5 ∧ tag.toNat≠6 ∧ tag.toNat≠9 ∧ tag.toNat≠10

lemma tag_cases (tag : UInt8) : tag.toNat=5 ∨ tag.toNat=6 ∨ tag.toNat=9 ∨ tag.toNat=10 ∨ IsLeaf tag := by
  unfold IsLeaf
  omega

lemma samePayloadWithin_float (htag : tag.toNat=5) : samePayloadWithin (room+1) tag a b=sameFloat 4 8 23 a b := by
  rw [samePayloadWithin,htag]
  rfl

lemma samePayloadWithin_double (htag : tag.toNat=6) : samePayloadWithin (room+1) tag a b=sameFloat 8 11 52 a b := by
  rw [samePayloadWithin,htag]
  rfl

lemma samePayloadWithin_list (htag : tag.toNat=9) : samePayloadWithin (room+1) tag a b =
    sameList (fun element=>taking (skipWithin room element)) (samePayloadWithin room) a b := by
  rw [samePayloadWithin,htag]
  rfl

lemma samePayloadWithin_leaf (htag : IsLeaf tag) : samePayloadWithin (room+1) tag a b=some (decide (a=b)) := by
  obtain ⟨hfloat,hdouble,hlist,hcompound⟩ := htag
  unfold samePayloadWithin
  split
  · contradiction
  · contradiction
  · contradiction
  · contradiction
  · rfl

lemma samePayloadWithin_compound (htag : tag.toNat=10) : samePayloadWithin (room+1) tag a b =
    (sortedEntries (maxItemNbtWalkDepth-room) a).bind fun entries =>
      (sortedEntries (maxItemNbtWalkDepth-room) b).bind fun others =>
        if entries.length≠others.length then some false
        else sameEntries (samePayloadWithin room) entries others := by
  rw [samePayloadWithin,htag]
  rfl

/-- Comparing payloads does not depend on their order. -/
lemma samePayloadWithin_comm (room : ℕ) (tag : UInt8) (a b : Bytes) :
    samePayloadWithin room tag a b=samePayloadWithin room tag b a := by
  induction room generalizing tag a b with
  | zero => rfl
  | succ room ih =>
    rcases tag_cases tag with htag | htag | htag | htag | htag
    · rw [samePayloadWithin_float htag,samePayloadWithin_float htag,sameFloat_comm]
    · rw [samePayloadWithin_double htag,samePayloadWithin_double htag,sameFloat_comm]
    · rw [samePayloadWithin_list htag,samePayloadWithin_list htag]
      exact sameList_comm ih _ _
    · rw [samePayloadWithin_compound htag,samePayloadWithin_compound htag]
      cases sortedEntries (maxItemNbtWalkDepth-room) a with
      | none => cases sortedEntries (maxItemNbtWalkDepth-room) b <;> rfl
      | some entries =>
        cases sortedEntries (maxItemNbtWalkDepth-room) b with
        | none => rfl
        | some others =>
          simp only [Option.bind_some]
          rw [sameEntries_comm ih]
          simp only [ne_comm]
    · rw [samePayloadWithin_leaf htag,samePayloadWithin_leaf htag]
      simp only [eq_comm]

lemma samePayloadWithin_trans (h : samePayloadWithin room tag a b=some true)
    (h' : samePayloadWithin room tag b c=some true) :
    samePayloadWithin room tag a c=some true := by
  induction room generalizing tag a b c with
  | zero => cases h
  | succ room ih =>
    rcases tag_cases tag with htag | htag | htag | htag | htag
    · rw [samePayloadWithin_float htag] at h h' ⊢
      exact sameFloat_trans h h'
    · rw [samePayloadWithin_double htag] at h h' ⊢
      exact sameFloat_trans h h'
    · rw [samePayloadWithin_list htag] at h h' ⊢
      exact sameList_trans ih h h'
    · rw [samePayloadWithin_compound htag] at h h' ⊢
      obtain ⟨entries,hentries,h⟩ := Option.bind_eq_some_iff.1 h
      obtain ⟨others,hothers,h⟩ := Option.bind_eq_some_iff.1 h
      rw [hothers,Option.bind_some] at h'
      obtain ⟨lasts,hlasts,h'⟩ := Option.bind_eq_some_iff.1 h'
      rw [hentries,hlasts]
      simp only [Option.bind_some]
      split at h
      · cases h
      rename_i hlength
      split at h'
      · cases h'
      rename_i hlength'
      rw [not_not] at hlength hlength'
      rw [if_neg (not_not.2 (hlength.trans hlength'))]
      exact sameEntries_trans ih hlength hlength' h h'
    · rw [samePayloadWithin_leaf htag,Option.some.injEq,decide_eq_true_eq] at h h' ⊢
      exact h.trans h'

end Equivalence

section Extras

lemma compareExtra_eq : compareExtra a b = (splitExtra a).bind fun left=>(splitExtra b).bind fun right =>
      if left.2≠right.2 then some false else samePayload tagCompound 0 left.1 right.1 := rfl

lemma compareExtra_comm (a b : Bytes) : compareExtra a b=compareExtra b a := by
  rw [compareExtra_eq,compareExtra_eq]
  cases splitExtra a with
  | none => cases splitExtra b <;> rfl
  | some left =>
    cases splitExtra b with
    | none => rfl
    | some right =>
      simp only [Option.bind_some]
      rw [samePayload,samePayloadWithin_comm]
      simp only [ne_comm]

lemma sameExtra_comm (a b : Bytes) : sameExtra a b=sameExtra b a := by
  unfold sameExtra
  rw [compareExtra_comm]
  simp only [eq_comm]

lemma compareExtra_trans (h : compareExtra a b=some true) (h' : compareExtra b c=some true) :
    compareExtra a c=some true := by
  rw [compareExtra_eq] at h h' ⊢
  obtain ⟨left,hleft,h⟩ := Option.bind_eq_some_iff.1 h
  obtain ⟨middle,hmiddle,h⟩ := Option.bind_eq_some_iff.1 h
  rw [hmiddle,Option.bind_some] at h'
  obtain ⟨right,hright,h'⟩ := Option.bind_eq_some_iff.1 h'
  rw [hleft,hright]
  simp only [Option.bind_some]
  split at h
  · cases h
  rename_i htail
  split at h'
  · cases h'
  rename_i htail'
  rw [not_not] at htail htail'
  rw [if_neg (not_not.2 (htail.trans htail'))]
  exact samePayloadWithin_trans h h'

lemma sameExtra_eq_true : sameExtra a b=true ↔ compareExtra a b=some true ∨ compareExtra a b=none ∧ a=b := by
  unfold sameExtra
  cases compareExtra a b with
  | none => simp
  | some equal => simp

lemma sameExtra_trans (h : sameExtra a b=true) (h' : sameExtra b c=true) : sameExtra a c=true := by
  rcases sameExtra_eq_true.1 h with hab | ⟨-,rfl⟩
  · rcases sameExtra_eq_true.1 h' with hbc | ⟨-,rfl⟩
    · exact sameExtra_eq_true.2 (.inl (compareExtra_trans hab hbc))
    · exact h
  · exact h'

end Extras

end Cinnabar.Item
