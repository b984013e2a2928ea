import Cinnabar.Library.Reader

/-! # Numbers in groups of seven bits -/

namespace Cinnabar.Leb

open List

inductive Holds : Bytes → ℕ → Prop where
  | last {byte : UInt8} : byte.toNat<128 → Holds [byte] byte.toNat
  | more {byte : UInt8} {bytes : Bytes} {n : ℕ} : 128≤byte.toNat → Holds bytes n →
    Holds (byte::bytes) (byte.toNat-128+128*n)

/-- `n` in at most `room + 1` groups. -/
def write : ℕ → ℕ → Bytes
  | 0, n => [UInt8.ofNat n]
  | room+1, n =>
    if n<0x80 then [UInt8.ofNat n] else (UInt8.ofNat n ||| 0x80) :: write room (n >>> 7)

/-- Reads at most `left` more groups onto a value, no more than `top` in the last of them. -/
def readGroups (top : ℕ) : ℕ → ℕ → ℕ → Reader ℕ
  | 0, _, _, _ => none
  | _+1, _, _, [] => none
  | left+1, index, value, byte::rest =>
    let bits := (byte &&& 0x7f).toNat
    if left=0 ∧ top<bits then none
    else
      let value := value ||| bits <<< (7*index)
      if byte &&& 0x80=0 then some (value,rest) else readGroups top left (index+1) value rest

section Bits

variable (byte : UInt8) (n : ℕ)

lemma toNat_and_low : (byte &&& 0x7f).toNat=byte.toNat % 128 :=
  (UInt8.toNat_and byte 0x7f).trans (Nat.and_two_pow_sub_one_eq_mod byte.toNat 7)

lemma and_high_eq_zero : byte &&& 0x80=0 ↔ byte.toNat<128 := by
  have hbits : ∀ bits : BitVec 8, bits &&& 0x80#8=0#8 ↔ bits.toNat<128 := by decide
  rw [← UInt8.toBitVec_inj]
  exact hbits byte.toBitVec

lemma toNat_or_high : (UInt8.ofNat n ||| 0x80).toNat=n % 128+128 := by
  have hbits : ∀ bits : BitVec 8, (bits ||| 0x80#8).toNat=bits.toNat % 128+128 := by decide
  have hbyte := hbits (UInt8.ofNat n).toBitVec
  have hmod : (UInt8.ofNat n).toBitVec.toNat % 128=n % 128 := by
    rw [UInt8.toNat_toBitVec,UInt8.toNat_ofNat',Nat.mod_mod_of_dvd n (by decide)]
  rw [hmod] at hbyte
  exact hbyte

end Bits

section Numbers

variable {bytes others rest last : Bytes} {n m room : ℕ}

lemma Holds.ne_nil (h : Holds bytes n) : bytes ≠ [] := by
  cases h <;> exact cons_ne_nil _ _

lemma Holds.lt (h : Holds bytes n) : n<128^bytes.length := by
  induction h with
  | last hlt => simpa using hlt
  | @more byte bytes n hle _ ih =>
    have hbyte := byte.toNat_lt
    rw [length_cons,Nat.pow_succ']
    omega

lemma holds_write (h : n<128 ^ (room+1)) : Holds (write room n) n := by
  have hsmall : ∀ n<128, Holds [UInt8.ofNat n] n := by
    intro n hn
    have hbyte : (UInt8.ofNat n).toNat=n := UInt8.toNat_ofNat_of_lt' (by
      rw [UInt8.size]
      omega)
    have hholds : Holds [UInt8.ofNat n] (UInt8.ofNat n).toNat := .last (by rwa [hbyte])
    rwa [hbyte] at hholds
  induction room generalizing n with
  | zero => exact hsmall n h
  | succ room ih =>
    rw [write]
    split
    · exact hsmall n (by assumption)
    · have hdiv : n >>> 7=n/128 := Nat.shiftRight_eq_div_pow n 7
      have hrest := @ih (n >>> 7) (by
        rw [hdiv]
        exact Nat.div_lt_of_lt_mul (by rwa [Nat.pow_succ'] at h))
      have hholds := @Holds.more (UInt8.ofNat n ||| 0x80) _ _ (by
        rw [toNat_or_high]
        exact Nat.le_add_left _ _) hrest
      rw [toNat_or_high,Nat.add_sub_cancel,hdiv,Nat.mod_add_div] at hholds
      rwa [hdiv]

lemma length_write_of_lt {groups : ℕ} (h : n<128 ^ (groups+1)) : (write room n).length≤groups+1 := by
  induction room generalizing n groups with
  | zero => exact Nat.le_add_left _ _
  | succ room ih =>
    rw [write]
    split
    · exact Nat.le_add_left _ _
    · rename_i hlarge
      cases groups with
      | zero => exact absurd h hlarge
      | succ groups =>
        refine Nat.succ_le_succ (ih ?_)
        rw [Nat.shiftRight_eq_div_pow]
        exact Nat.div_lt_of_lt_mul (by rwa [Nat.pow_succ'] at h)

lemma length_write_le (room n : ℕ) : (write room n).length ≤ room+1 := by
  induction room generalizing n with
  | zero => exact le_rfl
  | succ room ih =>
    rw [write]
    split
    · exact Nat.le_add_left _ _
    · exact Nat.succ_le_succ (ih _)

lemma length_write_pos (room n : ℕ) : 0 < (write room n).length := by
  cases room with
  | zero => exact Nat.one_pos
  | succ room =>
    rw [write]
    split
    · exact Nat.one_pos
    · exact Nat.succ_pos _

end Numbers

section Reading

variable {input rest bytes : Bytes} {top left index value n : ℕ}

lemma or_shiftLeft (h : value<2 ^ (7*index)) (bits : ℕ) : value ||| bits <<< (7*index) = value+bits*2 ^ (7*index) := by
  rw [Nat.or_comm,← Nat.shiftLeft_add_eq_or_of_lt h,Nat.shiftLeft_eq,Nat.add_comm]

lemma readGroups_eq_some (hvalue : value<2 ^ (7*index)) : readGroups top (left+1) index value input=some (n,rest) ↔
      ∃ bytes m, input=bytes++rest ∧ Holds bytes m ∧ bytes.length≤left+1 ∧
        m < (top+1) * 128^left ∧ n=value+m*2 ^ (7*index) := by
  induction left generalizing input index value with
  | zero =>
    cases input with
    | nil =>
      refine iff_of_false (fun h=>by cases h) ?_
      rintro ⟨bytes,m,heq,hholds,-⟩
      exact hholds.ne_nil (append_eq_nil_iff.1 heq.symm).1
    | cons byte tail =>
      simp only [readGroups,toNat_and_low,and_high_eq_zero,true_and]
      rw [or_shiftLeft hvalue]
      constructor
      · intro h
        split at h
        · cases h
        · split at h
          · rename_i hle hlt
            cases h
            rw [Nat.mod_eq_of_lt hlt] at hle ⊢
            exact ⟨[byte],byte.toNat,rfl,.last hlt,le_rfl,by omega,rfl⟩
          · cases h
      · rintro ⟨bytes,m,heq,hholds,hlength,hm,rfl⟩
        cases hholds with
        | last hlt =>
          cases heq
          rw [Nat.mod_eq_of_lt hlt,if_neg (by omega),if_pos hlt]
          rfl
        | more _ hrest =>
          have hpos := length_pos_of_ne_nil hrest.ne_nil
          rw [length_cons] at hlength
          omega
  | succ left ih =>
    cases input with
    | nil =>
      refine iff_of_false (fun h=>by cases h) ?_
      rintro ⟨bytes,m,heq,hholds,-⟩
      exact hholds.ne_nil (append_eq_nil_iff.1 heq.symm).1
    | cons byte tail =>
      rw [readGroups]
      simp only [toNat_and_low,and_high_eq_zero,Nat.add_eq_zero_iff,one_ne_zero,and_false, false_and,if_false]
      rw [or_shiftLeft hvalue]
      have hpow : 2 ^ (7 * (index+1)) = 128*2 ^ (7*index) := by
        rw [Nat.mul_succ,Nat.pow_add,Nat.mul_comm]
      have hbits : byte.toNat % 128<128 := Nat.mod_lt _ (by decide)
      have hnext : value+byte.toNat % 128*2 ^ (7*index) < 2 ^ (7 * (index+1)) := by
        nlinarith
      have hbyte := byte.toNat_lt
      by_cases hlt : byte.toNat<128
      · rw [if_pos hlt,Nat.mod_eq_of_lt hlt]
        constructor
        · intro h
          cases h
          refine ⟨[byte],byte.toNat,rfl,.last hlt,Nat.le_add_left _ _,?_,rfl⟩
          calc byte.toNat<128 := hlt
            _≤128 ^ (left+1) := Nat.le_self_pow (Nat.succ_ne_zero left) 128
            _ ≤ (top+1) * 128 ^ (left+1) := Nat.le_mul_of_pos_left _ (Nat.succ_pos top)
        · rintro ⟨bytes,m,heq,hholds,-,-,rfl⟩
          cases hholds with
          | last => cases heq; rfl
          | more hle =>
            obtain ⟨rfl,-⟩ := List.cons.inj heq
            exact absurd hlt (Nat.not_lt.2 hle)
      · have hmod : byte.toNat % 128=byte.toNat-128 := by omega
        rw [if_neg hlt,ih hnext,hmod]
        constructor
        · rintro ⟨bytes,m,rfl,hholds,hlength,hm,rfl⟩
          refine ⟨byte::bytes,_,rfl,.more (Nat.not_lt.1 hlt) hholds, Nat.succ_le_succ hlength,?_,?_⟩
          · rw [Nat.pow_succ]
            nlinarith
          · ring
        · rintro ⟨bytes,m,heq,hholds,hlength,hm,rfl⟩
          cases hholds with
          | last hsmall =>
            obtain ⟨rfl,-⟩ := List.cons.inj heq
            exact absurd hsmall hlt
          | @more _ bytes m _ hrest =>
            obtain ⟨rfl,rfl⟩ := List.cons.inj heq
            refine ⟨bytes,m,rfl,hrest,Nat.le_of_succ_le_succ hlength,?_,?_⟩
            · rw [Nat.pow_succ] at hm
              nlinarith
            · ring

/-- Reading at most `left + 1` groups. -/
lemma read_eq_some : readGroups top (left+1) 0 0 input=some (n,rest) ↔
    ∃ bytes, input=bytes++rest ∧ Holds bytes n ∧ bytes.length≤left+1 ∧
      n < (top+1) * 128^left := by
  rw [readGroups_eq_some (by decide)]
  constructor
  · rintro ⟨bytes,m,heq,hholds,hlength,hm,rfl⟩
    rw [Nat.zero_add,Nat.mul_zero,Nat.pow_zero,Nat.mul_one]
    exact ⟨bytes,heq,hholds,hlength,hm⟩
  · rintro ⟨bytes,heq,hholds,hlength,hm⟩
    exact ⟨bytes,n,heq,hholds,hlength,hm,by simp⟩

lemma read_takes (h : Holds bytes n) (hlength : bytes.length≤left+1) (hn : n < (top+1) * 128^left) :
    Reader.Takes (readGroups top (left+1) 0 0) bytes n :=
  fun _=>read_eq_some.2 ⟨bytes,rfl,h,hlength,hn⟩

lemma framed_read : Reader.Framed (readGroups top (left+1) 0 0) := by
  intro input rest value h
  obtain ⟨bytes,heq,hholds,hlength,hn⟩ := read_eq_some.1 h
  exact ⟨bytes,heq,read_takes hholds hlength hn⟩

end Reading

end Cinnabar.Leb
