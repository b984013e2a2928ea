import Mathlib

/-! # Readers over a byte cursor

A reader takes a value off the front of its input.
-/

namespace Cinnabar

open List

abbrev Bytes := List UInt8

abbrev Reader (α : Type) := StateT Bytes Option α

namespace Reader

variable {α β : Type}

/-- The next `n` bytes. -/
def take (n : ℕ) : Reader Bytes := fun input =>
  if n ≤ input.length then some (input.take n,input.drop n) else none

/-- Reads `count` values. -/
def times (p : Reader α) : ℕ → Reader (List α)
  | 0 => pure []
  | count+1 => do
    let value ← p
    let values ← times p count
    pure (value::values)

def manyWithin (step : Reader (Option α)) : ℕ → Reader (List α)
  | 0 => failure
  | fuel+1 => do
    match ← step with
    | none => pure []
    | some value => do
      let values ← manyWithin step fuel
      pure (value::values)

/-- Reads values up to the end mark; each takes at least one byte. -/
def many (step : Reader (Option α)) : Reader (List α) := fun input =>
  manyWithin step input.length input

def Takes (p : Reader α) (used : Bytes) (value : α) : Prop :=
  ∀ rest, p (used++rest) = some (value,rest)

def Framed (p : Reader α) : Prop :=
  ∀ ⦃input rest : Bytes⦄ ⦃value : α⦄, p input=some (value,rest) → ∃ used, input=used++rest ∧ p.Takes used value

def Consumes (p : Reader α) : Prop :=
  ∀ ⦃input rest : Bytes⦄ ⦃value : α⦄, p input=some (value,rest) → rest.length < input.length

section Framing

variable {p : Reader α} {f : α → Reader β} {value : α} {values : List α} {result : β}
  {used others input rest : Bytes}

lemma bind_apply : (p >>= f) input = (p input).bind fun read=>f read.1 read.2 := rfl

lemma bind_eq_some {last : Bytes} : (p >>= f) input=some (result,last) ↔
    ∃ value rest, p input=some (value,rest) ∧ f value rest=some (result,last) := by
  rw [bind_apply,Option.bind_eq_some_iff]
  exact ⟨fun ⟨⟨value,rest⟩,h,h'⟩=>⟨value,rest,h,h'⟩, fun ⟨value,rest,h,h'⟩=>⟨(value,rest),h,h'⟩⟩

lemma Takes.pure : (pure value : Reader α).Takes [] value := fun _=>rfl

lemma Takes.bind (h : p.Takes used value) (h' : (f value).Takes others result) :
    (p >>= f).Takes (used++others) result := by
  intro rest
  rw [bind_apply,append_assoc,h (others++rest)]
  exact h' rest

lemma Takes.bind_pure (h : p.Takes used value)
    (h' : ∀ rest, f value rest=some (result,rest)) : (p >>= f).Takes used result :=
  fun rest=>bind_eq_some.2 ⟨value,rest,h rest,h' rest⟩

lemma Takes.apply (h : p.Takes used value) : p used=some (value,[]) := by
  have happly := h []
  rwa [append_nil] at happly

lemma Takes.take : (take used.length).Takes used used := by
  intro rest
  unfold Reader.take
  rw [if_pos (by rw [length_append]; exact Nat.le_add_right _ _),take_left, drop_left]

lemma Framed.pure : (pure value : Reader α).Framed := by
  intro input rest other h
  cases h
  exact ⟨[],rfl,fun _=>rfl⟩

lemma Framed.failure : (failure : Reader α).Framed := fun _ _ _ h=>by cases h

lemma Framed.bind (h : p.Framed) (h' : ∀ value, (f value).Framed) : (p >>= f).Framed := by
  intro input last result hread
  obtain ⟨value,rest,hp,hf⟩ := bind_eq_some.1 hread
  obtain ⟨used,rfl,htakes⟩ := h hp
  obtain ⟨others,rfl,htakes'⟩ := h' value hf
  exact ⟨used++others,(append_assoc _ _ _).symm,htakes.bind htakes'⟩

lemma Framed.take (n : ℕ) : (take n).Framed := by
  intro input rest value h
  unfold Reader.take at h
  split at h
  · rename_i hle
    cases h
    refine ⟨input.take n,(take_append_drop n input).symm,?_⟩
    have htakes : (Reader.take (input.take n).length).Takes (input.take n) (input.take n) := Takes.take
    rwa [length_take,Nat.min_eq_left hle] at htakes
  · cases h

lemma Framed.times (h : p.Framed) (count : ℕ) : (times p count).Framed := by
  induction count with
  | zero => exact Framed.pure
  | succ count ih => exact h.bind fun _=>ih.bind fun _=>Framed.pure

lemma length_of_take {n : ℕ} (h : take n input=some (used,rest)) : used.length=n := by
  unfold take at h
  split at h
  · cases h
    rw [length_take,Nat.min_eq_left (by assumption)]
  · cases h

/-- Framed readers leave no more than they were given. -/
lemma Framed.length_le (h : p.Framed) (hread : p input=some (value,rest)) : rest.length ≤ input.length := by
  obtain ⟨used,rfl,-⟩ := h hread
  rw [length_append]
  exact Nat.le_add_left _ _

lemma Consumes.bind (h : p.Consumes) (h' : ∀ value, (f value).Framed) : (p >>= f).Consumes := by
  intro input last result hread
  obtain ⟨value,rest,hp,hf⟩ := bind_eq_some.1 hread
  exact (Framed.length_le (h' value) hf).trans_lt (h hp)

end Framing

section Repetition

variable {step : Reader (Option α)} {value : α} {values : List α} {used others input rest : Bytes}

lemma manyWithin_takes (hframed : step.Framed) (hconsumes : step.Consumes) {fuel : ℕ}
    (h : manyWithin step fuel input=some (values,rest)) :
    ∃ used, input=used++rest ∧ ∀ more, used.length ≤ more →
      (manyWithin step more).Takes used values := by
  induction fuel generalizing input values with
  | zero => cases h
  | succ fuel ih =>
    obtain ⟨read,middle,hstep,hrest⟩ := bind_eq_some.1 h
    have hlt := hconsumes hstep
    obtain ⟨used,rfl,htakes⟩ := hframed hstep
    rw [length_append] at hlt
    cases read with
    | none =>
      cases hrest
      refine ⟨used,rfl,fun more hmore last=>?_⟩
      cases more with
      | zero => omega
      | succ more => exact bind_eq_some.2 ⟨none,last,htakes last,rfl⟩
    | some first =>
      obtain ⟨tail,last,htail,hpure⟩ := bind_eq_some.1 hrest
      cases hpure
      obtain ⟨others,rfl,hothers⟩ := ih htail
      refine ⟨used++others,(append_assoc _ _ _).symm,fun more hmore=>?_⟩
      rw [length_append] at hmore
      cases more with
      | zero => omega
      | succ more =>
        exact Takes.bind htakes ((hothers more (by omega)).bind_pure fun _=>rfl)

variable {write : α → Bytes}

lemma Takes.times {β : Type} {p : Reader β} (f : α → β) (h : ∀ value ∈ values, p.Takes (write value) (f value)) :
    (times p values.length).Takes (values.map write).flatten (values.map f) := by
  induction values with
  | nil => exact Takes.pure
  | cons value values ih =>
    have hrest := ih fun other hmem=>h other (.tail _ hmem)
    exact (h value (.head _)).bind (hrest.bind_pure fun _=>rfl)

lemma Framed.many (hframed : step.Framed) (hconsumes : step.Consumes) : (many step).Framed := by
  intro input rest values h
  obtain ⟨used,rfl,htakes⟩ := manyWithin_takes hframed hconsumes h
  refine ⟨used,rfl,fun last=>htakes _ ?_ last⟩
  rw [length_append]
  exact Nat.le_add_right _ _

variable {stop : Bytes}

/-- What is written for each value, and an end mark, are read back as the values stand for. -/
lemma Takes.many_map {β : Type} {items : List β} {write : β → Bytes} {f : β → α}
    (hconsumes : step.Consumes) (hstop : step.Takes stop none)
    (h : ∀ item ∈ items, step.Takes (write item) (some (f item))) :
    (many step).Takes ((items.map write).flatten++stop) (items.map f) := by
  have hwithin : ∀ fuel, ((items.map write).flatten++stop).length≤fuel →
      (manyWithin step fuel).Takes ((items.map write).flatten++stop) (items.map f) := by
    induction items with
    | nil =>
      intro fuel hfuel
      have hlt := hconsumes hstop.apply
      cases fuel with
      | zero => exact absurd (hlt.trans_le hfuel) (Nat.not_lt_zero _)
      | succ fuel => exact fun rest=>bind_eq_some.2 ⟨none,rest,hstop rest,rfl⟩
    | cons item items ih =>
      intro fuel hfuel
      have htakes := h item (.head _)
      have hlt := hconsumes htakes.apply
      rw [map_cons,flatten_cons,append_assoc] at hfuel ⊢
      rw [length_append] at hfuel
      cases fuel with
      | zero => omega
      | succ fuel =>
        have hrest := ih (fun other hmem=>h other (.tail _ hmem)) fuel (by omega)
        exact Takes.bind htakes (hrest.bind_pure fun _=>rfl)
  intro rest
  refine hwithin _ ?_ rest
  exact (Nat.le_add_right _ rest.length).trans length_append.symm.le

lemma Takes.many (hconsumes : step.Consumes)
    (hstop : step.Takes stop none) (h : ∀ value ∈ values, step.Takes (write value) (some value)) :
    (many step).Takes ((values.map write).flatten++stop) values := by
  have hmany := Takes.many_map (f := id) hconsumes hstop h
  rwa [map_id] at hmany

def Prints (p : Reader α) (write : α → Bytes) : Prop :=
  ∀ ⦃input rest : Bytes⦄ ⦃value : α⦄, p input=some (value,rest) → input=write value++rest

lemma Prints.many (h : step.Prints fun read=>read.elim stop write) :
    (many step).Prints fun values=>(values.map write).flatten++stop := by
  have hwithin : ∀ fuel, (manyWithin step fuel).Prints fun values =>
      (values.map write).flatten++stop := by
    intro fuel
    induction fuel with
    | zero => exact fun _ _ _ h=>by cases h
    | succ fuel ih =>
      intro input last values hread
      obtain ⟨read,rest,hstep,hrest⟩ := bind_eq_some.1 hread
      cases read with
      | none =>
        cases hrest
        exact h hstep
      | some value =>
        obtain ⟨tail,end_,htail,hpure⟩ := bind_eq_some.1 hrest
        cases hpure
        rw [h hstep,ih htail]
        simp only [Option.elim_some,map_cons,flatten_cons,append_assoc]
  exact fun input rest values hread=>hwithin _ hread

lemma forall_mem_many {P : α → Prop}
    (h : ∀ ⦃input rest : Bytes⦄ ⦃value : α⦄, step input=some (some value,rest) → P value)
    (hread : many step input=some (values,rest)) : ∀ value ∈ values, P value := by
  have hwithin : ∀ fuel input values, manyWithin step fuel input=some (values,rest) → ∀ value ∈ values, P value := by
    intro fuel
    induction fuel with
    | zero => exact fun _ _ h=>by cases h
    | succ fuel ih =>
      intro input values hread
      obtain ⟨read,middle,hstep,hrest⟩ := bind_eq_some.1 hread
      cases read with
      | none =>
        cases hrest
        exact fun _ hmem=>absurd hmem not_mem_nil
      | some first =>
        obtain ⟨tail,last,htail,hpure⟩ := bind_eq_some.1 hrest
        cases hpure
        intro value hmem
        rcases mem_cons.1 hmem with rfl | hmem
        · exact h hstep
        · exact ih middle tail htail value hmem
  exact hwithin _ _ _ hread

end Repetition

section Extension

variable {p q : Reader α} {f g : α → Reader β} {value : α} {used : Bytes}

def Extends (p q : Reader α) : Prop :=
  ∀ ⦃input rest : Bytes⦄ ⦃value : α⦄, p input=some (value,rest) → q input=some (value,rest)

lemma Extends.refl : p.Extends p := fun _ _ _ h=>h

lemma Extends.failure : (failure : Reader α).Extends q := fun _ _ _ h=>by cases h

lemma Takes.extends (h : p.Takes used value) (hextends : p.Extends q) : q.Takes used value :=
  fun rest=>hextends (h rest)

lemma Extends.bind (h : p.Extends q) (h' : ∀ value, (f value).Extends (g value)) : (p >>= f).Extends (q >>= g) := by
  intro input last result hread
  obtain ⟨value,rest,hp,hf⟩ := bind_eq_some.1 hread
  exact bind_eq_some.2 ⟨value,rest,h hp,h' value hf⟩

lemma Extends.times (h : p.Extends q) (count : ℕ) : (times p count).Extends (times q count) := by
  induction count with
  | zero => exact Extends.refl
  | succ count ih => exact h.bind fun _=>ih.bind fun _=>Extends.refl

lemma Extends.many {p q : Reader (Option α)} (h : p.Extends q) : (many p).Extends (many q) := by
  have hwithin : ∀ fuel, (manyWithin p fuel).Extends (manyWithin q fuel) := by
    intro fuel
    induction fuel with
    | zero => exact Extends.refl
    | succ fuel ih =>
      refine h.bind fun read=>?_
      cases read with
      | none => exact Extends.refl
      | some value => exact ih.bind fun _=>Extends.refl
  exact fun input rest values hread=>hwithin _ hread

end Extension

section Digits

/-- `n` in `width` bytes, the least first. -/
def toLe : ℕ → ℕ → Bytes
  | 0, _ => []
  | width+1, n => UInt8.ofNat n::toLe width (n/256)

def fromLe : Bytes → ℕ
  | [] => 0
  | byte::bytes => byte.toNat+256*fromLe bytes

@[simp] lemma length_toLe (width n : ℕ) : (toLe width n).length=width := by
  induction width generalizing n with
  | zero => rfl
  | succ width ih => exact congrArg (· + 1) (ih (n/256))

lemma fromLe_toLe {width n : ℕ} (h : n<256^width) : fromLe (toLe width n) = n := by
  induction width generalizing n with
  | zero => exact (Nat.lt_one_iff.1 h).symm
  | succ width ih =>
    have hdiv : n/256<256^width := Nat.div_lt_of_lt_mul (by rwa [Nat.pow_succ'] at h)
    rw [toLe,fromLe,ih hdiv,UInt8.toNat_ofNat']
    exact Nat.mod_add_div n 256

lemma toLe_fromLe (bytes : Bytes) : toLe bytes.length (fromLe bytes) = bytes := by
  induction bytes with
  | nil => rfl
  | cons byte bytes ih =>
    have hlt := byte.toNat_lt
    rw [length_cons,fromLe,toLe]
    have hdiv : (byte.toNat+256*fromLe bytes) / 256=fromLe bytes := by omega
    have hbyte : UInt8.ofNat (byte.toNat+256*fromLe bytes) = byte := by
      apply UInt8.toNat_inj.1
      rw [UInt8.toNat_ofNat']
      omega
    rw [hdiv,hbyte,ih]

lemma fromLe_lt (bytes : Bytes) : fromLe bytes<256^bytes.length := by
  induction bytes with
  | nil => exact Nat.one_pos
  | cons byte bytes ih =>
    have hlt := byte.toNat_lt
    rw [length_cons,fromLe,Nat.pow_succ']
    omega

end Digits

end Reader

end Cinnabar
