import Cinnabar.Culling.Face

/-! # The set of visible sub-chunks -/

namespace Cinnabar.Culling

open List Function

/-- `value as u32 & ((1 << bits) - 1)` -/
def wrapped (bits : ℕ) (value : ℤ) : ℕ := (value % (2^bits : ℕ)).toNat

variable (xzBits yBits : ℕ)

/-- Wrapping coordinates modulo the power-of-two axis sizes, so negatives wrap too. -/
def cellIndex (key : SubChunkKey) : ℕ :=
  wrapped xzBits key.x ||| wrapped xzBits key.z <<< xzBits ||| wrapped yBits key.y <<< (2*xzBits)

lemma wrapped_lt (bits : ℕ) (value : ℤ) : wrapped bits value<2^bits := by
  have hpos : (0 : ℤ) < ((2^bits : ℕ) : ℤ) := by positivity
  unfold wrapped
  omega

lemma wrapped_eq_iff {bits : ℕ} {a b : ℤ} : wrapped bits a=wrapped bits b ↔ a % (2^bits : ℕ) = b % (2^bits : ℕ) := by
  have hpos : (0 : ℤ) < ((2^bits : ℕ) : ℤ) := by positivity
  unfold wrapped
  omega

/-- The three fields of an index do not overlap. -/
lemma cellIndex_eq (key : SubChunkKey) : cellIndex xzBits yBits key=wrapped xzBits key.x+2^xzBits *
      (wrapped xzBits key.z+2^xzBits*wrapped yBits key.y) := by
  have hx := wrapped_lt xzBits key.x
  have hz := wrapped_lt xzBits key.z
  have hlow : wrapped xzBits key.x ||| wrapped xzBits key.z <<< xzBits =
      wrapped xzBits key.x+2^xzBits*wrapped xzBits key.z := by
    rw [Nat.lor_comm,← Nat.shiftLeft_add_eq_or_of_lt hx,Nat.shiftLeft_eq]
    ring
  have hlowlt : wrapped xzBits key.x+2^xzBits*wrapped xzBits key.z<2 ^ (2*xzBits) := by
    have hpow : 2 ^ (2*xzBits) = 2^xzBits*2^xzBits := by
      rw [two_mul,pow_add]
    nlinarith
  rw [cellIndex,hlow,Nat.lor_comm,← Nat.shiftLeft_add_eq_or_of_lt hlowlt,Nat.shiftLeft_eq, two_mul,pow_add]
  ring

lemma digits_unique {base a b c d : ℕ} (ha : a<base) (hb : b<base) (h : a+base*c=b+base*d) : a=b ∧ c=d := by
  have hmod := congrArg (· % base) h
  simp only [Nat.add_mul_mod_self_left,Nat.mod_eq_of_lt ha,Nat.mod_eq_of_lt hb] at hmod
  subst hmod
  exact ⟨rfl,Nat.eq_of_mul_eq_mul_left (Nat.zero_lt_of_lt ha) (Nat.add_left_cancel h)⟩

lemma cellIndex_inj {xzBits yBits : ℕ} {a b : SubChunkKey} (h : cellIndex xzBits yBits a=cellIndex xzBits yBits b) :
    wrapped xzBits a.x=wrapped xzBits b.x ∧ wrapped yBits a.y=wrapped yBits b.y ∧
      wrapped xzBits a.z=wrapped xzBits b.z := by
  rw [cellIndex_eq,cellIndex_eq] at h
  obtain ⟨hx,hrest⟩ := digits_unique (wrapped_lt xzBits a.x) (wrapped_lt xzBits b.x) h
  obtain ⟨hz,hy⟩ := digits_unique (wrapped_lt xzBits a.z) (wrapped_lt xzBits b.z) hrest
  exact ⟨hx,hy,hz⟩

lemma cellIndex_lt (key : SubChunkKey) : cellIndex xzBits yBits key<2 ^ (2*xzBits+yBits) := by
  have hx := wrapped_lt xzBits key.x
  have hz := wrapped_lt xzBits key.z
  have hy := wrapped_lt yBits key.y
  rw [cellIndex_eq,two_mul,pow_add,pow_add]
  nlinarith

structure CaveVisibleSet where
  dimension : ℤ
  origin : ℤ × ℤ × ℤ
  xzBits : ℕ
  yBits : ℕ
  /-- `bits.len()` -/
  words : ℕ
  bits : ℕ → Bool
  members : List SectionKey
  outside : Finset SectionKey

namespace CaveVisibleSet

/-- The default set, without a window. -/
def empty : CaveVisibleSet := ⟨0,(0,0,0),0,0,0,fun _=>false,[],∅⟩

/-- Whether a coordinate lies in the `size` positions from `origin`. -/
def inside (value origin : ℤ) (size : ℕ) : Bool :=
  0≤value-origin && value-origin < size

/-- Window positions map one-to-one onto toroidal cells, so no key check is needed. -/
def windowIndex (set : CaveVisibleSet) (key : SectionKey) : Option ℕ :=
  if set.words=0 || key.1.dimension≠set.dimension then none
  else if inside key.1.x set.origin.1 (2^set.xzBits) && inside key.1.y set.origin.2.1 (2^set.yBits) &&
      inside key.1.z set.origin.2.2 (2^set.xzBits) then
    some (cellIndex set.xzBits set.yBits key.1)
  else none

def contains (set : CaveVisibleSet) (key : SectionKey) : Bool :=
  match set.windowIndex key with
  | some index => set.bits index
  | none => key ∈ set.outside

/-- Empties the set and recentres its window on `camera` with the grid's axis sizes. -/
def reset (set : CaveVisibleSet) (camera : SectionKey) (dims : ℕ × ℕ) : CaveVisibleSet :=
  let words := (2 ^ (2*dims.1+dims.2) + 63) / 64
  let bits : ℕ → Bool := if (set.xzBits,set.yBits) = dims && set.words=words then
      set.members.foldl (fun bits key =>
        match set.windowIndex key with
        | some index => fun i=>if i/64=index/64 then false else bits i
        | none => bits) set.bits
    else fun _=>false
  { dimension := camera.1.dimension
    origin := (camera.1.x - (2^dims.1/2 : ℕ),camera.1.y - (2^dims.2/2 : ℕ), camera.1.z - (2^dims.1/2 : ℕ))
    xzBits := dims.1
    yBits := dims.2
    words := words
    bits := bits
    members := []
    outside := ∅ }

/-- The members once `key` is one of them. -/
def pushed (members : List SectionKey) (key : SectionKey) (present : Bool) : List SectionKey :=
  if present then members else members ++ [key]

/-- Adds a key; reports whether it was new. -/
def insert (set : CaveVisibleSet) (key : SectionKey) : Bool × CaveVisibleSet :=
  match set.windowIndex key with
  | some index =>
    (!set.bits index,
      { set with
        bits := update set.bits index true
        members := pushed set.members key (set.bits index) })
  | none =>
    (key ∉ set.outside,
      { set with
        outside := Insert.insert key set.outside
        members := pushed set.members key (decide (key ∈ set.outside)) })

structure WellFormed (set : CaveVisibleSet) : Prop where
  bits : ∀ index, set.bits index=true ↔ ∃ key ∈ set.members, set.windowIndex key=some index
  outside : ∀ key, key ∈ set.outside ↔ key ∈ set.members ∧ set.windowIndex key=none
  nodup : set.members.Nodup

variable {set : CaveVisibleSet}

lemma windowIndex_eq_some {key : SectionKey} {index : ℕ} : set.windowIndex key=some index ↔
      set.words≠0 ∧ key.1.dimension=set.dimension ∧
      inside key.1.x set.origin.1 (2^set.xzBits) = true ∧
      inside key.1.y set.origin.2.1 (2^set.yBits) = true ∧
      inside key.1.z set.origin.2.2 (2^set.xzBits) = true ∧
      cellIndex set.xzBits set.yBits key.1=index := by
  unfold windowIndex
  split_ifs with h₁ h₂
  · simp only [false_iff]
    rintro ⟨hw,hd,-⟩
    simp [hw,hd] at h₁
  · simp only [Bool.or_eq_true,decide_eq_true_eq,not_or,not_not] at h₁
    simp only [Bool.and_eq_true] at h₂
    simp only [Option.some.injEq]
    tauto
  · simp only [false_iff]
    rintro ⟨-,-,hx,hy,hz,-⟩
    simp [hx,hy,hz] at h₂

/-- Two coordinates of one window with one residue are one. -/
lemma eq_of_inside {bits : ℕ} {origin a b : ℤ} (ha : inside a origin (2^bits) = true)
    (hb : inside b origin (2^bits) = true) (h : wrapped bits a=wrapped bits b) : a=b := by
  rw [wrapped_eq_iff] at h
  simp only [inside,Bool.and_eq_true,decide_eq_true_eq] at ha hb
  have hdvd : ((2^bits : ℕ) : ℤ) ∣ a-b := Int.ModEq.dvd h.symm
  have habs : |a-b| < ((2^bits : ℕ) : ℤ) := by
    rw [abs_lt]
    omega
  have := Int.eq_zero_of_abs_lt_dvd hdvd habs
  omega

lemma windowIndex_inj {a b : SectionKey} {index : ℕ}
    (ha : set.windowIndex a=some index) (hb : set.windowIndex b=some index) : a=b := by
  obtain ⟨-,hda,hxa,hya,hza,hia⟩ := windowIndex_eq_some.1 ha
  obtain ⟨-,hdb,hxb,hyb,hzb,hib⟩ := windowIndex_eq_some.1 hb
  obtain ⟨hx,hy,hz⟩ := cellIndex_inj (hia.trans hib.symm)
  have hex := eq_of_inside hxa hxb hx
  have hey := eq_of_inside hya hyb hy
  have hez := eq_of_inside hza hzb hz
  obtain ⟨⟨da,xa,ya,za⟩,_⟩ := a
  obtain ⟨⟨db,xb,yb,zb⟩,_⟩ := b
  simp only [Subtype.mk.injEq,SubChunkKey.mk.injEq]
  exact ⟨hda.trans hdb.symm,hex,hey,hez⟩

/-- `contains` is membership. -/
lemma WellFormed.contains_iff (h : set.WellFormed) {key : SectionKey} : set.contains key=true ↔ key ∈ set.members := by
  unfold contains
  cases hwin : set.windowIndex key with
  | some index =>
    rw [h.bits]
    constructor
    · rintro ⟨other,hother,hw⟩
      rw [windowIndex_inj hwin hw]
      exact hother
    · exact fun hmem=>⟨key,hmem,hwin⟩
  | none =>
    rw [decide_eq_true_eq,h.outside]
    exact and_iff_left hwin

lemma wellFormed_empty : empty.WellFormed where
  bits := fun index=>by simp [empty]
  outside := fun key=>by simp [empty]
  nodup := nodup_nil

variable {members : List SectionKey}

lemma mem_pushed {key other : SectionKey} {present : Bool} (h : present=true ↔ key ∈ members) :
    other ∈ pushed members key present ↔ other=key ∨ other ∈ members := by
  unfold pushed
  split_ifs with hp
  · refine ⟨.inr,?_⟩
    rintro (rfl | hother)
    · exact h.1 hp
    · exact hother
  · rw [mem_append,mem_singleton,or_comm]

lemma nodup_pushed {key : SectionKey} {present : Bool} (h : present=true ↔ key ∈ members) (hnodup : members.Nodup) :
    (pushed members key present).Nodup := by
  unfold pushed
  split_ifs with hp
  · exact hnodup
  · refine nodup_append.2 ⟨hnodup,nodup_singleton key,?_⟩
    rintro a ha b hb rfl
    rw [mem_singleton] at hb
    subst hb
    exact hp (h.2 ha)

lemma WellFormed.insert (h : set.WellFormed) (key : SectionKey) : (set.insert key).2.WellFormed ∧
      (∀ other, other ∈ (set.insert key).2.members ↔ other=key ∨ other ∈ set.members) ∧
      ((set.insert key).1=true ↔ key ∉ set.members) := by
  have hmem := @contains_iff set h key
  unfold CaveVisibleSet.insert
  unfold contains at hmem
  cases hwin : set.windowIndex key with
  | some index =>
    rw [hwin] at hmem
    refine ⟨?_,fun other=>mem_pushed hmem,by rw [← hmem]; simp⟩
    constructor
    · intro i
      have hwindow : ∀ other, windowIndex { set with
          bits := update set.bits index true
          members := pushed set.members key (set.bits index) } other=set.windowIndex other :=
        fun _=>rfl
      simp only [hwindow,mem_pushed hmem,or_and_right,exists_or,exists_eq_left,hwin,
        Option.some.injEq,← h.bits,update_apply]
      by_cases hi : i=index
      · simp [hi]
      · simp [hi,Ne.symm hi]
    · intro other
      rw [mem_pushed hmem,h.outside]
      refine and_congr_left fun hnone=>⟨.inr,fun hor=>hor.resolve_left ?_⟩
      rintro rfl
      rw [hwin] at hnone
      cases hnone
    · exact nodup_pushed hmem h.nodup
  | none =>
    rw [hwin] at hmem
    refine ⟨?_,fun other=>mem_pushed hmem,by rw [← hmem]; simp⟩
    constructor
    · intro i
      have hwindow : ∀ other, windowIndex { set with
          outside := Insert.insert key set.outside
          members := pushed set.members key (decide (key ∈ set.outside)) } other =
            set.windowIndex other := fun _=>rfl
      simp only [hwindow,mem_pushed hmem,or_and_right,exists_or,exists_eq_left,hwin, reduceCtorEq,false_or]
      exact h.bits i
    · intro other
      rw [mem_pushed hmem,Finset.mem_insert,h.outside]
      constructor
      · rintro (rfl | ⟨hother,hnone⟩)
        · exact ⟨.inl rfl,hwin⟩
        · exact ⟨.inr hother,hnone⟩
      · rintro ⟨rfl | hother,hnone⟩
        · exact .inl rfl
        · exact .inr ⟨hother,hnone⟩
    · exact nodup_pushed hmem h.nodup

lemma bits_cleared (h : set.WellFormed) (i : ℕ) : set.members.foldl (fun bits key =>
      match set.windowIndex key with
      | some index => fun i=>if i/64=index/64 then false else bits i
      | none => bits) set.bits i=false := by
  -- A bit is off once it starts off, and a later word never turns one on.
  have hstep : ∀ (members : List SectionKey) (bits : ℕ → Bool),
      (bits i=false ∨ ∃ key ∈ members, set.windowIndex key=some i) →
      members.foldl (fun bits key =>
        match set.windowIndex key with
        | some index => fun i=>if i/64=index/64 then false else bits i
        | none => bits) bits i=false := by
    intro members
    induction members with
    | nil =>
      rintro bits (hbit | ⟨key,hkey,-⟩)
      · exact hbit
      · exact absurd hkey not_mem_nil
    | cons first rest ih =>
      intro bits hor
      rw [foldl_cons]
      apply ih
      cases hwin : set.windowIndex first with
      | none =>
        refine hor.imp_right ?_
        rintro ⟨key,hkey,hk⟩
        rcases mem_cons.1 hkey with rfl | hkey
        · rw [hwin] at hk
          cases hk
        · exact ⟨key,hkey,hk⟩
      | some index =>
        dsimp only
        rcases hor with hbit | ⟨key,hkey,hk⟩
        · left
          split_ifs
          · rfl
          · exact hbit
        · rcases mem_cons.1 hkey with rfl | hkey
          · rw [hwin] at hk
            cases hk
            exact .inl (if_pos rfl)
          · exact .inr ⟨key,hkey,hk⟩
  apply hstep
  cases hbit : set.bits i with
  | false => exact .inl rfl
  | true => exact .inr ((h.bits i).1 hbit)

lemma WellFormed.reset (h : set.WellFormed) (camera : SectionKey)
    (dims : ℕ × ℕ) : (set.reset camera dims).WellFormed where
  bits := fun index=>by
    have hoff : (set.reset camera dims).bits index=false := by
      simp only [CaveVisibleSet.reset]
      split_ifs
      · exact bits_cleared h index
      · rfl
    rw [hoff]
    simp [CaveVisibleSet.reset]
  outside := fun key=>by simp [CaveVisibleSet.reset]
  nodup := nodup_nil

@[simp] lemma members_reset (set : CaveVisibleSet) (camera : SectionKey) (dims : ℕ × ℕ) :
    (set.reset camera dims).members = [] := rfl

end CaveVisibleSet

end Cinnabar.Culling
