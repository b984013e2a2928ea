import Cinnabar.Item.Fields

/-! # The tree of item user data -/

namespace Cinnabar.Item

open Reader List

inductive Tree where
  | leaf (tag : UInt8) (payload : Bytes)
  | float (bits : ℕ)
  | double (bits : ℕ)
  | list (element : UInt8) (values : List Tree)
  | compound (fields : List (Bytes × Tree))

/-- Numeric equality of two floats given by their bits. -/
def sameBits (width exponentBits mantissaBits a b : ℕ) : Bool :=
  !isNaN exponentBits mantissaBits a && !isNaN exponentBits mantissaBits b &&
    (a=b || (a % 2 ^ (8*width - 1) = 0 && b % 2 ^ (8*width - 1) = 0))

namespace Tree

def tag : Tree → UInt8
  | leaf tag _ => tag
  | float _ => 5
  | double _ => 6
  | list _ _ => 9
  | compound _ => 10

/-- Equal trees up to the order of the entries of their compounds; floats are equal as numbers. -/
inductive Same : Tree → Tree → Prop where
  | leaf {tag : UInt8} {payload : Bytes} : Same (leaf tag payload) (leaf tag payload)
  | float {a b : ℕ} : sameBits 4 8 23 a b=true → Same (float a) (float b)
  | double {a b : ℕ} : sameBits 8 11 52 a b=true → Same (double a) (double b)
  | list {element : UInt8} {values others : List Tree} : values.length=others.length →
    (∀ pair ∈ values.zip others, Same pair.1 pair.2) → Same (list element values) (list element others)
  | compound {fields others reordered : List (Bytes × Tree)} : reordered.Perm others →
    fields.map Prod.fst=reordered.map Prod.fst →
    (∀ pair ∈ fields.zip reordered, Same pair.1.2 pair.2.2) → Same (compound fields) (compound others)

/-- No compound holds one name twice. -/
inductive Unique : Tree → Prop where
  | leaf {tag : UInt8} {payload : Bytes} : Unique (leaf tag payload)
  | float {bits : ℕ} : Unique (float bits)
  | double {bits : ℕ} : Unique (double bits)
  | list {element : UInt8} {values : List Tree} : (∀ value ∈ values, Unique value) → Unique (list element values)
  | compound {fields : List (Bytes × Tree)} : (fields.map Prod.fst).Nodup →
    (∀ field ∈ fields, Unique field.2) → Unique (compound fields)

/-- Every float is a number. -/
inductive Numeric : Tree → Prop where
  | leaf {tag : UInt8} {payload : Bytes} : Numeric (leaf tag payload)
  | float {bits : ℕ} : isNaN 8 23 bits=false → Numeric (float bits)
  | double {bits : ℕ} : isNaN 11 52 bits=false → Numeric (double bits)
  | list {element : UInt8} {values : List Tree} : (∀ value ∈ values, Numeric value) → Numeric (list element values)
  | compound {fields : List (Bytes × Tree)} : (∀ field ∈ fields, Numeric field.2) → Numeric (compound fields)

end Tree

section Parsing

/-- The trees of `count` elements that fill the input. -/
def elementsOf (payload : Reader Bytes) (tree : Bytes → Option Tree) :
    ℕ → Bytes → Option (List Tree)
  | 0, input => if input.isEmpty then some [] else none
  | count+1, input => do
    let (element,rest) ← payload input
    let value ← tree element
    let values ← elementsOf payload tree count rest
    some (value::values)

def listOf (payload : UInt8 → Reader Bytes) (tree : UInt8 → Bytes → Option Tree)
    (input : Bytes) : Option Tree := do
  let (element,input) ← readU8 input
  let (count,input) ← readCount input
  let values ← elementsOf (payload element) (tree element) count input
  some (.list element values)

def fieldsOf (tree : UInt8 → Bytes → Option Tree) : List Entry → Option (List (Bytes × Tree))
  | [] => some []
  | entry::entries => do
    let value ← tree entry.tag entry.payload
    let fields ← fieldsOf tree entries
    some ((entry.name,value) :: fields)

def wholeBody (payload : UInt8 → Reader Unit) (input : Bytes) : Option (List Entry) :=
  match Reader.many (readEntry payload) input with
  | some (entries,[]) => some entries
  | _ => none

/-- The tree of a payload that fills the input and may nest `room` levels deep. -/
def treeWithin : ℕ → UInt8 → Bytes → Option Tree
  | 0, _, _ => none
  | room+1, tag, input =>
    match tag.toNat with
    | 5 => if input.length=4 then some (.float (fromLe input)) else none
    | 6 => if input.length=8 then some (.double (fromLe input)) else none
    | 9 => listOf (fun element=>taking (skipWithin room element)) (treeWithin room) input
    | 10 => do
      let entries ← wholeBody (skipWithin room) input
      let fields ← fieldsOf (treeWithin room) entries
      some (.compound fields)
    | _ =>
      if skipWithin (room+1) tag input=some ((),[]) then some (.leaf tag input) else none

def treeOf (extra : Bytes) : Option (Tree × Bytes) := do
  let (compound,trailer) ← splitExtra extra
  let tree ← treeWithin (maxItemNbtWalkDepth+1) tagCompound compound
  some (tree,trailer)

end Parsing

section Total

variable {walk : Reader Unit} {input : Bytes} {room width count : ℕ} {element tag : UInt8}
  {tree : UInt8 → Bytes → Option Tree} {payload : UInt8 → Reader Unit} {entries : List Entry}

lemma wholeBody_eq_some (hframed : ∀ tag, (payload tag).Framed) : wholeBody payload input=some entries ↔
      input=body entries ∧ ∀ entry ∈ entries, entry.Formed payload := by
  unfold wholeBody
  constructor
  · intro h
    split at h
    · rename_i read hread
      cases h
      have ⟨hinput,hformed⟩ := entries_eq_some hframed hread
      exact ⟨hinput.trans (append_nil _),hformed⟩
    · cases h
  · rintro ⟨rfl,hformed⟩
    rw [(entries_takes hframed hformed).apply]

lemma times_skip (h : (skip (count*width)).Takes input ()) :
    ∃ values, (times (skip width) count).Takes input values := by
  have hlength := skip_takes_length h
  clear h
  induction count generalizing input with
  | zero =>
    rw [Nat.zero_mul,length_eq_zero_iff] at hlength
    rw [hlength]
    exact ⟨[],Takes.pure⟩
  | succ count ih =>
    rw [Nat.succ_mul] at hlength
    have hhead : (input.take width).length=width := by
      rw [length_take]
      omega
    obtain ⟨values,hvalues⟩ := @ih (input.drop width) (by
      rw [length_drop]
      omega)
    have hskip : (skip width).Takes (input.take width) () := by
      have htakes : (skip (input.take width).length).Takes (input.take width) () := skip_takes
      rwa [hhead] at htakes
    refine ⟨() :: values,?_⟩
    rw [← take_append_drop width input]
    exact hskip.bind (hvalues.bind_pure fun _=>rfl)

lemma skipWithin_elementWidth (h : elementWidth element=some width) : skipWithin (room+1) element=skip width := by
  unfold elementWidth at h
  unfold skipWithin
  split at h
  case h_7 => cases h
  all_goals
    rename_i htag
    cases h
    rw [htag]
    rfl

lemma takes_skipList (h : (skipList room (skipWithin room)).Takes input ()) :
    ∃ element count elements values, input = [element] ++ toLe 4 count++elements ∧
      count<2^31 ∧ (times (skipWithin room element) count).Takes elements values := by
  obtain ⟨element,middle,helement,hrest⟩ := bind_eq_some.1 h.apply
  obtain ⟨count,elements,hcount,hread⟩ := bind_eq_some.1 hrest
  obtain ⟨value,last,hvalue,hpure⟩ := bind_eq_some.1 hcount
  obtain ⟨rfl,-⟩ := readLe_eq_some hvalue
  rw [readU8_eq_some helement]
  split at hpure
  case isFalse => cases hpure
  rename_i hlt
  cases hpure
  refine ⟨element,count,elements,?_⟩
  suffices hvalues : ∃ values, (times (skipWithin room element) count).Takes elements values by
    obtain ⟨values,hvalues⟩ := hvalues
    exact ⟨values,by simp,hlt,hvalues⟩
  split at hread
  · cases hread
  rename_i hroom
  cases hwidth : elementWidth element with
  | none =>
    rw [hwidth] at hread
    obtain ⟨values,last,htimes,hdone⟩ := bind_eq_some.1 hread
    cases hdone
    obtain ⟨used,hused,htakes⟩ := (framed_skipWithin room element).times count htimes
    rw [hused,append_nil]
    exact ⟨values,htakes⟩
  | some width =>
    rw [hwidth] at hread
    obtain ⟨used,hused,htakes⟩ := framed_skip hread
    rw [append_nil] at hused
    rw [hused]
    cases room with
    | zero =>
      have hzero : count=0 := by
        by_contra hne
        exact hroom ⟨hne,rfl⟩
      subst hzero
      rw [Nat.zero_mul] at htakes
      rw [length_eq_zero_iff.1 (skip_takes_length htakes)]
      exact ⟨[],Takes.pure⟩
    | succ room =>
      rw [skipWithin_elementWidth hwidth]
      exact times_skip htakes

lemma elementsOf_isSome (hframed : walk.Framed) {tree : Bytes → Option Tree}
    (htree : ∀ bytes, walk.Takes bytes () → ∃ value, tree bytes=some value)
    {values : List Unit} (h : (times walk count).Takes input values) :
    ∃ values, elementsOf (taking walk) tree count input=some values := by
  induction count generalizing input values with
  | zero =>
    have hinput := h.apply
    cases hinput
    exact ⟨[],rfl⟩
  | succ count ih =>
    obtain ⟨⟨⟩,rest,hwalk,hrest⟩ := bind_eq_some.1 h.apply
    obtain ⟨tail,last,htail,hpure⟩ := bind_eq_some.1 hrest
    cases hpure
    obtain ⟨used,rfl,htakes⟩ := hframed hwalk
    obtain ⟨others,hrest,hothers⟩ := hframed.times count htail
    rw [append_nil] at hrest
    subst hrest
    obtain ⟨value,hvalue⟩ := htree used htakes
    obtain ⟨values,hvalues⟩ := ih hothers
    refine ⟨value::values,?_⟩
    rw [elementsOf,taking_takes htakes]
    simp only [Option.bind_eq_bind,Option.bind_some,hvalue,hvalues]

lemma fieldsOf_isSome (h : ∀ entry ∈ entries, ∃ value, tree entry.tag entry.payload=some value) :
    ∃ fields, fieldsOf tree entries=some fields := by
  induction entries with
  | nil => exact ⟨[],rfl⟩
  | cons entry entries ih =>
    obtain ⟨value,hvalue⟩ := h entry (.head _)
    obtain ⟨fields,hfields⟩ := ih fun other hmem=>h other (.tail _ hmem)
    exact ⟨(entry.name,value) :: fields,by rw [fieldsOf,hvalue,hfields]; rfl⟩

/-- What the walk passes over has a tree. -/
lemma treeWithin_isSome (h : (skipWithin room tag).Takes input ()) : ∃ tree, treeWithin room tag input=some tree := by
  induction room generalizing tag input with
  | zero => exact absurd h.apply (fun hread=>by cases hread)
  | succ room ih =>
    unfold treeWithin
    have hskip := h
    unfold skipWithin skipTag at hskip
    split
    · rename_i htag
      rw [htag] at hskip
      exact ⟨_,if_pos (skip_takes_length hskip)⟩
    · rename_i htag
      rw [htag] at hskip
      exact ⟨_,if_pos (skip_takes_length hskip)⟩
    · rename_i htag
      rw [htag] at hskip
      obtain ⟨element,count,elements,values,rfl,hcount,htimes⟩ := takes_skipList hskip
      obtain ⟨trees,htrees⟩ := elementsOf_isSome (framed_skipWithin room element) (fun bytes hbytes=>ih hbytes) htimes
      refine ⟨.list element trees,?_⟩
      rw [listOf,append_assoc,readU8_takes]
      simp only [Option.bind_eq_bind,Option.bind_some]
      rw [readCount_takes hcount]
      simp only [Option.bind_some,htrees]
    · rename_i htag
      rw [htag] at hskip
      obtain ⟨entries,last,hread,hpure⟩ := bind_eq_some.1 hskip.apply
      cases hpure
      obtain ⟨hinput,hformed⟩ := entries_eq_some (framed_skipWithin room) hread
      rw [append_nil] at hinput
      have hbody := (wholeBody_eq_some (framed_skipWithin room)).2 ⟨hinput,hformed⟩
      obtain ⟨fields,hfields⟩ := fieldsOf_isSome fun entry hmem=>ih (hformed entry hmem).walked
      refine ⟨.compound fields,?_⟩
      rw [hbody]
      simp only [Option.bind_eq_bind,Option.bind_some,hfields]
    · exact ⟨.leaf tag input,if_pos h.apply⟩

lemma walked_of_splitExtra {extra compound trailer : Bytes} (h : splitExtra extra=some (compound,trailer)) :
    (skipWithin (maxItemNbtWalkDepth+1) tagCompound).Takes compound () := by
  have hempty : (skipWithin (maxItemNbtWalkDepth+1) tagCompound).Takes [0] () :=
    Takes.bind_pure (entries_takes (fun tag=>framed_skipWithin _ tag) (fun _ hmem=>absurd hmem not_mem_nil)) fun _=>rfl
  unfold splitExtra at h
  split at h
  · cases h
  split at h
  · cases h
    exact hempty
  split at h
  · cases h
  split at h
  · cases h
    exact hempty
  split at h
  · obtain ⟨version,middle,hversion,hread⟩ := bind_eq_some.1 h
    obtain ⟨tag,middle,htag,hread⟩ := bind_eq_some.1 hread
    split at hread
    · obtain ⟨name,middle,hname,hread⟩ := bind_eq_some.1 hread
      exact (taking_eq_some (framed_skipWithin _ _) hread).2
    · cases hread
  · cases h

lemma treeOf_eq_some {extra trailer : Bytes} {tree : Tree} :
    treeOf extra=some (tree,trailer) ↔ ∃ compound, splitExtra extra=some (compound,trailer) ∧
      treeWithin (maxItemNbtWalkDepth+1) tagCompound compound=some tree := by
  unfold treeOf
  cases splitExtra extra with
  | none =>
    constructor
    · intro h
      cases h
    · rintro ⟨_,h,_⟩
      cases h
  | some split =>
    obtain ⟨compound,rest⟩ := split
    simp only [Option.bind_eq_bind,Option.bind_some,Option.bind_eq_some_iff,Option.some.injEq, Prod.mk.injEq]
    constructor
    · rintro ⟨value,htree,rfl,rfl⟩
      exact ⟨compound,⟨rfl,rfl⟩,htree⟩
    · rintro ⟨other,⟨rfl,rfl⟩,htree⟩
      exact ⟨tree,htree,rfl,rfl⟩

lemma treeOf_isSome {extra compound trailer : Bytes}
    (h : splitExtra extra=some (compound,trailer)) : ∃ tree, treeOf extra=some (tree,trailer) :=
  have ⟨tree,htree⟩ := treeWithin_isSome (walked_of_splitExtra h)
  ⟨tree,treeOf_eq_some.2 ⟨compound,h,htree⟩⟩

end Total

end Cinnabar.Item
