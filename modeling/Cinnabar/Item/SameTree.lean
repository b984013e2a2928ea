import Cinnabar.Item.SameExtra

/-! # Equality of item user data on trees

On payloads with a tree the comparison compares trees.
-/

namespace Cinnabar.Item

open Reader List

variable {a b x y z : Bytes} {count room : ℕ} {tag element : UInt8} {t u : Tree}

section Names

lemma nameLe_total (x y : Bytes) : nameLe x y=true ∨ nameLe y x=true := by
  induction x generalizing y with
  | nil => exact .inl rfl
  | cons first x ih =>
    cases y with
    | nil => exact .inr rfl
    | cons other y =>
      simp only [nameLe,Bool.or_eq_true,Bool.and_eq_true,decide_eq_true_eq]
      by_cases heq : first=other
      · subst heq
        exact (ih y).imp (fun h=>.inr ⟨rfl,h⟩) fun h=>.inr ⟨rfl,h⟩
      · exact (UInt8.lt_or_lt_of_ne heq).imp .inl .inl

lemma nameLe_trans (h : nameLe x y=true) (h' : nameLe y z=true) : nameLe x z=true := by
  induction x generalizing y z with
  | nil => rfl
  | cons first x ih =>
    cases y with
    | nil => cases h
    | cons middle y =>
      cases z with
      | nil => cases h'
      | cons last z =>
        simp only [nameLe,Bool.or_eq_true,Bool.and_eq_true,decide_eq_true_eq] at h h' ⊢
        rcases h with hlt | ⟨rfl,hle⟩
        · rcases h' with hlt' | ⟨rfl,-⟩
          · exact .inl (UInt8.lt_trans hlt hlt')
          · exact .inl hlt
        · exact h'.imp id fun ⟨heq,hle'⟩=>⟨heq,ih hle hle'⟩

lemma nameLe_antisymm (h : nameLe x y=true) (h' : nameLe y x=true) : x=y := by
  induction x generalizing y with
  | nil =>
    cases y with
    | nil => rfl
    | cons => cases h'
  | cons first x ih =>
    cases y with
    | nil => cases h
    | cons other y =>
      simp only [nameLe,Bool.or_eq_true,Bool.and_eq_true,decide_eq_true_eq] at h h'
      rcases h with hlt | ⟨rfl,hle⟩
      · rcases h' with hlt' | ⟨rfl,-⟩
        · exact absurd hlt' (UInt8.lt_asymm hlt)
        · exact absurd hlt (UInt8.lt_irrefl _)
      · rcases h' with hlt' | ⟨-,hle'⟩
        · exact absurd hlt' (UInt8.lt_irrefl _)
        · rw [ih hle hle']

def sortEntries (entries : List Entry) : List Entry :=
  entries.insertionSort fun a b=>nameLe a.name b.name=true

lemma sortEntries_perm (entries : List Entry) : (sortEntries entries).Perm entries :=
  perm_insertionSort _ _

lemma sortEntries_sorted (entries : List Entry) :
    (sortEntries entries).Pairwise fun a b=>nameLe a.name b.name=true := by
  have htotal : Std.Total fun a b : Entry=>nameLe a.name b.name=true := ⟨fun a b=>nameLe_total a.name b.name⟩
  have htrans : IsTrans Entry fun a b=>nameLe a.name b.name=true := ⟨fun _ _ _=>nameLe_trans⟩
  exact pairwise_insertionSort _ _

lemma sortedEntries_eq (hroom : room ≤ maxItemNbtWalkDepth) (input : Bytes) :
    sortedEntries (maxItemNbtWalkDepth-room) input = (wholeBody (skipWithin room) input).bind fun entries =>
        if (entries.map Entry.name).Nodup then some (sortEntries entries) else none := by
  have hskip : (fun tag=>skipLePayload tag (maxItemNbtWalkDepth-room+1)) =
      skipWithin room := by
    funext tag
    rw [skipLePayload,Nat.add_sub_add_right,Nat.sub_sub_self hroom]
  unfold sortedEntries wholeBody
  rw [hskip]
  cases (readEntry (skipWithin room)).many input with
  | none => rfl
  | some parsed =>
    obtain ⟨entries,rest⟩ := parsed
    cases rest with
    | nil => rfl
    | cons byte rest => rfl

end Names

section Shapes

lemma treeWithin_float (htag : tag.toNat=5) : treeWithin (room+1) tag a =
    if a.length=4 then some (.float (fromLe a)) else none := by
  rw [treeWithin,htag]
  rfl

lemma treeWithin_double (htag : tag.toNat=6) : treeWithin (room+1) tag a =
    if a.length=8 then some (.double (fromLe a)) else none := by
  rw [treeWithin,htag]
  rfl

lemma treeWithin_list (htag : tag.toNat=9) : treeWithin (room+1) tag a =
    listOf (fun element=>taking (skipWithin room element)) (treeWithin room) a := by
  rw [treeWithin,htag]
  rfl

lemma treeWithin_compound (htag : tag.toNat=10) : treeWithin (room+1) tag a =
    (wholeBody (skipWithin room) a).bind fun entries =>
      (fieldsOf (treeWithin room) entries).bind fun fields=>some (.compound fields) := by
  rw [treeWithin,htag]
  rfl

lemma treeWithin_leaf (htag : IsLeaf tag) (h : treeWithin (room+1) tag a=some t) : t = .leaf tag a := by
  obtain ⟨hfloat,hdouble,hlist,hcompound⟩ := htag
  unfold treeWithin at h
  split at h
  · contradiction
  · contradiction
  · contradiction
  · contradiction
  · split at h
    · exact (Option.some.inj h).symm
    · cases h

lemma tag_of_treeWithin (h : treeWithin room tag a=some t) : t.tag=tag := by
  cases room with
  | zero => cases h
  | succ room =>
    rcases tag_cases tag with htag | htag | htag | htag | htag
    · rw [treeWithin_float htag] at h
      split at h
      · cases h
        exact UInt8.toNat_inj.1 htag.symm
      · cases h
    · rw [treeWithin_double htag] at h
      split at h
      · cases h
        exact UInt8.toNat_inj.1 htag.symm
      · cases h
    · rw [treeWithin_list htag] at h
      obtain ⟨_,_,h⟩ := Option.bind_eq_some_iff.1 h
      obtain ⟨_,_,h⟩ := Option.bind_eq_some_iff.1 h
      obtain ⟨_,_,h⟩ := Option.bind_eq_some_iff.1 h
      cases h
      exact UInt8.toNat_inj.1 htag.symm
    · rw [treeWithin_compound htag] at h
      obtain ⟨_,_,h⟩ := Option.bind_eq_some_iff.1 h
      obtain ⟨_,_,h⟩ := Option.bind_eq_some_iff.1 h
      cases h
      exact UInt8.toNat_inj.1 htag.symm
    · rw [treeWithin_leaf htag h,Tree.tag]

lemma Tree.Same.tag_eq (h : t.Same u) : t.tag=u.tag := by
  cases h <;> rfl

lemma Tree.same_list {element other : UInt8} {values others : List Tree} :
    (Tree.list element values).Same (.list other others) ↔
      element=other ∧ List.Forall₂ Tree.Same values others := by
  rw [forall₂_iff_zip]
  constructor
  · rintro (_ | _ | _ | ⟨hlength,h⟩)
    exact ⟨rfl,hlength,fun hmem=>h _ hmem⟩
  · rintro ⟨rfl,hlength,h⟩
    exact .list hlength fun _ hmem=>h hmem

/-- Two fields of one name whose values are the same. -/
def SameField (field other : Bytes × Tree) : Prop := field.1=other.1 ∧ field.2.Same other.2

lemma forall₂_sameField {fields others : List (Bytes × Tree)} :
    List.Forall₂ SameField fields others ↔ fields.map Prod.fst=others.map Prod.fst ∧
      ∀ pair ∈ fields.zip others, pair.1.2.Same pair.2.2 := by
  induction fields generalizing others with
  | nil => cases others <;> simp
  | cons field fields ih =>
    cases others with
    | nil => simp
    | cons other others =>
      rw [forall₂_cons,ih,map_cons,map_cons,List.cons.injEq,zip_cons_cons, forall_mem_cons,SameField]
      tauto

lemma Tree.same_compound {fields others : List (Bytes × Tree)} : (Tree.compound fields).Same (.compound others) ↔
      ∃ reordered, reordered.Perm others ∧ List.Forall₂ SameField fields reordered := by
  simp only [forall₂_sameField]
  constructor
  · rintro (_ | _ | _ | _ | ⟨hperm,hnames,h⟩)
    exact ⟨_,hperm,hnames,h⟩
  · rintro ⟨reordered,hperm,hnames,h⟩
    exact .compound hperm hnames h

end Shapes

section Lists

variable {payload : Reader Bytes} {tree : Bytes → Option Tree} {same : Bytes → Bytes → Option Bool}
  {values others : List Tree}

lemma elementsOf_succ_eq_some : elementsOf payload tree (count+1) a=some values ↔
    ∃ bytes rest value tail, payload a=some (bytes,rest) ∧ tree bytes=some value ∧
      elementsOf payload tree count rest=some tail ∧ values=value::tail := by
  rw [elementsOf]
  simp only [Option.bind_eq_bind,Option.bind_eq_some_iff,Option.some.injEq,Prod.exists]
  constructor
  · rintro ⟨bytes,rest,hread,value,hvalue,tail,htail,rfl⟩
    exact ⟨bytes,rest,value,tail,hread,hvalue,htail,rfl⟩
  · rintro ⟨bytes,rest,value,tail,hread,hvalue,htail,rfl⟩
    exact ⟨bytes,rest,hread,value,hvalue,tail,htail,rfl⟩

lemma elementsOf_zero_eq_some : elementsOf payload tree 0 a=some values ↔ a = [] ∧ values = [] := by
  cases a with
  | nil => simp [elementsOf,eq_comm]
  | cons => simp [elementsOf]

lemma length_elementsOf (h : elementsOf payload tree count a=some values) : values.length=count := by
  induction count generalizing a values with
  | zero => rw [(elementsOf_zero_eq_some.1 h).2,length_nil]
  | succ count ih =>
    obtain ⟨_,_,value,tail,-,-,htail,rfl⟩ := elementsOf_succ_eq_some.1 h
    rw [length_cons,ih htail]

lemma sameElements_trees (ha : elementsOf payload tree count a=some values)
    (hb : elementsOf payload tree count b=some others)
    (h : ∀ {x y t u}, t ∈ values → u ∈ others → tree x=some t → tree y=some u →
      ∃ equal, same x y=some equal ∧ (equal=true ↔ t.Same u)) :
    ∃ equal, sameElements payload same count a b=some equal ∧
      (equal=true ↔ List.Forall₂ Tree.Same values others) := by
  induction count generalizing a b values others with
  | zero =>
    obtain ⟨rfl,rfl⟩ := elementsOf_zero_eq_some.1 ha
    obtain ⟨rfl,rfl⟩ := elementsOf_zero_eq_some.1 hb
    exact ⟨true,rfl,iff_of_true rfl .nil⟩
  | succ count ih =>
    obtain ⟨x,aRest,value,valuesTail,hx,hvalue,hvalues,rfl⟩ := elementsOf_succ_eq_some.1 ha
    obtain ⟨y,bRest,other,othersTail,hy,hother,hothers,rfl⟩ := elementsOf_succ_eq_some.1 hb
    obtain ⟨first,hfirst,hsame⟩ := h (.head _) (.head _) hvalue hother
    rw [sameElements_succ,hx,hy]
    simp only [Option.bind_some,hfirst,forall₂_cons,← hsame]
    cases first with
    | false => exact ⟨false,rfl,by simp⟩
    | true =>
      obtain ⟨equal,hequal,hrest⟩ := ih hvalues hothers fun ht hu =>
        h (.tail _ ht) (.tail _ hu)
      exact ⟨equal,hequal,by rw [hrest]; simp⟩

lemma sameElements_self (ha : elementsOf payload tree count a=some values)
    (h : ∀ {x t}, t ∈ values → tree x=some t → same x x≠some false) :
    sameElements payload same count a a≠some false := by
  induction count generalizing a values with
  | zero =>
    obtain ⟨rfl,rfl⟩ := elementsOf_zero_eq_some.1 ha
    exact fun h=>by cases h
  | succ count ih =>
    obtain ⟨x,rest,value,tail,hx,hvalue,htail,rfl⟩ := elementsOf_succ_eq_some.1 ha
    have hfirst := h (.head _) hvalue
    rw [sameElements_succ,hx]
    simp only [Option.bind_some]
    cases hsame : same x x with
    | none => exact fun h=>by cases h
    | some equal =>
      cases equal with
      | false => exact absurd hsame hfirst
      | true => exact ih htail fun ht=>h (.tail _ ht)

variable {payloads : UInt8 → Reader Bytes} {trees : UInt8 → Bytes → Option Tree}
  {sames : UInt8 → Bytes → Bytes → Option Bool}

lemma listOf_eq_some : listOf payloads trees a=some t ↔
    ∃ element middle count elements values, readU8 a=some (element,middle) ∧ readCount middle=some (count,elements) ∧
      elementsOf (payloads element) (trees element) count elements=some values ∧
      t = .list element values := by
  unfold listOf
  simp only [Option.bind_eq_bind,Option.bind_eq_some_iff,Option.some.injEq,Prod.exists]
  constructor
  · rintro ⟨element,middle,helement,count,elements,hcount,values,hvalues,rfl⟩
    exact ⟨element,middle,count,elements,values,helement,hcount,hvalues,rfl⟩
  · rintro ⟨element,middle,count,elements,values,helement,hcount,hvalues,rfl⟩
    exact ⟨element,middle,helement,count,elements,hcount,values,hvalues,rfl⟩

/-- Lists of trees compare by their element types, counts and elements. -/
lemma sameList_trees (ha : listOf payloads trees a=some t) (hb : listOf payloads trees b=some u)
    (ht : t.Unique) (hu : u.Unique)
    (h : ∀ {tag x y t u}, trees tag x=some t → trees tag y=some u → t.Unique → u.Unique →
      ∃ equal, sames tag x y=some equal ∧ (equal=true ↔ t.Same u)) :
    ∃ equal, sameList payloads sames a b=some equal ∧ (equal=true ↔ t.Same u) := by
  obtain ⟨element,middle,count,elements,values,helement,hcount,hvalues,rfl⟩ := listOf_eq_some.1 ha
  obtain ⟨other,middle',otherCount,otherElements,others,hother,hotherCount,hothers,rfl⟩ := listOf_eq_some.1 hb
  cases ht with | list hvaluesUnique =>
  cases hu with | list hothersUnique =>
  rw [sameList_eq,helement,hother]
  simp only [Option.bind_some]
  rw [hcount,hotherCount]
  simp only [Option.bind_some,Tree.same_list]
  by_cases heq : element=other ∧ count=otherCount
  · rw [if_neg (by simp [heq])]
    obtain ⟨rfl,rfl⟩ := heq
    obtain ⟨equal,hequal,hsame⟩ := sameElements_trees hvalues hothers
      fun hmem hmem' hx hy=>h hx hy (hvaluesUnique _ hmem) (hothersUnique _ hmem')
    exact ⟨equal,hequal,by rw [hsame]; simp⟩
  · rw [if_pos (not_and_or.1 heq)]
    refine ⟨false,rfl,iff_of_false Bool.false_ne_true fun hsame=>heq ⟨hsame.1,?_⟩⟩
    rw [← length_elementsOf hvalues,← length_elementsOf hothers,hsame.2.length_eq]

end Lists

section Compounds

variable {trees : UInt8 → Bytes → Option Tree} {sames : UInt8 → Bytes → Bytes → Option Bool}
  {entries others : List Entry} {fields otherFields : List (Bytes × Tree)}

def Bears (trees : UInt8 → Bytes → Option Tree) (entry : Entry) (field : Bytes × Tree) : Prop :=
  entry.name=field.1 ∧ trees entry.tag entry.payload=some field.2

lemma fieldsOf_eq_some : fieldsOf trees entries=some fields ↔ List.Forall₂ (Bears trees) entries fields := by
  induction entries generalizing fields with
  | nil => cases fields <;> simp [fieldsOf]
  | cons entry entries ih =>
    rw [fieldsOf]
    simp only [Option.bind_eq_bind,Option.bind_eq_some_iff,Option.some.injEq, forall₂_cons_left_iff]
    constructor
    · rintro ⟨value,hvalue,tail,htail,rfl⟩
      exact ⟨(entry.name,value),tail,⟨rfl,hvalue⟩,ih.1 htail,rfl⟩
    · rintro ⟨⟨name,value⟩,tail,⟨rfl,hvalue⟩,htail,rfl⟩
      exact ⟨value,hvalue,tail,ih.2 htail,rfl⟩

lemma names_of_bears (h : List.Forall₂ (Bears trees) entries fields) : entries.map Entry.name=fields.map Prod.fst := by
  induction h with
  | nil => rfl
  | cons hfirst _ ih => rw [map_cons,map_cons,ih,hfirst.1]

lemma exists_field {entry : Entry} (h : List.Forall₂ (Bears trees) entries fields)
    (hmem : entry ∈ entries) : ∃ field ∈ fields, Bears trees entry field := by
  induction h with
  | nil => cases hmem
  | @cons _ field _ _ hfirst _ ih =>
    rcases mem_cons.1 hmem with rfl | hmem
    · exact ⟨field,.head _,hfirst⟩
    · obtain ⟨other,hother,hbears⟩ := ih hmem
      exact ⟨other,.tail _ hother,hbears⟩

lemma sameEntries_fields (ha : List.Forall₂ (Bears trees) entries fields)
    (hb : List.Forall₂ (Bears trees) others otherFields) (hlength : entries.length=others.length)
    (htag : ∀ {tag x t}, trees tag x=some t → t.tag=tag)
    (h : ∀ {tag x y t u}, trees tag x=some t.2 → trees tag y=some u.2 → t ∈ fields →
      u ∈ otherFields → ∃ equal, sames tag x y=some equal ∧ (equal=true ↔ t.2.Same u.2)) :
    ∃ equal, sameEntries sames entries others=some equal ∧
      (equal=true ↔ List.Forall₂ SameField fields otherFields) := by
  induction ha generalizing others otherFields with
  | nil =>
    cases hb with
    | nil => exact ⟨true,rfl,iff_of_true rfl .nil⟩
    | cons => cases hlength
  | @cons entry field entries fields hentry _ ih =>
    cases hb with
    | nil => cases hlength
    | @cons other otherField others otherFields hother hothers =>
      rw [sameEntries_cons]
      simp only [forall₂_cons]
      by_cases heq : entry.name=other.name ∧ entry.tag=other.tag
      · rw [if_neg (by simp [heq])]
        obtain ⟨hname,htags⟩ := heq
        have hfield := hentry.2
        rw [htags] at hfield ⊢
        obtain ⟨first,hfirst,hsame⟩ := h hfield hother.2 (.head _) (.head _)
        have hnames : field.1=otherField.1 := hentry.1.symm.trans (hname.trans hother.1)
        rw [hfirst,Option.bind_some]
        simp only [SameField,hnames,true_and,← hsame]
        cases first with
        | false => exact ⟨false,rfl,by simp⟩
        | true =>
          obtain ⟨equal,hequal,hrest⟩ := ih hothers (Nat.succ.inj hlength) fun hx hy ht hu =>
            h hx hy (.tail _ ht) (.tail _ hu)
          exact ⟨equal,hequal,by rw [hrest]; simp⟩
      · rw [if_pos (not_and_or.1 heq)]
        refine ⟨false,rfl,iff_of_false Bool.false_ne_true ?_⟩
        rintro ⟨⟨hnames,hsame⟩,-⟩
        refine heq ⟨hentry.1.trans (hnames.trans hother.1.symm),?_⟩
        rw [← htag hentry.2,← htag hother.2,hsame.tag_eq]

lemma sameEntries_self (h : ∀ entry ∈ entries, sames entry.tag entry.payload entry.payload≠some false) :
    sameEntries sames entries entries≠some false := by
  induction entries with
  | nil => exact fun h=>by cases h
  | cons entry entries ih =>
    have hfirst := h entry (.head _)
    rw [sameEntries_cons,if_neg (by simp)]
    cases hsame : sames entry.tag entry.payload entry.payload with
    | none => exact fun h=>by cases h
    | some equal =>
      cases equal with
      | false => exact absurd hsame hfirst
      | true => exact ih fun other hmem=>h other (.tail _ hmem)

lemma sorted_fields (h : List.Forall₂ (Bears trees) entries fields) :
    ∃ sorted, List.Forall₂ (Bears trees) (sortEntries entries) sorted ∧ sorted.Perm fields ∧
      sorted.Pairwise fun field other=>nameLe field.1 other.1=true := by
  obtain ⟨sorted,hbears,hperm⟩ := perm_comp_forall₂ (sortEntries_perm entries) h
  refine ⟨sorted,hbears,hperm,?_⟩
  have hsorted : ((sortEntries entries).map Entry.name).Pairwise fun a b=>nameLe a b=true :=
    pairwise_map.2 (sortEntries_sorted entries)
  rw [names_of_bears hbears] at hsorted
  exact pairwise_map.1 hsorted

/-- Fields in the order of their names are the same exactly when the compounds are. -/
lemma forall₂_sorted {sorted otherSorted : List (Bytes × Tree)} (hperm : sorted.Perm fields)
    (hperm' : otherSorted.Perm otherFields) (hunique : (otherFields.map Prod.fst).Nodup)
    (hsorted : sorted.Pairwise fun field other=>nameLe field.1 other.1=true)
    (hsorted' : otherSorted.Pairwise fun field other=>nameLe field.1 other.1=true) :
    List.Forall₂ SameField sorted otherSorted ↔
      (Tree.compound fields).Same (.compound otherFields) := by
  rw [Tree.same_compound]
  constructor
  · intro h
    obtain ⟨reordered,hsame,hreordered⟩ := perm_comp_forall₂ hperm.symm h
    exact ⟨reordered,hreordered.trans hperm',hsame⟩
  · rintro ⟨reordered,hreordered,hsame⟩
    obtain ⟨found,hfound,hfoundPerm⟩ := perm_comp_forall₂ hperm hsame
    have hnames : sorted.map Prod.fst=found.map Prod.fst := (forall₂_sameField.1 hfound).1
    have hfoundSorted : (sorted.map Prod.fst).Pairwise fun a b=>nameLe a b=true := pairwise_map.2 hsorted
    rw [hnames] at hfoundSorted
    have hfoundOther : found.Perm otherFields := hfoundPerm.trans hreordered
    have heq : found=otherSorted := by
      refine (hfoundOther.trans hperm'.symm).eq_of_pairwise ?_ (pairwise_map.1 hfoundSorted) hsorted'
      intro field other hmem hmem' hle hle'
      exact inj_on_of_nodup_map hunique (hfoundOther.subset hmem) (hperm'.subset hmem') (nameLe_antisymm hle hle')
    rwa [heq] at hfound

end Compounds

section Payloads

lemma samePayloadWithin_trees (hroom : room ≤ maxItemNbtWalkDepth+1)
    (ha : treeWithin room tag a=some t) (hb : treeWithin room tag b=some u) (ht : t.Unique)
    (hu : u.Unique) :
    ∃ equal, samePayloadWithin room tag a b=some equal ∧ (equal=true ↔ t.Same u) := by
  induction room generalizing tag a b t u with
  | zero => cases ha
  | succ room ih =>
    have hle : room ≤ maxItemNbtWalkDepth := Nat.le_of_succ_le_succ hroom
    have hroom : room ≤ maxItemNbtWalkDepth+1 := hle.trans (Nat.le_succ _)
    rcases tag_cases tag with htag | htag | htag | htag | htag
    · rw [treeWithin_float htag] at ha hb
      split at ha
      case isFalse => cases ha
      rename_i hlength
      split at hb
      case isFalse => cases hb
      rename_i hlength'
      cases ha
      cases hb
      refine ⟨_,(samePayloadWithin_float htag).trans (sameFloat_eq hlength hlength'),.float,?_⟩
      rintro (_ | h)
      exact h
    · rw [treeWithin_double htag] at ha hb
      split at ha
      case isFalse => cases ha
      rename_i hlength
      split at hb
      case isFalse => cases hb
      rename_i hlength'
      cases ha
      cases hb
      refine ⟨_,(samePayloadWithin_double htag).trans (sameFloat_eq hlength hlength'),.double,?_⟩
      rintro (_ | _ | h)
      exact h
    · rw [treeWithin_list htag] at ha hb
      rw [samePayloadWithin_list htag]
      exact sameList_trees ha hb ht hu (ih hroom)
    · rw [treeWithin_compound htag] at ha hb
      obtain ⟨entries,hentries,ha⟩ := Option.bind_eq_some_iff.1 ha
      obtain ⟨fields,hfields,ha⟩ := Option.bind_eq_some_iff.1 ha
      obtain ⟨others,hothers,hb⟩ := Option.bind_eq_some_iff.1 hb
      obtain ⟨otherFields,hotherFields,hb⟩ := Option.bind_eq_some_iff.1 hb
      cases ha
      cases hb
      cases ht with | compound hnames hvalues =>
      cases hu with | compound hotherNames hotherValues =>
      have hbears := fieldsOf_eq_some.1 hfields
      have hotherBears := fieldsOf_eq_some.1 hotherFields
      rw [samePayloadWithin_compound htag,sortedEntries_eq hle,sortedEntries_eq hle,hentries, hothers]
      simp only [Option.bind_some]
      rw [names_of_bears hbears,names_of_bears hotherBears,if_pos hnames,if_pos hotherNames]
      simp only [Option.bind_some]
      obtain ⟨sorted,hsorted,hperm,hpairwise⟩ := sorted_fields hbears
      obtain ⟨otherSorted,hotherSorted,hotherPerm,hotherPairwise⟩ := sorted_fields hotherBears
      rw [← forall₂_sorted hperm hotherPerm hotherNames hpairwise hotherPairwise]
      by_cases hlength : (sortEntries entries).length = (sortEntries others).length
      · rw [if_neg (not_not.2 hlength)]
        exact sameEntries_fields hsorted hotherSorted hlength tag_of_treeWithin
          fun hx hy hmem hmem'=>ih hroom hx hy (hvalues _ (hperm.subset hmem))
            (hotherValues _ (hotherPerm.subset hmem'))
      · rw [if_pos hlength]
        refine ⟨false,rfl,iff_of_false Bool.false_ne_true fun hsame=>hlength ?_⟩
        rw [hsorted.length_eq,hotherSorted.length_eq,hsame.length_eq]
    · rw [samePayloadWithin_leaf htag,treeWithin_leaf htag ha,treeWithin_leaf htag hb]
      refine ⟨_,rfl,?_⟩
      rw [decide_eq_true_eq]
      constructor
      · rintro rfl
        exact .leaf
      · rintro ⟨⟩
        rfl

/-- A payload of numbers does not differ from itself. -/
lemma samePayloadWithin_self (hroom : room ≤ maxItemNbtWalkDepth+1)
    (ha : treeWithin room tag a=some t) (ht : t.Numeric) :
    samePayloadWithin room tag a a≠some false := by
  induction room generalizing tag a t with
  | zero => cases ha
  | succ room ih =>
    have hle : room ≤ maxItemNbtWalkDepth := Nat.le_of_succ_le_succ hroom
    have hroom : room ≤ maxItemNbtWalkDepth+1 := hle.trans (Nat.le_succ _)
    rcases tag_cases tag with htag | htag | htag | htag | htag
    · rw [treeWithin_float htag] at ha
      split at ha
      case isFalse => cases ha
      rename_i hlength
      cases ha
      cases ht with | float hnumber =>
      rw [samePayloadWithin_float htag,sameFloat_eq hlength hlength,sameBits,hnumber]
      simp
    · rw [treeWithin_double htag] at ha
      split at ha
      case isFalse => cases ha
      rename_i hlength
      cases ha
      cases ht with | double hnumber =>
      rw [samePayloadWithin_double htag,sameFloat_eq hlength hlength,sameBits,hnumber]
      simp
    · rw [treeWithin_list htag] at ha
      obtain ⟨element,middle,count,elements,values,helement,hcount,hvalues,rfl⟩ := listOf_eq_some.1 ha
      cases ht with | list hnumeric =>
      rw [samePayloadWithin_list htag,sameList_eq,helement]
      simp only [Option.bind_some]
      rw [hcount]
      simp only [Option.bind_some]
      rw [if_neg (by simp)]
      exact sameElements_self hvalues fun hmem hx=>ih hroom hx (hnumeric _ hmem)
    · rw [treeWithin_compound htag] at ha
      obtain ⟨entries,hentries,ha⟩ := Option.bind_eq_some_iff.1 ha
      obtain ⟨fields,hfields,ha⟩ := Option.bind_eq_some_iff.1 ha
      cases ha
      cases ht with | compound hnumeric =>
      have hbears := fieldsOf_eq_some.1 hfields
      rw [samePayloadWithin_compound htag,sortedEntries_eq hle,hentries,Option.bind_some]
      split
      · simp only [Option.bind_some]
        rw [if_neg (by simp)]
        refine sameEntries_self fun entry hmem=>?_
        obtain ⟨field,hfield,-,hvalue⟩ := exists_field hbears ((sortEntries_perm entries).subset hmem)
        exact ih hroom hvalue (hnumeric field hfield)
      · exact fun h=>by cases h
    · rw [samePayloadWithin_leaf htag]
      simp

end Payloads

section Extras

variable {aTail bTail : Bytes}

lemma compareExtra_trees (ha : treeOf a=some (t,aTail)) (hb : treeOf b=some (u,bTail)) (ht : t.Unique) (hu : u.Unique) :
    ∃ equal, compareExtra a b=some equal ∧ (equal=true ↔ t.Same u ∧ aTail=bTail) := by
  obtain ⟨left,hleft,ha⟩ := treeOf_eq_some.1 ha
  obtain ⟨right,hright,hb⟩ := treeOf_eq_some.1 hb
  rw [compareExtra_eq,hleft,hright]
  simp only [Option.bind_some]
  by_cases htail : aTail=bTail
  · rw [if_neg (not_not.2 htail)]
    obtain ⟨equal,hequal,hsame⟩ := samePayloadWithin_trees le_rfl ha hb ht hu
    exact ⟨equal,hequal,by rw [hsame,and_iff_left htail]⟩
  · rw [if_pos htail]
    exact ⟨false,rfl,iff_of_false Bool.false_ne_true fun h=>htail h.2⟩

/-- Data without a float that is no number is the same as itself. -/
lemma sameExtra_self (h : ∀ tree trailer, treeOf a=some (tree,trailer) → tree.Numeric) : sameExtra a a=true := by
  rw [sameExtra_eq_true]
  cases hcompare : compareExtra a a with
  | none => exact .inr ⟨rfl,rfl⟩
  | some equal =>
    cases equal with
    | true => exact .inl rfl
    | false =>
      rw [compareExtra_eq] at hcompare
      obtain ⟨⟨compound,trailer⟩,hsplit,hcompare⟩ := Option.bind_eq_some_iff.1 hcompare
      rw [hsplit,Option.bind_some,if_neg (by simp)] at hcompare
      obtain ⟨tree,htree⟩ := treeOf_isSome hsplit
      obtain ⟨_,hsplit',hwithin⟩ := treeOf_eq_some.1 htree
      cases hsplit.symm.trans hsplit'
      exact absurd hcompare (samePayloadWithin_self le_rfl hwithin (h tree trailer htree))

/-- Item data equality is an equivalence but for floats that are no numbers, and on parsed data with
unique names it is equality of trees and of trailers. -/
theorem item_data_equality : (∀ a b, sameExtra a b = sameExtra b a) ∧
    (∀ a b c, sameExtra a b=true → sameExtra b c=true → sameExtra a c=true) ∧
    (∀ a, (∀ tree trailer, treeOf a=some (tree,trailer) → tree.Numeric) → sameExtra a a=true) ∧
    ∀ a b t u aTail bTail, treeOf a=some (t,aTail) → treeOf b=some (u,bTail) →
      t.Unique → u.Unique → (sameExtra a b=true ↔ t.Same u ∧ aTail=bTail) := by
  refine ⟨sameExtra_comm,fun _ _ _ => sameExtra_trans,fun _=>sameExtra_self,?_⟩
  intro a b t u aTail bTail ha hb ht hu
  obtain ⟨equal,hequal,hsame⟩ := compareExtra_trees ha hb ht hu
  rw [← hsame,sameExtra_eq_true,hequal]
  simp

end Extras

end Cinnabar.Item
