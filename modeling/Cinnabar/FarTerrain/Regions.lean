import Cinnabar.FarTerrain.Summaries
import Cinnabar.Library.Maps
import Cinnabar.Library.Reader

/-! # Region files -/

namespace Cinnabar.FarTerrain

open Reader Std List

structure EncodedSummary where
  hash : UInt64
  bytes : Bytes

/-- A summary with the version it was taken at. -/
structure Versioned where
  version : UInt64
  summary : EncodedSummary

/-- A slot of a region with its summary. -/
abbrev RegionColumn : Type := ℕ × Versioned

def regionColumns : ℕ := 1024

def magic : Bytes := [67,78,66,82,76,79,68,50]

def entryBytes : ℕ := 22

/-- What `encode_region` keeps of each slot. -/
def newer (latest : TreeMap ℕ Versioned) (column : RegionColumn) : TreeMap ℕ Versioned :=
  match latest[column.1]? with
  | some newest =>
    if newest.version ≤ column.2.version then latest.insert column.1 column.2 else latest
  | none => latest.insert column.1 column.2

def latest (columns : List RegionColumn) : TreeMap ℕ Versioned := columns.foldl newer ∅

def entry (column : RegionColumn) : Bytes :=
  toLe 2 column.1 ++ (toLe 4 column.2.summary.bytes.length ++
    (toLe 8 column.2.summary.hash.toNat++toLe 8 column.2.version.toNat))

def layout (columns : List RegionColumn) : Bytes :=
  magic ++ (toLe 2 columns.length ++ ((columns.map entry).flatten ++
    (columns.map fun column=>column.2.summary.bytes).flatten))

def encodeRegion (columns : List RegionColumn) : Bytes := layout (latest columns).toList

def field (start width : ℕ) (bytes : Bytes) : ℕ := fromLe ((bytes.drop start).take width)

/-- The loop of `decode_region`, over the table and the payload. -/
def readEntries : ℕ → Bytes → Bytes → Option (List RegionColumn)
  | 0, _, payload => if payload = [] then some [] else none
  | count+1, table, payload =>
    if regionColumns≤field 0 2 table ∨ payload.length<field 2 4 table then none
    else
      (readEntries count (table.drop entryBytes) (payload.drop (field 2 4 table))).map fun rest =>
        (field 0 2 table,⟨.ofNat (field 14 8 table),⟨.ofNat (field 6 8 table), payload.take (field 2 4 table)⟩⟩) :: rest

def decodeRegion (bytes : Bytes) : Option (List RegionColumn) :=
  if bytes.take 8=magic then
    let rest := bytes.drop 8
    if rest.length<2 then none
    else
      let count := field 0 2 rest
      if regionColumns < count ∨ (rest.drop 2).length < count*entryBytes then none
      else readEntries count ((rest.drop 2).take (count*entryBytes)) ((rest.drop 2).drop (count*entryBytes))
  else none

/-- What fits the table: a slot of the region and a payload below 4 GiB. -/
def Fits (column : RegionColumn) : Prop :=
  column.1 < regionColumns ∧ column.2.summary.bytes.length<2^32

section Entries

variable {column : RegionColumn} {table payload rest : Bytes} {columns : List RegionColumn} {count : ℕ}

lemma length_entry : (entry column).length=entryBytes := by simp [entry,entryBytes]

lemma field_lt (start width : ℕ) (bytes : Bytes) : field start width bytes<256^width :=
  (fromLe_lt _).trans_le (Nat.pow_le_pow_right (by decide) (length_take_le _ _))

lemma field_entry (rest : Bytes) (hfits : Fits column) : field 0 2 (entry column++rest) = column.1 ∧
    field 2 4 (entry column++rest) = column.2.summary.bytes.length ∧
    UInt64.ofNat (field 6 8 (entry column++rest)) = column.2.summary.hash ∧
    UInt64.ofNat (field 14 8 (entry column++rest)) = column.2.version := by
  have hslot := fromLe_toLe (hfits.1.trans (by decide : regionColumns<256^2))
  have hlen := fromLe_toLe (hfits.2.trans_eq (by decide : 2^32=256^4))
  have hword (word : UInt64) : UInt64.ofNat (fromLe (toLe 8 word.toNat)) = word := by
    rw [fromLe_toLe word.toNat_lt,UInt64.ofNat_toNat]
  refine ⟨?_,?_,?_,?_⟩
  · rw [← hslot]
    simp [field,entry]
  · rw [← hlen]
    simp [field,entry]
  · rw [← hword column.2.summary.hash]
    simp [field,entry,drop_append,drop_eq_nil_of_le]
  · rw [← hword column.2.version]
    simp [field,entry,drop_append,drop_eq_nil_of_le]

/-- A table row is the entry of what it says. -/
lemma entry_field (hlen : entryBytes≤table.length) (hpayload : field 2 4 table≤payload.length) :
    table.take entryBytes=entry (field 0 2 table,⟨.ofNat (field 14 8 table),
      ⟨.ofNat (field 6 8 table),payload.take (field 2 4 table)⟩⟩) := by
  have hpart (start width : ℕ) (hfits : start+width≤entryBytes) :
      (table.drop start).take width=toLe width (field start width table) := by
    have hwidth : ((table.drop start).take width).length=width := by
      rw [length_take,length_drop]
      omega
    conv_lhs => rw [← toLe_fromLe ((table.drop start).take width),hwidth]
    rfl
  have hword (start : ℕ) : (UInt64.ofNat (field start 8 table)).toNat=field start 8 table :=
    UInt64.toNat_ofNat_of_lt' (field_lt start 8 table)
  unfold entry
  dsimp only
  rw [hword,hword,length_take,Nat.min_eq_left hpayload,← hpart 0 2 (by decide),← hpart 2 4 (by decide),
    ← hpart 6 8 (by decide),← hpart 14 8 (by decide)]
  rw [show entryBytes=2+(4+(8+8)) from rfl,take_add,take_add,take_add,drop_drop, drop_drop,drop_zero]

lemma readEntries_eq_some (htable : table.length=count*entryBytes) :
    readEntries count table payload=some columns ↔ columns.length=count ∧
      (∀ column ∈ columns, Fits column) ∧ table = (columns.map entry).flatten ∧
      payload = (columns.map fun column=>column.2.summary.bytes).flatten := by
  induction count generalizing table payload columns with
  | zero =>
    rw [Nat.zero_mul,length_eq_zero_iff] at htable
    rw [readEntries,htable]
    constructor
    · intro h
      split_ifs at h with hempty
      cases h
      exact ⟨rfl,(by intro _ h; cases h),rfl,hempty⟩
    · rintro ⟨hcount,-,-,rfl⟩
      rw [length_eq_zero_iff.1 hcount]
      rfl
  | succ count ih =>
    have hlong : entryBytes≤table.length := by
      rw [htable,Nat.succ_mul]
      exact Nat.le_add_left _ _
    have hdrop : (table.drop entryBytes).length=count*entryBytes := by
      rw [length_drop,htable,Nat.succ_mul,Nat.add_sub_cancel]
    rw [readEntries]
    constructor
    · intro h
      split_ifs at h with hbad
      rw [not_or,Nat.not_le,Nat.not_lt] at hbad
      obtain ⟨rest,hrest,rfl⟩ := Option.map_eq_some_iff.1 h
      obtain ⟨rfl,hfits,htail,hpayload⟩ := (ih hdrop).1 hrest
      refine ⟨rfl,forall_mem_cons.2 ⟨⟨hbad.1,?_⟩,hfits⟩,?_,?_⟩
      · exact (length_take_le _ _).trans_lt (field_lt 2 4 table)
      · rw [map_cons,flatten_cons,← entry_field hlong hbad.2,← htail,take_append_drop]
      · rw [map_cons,flatten_cons,← hpayload,take_append_drop]
    · rintro ⟨hcount,hfits,rfl,rfl⟩
      obtain ⟨column,rest,rfl⟩ := exists_cons_of_length_eq_add_one hcount
      obtain ⟨hfirst,hrest⟩ := forall_mem_cons.1 hfits
      rw [map_cons,flatten_cons,map_cons,flatten_cons]
      obtain ⟨hslot,hlen,hhash,hversion⟩ := field_entry (rest.map entry).flatten hfirst
      rw [hslot,hlen,hhash,hversion,if_neg,drop_left' length_entry,drop_left,take_left,
        (ih _).2 ⟨Nat.succ.inj hcount,hrest,rfl,rfl⟩]
      · rfl
      · rw [map_cons,flatten_cons,drop_left' length_entry] at hdrop
        exact hdrop
      · rw [not_or,Nat.not_le,Nat.not_lt,length_append]
        exact ⟨hfirst.1,Nat.le_add_right _ _⟩

lemma length_table (columns : List RegionColumn) : (columns.map entry).flatten.length=columns.length*entryBytes := by
  rw [length_flatten,map_map,show List.length∘entry = fun _=>entryBytes from
    funext fun _=>length_entry,map_const',sum_replicate,smul_eq_mul]

/-- A region file is accepted when it is the layout of the summaries it lists. -/
lemma decodeRegion_eq_some {bytes : Bytes} : decodeRegion bytes=some columns ↔
    columns.length ≤ regionColumns ∧ (∀ column ∈ columns, Fits column) ∧ bytes=layout columns := by
  unfold decodeRegion
  dsimp only
  constructor
  · intro h
    split_ifs at h with hmagic hshort hbad
    rw [not_or,Nat.not_lt,Nat.not_lt] at hbad
    obtain ⟨hcount,hfits,htable,hpayload⟩ := (readEntries_eq_some (by
      rw [length_take,Nat.min_eq_left hbad.2])).1 h
    refine ⟨hcount ▸ hbad.1,hfits,?_⟩
    have hwidth : (((bytes.drop 8).drop 0).take 2).length=2 := by
      rw [drop_zero,length_take]
      omega
    have hhead : toLe 2 columns.length = (bytes.drop 8).take 2 := by
      have hback := toLe_fromLe (((bytes.drop 8).drop 0).take 2)
      rwa [hwidth,← field,← hcount] at hback
    rw [layout,← htable,← hpayload,take_append_drop,hhead,take_append_drop,← hmagic, take_append_drop]
  · rintro ⟨hle,hfits,rfl⟩
    have hcount : field 0 2 (toLe 2 columns.length ++ ((columns.map entry).flatten ++
        (columns.map fun column=>column.2.summary.bytes).flatten)) = columns.length := by
      rw [field,drop_zero,take_left' (length_toLe _ _), fromLe_toLe (hle.trans_lt (by decide : regionColumns<256^2))]
    have hmagic : magic.length=8 := rfl
    rw [layout,if_pos (take_left' hmagic),drop_left' hmagic,hcount,
      drop_left' (length_toLe _ _),take_left' (length_table columns),
      drop_left' (length_table columns),if_neg,if_neg]
    · exact (readEntries_eq_some (length_table columns)).2 ⟨rfl,hfits,rfl,rfl⟩
    · rw [not_or,Nat.not_lt,Nat.not_lt,length_append,length_table]
      exact ⟨hle,Nat.le_add_right _ _⟩
    · rw [length_append,length_toLe]
      exact Nat.not_lt.2 (Nat.le_add_right _ _)

end Entries

variable {columns others : List RegionColumn} {slot : ℕ} {newest : Versioned} {best : Option Versioned}

/-- The last of the highest version among a slot's summaries. -/
inductive Newest (slot : ℕ) (newest : Versioned) : List RegionColumn → Prop where
  | here {later : List RegionColumn} (h : ∀ column ∈ later, column.1=slot → column.2.version<newest.version) :
      Newest slot newest ((slot,newest) :: later)
  | later {column : RegionColumn} {rest : List RegionColumn} (h : Newest slot newest rest)
      (hle : column.1=slot → column.2.version≤newest.version) : Newest slot newest (column::rest)

lemma Newest.mem (h : Newest slot newest columns) : (slot,newest) ∈ columns ∧
    ∀ column ∈ columns, column.1=slot → column.2.version≤newest.version := by
  induction h with
  | here h =>
    exact ⟨mem_cons_self,forall_mem_cons.2 ⟨fun _=>UInt64.le_refl _,fun column hmem heq =>
      UInt64.le_of_lt (h column hmem heq)⟩⟩
  | later h hle ih => exact ⟨mem_cons_of_mem _ ih.1,forall_mem_cons.2 ⟨hle,ih.2⟩⟩

/-- Summaries of one slot and one version are the same. -/
def Distinct (columns : List RegionColumn) : Prop :=
  ∀ column ∈ columns, ∀ other ∈ columns, column.1=other.1 → column.2.version=other.2.version → column=other

lemma newest_iff (hdistinct : Distinct columns) : Newest slot newest columns ↔
    (slot,newest) ∈ columns ∧ ∀ column ∈ columns, column.1=slot → column.2.version≤newest.version := by
  refine ⟨Newest.mem,?_⟩
  rintro ⟨hmem,hmax⟩
  induction columns with
  | nil => cases hmem
  | cons column rest ih =>
    obtain ⟨hfirst,hrest⟩ := forall_mem_cons.1 hmax
    by_cases hlater : (slot,newest) ∈ rest
    · refine .later (ih (fun c hc d hd=>?_) hlater hrest) hfirst
      exact hdistinct c (mem_cons_of_mem _ hc) d (mem_cons_of_mem _ hd)
    · obtain rfl := (mem_cons.1 hmem).resolve_right hlater
      refine .here fun other hother heq=>?_
      refine UInt64.lt_of_le_of_ne (hrest other hother heq) fun hsame=>hlater ?_
      rwa [← hdistinct other (mem_cons_of_mem _ hother) _ mem_cons_self heq hsame]

/-- What a summary makes of the best of its slot. -/
def better (best : Option Versioned) (column : RegionColumn) (slot : ℕ) : Option Versioned :=
  if column.1=slot then
    match best with
    | some newest => if newest.version ≤ column.2.version then some column.2 else some newest
    | none => some column.2
  else best

lemma lookup_newer (m : TreeMap ℕ Versioned) (column : RegionColumn) :
    (newer m column)[slot]? = better m[slot]? column slot := by
  unfold newer better
  by_cases hslot : column.1=slot
  · subst hslot
    rw [if_pos rfl]
    cases hbest : m[column.1]? with
    | none => exact lookup_insert.trans (if_pos rfl)
    | some newest =>
      dsimp only
      split_ifs
      · exact lookup_insert.trans (if_pos rfl)
      · exact hbest
  · rw [if_neg hslot]
    split
    · split_ifs
      · exact lookup_insert.trans (if_neg hslot)
      · rfl
    · exact lookup_insert.trans (if_neg hslot)

lemma newest_cons {column : RegionColumn} : Newest slot newest (column::columns) ↔
    column = (slot,newest) ∧ (∀ other ∈ columns, other.1=slot → other.2.version<newest.version) ∨
      Newest slot newest columns ∧ (column.1=slot → column.2.version≤newest.version) := by
  constructor
  · rintro (h | ⟨h,hle⟩)
    · exact .inl ⟨rfl,h⟩
    · exact .inr ⟨h,hle⟩
  · rintro (⟨rfl,h⟩ | ⟨h,hle⟩)
    · exact .here h
    · exact .later h hle

lemma lookup_foldl (m : TreeMap ℕ Versioned) : (columns.foldl newer m)[slot]? = some newest ↔
    Newest slot newest columns ∧ (∀ best, m[slot]? = some best → best.version≤newest.version) ∨
      m[slot]? = some newest ∧ ∀ column ∈ columns, column.1=slot → column.2.version<newest.version := by
  induction columns generalizing m with
  | nil => exact ⟨fun h=>.inr ⟨h,fun _ h=>by cases h⟩,fun h=>h.elim (fun h=>by cases h.1) And.left⟩
  | cons column rest ih =>
    rw [foldl_cons,ih,lookup_newer,newest_cons,forall_mem_cons]
    obtain ⟨place,summary⟩ := column
    unfold better
    by_cases hslot : place=slot
    · cases m[slot]? with
      | none => grind [UInt64.le_iff_toNat_le,UInt64.lt_iff_toNat_lt]
      | some old => grind [UInt64.le_iff_toNat_le,UInt64.lt_iff_toNat_lt]
    · grind

lemma lookup_latest : (latest columns)[slot]? = some newest ↔ Newest slot newest columns := by
  refine (lookup_foldl ∅).trans ⟨fun h=>h.elim And.left fun h=>?_,fun h=>.inl ⟨h,fun _ h=>?_⟩⟩
  · cases h.1
  · cases h

lemma mem_latest : (slot,newest) ∈ (latest columns).toList ↔ Newest slot newest columns :=
  TreeMap.mem_toList_iff_getElem?_eq_some.trans lookup_latest

lemma toList_latest (h : ∀ slot newest, Newest slot newest columns ↔ Newest slot newest others) :
    (latest columns).toList = (latest others).toList := by
  refine TreeMap.equiv_iff_toList_eq.1 (.of_toList_perm ?_)
  refine (perm_ext_iff_of_nodup nodup_toList nodup_toList).2 fun ⟨slot,newest⟩=>?_
  rw [mem_latest,mem_latest,h]

lemma newest_append : Newest slot newest (columns++others) ↔
    Newest slot newest others ∧ (∀ best, Newest slot best columns → best.version≤newest.version) ∨
      Newest slot newest columns ∧ ∀ column ∈ others, column.1=slot → column.2.version<newest.version := by
  rw [← lookup_latest,latest,foldl_append,lookup_foldl]
  exact or_congr (and_congr_right' (forall_congr' fun _=>imp_congr_left lookup_latest)) (and_congr_left' lookup_latest)

/-- Of a map's own entries each is the newest. -/
lemma newest_toList (m : TreeMap ℕ Versioned) : Newest slot newest m.toList ↔ (slot,newest) ∈ m.toList := by
  have hone (a b : RegionColumn) (ha : a ∈ m.toList) (hb : b ∈ m.toList) (heq : a.1=b.1) : a=b := by
    obtain ⟨place,summary⟩ := a
    obtain ⟨place',summary'⟩ := b
    cases heq
    rw [TreeMap.mem_toList_iff_getElem?_eq_some] at ha hb
    rw [ha] at hb
    cases hb
    rfl
  refine (newest_iff fun a ha b hb heq _=>hone a b ha hb heq).trans (and_iff_left_of_imp fun hmem=>?_)
  intro column hcolumn heq
  rw [hone column _ hcolumn hmem heq]
  exact UInt64.le_refl _

lemma newest_again : Newest slot newest ((latest columns).toList++others) ↔ Newest slot newest (columns++others) := by
  have hsame (best : Versioned) : Newest slot best (latest columns).toList ↔ Newest slot best columns :=
    (newest_toList _).trans mem_latest
  simp only [newest_append,hsame]

lemma newest_unique {other : Versioned} (h : Newest slot newest columns) (h' : Newest slot other columns) :
    other=newest :=
  Option.some.inj ((lookup_latest.2 h').symm.trans (lookup_latest.2 h))

lemma newest_twice : Newest slot newest (columns++others++others) ↔ Newest slot newest (columns++others) := by
  constructor
  · intro h
    rcases newest_append.1 h with ⟨hothers,hmax⟩ | ⟨h,-⟩
    · by_cases hle : ∀ best, Newest slot best columns → best.version≤newest.version
      · exact newest_append.2 (.inl ⟨hothers,hle⟩)
      · push Not at hle
        obtain ⟨best,hbest,hlt⟩ := hle
        rw [UInt64.not_le] at hlt
        refine absurd (hmax best (newest_append.2 (.inr ⟨hbest,fun column hmem heq=>?_⟩))) (UInt64.not_le.2 hlt)
        exact UInt64.lt_of_le_of_lt (hothers.mem.2 column hmem heq) hlt
    · exact h
  · intro h
    rcases newest_append.1 h with ⟨hothers,-⟩ | ⟨-,hlt⟩
    · refine newest_append.2 (.inl ⟨hothers,fun best hbest=>?_⟩)
      rw [newest_unique h hbest]
      exact UInt64.le_refl _
    · exact newest_append.2 (.inr ⟨h,hlt⟩)

/-- A region lists its slots in order. -/
lemma sorted_latest (columns : List RegionColumn) : ((latest columns).toList.map Prod.fst).Pairwise (· < ·) :=
  pairwise_map.2 (TreeMap.ordered_keys_toList.imp compare_lt_iff_lt.1)

lemma length_latest (h : ∀ column ∈ columns, Fits column) :
    (latest columns).toList.length ≤ regionColumns ∧ ∀ column ∈ (latest columns).toList, Fits column := by
  have hfits : ∀ column ∈ (latest columns).toList, Fits column := fun column hmem =>
    h column (mem_latest.1 hmem).mem.1
  have hnodup := (sorted_latest columns).imp Nat.ne_of_lt
  have hlt := (List.Nodup.subperm hnodup (fun slot hmem=>by
    obtain ⟨column,hcolumn,rfl⟩ := mem_map.1 hmem
    exact mem_range.2 (hfits column hcolumn).1 : _ ⊆ List.range regionColumns)).length_le
  rw [length_map,length_range] at hlt
  exact ⟨hlt,hfits⟩

lemma decode_encode (h : ∀ column ∈ columns, Fits column) :
    decodeRegion (encodeRegion columns) = some (latest columns).toList :=
  decodeRegion_eq_some.2 ⟨(length_latest h).1,(length_latest h).2,rfl⟩

/-- What a file holds; one that cannot be read counts as empty. -/
def kept (file : Bytes) : List RegionColumn := (decodeRegion file).getD []

/-- `Worker::write` -/
def merge (file : Bytes) (columns : List RegionColumn) : Bytes := encodeRegion (kept file++columns)

lemma fits_kept (file : Bytes) : ∀ column ∈ kept file, Fits column := by
  unfold kept
  cases h : decodeRegion file with
  | none => exact fun _ h=>by cases h
  | some columns => exact (decodeRegion_eq_some.1 h).2.1

lemma encodeRegion_congr (h : ∀ slot newest, Newest slot newest columns ↔ Newest slot newest others) :
    encodeRegion columns=encodeRegion others := congrArg layout (toList_latest h)

lemma merge_encode (h : ∀ column ∈ columns, Fits column) :
    merge (encodeRegion columns) others=encodeRegion (columns++others) := by
  rw [merge,kept,decode_encode h]
  exact encodeRegion_congr fun _ _=>newest_again

lemma foldl_merge {batches : List (List RegionColumn)} (h : ∀ batch ∈ batches, ∀ column ∈ batch, Fits column)
    (hfits : ∀ column ∈ columns, Fits column) :
    batches.foldl merge (encodeRegion columns) = encodeRegion (columns++batches.flatten) := by
  induction batches generalizing columns with
  | nil => simp
  | cons batch rest ih =>
    obtain ⟨hbatch,hrest⟩ := forall_mem_cons.1 h
    rw [foldl_cons,merge_encode hfits,ih hrest (forall_mem_append.2 ⟨hfits,hbatch⟩), flatten_cons,append_assoc]

lemma merge_twice (file : Bytes) (h : ∀ column ∈ columns, Fits column) :
    merge (merge file columns) columns=merge file columns := by
  rw [merge.eq_def file,merge_encode (forall_mem_append.2 ⟨fits_kept file,h⟩)]
  exact encodeRegion_congr fun _ _=>newest_twice

/-- The order of the batches does not matter. -/
lemma merge_perm (file : Bytes) {batches batches' : List (List RegionColumn)} (hperm : batches.Perm batches')
    (h : ∀ batch ∈ batches, ∀ column ∈ batch, Fits column)
    (hdistinct : Distinct (kept file++batches.flatten)) :
    batches.foldl merge file=batches'.foldl merge file := by
  have hmem (column : RegionColumn) : column ∈ kept file++batches.flatten ↔ column ∈ kept file++batches'.flatten := by
    rw [mem_append,mem_append,hperm.flatten.mem_iff]
  cases batches with
  | nil => rw [hperm.nil_eq]
  | cons batch rest =>
    cases batches' with
    | nil => exact absurd hperm (not_perm_cons_nil)
    | cons batch' rest' =>
      have h' : ∀ batch ∈ batch'::rest', ∀ column ∈ batch, Fits column := fun b hb=>h b (hperm.mem_iff.2 hb)
      obtain ⟨hbatch,hrest⟩ := forall_mem_cons.1 h
      obtain ⟨hbatch',hrest'⟩ := forall_mem_cons.1 h'
      rw [foldl_cons,foldl_cons,merge,merge, foldl_merge hrest (forall_mem_append.2 ⟨fits_kept file,hbatch⟩),
        foldl_merge hrest' (forall_mem_append.2 ⟨fits_kept file,hbatch'⟩),
        append_assoc,append_assoc,← flatten_cons,← flatten_cons]
      refine encodeRegion_congr fun slot newest=>(newest_iff hdistinct).trans ?_
      simp only [hmem]
      refine (newest_iff fun a ha b hb=>?_).symm
      exact hdistinct a ((hmem a).2 ha) b ((hmem b).2 hb)

/-- Region files keep each slot's newest summary, and summaries survive their byte planes. -/
theorem regions_keep_newest : (∀ columns : List RegionColumn, (∀ column ∈ columns, Fits column) →
      ∃ found, decodeRegion (encodeRegion columns)=some found ∧ (found.map Prod.fst).Pairwise (· < ·) ∧
        ∀ slot newest, (slot,newest) ∈ found ↔ Newest slot newest columns) ∧
    (∀ (file : Bytes) (columns : List RegionColumn), (∀ column ∈ columns, Fits column) →
      merge (merge file columns) columns=merge file columns) ∧
    (∀ (file : Bytes) (batches batches' : List (List RegionColumn)), batches.Perm batches' →
      (∀ batch ∈ batches, ∀ column ∈ batch, Fits column) → Distinct (kept file ++ batches.flatten) →
        batches.foldl merge file=batches'.foldl merge file) ∧
    (∀ (bytes : Bytes) (columns : List RegionColumn), decodeRegion bytes=some columns ↔
      columns.length ≤ regionColumns ∧ (∀ column ∈ columns, Fits column) ∧ bytes=layout columns) ∧
    (∀ summary, fromPlanes (planes summary)=summary) ∧ ∀ block, planes (fromPlanes block)=block := by
  refine ⟨fun columns hfits => ?_,fun file columns => merge_twice file,
    fun file batches batches' => merge_perm file,fun bytes columns => decodeRegion_eq_some,
    fromPlanes_planes,planes_fromPlanes⟩
  exact ⟨_,decode_encode hfits,sorted_latest columns,fun slot newest => mem_latest⟩

theorem regions_keep_newest_tie :
    ∃ found, decodeRegion (encodeRegion [(5,⟨7,⟨1,[9]⟩⟩),(1023,⟨0,⟨2,[]⟩⟩),(5,⟨7,⟨3,[]⟩⟩)])=some found ∧
      (5,⟨7,⟨3,[]⟩⟩) ∈ found := by
  obtain ⟨found,hfound,-,hnewest⟩ := regions_keep_newest.1
    [(5,⟨7,⟨1,[9]⟩⟩),(1023,⟨0,⟨2,[]⟩⟩),(5,⟨7,⟨3,[]⟩⟩)] (by simp [Fits,regionColumns])
  refine ⟨found,hfound,(hnewest 5 _).2 ?_⟩
  exact .later (.later (.here (by simp)) (by simp)) fun _=>UInt64.le_refl _

end Cinnabar.FarTerrain
