import Mathlib

/-! # Buckets by priority

Items kept in buckets, one for each priority, come out in the order of their priorities.
-/

namespace Cinnabar.Bucketing

open List

variable {I P : Type}

abbrev Buckets (P I : Type) : Type := List (P × List I)

def push [LinearOrder P] (priority : P) (id : I) : Buckets P I → Buckets P I
  | [] => [(priority,[id])]
  | bucket::buckets =>
    if priority=bucket.1 then (bucket.1,bucket.2 ++ [id]) :: buckets
    else if priority<bucket.1 then (priority,[id]) :: bucket::buckets
    else bucket::push priority id buckets

def remove [DecidableEq I] [LinearOrder P] (priority : P) (id : I) : Buckets P I → Buckets P I
  | [] => []
  | bucket::buckets =>
    if priority=bucket.1 then
      let ids := bucket.2.filter (· ≠ id)
      if ids.isEmpty then buckets else (bucket.1,ids) :: buckets
    else bucket::remove priority id buckets

/-- Each item with its priority. -/
def contents (buckets : Buckets P I) : List (P × I) :=
  (buckets.map fun bucket=>bucket.2.map fun id=>(bucket.1,id)).flatten

/-- The items by priority. -/
def ordered (buckets : Buckets P I) : List I := (buckets.map Prod.snd).flatten

def Sorted [LinearOrder P] (buckets : Buckets P I) : Prop := buckets.Pairwise fun a b=>a.1<b.1

variable {buckets : Buckets P I} {priority : P} {id : I}

section Contents

lemma contents_cons (bucket : P × List I) (buckets : Buckets P I) :
    contents (bucket::buckets) = bucket.2.map (fun id=>(bucket.1,id)) ++ contents buckets := rfl

lemma ordered_eq (buckets : Buckets P I) : ordered buckets = (contents buckets).map Prod.snd := by
  induction buckets with
  | nil => rfl
  | cons bucket buckets ih =>
    rw [contents_cons,map_append,← ih,map_map]
    simp [ordered,Function.comp_def]

lemma mem_contents {entry : P × I} : entry ∈ contents buckets ↔ ∃ ids, (entry.1,ids) ∈ buckets ∧ entry.2 ∈ ids := by
  simp only [contents,mem_flatten,mem_map]
  constructor
  · rintro ⟨_,⟨bucket,hbucket,rfl⟩,hentry⟩
    obtain ⟨id,hid,rfl⟩ := mem_map.1 hentry
    exact ⟨bucket.2,hbucket,hid⟩
  · rintro ⟨ids,hbucket,hid⟩
    exact ⟨_,⟨(entry.1,ids),hbucket,rfl⟩,mem_map.2 ⟨entry.2,hid,rfl⟩⟩

variable [LinearOrder P]

lemma contents_push : (contents (push priority id buckets)).Perm ((priority,id) :: contents buckets) := by
  induction buckets with
  | nil => exact List.Perm.refl _
  | cons bucket buckets ih =>
    rw [push]
    split
    · rename_i heq
      rw [contents_cons,contents_cons,map_append,heq,append_assoc]
      exact perm_middle
    split
    · exact List.Perm.refl _
    · exact (ih.append_left _).trans perm_middle

lemma mem_push {bucket : P × List I} (h : bucket ∈ push priority id buckets) :
    bucket.1=priority ∨ ∃ other ∈ buckets, other.1=bucket.1 := by
  induction buckets with
  | nil => exact .inl (by rw [mem_singleton.1 h])
  | cons first buckets ih =>
    rw [push] at h
    split at h
    · rcases mem_cons.1 h with rfl | hmem
      · exact .inr ⟨first,.head _,rfl⟩
      · exact .inr ⟨bucket,.tail _ hmem,rfl⟩
    split at h
    · rcases mem_cons.1 h with rfl | hmem
      · exact .inl rfl
      · exact .inr ⟨bucket,hmem,rfl⟩
    · rcases mem_cons.1 h with rfl | hmem
      · exact .inr ⟨bucket,.head _,rfl⟩
      · exact (ih hmem).imp_right fun ⟨other,hother,heq⟩ =>
          ⟨other,.tail _ hother,heq⟩

lemma Sorted.push (h : Sorted buckets) : Sorted (push priority id buckets) := by
  induction buckets with
  | nil => exact pairwise_singleton _ _
  | cons bucket buckets ih =>
    obtain ⟨hfirst,hrest⟩ := pairwise_cons.1 h
    rw [Bucketing.push]
    split
    · exact pairwise_cons.2 ⟨hfirst,hrest⟩
    split
    · rename_i hlt
      refine pairwise_cons.2 ⟨fun other hmem=>?_,h⟩
      rcases mem_cons.1 hmem with rfl | hmem
      · exact hlt
      · exact hlt.trans (hfirst other hmem)
    · rename_i hne hlt
      refine pairwise_cons.2 ⟨fun other hmem=>?_,ih hrest⟩
      rcases mem_push hmem with heq | ⟨last,hlast,heq⟩
      · rw [heq]
        exact lt_of_le_of_ne (not_lt.1 hlt) (Ne.symm hne)
      · rw [← heq]
        exact hfirst last hlast

variable [DecidableEq I]

lemma mem_remove {bucket : P × List I} (h : bucket ∈ remove priority id buckets) :
    ∃ other ∈ buckets, other.1=bucket.1 := by
  induction buckets with
  | nil => cases h
  | cons first buckets ih =>
    rw [remove] at h
    split at h
    · dsimp only at h
      split at h
      · exact ⟨bucket,.tail _ h,rfl⟩
      · rcases mem_cons.1 h with rfl | hmem
        · exact ⟨first,.head _,rfl⟩
        · exact ⟨bucket,.tail _ hmem,rfl⟩
    · rcases mem_cons.1 h with rfl | hmem
      · exact ⟨bucket,.head _,rfl⟩
      · obtain ⟨other,hother,heq⟩ := ih hmem
        exact ⟨other,.tail _ hother,heq⟩

lemma Sorted.remove (h : Sorted buckets) : Sorted (remove priority id buckets) := by
  induction buckets with
  | nil => exact List.Pairwise.nil
  | cons bucket buckets ih =>
    obtain ⟨hfirst,hrest⟩ := pairwise_cons.1 h
    rw [Bucketing.remove]
    split
    · dsimp only
      split
      · exact hrest
      · exact pairwise_cons.2 ⟨hfirst,hrest⟩
    · refine pairwise_cons.2 ⟨fun other hmem=>?_,ih hrest⟩
      obtain ⟨last,hlast,heq⟩ := mem_remove hmem
      rw [← heq]
      exact hfirst last hlast

lemma contents_remove (h : Sorted buckets) : contents (remove priority id buckets) =
    (contents buckets).filter (· ≠ (priority,id)) := by
  induction buckets with
  | nil => rfl
  | cons bucket buckets ih =>
    obtain ⟨hfirst,hrest⟩ := pairwise_cons.1 h
    rw [remove,contents_cons,filter_append]
    split
    · rename_i heq
      have hothers : (contents buckets).filter (· ≠ (priority,id)) = contents buckets := by
        refine filter_eq_self.2 fun entry hmem=>?_
        obtain ⟨ids,hbucket,-⟩ := mem_contents.1 hmem
        have hlt := hfirst _ hbucket
        refine decide_eq_true fun hentry=>?_
        rw [hentry,heq] at hlt
        exact lt_irrefl _ hlt
      have hids : (bucket.2.map fun id=>(bucket.1,id)).filter (· ≠ (priority,id)) =
          (bucket.2.filter (· ≠ id)).map fun id=>(bucket.1,id) := by
        rw [filter_map]
        congr 1
        refine filter_congr fun other _=>?_
        simp [heq]
      rw [hothers,hids]
      dsimp only
      split
      · rename_i hempty
        rw [List.isEmpty_iff.1 hempty]
        rfl
      · rfl
    · rename_i hne
      rw [contents_cons,ih hrest]
      congr 1
      refine (filter_eq_self.2 fun entry hmem=>?_).symm
      obtain ⟨id,-,rfl⟩ := mem_map.1 hmem
      exact decide_eq_true fun heq=>hne (congrArg Prod.fst heq).symm

end Contents

section Ranks

variable {rank : I → ℕ}

def sortBuckets (rank : I → ℕ) (buckets : Buckets P I) : Buckets P I :=
  buckets.map fun bucket =>
    if 1<bucket.2.length then (bucket.1,bucket.2.mergeSort fun a b=>rank a ≤ rank b)
    else bucket

lemma contents_sortBuckets : (contents (sortBuckets rank buckets)).Perm (contents buckets) := by
  induction buckets with
  | nil => exact List.Perm.refl _
  | cons bucket buckets ih =>
    rw [sortBuckets,map_cons,contents_cons,contents_cons]
    refine List.Perm.append ?_ ih
    split
    · exact (mergeSort_perm _ _).map _
    · exact List.Perm.refl _

lemma pairwise_bucket (bucket : P × List I) :
    (if 1<bucket.2.length then (bucket.1,bucket.2.mergeSort fun a b=>rank a ≤ rank b)
    else bucket).2.Pairwise fun a b=>rank a ≤ rank b := by
  split
  · have hsorted : (bucket.2.mergeSort fun a b=>rank a ≤ rank b).Pairwise fun a b=>decide (rank a ≤ rank b) = true :=
      pairwise_mergeSort (fun a b c h h'=>decide_eq_true
        ((of_decide_eq_true h).trans (of_decide_eq_true h'))) (fun a b=>by
          rw [Bool.or_eq_true,decide_eq_true_eq,decide_eq_true_eq]
          exact le_total _ _) bucket.2
    exact hsorted.imp of_decide_eq_true
  · rename_i hshort
    match hbucket : bucket.2 with
    | [] => exact List.Pairwise.nil
    | [id] => exact pairwise_singleton _ _
    | _::_::_ =>
      rw [hbucket] at hshort
      exact absurd (Nat.succ_lt_succ (Nat.succ_pos _)) hshort

lemma fst_sortBucket (bucket : P × List I) :
    (if 1<bucket.2.length then (bucket.1,bucket.2.mergeSort fun a b=>rank a ≤ rank b)
    else bucket).1=bucket.1 := by
  split <;> rfl

variable [LinearOrder P]

/-- The order of the items by priority and, within a priority, by rank. -/
def Precedes (rank : I → ℕ) (a b : P × I) : Prop := a.1<b.1 ∨ a.1=b.1 ∧ rank a.2 ≤ rank b.2

lemma Sorted.sortBuckets (h : Sorted buckets) : Sorted (sortBuckets rank buckets) := by
  refine pairwise_map.2 (h.imp fun hlt=>?_)
  rw [fst_sortBucket,fst_sortBucket]
  exact hlt

lemma pairwise_contents (h : Sorted buckets) : (contents (sortBuckets rank buckets)).Pairwise (Precedes rank) := by
  induction buckets with
  | nil => exact List.Pairwise.nil
  | cons bucket buckets ih =>
    obtain ⟨hfirst,hrest⟩ := pairwise_cons.1 h
    rw [Bucketing.sortBuckets,map_cons,contents_cons,pairwise_append]
    refine ⟨pairwise_map.2 ((pairwise_bucket bucket).imp fun hle=>.inr ⟨rfl,hle⟩), ih hrest,fun a ha b hb=>.inl ?_⟩
    obtain ⟨id,-,rfl⟩ := mem_map.1 ha
    obtain ⟨ids,hbucket,-⟩ := mem_contents.1 hb
    obtain ⟨other,hother,heq⟩ := mem_map.1 hbucket
    have hlt := hfirst other hother
    rw [← @fst_sortBucket _ _ rank other,heq] at hlt
    rwa [fst_sortBucket]

/-- Buckets of ranked items come out in the stable order of the items by priority. -/
lemma ordered_sortBuckets {updates : List (I × P)} (hsorted : Sorted buckets)
    (hcontents : (contents buckets).Perm (updates.map Prod.swap))
    (hrank : ∀ i update, updates[i]? = some update → rank update.1=i) :
    ordered (sortBuckets rank buckets) =
      (updates.mergeSort fun a b=>a.2≤b.2).map Prod.fst := by
  have hzip : (updates.map Prod.swap).map (fun entry=>(entry.swap,rank entry.2)) =
      updates.zipIdx := by
    rw [map_map]
    refine List.ext_getElem? fun i=>?_
    rw [List.getElem?_map,List.getElem?_zipIdx]
    cases hupdate : updates[i]? with
    | none => rfl
    | some update =>
      have heq := hrank i update hupdate
      simp [heq]
  have hperm := ((@contents_sortBuckets _ _ buckets rank).trans hcontents).map fun entry=>(entry.swap,rank entry.2)
  rw [hzip] at hperm
  have hle : ∀ a b : P × I, Precedes rank a b →
      List.zipIdxLE (fun a b : I × P=>decide (a.2≤b.2)) (a.swap,rank a.2) (b.swap,rank b.2) =
        true := by
    rintro a b (hlt | ⟨heq,hrank⟩)
    · simp [List.zipIdxLE,hlt.le,not_le.2 hlt]
    · simp [List.zipIdxLE,heq,hrank]
  have hpairwise : ((contents (sortBuckets rank buckets)).map fun entry=>(entry.swap,rank entry.2)).Pairwise
        fun a b=>List.zipIdxLE (fun a b : I × P=>decide (a.2≤b.2)) a b=true :=
    pairwise_map.2 ((pairwise_contents hsorted).imp fun h=>hle _ _ h)
  have htotal : ∀ a b : I × P, (decide (a.2≤b.2) || decide (b.2≤a.2)) = true := by
    intro a b
    rw [Bool.or_eq_true,decide_eq_true_eq,decide_eq_true_eq]
    exact le_total _ _
  have htrans : ∀ a b c : I × P, decide (a.2≤b.2) = true → decide (b.2 ≤ c.2) = true →
      decide (a.2 ≤ c.2) = true := fun a b c h h' =>
    decide_eq_true ((of_decide_eq_true h).trans (of_decide_eq_true h'))
  have hstable := pairwise_mergeSort (zipIdxLE_trans htrans) (zipIdxLE_total htotal) updates.zipIdx
  have hequal := (hperm.trans (mergeSort_perm _ _).symm).eq_of_pairwise (fun a b ha hb h h'=>by
    have hindex : a.2=b.2 := by
      unfold List.zipIdxLE at h h'
      split at h
      case isFalse => cases h
      split at h'
      case isFalse => cases h'
      rename_i hba
      rw [if_pos hba] at h
      exact le_antisymm (of_decide_eq_true h) (of_decide_eq_true h')
    have hmem := List.mem_zipIdx_iff_getElem?.1 (hperm.subset ha)
    have hmem' := List.mem_zipIdx_iff_getElem?.1 ((mergeSort_perm _ _).subset hb)
    rw [hindex] at hmem
    exact Prod.ext (Option.some.inj (hmem.symm.trans hmem')) hindex) hpairwise hstable
  rw [ordered_eq,← mergeSort_zipIdx,← hequal]
  simp [Function.comp_def]

end Ranks

end Cinnabar.Bucketing
