import Cinnabar.Library.Bucketing

/-! # Retained upload priorities -/

namespace Cinnabar.Uploads

open Bucketing List

structure RetainedPriority (P : Type) where
  priority : P
  sweep : Bool
  ordinal : ℕ

/-- Exact buckets, of which only changed or removed priorities are updated. -/
structure RetainedUploadPriorities (I P : Type) where
  entries : List (I × RetainedPriority P)
  buckets : Buckets P I
  sweep : Bool
  ordinal : ℕ

namespace RetainedUploadPriorities

variable {I P : Type}

def default : RetainedUploadPriorities I P := ⟨[],[],false,0⟩

/-- Starts reconciliation against the caller's complete active set. -/
def begin (retained : RetainedUploadPriorities I P) : RetainedUploadPriorities I P :=
  { retained with sweep := !retained.sweep, ordinal := 0 }

def ordered (retained : RetainedUploadPriorities I P) : List I := Bucketing.ordered retained.buckets

variable [DecidableEq I]

def find (entries : List (I × RetainedPriority P)) (id : I) : Option (RetainedPriority P) :=
  (entries.find? fun entry=>entry.1=id).map Prod.snd

def priority (retained : RetainedUploadPriorities I P) (id : I) : Option P :=
  (find retained.entries id).map RetainedPriority.priority

def ordinalOf (entries : List (I × RetainedPriority P)) (id : I) : ℕ :=
  ((find entries id).map RetainedPriority.ordinal).getD 0

def setEntry (id : I) (value : RetainedPriority P) (entries : List (I × RetainedPriority P)) :
    List (I × RetainedPriority P) :=
  entries.map fun entry=>if entry.1=id then (id,value) else entry

variable [LinearOrder P]

/-- Marks an active identity, moving it between buckets only when its priority changes. -/
def update (retained : RetainedUploadPriorities I P) (id : I) (priority : P) :
    RetainedUploadPriorities I P :=
  let value : RetainedPriority P := ⟨priority,retained.sweep,retained.ordinal⟩
  match find retained.entries id with
  | some entry =>
    { retained with
      entries := setEntry id value retained.entries
      buckets :=
        if entry.priority≠priority then
          push priority id (remove entry.priority id retained.buckets)
        else retained.buckets
      ordinal := retained.ordinal+1 }
  | none =>
    { retained with
      entries := retained.entries ++ [(id,value)]
      buckets := push priority id retained.buckets
      ordinal := retained.ordinal+1 }

/-- Drops absent identities and keeps input order for equal priorities. -/
def finish (retained : RetainedUploadPriorities I P) : RetainedUploadPriorities I P :=
  let kept := retained.entries.filter fun entry=>entry.2.sweep=retained.sweep
  let absent := retained.entries.filter fun entry=>entry.2.sweep≠retained.sweep
  let buckets := absent.foldl (fun buckets entry=>remove entry.2.priority entry.1 buckets) retained.buckets
  { retained with entries := kept, buckets := sortBuckets (ordinalOf kept) buckets }

/-- Marks the identities of a frame in order. -/
def mark (retained : RetainedUploadPriorities I P) (updates : List (I × P)) :
    RetainedUploadPriorities I P :=
  updates.foldl (fun retained update=>retained.update update.1 update.2) retained

def frame (retained : RetainedUploadPriorities I P) (updates : List (I × P)) :
    RetainedUploadPriorities I P := (retained.begin.mark updates).finish

section Entries

variable {entries : List (I × RetainedPriority P)} {id : I} {entry : I × RetainedPriority P}

omit [LinearOrder P] in
lemma find_eq_some (h : (entries.map Prod.fst).Nodup) {value : RetainedPriority P} :
    find entries id=some value ↔ (id,value) ∈ entries := by
  unfold find
  rw [Option.map_eq_some_iff]
  constructor
  · rintro ⟨entry,hfind,rfl⟩
    have hid : entry.1=id := by simpa using List.find?_some hfind
    subst hid
    exact List.mem_of_find?_eq_some hfind
  · intro hmem
    cases hfind : entries.find? fun entry=>entry.1=id with
    | none => exact absurd (decide_eq_true rfl) (List.find?_eq_none.1 hfind _ hmem)
    | some entry =>
      have hid : entry.1=id := by simpa using List.find?_some hfind
      have heq := inj_on_of_nodup_map h (List.mem_of_find?_eq_some hfind) hmem hid
      exact ⟨entry,rfl,congrArg Prod.snd heq⟩

omit [LinearOrder P] in
lemma find_eq_none : find entries id=none ↔ id ∉ entries.map Prod.fst := by
  unfold find
  rw [Option.map_eq_none_iff,List.find?_eq_none]
  simp only [decide_eq_true_eq,mem_map,not_exists,not_and]

omit [LinearOrder P] [DecidableEq I] in
/-- An entry and the others, none of which has its identity. -/
lemma split_entries (h : (entries.map Prod.fst).Nodup) (hmem : entry ∈ entries) :
    ∃ before after, entries=before++entry::after ∧
      ∀ other ∈ before++after, other.1≠entry.1 := by
  obtain ⟨before,after,rfl⟩ := append_of_mem hmem
  refine ⟨before,after,rfl,fun other hother heq=>?_⟩
  rw [map_append,map_cons,nodup_middle,nodup_cons,← map_append] at h
  exact h.1 (heq ▸ mem_map_of_mem hother)

omit [LinearOrder P] in
lemma setEntry_split {before after : List (I × RetainedPriority P)} {value : RetainedPriority P}
    (h : ∀ other ∈ before++after, other.1≠entry.1) :
    setEntry entry.1 value (before++entry::after) = before ++ (entry.1,value) :: after := by
  have hsame : ∀ others : List (I × RetainedPriority P), (∀ other ∈ others, other.1≠entry.1) →
      setEntry entry.1 value others=others := fun others hothers =>
    map_congr_left (fun other hmem=>if_neg (hothers other hmem)) |>.trans (map_id _)
  have hbefore := hsame before fun other hmem=>h other (mem_append_left _ hmem)
  have hafter := hsame after fun other hmem=>h other (mem_append_right _ hmem)
  unfold setEntry at hbefore hafter ⊢
  rw [map_append,map_cons,hbefore,hafter,if_pos rfl]

end Entries

section Bucketed

def bucketed (entries : List (I × RetainedPriority P)) : List (P × I) :=
  entries.map fun entry=>(entry.2.priority,entry.1)

variable {buckets : Buckets P I} {rest absent kept : List (I × RetainedPriority P)}
  {entry : I × RetainedPriority P}

lemma contents_remove_entry (hsorted : Sorted buckets) (hheld : (contents buckets).Perm (bucketed (entry::rest)))
    (hothers : ∀ other ∈ rest, other.1≠entry.1) :
    (contents (remove entry.2.priority entry.1 buckets)).Perm (bucketed rest) := by
  rw [contents_remove hsorted]
  have hfilter := hheld.filter (· ≠ (entry.2.priority,entry.1))
  have hrest : (bucketed rest).filter (· ≠ (entry.2.priority,entry.1)) = bucketed rest := by
    refine filter_eq_self.2 fun pair hmem=>?_
    obtain ⟨other,hother,rfl⟩ := mem_map.1 hmem
    exact decide_eq_true fun heq=>hothers other hother (congrArg Prod.snd heq)
  rw [bucketed,map_cons,filter_cons_of_neg (by simp)] at hfilter
  rwa [← bucketed,hrest] at hfilter

lemma removed_entries (hsorted : Sorted buckets) (hheld : (contents buckets).Perm (bucketed (absent++kept)))
    (hnodup : ((absent++kept).map Prod.fst).Nodup) :
    Sorted (absent.foldl (fun buckets entry=>remove entry.2.priority entry.1 buckets) buckets) ∧
      (contents (absent.foldl (fun buckets entry=>remove entry.2.priority entry.1 buckets)
        buckets)).Perm (bucketed kept) := by
  induction absent generalizing buckets with
  | nil => exact ⟨hsorted,hheld⟩
  | cons entry absent ih =>
    rw [cons_append,map_cons,nodup_cons] at hnodup
    refine ih hsorted.remove (contents_remove_entry hsorted hheld fun other hmem heq=>?_) hnodup.2
    exact hnodup.1 (heq ▸ mem_map_of_mem hmem)

end Bucketed

section Frames

/-- Priorities between two frames: every entry is in its bucket and was marked last time. -/
structure Settled (retained : RetainedUploadPriorities I P) : Prop where
  nodup : (retained.entries.map Prod.fst).Nodup
  sorted : Sorted retained.buckets
  held : (contents retained.buckets).Perm (bucketed retained.entries)
  swept : ∀ entry ∈ retained.entries, entry.2.sweep=retained.sweep

structure Marked (updates : List (I × P)) (retained : RetainedUploadPriorities I P) : Prop where
  nodup : (retained.entries.map Prod.fst).Nodup
  sorted : Sorted retained.buckets
  held : (contents retained.buckets).Perm (bucketed retained.entries)
  counted : retained.ordinal=updates.length
  swept : ∀ entry ∈ retained.entries, entry.2.sweep=retained.sweep ↔ entry.1 ∈ updates.map Prod.fst
  marked : ∀ i update, updates[i]? = some update → (update.1,⟨update.2,retained.sweep,i⟩) ∈ retained.entries

variable {retained : RetainedUploadPriorities I P} {updates : List (I × P)} {id : I} {priority : P}

lemma find_mem {entries : List (I × RetainedPriority P)} {value : RetainedPriority P}
    (h : find entries id=some value) : (id,value) ∈ entries := by
  obtain ⟨entry,hfind,rfl⟩ := Option.map_eq_some_iff.1 h
  have hid : entry.1=id := by simpa using List.find?_some hfind
  exact hid ▸ List.mem_of_find?_eq_some hfind

omit [DecidableEq I] in
lemma settled_default : Settled (default : RetainedUploadPriorities I P) where
  nodup := nodup_nil
  sorted := List.Pairwise.nil
  held := List.Perm.refl _
  swept := by simp [default]

omit [DecidableEq I] in
lemma Settled.begin (h : Settled retained) : Marked [] retained.begin where
  __ := h
  counted := rfl
  swept := by
    intro entry hmem
    have hswept := h.swept entry hmem
    simp [RetainedUploadPriorities.begin,hswept]
  marked := by simp

lemma Marked.extend {entries : List (I × RetainedPriority P)} {buckets : Buckets P I}
    (h : Marked updates retained) (hfresh : id ∉ updates.map Prod.fst)
    (hnodup : (entries.map Prod.fst).Nodup) (hsorted : Sorted buckets)
    (hheld : (contents buckets).Perm (bucketed entries))
    (hmem : (id,⟨priority,retained.sweep,retained.ordinal⟩) ∈ entries)
    (hothers : ∀ entry : I × RetainedPriority P, entry.1≠id → (entry ∈ entries ↔ entry ∈ retained.entries)) :
    Marked (updates ++ [(id,priority)]) ⟨entries,buckets,retained.sweep,retained.ordinal+1⟩ where
  nodup := hnodup
  sorted := hsorted
  held := hheld
  counted := by simp [h.counted]
  swept := by
    intro entry hentry
    by_cases heq : entry.1=id
    · have hsame := inj_on_of_nodup_map hnodup hentry hmem heq
      simp [hsame]
    · rw [h.swept entry ((hothers entry heq).1 hentry)]
      simp [heq]
  marked := by
    intro i update hupdate
    rw [List.getElem?_append] at hupdate
    split at hupdate
    · have hne : update.1≠id := fun heq =>
        hfresh (heq ▸ mem_map_of_mem (List.mem_of_getElem? hupdate))
      exact (hothers _ hne).2 (h.marked i update hupdate)
    · have hi : i=updates.length := by
        have hlt := (List.getElem?_eq_some_iff.1 hupdate).1
        simp at hlt
        omega
      subst hi
      simp only [Nat.sub_self,List.getElem?_cons_zero,Option.some.injEq] at hupdate
      subst hupdate
      rw [← h.counted]
      exact hmem

lemma mem_update {entry : I × RetainedPriority P} (h : entry ∈ (retained.update id priority).entries) :
    entry.2.priority=priority ∨ entry ∈ retained.entries := by
  unfold RetainedUploadPriorities.update at h
  split at h
  · obtain ⟨other,hother,heq⟩ := mem_map.1 h
    split at heq
    · exact .inl (by rw [← heq])
    · exact .inr (heq ▸ hother)
  · rcases mem_append.1 h with hmem | hmem
    · exact .inr hmem
    · exact .inl (by rw [mem_singleton.1 hmem])

lemma Marked.update (h : Marked updates retained) (hfresh : id ∉ updates.map Prod.fst) :
    Marked (updates ++ [(id,priority)]) (retained.update id priority) := by
  unfold RetainedUploadPriorities.update
  split
  · rename_i value hfind
    obtain ⟨before,after,hentries,hothers⟩ := split_entries h.nodup ((find_eq_some h.nodup).1 hfind)
    have hset : setEntry id ⟨priority,retained.sweep,retained.ordinal⟩ retained.entries =
        before ++ (id,⟨priority,retained.sweep,retained.ordinal⟩) :: after := by
      rw [hentries]
      exact setEntry_split hothers
    have hheld : (contents retained.buckets).Perm (bucketed ((id,value) :: (before++after))) := by
      have hperm := h.held
      rw [hentries] at hperm
      exact hperm.trans (perm_middle.map _)
    have hbucketed : (bucketed (before ++
        (id,(⟨priority,retained.sweep,retained.ordinal⟩ : RetainedPriority P)) :: after)).Perm
          ((priority,id) :: bucketed (before++after)) := perm_middle.map _
    refine h.extend hfresh ?_ ?_ ?_ ?_ ?_
    · have hnodup := h.nodup
      rw [hentries] at hnodup
      rw [hset]
      simpa using hnodup
    · split
      · exact h.sorted.remove.push
      · exact h.sorted
    · rw [hset]
      refine List.Perm.trans ?_ hbucketed.symm
      split
      · exact contents_push.trans ((contents_remove_entry h.sorted hheld hothers).cons _)
      · rename_i hsame
        rw [← not_not.1 hsame]
        exact hheld
    · rw [hset]
      exact mem_append_right _ (.head _)
    · intro entry hne
      rw [hset,hentries]
      have hleft : entry ≠ (id,⟨priority,retained.sweep,retained.ordinal⟩) := fun heq =>
        hne (congrArg Prod.fst heq)
      have hright : entry ≠ (id,value) := fun heq=>hne (congrArg Prod.fst heq)
      simp [hleft,hright]
  · rename_i hfind
    have habsent := find_eq_none.1 hfind
    refine h.extend hfresh ?_ h.sorted.push ?_ ?_ ?_
    · rw [map_append,map_singleton]
      exact List.Nodup.append h.nodup (nodup_singleton _) (by simpa using habsent)
    · have hperm : (bucketed (retained.entries ++
          [(id,(⟨priority,retained.sweep,retained.ordinal⟩ : RetainedPriority P))])).Perm
            ((priority,id) :: bucketed retained.entries) :=
        (perm_append_comm).map _
      exact (contents_push.trans (h.held.cons _)).trans hperm.symm
    · exact mem_append_right _ (.head _)
    · intro entry hne
      have hnew : entry ≠ (id,⟨priority,retained.sweep,retained.ordinal⟩) := fun heq =>
        hne (congrArg Prod.fst heq)
      simp [hnew]

lemma Marked.mark (h : Marked updates retained) {more : List (I × P)} (hnodup : ((updates++more).map Prod.fst).Nodup) :
    Marked (updates++more) (retained.mark more) := by
  induction more generalizing updates retained with
  | nil => rwa [append_nil]
  | cons update more ih =>
    have hsplit : updates++update::more = (updates ++ [update]) ++ more := by simp
    rw [hsplit] at hnodup ⊢
    refine ih (h.update ?_) hnodup
    rw [map_append,map_append,append_assoc,nodup_append] at hnodup
    exact fun hmem=>hnodup.2.2 _ hmem _ (by simp) rfl

/-- The entries a frame keeps, those of its identities. -/
def marked (retained : RetainedUploadPriorities I P) : List (I × RetainedPriority P) :=
  retained.entries.filter fun entry=>entry.2.sweep=retained.sweep

omit [DecidableEq I] in
lemma Marked.mem_marked (h : Marked updates retained) {entry : I × RetainedPriority P} :
    entry ∈ retained.marked ↔ ∃ i update, updates[i]? = some update ∧
      entry = (update.1,⟨update.2,retained.sweep,i⟩) := by
  rw [RetainedUploadPriorities.marked,mem_filter,decide_eq_true_eq]
  constructor
  · rintro ⟨hmem,hswept⟩
    obtain ⟨update,hupdate,hid⟩ := mem_map.1 ((h.swept entry hmem).1 hswept)
    obtain ⟨i,hi⟩ := List.mem_iff_getElem?.1 hupdate
    exact ⟨i,update,hi,inj_on_of_nodup_map h.nodup hmem (h.marked i update hi) hid.symm⟩
  · rintro ⟨i,update,hi,rfl⟩
    exact ⟨h.marked i update hi,rfl⟩

section

variable (h : Marked updates retained)
include h

omit [DecidableEq I] in
lemma Marked.nodup_marked : (retained.marked.map Prod.fst).Nodup :=
  h.nodup.sublist (filter_sublist.map Prod.fst)

/-- What a frame keeps is what it named. -/
lemma Marked.bucketed_marked (hnodup : (updates.map Prod.fst).Nodup) :
    (bucketed retained.marked).Perm (updates.map Prod.swap) := by
  have hkept : (bucketed retained.marked).Nodup := by
    refine List.Nodup.of_map Prod.snd ?_
    rw [bucketed,map_map]
    exact h.nodup_marked
  have hnamed : (updates.map Prod.swap).Nodup := by
    refine List.Nodup.of_map Prod.snd ?_
    rw [map_map]
    exact hnodup
  refine (perm_ext_iff_of_nodup hkept hnamed).2 fun pair=>?_
  rw [bucketed,mem_map,mem_map]
  constructor
  · rintro ⟨entry,hentry,rfl⟩
    obtain ⟨i,update,hi,rfl⟩ := h.mem_marked.1 hentry
    exact ⟨update,List.mem_of_getElem? hi,rfl⟩
  · rintro ⟨update,hupdate,rfl⟩
    obtain ⟨i,hi⟩ := List.mem_iff_getElem?.1 hupdate
    exact ⟨_,h.mem_marked.2 ⟨i,update,hi,rfl⟩,rfl⟩

lemma Marked.ordinalOf {i : ℕ} {update : I × P} (hi : updates[i]? = some update) :
    RetainedUploadPriorities.ordinalOf retained.marked update.1=i := by
  have hfind := (find_eq_some h.nodup_marked).2 (h.mem_marked.2 ⟨i,update,hi,rfl⟩)
  rw [RetainedUploadPriorities.ordinalOf,hfind]
  rfl

end

/-- The buckets a frame leaves after the identities it did not name. -/
def kept (retained : RetainedUploadPriorities I P) : Buckets P I :=
  (retained.entries.filter fun entry=>entry.2.sweep≠retained.sweep).foldl
    (fun buckets entry=>remove entry.2.priority entry.1 buckets) retained.buckets

section

variable (h : Marked updates retained)
include h

lemma Marked.kept : Sorted retained.kept ∧ (contents retained.kept).Perm (bucketed retained.marked) := by
  have hsplit : (retained.entries.filter (fun entry=>entry.2.sweep≠retained.sweep) ++
      retained.marked).Perm retained.entries := by
    have hperm := filter_append_perm (fun entry : I × RetainedPriority P =>
      decide (entry.2.sweep≠retained.sweep)) retained.entries
    have hmarked : retained.entries.filter (fun entry=>!decide (entry.2.sweep≠retained.sweep)) =
        retained.marked := filter_congr fun entry _=>by simp
    rwa [hmarked] at hperm
  refine removed_entries h.sorted (h.held.trans (hsplit.map _).symm) ?_
  exact (hsplit.map Prod.fst).nodup_iff.2 h.nodup

lemma Marked.finish : Settled retained.finish := by
  refine ⟨h.nodup_marked,h.kept.1.sortBuckets,contents_sortBuckets.trans h.kept.2,?_⟩
  intro entry hmem
  exact of_decide_eq_true (mem_filter.1 hmem).2

lemma Marked.ordered_finish (hnodup : (updates.map Prod.fst).Nodup) : retained.finish.ordered =
      (updates.mergeSort fun a b=>a.2≤b.2).map Prod.fst :=
  ordered_sortBuckets h.kept.1 (h.kept.2.trans (h.bucketed_marked hnodup)) fun _ _ hi=>h.ordinalOf hi

end

section

variable (h : Settled retained)
include h

lemma Settled.marked (hnodup : (updates.map Prod.fst).Nodup) : Marked updates (retained.begin.mark updates) := by
  have hmark : Marked ([] ++ updates) (retained.begin.mark updates) := h.begin.mark hnodup
  exact hmark

lemma Settled.frame (hnodup : (updates.map Prod.fst).Nodup) :
    Settled (retained.frame updates) := (h.marked hnodup).finish

/-- A frame leaves the identities it named, in the stable order of their priorities. -/
lemma Settled.ordered_frame (hnodup : (updates.map Prod.fst).Nodup) :
    (retained.frame updates).ordered = (updates.mergeSort fun a b=>a.2≤b.2).map Prod.fst :=
  (h.marked hnodup).ordered_finish hnodup

lemma Settled.mem_frame (hnodup : (updates.map Prod.fst).Nodup)
    {entry : I × RetainedPriority P} (hmem : entry ∈ (retained.frame updates).entries) :
    (entry.1,entry.2.priority) ∈ updates := by
  obtain ⟨i,update,hi,rfl⟩ := (h.marked hnodup).mem_marked.1 hmem
  exact List.mem_of_getElem? hi

end

lemma settled_frames (frames : List (List (I × P))) (hnodup : ∀ updates ∈ frames, (updates.map Prod.fst).Nodup) :
    Settled (frames.foldl frame (default : RetainedUploadPriorities I P)) := by
  induction frames using List.reverseRecOn with
  | nil => exact settled_default
  | append_singleton frames updates ih =>
    rw [foldl_append]
    exact (ih fun other hmem=>hnodup other (mem_append_left _ hmem)).frame
      (hnodup updates (mem_append_right _ (.head _)))

end Frames

end RetainedUploadPriorities

end Cinnabar.Uploads
