import Cinnabar.Residency.Journal

/-! # What the journal promises

Every operation leaves the set alone, writes one column or drops them all.
-/

namespace Cinnabar.Residency

open List

open Std (TreeMap TransOrd TransCmp LawfulEqOrd)

variable {s s' past : ColumnSubChunkSet} {key : SubChunkKey} {keys : List SubChunkKey}
  {column : ChunkKey}

namespace ColumnSubChunkSet

structure Consistent (s : ColumnSubChunkSet) : Prop where
  ordered : ∀ column, column ∈ s.orderedColumns ↔ column ∈ s.columns
  ascending : ∀ column, Ascending (s.column column)
  chunk : ∀ {column key}, key ∈ s.column column → key.chunk=column
  /-- No empty column is stored. -/
  nonempty : ∀ {column}, column ∈ s.columns → s.column column ≠ []
  len : s.len = (s.columns.toList.map fun entry=>entry.2.length).sum

lemma column_eq (s : ColumnSubChunkSet) (column : ChunkKey) : s.column column = (s.columns[column]?).getD [] := by
  unfold ColumnSubChunkSet.column
  rw [TreeMap.getD_eq_getD_getElem?]

lemma column_of_not_mem (h : column ∉ s.columns) : s.column column = [] := by
  rw [column_eq,TreeMap.getElem?_eq_none h]
  rfl

lemma Consistent.mem_columns (h : s.Consistent) : column ∈ s.columns ↔ s.column column ≠ [] :=
  ⟨h.nonempty,fun hne=>by_contra fun hmem=>hne (column_of_not_mem hmem)⟩

lemma Consistent.contains_iff (h : s.Consistent) : s.contains key=true ↔ key ∈ s.column key.chunk := by
  unfold contains
  rw [any_eq_true]
  constructor
  · rintro ⟨other,hother,hy⟩
    exact eq_of_y (h.chunk hother).symm (of_decide_eq_true hy).symm ▸ hother
  · exact fun hmem=>⟨key,hmem,decide_eq_true rfl⟩

lemma consistent_empty : empty.Consistent where
  ordered := fun column=>by simp [empty]
  ascending := fun column=>by
    exact .nil
  chunk := fun {column key} hkey=>by
    cases hkey
  nonempty := fun {column} hmem=>by simp [empty] at hmem
  len := rfl

structure Writes (s s' : ColumnSubChunkSet) (column : ChunkKey) (keys logged : List SubChunkKey) :
    Prop where
  columns : s'.columns = if keys = [] then s.columns.erase column else s.columns.insert column keys
  ordered : ∀ other, other ∈ s'.orderedColumns ↔ if other=column then keys ≠ [] else other ∈ s.orderedColumns
  ascending : Ascending keys
  chunk : ∀ key ∈ keys, key.chunk=column
  len : s'.len + (s.column column).length=s.len+keys.length
  revision : s'.membershipRevision=s.membershipRevision+1
  journal : s'.journal=s.journal.recordAll logged
  logged : ∀ key, (key ∈ keys ↔ key ∈ s.column column) ∨ key ∈ logged

variable {logged : List SubChunkKey}

lemma Writes.column_eq (h : Writes s s' column keys logged)
    (other : ChunkKey) : s'.column other = if other=column then keys else s.column other := by
  rw [ColumnSubChunkSet.column_eq,ColumnSubChunkSet.column_eq,h.columns]
  by_cases hkeys : keys = []
  · rw [if_pos hkeys,lookup_erase]
    by_cases hother : column=other
    · rw [if_pos hother,if_pos hother.symm,hkeys]
      rfl
    · rw [if_neg hother,if_neg (Ne.symm hother)]
  · rw [if_neg hkeys,lookup_insert]
    by_cases hother : column=other
    · rw [if_pos hother,if_pos hother.symm]
      rfl
    · rw [if_neg hother,if_neg (Ne.symm hother)]

lemma Writes.mem_columns (h : Writes s s' column keys logged)
    (other : ChunkKey) : other ∈ s'.columns ↔ if other=column then keys ≠ [] else
      other ∈ s.columns := by
  rw [h.columns]
  by_cases hother : other=column
  · subst hother
    by_cases hkeys : keys = []
    · simp [hkeys]
    · simp [hkeys]
  · by_cases hkeys : keys = []
    · rw [if_pos hkeys]
      simp [hother,Ne.symm hother]
    · rw [if_neg hkeys]
      simp [hother,Ne.symm hother]

lemma sum_erase (s : ColumnSubChunkSet) (column : ChunkKey) : (s.columns.toList.map fun entry=>entry.2.length).sum =
      ((s.columns.erase column).toList.map fun entry=>entry.2.length).sum +
        (s.column column).length := by
  rw [ColumnSubChunkSet.column_eq]
  cases hlookup : s.columns[column]? with
  | none => exact ((toList_erase_absent hlookup).map _).sum_eq
  | some old =>
    rw [((toList_perm_erase hlookup).map _).sum_eq,map_cons,sum_cons,Nat.add_comm]
    rfl

lemma Consistent.height_le (hs : s.Consistent) (column : ChunkKey) : (s.column column).length ≤ s.len := by
  rw [hs.len,s.sum_erase column]
  exact Nat.le_add_left _ _

lemma Writes.sum (h : Writes s s' column keys logged) :
    (s'.columns.toList.map fun entry=>entry.2.length).sum + (s.column column).length =
      (s.columns.toList.map fun entry=>entry.2.length).sum+keys.length := by
  have hold := s.sum_erase column
  have hnew : (s'.columns.toList.map fun entry=>entry.2.length).sum =
      ((s.columns.erase column).toList.map fun entry=>entry.2.length).sum+keys.length := by
    rw [h.columns]
    by_cases hkeys : keys = []
    · rw [if_pos hkeys,hkeys]
      rfl
    · rw [if_neg hkeys,(toList_insert_perm_erase.map _).sum_eq,map_cons,sum_cons, Nat.add_comm]
  omega

lemma Writes.consistent (h : Writes s s' column keys logged) (hs : s.Consistent) : s'.Consistent where
  ordered := fun other=>by
    rw [h.ordered,h.mem_columns]
    split_ifs
    · exact Iff.rfl
    · exact hs.ordered other
  ascending := fun other=>by
    rw [h.column_eq]
    split_ifs
    · exact h.ascending
    · exact hs.ascending other
  chunk := fun {other key} hkey=>by
    rw [h.column_eq] at hkey
    split_ifs at hkey with hother
    · exact (h.chunk key hkey).trans hother.symm
    · exact hs.chunk hkey
  nonempty := fun {other} hmem=>by
    rw [h.mem_columns] at hmem
    rw [h.column_eq]
    split_ifs at hmem ⊢
    · exact hmem
    · exact hs.nonempty hmem
  len := by
    have hsum := h.sum
    have hlen := h.len
    have hold := hs.len
    omega

lemma Writes.logs_changed (h : Writes s s' column keys logged)
    (hs : s.Consistent) (hne : s.contains key≠s'.contains key) : key ∈ logged := by
  have hs' := h.consistent hs
  rw [Ne,Bool.eq_iff_iff,hs.contains_iff,hs'.contains_iff,h.column_eq] at hne
  split_ifs at hne with hchunk
  · rw [hchunk] at hne
    exact (h.logged key).resolve_left fun hiff=>hne hiff.symm
  · exact absurd Iff.rfl hne

structure Wipes (s s' : ColumnSubChunkSet) : Prop where
  columns : s'.columns = ∅
  orderedColumns : s'.orderedColumns = ∅
  len : s'.len=0
  revision : s'.membershipRevision=s.membershipRevision + if s.len≠0 then 1 else 0
  journal : s'.journal=s.journal.restartAfter

lemma Wipes.consistent (h : Wipes s s') : s'.Consistent where
  ordered := fun column=>by simp [h.columns,h.orderedColumns]
  ascending := fun column=>by
    rw [column_of_not_mem (by simp [h.columns])]
    exact .nil
  chunk := fun {column key} hkey=>by
    rw [column_of_not_mem (by simp [h.columns])] at hkey
    cases hkey
  nonempty := fun {column} hmem=>by simp [h.columns] at hmem
  len := by
    rw [h.len,h.columns]
    rfl

lemma height_ne (h : ¬s.contains key=true) : ∀ other ∈ s.column key.chunk, other.y≠key.y := by
  intro other hother hy
  exact h (any_eq_true.2 ⟨other,hother,decide_eq_true hy⟩)

lemma insert_cases (hs : s.Consistent) : (s.insert key).2=s ∨
    Writes s (s.insert key).2 key.chunk (insertSection key (s.column key.chunk)) [key] := by
  have hperm := insertSection_perm key (s.column key.chunk)
  have hne : insertSection key (s.column key.chunk) ≠ [] := by
    intro hnil
    rw [hnil] at hperm
    exact cons_ne_nil _ _ hperm.nil_eq.symm
  have hchunk : ∀ other ∈ insertSection key (s.column key.chunk), other.chunk=key.chunk := by
    intro other hother
    rcases mem_cons.1 (hperm.mem_iff.1 hother) with rfl | hother
    · rfl
    · exact hs.chunk hother
  have hlen : s.len+1 + (s.column key.chunk).length=s.len + (insertSection key (s.column key.chunk)).length := by
    rw [hperm.length_eq,length_cons]
    omega
  have hlogged : ∀ other, (other ∈ insertSection key (s.column key.chunk) ↔
      other ∈ s.column key.chunk) ∨ other ∈ [key] := by
    intro other
    rw [hperm.mem_iff,mem_cons,mem_singleton]
    by_cases heq : other=key
    · exact .inr heq
    · exact .inl (or_iff_right heq)
  by_cases hempty : (s.column key.chunk).isEmpty=true
  · -- the column gains its first section
    have hnil := List.isEmpty_iff.1 hempty
    have habsent : ¬s.contains key=true := by
      unfold contains
      rw [hnil]
      exact Bool.false_ne_true
    right
    unfold insert
    rw [if_pos hempty]
    have hcontains : ¬({ s with
        columnGeneration := s.columnGeneration+1
        orderedColumns := s.orderedColumns.insert key.chunk (s.columnGeneration+1) } :
          ColumnSubChunkSet).contains key=true := habsent
    rw [if_neg hcontains]
    exact
      { columns := (if_neg hne).symm
        ordered := fun other=>by
          by_cases hother : other=key.chunk
          · simp [hother,hne]
          · simp [hother,Ne.symm hother]
        ascending := insertSection_ascending (hs.ascending _) (height_ne habsent)
        chunk := hchunk
        len := hlen
        revision := rfl
        journal := rfl
        logged := hlogged }
  · unfold insert
    rw [if_neg hempty]
    by_cases hcontains : s.contains key=true
    · rw [if_pos hcontains]
      exact .inl rfl
    · rw [if_neg hcontains]
      right
      have hstored : key.chunk ∈ s.orderedColumns := by
        rw [hs.ordered,hs.mem_columns]
        exact fun hnil=>hempty (List.isEmpty_iff.2 hnil)
      exact
        { columns := (if_neg hne).symm
          ordered := fun other=>by
            split_ifs with hother
            · exact iff_of_true (hother ▸ hstored) hne
            · exact Iff.rfl
          ascending := insertSection_ascending (hs.ascending _) (height_ne hcontains)
          chunk := hchunk
          len := hlen
          revision := rfl
          journal := rfl
          logged := hlogged }

lemma remove_cases (hs : s.Consistent) : (s.remove key).2=s ∨ Writes s (s.remove key).2 key.chunk
      ((s.column key.chunk).eraseP fun other=>other.y=key.y) [key] := by
  unfold remove
  by_cases hcontains : s.contains key=true
  · rw [if_pos hcontains]
    right
    have hmem := hs.contains_iff.1 hcontains
    have hlength := length_eraseP_of_mem hmem (p := fun other=>decide (other.y=key.y)) (decide_eq_true rfl)
    have hpos := length_pos_of_mem hmem
    have hle := hs.height_le key.chunk
    have hstored : key.chunk ∈ s.orderedColumns := by
      rw [hs.ordered,hs.mem_columns]
      exact ne_nil_of_mem hmem
    have hsublist := eraseP_sublist (l := s.column key.chunk) (p := fun other=>decide (other.y=key.y))
    have hlogged : ∀ other, (other ∈ (s.column key.chunk).eraseP (fun other=>other.y=key.y) ↔
        other ∈ s.column key.chunk) ∨ other ∈ [key] := by
      intro other
      by_cases hy : other.y=key.y
      · by_cases hother : other ∈ s.column key.chunk
        · exact .inr (mem_singleton.2 (eq_of_y (hs.chunk hother) hy))
        · exact .inl (iff_of_false (fun hin=>hother (hsublist.subset hin)) hother)
      · exact .inl (mem_eraseP_of_neg fun htrue=>hy (of_decide_eq_true htrue))
    generalize (s.column key.chunk).eraseP (fun other=>decide (other.y=key.y)) = rest at hlength hsublist hlogged
    refine
      { columns := ?_, ordered := fun other=>?_, ascending := (hs.ascending _).sublist hsublist,
        chunk := fun other hother=>hs.chunk (hsublist.subset hother), len := ?_,
        revision := ?_, journal := ?_, logged := hlogged }
    · rcases rest with - | ⟨first,rest⟩ <;> rfl
    · rcases rest with - | ⟨first,rest⟩
      · by_cases hother : other=key.chunk
        · simp [hother]
        · simp [hother,Ne.symm hother]
      · change other ∈ s.orderedColumns ↔ _
        split_ifs with hother
        · exact iff_of_true (hother ▸ hstored) (cons_ne_nil _ _)
        · exact Iff.rfl
    · have hcount : (if rest.isEmpty=true then { s with
            columns := s.columns.erase key.chunk
            orderedColumns := s.orderedColumns.erase key.chunk }
          else { s with columns := s.columns.insert key.chunk rest }).len=s.len := by
        split <;> rfl
      dsimp only
      omega
    · rcases rest with - | ⟨first,rest⟩ <;> rfl
    · rcases rest with - | ⟨first,rest⟩ <;> rfl
  · rw [if_neg hcontains]
    exact .inl rfl

lemma replaceColumn_cases (hs : s.Consistent) (h : s.replaceColumn column keys=some s') :
    s'=s ∨ ∃ replacement, Writes s s' column replacement (replacement++s.column column) := by
  unfold replaceColumn at h
  split at h
  next hchunk =>
    have hchunk : ∀ key ∈ keys, key.chunk=column := fun key hkey =>
      of_decide_eq_true (all_eq_true.1 hchunk key hkey)
    have hascending := replacement_ascending hchunk
    have hreplaced : ∀ key ∈ (keys.insertionSort (· ≤ ·)).dedup, key.chunk=column := by
      intro key hkey
      rw [mem_dedup,mem_insertionSort] at hkey
      exact hchunk key hkey
    generalize (keys.insertionSort (· ≤ ·)).dedup=replacement at h hascending hreplaced
    by_cases hsame : s.column column=replacement
    · rw [if_pos hsame] at h
      exact .inl (Option.some.inj h).symm
    · rw [if_neg hsame] at h
      refine .inr ⟨replacement,?_⟩
      rw [← Option.some.inj h]
      have hle := hs.height_le column
      have hjournal : (s.journal.recordAll replacement).recordAll (s.column column) =
          s.journal.recordAll (replacement++s.column column) := foldl_append.symm
      have hlogged : ∀ key, (key ∈ replacement ↔ key ∈ s.column column) ∨ key ∈ replacement++s.column column := by
        intro key
        by_cases hmem : key ∈ replacement++s.column column
        · exact .inr hmem
        · rw [mem_append,not_or] at hmem
          exact .inl (iff_of_false hmem.1 hmem.2)
      rcases replacement with - | ⟨first,rest⟩
      · exact
          { columns := rfl
            ordered := fun other=>by
              by_cases hother : other=column
              · simp [hother]
              · simp [hother,Ne.symm hother]
            ascending := hascending
            chunk := hreplaced
            len := by
              rw [if_pos isEmpty_nil]
              dsimp only
              omega
            revision := rfl
            journal := hjournal
            logged := hlogged }
      · rw [if_neg (by simp)]
        by_cases hstored : s.orderedColumns.contains column=true
        · rw [if_pos hstored]
          exact
            { columns := rfl
              ordered := fun other=>by
                dsimp only
                split_ifs with hother
                · exact iff_of_true (hother ▸ TreeMap.mem_iff_contains.2 hstored) (cons_ne_nil _ _)
                · exact Iff.rfl
              ascending := hascending
              chunk := hreplaced
              len := by
                dsimp only
                omega
              revision := rfl
              journal := hjournal
              logged := hlogged }
        · rw [if_neg hstored]
          exact
            { columns := rfl
              ordered := fun other=>by
                by_cases hother : other=column
                · simp [hother]
                · simp [hother,Ne.symm hother]
              ascending := hascending
              chunk := hreplaced
              len := by
                dsimp only
                omega
              revision := rfl
              journal := hjournal
              logged := hlogged }
  next => cases h

lemma retire_wipes (s : ColumnSubChunkSet) : Wipes s s.retire := ⟨rfl,rfl,rfl,rfl,rfl⟩

lemma clear_cases (s : ColumnSubChunkSet) : s.clear=s ∨ Wipes s s.clear := by
  unfold clear
  split
  next hlen => exact .inr ⟨rfl,rfl,rfl,by rw [if_pos hlen],rfl⟩
  next => exact .inl rfl

end ColumnSubChunkSet

open ColumnSubChunkSet

lemma SetOp.apply_cases {op : SetOp} (hs : s.Consistent) (h : op.apply s=some s') :
    s'=s ∨ (∃ column keys logged, Writes s s' column keys logged) ∨ Wipes s s' := by
  cases op with
  | insert key =>
    cases h
    exact (insert_cases hs).imp id fun hwrites=>.inl ⟨_,_,_,hwrites⟩
  | remove key =>
    cases h
    exact (remove_cases hs).imp id fun hwrites=>.inl ⟨_,_,_,hwrites⟩
  | replaceColumn column keys =>
    exact (replaceColumn_cases hs h).imp id fun ⟨_,hwrites⟩=>.inl ⟨_,_,_,hwrites⟩
  | retire =>
    cases h
    exact .inr (.inr s.retire_wipes)
  | clear =>
    cases h
    exact s.clear_cases.imp id .inr

lemma SetOp.apply_consistent {op : SetOp} (hs : s.Consistent) (h : op.apply s=some s') :
    s'.Consistent := by
  rcases op.apply_cases hs h with rfl | ⟨_,_,_,hwrites⟩ | hwipes
  · exact hs
  · exact hwrites.consistent hs
  · exact hwipes.consistent

structure Follows (past s : ColumnSubChunkSet) : Prop where
  logged : ∃ log, s.journal.Logs log ∧ past.journal.written ≤ s.journal.written ∧
    (s.journal.floor≤past.journal.written → ∀ key, past.contains key≠s.contains key →
      ∃ position, past.journal.written≤position ∧ position < s.journal.written ∧ log position=key)
  revision : past.membershipRevision ≤ s.membershipRevision
  same : past.membershipRevision=s.membershipRevision → ∀ key, past.contains key=s.contains key

lemma Follows.refl (s : ColumnSubChunkSet) : Follows s s where
  logged := by
    obtain ⟨log,hlog⟩ := s.journal.exists_log
    exact ⟨log,hlog,le_refl _,fun _ key hne=>absurd rfl hne⟩
  revision := le_refl _
  same := fun _ _=>rfl

section

variable (h : Follows past s)
include h

lemma Follows.writes {logged : List SubChunkKey} (hs : s.Consistent)
    (hwrites : Writes s s' column keys logged) : Follows past s' where
  logged := by
    obtain ⟨log,hlog,hwritten,hsince⟩ := h.logged
    obtain ⟨log',hlog',hfloor,hgrown,hold,hnew⟩ := hlog.recordAll logged
    rw [← hwrites.journal] at hlog' hfloor hgrown hnew
    refine ⟨log',hlog',hwritten.trans hgrown,fun hle key hne=>?_⟩
    rw [hfloor] at hle
    by_cases hsame : past.contains key=s.contains key
    · rw [hsame] at hne
      obtain ⟨position,hposition,hlt,heq⟩ := hnew key (hwrites.logs_changed hs hne)
      exact ⟨position,hwritten.trans hposition,hlt,heq⟩
    · obtain ⟨position,hposition,hlt,heq⟩ := hsince hle key hsame
      exact ⟨position,hposition,hlt.trans_le hgrown,(hold position hlt).trans heq⟩
  revision := by
    rw [hwrites.revision]
    exact h.revision.trans (Nat.le_succ _)
  same := fun heq=>by
    have hle := h.revision
    rw [hwrites.revision] at heq
    omega

lemma Follows.wipes (hs : s.Consistent) (hwipes : Wipes s s') : Follows past s' where
  logged := by
    obtain ⟨log,-,hwritten,-⟩ := h.logged
    have hfloor : s'.journal.floor=s.journal.written+1 := by
      rw [hwipes.journal]
      rfl
    have hgrown : s'.journal.written=s.journal.written+1 := by
      rw [hwipes.journal]
      rfl
    obtain ⟨log',hlog'⟩ := s'.journal.exists_log
    refine ⟨log',hlog',by omega,fun hle=>by omega⟩
  revision := by
    rw [hwipes.revision]
    exact h.revision.trans (Nat.le_add_right _ _)
  same := fun heq key=>by
    have hle := h.revision
    rw [hwipes.revision] at heq
    have hlen : s.len=0 := by
      by_contra hne
      rw [if_pos hne] at heq
      omega
    -- a set without keys drops none
    have hempty : ∀ column, s.column column = [] := fun column =>
      length_eq_zero_iff.1 (Nat.le_zero.1 (hlen ▸ hs.height_le column))
    rw [if_neg (not_not.2 hlen)] at heq
    rw [h.same heq,Bool.eq_iff_iff,hs.contains_iff,hwipes.consistent.contains_iff,hempty,
      column_of_not_mem (by simp [hwipes.columns])]

lemma Follows.apply {op : SetOp} (hs : s.Consistent) (happly : op.apply s=some s') : Follows past s' := by
  rcases op.apply_cases hs happly with rfl | ⟨_,_,_,hwrites⟩ | hwipes
  · exact h
  · exact h.writes hs hwrites
  · exact h.wipes hs hwipes

lemma Follows.run {ops : List SetOp} (hs : s.Consistent)
    (hrun : SetOp.run s ops=some s') : Follows past s' ∧ s'.Consistent := by
  induction ops generalizing s with
  | nil =>
    cases hrun
    exact ⟨h,hs⟩
  | cons op ops ih =>
    obtain ⟨next,hnext,hrest⟩ := Option.bind_eq_some_iff.1 hrun
    exact ih (h.apply hs hnext) (op.apply_consistent hs hnext) hrest

end

namespace ColumnSubChunkSet

section

variable (hs : s.Consistent)
include hs

lemma Consistent.mem_iter : key ∈ s.iter ↔ s.contains key=true := by
  unfold iter
  rw [hs.contains_iff,mem_flatMap]
  constructor
  · rintro ⟨column,-,hkey⟩
    exact (hs.chunk hkey).symm ▸ hkey
  · intro hkey
    refine ⟨key.chunk,TreeMap.mem_keys.2 ?_,hkey⟩
    rw [hs.ordered,hs.mem_columns]
    exact ne_nil_of_mem hkey

lemma Consistent.keys_perm : s.orderedColumns.keys.Perm s.columns.keys := by
  refine (perm_ext_iff_of_nodup TreeMap.nodup_keys TreeMap.nodup_keys).2 fun column=>?_
  rw [TreeMap.mem_keys,TreeMap.mem_keys,hs.ordered]

/-- The total length counts the keys. -/
lemma Consistent.length_iter : s.iter.length=s.len := by
  have hheights : ∀ entry ∈ s.columns.toList, (s.column entry.1).length=entry.2.length := by
    rintro ⟨column,keys⟩ hentry
    rw [TreeMap.mem_toList_iff_getElem?_eq_some] at hentry
    rw [ColumnSubChunkSet.column_eq,hentry]
    rfl
  unfold iter
  rw [hs.len,length_flatMap,(hs.keys_perm.map _).sum_eq,← TreeMap.map_fst_toList_eq_keys, map_map]
  exact congrArg List.sum (map_congr_left hheights)

lemma Consistent.nodup_iter : s.iter.Nodup := by
  refine nodup_flatMap.2 ⟨fun column _=>(hs.ascending column).nodup,?_⟩
  refine TreeMap.nodup_keys.imp fun {a b} hne key hkey hkey'=>?_
  exact hne ((hs.chunk hkey).symm.trans (hs.chunk hkey'))

end

end ColumnSubChunkSet

/-- The index agrees with itself, a replay has every key whose membership changed since its
position, and equal revisions mean equal membership. -/
theorem membership_journal_sound (before after : List SetOp) {past now : ColumnSubChunkSet}
    (hpast : SetOp.run .empty before = some past) (hnow : SetOp.run past after = some now) :
    (now.iter.Nodup ∧ (∀ key, key ∈ now.iter ↔ now.contains key=true) ∧ now.len=now.iter.length ∧
      now.len = (now.orderedColumns.keys.map fun column => (now.column column).length).sum ∧
      (∀ column, column ∈ now.orderedColumns ↔ column ∈ now.columns) ∧
      ∀ column ∈ now.columns, now.column column ≠ [] ∧ Ascending (now.column column) ∧
        ∀ key ∈ now.column column, key.chunk=column) ∧
    (∀ keys, now.changedSince past.journalPosition = some keys →
      ∀ key, past.contains key ≠ now.contains key → key ∈ keys) ∧
    (past.membershipRevision=now.membershipRevision →
      ∀ key, past.contains key = now.contains key) := by
  have hconsistent := ((Follows.refl _).run consistent_empty hpast).2
  obtain ⟨hfollows,hs⟩ := (Follows.refl past).run hconsistent hnow
  refine ⟨⟨hs.nodup_iter,fun _=>hs.mem_iter,hs.length_iter.symm,?_,hs.ordered,?_⟩,?_, hfollows.same⟩
  · rw [← hs.length_iter]
    exact length_flatMap
  · exact fun column hmem => ⟨hs.nonempty hmem,hs.ascending column,fun key hkey => hs.chunk hkey⟩
  · intro keys hkeys key hne
    obtain ⟨log,hlog,-,hsince⟩ := hfollows.logged
    obtain ⟨hfloor,hmem⟩ := hlog.mem_since hkeys
    obtain ⟨position,hle,hlt,rfl⟩ := hsince hfloor key hne
    exact hmem position hle hlt

/-- Two sections of a column arrive, and the lower one leaves again. -/
theorem membership_journal_sound_example :
    ∃ past now, SetOp.run .empty [.insert ⟨0,0,4,0⟩,.insert ⟨0,0,-1,0⟩] = some past ∧
      SetOp.run past [.remove ⟨0,0,-1,0⟩] = some now ∧
      now.changedSince past.journalPosition = some [⟨0,0,-1,0⟩] ∧
      past.contains ⟨0,0,-1,0⟩ ≠ now.contains ⟨0,0,-1,0⟩ ∧ now.len=now.iter.length := by
  refine ⟨_,_,rfl,rfl,by decide,by decide,?_⟩
  exact (membership_journal_sound [.insert ⟨0,0,4,0⟩,.insert ⟨0,0,-1,0⟩] [.remove ⟨0,0,-1,0⟩] rfl rfl).1.2.2.1

end Cinnabar.Residency
