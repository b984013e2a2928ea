import Cinnabar.BlobCache.Popping

/-! # What the ordinary lane waits for -/

namespace Cinnabar.BlobCache

open Std BlobCacheResolver List

variable {r : BlobCacheResolver} {sequence : ℕ} {columns : List ColumnKey}

/-- A retained event, or a rebuilt packet one waits for directly or through others. -/
inductive HeldUp (immediate ready : List (ℕ × ReadyItem)) : ℕ → List ColumnKey → Prop
  | ordinary {sequence : ℕ} {item : ReadyItem} : (sequence,item) ∈ immediate →
      HeldUp immediate ready sequence item.columns
  | cached {sequence later : ℕ} {item : ReadyItem} {columns : List ColumnKey} :
      (sequence,item) ∈ ready → HeldUp immediate ready later columns → sequence<later →
      shareColumn item.columns columns=true →
      HeldUp immediate ready sequence item.columns

def BlobCacheResolver.HeldUp (r : BlobCacheResolver) : ℕ → List ColumnKey → Prop :=
  BlobCache.HeldUp r.immediateReady.toList r.ready.toList

def Holds (heldUp : ℕ → List ColumnKey → Prop) (sequence : ℕ) (columns : List ColumnKey) : Prop :=
  ∃ later others, heldUp later others ∧ sequence<later ∧ shareColumn columns others=true

def Exceeds (bounds : TreeMap ColumnKey ℕ) (sequence : ℕ) (column : ColumnKey) : Prop :=
  (bounds[column]?).any (fun bound=>decide (sequence<bound)) = true

section Bounds

variable {bounds : TreeMap ColumnKey ℕ} {column : ColumnKey} {item : ReadyItem}

lemma exceeds_insert (other : ColumnKey) (bound : ℕ) :
    Exceeds (bounds.insert other (max (bounds.getD other 0) bound)) sequence column ↔
      Exceeds bounds sequence column ∨ (column=other ∧ sequence<bound) := by
  unfold Exceeds
  rw [lookup_insert]
  by_cases heq : other=column
  · subst heq
    rw [TreeMap.getD_eq_getD_getElem?]
    cases bounds[other]? with
    | none => simp
    | some old => simp
  · rw [if_neg heq]
    exact ⟨.inl,fun h=>h.elim id fun h'=>absurd h'.1.symm heq⟩

lemma exceeds_raiseBounds : Exceeds (raiseBounds bounds item) sequence column ↔
    Exceeds bounds sequence column ∨ (column ∈ item.columns ∧ sequence < item.sequence) := by
  unfold raiseBounds
  induction item.columns generalizing bounds with
  | nil => simp
  | cons first rest ih =>
    rw [foldl_cons,ih,exceeds_insert,mem_cons]
    tauto

lemma exceeds_raiseAll (entries : List (ℕ × ReadyItem)) :
    Exceeds (entries.foldl (fun bounds entry=>raiseBounds bounds entry.2) bounds) sequence column ↔
      Exceeds bounds sequence column ∨
        ∃ entry ∈ entries, column ∈ entry.2.columns ∧ sequence<entry.2.sequence := by
  induction entries generalizing bounds with
  | nil => simp
  | cons first rest ih =>
    rw [foldl_cons,ih,exceeds_raiseBounds,exists_mem_cons_iff]
    tauto

lemma blocks_iff : BlobCacheResolver.blocks bounds sequence columns=true ↔
    ∃ column ∈ columns, Exceeds bounds sequence column :=
  any_eq_true

end Bounds

def Bounds (heldUp : ℕ → List ColumnKey → Prop) (bounds : TreeMap ColumnKey ℕ) : Prop :=
  ∀ sequence column, Exceeds bounds sequence column ↔
    ∃ later columns, heldUp later columns ∧ sequence<later ∧ column ∈ columns

lemma Bounds.blocks {heldUp : ℕ → List ColumnKey → Prop} {bounds : TreeMap ColumnKey ℕ} (h : Bounds heldUp bounds) :
    BlobCacheResolver.blocks bounds sequence columns=true ↔ Holds heldUp sequence columns := by
  rw [blocks_iff]
  constructor
  · rintro ⟨column,hmem,hexceeds⟩
    obtain ⟨later,others,hheld,hlt,hcolumn⟩ := (h sequence column).1 hexceeds
    exact ⟨later,others,hheld,hlt,mem_shareColumn.2 ⟨column,hmem,hcolumn⟩⟩
  · rintro ⟨later,others,hheld,hlt,hshare⟩
    obtain ⟨column,hmem,hcolumn⟩ := mem_shareColumn.1 hshare
    exact ⟨column,hmem,(h sequence column).2 ⟨later,others,hheld,hlt,hcolumn⟩⟩

section Closure

variable {immediate ready : List (ℕ × ReadyItem)} {entry : ℕ × ReadyItem}

lemma HeldUp.mono {immediate' ready' : List (ℕ × ReadyItem)}
    (h : HeldUp immediate ready sequence columns) (himmediate : ∀ entry ∈ immediate, entry ∈ immediate')
    (hready : ∀ entry ∈ ready, entry ∈ ready') : HeldUp immediate' ready' sequence columns := by
  induction h with
  | ordinary hmem => exact .ordinary (himmediate _ hmem)
  | cached hmem _ hlt hshare ih => exact .cached (hready _ hmem) ih hlt hshare

/-- Nothing later depends on the earliest rebuilt packet but what holds it up itself. -/
lemma heldUp_cons (hfirst : ∀ other ∈ ready, entry.1<other.1) :
    HeldUp immediate (entry::ready) sequence columns ↔ HeldUp immediate ready sequence columns ∨
        (sequence=entry.1 ∧ columns=entry.2.columns ∧
          Holds (HeldUp immediate ready) entry.1 entry.2.columns) := by
  constructor
  · intro h
    induction h with
    | ordinary hmem => exact .inl (.ordinary hmem)
    | @cached sequence later item columns hmem _ hlt hshare ih =>
      rcases ih with hheld | ⟨rfl,rfl,-⟩
      · rcases mem_cons.1 hmem with heq | hmem
        · subst heq
          exact .inr ⟨rfl,rfl,later,columns,hheld,hlt,hshare⟩
        · exact .inl (.cached hmem hheld hlt hshare)
      · rcases mem_cons.1 hmem with heq | hmem
        · subst heq
          exact absurd hlt (lt_irrefl _)
        · exact absurd hlt (Nat.lt_asymm (hfirst _ hmem))
  · rintro (hheld | ⟨rfl,rfl,later,others,hheld,hlt,hshare⟩)
    · exact hheld.mono (fun _=>id) fun _=>mem_cons_of_mem _
    · refine .cached (.head _) ?_ hlt hshare
      exact hheld.mono (fun _=>id) fun _=>mem_cons_of_mem _

lemma bounds_immediate (hkeys : ∀ entry ∈ immediate, entry.2.sequence=entry.1) :
    Bounds (HeldUp immediate []) (immediate.foldl
      (fun bounds entry=>raiseBounds bounds entry.2) ∅) := by
  intro sequence column
  rw [exceeds_raiseAll]
  constructor
  · rintro (hempty | ⟨⟨key,item⟩,hmem,hcolumn,hlt⟩)
    · simp [Exceeds] at hempty
    · exact ⟨key,item.columns,.ordinary hmem,hlt.trans_eq (hkeys _ hmem),hcolumn⟩
  · rintro ⟨later,columns,hheld,hlt,hcolumn⟩
    cases hheld with
    | @ordinary _ item hmem =>
      exact .inr ⟨_,hmem,hcolumn,hlt.trans_eq (hkeys _ hmem).symm⟩
    | cached hmem => exact absurd hmem not_mem_nil

/-- The pass back over the rebuilt packets. -/
lemma bounds_ready (himmediate : ∀ entry ∈ immediate, entry.2.sequence=entry.1)
    (hready : ∀ entry ∈ ready, entry.2.sequence=entry.1)
    (hsorted : ready.Pairwise fun entry other=>entry.1<other.1) :
    Bounds (HeldUp immediate ready) (ready.foldr (fun entry bounds =>
        if BlobCacheResolver.blocks bounds entry.2.sequence entry.2.columns
        then raiseBounds bounds entry.2 else bounds)
      (immediate.foldl (fun bounds entry=>raiseBounds bounds entry.2) ∅)) := by
  induction ready with
  | nil => exact bounds_immediate himmediate
  | cons entry rest ih =>
    obtain ⟨hfirst,hrest⟩ := pairwise_cons.1 hsorted
    have hkey := hready entry (.head _)
    have hbounds := ih (fun other hmem=>hready other (.tail _ hmem)) hrest
    rw [foldr_cons]
    generalize rest.foldr _ _=bounds at hbounds ⊢
    intro sequence column
    simp only [heldUp_cons hfirst]
    by_cases hblocks : BlobCacheResolver.blocks bounds entry.2.sequence entry.2.columns=true
    · rw [if_pos hblocks,exceeds_raiseBounds,hbounds]
      rw [hkey,hbounds.blocks] at hblocks
      constructor
      · rintro (⟨later,others,hheld,hlt,hcolumn⟩ | ⟨hcolumn,hlt⟩)
        · exact ⟨later,others,.inl hheld,hlt,hcolumn⟩
        · exact ⟨entry.1,entry.2.columns,.inr ⟨rfl,rfl,hblocks⟩,hlt.trans_eq hkey,hcolumn⟩
      · rintro ⟨later,others,hheld | ⟨rfl,rfl,-⟩,hlt,hcolumn⟩
        · exact .inl ⟨later,others,hheld,hlt,hcolumn⟩
        · exact .inr ⟨hcolumn,hlt.trans_eq hkey.symm⟩
    · rw [if_neg hblocks,hbounds]
      rw [hkey,hbounds.blocks] at hblocks
      constructor
      · rintro ⟨later,others,hheld,hlt,hcolumn⟩
        exact ⟨later,others,.inl hheld,hlt,hcolumn⟩
      · rintro ⟨later,others,hheld | ⟨-,-,hholds⟩,hlt,hcolumn⟩
        · exact ⟨later,others,hheld,hlt,hcolumn⟩
        · exact absurd hholds hblocks

end Closure

structure BlobCacheResolver.Filed (r : BlobCacheResolver) : Prop where
  ready : ∀ entry ∈ r.ready.toList, entry.2.sequence=entry.1
  immediate : ∀ entry ∈ r.immediateReady.toList, entry.2.sequence=entry.1

lemma Consistent.filed {platform : Platform} {owed held : List ℕ} {world : World}
    (h : Consistent platform owed held world) : world.resolver.Filed where
  ready _ hmem := (h.readyBelow (TreeMap.mem_toList_iff_getElem?_eq_some.1 hmem)).1
  immediate _ hmem := (h.immediateBelow (TreeMap.mem_toList_iff_getElem?_eq_some.1 hmem)).1

lemma BlobCacheResolver.Filed.bounds (h : r.Filed) : Bounds r.HeldUp r.blockedBefore := by
  refine bounds_ready h.immediate h.ready ?_
  refine (TreeMap.ordered_keys_toList (t := r.ready)).imp fun hlt=>?_
  exact Nat.compare_eq_lt.1 hlt

/-- The transactions given up are those some retained event waits for. -/
lemma BlobCacheResolver.Filed.mem_ordinaryBlockers (h : r.Filed) :
    sequence ∈ r.ordinaryBlockers ↔ ∃ transaction, r.pending[sequence]? = some transaction ∧
      Holds r.HeldUp sequence transaction.columns := by
  unfold ordinaryBlockers
  rw [mem_map]
  constructor
  · rintro ⟨⟨key,transaction⟩,hmem,rfl⟩
    obtain ⟨hpending,hblocks⟩ := mem_filter.1 hmem
    exact ⟨transaction,TreeMap.mem_toList_iff_getElem?_eq_some.1 hpending, h.bounds.blocks.1 hblocks⟩
  · rintro ⟨transaction,hpending,hholds⟩
    refine ⟨(sequence,transaction),mem_filter.2 ⟨?_,h.bounds.blocks.2 hholds⟩,rfl⟩
    exact TreeMap.mem_toList_iff_getElem?_eq_some.2 hpending

end Cinnabar.BlobCache
