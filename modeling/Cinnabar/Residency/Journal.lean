import Cinnabar.Keys
import Cinnabar.Library.Maps

/-! # Membership journal -/

namespace Cinnabar.Residency

open List Function

def membershipJournalCapacity : ℕ := 8192

structure MembershipJournal where
  keys : List SubChunkKey
  written : ℕ
  /-- No replay starts before this position. -/
  floor : ℕ
  floor_le : floor≤written
  length_keys : keys.length=min (written-floor) membershipJournalCapacity

namespace MembershipJournal

variable {j : MembershipJournal} {position : ℕ} {key : SubChunkKey}

def empty : MembershipJournal := ⟨[],0,0,le_refl _,rfl⟩

def slot (j : MembershipJournal) (position : ℕ) : ℕ :=
  (position-j.floor) % membershipJournalCapacity

lemma slot_lt_capacity (j : MembershipJournal) (position : ℕ) :
    j.slot position < membershipJournalCapacity := Nat.mod_lt _ (by decide)

lemma slot_lt (hfloor : j.floor≤position) (hwritten : position<j.written) : j.slot position<j.keys.length := by
  rw [j.length_keys,lt_min_iff]
  exact ⟨(Nat.mod_le _ _).trans_lt (by omega),j.slot_lt_capacity position⟩

lemma slot_written_le (j : MembershipJournal) : j.slot j.written≤j.keys.length := by
  rw [j.length_keys,le_min_iff]
  exact ⟨Nat.mod_le _ _,(j.slot_lt_capacity _).le⟩

/-- The next slot is new until the ring is full. -/
lemma slot_written_eq (j : MembershipJournal) : j.slot j.written=j.keys.length ↔
    j.written-j.floor < membershipJournalCapacity := by
  have hlt := j.slot_lt_capacity j.written
  have hlength := j.length_keys
  constructor
  · omega
  · intro h
    have hslot : j.slot j.written=j.written-j.floor := Nat.mod_eq_of_lt h
    omega

def record (key : SubChunkKey) (j : MembershipJournal) : MembershipJournal where
  keys := if j.slot j.written=j.keys.length then j.keys ++ [key]
    else j.keys.set (j.slot j.written) key
  written := j.written+1
  floor := j.floor
  floor_le := Nat.le_succ_of_le j.floor_le
  length_keys := by
    have hle := j.floor_le
    have hlength := j.length_keys
    have heq := j.slot_written_eq
    split
    · rw [length_append,length_singleton]
      omega
    · rw [length_set]
      omega

def recordAll (keys : List SubChunkKey) (j : MembershipJournal) : MembershipJournal :=
  keys.foldl (fun j key=>j.record key) j

/-- Keys recorded since a position, or `none` once any of them has been overwritten. -/
def since (j : MembershipJournal) (position : ℕ) : Option (List SubChunkKey) :=
  if h : j.floor≤position ∧ position≤j.written ∧ j.written-position ≤ membershipJournalCapacity then
    some ((List.range' position (j.written-position)).pmap
      (fun position (hposition : j.floor≤position ∧ position<j.written) =>
        j.keys.get ⟨j.slot position,slot_lt hposition.1 hposition.2⟩)
      fun position hposition=>by
        rw [mem_range'_1] at hposition
        omega)
  else none

/-- Continues the clock for a set that lost every key without recording them. -/
def restartAfter (j : MembershipJournal) : MembershipJournal where
  keys := []
  written := j.written+1
  floor := j.written+1
  floor_le := le_refl _
  length_keys := by
    rw [Nat.sub_self,Nat.zero_min]
    rfl

def Logs (j : MembershipJournal) (log : ℕ → SubChunkKey) : Prop :=
  ∀ position, j.floor≤position → position<j.written → j.written≤position+membershipJournalCapacity →
    j.keys[j.slot position]? = some (log position)

lemma exists_log (j : MembershipJournal) : ∃ log, j.Logs log := by
  refine ⟨fun position=>j.keys.getD (j.slot position) ⟨0,0,0,0⟩,?_⟩
  intro position hfloor hwritten _
  dsimp only
  rw [List.getD_eq_getElem?_getD,List.getElem?_eq_getElem (slot_lt hfloor hwritten)]
  rfl

lemma slot_ne {later : ℕ} (hfloor : j.floor≤position) (hlt : position<later)
    (hround : later<position+membershipJournalCapacity) : j.slot position≠j.slot later := by
  intro heq
  have hmod : (later-j.floor - (position-j.floor)) % membershipJournalCapacity=0 :=
    Nat.sub_mod_eq_zero_of_mod_eq heq.symm
  rw [Nat.mod_eq_of_lt (by omega)] at hmod
  omega

variable {log : ℕ → SubChunkKey}

lemma Logs.record (h : j.Logs log) (key : SubChunkKey) : (j.record key).Logs (update log j.written key) := by
  intro position hfloor hwritten hround
  change j.written+1≤position+membershipJournalCapacity at hround
  change (if j.slot j.written=j.keys.length then j.keys ++ [key]
    else j.keys.set (j.slot j.written) key)[j.slot position]? = _
  have hslot := j.slot_written_le
  rcases Nat.lt_succ_iff_lt_or_eq.1 hwritten with hold | rfl
  · -- an older key keeps its slot
    rw [update_of_ne hold.ne,← h position hfloor hold (by omega)]
    split
    · exact List.getElem?_append_left (slot_lt hfloor hold)
    · exact List.getElem?_set_ne (slot_ne hfloor hold (by omega)).symm
  · rw [update_self]
    split
    next hnew => rw [hnew,List.getElem?_concat_length]
    next hnew => exact List.getElem?_set_self (by omega)

lemma Logs.recordAll (h : j.Logs log) (keys : List SubChunkKey) :
    ∃ log', (j.recordAll keys).Logs log' ∧ (j.recordAll keys).floor=j.floor ∧
      j.written ≤ (j.recordAll keys).written ∧ (∀ position<j.written, log' position=log position) ∧
      ∀ key ∈ keys, ∃ position, j.written≤position ∧ position < (j.recordAll keys).written ∧
        log' position=key := by
  induction keys generalizing j log with
  | nil => exact ⟨log,h,rfl,le_refl _,fun _ _=>rfl,fun _ hkey=>absurd hkey not_mem_nil⟩
  | cons first keys ih =>
    obtain ⟨log',hlog,hfloor,hwritten,hold,hnew⟩ := ih (h.record first)
    refine ⟨log',hlog,hfloor,(Nat.le_succ _).trans hwritten,fun position hlt=>?_, fun key hkey=>?_⟩
    · rw [hold position (Nat.lt_succ_of_lt hlt),update_of_ne hlt.ne]
    · rcases List.mem_cons.1 hkey with rfl | hkey
      · refine ⟨j.written,le_refl _,hwritten,?_⟩
        rw [hold j.written (Nat.lt_succ_self _),update_self]
      · obtain ⟨position,hle,hlt,heq⟩ := hnew key hkey
        exact ⟨position,(Nat.le_succ _).trans hle,hlt,heq⟩

lemma Logs.mem_since (h : j.Logs log) {start : ℕ} {keys : List SubChunkKey} (hsince : j.since start=some keys) :
    j.floor ≤ start ∧ ∀ position, start≤position → position<j.written → log position ∈ keys := by
  unfold since at hsince
  split at hsince
  next hreach =>
    rw [← Option.some.inj hsince]
    refine ⟨hreach.1,fun position hle hlt=>mem_pmap.2 ⟨position,?_,?_⟩⟩
    · rw [mem_range'_1]
      omega
    · have hlog := h position (hreach.1.trans hle) hlt (by omega)
      rw [List.getElem?_eq_getElem (slot_lt (hreach.1.trans hle) hlt)] at hlog
      exact Option.some.inj hlog
  next => cases hsince

end MembershipJournal

end Cinnabar.Residency

/-! # Sections grouped by column

Each key is stored once, in its column by ascending height.  Every change of membership
is journaled.
-/

namespace Cinnabar.Residency

open Std (TreeMap TransOrd TransCmp LawfulEqOrd)
open List

/-- Rust's derived order: dimension, then `x` and `z`. -/
instance : Ord ChunkKey :=
  ⟨compareLex (compareOn ChunkKey.dimension) (compareLex (compareOn ChunkKey.x) (compareOn ChunkKey.z))⟩

instance : TransOrd ChunkKey :=
  inferInstanceAs (TransCmp (compareLex (compareOn ChunkKey.dimension)
    (compareLex (compareOn ChunkKey.x) (compareOn ChunkKey.z))))

instance : LawfulEqOrd ChunkKey where
  eq_of_compare {a b} h := by
    obtain ⟨hdimension,hrest⟩ := Ordering.then_eq_eq.1 h
    obtain ⟨hx,hz⟩ := Ordering.then_eq_eq.1 hrest
    have hdimension : a.dimension=b.dimension := Std.compare_eq_iff_eq.1 hdimension
    have hx : a.x=b.x := Std.compare_eq_iff_eq.1 hx
    have hz : a.z=b.z := Std.compare_eq_iff_eq.1 hz
    cases a
    cases b
    cases hdimension
    cases hx
    cases hz
    rfl

structure ColumnSubChunkSet where
  columns : TreeMap ChunkKey (List SubChunkKey)
  /-- When each column last gained its first key. -/
  orderedColumns : TreeMap ChunkKey ℕ
  columnGeneration : ℕ
  membershipRevision : ℕ
  len : ℕ
  journal : MembershipJournal

def insertSection (key : SubChunkKey) : List SubChunkKey → List SubChunkKey
  | [] => [key]
  | first::rest => if key.y<first.y then key::first::rest else first::insertSection key rest

namespace ColumnSubChunkSet

def empty : ColumnSubChunkSet := ⟨∅,∅,0,0,0,.empty⟩

variable (s : ColumnSubChunkSet)

def column (column : ChunkKey) : List SubChunkKey :=
  s.columns.getD column []

def contains (key : SubChunkKey) : Bool :=
  (s.column key.chunk).any fun other=>other.y=key.y

/-- Whether the key became resident. -/
def insert (key : SubChunkKey) (s : ColumnSubChunkSet) : Bool × ColumnSubChunkSet :=
  let s := if (s.column key.chunk).isEmpty then
      { s with
        columnGeneration := s.columnGeneration+1
        orderedColumns := s.orderedColumns.insert key.chunk (s.columnGeneration+1) }
    else s
  if s.contains key then (false,s)
  else (true,{ s with
    columns := s.columns.insert key.chunk (insertSection key (s.column key.chunk))
    len := s.len+1
    membershipRevision := s.membershipRevision+1
    journal := s.journal.record key })

def remove (key : SubChunkKey) (s : ColumnSubChunkSet) : Bool × ColumnSubChunkSet :=
  if s.contains key then
    let column := (s.column key.chunk).eraseP fun other=>other.y=key.y
    let s := if column.isEmpty then
        { s with
          columns := s.columns.erase key.chunk
          orderedColumns := s.orderedColumns.erase key.chunk }
      else { s with columns := s.columns.insert key.chunk column }
    (true,{ s with
      len := s.len-1
      membershipRevision := s.membershipRevision+1
      journal := s.journal.record key })
  else (false,s)

/-- Replaces one column's sections; `none` where the keys are not the column's. -/
def replaceColumn (column : ChunkKey) (keys : List SubChunkKey) (s : ColumnSubChunkSet) :
    Option ColumnSubChunkSet :=
  if keys.all fun key=>key.chunk=column then
    let replacement := (keys.insertionSort (· ≤ ·)).dedup
    let previous := s.column column
    if previous=replacement then some s
    else
      let s := if replacement.isEmpty then
          { s with
            columns := s.columns.erase column
            orderedColumns := s.orderedColumns.erase column }
        else if s.orderedColumns.contains column then
          { s with columns := s.columns.insert column replacement }
        else
          { s with
            columns := s.columns.insert column replacement
            columnGeneration := s.columnGeneration+1
            orderedColumns := s.orderedColumns.insert column (s.columnGeneration+1) }
      some { s with
        len := s.len-previous.length+replacement.length
        membershipRevision := s.membershipRevision+1
        journal := (s.journal.recordAll replacement).recordAll previous }
  else none

def iter : List SubChunkKey := s.orderedColumns.keys.flatMap s.column

def journalPosition : ℕ := s.journal.written

def changedSince (position : ℕ) : Option (List SubChunkKey) :=
  s.journal.since position

/-- What stays behind when the storage is detached. -/
def retire : ColumnSubChunkSet :=
  { empty with
    columnGeneration := s.columnGeneration
    membershipRevision := s.membershipRevision + if s.len≠0 then 1 else 0
    journal := s.journal.restartAfter }

def clear : ColumnSubChunkSet :=
  if s.len≠0 then
    { s with
      columns := ∅
      orderedColumns := ∅
      len := 0
      membershipRevision := s.membershipRevision+1
      journal := s.journal.restartAfter }
  else s

end ColumnSubChunkSet

inductive SetOp where
  | insert (key : SubChunkKey)
  | remove (key : SubChunkKey)
  | replaceColumn (column : ChunkKey) (keys : List SubChunkKey)
  | retire
  | clear

variable (s : ColumnSubChunkSet)

/-- `none` would be a panic. -/
def SetOp.apply : SetOp → Option ColumnSubChunkSet
  | .insert key => some (s.insert key).2
  | .remove key => some (s.remove key).2
  | .replaceColumn column keys => s.replaceColumn column keys
  | .retire => some s.retire
  | .clear => some s.clear

def SetOp.run (ops : List SetOp) : Option ColumnSubChunkSet :=
  ops.foldlM SetOp.apply s

section Columns

variable {key other : SubChunkKey} {keys : List SubChunkKey}

lemma insertSection_perm (key : SubChunkKey) (keys : List SubChunkKey) : (insertSection key keys).Perm (key::keys) := by
  induction keys with
  | nil => exact .refl _
  | cons first rest ih =>
    unfold insertSection
    split
    · exact .refl _
    · exact (ih.cons first).trans (.swap _ _ _)

abbrev Ascending (keys : List SubChunkKey) : Prop := keys.Pairwise fun a b=>a.y<b.y

lemma insertSection_ascending (h : Ascending keys) (hnew : ∀ other ∈ keys, other.y≠key.y) :
    Ascending (insertSection key keys) := by
  induction keys with
  | nil => exact pairwise_singleton _ _
  | cons first rest ih =>
    obtain ⟨hfirst,hrest⟩ := pairwise_cons.1 h
    unfold insertSection
    split
    next hlt =>
      refine pairwise_cons.2 ⟨fun other hother=>?_,h⟩
      rcases mem_cons.1 hother with rfl | hother
      · exact hlt
      · exact hlt.trans (hfirst other hother)
    next hle =>
      have hne := hnew first (.head _)
      refine pairwise_cons.2 ⟨fun other hother=>?_,ih hrest fun other hother =>
        hnew other (.tail _ hother)⟩
      rcases mem_cons.1 ((insertSection_perm key _).mem_iff.1 hother) with rfl | hother
      · omega
      · exact hfirst other hother

lemma Ascending.nodup (h : Ascending keys) : keys.Nodup :=
  h.imp fun hlt heq=>hlt.ne (congrArg SubChunkKey.y heq)

/-- Keys of one column are told apart by their heights. -/
lemma eq_of_y (hchunk : key.chunk=other.chunk) (hy : key.y=other.y) : key=other := by
  rw [← SubChunkKey.fromChunk_chunk key,← SubChunkKey.fromChunk_chunk other,hchunk,hy]

lemma replacement_ascending {column : ChunkKey} (h : ∀ key ∈ keys, key.chunk=column) :
    Ascending (keys.insertionSort (· ≤ ·)).dedup := by
  have hsorted : ((keys.insertionSort (· ≤ ·)).dedup).Pairwise (· ≤ ·) :=
    (pairwise_insertionSort _ keys).sublist (dedup_sublist _)
  have hnodup : ((keys.insertionSort (· ≤ ·)).dedup).Pairwise (· ≠ ·) := nodup_dedup _
  refine (hsorted.and hnodup).imp_of_mem fun {a b} ha hb hab=>?_
  have hchunk : ∀ key ∈ (keys.insertionSort (· ≤ ·)).dedup, key.chunk=column := by
    intro key hkey
    rw [mem_dedup,mem_insertionSort] at hkey
    exact h key hkey
  have hsame : a.chunk=b.chunk := (hchunk a ha).trans (hchunk b hb).symm
  by_contra hge
  refine hab.2 (hab.1.antisymm ?_)
  obtain ⟨dimension,x,y,z⟩ := a
  obtain ⟨rfl,rfl,rfl⟩ := hsame
  rcases (not_lt.1 hge).lt_or_eq with hlt | rfl
  · exact (Prod.Lex.toLex_le_toLex.2 (.inr ⟨rfl,Prod.Lex.toLex_le_toLex.2 (.inr ⟨rfl,
      Prod.Lex.toLex_le_toLex.2 (.inl hlt)⟩)⟩))
  · exact le_refl _

end Columns

end Cinnabar.Residency
