import Cinnabar.FarTerrain.Regions
import Cinnabar.Library.Entries

/-! # The region files of the far-terrain cache

A file is merged into, read, moved between namespaces and evicted by recency.
-/

namespace Cinnabar.FarTerrain

open List

structure NamespaceKey where
  server : Bytes
  dimension : ℤ
  level : ℕ
  epoch : ℕ
  resources : Bytes
deriving DecidableEq

structure ColumnPos where
  x : ℤ
  z : ℤ

structure RegionPos where
  x : ℤ
  z : ℤ
deriving DecidableEq

namespace RegionPos

def side : ℤ := 32

def of (column : ColumnPos) : RegionPos := ⟨column.x/side,column.z/side⟩

def column (region : RegionPos) (index : ℕ) : ColumnPos :=
  ⟨region.x*side+index%side,region.z*side+index/side⟩

end RegionPos

structure DiskBounds where
  serverCapBytes : ℕ
  globalCapBytes : ℕ

abbrev RegionFile : Type := (NamespaceKey × RegionPos) × Bytes

/-- Files in the order of their last use. -/
abbrev Files : Type := Entries (NamespaceKey × RegionPos) Bytes

def fileBytes (files : List RegionFile) : ℕ := (files.map fun file=>file.2.length).sum

def onServer (server : Bytes) (files : List RegionFile) : List RegionFile :=
  files.filter fun file=>file.1.1.server=server

/-- The files the loop of `enforce_caps` keeps. -/
def sweep (bounds : DiskBounds) (perServer : Bytes → ℕ) (total : ℕ) : List RegionFile → List RegionFile
  | [] => []
  | file::rest =>
    if perServer file.1.1.server≤bounds.serverCapBytes ∧ total≤bounds.globalCapBytes then
      file::sweep bounds perServer total rest
    else
      sweep bounds (Function.update perServer file.1.1.server (perServer file.1.1.server-file.2.length))
        (total-file.2.length) rest

variable {bounds : DiskBounds} {perServer : Bytes → ℕ} {total : ℕ} {server : Bytes} {files files' : List RegionFile}

lemma sweep_sublist (bounds : DiskBounds) (perServer : Bytes → ℕ) (total : ℕ) (files : List RegionFile) :
    (sweep bounds perServer total files).Sublist files := by
  induction files generalizing perServer total with
  | nil => exact .slnil
  | cons file rest ih =>
    rw [sweep]
    split_ifs
    · exact (ih _ _).cons_cons _
    · exact (ih _ _).cons _

namespace Files

def read (files : Files) (key : NamespaceKey × RegionPos) : List RegionColumn := kept ((files.find key).getD [])

def enforceCaps (bounds : DiskBounds) (files : Files) : Files where
  toList := sweep bounds (fun server=>fileBytes (onServer server files.toList)) (fileBytes files.toList) files.toList
  nodup := files.nodup.sublist ((sweep_sublist _ _ _ _).map _)

def write (bounds : DiskBounds) (files : Files) (key : NamespaceKey × RegionPos) (columns : List RegionColumn) : Files :=
  enforceCaps bounds (files.insert key (merge ((files.find key).getD []) columns))

def load (files : Files) (key : NamespaceKey × RegionPos) : Files × List (ColumnPos × Versioned) :=
  match files.find key with
  | none => (files,[])
  | some bytes =>
    match decodeRegion bytes with
    | some columns => (files.insert key bytes,columns.map fun column=>(key.2.column column.1,column.2))
    | none => (files.erase key,[])

/-- A turn of the loop of `move_newer`. -/
def moveRegion (bounds : DiskBounds) (files : Files) (origin target : NamespaceKey) (since : UInt64)
    (region : RegionPos) : Files :=
  match (files.find (origin,region)).bind decodeRegion with
  | none => files
  | some columns =>
    let (moved,kept) := columns.partition fun column=>since ≤ column.2.version
    if moved = [] then files
    else
      write bounds (if kept = [] then files.erase (origin,region) else files.insert (origin,region) (encodeRegion kept))
        (target,region) moved

/-- Columns that can be stored. -/
abbrev Batch : Type := { columns : List RegionColumn // ∀ column ∈ columns, Fits column }

/-- What a command of the worker does to the files, one or more of these in a row. -/
inductive Op where
  | write (key : NamespaceKey × RegionPos) (batch : Batch)
  | load (key : NamespaceKey × RegionPos)
  | moveRegion (origin target : NamespaceKey) (since : UInt64) (region : RegionPos)

def step (bounds : DiskBounds) (files : Files) : Op → Files
  | .write key batch => files.write bounds key batch.1
  | .load key => (files.load key).1
  | .moveRegion origin target since region => files.moveRegion bounds origin target since region

def run (bounds : DiskBounds) (files : Files) (ops : List Op) : Files := ops.foldl (step bounds) files

variable {files files' : Files} {key : NamespaceKey × RegionPos} {columns : List RegionColumn} {op : Op}

/-- Eviction forgets whole files and leaves the others as they were. -/
lemma find_enforceCaps (hmem : key ∈ (files.enforceCaps bounds).keys) :
    (files.enforceCaps bounds).find key=files.find key := by
  obtain ⟨⟨key,bytes⟩,hfile,rfl⟩ := mem_map.1 hmem
  exact (Entries.find_eq_some.2 hfile).trans (Entries.find_eq_some.2 ((sweep_sublist _ _ _ _).subset hfile)).symm

lemma mem_keys_of_read {column : RegionColumn} (h : column ∈ files.read key) : key ∈ files.keys := by
  by_contra habsent
  rw [read,Entries.find_eq_none.2 habsent] at h
  cases h

lemma read_write (h : ∀ column ∈ columns, Fits column) {other : NamespaceKey × RegionPos}
    (hmem : other ∈ (files.write bounds key columns).keys) : (files.write bounds key columns).read other=
      if other=key then (latest (files.read key++columns)).toList else files.read other := by
  unfold read
  rw [write,find_enforceCaps hmem,Entries.find_insert]
  split_ifs
  · rw [Option.getD_some,merge,kept,decode_encode (forall_mem_append.2 ⟨fits_kept _,h⟩)]
    rfl
  · rfl

/-- Every stored summary is one of those written in its region. -/
def Knows (written : Set (RegionPos × RegionColumn)) (files : Files) : Prop :=
  ∀ key, ∀ column ∈ files.read key, (key.2,column) ∈ written

variable {written : Set (RegionPos × RegionColumn)}

lemma Knows.write (h : files.Knows written) (hfits : ∀ column ∈ columns, Fits column)
    (hcolumns : ∀ column ∈ columns, (key.2,column) ∈ written) : (files.write bounds key columns).Knows written := by
  intro other column hmem
  rw [read_write hfits (mem_keys_of_read hmem)] at hmem
  split_ifs at hmem with heq
  · rw [heq]
    exact (mem_append.1 (mem_latest.1 hmem).mem.1).elim (h key _) (hcolumns _)
  · exact h other _ hmem

lemma Knows.erase (h : files.Knows written) : Knows written (files.erase key) := by
  intro other column hmem
  rw [read,Entries.find_erase] at hmem
  split_ifs at hmem
  · cases hmem
  · exact h other _ hmem

lemma Knows.insert (h : files.Knows written) {bytes : Bytes} (hbytes : kept bytes ⊆ files.read key) :
    Knows written (files.insert key bytes) := by
  intro other column hmem
  rw [read,Entries.find_insert] at hmem
  split_ifs at hmem with heq
  · exact heq ▸ h key _ (hbytes hmem)
  · exact h other _ hmem

/-- The summaries an operation is given. -/
def Op.given : Op → Set (RegionPos × RegionColumn)
  | .write key batch => { entry | entry.1=key.2 ∧ entry.2 ∈ batch.1 }
  | _ => ∅

lemma Knows.step (h : files.Knows written) (hop : op.given ⊆ written) : (files.step bounds op).Knows written := by
  cases op with
  | write key batch => exact h.write batch.2 fun _ hmem=>hop ⟨rfl,hmem⟩
  | load key =>
    change Knows written (files.load key).1
    unfold load
    cases hfind : files.find key with
    | none => exact h
    | some bytes =>
      dsimp only
      cases decodeRegion bytes with
      | none => exact h.erase
      | some columns => exact h.insert (by rw [read,hfind]; exact Subset.refl _)
  | moveRegion origin target since region =>
    change Knows written (files.moveRegion bounds origin target since region)
    unfold moveRegion
    cases hdecode : (files.find (origin,region)).bind decodeRegion with
    | none => exact h
    | some columns =>
      obtain ⟨bytes,hfind,hbytes⟩ := Option.bind_eq_some_iff.1 hdecode
      have hread : files.read (origin,region)=columns := by
        rw [read,hfind,Option.getD_some,kept,hbytes]
        rfl
      have hfits := (decodeRegion_eq_some.1 hbytes).2.1
      simp only [partition_eq_filter_filter]
      split_ifs
      · exact h
      all_goals
        refine Knows.write ?_ (fun column hmem=>hfits column (mem_of_mem_filter hmem)) fun column hmem =>
          h (origin,region) column (hread ▸ mem_of_mem_filter hmem)
      · exact h.erase
      · refine h.insert fun column hmem=>?_
        rw [kept,decode_encode fun column hmem=>hfits column (mem_of_mem_filter hmem)] at hmem
        exact hread ▸ mem_of_mem_filter (mem_latest.1 hmem).mem.1

end Files

end Cinnabar.FarTerrain
