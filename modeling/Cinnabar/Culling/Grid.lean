import Cinnabar.Culling.VisibleSet

/-! # The connectivity grid -/

namespace Cinnabar.Culling

def initialXzBits : ℕ := 5
def initialYBits : ℕ := 5

/-- Growth stops at 2^20 cells; anything beyond stays in the overflow map. -/
def maxCellBits : ℕ := 20

def maxChanges : ℕ := 4096

/-- A graph change retained for incremental traversals within one slot layout. -/
inductive GraphChange where
  /-- The key joined the graph, or its matrix gained connections. -/
  | opened (key : SectionKey)
  /-- A matrix lost connections, so reachability can only have shrunk. -/
  | narrowed
  /-- The key left the graph, from this cell when it occupied one. -/
  | removed (key : SectionKey) (cell : Option ℕ)
  /-- An overflow key moved into its emptied home cell. -/
  | promoted (key : SectionKey) (cell : ℕ)

/-- The latest graph changes, dropping the oldest past `maxChanges`. -/
structure ChangeJournal where
  changes : List GraphChange
  /-- Changes dropped from the front since the layout last changed. -/
  start : ℕ

namespace ChangeJournal

def new : ChangeJournal := ⟨[],0⟩

variable (journal : ChangeJournal)

def record (change : GraphChange) : ChangeJournal :=
  if journal.changes.length=maxChanges then
    ⟨journal.changes.drop 1 ++ [change],journal.start+1⟩
  else ⟨journal.changes ++ [change],journal.start⟩

def finish : ℕ := journal.start+journal.changes.length

end ChangeJournal

structure Cell where
  key : SectionKey
  value : FaceConnectivity

abbrev Overflow := Finmap fun _ : SectionKey=>FaceConnectivity

/-- Where a key lives: its home cell, or the overflow map after a toroidal collision. -/
inductive Slot where
  | cell (index : ℕ) (value : FaceConnectivity)
  | overflow (value : FaceConnectivity)
  | missing

structure VisitOrder where
  list : Finset SectionKey → List SectionKey
  nodup : ∀ keys, (list keys).Nodup
  mem : ∀ keys key, key ∈ list keys ↔ key ∈ keys

structure ConnectivityGrid where
  xzBits : ℕ
  yBits : ℕ
  /-- The layout the first insertion allocates, at least the initial one. -/
  reserved : ℕ × ℕ
  /-- Whether the cells are allocated. -/
  allocated : Bool
  /-- An empty cell is `none`. -/
  cells : ℕ → Option Cell
  overflow : Overflow
  /-- Orders overflow keys by home cell. -/
  overflowHomes : Finset (ℕ ×ₗ SectionKey)
  len : ℕ
  identity : ℕ
  epoch : ℕ
  journal : ChangeJournal

namespace ConnectivityGrid

def new (number : ℕ) : ConnectivityGrid where
  xzBits := 0
  yBits := 0
  reserved := (initialXzBits,initialYBits)
  allocated := false
  cells := fun _=>none
  overflow := ∅
  overflowHomes := ∅
  len := 0
  identity := number+1
  epoch := 0
  journal := ChangeJournal.new

variable (grid : ConnectivityGrid)

def cellCount : ℕ :=
  if grid.allocated then 2 ^ (2*grid.xzBits+grid.yBits) else 0

def dims : ℕ × ℕ := (grid.xzBits,grid.yBits)

def index (key : SectionKey) : ℕ :=
  cellIndex grid.xzBits grid.yBits key.1

/-- Identifies this graph, its slot layout and the retained change history. -/
def checkpoint : ℕ × ℕ × ℕ :=
  (grid.identity,grid.epoch,grid.journal.finish)

def changesSince (offset : ℕ) : List GraphChange :=
  grid.journal.changes.drop (offset-grid.journal.start)

/-- Slow readers rebuild only when their changes have left the bounded journal. -/
def retainsChanges (offset : ℕ) : Bool :=
  grid.journal.start≤offset && offset≤grid.journal.finish

def slot (key : SectionKey) : Slot :=
  if !grid.allocated then .missing
  else match grid.cells (grid.index key) with
    | none => .missing
    | some cell =>
      if cell.key=key then .cell (grid.index key) cell.value
      else match grid.overflow.lookup key with
        | none => .missing
        | some value => .overflow value

def get (key : SectionKey) : Option FaceConnectivity :=
  match grid.slot key with
  | .cell _ value => some value
  | .overflow value => some value
  | .missing => none

def containsKey (key : SectionKey) : Bool :=
  match grid.slot key with
  | .missing => false
  | _ => true

def keys (order : VisitOrder) : List SectionKey :=
  (List.range grid.cellCount).filterMap (fun index=>(grid.cells index).map Cell.key) ++ order.list grid.overflow.keys

def record (change : GraphChange) : ConnectivityGrid :=
  { grid with journal := grid.journal.record change }

/-- Retires incremental readers after a slot-layout change renumbers every cell. -/
def invalidateTraversals : ConnectivityGrid :=
  { grid with epoch := (grid.epoch+1) % 2^64, journal := ChangeJournal.new }

def reset (xzBits yBits : ℕ) : ConnectivityGrid :=
  { grid.invalidateTraversals with
    xzBits := xzBits
    yBits := yBits
    allocated := true
    cells := fun _=>none
    overflow := ∅
    overflowHomes := ∅ }

def setCell (index : ℕ) (cell : Option Cell) : ConnectivityGrid :=
  { grid with cells := Function.update grid.cells index cell }

/-- Stores a colliding key and, when it is new, its home. -/
def insertOverflow (key : SectionKey) (value : FaceConnectivity) :
    ConnectivityGrid :=
  { grid with
    overflow := grid.overflow.insert key value
    overflowHomes :=
      if (grid.overflow.lookup key).isNone then
        insert (toLex (grid.index key,key)) grid.overflowHomes
      else grid.overflowHomes }

def place (key : SectionKey) (value : FaceConnectivity) :
    Option FaceConnectivity × ConnectivityGrid :=
  let index := grid.index key
  match grid.cells index with
  | none => (none,grid.setCell index (some ⟨key,value⟩))
  | some cell =>
    if cell.key=key then (some cell.value,grid.setCell index (some ⟨key,value⟩))
    else (grid.overflow.lookup key,grid.insertOverflow key value)

/-- Re-places every key under a new slot layout, which retires incremental readers. -/
def relayout (xzBits yBits : ℕ) (order : VisitOrder) :
    ConnectivityGrid :=
  let entries := (List.range grid.cellCount).filterMap
      (fun index=>(grid.cells index).map fun cell=>(cell.key,cell.value)) ++
    (order.list grid.overflow.keys).filterMap fun key=>(grid.overflow.lookup key).map fun value=>(key,value)
  entries.foldl (fun grid entry=>(grid.place entry.1 entry.2).2) (grid.reset xzBits yBits)

def occupant (key : SectionKey) : SubChunkKey :=
  ((grid.cells (grid.index key)).map fun cell=>cell.key.1).getD ⟨0,0,0,0⟩

/-- Doubles the axis most overflow keys collide on, while the cell budget allows. -/
def grow (order : VisitOrder) : ConnectivityGrid :=
  if maxCellBits≤2*grid.xzBits+grid.yBits then grid
  else
    let apart := fun key : SectionKey =>
      (grid.occupant key).x≠key.1.x ∨ (grid.occupant key).z≠key.1.z
    let horizontal := (grid.overflow.keys.filter apart).card
    let vertical := (grid.overflow.keys.filter fun key =>
      ¬apart key ∧ (grid.occupant key).y≠key.1.y).card
    if vertical≤horizontal ∧ 0<horizontal then
      if maxCellBits<2 * (grid.xzBits+1) + grid.yBits then grid
      else grid.relayout (grid.xzBits+1) grid.yBits order
    else if 0<vertical then
      if maxCellBits<2*grid.xzBits + (grid.yBits+1) then grid
      else grid.relayout grid.xzBits (grid.yBits+1) order
    else grid

/-- `extent.max(1).next_power_of_two().trailing_zeros()` -/
def extentBits (extent : ℕ) : ℕ := Nat.clog 2 (max extent 1)

/-- Lays the grid out once for a view `radius` chunks around its centre and `height` sections
tall, within the cell budget. -/
def reserveView (radius height : ℕ) (order : VisitOrder) :
    ConnectivityGrid :=
  let yBits := max (extentBits height) grid.reserved.2
  let xzBits := min (max (extentBits (min (radius*2) u32Max)) grid.reserved.1) ((maxCellBits-yBits) / 2)
  if xzBits<grid.reserved.1 then grid
  else
    let reserved := { grid with reserved := (xzBits,yBits) }
    let layout := (max xzBits grid.xzBits,max yBits grid.yBits)
    if grid.allocated ∧ layout ≠ (grid.xzBits,grid.yBits) ∧ 2*layout.1+layout.2 ≤ maxCellBits then
      reserved.relayout layout.1 layout.2 order
    else reserved

def insert (key : SectionKey) (value : FaceConnectivity)
    (order : VisitOrder) : Option FaceConnectivity × ConnectivityGrid :=
  let grid := if grid.allocated then grid else grid.reset grid.reserved.1 grid.reserved.2
  let placed := grid.place key value
  match placed.1 with
  | none =>
    let counted : ConnectivityGrid := { placed.2 with len := placed.2.len+1 }
    let grown : ConnectivityGrid := if max 64 (counted.len/16) < counted.overflow.keys.card then counted.grow order
      else counted
    (none,grown.record (.opened key))
  | some previous =>
    let narrowed := if previous.connected ⊆ value.connected then placed.2 else placed.2.record .narrowed
    (some previous, if value.connected ⊆ previous.connected then narrowed else narrowed.record (.opened key))

def removeOverflow (key : SectionKey) :
    Option FaceConnectivity × ConnectivityGrid :=
  match grid.overflow.lookup key with
  | none => (none,grid)
  | some value =>
    (some value,
      { grid with
        overflow := grid.overflow.erase key
        overflowHomes := grid.overflowHomes.erase (toLex (grid.index key,key)) })

def firstHome (index : ℕ) : Option SectionKey :=
  match (grid.overflowHomes.filter fun entry=>index ≤ (ofLex entry).1).min with
  | ⊤ => none
  | (entry : ℕ ×ₗ SectionKey) =>
    if (ofLex entry).1=index then some (ofLex entry).2 else none

def promote (key : SectionKey) (index : ℕ) : ConnectivityGrid :=
  match grid.removeOverflow key with
  | (none,_) => grid
  | (some value,rest) =>
    (rest.setCell index (some ⟨key,value⟩)).record (.promoted key index)

/-- Restores an empty cell with one matching overflow key. -/
def promoteInto (index : ℕ) : ConnectivityGrid :=
  match grid.firstHome index with
  | none => grid
  | some key => grid.promote key index

def remove (key : SectionKey) :
    Option FaceConnectivity × ConnectivityGrid :=
  if !grid.allocated then (none,grid)
  else
    let index := grid.index key
    let out := match grid.cells index with
      | none => (none,grid)
      | some cell =>
        if cell.key=key then
          (some cell.value, ((grid.setCell index none).record (.removed key (some index))).promoteInto index)
        else
          let removed := grid.removeOverflow key
          (removed.1, if removed.1.isSome then removed.2.record (.removed key none) else removed.2)
    (out.1,{ out.2 with len := out.2.len - if out.1.isSome then 1 else 0 })

variable (keep : SectionKey → Bool)

/-- `retain` over the overflow map. -/
def retainOverflow (grid : ConnectivityGrid) (key : SectionKey) :
    ConnectivityGrid :=
  if keep key then grid
  else { grid with overflow := grid.overflow.erase key }.record (.removed key none)

/-- `retain` over the cells. -/
def retainCell (grid : ConnectivityGrid) (index : ℕ) :
    ConnectivityGrid :=
  match grid.cells index with
  | none => grid
  | some cell =>
    if keep cell.key then { grid with len := grid.len+1 }
    else (grid.record (.removed cell.key (some index))).setCell index none

/-- Several overflow keys can share one emptied home; the first one moves in. -/
def rehome (key : SectionKey) : ConnectivityGrid :=
  if (grid.cells (grid.index key)).isSome then grid else grid.promote key (grid.index key)

def retain (order : VisitOrder) :
    ConnectivityGrid :=
  let kept := (order.list grid.overflow.keys).foldl (retainOverflow keep) grid
  let indexed := { kept with
    overflowHomes := kept.overflowHomes.filter fun entry=>(ofLex entry).2 ∈ kept.overflow
    len := kept.overflow.keys.card }
  let swept := (List.range indexed.cellCount).foldl (retainCell keep) indexed
  let homeless := (order.list swept.overflow.keys).filter fun key =>
    (swept.cells (swept.index key)).isNone
  homeless.foldl rehome swept

end ConnectivityGrid

end Cinnabar.Culling
