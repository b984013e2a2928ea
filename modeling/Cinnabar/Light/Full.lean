import Cinnabar.Light.Solve

/-! # The full solve -/

namespace Cinnabar.Light

open Function

/-- Filter of a padded cell light never enters: outside the bounds, or an unknown block. -/
def blocked : ℕ := 255

/-- The padded grid's shape: in-bounds extents and the index steps along each axis. -/
structure Grid where
  xLen : ℕ
  yLen : ℕ
  zLen : ℕ
  xStep : ℕ
  yStep : ℕ

namespace Grid

def new (bounds : LightBounds) : Grid where
  xLen := bounds.xLen
  yLen := bounds.yLen
  zLen := bounds.zLen
  xStep := (bounds.yLen+2) * (bounds.zLen+2)
  yStep := bounds.zLen+2

variable (b : LightBounds)

@[simp] lemma new_xLen : (new b).xLen=b.xLen := rfl
@[simp] lemma new_yLen : (new b).yLen=b.yLen := rfl
@[simp] lemma new_zLen : (new b).zLen=b.zLen := rfl

variable (g : Grid)

/-- The padded index of in-bounds cell `[x, y, z]`, counted from the bounds' minimum. -/
def index (x y z : ℕ) : ℕ := (x+1) * g.xStep + (y+1) * g.yStep+z+1

/-- The world position of in-bounds cell `[x, y, z]`. -/
def position (bounds : LightBounds) (x y z : ℕ) : BlockPos :=
  ⟨bounds.min.x+x,bounds.min.y+y,bounds.min.z+z⟩

/-- Index offsets to the six face neighbours. -/
def steps (d : Fin 6) : ℤ :=
  ![-(g.xStep : ℤ),g.xStep,-(g.yStep : ℤ),g.yStep,-1,1] d

/-- `cell.wrapping_add_signed(step)`, which never wraps from an in-bounds cell. -/
def next (cell : ℕ) (d : Fin 6) : ℕ := (cell+g.steps d).toNat

/-- In-bounds cells row by row. -/
def cells : List ℕ :=
  (List.range g.xLen).flatMap fun x=>(List.range g.yLen).flatMap fun y =>
    (List.range g.zLen).map fun z=>g.index x y 0+z

end Grid

/-- Worker-local grids, reset before each solve. -/
structure FullSolveScratch where
  filter : ℕ → ℕ := fun _=>blocked
  block : ℕ → ℕ := fun _=>0
  sky : ℕ → ℕ := fun _=>0
  direct : ℕ → Bool := fun _=>false
  /-- Per column of the top face: trusted direct sky enters it from above. -/
  directAbove : ℕ → Bool := fun _=>false

section
variable (blocks : LightBlockAccess) (prior : LightReadAccess) (bounds : LightBounds) (grid : Grid)
  (profile : DimensionLightProfile) (limits : SolverLimits)

def sectionedCells : List (SubChunkKey × BlockPos) :=
  (MutableOutput.sectionKeys bounds).flatMap fun key =>
    (MutableOutput.sectionCells bounds key).map fun p=>(key,p)

/-- One cell's sample, through its section's whole read where the source has one. -/
def sectionSample (key : SubChunkKey) (p : BlockPos) : LightBlockSample :=
  let origin := MutableOutput.sectionOrigin key
  match blocks.sampleSection key with
  | some out =>
    out (sectionIndex (p.x-origin.x).toNat (p.y-origin.y).toNat (p.z-origin.z).toNat)
  | none => blocks.sample p

variable (full : FullSolveScratch)

def readBlock (cell : SubChunkKey × BlockPos) :
    Except Halt FullSolveScratch :=
  let (key,p) := cell
  let sample := sectionSample blocks key p
  match sample.filter with
  | none => .ok full
  | some filter =>
    let cell := grid.index (p.x-bounds.min.x).toNat (p.y-bounds.min.y).toNat (p.z-bounds.min.z).toNat
    let full := { full with
      filter := update full.filter cell filter
      block := update full.block cell sample.emission }
    let seed := blocks.skySeed p
    if seed > 15 then .error (.error (.lightValueOutOfRange seed))
    else if profile.allowsSky then
      .ok { full with sky := update full.sky cell (seed-filter) }
    else .ok full

/-- Copies each known cell's filter, emission and sky seed less its filter into the grid. -/
def readBlocks : Except Halt FullSolveScratch :=
  (sectionedCells bounds).foldlM (readBlock blocks bounds grid profile) full

variable (d : Fin 6)

/-- The in-bounds offsets of the face in direction `d`. -/
def faceCells : List (ℕ × ℕ × ℕ) :=
  let (xs,ys,zs) := match d with
    | 0 => ([0],List.range grid.yLen,List.range grid.zLen)
    | 1 => ([grid.xLen-1],List.range grid.yLen,List.range grid.zLen)
    | 2 => (List.range grid.xLen,[0],List.range grid.zLen)
    | 3 => (List.range grid.xLen,[grid.yLen-1],List.range grid.zLen)
    | 4 => (List.range grid.xLen,List.range grid.yLen,[0])
    | 5 => (List.range grid.xLen,List.range grid.yLen,[grid.zLen-1])
  xs.flatMap fun x=>ys.flatMap fun y=>zs.map fun z=>(x,y,z)

def seedHaloChannel (x z cell filter : ℕ) (neighbour : BlockPos)
    (full : FullSolveScratch) (c : LightChannel) : FullSolveScratch :=
  if c = .sky ∧ profile.allowsSky=false then full
  else
    match (prior.boundaryLight bounds.dimension neighbour c).trustedParts with
    | none => full
    | some (level,direct) =>
      if level=0 then full
      else
        let incoming := level-max filter 1
        match c with
        | .block =>
          { full with block := update full.block cell (max (full.block cell) incoming) }
        | .sky =>
          let full := { full with sky := update full.sky cell (max (full.sky cell) incoming) }
          if d=3 ∧ profile.directSkyDown=true ∧ level=15 ∧ direct=true ∧ filter=0 then
            { full with directAbove := update full.directAbove (x*grid.zLen+z) true }
          else full

def seedHaloCell (full : FullSolveScratch) (cell : ℕ × ℕ × ℕ) : FullSolveScratch :=
  let (x,y,z) := cell
  let cell := grid.index x y z
  let filter := full.filter cell
  if filter=blocked then full
  else
    match (Grid.position bounds x y z).checkedOffset (neighbours d) with
    | none => full
    | some neighbour =>
      if !blocks.isKnown neighbour then full
      else channels.foldl (seedHaloChannel prior bounds grid profile d x z cell filter neighbour) full

/-- Raises each face cell to the light its trusted halo neighbours send in, recording the top
face's columns that direct sky enters from above. -/
def seedHalo : FullSolveScratch :=
  directions.foldl (fun full d =>
    (faceCells grid d).foldl (seedHaloCell blocks prior bounds grid profile d) full) full

/-- One cell of a column's top-down pass; the flag says direct sky enters from above. -/
def fillCell (x z : ℕ) (st : Bool × FullSolveScratch) (y : ℕ) : Bool × FullSolveScratch :=
  let (litFromAbove,full) := st
  let cell := grid.index x y z
  let direct := decide (full.filter cell=0) && (litFromAbove || decide (full.sky cell=15))
  let full := if direct then
      { full with
        sky := update full.sky cell 15
        direct := update full.direct cell true }
    else full
  (direct,full)

def fillColumn (column : ℕ × ℕ) : FullSolveScratch :=
  let (x,z) := column
  ((List.range grid.yLen).reverse.foldl (fillCell grid x z) (full.directAbove (x*grid.zLen+z),full)).2

def fillDirectSky : FullSolveScratch :=
  ((List.range grid.xLen).flatMap fun x=>(List.range grid.zLen).map fun z=>(x,z)).foldl (fillColumn grid) full

/-- Locals of one channel's spread; the head of a bucket is its last entry. -/
structure Spread where
  values : ℕ → ℕ
  buckets : ℕ → List ℕ
  pending : ℕ
  queuedTotal : ℕ
  stats : LightSolveStats

def Spread.push (st : Spread) (level cell : ℕ) : Spread :=
  { st with
    buckets := update st.buckets level (asU32 cell::st.buckets level)
    pending := st.pending+1 }

variable (filter : ℕ → ℕ)

/-- Queues a lit cell that can raise a neighbour. -/
def seedCell (st : Spread) (cell : ℕ) : Except Halt Spread :=
  let level := st.values cell
  if level > 1 ∧ filter cell≠blocked ∧ directions.any (fun d =>
      let next := grid.next cell d
      decide (filter next≠blocked ∧ level-max (filter next) 1 > st.values next)) = true then do
    let queuedTotal ← enqueueCounted st.queuedTotal 1 limits.maxQueueEntries
    return ({ st with queuedTotal := queuedTotal }).push level cell
  else .ok st

/-- Raises one neighbour of a popped cell. -/
def spreadNext (level cell : ℕ) (st : Spread) (d : Fin 6) : Except Halt Spread :=
  let next := grid.next cell d
  let nextFilter := filter next
  if nextFilter=blocked then .ok st
  else
    let candidate := level-max nextFilter 1
    if candidate > st.values next then
      let st := { st with values := update st.values next candidate }
      if candidate > 1 then do
        let queuedTotal ← enqueueCounted st.queuedTotal 1 limits.maxQueueEntries
        let st := ({ st with queuedTotal := queuedTotal }).push candidate next
        return { st with stats := { st.stats with queuePeak := max st.stats.queuePeak st.pending } }
      else .ok st
    else .ok st

def Spread.pop (level : ℕ) (st : Spread) : Option (ℕ × Spread) :=
  match st.buckets level with
  | [] => none
  | cell::rest =>
    some (cell,{ st with
      buckets := update st.buckets level rest
      pending := st.pending-1 })

/-- Spreads a cell popped at `level`, unless it has risen since it was queued. -/
def spreadCell (level cell : ℕ) (st : Spread) : Except Halt Spread :=
  if st.values cell≠level then .ok st
  else
    let st := { st with stats := { st.stats with increaseDequeued := st.stats.increaseDequeued+1 } }
    directions.foldlM (spreadNext grid limits filter level cell) st

def spreadLevels : List ℕ := [15,14,13,12,11,10,9,8,7,6,5,4,3,2]

/-- Spreads `values` from every lit cell through open neighbours until no cell can rise. A level's
own bucket takes no entry while it drains. -/
def spread (values : ℕ → ℕ) (buckets : ℕ → List ℕ) (queuedTotal : ℕ) (stats : LightSolveStats) :
    Except Halt Spread := do
  let cleared := fun level=>(buckets level).take 0
  let st ← grid.cells.foldlM (seedCell grid limits filter) ⟨values,cleared,0,queuedTotal,stats⟩
  let st := { st with stats := { st.stats with queuePeak := max st.stats.queuePeak st.pending } }
  spreadLevels.foldlM (fun st level =>
    drain (Spread.pop level) (spreadCell grid limits filter level) .unfinished (st.buckets level).length st) st

def spreadChannels (buckets : ℕ → List ℕ) :
    Except Halt (FullSolveScratch × LightSolveStats) := do
  let block ← spread grid limits full.filter full.block buckets 0 {}
  let full := { full with block := block.values }
  if profile.allowsSky then do
    let sky ← spread grid limits full.filter full.sky block.buckets block.queuedTotal block.stats
    return ({ full with sky := sky.values },sky.stats)
  else return (full,block.stats)

def writeCell (st : MutableOutput × DensePositionSet)
    (entry : ℕ × ℕ) : MutableOutput × DensePositionSet :=
  let (output,directSky) := st
  let (cell,dense) := entry
  if full.filter cell≠blocked then
    let output := output.setAtIndex dense .block (full.block cell)
    let output := output.setAtIndex dense .sky (full.sky cell)
    (output,if full.direct cell then directSky.insertAtIndex dense else directSky)
  else st

end

/-- Solves `bounds` from `blocks` and the trusted halo of `prior`, ignoring `prior`'s interior
light. -/
def solveLightFullWithScratch (blocks : LightBlockAccess) (prior : LightReadAccess)
    (bounds : LightBounds) (generation : ℕ) (profile : DimensionLightProfile)
    (limits : SolverLimits) (scratch : LightSolverScratch) : Except Halt LightSolveOutput := do
  let _ ← checkedVolume bounds limits
  let grid := Grid.new bounds
  let full ← readBlocks blocks bounds grid profile {}
  let full := seedHalo blocks prior bounds grid profile full
  let full := if profile.directSkyDown then fillDirectSky grid full else full
  let (full,stats) ← spreadChannels grid profile limits full scratch.buckets
  let (output,directSky) := grid.cells.zipIdx.foldl (writeCell full) (.new bounds generation,.new bounds)
  output.freeze directSky stats

end Cinnabar.Light
