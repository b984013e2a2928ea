import Cinnabar.Light.Output
import Cinnabar.Light.Queue

/-! # The incremental solve -/

namespace Cinnabar.Light

structure DarkenEntry where
  position : BlockPos
  channel : LightChannel
  oldLevel : ℕ
  directSky : Bool

/-- The buffers a solve can find non-empty. Every other buffer of a worker is emptied and refilled
before it is read. -/
structure LightSolverScratch where
  darken : List DarkenEntry
  blockIncrease : IncreaseQueue
  skyIncrease : IncreaseQueue
  buckets : ℕ → List ℕ

/-- `LightSolverScratch::default` -/
def LightSolverScratch.default : LightSolverScratch := ⟨[],.empty,.empty,fun _=>[]⟩

/-- The block source with its in-bounds samples and seeds read once, in dense order. -/
structure CachedLightBlockAccess where
  source : LightBlockAccess
  bounds : LightBounds
  yLen : ℕ
  zLen : ℕ
  samples : List LightBlockSample
  skySeeds : List ℕ

namespace CachedLightBlockAccess

def new (source : LightBlockAccess) (bounds : LightBounds) : CachedLightBlockAccess where
  source := source
  bounds := bounds
  yLen := bounds.yLen
  zLen := bounds.zLen
  samples := bounds.positions.map source.sample
  skySeeds := bounds.positions.map source.skySeed

section

variable (blocks : CachedLightBlockAccess)

def index (p : BlockPos) : Option ℕ :=
  lightDenseIndex blocks.bounds blocks.yLen blocks.zLen p

def sampleAtIndex (index : ℕ) : LightBlockSample :=
  blocks.samples[index]?.getD .unknown

def skySeedAtIndex (index : ℕ) : ℕ :=
  blocks.skySeeds[index]?.getD 0

def sample (p : BlockPos) : LightBlockSample :=
  match blocks.index p with
  | none => blocks.source.sample p
  | some index => blocks.sampleAtIndex index

end

end CachedLightBlockAccess

structure CachedLightReadAccess where
  source : LightReadAccess
  bounds : LightBounds

namespace CachedLightReadAccess

section

variable (prior : CachedLightReadAccess)

def readAtIndex (p : BlockPos) (c : LightChannel) : ℕ :=
  prior.source.readLight prior.bounds.dimension p c

def directSkyAtIndex (p : BlockPos) : Bool :=
  prior.source.hasDirectSkyProvenance prior.bounds.dimension p

def boundaryLight (p : BlockPos) (c : LightChannel) :
    BoundaryLightSample :=
  prior.source.boundaryLight prior.bounds.dimension p c

end

end CachedLightReadAccess

/-- Validates a raw prior value at an already mapped interior cell. -/
def readPrior (prior : CachedLightReadAccess) (p : BlockPos) (c : LightChannel) :
    Except Halt ℕ :=
  let value := prior.readAtIndex p c
  if value > 15 then .error (.error (.lightValueOutOfRange value)) else .ok value

/-- Reads local emission and validates sky seeds without remapping an interior cell. -/
def localBase (blocks : CachedLightBlockAccess) (index : ℕ) (c : LightChannel)
    (profile : DimensionLightProfile) : Except Halt ℕ :=
  let sample := blocks.sampleAtIndex index
  match sample.filter with
  | none => .ok 0
  | some filter =>
    match c with
    | .block => .ok sample.emission
    | .sky =>
      let seed := blocks.skySeedAtIndex index
      if seed > 15 then .error (.error (.lightValueOutOfRange seed))
      else .ok (if profile.allowsSky then seed-filter else 0)

def incomingLevel (source destinationFilter : ℕ) (c : LightChannel)
    (profile : DimensionLightProfile) (destinationToSource : Offset)
    (sourceIsDirectSky : Bool) : ℕ :=
  if c = .sky ∧ profile.directSkyDown=true ∧ destinationToSource = (0,1,0) ∧ source=15 ∧
      sourceIsDirectSky=true ∧ destinationFilter=0 then 15
  else source-max destinationFilter 1

/-- Direct sky commonly has its full support immediately above the retained cell. -/
def supportOrder : LightChannel → List (Fin 6)
  | .block => directions
  | .sky => [3,0,1,2,4,5]

section
variable (blocks : CachedLightBlockAccess) (prior : CachedLightReadAccess) (bounds : LightBounds)
  (profile : DimensionLightProfile) (limits : SolverLimits)

/-- The prior level and provenance of a neighbour: interior light, or the trusted halo. -/
def neighbourLight (p : BlockPos) (c : LightChannel) : Except Halt (Option (ℕ × Bool)) :=
  match blocks.index p with
  | some _ => do
    let level ← readPrior prior p c
    return some (level,decide (c = .sky) && prior.directSkyAtIndex p)
  | none => return (prior.boundaryLight p c).trustedParts

/-- The neighbour loop of `prior_supports_level`, stopping at the first sufficient neighbour. -/
def supportedBy (p : BlockPos) (filter : ℕ) (c : LightChannel) (required : ℕ) :
    List (Fin 6) → Except Halt Bool
  | [] => .ok false
  | d::rest =>
    match p.checkedOffset (neighbours d) with
    | none => supportedBy p filter c required rest
    | some neighbour =>
      if (blocks.sample neighbour).filter.isNone then supportedBy p filter c required rest
      else do
        match ← neighbourLight blocks prior neighbour c with
        | none => supportedBy p filter c required rest
        | some (level,directSky) =>
          if incomingLevel level filter c profile (neighbours d) directSky≥required then
            return true
          else supportedBy p filter c required rest

def priorSupportsLevel (p : BlockPos) (index : ℕ) (c : LightChannel) (required : ℕ) :
    Except Halt Bool :=
  match (blocks.sampleAtIndex index).filter with
  | none => .ok false
  | some filter => do
    if (← localBase blocks index c profile) ≥ required then return true
    if c = .sky ∧ profile.allowsSky=false then return false
    supportedBy blocks prior profile p filter c required (supportOrder c)

variable (output : MutableOutput)

def loadPrior : Except Halt MutableOutput :=
  bounds.positions.zipIdx.foldlM (fun output (p,index) =>
    if (blocks.sampleAtIndex index).filter.isNone then .ok output
    else channels.foldlM (fun output c=>do
      let old ← readPrior prior p c
      return output.setAtIndex index c old) output) output

/-- Locals of the darkening phase. `darkened` lists the cells darkened so far, which only a
change-driven solve reads. -/
structure Darkening where
  output : MutableOutput
  darken : List DarkenEntry
  darkened : List (BlockPos × ℕ)
  queuedTotal : ℕ
  stats : LightSolveStats

variable (st : Darkening)

def Darkening.drop (p : BlockPos) (index : ℕ) (c : LightChannel) (base old : ℕ) :
    Except Halt Darkening := do
  let output := st.output.setAtIndex index c base
  let queuedTotal ← enqueueCounted st.queuedTotal 1 limits.maxQueueEntries
  return { st with
    output := output
    darken := st.darken ++ [⟨p,c,old,decide (c = .sky) && prior.directSkyAtIndex p⟩]
    darkened := st.darkened ++ [(p,index)]
    queuedTotal := queuedTotal }

def seedDarkenCell (p : BlockPos) (index : ℕ) (c : LightChannel) :
    Except Halt Darkening := do
  let old := st.output.getAtIndex index c
  let base ← localBase blocks index c profile
  if old=0 then return st
  if ← priorSupportsLevel blocks prior profile p index c old then return st
  let st ← st.drop prior limits p index c base old
  return { st with stats := { st.stats with darkenSeeded := st.stats.darkenSeeded+1 } }

def seedDarken (candidates : List (BlockPos × ℕ)) (st : Darkening) : Except Halt Darkening := do
  let st ← candidates.foldlM (fun st (p,index) =>
    if (blocks.sampleAtIndex index).filter.isNone then .ok st
    else channels.foldlM (fun st c=>seedDarkenCell blocks prior profile limits st p index c) st)
    st
  return { st with stats := { st.stats with queuePeak := max st.stats.queuePeak st.darken.length } }

/-- Removes light from one neighbour that depended on the removed cell. -/
def darkenNeighbour (entry : DarkenEntry) (entryIndex : ℕ) (st : Darkening) (d : Fin 6) :
    Except Halt Darkening :=
  match st.output.neighbour entry.position entryIndex d with
  | none => .ok st
  | some (next,index) =>
    if (blocks.sampleAtIndex index).filter.isNone then .ok st
    else do
      let current := st.output.getAtIndex index entry.channel
      let base ← localBase blocks index entry.channel profile
      let dependedOnRemoved := current<entry.oldLevel ∨
        entry.channel = .sky ∧ profile.directSkyDown=true ∧ entry.directSky=true ∧
          neighbours d = (0,-1,0) ∧ current=15 ∧ entry.oldLevel=15
      if current > base ∧ dependedOnRemoved then
        let st ← st.drop prior limits next index entry.channel base current
        return { st with
          stats := { st.stats with queuePeak := max st.stats.queuePeak st.darken.length } }
      else return st

def Darkening.pop : Option (DarkenEntry × Darkening) :=
  match st.darken with
  | [] => none
  | entry::rest => some (entry,{ st with darken := rest })

def darkenEntry (entry : DarkenEntry) (st : Darkening) : Except Halt Darkening :=
  let st := { st with stats := { st.stats with darkenDequeued := st.stats.darkenDequeued+1 } }
  match st.output.index entry.position with
  | none => .error .panicked
  | some entryIndex =>
    directions.foldlM (darkenNeighbour blocks prior profile limits entry entryIndex) st

/-- Propagates removal through dependent values. Each cell is darkened at most once. -/
def darkenLoop : Except Halt Darkening :=
  drain Darkening.pop (darkenEntry blocks prior profile limits) .unfinished (st.darken.length+2*bounds.cells) st

def raiseToBase (indices : List ℕ) (output : MutableOutput) : Except Halt MutableOutput :=
  indices.foldlM (fun output index =>
    if (blocks.sampleAtIndex index).filter.isNone then .ok output
    else channels.foldlM (fun output c=>do
      let base ← localBase blocks index c profile
      return if base > output.getAtIndex index c then output.setAtIndex index c base else output)
      output) output

/-- Locals of the queueing of retained light. -/
structure Queueing where
  blockIncrease : IncreaseQueue
  skyIncrease : IncreaseQueue
  directSky : DensePositionSet
  queuedTotal : ℕ

def Queueing.queue (st : Queueing) : LightChannel → IncreaseQueue
  | .block => st.blockIncrease
  | .sky => st.skyIncrease

def Queueing.setQueue (st : Queueing) (c : LightChannel) (queue : IncreaseQueue) : Queueing :=
  match c with
  | .block => { st with blockIncrease := queue }
  | .sky => { st with skyIncrease := queue }

/-- `is_direct`: a full sky level that is a source of direct sky or was direct in the prior. -/
def isDirectSky (p : BlockPos) (index filter : ℕ) (c : LightChannel) (level : ℕ) :
    Except Halt Bool :=
  if c = .sky ∧ profile.directSkyDown=true ∧ level=15 ∧ filter=0 then do
    let base ← localBase blocks index c profile
    return decide (base=15) || prior.directSkyAtIndex p
  else return false

def queueCell (spreading : ℕ → Bool) (p : BlockPos) (index filter : ℕ)
    (st : Queueing) (c : LightChannel) : Except Halt Queueing := do
  let level := output.getAtIndex index c
  if level=0 then return st
  let isDirect ← isDirectSky blocks prior profile p index filter c level
  let st := if isDirect then { st with directSky := st.directSky.insertAtIndex index } else st
  if !spreading index then return st
  let (queue,queuedTotal) ← (st.queue c).pushBack ⟨p,index,isDirect⟩ st.queuedTotal limits.maxQueueEntries
  return { st.setQueue c queue with queuedTotal := queuedTotal }

def queueLit (spreading : ℕ → Bool) (st : Queueing) :
    Except Halt Queueing :=
  bounds.positions.zipIdx.foldlM (fun st (p,index) =>
    match (blocks.sampleAtIndex index).filter with
    | none => .ok st
    | some filter =>
      channels.foldlM (queueCell blocks prior profile limits output spreading p index filter) st) st

/-- What one channel's propagation changes. -/
structure Propagation where
  output : MutableOutput
  queue : IncreaseQueue
  directPositions : DensePositionSet
  queuedTotal : ℕ
  stats : LightSolveStats

/-- The strongest light a trusted halo cell in direction `d` offers so far. -/
def haloCandidate (p : BlockPos) (filter : ℕ) (c : LightChannel) (best : ℕ × Bool) (d : Fin 6) :
    ℕ × Bool :=
  match p.checkedOffset (neighbours d) with
  | none => best
  | some neighbour =>
    if bounds.contains neighbour ∨ (blocks.sample neighbour).filter.isNone then best
    else
      match (prior.boundaryLight neighbour c).trustedParts with
      | none => best
      | some (priorLevel,boundaryIsDirect) =>
        if priorLevel=0 then best
        else
          let direct := decide (c = .sky ∧ profile.directSkyDown=true ∧
            neighbours d = (0,1,0) ∧ priorLevel=15 ∧ boundaryIsDirect=true ∧ filter=0)
          let incoming := if direct then 15 else priorLevel-max filter 1
          if incoming > best.1 ∨ incoming=best.1 ∧ direct=true then (incoming,direct) else best

def haloLight (p : BlockPos) (filter : ℕ) (c : LightChannel) : ℕ × Bool :=
  directions.foldl (haloCandidate blocks prior bounds profile p filter c) (0,false)

variable (c : LightChannel)

section

variable (st : Propagation)

def seedBoundaryCell (p : BlockPos) :
    Except Halt Propagation :=
  match (blocks.sample p).filter with
  | none => .ok st
  | some filter =>
    let (candidate,candidateIsDirect) := haloLight blocks prior bounds profile p filter c
    match st.output.index p with
    | none => .error .panicked
    | some index => do
      let current := st.output.getAtIndex index c
      let gainsDirect := candidateIsDirect && !st.directPositions.contains p
      if candidate > current ∨ candidate=current ∧ candidate≠0 ∧ gainsDirect=true then
        let output := if candidate > current then st.output.setAtIndex index c candidate
          else st.output
        let directPositions ← if candidateIsDirect then st.directPositions.insert p
          else .ok st.directPositions
        let (queue,queuedTotal) ← st.queue.pushBack ⟨p,index,candidateIsDirect⟩ st.queuedTotal limits.maxQueueEntries
        return { st with
          output := output
          directPositions := directPositions
          queue := queue
          queuedTotal := queuedTotal }
      else return st

def seedBoundaryFromHalo : Except Halt Propagation :=
  if c = .sky ∧ profile.allowsSky=false then .ok st
  else bounds.surfacePositions.foldlM (seedBoundaryCell blocks prior bounds profile limits c) st

/-- Raises one neighbour of a popped cell. -/
def increaseNeighbour (entry : IncreaseEntry) (source : ℕ) (st : Propagation)
    (d : Fin 6) : Except Halt Propagation :=
  match st.output.neighbour entry.position entry.index d with
  | none => .ok st
  | some (next,index) =>
    match (blocks.sampleAtIndex index).filter with
    | none => .ok st
    | some filter => do
      let continuesDirect := decide (c = .sky ∧ profile.directSkyDown=true ∧
        entry.directSky=true ∧ neighbours d = (0,-1,0) ∧ source=15 ∧ filter=0)
      let candidate := if continuesDirect then 15 else source-max filter 1
      let current := st.output.getAtIndex index c
      let gainsDirect := continuesDirect && !st.directPositions.containsAtIndex index
      if candidate > current ∨ candidate=current ∧ gainsDirect=true then
        let output := if candidate > current then st.output.setAtIndex index c candidate
          else st.output
        let directPositions := if continuesDirect then st.directPositions.insertAtIndex index
          else st.directPositions
        let (queue,queuedTotal) ← st.queue.pushBack ⟨next,index,continuesDirect⟩ st.queuedTotal limits.maxQueueEntries
        return { st with
          output := output
          directPositions := directPositions
          queue := queue
          queuedTotal := queuedTotal
          stats := { st.stats with queuePeak := max st.stats.queuePeak queue.len } }
      else return st

def Propagation.pop : Option (IncreaseEntry × Propagation) :=
  st.queue.popFront.map fun (entry,queue)=>(entry,{ st with queue := queue })

def increaseEntry (entry : IncreaseEntry) (st : Propagation) :
    Except Halt Propagation :=
  let st := { st with stats := { st.stats with increaseDequeued := st.stats.increaseDequeued+1 } }
  directions.foldlM (increaseNeighbour blocks profile limits c entry (st.output.getAtIndex entry.index c)) st

/-- Every push raises the rank of a cell, so the queue empties. -/
def propagate : Except Halt Propagation := do
  let st ← seedBoundaryFromHalo blocks prior bounds profile limits c st
  let st := { st with stats := { st.stats with queuePeak := max st.stats.queuePeak st.queue.len } }
  drain Propagation.pop (increaseEntry blocks profile limits c) .unfinished (st.queue.len+32*bounds.cells) st

end

def propagateBoth (st : Queueing) (stats : LightSolveStats) :
    Except Halt LightSolveOutput := do
  let block ← propagate blocks prior bounds profile limits .block
    ⟨output,st.blockIncrease,st.directSky,st.queuedTotal,stats⟩
  let sky ← propagate blocks prior bounds profile limits .sky
    ⟨block.output,st.skyIncrease,block.directPositions,block.queuedTotal,block.stats⟩
  sky.output.freeze sky.directPositions sky.stats

end

def checkedVolume (bounds : LightBounds) (limits : SolverLimits) : Except Halt ℕ :=
  match bounds.volume with
  | none => .error (.error (.voxelLimitExceeded usizeMax limits.maxVoxels))
  | some volume =>
    if volume > limits.maxVoxels then .error (.error (.voxelLimitExceeded volume limits.maxVoxels))
    else .ok volume

/-- Recomputes light while retaining bounded intermediate buffers for the worker's next solve. -/
def solveLightWithScratch (source : LightBlockAccess) (priorSource : LightReadAccess)
    (bounds : LightBounds) (generation : ℕ) (profile : DimensionLightProfile)
    (limits : SolverLimits) (scratch : LightSolverScratch) : Except Halt LightSolveOutput := do
  let volume ← checkedVolume bounds limits
  let blocks := CachedLightBlockAccess.new source bounds
  let prior : CachedLightReadAccess := ⟨priorSource,bounds⟩
  let blockIncrease ← scratch.blockIncrease.reset volume
  let skyIncrease ← scratch.skyIncrease.reset volume
  let output ← loadPrior blocks prior bounds (.new bounds generation)
  let st ← seedDarken blocks prior profile limits bounds.positions.zipIdx ⟨output,[],[],0,{}⟩
  let st ← darkenLoop blocks prior bounds profile limits st
  let output ← raiseToBase blocks profile (List.range volume) st.output
  let queued ← queueLit blocks prior bounds profile limits output (fun _=>true)
    ⟨blockIncrease,skyIncrease,.new bounds,st.queuedTotal⟩
  propagateBoth blocks prior bounds profile limits output queued st.stats

end Cinnabar.Light
