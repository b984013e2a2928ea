import Cinnabar.Culling.Grid
import Cinnabar.Library.Worklist

/-! # The retained cave traversal -/

namespace Cinnabar.Culling

open Function

/-- A node's state: unreached, or reached with the exits already explored. -/
abbrev NodeState := Option (Finset Face)

def inBitOrder (exits : Finset Face) : List Face := Face.all.filter fun face=>face ∈ exits

/-- Reusable traversal state, retained while graph changes preserve existing paths. -/
structure CaveVisibilityScratch where
  /-- `visited.len()` -/
  visitedLen : ℕ
  visited : ℕ → NodeState
  touched : List ℕ
  /-- Nodes and the exits they still have to explore, the top first. -/
  stack : List (ℕ × Finset Face)
  overflowIds : SectionKey → Option ℕ
  overflowNodes : List (SectionKey × FaceConnectivity)
  overflowVisited : ℕ → NodeState
  camera : Option SectionKey
  checkpoint : ℕ × ℕ × ℕ
  cameraPresent : Bool
  addedVisible : List SectionKey
  /-- The rule requested for the next update. -/
  outwardOnly : Bool
  /-- The rule the retained traversal was built with. -/
  builtOutwardOnly : Bool
  /-- Updates since the traversal became a superset of the exact one, while it is one. -/
  supersetUpdates : Option ℕ

namespace CaveVisibilityScratch

def new : CaveVisibilityScratch where
  visitedLen := 0
  visited := fun _=>none
  touched := []
  stack := []
  overflowIds := fun _=>none
  overflowNodes := []
  overflowVisited := fun _=>none
  camera := none
  checkpoint := (0,0,0)
  cameraPresent := false
  addedVisible := []
  outwardOnly := false
  builtOutwardOnly := false
  supersetUpdates := none

variable (s : CaveVisibilityScratch)

/-- Whether the latest visible set equals a full traversal of the current graph. -/
def isExact : Bool := s.supersetUpdates.isNone

/-- Keeps the retained reach, a superset once removals or lost connections shrink the graph. -/
def markSuperset : CaveVisibilityScratch :=
  { s with supersetUpdates := some (s.supersetUpdates.getD 0) }

variable (grid : ConnectivityGrid)

section

variable (key : SectionKey)

/-- Clears a removed key's state so whichever key next takes its slot starts unreached. -/
def forget
    (cell : Option ℕ) : CaveVisibilityScratch :=
  match cell with
  | some cell => { s with visited := update s.visited cell none }
  | none =>
    match s.overflowIds key with
    | none => s
    | some id =>
      { s with
        overflowIds := update s.overflowIds key none
        overflowVisited := update s.overflowVisited (id-grid.cellCount) none }

def promote
    (cell : ℕ) : CaveVisibilityScratch :=
  let state := (s.overflowIds key).bind fun id=>s.overflowVisited (id-grid.cellCount)
  let taken := s.forget grid key none
  { taken with
    visited := update taken.visited cell state
    touched := if state.isSome then taken.touched ++ [cell] else taken.touched }

/-- Selects the rule that never steps back toward the camera's section. -/
def setOutwardOnly (outwardOnly : Bool) : CaveVisibilityScratch :=
  { s with outwardOnly := outwardOnly }

/-- Exits of the node at `key` the active rule lets the traversal leave through. -/
def allowedExits : Finset Face :=
  match s.camera with
  | none => Finset.univ
  | some camera => ruleExits s.builtOutwardOnly camera key

/-- Dense id for `key`: its grid cell, or a slot past the cells for an overflow key. -/
def node :
    Option (ℕ × FaceConnectivity) × CaveVisibilityScratch :=
  match grid.slot key with
  | .cell index value => (some (index,value),s)
  | .overflow value =>
    let next := grid.cellCount+s.overflowNodes.length
    let id := (s.overflowIds key).getD next
    (some (id,value), if id=next then
        { s with
          overflowIds := update s.overflowIds key (some id)
          overflowNodes := s.overflowNodes ++ [(key,value)]
          overflowVisited := update s.overflowVisited s.overflowNodes.length none }
      else s)
  | .missing => (none,s)

/-- Reads a resident node through its dense or overflow identity. -/
def describe (node : ℕ) :
    SectionKey × FaceConnectivity :=
  if node<grid.cellCount then
    ((grid.cells node).map fun cell=>(cell.key,cell.value)).getD (⟨⟨0,0,0,0⟩,by decide⟩,⟨∅⟩)
  else s.overflowNodes.getD (node-grid.cellCount) (⟨⟨0,0,0,0⟩,by decide⟩,⟨∅⟩)

def stateAt (cells node : ℕ) : NodeState :=
  if node < cells then s.visited node else s.overflowVisited (node-cells)

def setState (cells node : ℕ) (state : NodeState) :
    CaveVisibilityScratch :=
  if node < cells then { s with visited := update s.visited node state }
  else { s with overflowVisited := update s.overflowVisited (node-cells) state }

/-- Reaches `node` able to leave through `exits`, queueing whichever were not yet explored. -/
def reach (cells node : ℕ) (exits : Finset Face) :
    CaveVisibilityScratch :=
  let state := s.stateAt cells node
  let fresh := exits \ state.getD ∅
  let touched := if state.isNone then s.touched ++ [node] else s.touched
  let stack := if fresh.Nonempty then (node,fresh) :: s.stack else s.stack
  { s.setState cells node (some (state.getD ∅ ∪ fresh)) with touched := touched, stack := stack }

def leave (s : CaveVisibilityScratch) (exit : Face) :
    CaveVisibilityScratch :=
  match adjacent key exit with
  | none => s
  | some next =>
    let found := s.node grid next
    match found.1 with
    | none => found.2
    | some entered =>
      found.2.reach grid.cellCount entered.1 (entered.2.row exit.opposite ∩ found.2.allowedExits next)

end

def explore (item : ℕ × Finset Face) (s : CaveVisibilityScratch) :
    CaveVisibilityScratch :=
  (inBitOrder item.2).foldl (leave grid (s.describe grid item.1).1) s

/-- `stack.pop()` -/
def pop : Option ((ℕ × Finset Face) × CaveVisibilityScratch) :=
  match s.stack with
  | [] => none
  | item::rest => some (item,{ s with stack := rest })

/-- Explores each newly reachable exit once; retained exits need no repeated traversal. -/
def propagate (s : CaveVisibilityScratch) : CaveVisibilityScratch :=
  exhaust pop (explore grid) (s.stack.length+6 * (grid.cellCount+grid.overflow.keys.card)) s

end CaveVisibilityScratch

open CaveVisibilityScratch

variable (grid : ConnectivityGrid) (key : SectionKey)

/-- Inserts a node's loaded neighbours, as one shell around it. -/
def insertShell (visible : CaveVisibleSet) :
    CaveVisibleSet :=
  Face.all.foldl (fun visible face =>
    match adjacent key face with
    | none => visible
    | some neighbour =>
      if grid.containsKey neighbour then (visible.insert neighbour).2 else visible) visible

variable (s : CaveVisibilityScratch)

/-- Clears the retained traversal. -/
def CaveVisibilityScratch.restart (camera : SectionKey)
    (grid : ConnectivityGrid) : CaveVisibilityScratch :=
  let visited := s.touched.foldl (fun visited node=>if node < s.visitedLen then update visited node none else visited)
    s.visited
  { s with
    touched := []
    addedVisible := []
    camera := some camera
    builtOutwardOnly := s.outwardOnly
    checkpoint := grid.checkpoint
    cameraPresent := grid.containsKey camera
    supersetUpdates := none
    visitedLen := grid.cellCount
    visited := if s.visitedLen≠grid.cellCount then fun _=>none else visited
    overflowIds := fun _=>none
    overflowNodes := []
    overflowVisited := fun _=>none
    stack := [] }

variable (camera : SectionKey)

/-- A full traversal with the rule last selected. -/
def fillVisible (grid : ConnectivityGrid) (order : VisitOrder)
    (s : CaveVisibilityScratch) (visible : CaveVisibleSet) :
    CaveVisibilityScratch × CaveVisibleSet :=
  let visible := visible.reset camera grid.dims
  let found := (s.restart camera grid).node grid camera
  match found.1 with
  | none => (found.2,(grid.keys order).foldl (fun visible key=>(visible.insert key).2) visible)
  | some entered =>
    let s := propagate grid (found.2.reach grid.cellCount entered.1 entered.2.touchedFaces)
    (s,s.touched.foldl (fun visible node =>
      let key := (s.describe grid node).1
      let visible := (visible.insert key).2
      if s.builtOutwardOnly then visible else insertShell grid key visible) visible)

/-- Reads retained traversal state without assigning ids to unrelated overflow nodes. -/
def reachedState (grid : ConnectivityGrid) (s : CaveVisibilityScratch) :
    NodeState :=
  match grid.slot key with
  | .cell node _ => s.visited node
  | .overflow _ => (s.overflowIds key).bind fun id=>s.overflowVisited (id-grid.cellCount)
  | .missing => none

/-- The exits into a node, and its own as the camera's, once its id is known. -/
def seedFace (grid : ConnectivityGrid) (node : ℕ) (value : FaceConnectivity)
    (s : CaveVisibilityScratch) (face : Face) : CaveVisibilityScratch :=
  match adjacent key face with
  | none => s
  | some neighbour =>
    let state := reachedState neighbour grid s
    let shelled := if state.isSome && !s.builtOutwardOnly then
      { s with addedVisible := s.addedVisible ++ [key] } else s
    if face.opposite ∈ state.getD ∅ then
      shelled.reach grid.cellCount node (value.row face ∩ shelled.allowedExits key)
    else shelled

/-- Replays only the exits that could not cross into this node before it joined the graph or
gained connections: those entering from reached neighbours, and the camera's own. -/
def seedOpened (grid : ConnectivityGrid) (s : CaveVisibilityScratch) :
    CaveVisibilityScratch :=
  let found := s.node grid key
  match found.1 with
  | none => found.2
  | some entered =>
    let s := if found.2.camera=some key then
      found.2.reach grid.cellCount entered.1 entered.2.touchedFaces else found.2
    Face.all.foldl (seedFace key grid entered.1 entered.2) s

/-- Removals and promotions bring every slot's state up to its current occupant. -/
def replay :
    GraphChange → CaveVisibilityScratch
  | .opened _ => s
  | .narrowed => s.markSuperset
  | .removed key cell => (s.forget grid key cell).markSuperset
  | .promoted key cell => s.promote grid key cell

/-- Openings seed against the current layout. -/
def seedChange :
    GraphChange → CaveVisibilityScratch
  | .opened key =>
    if s.cameraPresent then seedOpened key grid s
    else { s with addedVisible := s.addedVisible ++ [key] }
  | _ => s

/-- Bounds local proof work before falling back to the complete search. -/
def cameraProofBudget : ℕ := 64

structure ProbeNode where
  key : SectionKey
  state : Finset Face

structure Probe where
  nodes : List ProbeNode
  queue : List (ℕ × Finset Face)
  proofExits : ℕ

namespace Probe

variable (probe : Probe)

def pop : Option ((ℕ × Finset Face) × Probe) :=
  match probe.queue with
  | [] => none
  | item::rest => some (item,{ probe with queue := rest })

def arrive (next : SectionKey) (arrived : Finset Face) : Probe :=
  let index := probe.nodes.findIdx fun node=>node.key=next
  let old := ((probe.nodes[index]?).map ProbeNode.state).getD ∅
  let nodes := if index=probe.nodes.length then probe.nodes ++ [⟨next,arrived⟩]
    else probe.nodes.set index ⟨next,old ∪ arrived⟩
  let queue := if (arrived \ old).Nonempty then probe.queue ++ [(index,arrived \ old)]
    else probe.queue
  { probe with nodes := nodes, queue := queue }

def stateOf (key : SectionKey) : Option (Finset Face) :=
  (probe.nodes.find? fun node=>node.key=key).map ProbeNode.state

def explore (grid : ConnectivityGrid) (previous : SectionKey) (target : Finset Face) (node : ℕ)
    (probe : Probe) (face : Face) : Except (Option Bool) Probe :=
  if probe.proofExits=cameraProofBudget then .error (some false)
  else
    let probe := { probe with proofExits := probe.proofExits+1 }
    match (probe.nodes[node]?).bind fun node=>adjacent node.key face with
    | none => .ok probe
    | some next =>
      match grid.get next with
      | none => .ok probe
      | some value =>
        let probe := probe.arrive next (value.row face.opposite)
        if next=previous ∧ target ⊆ (probe.stateOf next).getD ∅ then .error (some true)
        else .ok probe

end Probe

/-- The new camera's exits must already be reached; its probe must recover all old camera exits.
These two inclusions prove that the complete reachable sets are equal. -/
def sameRegion (grid : ConnectivityGrid) (s : CaveVisibilityScratch) : Bool :=
  match s.camera, grid.get camera with
  | some previous, some value =>
    match reachedState camera grid s with
    | none => false
    | some state =>
      if ¬value.touchedFaces ⊆ state then false
      else match grid.get previous with
        | none => false
        | some previousValue =>
          match drain Probe.pop (fun item probe=>(inBitOrder item.2).foldlM
                (Probe.explore grid previous previousValue.touchedFaces item.1) probe)
              none (cameraProofBudget+1)
              ⟨[⟨camera,value.touchedFaces⟩],[(0,value.touchedFaces)],0⟩ with
          | .error (some answer) => answer
          | _ => false
  | _, _ => false

/-- A superset is replaced by a full traversal once it has served this many updates. -/
def supersetUpdateLimit : ℕ := 16

/-- Records each newly visible key once for publication to rendered entities. -/
def insertVisible (out : CaveVisibilityScratch × CaveVisibleSet) :
    CaveVisibilityScratch × CaveVisibleSet :=
  let inserted := out.2.insert key
  (if inserted.1 then { out.1 with addedVisible := out.1.addedVisible ++ [key] } else out.1, inserted.2)

def publishNode (out : CaveVisibilityScratch × CaveVisibleSet)
    (node : ℕ) : CaveVisibilityScratch × CaveVisibleSet :=
  let key := (out.1.describe grid node).1
  let out := insertVisible key out
  if out.1.builtOutwardOnly then out
  else Face.all.foldl (fun out face =>
    match adjacent key face with
    | none => out
    | some neighbour => if grid.containsKey neighbour then insertVisible neighbour out else out) out

/-- `added_visible.retain(|key| visible.insert(*key))` -/
def publishAdded (visible : CaveVisibleSet) :
    CaveVisibilityScratch × CaveVisibleSet :=
  s.addedVisible.foldl (fun out key=>insertVisible key out) ({ s with addedVisible := [] },visible)

structure VisibilityUpdate where
  /-- A full rebuild filled the replacement. -/
  rebuilt : Bool
  scratch : CaveVisibilityScratch
  visible : CaveVisibleSet
  replacement : CaveVisibleSet

/-- The retained traversal no longer applies to what is asked. -/
def outdated (grid : ConnectivityGrid) (s : CaveVisibilityScratch) : Bool :=
  s.outwardOnly != s.builtOutwardOnly || (s.outwardOnly && s.camera≠some camera) ||
    s.checkpoint.1≠grid.checkpoint.1 || s.checkpoint.2.1≠grid.checkpoint.2.1 ||
    !grid.retainsChanges s.checkpoint.2.2 || s.cameraPresent != grid.containsKey camera

def extend : CaveVisibilityScratch :=
  let changes := grid.changesSince s.checkpoint.2.2
  let seeded := changes.foldl (seedChange grid) (changes.foldl (replay grid) { s with addedVisible := [] })
  let extended := propagate grid seeded
  { extended with supersetUpdates := extended.supersetUpdates.map (· + 1) }

/-- A superset traversal cannot prove that a new camera section reaches the same region. -/
def cameraMoved (grid : ConnectivityGrid) (s : CaveVisibilityScratch) : Bool :=
  s.camera≠some camera && s.cameraPresent && (s.supersetUpdates.isSome || !sameRegion camera grid s)

/-- Extends `visible` for graph changes, or fills `replacement` and reports a full rebuild. -/
def updateVisible (grid : ConnectivityGrid) (order : VisitOrder)
    (s : CaveVisibilityScratch) (visible replacement : CaveVisibleSet) : VisibilityUpdate :=
  if outdated camera grid s then
    let filled := fillVisible camera grid order s replacement
    ⟨true,filled.1,visible,filled.2⟩
  else
    let previouslyReached := s.touched.length
    let s := extend grid s
    if cameraMoved camera grid s ||
        s.supersetUpdates.any fun updates=>supersetUpdateLimit≤updates then
      let filled := fillVisible camera grid order s replacement
      ⟨true,filled.1,visible,filled.2⟩
    else
      let s := { s with camera := some camera }
      let published := (s.touched.drop previouslyReached).foldl (publishNode grid) (publishAdded s visible)
      ⟨false,{ published.1 with checkpoint := grid.checkpoint },published.2,replacement⟩

end Cinnabar.Culling
