import Cinnabar.Keys

/-! # Commit lanes -/

namespace Cinnabar.Ingest

/-- Ordered consumers an event writes; two events sharing one keep wire order. -/
inductive Consumer where
  | actors
  | controls
  | ui
  | audio
  | camera
  | particles
  | shapes
  | inventory
deriving DecidableEq

/-- What one admitted event reads and writes, for out-of-order commit decisions. -/
structure Footprint where
  /-- Conflicts with every earlier and later event. -/
  barrier : Bool := false
  /-- Changes which columns are retained. -/
  retention : Bool := false
  /-- Moves the server position, which scopes retention while local physics does not. -/
  positional : Bool := false
  /-- Waits for earlier block mutations, never for chunk decode. -/
  localAuthority : Bool := false
  /-- Rewrites resident blocks that local authority must observe first. -/
  mutation : Bool := false
  /-- Spends heavy admission and the terrain commit budget. -/
  heavy : Bool := false
  consumers : Finset Consumer := ∅
  /-- Terrain columns read or written. -/
  columns : Finset ChunkKey := ∅
deriving DecidableEq

namespace Footprint

/-- `Footprint::barrier()` -/
def ofBarrier : Footprint := { barrier := true }

/-- An app-owned inventory or equipment commit. -/
def ofInventory : Footprint := { localAuthority := true, consumers := {.inventory, .ui} }

/-- Pure chunk data neither inventory nor local authority waits for. -/
def isChunkData (f : Footprint) : Bool :=
  f.columns ≠ ∅ && !f.barrier && !f.retention && !f.mutation && f.consumers = ∅

end Footprint

/-- Terrain that spends the heavy allowance with nothing local waiting on it. -/
def isHeavyChunkData (f : Footprint) : Bool := f.heavy && f.isChunkData

/-- Earlier unfinished events folded into one conflict summary, in wire order. -/
structure EarlierEvents where
  any : Bool := false
  barrier : Bool := false
  retention : Bool := false
  terrain : Bool := false
  mutation : Bool := false
  consumers : Finset Consumer := ∅
  columns : Finset ChunkKey := ∅

namespace EarlierEvents

variable (s : EarlierEvents)

/-- An unadmitted sequence has an unknown footprint, so nothing later may pass it. -/
def addUnknown : EarlierEvents := { s with any := true, barrier := true }

def add (earlier : Footprint) (couplePosition : Bool) : EarlierEvents where
  any := true
  barrier := s.barrier || earlier.barrier
  retention := s.retention || (earlier.retention || (couplePosition && earlier.positional))
  terrain := s.terrain || earlier.columns ≠ ∅
  mutation := s.mutation || earlier.mutation
  consumers := s.consumers ∪ earlier.consumers
  columns := s.columns ∪ earlier.columns

/-- Whether `later` must wait for some earlier event folded into this summary. -/
def blocks (later : Footprint) (couplePosition : Bool) : Bool :=
  if !s.any then false
  else
    let laterRetention := later.retention || (couplePosition && later.positional)
    s.barrier || later.barrier || (laterRetention && (s.terrain || s.retention)) ||
      (s.retention && later.columns ≠ ∅) || (later.localAuthority && s.mutation) ||
      (s.consumers ∩ later.consumers).Nonempty || (s.columns ∩ later.columns).Nonempty

/-- True once nothing later can commit past these events. -/
def isBarrier : Bool := s.barrier

end EarlierEvents

end Cinnabar.Ingest
