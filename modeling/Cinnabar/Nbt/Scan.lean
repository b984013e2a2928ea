import Cinnabar.Nbt.Parse
import Cinnabar.Keys

/-! # Scanning block entities -/

namespace Cinnabar.Nbt

def maxBlockEntityNbtBytes : ℕ := 1024*1024
def maxNbtCollectionLength : ℕ := 16384
def maxNbtStringBytes : ℕ := 64*1024
def maxNbtTags : ℕ := 16384

/-- The input not yet read, the bytes read and the tags visited. -/
structure ScanState where
  rest : Bytes
  position : ℕ
  tags : ℕ

abbrev Scanner (α : Type) := StateT ScanState Option α

section Fields

def field {α : Type} (p : Reader α) : Scanner α := fun state =>
  match p state.rest with
  | some (value,rest) =>
    let position := state.position + (state.rest.length-rest.length)
    if maxBlockEntityNbtBytes<position then none
    else some (value,{ state with rest := rest, position := position })
  | none => none

def visitTag : Scanner Unit := fun state =>
  if maxNbtTags < state.tags+1 then none else some ((),{ state with tags := state.tags+1 })

def skip (length : ℕ) : Scanner Unit := do
  let _ ← field (Reader.take length)
  pure ()

def readVarU32 : Scanner ℕ := field (Leb.readGroups 0x0f 5 0 0)

def readZigzagI32 : Scanner Int32 := do
  let value ← readVarU32
  pure (Int32.ofBitVec (unzigzag (BitVec.ofNat 32 value)))

def skipZigzagI32 : Scanner Unit := do
  let _ ← readZigzagI32
  pure ()

def skipZigzagI64 : Scanner Unit := do
  let _ ← field (Leb.readGroups 0x01 10 0 0)
  pure ()

def readCollectionLength : Scanner ℕ := do
  let value ← readZigzagI32
  if value.toInt<0 then failure else pure value.toInt.toNat

def scanString : Scanner Str := do
  let length ← readVarU32
  if maxNbtStringBytes<length then failure else field (takeStr length)

/-- A collection within the work limit; a longer one is refused in any case. -/
def checkCollectionLimit (length : ℕ) : Scanner Unit :=
  if length ≤ maxNbtCollectionLength then pure () else failure

/-- The least bytes of a payload; an unknown tag has none. -/
def minimumPayloadSize : ℕ → Option ℕ
  | 1 => some 1
  | 2 => some 2
  | 3 | 4 | 7 | 8 | 10 | 11 | 12 => some 1
  | 5 => some 4
  | 6 => some 8
  | 9 => some 2
  | _ => none

end Fields

section Payloads

def repeatScan (step : Scanner Unit) : ℕ → Scanner Unit
  | 0 => pure ()
  | count+1 => do
    step
    repeatScan step count

def checkElements (element : UInt8) (length : ℕ) : Scanner Unit :=
  if length=0 then pure ()
  else if element=0 then failure
  else
    match minimumPayloadSize element.toNat with
    | some _ => checkCollectionLimit length
    | none => failure

def scanList (nested : UInt8 → Scanner Unit) : Scanner Unit := do
  let element ← field readByte
  let length ← readCollectionLength
  checkElements element length
  repeatScan (do visitTag; nested element) length

def scanEntriesWithin (nested : UInt8 → Scanner Unit) : ℕ → Scanner Unit
  | 0 => failure
  | fuel+1 => do
    let tag ← field readByte
    if tag=0 then pure ()
    else do
      visitTag
      let _ ← scanString
      nested tag
      scanEntriesWithin nested fuel

/-- Passes over the entries of a compound; each takes at least one byte. -/
def scanEntries (nested : UInt8 → Scanner Unit) : Scanner Unit := fun state =>
  scanEntriesWithin nested state.rest.length state

def scanArray (item : Scanner Unit) : Scanner Unit := do
  let length ← readCollectionLength
  checkCollectionLimit length
  repeatScan item length

def scanTag (nested : Option (UInt8 → Scanner Unit)) : ℕ → Scanner Unit
  | 1 => skip 1
  | 2 => skip 2
  | 3 => skipZigzagI32
  | 4 => skipZigzagI64
  | 5 => skip 4
  | 6 => skip 8
  | 7 => do
    let length ← readCollectionLength
    skip length
  | 8 => do
    let _ ← scanString
    pure ()
  | 9 =>
    match nested with
    | none => failure
    | some nested => scanList nested
  | 10 =>
    match nested with
    | none => failure
    | some nested => scanEntries nested
  | 11 => scanArray skipZigzagI32
  | 12 => scanArray skipZigzagI64
  | _ => failure

/-- Passes over a payload that may hold `room` more levels. -/
def scanWithin : ℕ → UInt8 → Scanner Unit
  | 0, tag => scanTag none tag.toNat
  | room+1, tag => scanTag (some (scanWithin room)) tag.toNat

def scanPayload (tag : UInt8) (depth : ℕ) : Scanner Unit := scanWithin (maxNbtDepth-depth) tag

end Payloads

section Roots

/-- Root-byte metadata retained for block entities without an id. -/
inductive RootByteCandidate where
  | absent
  | value (value : UInt8)
  | invalid
deriving DecidableEq

inductive SemanticError where
  | rootNotCompound (tag : UInt8)
  | duplicateRootField (field : String)
  | invalidRootFieldType (field : String) (expected actual : UInt8)
  | partialPosition
deriving DecidableEq

/-- What the scan of a root compound has found so far. -/
structure RootFields where
  id : Option Str
  x : Option Int32
  y : Option Int32
  z : Option Int32
  noteCandidate : RootByteCandidate
  poweredCandidate : RootByteCandidate
  semanticError : Option SemanticError

namespace RootFields

def empty : RootFields := ⟨none,none,none,none,.absent,.absent,none⟩

def refuse (fields : RootFields) (error : SemanticError) : RootFields :=
  { fields with semanticError := some (fields.semanticError.getD error) }

end RootFields

def idName : Str := ⟨[0x69,0x64],by decide⟩
def xName : Str := ⟨[0x78],by decide⟩
def yName : Str := ⟨[0x79],by decide⟩
def zName : Str := ⟨[0x7a],by decide⟩
def noteName : Str := ⟨[0x6e,0x6f,0x74,0x65],by decide⟩
def poweredName : Str := ⟨[0x70,0x6f,0x77,0x65,0x72,0x65,0x64],by decide⟩

def scanRootField {α : Type} (name : String) (expected : UInt8) (value : Scanner α)
    (known : Option α) (set : α → RootFields → RootFields) (tag : UInt8) (fields : RootFields) :
    Scanner RootFields :=
  if tag≠expected then do
    scanPayload tag 1
    pure (fields.refuse (.invalidRootFieldType name expected tag))
  else do
    let value ← value
    pure (if known.isSome then fields.refuse (.duplicateRootField name) else set value fields)

def scanRootByteCandidate (candidate : RootByteCandidate) (tag : UInt8) :
    Scanner RootByteCandidate :=
  if tag=1 then do
    let value ← field readByte
    pure (if candidate = .absent then .value value else .invalid)
  else do
    scanPayload tag 1
    pure .invalid

def scanRootEntry (tag : UInt8) (name : Str) (fields : RootFields) : Scanner RootFields :=
  if name=idName then
    scanRootField "id" 8 scanString fields.id (fun id fields=>{ fields with id := some id }) tag fields
  else if name=xName then
    scanRootField "x" 3 readZigzagI32 fields.x (fun x fields=>{ fields with x := some x }) tag fields
  else if name=yName then
    scanRootField "y" 3 readZigzagI32 fields.y (fun y fields=>{ fields with y := some y }) tag fields
  else if name=zName then
    scanRootField "z" 3 readZigzagI32 fields.z (fun z fields=>{ fields with z := some z }) tag fields
  else if name=noteName then do
    let candidate ← scanRootByteCandidate fields.noteCandidate tag
    pure { fields with noteCandidate := candidate }
  else if name=poweredName then do
    let candidate ← scanRootByteCandidate fields.poweredCandidate tag
    pure { fields with poweredCandidate := candidate }
  else do
    scanPayload tag 1
    pure fields

def scanRootWithin : ℕ → RootFields → Scanner RootFields
  | 0, _ => failure
  | fuel+1, fields => do
    let tag ← field readByte
    if tag=0 then pure fields
    else do
      visitTag
      let name ← scanString
      let fields ← scanRootEntry tag name fields
      scanRootWithin fuel fields

def scanRoot (fields : RootFields) : Scanner RootFields := fun state =>
  scanRootWithin state.rest.length fields state

def embedPosition (fields : RootFields) : RootFields × Option (Int32 × Int32 × Int32) :=
  match fields.x, fields.y, fields.z with
  | none, none, none => (fields,none)
  | some x, some y, some z => (fields,some (x,y,z))
  | _, _, _ => (fields.refuse .partialPosition,none)

structure BlockEntityNbt where
  bytes : Bytes
  id : Option Str
  embeddedPosition : Option (Int32 × Int32 × Int32)
  noteCandidate : RootByteCandidate
  poweredCandidate : RootByteCandidate

def scanRootValue (root : UInt8) : Scanner (RootFields × Option (Int32 × Int32 × Int32)) := do
  visitTag
  if root≠10 then do
    scanPayload root 0
    pure (RootFields.empty.refuse (.rootNotCompound root),none)
  else do
    let fields ← scanRoot .empty
    pure (embedPosition fields)

def scanPrefix (input : Bytes) : Option (BlockEntityNbt × ℕ × Option SemanticError) :=
  match (do
    let root ← field readByte
    let _ ← scanString
    scanRootValue root : Scanner _) ⟨input,0,0⟩ with
  | some ((fields,position),state) =>
    some (⟨input.take state.position,fields.id,position,fields.noteCandidate,
      fields.poweredCandidate⟩,state.position,fields.semanticError)
  | none => none

/-- Decodes exactly one named root compound; what follows it is not consumed. -/
def decodePrefix (input : Bytes) : Option (BlockEntityNbt × ℕ) :=
  match scanPrefix input with
  | some (nbt,consumed,none) => some (nbt,consumed)
  | _ => none

end Roots

section Scopes

def maxBlockEntityBytesPerChunk : ℕ := 8*1024*1024

structure BlockEntityKey where
  dimension : ℤ
  x : ℤ
  y : ℤ
  z : ℤ
deriving DecidableEq

variable (key : BlockEntityKey)

def BlockEntityKey.chunk : ChunkKey := ⟨key.dimension,key.x/16,key.z/16⟩

def BlockEntityKey.subChunk : SubChunkKey :=
  ⟨key.dimension,key.x/16,key.y/16,key.z/16⟩

inductive BlockEntityScope where
  | chunk (chunk : ChunkKey) (yStart yEnd : ℤ)
  | subChunk (key : SubChunkKey)

def BlockEntityScope.dimension : BlockEntityScope → ℤ
  | .chunk column _ _ => column.dimension
  | .subChunk key => key.dimension

def BlockEntityScope.contains (scope : BlockEntityScope) (key : BlockEntityKey) : Bool :=
  match scope with
  | .chunk column yStart yEnd => key.chunk=column && (yStart≤key.y && key.y<yEnd)
  | .subChunk sub => key.subChunk=sub

structure Decoded where
  entities : List (BlockEntityKey × BlockEntityNbt)
  retainedBytes : ℕ

def Decoded.containsKey (decoded : Decoded) (key : BlockEntityKey) : Bool :=
  decoded.entities.any fun entity=>entity.1=key

def Decoded.keep (scope : BlockEntityScope) (nbt : BlockEntityNbt) (decoded : Decoded) : Decoded :=
  match nbt.embeddedPosition with
  | none => decoded
  | some (x,y,z) =>
    let key : BlockEntityKey := ⟨scope.dimension,x.toInt,y.toInt,z.toInt⟩
    if scope.contains key && !decoded.containsKey key then
      let total := decoded.retainedBytes+nbt.bytes.length
      if total ≤ maxBlockEntityBytesPerChunk then ⟨decoded.entities ++ [(key,nbt)],total⟩
      else decoded
    else decoded

/-- Reads roots until the payload ends; without fuel for a byte that is left there is no result. -/
def decodeScopedWithin (scope : BlockEntityScope) (maxEntities : ℕ) :
    ℕ → Bytes → Decoded → Option Decoded
  | fuel, input, decoded =>
    match input with
    | [] => some decoded
    | tag::rest =>
      if maxEntities≤decoded.entities.length then some decoded
      else
        match fuel with
        | 0 => none
        | fuel+1 =>
          if tag≠10 then decodeScopedWithin scope maxEntities fuel rest decoded
          else
            match scanPrefix input with
            | none => some decoded
            | some (nbt,used,semanticError) =>
              decodeScopedWithin scope maxEntities fuel (input.drop used)
                (if semanticError.isSome then decoded else decoded.keep scope nbt)

def decodeScopedEntities (scope : BlockEntityScope) (payload : Bytes) (maxEntities : ℕ) :
    Option Decoded := decodeScopedWithin scope maxEntities payload.length payload ⟨[],0⟩

end Scopes

end Cinnabar.Nbt
