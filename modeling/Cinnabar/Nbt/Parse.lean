import Cinnabar.Library.Leb

/-! # Trees of network NBT -/

namespace Cinnabar.Nbt

/-- Maximum nested compound and list depth. -/
def maxNbtDepth : ℕ := 64

def isUtf8 (bytes : Bytes) : Bool := (String.fromUTF8? ⟨bytes.toArray⟩).isSome

def Str : Type := { bytes : Bytes // isUtf8 bytes=true }

namespace Str

def bytes (text : Str) : Bytes := text.val

def key (text : Str) : List ℕ := text.bytes.map UInt8.toNat

lemma key_injective : Function.Injective key := fun _ _ h =>
  Subtype.ext (List.map_injective_iff.2 (fun _ _=>UInt8.toNat_inj.1) h)

/-- Texts are ordered by their bytes. -/
instance : LinearOrder Str := LinearOrder.lift' key key_injective

end Str

inductive NbtValue where
  | byte (value : Int8)
  | short (value : Int16)
  | int (value : Int32)
  | long (value : Int64)
  | float (bits : UInt32)
  | double (bits : UInt64)
  | byteArray (bytes : Bytes)
  | string (text : Str)
  | list (items : List NbtValue)
  | compound (entries : List (Str × NbtValue))
  | intArray (items : List Int32)
  | longArray (items : List Int64)

/-- The entries of a compound, in the order of their names. -/
abbrev Entries : Type := List (Str × NbtValue)

section Maps

def get (key : Str) (entries : Entries) : Option NbtValue :=
  (entries.find? fun entry=>entry.1=key).map Prod.snd

/-- Sets `key`, replacing any existing value. -/
def insert (key : Str) (value : NbtValue) : Entries → Entries
  | [] => [(key,value)]
  | entry::entries =>
    if key=entry.1 then (key,value) :: entries
    else if key<entry.1 then (key,value) :: entry::entries
    else entry::insert key value entries

end Maps

section Integers

variable {w : ℕ}

def zigzag (value : BitVec w) : BitVec w := (value <<< 1) ^^^ value.sshiftRight (w-1)

def unzigzag (value : BitVec w) : BitVec w := (value >>> 1) ^^^ -(value &&& 1#w)

def zigzag32 (value : Int32) : ℕ := (zigzag value.toBitVec).toNat

def zigzag64 (value : Int64) : ℕ := (zigzag value.toBitVec).toNat

/-- A length as the code casts it to a signed integer. -/
def lengthI32 (length : ℕ) : Int32 := Int32.ofNat length

end Integers

section Encoding

def writeVarU64 (value : ℕ) : Bytes := Leb.write 9 value

def writeString (text : Str) : Bytes := writeVarU64 text.bytes.length++text.bytes

namespace NbtValue

def tag : NbtValue → UInt8
  | byte _ => 1
  | short _ => 2
  | int _ => 3
  | long _ => 4
  | float _ => 5
  | double _ => 6
  | byteArray _ => 7
  | string _ => 8
  | list _ => 9
  | compound _ => 10
  | intArray _ => 11
  | longArray _ => 12

def isContainer : NbtValue → Bool
  | list _ => true
  | compound _ => true
  | _ => false

end NbtValue

/-- A value at this depth is nested too deep; lists and compounds need a level of their own. -/
def exceedsDepth (depth : ℕ) (value : NbtValue) : Bool :=
  maxNbtDepth<depth || (value.isContainer && maxNbtDepth≤depth)

/-- The element type written before a list. -/
def listTag : List NbtValue → UInt8
  | [] => 0
  | first::_ => first.tag

/-- Whether some item's tag is not that of the first. -/
def mixedTags : List NbtValue → Bool
  | [] => false
  | first::items => (first::items).any fun item=>item.tag≠first.tag

mutual

/-- Checks nested list tags and the depth before any bytes are written. -/
def validateEncoding (depth : ℕ) : NbtValue → Except String Unit
  | .list items =>
    if exceedsDepth depth (.list items) then .error "NBT encoding exceeds its depth bound"
    else if mixedTags items then .error "NBT list elements have different tag types"
    else validateItems (depth+1) items
  | .compound entries =>
    if exceedsDepth depth (.compound entries) then .error "NBT encoding exceeds its depth bound"
    else validateEntries (depth+1) entries
  | value =>
    if exceedsDepth depth value then .error "NBT encoding exceeds its depth bound" else .ok ()

def validateItems (depth : ℕ) : List NbtValue → Except String Unit
  | [] => .ok ()
  | item::items =>
    match validateEncoding depth item with
    | .ok () => validateItems depth items
    | .error error => .error error

def validateEntries (depth : ℕ) : Entries → Except String Unit
  | [] => .ok ()
  | (_,value) :: entries =>
    match validateEncoding depth value with
    | .ok () => validateEntries depth entries
    | .error error => .error error

end

mutual

def writePayload : NbtValue → Bytes
  | .byte value => [value.toUInt8]
  | .short value => Reader.toLe 2 value.toUInt16.toNat
  | .int value => writeVarU64 (zigzag32 value)
  | .long value => writeVarU64 (zigzag64 value)
  | .float bits => Reader.toLe 4 bits.toNat
  | .double bits => Reader.toLe 8 bits.toNat
  | .byteArray bytes => writeVarU64 (zigzag32 (lengthI32 bytes.length)) ++ bytes
  | .string text => writeString text
  | .list items =>
    [listTag items] ++ (writeVarU64 (zigzag32 (lengthI32 items.length)) ++ writeItems items)
  | .compound entries => writeEntries entries
  | .intArray items => writeVarU64 (zigzag32 (lengthI32 items.length)) ++
      (items.map fun item=>writeVarU64 (zigzag32 item)).flatten
  | .longArray items => writeVarU64 (zigzag32 (lengthI32 items.length)) ++
      (items.map fun item=>writeVarU64 (zigzag64 item)).flatten

def writeItems : List NbtValue → Bytes
  | [] => []
  | item::items => writePayload item++writeItems items

def writeEntries : Entries → Bytes
  | [] => [0]
  | (name,value) :: entries =>
    [value.tag] ++ (writeString name ++ (writePayload value++writeEntries entries))

end

def emptyStr : Str := ⟨[],rfl⟩

def encodeRoot (root : Entries) : Except String Bytes :=
  match validateEntries 1 root with
  | .ok () => .ok ([10] ++ (writeString emptyStr++writeEntries root))
  | .error error => .error error

end Encoding

end Cinnabar.Nbt

/-! # Parsing network NBT

The cursor reads an owned tree off the bytes of one root compound.  A list or
array of more elements than the input has bytes is refused before it is read.
-/

namespace Cinnabar.Nbt

open Reader

section Cursor

def readByte : Reader UInt8
  | [] => none
  | byte::rest => some (byte,rest)

/-- A varint of at most `maxBytes` bytes in a 64-bit register. -/
def varU64 (maxBytes : ℕ) : Reader ℕ := do
  let value ← Leb.readGroups 0x7f maxBytes 0 0
  pure (value % 2^64)

def zigzagI32 : Reader Int32 := do
  let value ← varU64 5
  pure (Int32.ofBitVec (unzigzag (BitVec.ofNat 32 value)))

def zigzagI64 : Reader Int64 := do
  let value ← varU64 10
  pure (Int64.ofBitVec (unzigzag (BitVec.ofNat 64 value)))

def readLength : Reader ℕ := do
  let value ← zigzagI32
  if 0≤value.toInt then pure value.toInt.toNat else failure

def toStr (bytes : Bytes) : Option Str :=
  if h : isUtf8 bytes=true then some ⟨bytes,h⟩ else none

/-- A text of `length` bytes. -/
def takeStr (length : ℕ) : Reader Str := do
  let bytes ← take length
  match toStr bytes with
  | some text => pure text
  | none => failure

def readString : Reader Str := do
  let length ← varU64 5
  takeStr length

def readLe (width : ℕ) : Reader ℕ := do
  let bytes ← take width
  pure (fromLe bytes)

end Cursor

section Values

variable (value : UInt8 → Reader NbtValue)

/-- A name and its value, or the end of the compound. -/
def readEntry : Reader (Option (Str × NbtValue)) := do
  let tag ← readByte
  if tag=0 then pure none
  else do
    let name ← readString
    let value ← value tag
    pure (some (name,value))

def readCompound : Reader Entries := do
  let entries ← many (readEntry value)
  pure (entries.foldl (fun entries entry=>insert entry.1 entry.2 entries) [])

/-- The items of an array in an input of `limit` bytes. -/
def readArray {α : Type} (limit : ℕ) (item : Reader α) : Reader (List α) := do
  let length ← readLength
  if limit<length then failure else times item length

/-- A list, unless its items are nested too deep. -/
def readList (limit : ℕ) : Option (UInt8 → Reader NbtValue) → Reader NbtValue
  | none => failure
  | some value => do
    let element ← readByte
    let items ← readArray limit (value element)
    pure (.list items)

def readNested : Option (UInt8 → Reader NbtValue) → Reader NbtValue
  | none => failure
  | some value => do
    let entries ← readCompound value
    pure (.compound entries)

def readTag (limit : ℕ) (nested : Option (UInt8 → Reader NbtValue)) : ℕ → Reader NbtValue
  | 1 => do
    let byte ← readByte
    pure (.byte byte.toInt8)
  | 2 => do
    let bits ← readLe 2
    pure (.short (UInt16.ofNat bits).toInt16)
  | 3 => do
    let value ← zigzagI32
    pure (.int value)
  | 4 => do
    let value ← zigzagI64
    pure (.long value)
  | 5 => do
    let bits ← readLe 4
    pure (.float (UInt32.ofNat bits))
  | 6 => do
    let bits ← readLe 8
    pure (.double (UInt64.ofNat bits))
  | 7 => do
    let length ← readLength
    let bytes ← take length
    pure (.byteArray bytes)
  | 8 => do
    let text ← readString
    pure (.string text)
  | 9 => readList limit nested
  | 10 => readNested nested
  | 11 => do
    let items ← readArray limit zigzagI32
    pure (.intArray items)
  | 12 => do
    let items ← readArray limit zigzagI64
    pure (.longArray items)
  | _ => failure

/-- The value of a tag that may hold `room` more levels. -/
def valueWithin (limit : ℕ) : ℕ → UInt8 → Reader NbtValue
  | 0, tag => readTag limit none tag.toNat
  | room+1, tag => readTag limit (some (valueWithin limit room)) tag.toNat

end Values

def readRoot (limit : ℕ) : Reader Entries := do
  let tag ← readByte
  if tag≠10 then failure
  else do
    let _ ← readString
    readCompound (valueWithin limit maxNbtDepth)

def parse (bytes : Bytes) : Option Entries := (readRoot bytes.length bytes).map Prod.fst

end Cinnabar.Nbt
