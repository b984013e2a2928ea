import Cinnabar.Library.Reader

/-! # Walking item user data -/

namespace Cinnabar.Item

def tagShort : UInt8 := 2
def tagInt : UInt8 := 3
def tagString : UInt8 := 8
def tagList : UInt8 := 9
def tagCompound : UInt8 := 10

/-- The bytes of the tag names `Damage`, `RepairCost`, `ench`, `display`, `Name`, `FilteredName`,
`id` and `lvl`. -/
def damageName : Bytes := [0x44,0x61,0x6d,0x61,0x67,0x65]
def repairCostName : Bytes := [0x52,0x65,0x70,0x61,0x69,0x72,0x43,0x6f,0x73,0x74]
def enchName : Bytes := [0x65,0x6e,0x63,0x68]
def displayName : Bytes := [0x64,0x69,0x73,0x70,0x6c,0x61,0x79]
def nameName : Bytes := [0x4e,0x61,0x6d,0x65]
def filteredNameName : Bytes :=
  [0x46,0x69,0x6c,0x74,0x65,0x72,0x65,0x64,0x4e,0x61,0x6d,0x65]
def idName : Bytes := [0x69,0x64]
def lvlName : Bytes := [0x6c,0x76,0x6c]

def readU8 : Reader UInt8
  | [] => none
  | byte::rest => some (byte,rest)

def readLe (width : ℕ) : Reader ℕ := do
  let bytes ← Reader.take width
  pure (Reader.fromLe bytes)

def readU16Le : Reader ℕ := readLe 2

def readI32Le : Reader Int32 := do
  let value ← readLe 4
  pure (UInt32.ofNat value).toInt32

def readCount : Reader ℕ := do
  let value ← readLe 4
  if value<2^31 then pure value else failure

def readName : Reader Bytes := do
  let length ← readU16Le
  Reader.take length

def skip (n : ℕ) : Reader Unit := do
  let _ ← Reader.take n
  pure ()

def taking (walk : Reader Unit) : Reader Bytes := fun input =>
  (walk input).map fun read=>(input.take (input.length-read.2.length),read.2)

/-- One named tag of a compound, kept as its encoded payload. -/
structure Entry where
  tag : UInt8
  name : Bytes
  payload : Bytes
deriving DecidableEq

def readEntry (payload : UInt8 → Reader Unit) : Reader (Option Entry) := do
  let tag ← readU8
  if tag=0 then pure none
  else do
    let name ← readName
    let bytes ← taking (payload tag)
    pure (some ⟨tag,name,bytes⟩)

def elementWidth (element : UInt8) : Option ℕ :=
  match element.toNat with
  | 1 => some 1
  | 2 => some 2
  | 3 | 5 => some 4
  | 4 | 6 => some 8
  | _ => none

/-- Walks a list of elements that may nest `room` levels deep. -/
def skipList (room : ℕ) (payload : UInt8 → Reader Unit) : Reader Unit := do
  let element ← readU8
  let count ← readCount
  if count≠0 ∧ room=0 then failure
  else
    match elementWidth element with
    | some width => skip (count*width)
    | none => do
      let _ ← Reader.times (payload element) count
      pure ()

/-- Walks the payload of a tag, whose own entries or elements may nest `room` levels deep. -/
def skipTag (room : ℕ) (payload : UInt8 → Reader Unit) : ℕ → Reader Unit
  | 1 => skip 1
  | 2 => skip 2
  | 3 | 5 => skip 4
  | 4 | 6 => skip 8
  | 7 => readCount >>= skip
  | 8 => readName >>= fun _=>pure ()
  | 9 => skipList room payload
  | 10 => Reader.many (readEntry payload) >>= fun _=>pure ()
  | 11 => readCount >>= fun count=>skip (count*4)
  | 12 => readCount >>= fun count=>skip (count*8)
  | _ => failure

/-- Walks a payload that may nest `room` levels deep, itself included. -/
def skipWithin : ℕ → UInt8 → Reader Unit
  | 0, _ => failure
  | room+1, tag => skipTag room (skipWithin room) tag.toNat

def maxItemNbtWalkDepth : ℕ := 512

def skipLePayload (tag : UInt8) (depth : ℕ) : Reader Unit :=
  skipWithin (maxItemNbtWalkDepth+1-depth) tag

section Fields

def compoundFieldWithin (tag : UInt8) (wanted : Bytes) : ℕ → Reader Unit
  | 0 => failure
  | fuel+1 => do
    let entry ← readU8
    if entry=0 then failure
    else do
      let name ← readName
      if entry=tag ∧ name=wanted then pure ()
      else do
        skipLePayload entry 0
        compoundFieldWithin tag wanted fuel

/-- Finds one typed entry in a compound body, leaving the cursor at its payload. -/
def compoundField (tag : UInt8) (wanted : Bytes) : Reader Unit := fun input =>
  compoundFieldWithin tag wanted input.length input

/-- Positions the cursor at the payload of the named root tag of type `tag`. -/
def rootTag (tag : UInt8) (wanted : Bytes) : Reader Unit := do
  let root ← readU8
  if root≠tagCompound then failure
  else do
    let _ ← readName
    compoundField tag wanted

variable (extra : Bytes)

/-- Extracts the root compound from an item's user data. -/
def decodeExtraNbt : Option Bytes :=
  match (do
    let marker ← readU16Le
    let version ← readU8
    if marker=0xffff ∧ version=1 then pure () else failure : Reader Unit) extra with
  | some ((),nbt) => some nbt
  | none => none

def value {α : Type} (p : Reader α) (input : Bytes) : Option α := (p input).map Prod.fst

def rootDamageTag : Reader Int32 := do
  rootTag tagInt damageName
  readI32Le

def itemExtraDamageInteger : Option Int32 :=
  (decodeExtraNbt extra).bind (value rootDamageTag)

def itemExtraDamageValue : Option Int32 :=
  (itemExtraDamageInteger extra).map fun damage=>damage.toInt16.toInt32

def utf8 (text : String) : Bytes := text.toByteArray.data.toList

end Fields

end Cinnabar.Item

/-! # Comparing item user data

Compound values are compared by their parsed entries, whatever their order, and
floats as numbers; malformed data is compared byte for byte.
-/

namespace Cinnabar.Item

def maxItemExtraBytes : ℕ := 65536

/-- Splits user data into its compound body and trailing lists. -/
def splitExtra (extra : Bytes) : Option (Bytes × Bytes) :=
  if maxItemExtraBytes<extra.length then none
  else if extra.isEmpty then some ([0],List.replicate 8 0)
  else
    match readU16Le extra with
    | none => none
    | some (marker,rest) =>
      if marker=0 then some ([0],rest)
      else if marker=0xffff then
        (do
          let version ← readU8
          let tag ← readU8
          if version=1 ∧ tag=tagCompound then do
            let _ ← readName
            taking (skipLePayload tagCompound 0)
          else failure : Reader Bytes) rest
      else none

def isNaN (exponentBits mantissaBits bits : ℕ) : Bool :=
  bits/2^mantissaBits % 2^exponentBits=2^exponentBits-1 && bits % 2^mantissaBits≠0

/-- Numeric float equality: no NaN equals anything, and the two zeros are equal. -/
def sameFloat (width exponentBits mantissaBits : ℕ) (a b : Bytes) : Option Bool :=
  if a.length=width ∧ b.length=width then
    let (a,b) := (Reader.fromLe a,Reader.fromLe b)
    some (!isNaN exponentBits mantissaBits a && !isNaN exponentBits mantissaBits b &&
      (a=b || (a % 2 ^ (8*width - 1) = 0 && b % 2 ^ (8*width - 1) = 0)))
  else none

def nameLe : Bytes → Bytes → Bool
  | [], _ => true
  | _::_, [] => false
  | a::as, b::bs => a<b || (a=b && nameLe as bs)

/-- The entries of a whole compound body in name order, where no name comes twice. -/
def sortedEntries (depth : ℕ) (input : Bytes) : Option (List Entry) :=
  match Reader.many (readEntry fun tag=>skipLePayload tag (depth+1)) input with
  | some (entries,[]) =>
    if (entries.map Entry.name).Nodup then
      some (entries.insertionSort fun a b=>nameLe a.name b.name=true)
    else none
  | _ => none

/-- Compares the elements of two lists one by one. -/
def sameElements (payload : Reader Bytes) (same : Bytes → Bytes → Option Bool) :
    ℕ → Bytes → Bytes → Option Bool
  | 0, a, b => some (a.isEmpty && b.isEmpty)
  | count+1, a, b => do
    let (x,a) ← payload a
    let (y,b) ← payload b
    if ← same x y then sameElements payload same count a b else some false

def sameList (payload : UInt8 → Reader Bytes) (same : UInt8 → Bytes → Bytes → Option Bool)
    (a b : Bytes) : Option Bool := do
  let (element,a) ← readU8 a
  let (otherElement,b) ← readU8 b
  let (count,a) ← readCount a
  let (otherCount,b) ← readCount b
  if element≠otherElement ∨ count≠otherCount then some false
  else sameElements (payload element) (same element) count a b

def sameEntries (same : UInt8 → Bytes → Bytes → Option Bool) : List Entry → List Entry →
    Option Bool
  | [], _ => some true
  | _::_, [] => some true
  | a::as, b::bs =>
    if a.name≠b.name ∨ a.tag≠b.tag then some false
    else do
      if ← same a.tag a.payload b.payload then sameEntries same as bs else some false

/-- Compares two payloads that may nest `room` levels deep, themselves included. -/
def samePayloadWithin : ℕ → UInt8 → Bytes → Bytes → Option Bool
  | 0, _, _, _ => none
  | room+1, tag, a, b =>
    match tag.toNat with
    | 5 => sameFloat 4 8 23 a b
    | 6 => sameFloat 8 11 52 a b
    | 9 => sameList (fun element=>taking (skipWithin room element)) (samePayloadWithin room) a b
    | 10 => do
      let a ← sortedEntries (maxItemNbtWalkDepth-room) a
      let b ← sortedEntries (maxItemNbtWalkDepth-room) b
      if a.length≠b.length then some false
      else sameEntries (samePayloadWithin room) a b
    | _ => some (a=b)

def samePayload (tag : UInt8) (depth : ℕ) : Bytes → Bytes → Option Bool :=
  samePayloadWithin (maxItemNbtWalkDepth+1-depth) tag

def compareExtra (a b : Bytes) : Option Bool := do
  let (a,aTail) ← splitExtra a
  let (b,bTail) ← splitExtra b
  if aTail≠bTail then some false else samePayload tagCompound 0 a b

/-- Unsupported or malformed data is compared strictly. -/
def sameExtra (a b : Bytes) : Bool := (compareExtra a b).getD (a=b)

end Cinnabar.Item

/-! # Editing item user data

An edit splits the user data into its root entries and the trailer, replaces a
few entries by name, and writes the compound again.  Everything else is kept
byte for byte.
-/

namespace Cinnabar.Item

/-- Item tags changed by a local edit or accepted response.  `none` leaves a tag as it is. -/
structure ItemNbtEdit where
  damage : Option Int32
  repairCost : Option Int32
  /-- An empty list removes the tag. -/
  enchantments : Option (List (Int16 × Int16))
  /-- `some none` removes a custom name. -/
  customName : Option (Option String)
  /-- A new unfiltered name removes the old filtered value. -/
  filteredCustomName : Option (Option String)

def ItemNbtEdit.default : ItemNbtEdit := ⟨none,none,none,none,none⟩

def emptyUserData : Bytes := List.replicate 10 0

def maxItemNbtBytes : ℕ := 1048576

section Reading

/-- Splits a compound body into entries. -/
def readEntries : Reader (List Entry) := Reader.many (readEntry fun tag=>skipLePayload tag 1)

def readExtraEntries (extra : Bytes) : Option (Bytes × List Entry × Bytes) :=
  match readU16Le (if extra.isEmpty then emptyUserData else extra) with
  | none => none
  | some (marker,rest) =>
    if marker=0xffff then
      match (do
        let version ← readU8
        let tag ← readU8
        if version=1 ∧ tag=tagCompound then do
          let name ← readName
          let entries ← readEntries
          pure (name,entries)
        else failure : Reader (Bytes × List Entry)) rest with
      | some ((name,entries),trailer) => some (name,entries,trailer)
      | none => none
    else if marker=0 then some ([],[],rest)
    else none

end Reading

section Writing

/-- A length-prefixed string; `none` when it is too long for its prefix. -/
def writeString (text : Bytes) : Option Bytes :=
  if text.length<2^16 then some (Reader.toLe 2 text.length++text) else none

/-- A compound body: each entry's tag, name and payload, then the end tag. -/
def writeEntries : List Entry → Option Bytes
  | [] => some [0]
  | entry::entries => do
    let name ← writeString entry.name
    let rest ← writeEntries entries
    some (entry.tag::name++entry.payload++rest)

/-- Replaces the entry of this name, or appends it; `none` removes it. -/
def setEntry (name : Bytes) (value : Option (UInt8 × Bytes)) : List Entry → List Entry
  | [] => value.elim [] fun value=>[⟨value.1,name,value.2⟩]
  | entry::entries =>
    if entry.name=name then
      value.elim entries fun value=>⟨value.1,name,value.2⟩ :: entries
    else entry::setEntry name value entries

def shortEntry (name : Bytes) (value : Int16) : Entry :=
  ⟨tagShort,name,Reader.toLe 2 value.toUInt16.toNat⟩

/-- The payload of an `ench` list: one compound of `id` and `lvl` shorts per enchantment. -/
def enchantmentList (enchantments : List (Int16 × Int16)) : Option Bytes := do
  let count ← if enchantments.length<2^31 then some (Reader.toLe 4 enchantments.length) else none
  let compounds ← enchantments.mapM fun enchantment =>
    writeEntries [shortEntry idName enchantment.1,shortEntry lvlName enchantment.2]
  some (tagCompound::count++compounds.flatten)

def intValue (value : Int32) : Option (UInt8 × Bytes) :=
  some (tagInt,Reader.toLe 4 value.toUInt32.toNat)

variable (entries : List Entry)

/-- The entries of the display compound; one of another type counts as absent. -/
def displayFields : Option (List Entry) :=
  match entries.find? fun entry=>entry.name=displayName with
  | some entry => if entry.tag=tagCompound then value readEntries entry.payload else some []
  | none => some []

def setDisplayString (key : Bytes) (value : Option (Option String)) (display : List Entry) :
    Option (List Entry) :=
  match value with
  | none => some display
  | some none => some (setEntry key none display)
  | some (some text) =>
    (writeString (utf8 text)).map fun payload=>setEntry key (some (tagString,payload)) display

/-- The payload of a compound with these entries; `some none` where it would be empty. -/
def compoundPayload : Option (Option Bytes) :=
  if entries.isEmpty then some none else (writeEntries entries).map some

namespace ItemNbtEdit

variable (edit : ItemNbtEdit)

def filteredName : Option (Option String) :=
  edit.filteredCustomName.or (edit.customName.map fun _=>none)

variable (entries : List Entry)

/-- Edits the root tags other than `display`. -/
def editRoot : List Entry :=
  let entries := edit.damage.elim entries fun damage =>
    setEntry damageName (intValue damage) entries
  let entries := edit.repairCost.elim entries fun cost =>
    setEntry repairCostName (intValue cost) entries
  edit.enchantments.elim entries fun enchantments =>
    let list := if enchantments.isEmpty then none else enchantmentList enchantments
    setEntry enchName (list.map fun payload=>(tagList,payload)) entries

def editDisplay : Option (List Entry) :=
  if edit.customName.isNone && edit.filteredCustomName.isNone then some entries
  else do
    let display ← displayFields entries
    let display ← setDisplayString nameName edit.customName display
    let display ← setDisplayString filteredNameName edit.filteredName display
    let payload ← compoundPayload display
    some (setEntry displayName (payload.map fun payload=>(tagCompound,payload)) entries)

end ItemNbtEdit

/-- User data with this compound and trailer; no compound where it would be empty. -/
def writeExtra (root : Bytes) (entries : List Entry) (trailer : Bytes) : Option Bytes :=
  if entries.isEmpty then some (Reader.toLe 2 0++trailer)
  else do
    let name ← writeString root
    let body ← writeEntries entries
    some (Reader.toLe 2 0xffff ++ [1,tagCompound] ++ name++body++trailer)

/-- Applies an edit; `none` when the user data is malformed or grows too large. -/
def editItemExtra (extra : Bytes) (edit : ItemNbtEdit) : Option Bytes := do
  let (root,entries,trailer) ← readExtraEntries extra
  let entries ← edit.editDisplay (edit.editRoot entries)
  let out ← writeExtra root entries trailer
  if out.length ≤ maxItemNbtBytes then some out else none

end Writing

section Anvil

end Anvil

end Cinnabar.Item
