import Cinnabar.Library.Leb

/-! # Session endpoint messages -/

namespace Cinnabar.SessionWire

inductive BridgeError where
  | sessionJson
  | invalidSessionMessage (reason : String)
deriving DecidableEq

def invalid (reason : String) : BridgeError := .invalidSessionMessage reason

def kindBatch : UInt8 := 2
def kindHandoff : UInt8 := 3
def kindPackData : UInt8 := 4
def kindTransfer : UInt8 := 5
def kindDisconnect : UInt8 := 6

def startGamePacketId : ℕ := 11

def putVaruint32 (value : ℕ) : Bytes := Leb.write 4 value

/-- Reads a varuint32: at most five bytes, four bits in the last. -/
def readVaruint32 : Reader ℕ := Leb.readGroups 0x0f 5 0 0

section Writing

def putPackets (frame : Bytes) : List Bytes → Except BridgeError Bytes
  | [] => .ok frame
  | packet::packets =>
    if packet.length<2^32 ∧ packet.length≠0 then
      putPackets (frame++putVaruint32 packet.length++packet) packets
    else .error (invalid "batch packet length")

def encodeBatch (packets : List Bytes) : Except BridgeError Bytes :=
  match putPackets [kindBatch] packets with
  | .ok frame => if frame.length=1 then .error (invalid "empty batch") else .ok frame
  | .error error => .error error

end Writing

section Reading

/-- The packets of a batch body; each takes at least one byte of the fuel. -/
def splitEntries : ℕ → Bytes → Except BridgeError (List Bytes)
  | _, [] => .ok []
  | 0, _::_ => .error (invalid "batch packet length")
  | fuel+1, body =>
    match readVaruint32 body with
    | none => .error (invalid "batch packet length")
    | some (length,rest) =>
      if length=0 ∨ rest.length<length then .error (invalid "batch packet length")
      else
        match splitEntries fuel (rest.drop length) with
        | .ok packets => .ok (rest.take length::packets)
        | .error error => .error error

def splitBatch (body : Bytes) : Except BridgeError (List Bytes) :=
  match splitEntries body.length body with
  | .ok [] => .error (invalid "empty batch")
  | result => result

structure Json (M T D : Type) where
  handoff : Bytes → Option M
  transfer : Bytes → Option T
  disconnect : Bytes → Option D

/-- What the client needs before play: metadata and the packets through StartGame. -/
structure SessionHandoff (M : Type) where
  metadata : M
  startup : List Bytes

inductive CoreMessage (M T D : Type) where
  | handoff (handoff : SessionHandoff M)
  | packData (index : ℕ) (data : Bytes)
  | batch (packets : List Bytes)
  | transfer (transfer : T)
  | disconnect (disconnect : D)

variable {M T D : Type}

def fromBe (bytes : Bytes) : ℕ := Reader.fromLe bytes.reverse

def fromJson {α : Type} : Option α → Except BridgeError α
  | some value => .ok value
  | none => .error .sessionJson

def isStartGame (packet : Bytes) : Bool :=
  match readVaruint32 packet with
  | some (header,_) => header &&& 0x3ff=startGamePacketId
  | none => false

def decodeHandoff (json : Json M T D) (body : Bytes) : Except BridgeError (SessionHandoff M) := do
  if body.length<4 then throw (invalid "handoff without metadata length")
  let length := fromBe (body.take 4)
  let rest := body.length-4
  if rest<length then throw (invalid "handoff metadata length")
  let metadata ← fromJson (json.handoff ((body.drop 4).take length))
  if rest=length then throw (invalid "handoff without StartGame")
  let startup ← splitBatch (body.drop (4+length))
  match startup.getLast? with
  | some last =>
    if isStartGame last then pure ⟨metadata,startup⟩
    else throw (invalid "handoff startup does not end with StartGame")
  | none => throw (invalid "handoff startup does not end with StartGame")

def decodeCoreMessage (json : Json M T D) : Bytes → Except BridgeError (CoreMessage M T D)
  | [] => .error (invalid "empty frame")
  | kind::body =>
    if kind=kindHandoff then .handoff <$> decodeHandoff json body
    else if kind=kindPackData then
      if body.length≤4 then .error (invalid "pack data without bytes")
      else .ok (.packData (fromBe (body.take 4)) (body.drop 4))
    else if kind=kindBatch then .batch <$> splitBatch body
    else if kind=kindTransfer then .transfer <$> fromJson (json.transfer body)
    else if kind=kindDisconnect then .disconnect <$> fromJson (json.disconnect body)
    else .error (invalid "unknown message kind")

end Reading

end Cinnabar.SessionWire

/-! # Batches the client writes

Outbound packets become one batch frame, without those the codec refuses.  The
startup packets of a handoff are grouped again into batch bodies, each within
the bounds on the packets and bytes of one batch.
-/

namespace Cinnabar.SessionWire

section Frames

/-- The ten-bit packet id and the two-bit subclient ids. -/
structure GameHeader where
  id : ℕ
  fromSubclient : ℕ
  toSubclient : ℕ
deriving DecidableEq

structure Packet (P : Type) where
  header : GameHeader
  data : P

structure Codec (P : Type) where
  id : P → ℕ
  encode : P → Option Bytes

variable {P : Type}

def idMask : ℕ := 0x3ff

def GameHeader.toRaw (header : GameHeader) : ℕ :=
  header.id &&& idMask ||| (header.fromSubclient &&& 0x3) <<< 10 |||
    (header.toSubclient &&& 0x3) <<< 12

variable (codec : Codec P)

def validatePacket (packet : Packet P) : Bool :=
  packet.header.id=codec.id packet.data && !(3<packet.header.fromSubclient ||
    3<packet.header.toSubclient)

def encodePacket (packet : Packet P) : Option Bytes :=
  if validatePacket codec packet=true ∧ packet.header.id ≤ idMask then
    match codec.encode packet.data with
    | some payload =>
      let declared := putVaruint32 packet.header.toRaw++payload
      if declared.length<2^32 then some declared else none
    | none => none
  else none

def encodeEntry (packet : Packet P) (out : Bytes) : Bytes :=
  match encodePacket codec packet with
  | some declared => out ++ (putVaruint32 declared.length++declared)
  | none => out

def batchFrame (packets : List (Packet P)) : Option Bytes :=
  let frame := packets.foldl (fun frame packet=>encodeEntry codec packet frame) [kindBatch]
  if 1<frame.length then some frame else none

end Frames

section Startup

def maxRawBatchPackets : ℕ := 1600
def maxSessionBatchBytes : ℕ := 256*1024*1024

def putEntry (body packet : Bytes) : Bytes := body ++ (putVaruint32 packet.length++packet)

/-- The bits of the value, rounded up to groups of seven. -/
def varuint32Len (value : ℕ) : ℕ := ((max value 1).size+6) / 7

/-- Appends the packets left to a batch of `count` packets. -/
def groupPackets (batch : Bytes) (count : ℕ) : List Bytes → List Bytes
  | [] => if count≠0 then [batch] else []
  | packet::packets =>
    let entry := varuint32Len packet.length+packet.length
    if count≠0 ∧ (count=maxRawBatchPackets ∨ maxSessionBatchBytes<batch.length+entry) then
      batch::groupPackets (putEntry [] packet) 1 packets
    else groupPackets (putEntry batch packet) (count+1) packets

def startupBatches (packets : List Bytes) : List Bytes := groupPackets [] 0 packets

end Startup

end Cinnabar.SessionWire
