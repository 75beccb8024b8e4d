import QuicZig.Wire.Header

/-! Transport parameters: a sequence of triples of an id, a length and a value. -/
namespace QuicZig.Tls.TransportParams
open Machine BigEndian Codec Wire

inductive Error where
  /-- An error of the varint codec, or a full buffer. -/
  | codec (error : Wire.Error)
  | duplicateParameter
  | invalidValue
  deriving DecidableEq, Repr

/-- The parameters with an assigned id. -/
inductive Known where
  | originalDestinationConnectionId
  | maxIdleTimeout
  | statelessResetToken
  | maxUdpPayloadSize
  | initialMaxData
  | initialMaxStreamDataBidiLocal
  | initialMaxStreamDataBidiRemote
  | initialMaxStreamDataUni
  | initialMaxStreamsBidi
  | initialMaxStreamsUni
  | ackDelayExponent
  | maxAckDelay
  | disableActiveMigration
  | preferredAddress
  | activeConnectionIdLimit
  | initialSourceConnectionId
  | retrySourceConnectionId
  | versionInformation
  | maxDatagramFrameSize
  | greaseQuicBit
  | minAckDelay
  | initialMaxPathId
  | alternativeAddress
  deriving DecidableEq, Repr

namespace Known

def id : Known → Nat
  | originalDestinationConnectionId => 0x00
  | maxIdleTimeout => 0x01
  | statelessResetToken => 0x02
  | maxUdpPayloadSize => 0x03
  | initialMaxData => 0x04
  | initialMaxStreamDataBidiLocal => 0x05
  | initialMaxStreamDataBidiRemote => 0x06
  | initialMaxStreamDataUni => 0x07
  | initialMaxStreamsBidi => 0x08
  | initialMaxStreamsUni => 0x09
  | ackDelayExponent => 0x0a
  | maxAckDelay => 0x0b
  | disableActiveMigration => 0x0c
  | preferredAddress => 0x0d
  | activeConnectionIdLimit => 0x0e
  | initialSourceConnectionId => 0x0f
  | retrySourceConnectionId => 0x10
  | versionInformation => 0x11
  | maxDatagramFrameSize => 0x20
  | greaseQuicBit => 0x2ab2
  | minAckDelay => 0xff04de1b
  | initialMaxPathId => 0x3e
  | alternativeAddress => 0xff0969d85c

/-- The parameters in the order of their bits in the duplicate mask. -/
def all : List Known := [originalDestinationConnectionId,maxIdleTimeout,statelessResetToken,maxUdpPayloadSize,
  initialMaxData,initialMaxStreamDataBidiLocal,initialMaxStreamDataBidiRemote,initialMaxStreamDataUni,
  initialMaxStreamsBidi,initialMaxStreamsUni,ackDelayExponent,maxAckDelay,disableActiveMigration,preferredAddress,
  activeConnectionIdLimit,initialSourceConnectionId,retrySourceConnectionId,versionInformation,maxDatagramFrameSize,
  greaseQuicBit,minAckDelay,initialMaxPathId,alternativeAddress]

def ofId (id : Nat) : Option Known := all.find? (·.id = id)

/-- `knownParameterBit` of the parameter's id. -/
def bit (k : Known) : Nat := all.idxOf k

end Known

def maxCompatibleVersions : Nat := 16

def maxTransportParameters : Nat := 64

theorem noVersions_few : ([] : List UInt32).length ≤ maxCompatibleVersions := Nat.zero_le _

/-- The versions in use of the fixed buffer. -/
@[ext] structure CompatibleVersions where
  list : List UInt32 := []
  few : list.length ≤ maxCompatibleVersions := by first | exact QuicZig.Tls.TransportParams.noVersions_few | decide
  deriving DecidableEq, Repr

structure PreferredAddress where
  ipv4Address : Fixed 4
  ipv4Port : UInt16
  ipv6Address : Fixed 16
  ipv6Port : UInt16
  connectionId : ConnId
  statelessResetToken : Fixed 16
  deriving DecidableEq, Repr

@[ext] structure Params where
  originalDestinationConnectionId : Option ConnId := none
  maxIdleTimeoutMs : Nat := 0
  statelessResetToken : Option (Fixed 16) := none
  maxUdpPayloadSize : Nat := 65527
  initialMaxData : Nat := 0
  initialMaxStreamDataBidiLocal : Nat := 0
  initialMaxStreamDataBidiRemote : Nat := 0
  initialMaxStreamDataUni : Nat := 0
  initialMaxStreamsBidi : Nat := 0
  initialMaxStreamsUni : Nat := 0
  ackDelayExponent : Nat := 3
  maxAckDelayMs : Nat := 25
  disableActiveMigration : Bool := false
  preferredAddress : Option PreferredAddress := none
  activeConnectionIdLimit : Nat := 2
  initialSourceConnectionId : Option ConnId := none
  retrySourceConnectionId : Option ConnId := none
  compatibleVersions : CompatibleVersions := {}
  maxDatagramFrameSize : Nat := 0
  minAckDelayUs : Option Nat := none
  greaseQuicBit : Bool := false
  initialMaxPathId : Option UInt32 := none
  alternativeAddress : Bool := false
  deriving DecidableEq, Repr

inductive Shape where
  | varintParam (value : Nat)
  | bytesParam (bytes : List Byte)
  | flag
  | versionList (versions : List UInt32)
  | preferredAddress (addr : PreferredAddress)
  deriving DecidableEq, Repr

def emitIf (present : Bool) (shape : Shape) : Option Shape := if present then some shape else none

/-- What `emit` feeds to the sink for a parameter, when its field is not at the default. -/
def Params.shape (p : Params) : Known → Option Shape
  | .originalDestinationConnectionId => p.originalDestinationConnectionId.map fun cid => .bytesParam cid.bytes
  | .maxIdleTimeout => emitIf (p.maxIdleTimeoutMs ≠ 0) (.varintParam p.maxIdleTimeoutMs)
  | .statelessResetToken => p.statelessResetToken.map fun tok => .bytesParam tok.bytes
  | .maxUdpPayloadSize => emitIf (p.maxUdpPayloadSize ≠ 65527) (.varintParam p.maxUdpPayloadSize)
  | .initialMaxData => emitIf (p.initialMaxData ≠ 0) (.varintParam p.initialMaxData)
  | .initialMaxStreamDataBidiLocal =>
    emitIf (p.initialMaxStreamDataBidiLocal ≠ 0) (.varintParam p.initialMaxStreamDataBidiLocal)
  | .initialMaxStreamDataBidiRemote =>
    emitIf (p.initialMaxStreamDataBidiRemote ≠ 0) (.varintParam p.initialMaxStreamDataBidiRemote)
  | .initialMaxStreamDataUni => emitIf (p.initialMaxStreamDataUni ≠ 0) (.varintParam p.initialMaxStreamDataUni)
  | .initialMaxStreamsBidi => emitIf (p.initialMaxStreamsBidi ≠ 0) (.varintParam p.initialMaxStreamsBidi)
  | .initialMaxStreamsUni => emitIf (p.initialMaxStreamsUni ≠ 0) (.varintParam p.initialMaxStreamsUni)
  | .ackDelayExponent => emitIf (p.ackDelayExponent ≠ 3) (.varintParam p.ackDelayExponent)
  | .maxAckDelay => emitIf (p.maxAckDelayMs ≠ 25) (.varintParam p.maxAckDelayMs)
  | .disableActiveMigration => emitIf p.disableActiveMigration .flag
  | .preferredAddress => p.preferredAddress.map fun addr => .preferredAddress addr
  | .activeConnectionIdLimit => emitIf (p.activeConnectionIdLimit ≠ 2) (.varintParam p.activeConnectionIdLimit)
  | .initialSourceConnectionId => p.initialSourceConnectionId.map fun cid => .bytesParam cid.bytes
  | .retrySourceConnectionId => p.retrySourceConnectionId.map fun cid => .bytesParam cid.bytes
  | .versionInformation => emitIf (p.compatibleVersions.list.length > 0) (.versionList p.compatibleVersions.list)
  | .maxDatagramFrameSize => emitIf (p.maxDatagramFrameSize ≠ 0) (.varintParam p.maxDatagramFrameSize)
  | .minAckDelay => p.minAckDelayUs.map fun v => .varintParam v
  | .greaseQuicBit => emitIf p.greaseQuicBit .flag
  | .initialMaxPathId => p.initialMaxPathId.map fun maxPathId => .varintParam maxPathId.toNat
  | .alternativeAddress => emitIf p.alternativeAddress .flag

/-- The order in which `emit` goes through the parameters. -/
def emitOrder : List Known := [.originalDestinationConnectionId,.maxIdleTimeout,.statelessResetToken,.maxUdpPayloadSize,
  .initialMaxData,.initialMaxStreamDataBidiLocal,.initialMaxStreamDataBidiRemote,.initialMaxStreamDataUni,
  .initialMaxStreamsBidi,.initialMaxStreamsUni,.ackDelayExponent,.maxAckDelay,.disableActiveMigration,.preferredAddress,
  .activeConnectionIdLimit,.initialSourceConnectionId,.retrySourceConnectionId,.versionInformation,.maxDatagramFrameSize,
  .minAckDelay,.greaseQuicBit,.initialMaxPathId,.alternativeAddress]

def Params.emit (p : Params) : List (Known × Shape) :=
  emitOrder.filterMap fun k => (p.shape k).map fun shape => (k,shape)

def versionListValueLen (versions : List UInt32) : Except Error Nat :=
  if versions.length = 0 then .error .invalidValue
  else if versions.length > maxCompatibleVersions then .error .invalidValue
  else .ok (versions.length*4)

def preferredAddressFixedLen : Nat := 4+2+16+2+1+16

def preferredAddressValueLen (addr : PreferredAddress) : Nat := preferredAddressFixedLen+addr.connectionId.len

def versionBytes (versions : List UInt32) : List Byte := versions.flatMap fun v => bigEndian 4 v.toNat

def preferredAddressBytes (addr : PreferredAddress) : List Byte :=
  addr.ipv4Address.bytes ++ (bigEndian 2 addr.ipv4Port.toNat ++ (addr.ipv6Address.bytes ++ (bigEndian 2 addr.ipv6Port.toNat ++
    ([UInt8.ofNat addr.connectionId.len] ++ (addr.connectionId.bytes ++ addr.statelessResetToken.bytes)))))

def encodeVarint (value : Nat) : Writer Error := (Varint.encode value).mapError .codec

def putBytes (bytes : List Byte) : Writer Error := (Writer.put Wire.Error.bufferTooSmall bytes).mapError .codec

/-- The methods of `ByteSink`. -/
def byteSink (id : Nat) : Shape → Writer Error
  | .varintParam value =>
    .all [encodeVarint id,if Varint.encodedLen value = 0 then .fail (.codec .valueTooLarge) else .all [],
      encodeVarint (Varint.encodedLen value),encodeVarint value]
  | .bytesParam bytes => .all [encodeVarint id,encodeVarint bytes.length,putBytes bytes]
  | .flag => .all [encodeVarint id,encodeVarint 0]
  | .versionList versions =>
    match versionListValueLen versions with
    | .error e => .fail e
    | .ok valueLen => .all [encodeVarint id,encodeVarint valueLen,putBytes (versionBytes versions)]
  | .preferredAddress addr =>
    .all [encodeVarint id,encodeVarint (preferredAddressValueLen addr),putBytes (preferredAddressBytes addr)]

/-- The size of a triple, by the length of its value. -/
def fieldEncodedLen (id valueLen : Nat) : Except Error Nat :=
  if Varint.encodedLen id = 0 then .error (.codec .valueTooLarge)
  else if Varint.encodedLen valueLen = 0 then .error (.codec .valueTooLarge)
  else .ok (Varint.encodedLen id+Varint.encodedLen valueLen+valueLen)

/-- The methods of `CountSink`. -/
def countSink (id : Nat) : Shape → Except Error Nat
  | .varintParam value =>
    if Varint.encodedLen value = 0 then .error (.codec .valueTooLarge) else fieldEncodedLen id (Varint.encodedLen value)
  | .bytesParam bytes => fieldEncodedLen id bytes.length
  | .flag => fieldEncodedLen id 0
  | .versionList versions =>
    match versionListValueLen versions with
    | .error e => .error e
    | .ok valueLen => fieldEncodedLen id valueLen
  | .preferredAddress addr => fieldEncodedLen id (preferredAddressValueLen addr)

def countAll : List (Known × Shape) → Except Error Nat
  | [] => .ok 0
  | (k,shape)::rest =>
    match countSink k.id shape with
    | .error e => .error e
    | .ok n =>
      match countAll rest with
      | .error e => .error e
      | .ok m => .ok (n+m)

def Params.encode (p : Params) : Writer Error := .all (p.emit.map fun entry => byteSink entry.1.id entry.2)

def Params.encodedLen (p : Params) : Except Error Nat := countAll p.emit

def decodeVarintValue (value : List Byte) : Except Error Nat :=
  match Varint.decode value with
  | .error e => .error (.codec e)
  | .ok d => if d.bytesRead ≠ value.length then .error .invalidValue else .ok d.value

def cidOf (value : List Byte) : Except Error ConnId :=
  if short : value.length ≤ maxCidLen then .ok ⟨value,short⟩ else .error .invalidValue

def tokenOf (value : List Byte) : Except Error (Fixed 16) :=
  if exact : value.length = 16 then .ok ⟨value,exact⟩ else .error .invalidValue

def flagOf (value : List Byte) : Except Error Bool := if value.length ≠ 0 then .error .invalidValue else .ok true

def boundedOf (bound : Nat → Bool) (value : List Byte) : Except Error Nat :=
  match decodeVarintValue value with
  | .error e => .error e
  | .ok v => if bound v then .ok v else .error .invalidValue

def wordsOf : List Byte → List UInt32
  | a::b::c::d::rest => UInt32.ofNat (ofBigEndian 0 [a,b,c,d])::wordsOf rest
  | _ => []

/-- `setVersionInformation`. -/
def versionsOf (value : List Byte) : Except Error CompatibleVersions :=
  if value.length = 0 ∨ value.length % 4 ≠ 0 then .error .invalidValue
  else if few : (wordsOf value).length ≤ maxCompatibleVersions then .ok ⟨wordsOf value,few⟩
  else .error .invalidValue

def readPreferredAddress (cidLen : Nat) : Parser Error PreferredAddress := do
  let ipv4Address ← Parser.fixed .invalidValue 4
  let ipv4Port ← Parser.take .invalidValue 2
  let ipv6Address ← Parser.fixed .invalidValue 16
  let ipv6Port ← Parser.take .invalidValue 2
  let _length ← Parser.byte .invalidValue
  let cid ← Parser.take .invalidValue cidLen
  let connectionId ← Parser.lift (cidOf cid)
  let statelessResetToken ← Parser.fixed .invalidValue 16
  pure {
    ipv4Address := ipv4Address
    ipv4Port := UInt16.ofNat (ofBigEndian 0 ipv4Port)
    ipv6Address := ipv6Address
    ipv6Port := UInt16.ofNat (ofBigEndian 0 ipv6Port)
    connectionId := connectionId
    statelessResetToken := statelessResetToken
  }

def decodePreferredAddress (value : List Byte) : Except Error PreferredAddress :=
  if value.length < preferredAddressFixedLen then .error .invalidValue
  else
    let cidLen := (value.getD 24 0).toNat
    if cidLen > maxCidLen then .error .invalidValue
    else if value.length ≠ preferredAddressFixedLen+cidLen then .error .invalidValue
    else (readPreferredAddress cidLen).run value

/-- The arms of `setOne` for the parameters it knows. -/
def setKnown (p : Params) (k : Known) (value : List Byte) : Except Error Params :=
  match k with
  | .originalDestinationConnectionId => (cidOf value).map fun v => {p with originalDestinationConnectionId := some v}
  | .maxIdleTimeout => (decodeVarintValue value).map fun v => {p with maxIdleTimeoutMs := v}
  | .statelessResetToken => (tokenOf value).map fun v => {p with statelessResetToken := some v}
  | .maxUdpPayloadSize => (decodeVarintValue value).map fun v => {p with maxUdpPayloadSize := v}
  | .initialMaxData => (decodeVarintValue value).map fun v => {p with initialMaxData := v}
  | .initialMaxStreamDataBidiLocal => (decodeVarintValue value).map fun v => {p with initialMaxStreamDataBidiLocal := v}
  | .initialMaxStreamDataBidiRemote => (decodeVarintValue value).map fun v => {p with initialMaxStreamDataBidiRemote := v}
  | .initialMaxStreamDataUni => (decodeVarintValue value).map fun v => {p with initialMaxStreamDataUni := v}
  | .initialMaxStreamsBidi => (decodeVarintValue value).map fun v => {p with initialMaxStreamsBidi := v}
  | .initialMaxStreamsUni => (decodeVarintValue value).map fun v => {p with initialMaxStreamsUni := v}
  | .ackDelayExponent => (boundedOf (· ≤ 20) value).map fun v => {p with ackDelayExponent := v}
  | .maxAckDelay => (boundedOf (· < 1 <<< 14) value).map fun v => {p with maxAckDelayMs := v}
  | .disableActiveMigration => (flagOf value).map fun v => {p with disableActiveMigration := v}
  | .preferredAddress => (decodePreferredAddress value).map fun v => {p with preferredAddress := some v}
  | .activeConnectionIdLimit => (boundedOf (2 ≤ ·) value).map fun v => {p with activeConnectionIdLimit := v}
  | .initialSourceConnectionId => (cidOf value).map fun v => {p with initialSourceConnectionId := some v}
  | .retrySourceConnectionId => (cidOf value).map fun v => {p with retrySourceConnectionId := some v}
  | .versionInformation => (versionsOf value).map fun v => {p with compatibleVersions := v}
  | .maxDatagramFrameSize => (decodeVarintValue value).map fun v => {p with maxDatagramFrameSize := v}
  | .minAckDelay => (decodeVarintValue value).map fun v => {p with minAckDelayUs := some v}
  | .greaseQuicBit => (flagOf value).map fun v => {p with greaseQuicBit := v}
  | .initialMaxPathId => (boundedOf (· ≤ maxU32) value).map fun v => {p with initialMaxPathId := some (UInt32.ofNat v)}
  | .alternativeAddress => (flagOf value).map fun v => {p with alternativeAddress := v}

/-- A parameter with an unknown id is ignored. -/
def setOne (p : Params) (id : Nat) (value : List Byte) : Except Error Params :=
  match Known.ofId id with
  | none => .ok p
  | some k => setKnown p k value

structure Triple where
  id : Nat
  value : List Byte
  deriving DecidableEq, Repr

def readTriple : Parser Error Triple := do
  let id ← Varint.read.mapError .codec
  let len ← Varint.read.mapError .codec
  let value ← Parser.take .invalidValue len
  pure {id := id,value := value}

/-- The loop of `decode`; `budget` is the number of parameters that may still come. A repeated id is found by
the bit of a known one, and in the list of the unknown ones. -/
def decodeLoop : Nat → Params → Nat → List Nat → List Byte → Except Error Params
  | _,p,_,_,[] => .ok p
  | 0,_,_,_,_::_ => .error .invalidValue
  | budget+1,p,seenKnown,seenUnknown,first::tail =>
    match readTriple (first::tail) with
    | .error e => .error e
    | .ok (t,rest) =>
      match Known.ofId t.id with
      | some k =>
        if seenKnown &&& (1 <<< k.bit) ≠ 0 then .error .duplicateParameter
        else
          match setOne p t.id t.value with
          | .error e => .error e
          | .ok p' => decodeLoop budget p' (seenKnown ||| (1 <<< k.bit)) seenUnknown rest
      | none =>
        if t.id ∈ seenUnknown then .error .duplicateParameter
        else
          match setOne p t.id t.value with
          | .error e => .error e
          | .ok p' => decodeLoop budget p' seenKnown (seenUnknown ++ [t.id]) rest

def decode (src : List Byte) : Except Error Params := decodeLoop maxTransportParameters {} 0 [] src

end QuicZig.Tls.TransportParams
