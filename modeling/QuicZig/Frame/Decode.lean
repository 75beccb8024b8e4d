import QuicZig.Frame.AckRange
import QuicZig.Frame.Encode

/-! The frame decoder: a type, then the fields of that type. -/
namespace QuicZig.Frame
open Machine BigEndian Codec Wire

def maxIncomingAckRanges : Nat := 256

structure AckBody where
  largestAcked : Nat
  ackDelay : Nat
  firstRange : Nat
  rangeCount : Nat
  rangesBytes : List Byte
  ecnCounts : Option EcnCounts
  deriving DecidableEq, Repr

def readPairs : Nat → Parser Error Unit
  | 0 => pure ()
  | count+1 => do
    let _gap ← Varint.read
    let _length ← Varint.read
    readPairs count

/-- The loop of `validateAckRanges`; `cursor` is the lower end of the range before. -/
def validateLoop : Nat → Nat → Parser Error Unit
  | 0,_ => pure ()
  | count+1,cursor => do
    let gap ← Varint.read
    let length ← Varint.read
    if cursor < gap+2 then Parser.fail .overlappingAckRanges
    else if cursor-gap-2 < length then Parser.fail .overlappingAckRanges
    else validateLoop count (cursor-gap-2-length)

def validateAckRanges (largestAcked firstRange rangeCount : Nat) (rangesBytes : List Byte) : Except Error Unit :=
  if firstRange > largestAcked then .error .overlappingAckRanges
  else (validateLoop rangeCount (largestAcked-firstRange)).run rangesBytes

def readEcn (withEcn : Bool) : Parser Error (Option EcnCounts) :=
  if withEcn then do
    let ect0 ← Varint.read
    let ect1 ← Varint.read
    let ce ← Varint.read
    pure (some {ect0 := ect0,ect1 := ect1,ecnCe := ce})
  else pure none

def decodeAckBody (withEcn : Bool) : Parser Error AckBody := do
  let largest ← Varint.read
  let ackDelay ← Varint.read
  let rangeCount ← Varint.read
  if rangeCount > maxIncomingAckRanges then Parser.fail .ackRangeCountTooLarge
  else
    let firstRange ← Varint.read
    let rangesBytes ← (readPairs rangeCount).raw
    let _valid ← Parser.lift (validateAckRanges largest firstRange rangeCount rangesBytes)
    let ecn ← readEcn withEcn
    pure {
      largestAcked := largest
      ackDelay := ackDelay
      firstRange := firstRange
      rangeCount := rangeCount
      rangesBytes := rangesBytes
      ecnCounts := ecn
    }

def decodeAck (withEcn : Bool) : Parser Error QuicZig.Frame := do
  let body ← decodeAckBody withEcn
  pure (.ack {
    largestAcked := body.largestAcked
    ackDelay := body.ackDelay
    firstRange := body.firstRange
    rangeCount := body.rangeCount
    rangesBytes := body.rangesBytes
    ecnCounts := body.ecnCounts
  })

def decodePathId : Parser Error Nat := do
  let d ← Varint.read
  if d > maxU32 then Parser.fail .pathIdTooLarge else pure d

def decodePathAck (withEcn : Bool) : Parser Error QuicZig.Frame := do
  let pathId ← decodePathId
  let body ← decodeAckBody withEcn
  pure (.pathAck {
    pathId := pathId
    largestAcked := body.largestAcked
    ackDelay := body.ackDelay
    firstRange := body.firstRange
    rangeCount := body.rangeCount
    rangesBytes := body.rangesBytes
    ecnCounts := body.ecnCounts
  })

def readBorrowed (lenValue : Nat) : Parser Error (List Byte) := Parser.take .insufficientBytes lenValue

/-- The data behind a length field, or all that is left. -/
def readData (hasLength : Bool) : Parser Error (List Byte) :=
  if hasLength then do
    let len ← Varint.read
    readBorrowed len
  else Parser.takeRest

def readIf (present : Bool) : Parser Error Nat := if present then Varint.read else pure 0

def decodeStream (typeByte : Byte) : Parser Error QuicZig.Frame := do
  let sid ← Varint.read
  let offset ← readIf (typeByte &&& (0x04 : Byte) ≠ 0)
  let data ← readData (typeByte &&& (0x02 : Byte) ≠ 0)
  pure (.stream {
    streamId := sid
    offset := offset
    data := data
    hasOffset := typeByte &&& (0x04 : Byte) ≠ 0
    hasLength := typeByte &&& (0x02 : Byte) ≠ 0
    fin := typeByte &&& (0x01 : Byte) ≠ 0
  })

def decodeResetStream : Parser Error QuicZig.Frame := do
  let sid ← Varint.read
  let ec ← Varint.read
  let sz ← Varint.read
  pure (.resetStream {streamId := sid,applicationErrorCode := ec,finalSize := sz})

def decodeStopSending : Parser Error QuicZig.Frame := do
  let sid ← Varint.read
  let ec ← Varint.read
  pure (.stopSending {streamId := sid,applicationErrorCode := ec})

def decodeCrypto : Parser Error QuicZig.Frame := do
  let off ← Varint.read
  let len ← Varint.read
  let data ← readBorrowed len
  pure (.crypto {offset := off,data := data})

def decodeNewToken : Parser Error QuicZig.Frame := do
  let len ← Varint.read
  let token ← readBorrowed len
  pure (.newToken {token := token})

def decodeAckFrequency : Parser Error QuicZig.Frame := do
  let seq ← Varint.read
  let threshold ← Varint.read
  let delay ← Varint.read
  let reorder ← Varint.read
  pure (.ackFrequency {
    sequenceNumber := seq
    ackElicitingThreshold := threshold
    requestMaxAckDelayUs := delay
    reorderingThreshold := reorder
  })

def decodeMaxData : Parser Error QuicZig.Frame := do
  let v ← Varint.read
  pure (.maxData {maximumData := v})

def decodeMaxStreamData : Parser Error QuicZig.Frame := do
  let sid ← Varint.read
  let m ← Varint.read
  pure (.maxStreamData {streamId := sid,maximumStreamData := m})

def decodeMaxStreams (bidi : Bool) : Parser Error QuicZig.Frame := do
  let v ← Varint.read
  pure (.maxStreams {bidi := bidi,maximumStreams := v})

def decodeDataBlocked : Parser Error QuicZig.Frame := do
  let v ← Varint.read
  pure (.dataBlocked {maximumData := v})

def decodeStreamDataBlocked : Parser Error QuicZig.Frame := do
  let sid ← Varint.read
  let m ← Varint.read
  pure (.streamDataBlocked {streamId := sid,maximumStreamData := m})

def decodeStreamsBlocked (bidi : Bool) : Parser Error QuicZig.Frame := do
  let v ← Varint.read
  pure (.streamsBlocked {bidi := bidi,maximumStreams := v})

structure CidAndResetToken where
  cid : ConnId
  token : Fixed 16
  deriving DecidableEq, Repr

/-- The declared length is judged before any byte of the CID is read. -/
def readCidAndResetToken : Parser Error CidAndResetToken := do
  let cidLen ← Parser.byte .insufficientBytes
  if cidLen.toNat > maxCidLen then Parser.fail .connIdTooLong
  else
    let slice ← Parser.take .insufficientBytes cidLen.toNat
    let cid ← Parser.lift (ConnId.fromSlice slice)
    let token ← Parser.fixed .insufficientBytes 16
    pure {cid := cid,token := token}

def decodeNewConnectionId : Parser Error QuicZig.Frame := do
  let seq ← Varint.read
  let ret ← Varint.read
  let tail ← readCidAndResetToken
  pure (.newConnectionId {
    sequenceNumber := seq
    retirePriorTo := ret
    connectionId := tail.cid
    statelessResetToken := tail.token
  })

def decodeRetireConnectionId : Parser Error QuicZig.Frame := do
  let v ← Varint.read
  pure (.retireConnectionId {sequenceNumber := v})

def decodePathChallenge : Parser Error QuicZig.Frame := do
  let data ← Parser.fixed .insufficientBytes 8
  pure (.pathChallenge {data := data})

def decodePathResponse : Parser Error QuicZig.Frame := do
  let data ← Parser.fixed .insufficientBytes 8
  pure (.pathResponse {data := data})

def decodeConnectionClose (isTransport : Bool) : Parser Error QuicZig.Frame := do
  let ec ← Varint.read
  let frameType ← readIf isTransport
  let rl ← Varint.read
  let reason ← readBorrowed rl
  pure (.connectionClose {isTransport := isTransport,errorCode := ec,frameType := frameType,reasonPhrase := reason})

def decodeDatagram (hasLength : Bool) : Parser Error QuicZig.Frame := do
  let data ← readData hasLength
  pure (.datagram {data := data,hasLength := hasLength})

def decodePathAbandon : Parser Error QuicZig.Frame := do
  let pathId ← decodePathId
  let errorCode ← Varint.read
  pure (.pathAbandon {pathId := pathId,errorCode := errorCode})

def decodePathStatus (available : Bool) : Parser Error QuicZig.Frame := do
  let pathId ← decodePathId
  let seq ← Varint.read
  let status : PathStatus := {pathId := pathId,sequenceNumber := seq}
  pure (if available then .pathStatusAvailable status else .pathStatusBackup status)

def decodePathNewConnectionId : Parser Error QuicZig.Frame := do
  let pathId ← decodePathId
  let seq ← Varint.read
  let ret ← Varint.read
  let tail ← readCidAndResetToken
  pure (.pathNewConnectionId {
    pathId := pathId
    sequenceNumber := seq
    retirePriorTo := ret
    connectionId := tail.cid
    statelessResetToken := tail.token
  })

def decodePathRetireConnectionId : Parser Error QuicZig.Frame := do
  let pathId ← decodePathId
  let seq ← Varint.read
  pure (.pathRetireConnectionId {pathId := pathId,sequenceNumber := seq})

def decodeMaxPathId : Parser Error QuicZig.Frame := do
  let pathId ← decodePathId
  pure (.maxPathId {maximumPathId := pathId})

def decodePathsBlocked : Parser Error QuicZig.Frame := do
  let pathId ← decodePathId
  pure (.pathsBlocked {maximumPathId := pathId})

def decodePathCidsBlocked : Parser Error QuicZig.Frame := do
  let pathId ← decodePathId
  let nextSeq ← Varint.read
  pure (.pathCidsBlocked {pathId := pathId,nextSequenceNumber := nextSeq})

/-- The six low bits of the flags are ignored. -/
def decodeAltAddress (size : Nat) : Parser Error (AlternativeAddress size) := do
  let flags ← Parser.byte .insufficientBytes
  let seq ← Varint.read
  let address ← Parser.fixed .insufficientBytes size
  let port ← Parser.take .insufficientBytes 2
  pure {
    preferred := flags &&& (0b10000000 : Byte) ≠ 0
    retire := flags &&& (0b01000000 : Byte) ≠ 0
    statusSequenceNumber := seq
    address := address
    port := ofBigEndian 0 port
  }

def decodeAlternativeV4Address : Parser Error QuicZig.Frame := do
  let r ← decodeAltAddress 4
  pure (.alternativeV4Address r)

def decodeAlternativeV6Address : Parser Error QuicZig.Frame := do
  let r ← decodeAltAddress 16
  pure (.alternativeV6Address r)

def decodeBody (frameType : Nat) : Parser Error QuicZig.Frame :=
  if frameType = 0x01 then pure .ping
  else if frameType = 0x02 then decodeAck false
  else if frameType = 0x03 then decodeAck true
  else if frameType = 0x04 then decodeResetStream
  else if frameType = 0x05 then decodeStopSending
  else if frameType = 0x06 then decodeCrypto
  else if frameType = 0x07 then decodeNewToken
  else if 0x08 ≤ frameType ∧ frameType ≤ 0x0f then decodeStream (UInt8.ofNat frameType)
  else if frameType = 0x10 then decodeMaxData
  else if frameType = frameTypeAckFrequency then decodeAckFrequency
  else if frameType = frameTypeImmediateAck then pure .immediateAck
  else if frameType = 0x11 then decodeMaxStreamData
  else if frameType = 0x12 then decodeMaxStreams true
  else if frameType = 0x13 then decodeMaxStreams false
  else if frameType = 0x14 then decodeDataBlocked
  else if frameType = 0x15 then decodeStreamDataBlocked
  else if frameType = 0x16 then decodeStreamsBlocked true
  else if frameType = 0x17 then decodeStreamsBlocked false
  else if frameType = 0x18 then decodeNewConnectionId
  else if frameType = 0x19 then decodeRetireConnectionId
  else if frameType = 0x1a then decodePathChallenge
  else if frameType = 0x1b then decodePathResponse
  else if frameType = 0x1c then decodeConnectionClose true
  else if frameType = 0x1d then decodeConnectionClose false
  else if frameType = 0x1e then pure .handshakeDone
  else if frameType = 0x30 then decodeDatagram false
  else if frameType = 0x31 then decodeDatagram true
  else if frameType = frameTypePathAck then decodePathAck false
  else if frameType = frameTypePathAckEcn then decodePathAck true
  else if frameType = frameTypePathAbandon then decodePathAbandon
  else if frameType = frameTypePathStatusBackup then decodePathStatus false
  else if frameType = frameTypePathStatusAvailable then decodePathStatus true
  else if frameType = frameTypePathNewConnectionId then decodePathNewConnectionId
  else if frameType = frameTypePathRetireConnectionId then decodePathRetireConnectionId
  else if frameType = frameTypeMaxPathId then decodeMaxPathId
  else if frameType = frameTypePathsBlocked then decodePathsBlocked
  else if frameType = frameTypePathCidsBlocked then decodePathCidsBlocked
  else if frameType = frameTypeAlternativeV4Address then decodeAlternativeV4Address
  else if frameType = frameTypeAlternativeV6Address then decodeAlternativeV6Address
  else Parser.fail .unknownFrameType

def decodeTyped : Parser Error QuicZig.Frame := do
  let t ← Varint.read
  decodeBody t

structure Decoded where
  frame : QuicZig.Frame
  bytesConsumed : Nat
  deriving DecidableEq, Repr

/-- A run of zero bytes is one padding frame. -/
def decode (src : List Byte) : Except Error Decoded :=
  match src with
  | [] => .error .insufficientBytes
  | first::_ =>
    if first = 0 then
      let n := (src.takeWhile (· = 0)).length
      .ok {frame := .padding {count := n},bytesConsumed := n}
    else
      match decodeTyped src with
      | .ok (frame,rest) => .ok {frame := frame,bytesConsumed := src.length-rest.length}
      | .error e => .error e

end QuicZig.Frame
