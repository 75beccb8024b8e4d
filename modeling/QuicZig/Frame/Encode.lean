import QuicZig.Frame.Types

/-! The frame encoder, and the length it announces without writing. -/
namespace QuicZig.Frame
open Machine BigEndian Codec Wire

def frameTypePathAck : Nat := 0x3e
def frameTypePathAckEcn : Nat := 0x3f
def frameTypePathAbandon : Nat := 0x3e75
def frameTypePathStatusBackup : Nat := 0x3e76
def frameTypePathStatusAvailable : Nat := 0x3e77
def frameTypePathNewConnectionId : Nat := 0x3e78
def frameTypePathRetireConnectionId : Nat := 0x3e79
def frameTypeMaxPathId : Nat := 0x3e7a
def frameTypePathsBlocked : Nat := 0x3e7b
def frameTypePathCidsBlocked : Nat := 0x3e7c
def frameTypeAlternativeV4Address : Nat := 0x1d5845e2
def frameTypeAlternativeV6Address : Nat := 0x1d5845e3
def frameTypeAckFrequency : Nat := 0xaf
def frameTypeImmediateAck : Nat := 0x1f

def writeTypeOnly (typeByte : Byte) : Writer Error := .put .bufferTooSmall [typeByte]

def writeFrameType (frameType : Nat) : Writer Error := Varint.encode frameType

/-- A slice, copied behind what was written. -/
def writeBytes (bytes : List Byte) : Writer Error := .put .bufferTooSmall bytes

def encodePadding (p : Padding) : Writer Error := .put .bufferTooSmall (List.replicate p.count 0)

def encodeSingleVarint (typeByte : Byte) (value : Nat) : Writer Error :=
  .all [writeTypeOnly typeByte,Varint.encode value]

def encodeResetStream (f : ResetStream) : Writer Error :=
  .all [writeTypeOnly 0x04,Varint.encode f.streamId,Varint.encode f.applicationErrorCode,Varint.encode f.finalSize]

def encodeAckFrequency (f : AckFrequency) : Writer Error :=
  .all [writeFrameType frameTypeAckFrequency,Varint.encode f.sequenceNumber,Varint.encode f.ackElicitingThreshold,
    Varint.encode f.requestMaxAckDelayUs,Varint.encode f.reorderingThreshold]

def encodeStopSending (f : StopSending) : Writer Error :=
  .all [writeTypeOnly 0x05,Varint.encode f.streamId,Varint.encode f.applicationErrorCode]

def encodeCrypto (f : Crypto) : Writer Error :=
  .all [writeTypeOnly 0x06,Varint.encode f.offset,Varint.encode f.data.length,writeBytes f.data]

def encodeNewToken (f : NewToken) : Writer Error :=
  .all [writeTypeOnly 0x07,Varint.encode f.token.length,writeBytes f.token]

def encodeMaxStreamData (f : MaxStreamData) : Writer Error :=
  .all [writeTypeOnly 0x11,Varint.encode f.streamId,Varint.encode f.maximumStreamData]

def encodeStreamDataBlocked (f : StreamDataBlocked) : Writer Error :=
  .all [writeTypeOnly 0x15,Varint.encode f.streamId,Varint.encode f.maximumStreamData]

def writeCidAndResetToken (cid : ConnId) (token : Fixed 16) : Writer Error :=
  .all [.put .bufferTooSmall [UInt8.ofNat cid.len],writeBytes cid.bytes,writeBytes token.bytes]

def cidAndResetTokenLen (cid : ConnId) : Nat := 1+cid.len+16

def encodeNewConnectionId (f : NewConnectionId) : Writer Error :=
  .all [writeTypeOnly 0x18,Varint.encode f.sequenceNumber,Varint.encode f.retirePriorTo,
    writeCidAndResetToken f.connectionId f.statelessResetToken]

def encodeFixed8 (typeByte : Byte) (data : Fixed 8) : Writer Error := .put .bufferTooSmall (typeByte::data.bytes)

def encodeEcn : Option EcnCounts → Writer Error
  | none => .all []
  | some e => .all [Varint.encode e.ect0,Varint.encode e.ect1,Varint.encode e.ecnCe]

def encodeAckBody (largestAcked ackDelay rangeCount firstRange : Nat) (rangesBytes : List Byte)
    (ecn : Option EcnCounts) : Writer Error :=
  .all [Varint.encode largestAcked,Varint.encode ackDelay,Varint.encode rangeCount,Varint.encode firstRange,
    writeBytes rangesBytes,encodeEcn ecn]

def ecnLen : Option EcnCounts → Nat
  | none => 0
  | some e => Varint.encodedLen e.ect0+Varint.encodedLen e.ect1+Varint.encodedLen e.ecnCe

def ackBodyLen (largestAcked ackDelay rangeCount firstRange : Nat) (rangesBytes : List Byte)
    (ecn : Option EcnCounts) : Nat :=
  Varint.encodedLen largestAcked+Varint.encodedLen ackDelay+Varint.encodedLen rangeCount+Varint.encodedLen firstRange+
    rangesBytes.length+ecnLen ecn

def encodeAck (f : Ack) : Writer Error :=
  .all [writeTypeOnly (if f.ecnCounts = none then 0x02 else 0x03),
    encodeAckBody f.largestAcked f.ackDelay f.rangeCount f.firstRange f.rangesBytes f.ecnCounts]

def streamTypeByte (f : Stream) : Byte :=
  0x08 ||| (if f.hasOffset then (0x04 : Byte) else 0) ||| (if f.hasLength then (0x02 : Byte) else 0) |||
    (if f.fin then (0x01 : Byte) else 0)

def encodeStream (f : Stream) : Writer Error :=
  .all [writeTypeOnly (streamTypeByte f),Varint.encode f.streamId,
    if f.hasOffset then Varint.encode f.offset else .all [],
    if f.hasLength then Varint.encode f.data.length else .all [],
    writeBytes f.data]

def encodeDatagram (f : Datagram) : Writer Error :=
  .all [writeTypeOnly (if f.hasLength then 0x31 else 0x30),
    if f.hasLength then Varint.encode f.data.length else .all [],
    writeBytes f.data]

def encodeConnectionClose (f : ConnectionClose) : Writer Error :=
  .all [writeTypeOnly (if f.isTransport then 0x1c else 0x1d),Varint.encode f.errorCode,
    if f.isTransport then Varint.encode f.frameType else .all [],
    Varint.encode f.reasonPhrase.length,writeBytes f.reasonPhrase]

def pathAckType (ecn : Option EcnCounts) : Nat := if ecn = none then frameTypePathAck else frameTypePathAckEcn

def encodePathAck (f : PathAck) : Writer Error :=
  .all [writeFrameType (pathAckType f.ecnCounts),Varint.encode f.pathId,
    encodeAckBody f.largestAcked f.ackDelay f.rangeCount f.firstRange f.rangesBytes f.ecnCounts]

def encodePathAbandon (f : PathAbandon) : Writer Error :=
  .all [writeFrameType frameTypePathAbandon,Varint.encode f.pathId,Varint.encode f.errorCode]

def encodePathStatus (frameType : Nat) (f : PathStatus) : Writer Error :=
  .all [writeFrameType frameType,Varint.encode f.pathId,Varint.encode f.sequenceNumber]

def encodePathNewConnectionId (f : PathNewConnectionId) : Writer Error :=
  .all [writeFrameType frameTypePathNewConnectionId,Varint.encode f.pathId,Varint.encode f.sequenceNumber,
    Varint.encode f.retirePriorTo,writeCidAndResetToken f.connectionId f.statelessResetToken]

def encodePathRetireConnectionId (f : PathRetireConnectionId) : Writer Error :=
  .all [writeFrameType frameTypePathRetireConnectionId,Varint.encode f.pathId,Varint.encode f.sequenceNumber]

def encodePathIdOnly (frameType pathId : Nat) : Writer Error :=
  .all [writeFrameType frameType,Varint.encode pathId]

def encodePathCidsBlocked (f : PathCidsBlocked) : Writer Error :=
  .all [writeFrameType frameTypePathCidsBlocked,Varint.encode f.pathId,Varint.encode f.nextSequenceNumber]

def altAddressFlags (preferred retire : Bool) : Byte :=
  (if preferred then (0b10000000 : Byte) else 0) ||| (if retire then (0b01000000 : Byte) else 0)

def encodeAltAddress {size : Nat} (frameType : Nat) (f : AlternativeAddress size) : Writer Error :=
  .all [writeFrameType frameType,.put .bufferTooSmall [altAddressFlags f.preferred f.retire],
    Varint.encode f.statusSequenceNumber,writeBytes f.address.bytes,.put .bufferTooSmall (bigEndian 2 f.port)]

def encodedAltAddressLen {size : Nat} (frameType : Nat) (f : AlternativeAddress size) : Nat :=
  Varint.encodedLen frameType+1+Varint.encodedLen f.statusSequenceNumber+size+2

def encodedPathStatusLen (frameType : Nat) (f : PathStatus) : Nat :=
  Varint.encodedLen frameType+Varint.encodedLen f.pathId+Varint.encodedLen f.sequenceNumber

def encode : QuicZig.Frame → Writer Error
  | .padding f => encodePadding f
  | .ping => writeTypeOnly 0x01
  | .ack f => encodeAck f
  | .resetStream f => encodeResetStream f
  | .stopSending f => encodeStopSending f
  | .crypto f => encodeCrypto f
  | .newToken f => encodeNewToken f
  | .stream f => encodeStream f
  | .maxData f => encodeSingleVarint 0x10 f.maximumData
  | .ackFrequency f => encodeAckFrequency f
  | .immediateAck => writeFrameType frameTypeImmediateAck
  | .maxStreamData f => encodeMaxStreamData f
  | .maxStreams f => encodeSingleVarint (if f.bidi then 0x12 else 0x13) f.maximumStreams
  | .dataBlocked f => encodeSingleVarint 0x14 f.maximumData
  | .streamDataBlocked f => encodeStreamDataBlocked f
  | .streamsBlocked f => encodeSingleVarint (if f.bidi then 0x16 else 0x17) f.maximumStreams
  | .newConnectionId f => encodeNewConnectionId f
  | .retireConnectionId f => encodeSingleVarint 0x19 f.sequenceNumber
  | .pathChallenge f => encodeFixed8 0x1a f.data
  | .pathResponse f => encodeFixed8 0x1b f.data
  | .connectionClose f => encodeConnectionClose f
  | .handshakeDone => writeTypeOnly 0x1e
  | .datagram f => encodeDatagram f
  | .pathAck f => encodePathAck f
  | .pathAbandon f => encodePathAbandon f
  | .pathStatusBackup f => encodePathStatus frameTypePathStatusBackup f
  | .pathStatusAvailable f => encodePathStatus frameTypePathStatusAvailable f
  | .pathNewConnectionId f => encodePathNewConnectionId f
  | .pathRetireConnectionId f => encodePathRetireConnectionId f
  | .maxPathId f => encodePathIdOnly frameTypeMaxPathId f.maximumPathId
  | .pathsBlocked f => encodePathIdOnly frameTypePathsBlocked f.maximumPathId
  | .pathCidsBlocked f => encodePathCidsBlocked f
  | .alternativeV4Address f => encodeAltAddress frameTypeAlternativeV4Address f
  | .alternativeV6Address f => encodeAltAddress frameTypeAlternativeV6Address f

def encodedLen : QuicZig.Frame → Nat
  | .padding f => f.count
  | .ping => 1
  | .ack f => 1+ackBodyLen f.largestAcked f.ackDelay f.rangeCount f.firstRange f.rangesBytes f.ecnCounts
  | .resetStream f => 1+Varint.encodedLen f.streamId+Varint.encodedLen f.applicationErrorCode+
      Varint.encodedLen f.finalSize
  | .ackFrequency f => Varint.encodedLen frameTypeAckFrequency+Varint.encodedLen f.sequenceNumber+
      Varint.encodedLen f.ackElicitingThreshold+Varint.encodedLen f.requestMaxAckDelayUs+
      Varint.encodedLen f.reorderingThreshold
  | .immediateAck => Varint.encodedLen frameTypeImmediateAck
  | .stopSending f => 1+Varint.encodedLen f.streamId+Varint.encodedLen f.applicationErrorCode
  | .crypto f => 1+Varint.encodedLen f.offset+Varint.encodedLen f.data.length+f.data.length
  | .newToken f => 1+Varint.encodedLen f.token.length+f.token.length
  | .stream f => 1+Varint.encodedLen f.streamId+(if f.hasOffset then Varint.encodedLen f.offset else 0)+
      (if f.hasLength then Varint.encodedLen f.data.length else 0)+f.data.length
  | .maxData f => 1+Varint.encodedLen f.maximumData
  | .maxStreamData f => 1+Varint.encodedLen f.streamId+Varint.encodedLen f.maximumStreamData
  | .maxStreams f => 1+Varint.encodedLen f.maximumStreams
  | .dataBlocked f => 1+Varint.encodedLen f.maximumData
  | .streamDataBlocked f => 1+Varint.encodedLen f.streamId+Varint.encodedLen f.maximumStreamData
  | .streamsBlocked f => 1+Varint.encodedLen f.maximumStreams
  | .newConnectionId f => 1+Varint.encodedLen f.sequenceNumber+Varint.encodedLen f.retirePriorTo+
      cidAndResetTokenLen f.connectionId
  | .retireConnectionId f => 1+Varint.encodedLen f.sequenceNumber
  | .pathChallenge _ => 1+8
  | .pathResponse _ => 1+8
  | .connectionClose f => 1+Varint.encodedLen f.errorCode+(if f.isTransport then Varint.encodedLen f.frameType else 0)+
      Varint.encodedLen f.reasonPhrase.length+f.reasonPhrase.length
  | .handshakeDone => 1
  | .datagram f => 1+(if f.hasLength then Varint.encodedLen f.data.length else 0)+f.data.length
  | .pathAck f => Varint.encodedLen (pathAckType f.ecnCounts)+Varint.encodedLen f.pathId+
      ackBodyLen f.largestAcked f.ackDelay f.rangeCount f.firstRange f.rangesBytes f.ecnCounts
  | .pathAbandon f => Varint.encodedLen frameTypePathAbandon+Varint.encodedLen f.pathId+Varint.encodedLen f.errorCode
  | .pathStatusBackup f => encodedPathStatusLen frameTypePathStatusBackup f
  | .pathStatusAvailable f => encodedPathStatusLen frameTypePathStatusAvailable f
  | .pathNewConnectionId f => Varint.encodedLen frameTypePathNewConnectionId+Varint.encodedLen f.pathId+
      Varint.encodedLen f.sequenceNumber+Varint.encodedLen f.retirePriorTo+cidAndResetTokenLen f.connectionId
  | .pathRetireConnectionId f => Varint.encodedLen frameTypePathRetireConnectionId+Varint.encodedLen f.pathId+
      Varint.encodedLen f.sequenceNumber
  | .maxPathId f => Varint.encodedLen frameTypeMaxPathId+Varint.encodedLen f.maximumPathId
  | .pathsBlocked f => Varint.encodedLen frameTypePathsBlocked+Varint.encodedLen f.maximumPathId
  | .pathCidsBlocked f => Varint.encodedLen frameTypePathCidsBlocked+Varint.encodedLen f.pathId+
      Varint.encodedLen f.nextSequenceNumber
  | .alternativeV4Address f => encodedAltAddressLen frameTypeAlternativeV4Address f
  | .alternativeV6Address f => encodedAltAddressLen frameTypeAlternativeV6Address f

end QuicZig.Frame
