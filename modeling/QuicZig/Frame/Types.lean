import QuicZig.Wire.Header

/-! The frames of QUIC version 1, and of the extensions the codec knows. -/
namespace QuicZig.Frame
open Machine Codec Wire

structure Padding where
  count : Nat
  deriving DecidableEq, Repr

structure ResetStream where
  streamId : Nat
  applicationErrorCode : Nat
  finalSize : Nat
  deriving DecidableEq, Repr

structure StopSending where
  streamId : Nat
  applicationErrorCode : Nat
  deriving DecidableEq, Repr

structure Crypto where
  offset : Nat
  data : List Byte
  deriving DecidableEq, Repr

structure NewToken where
  token : List Byte
  deriving DecidableEq, Repr

structure MaxData where
  maximumData : Nat
  deriving DecidableEq, Repr

structure MaxStreamData where
  streamId : Nat
  maximumStreamData : Nat
  deriving DecidableEq, Repr

structure MaxStreams where
  bidi : Bool
  maximumStreams : Nat
  deriving DecidableEq, Repr

structure DataBlocked where
  maximumData : Nat
  deriving DecidableEq, Repr

structure StreamDataBlocked where
  streamId : Nat
  maximumStreamData : Nat
  deriving DecidableEq, Repr

structure StreamsBlocked where
  bidi : Bool
  maximumStreams : Nat
  deriving DecidableEq, Repr

structure NewConnectionId where
  sequenceNumber : Nat
  retirePriorTo : Nat
  connectionId : ConnId
  statelessResetToken : Fixed 16
  deriving DecidableEq, Repr

structure RetireConnectionId where
  sequenceNumber : Nat
  deriving DecidableEq, Repr

structure PathChallenge where
  data : Fixed 8
  deriving DecidableEq, Repr

structure PathResponse where
  data : Fixed 8
  deriving DecidableEq, Repr

structure ConnectionClose where
  isTransport : Bool
  errorCode : Nat
  /-- Only meaningful for a transport close. -/
  frameType : Nat := 0
  reasonPhrase : List Byte
  deriving DecidableEq, Repr

/-- One step down the list of acknowledged ranges. -/
structure AckRange where
  gap : Nat
  length : Nat
  deriving DecidableEq, Repr

structure EcnCounts where
  ect0 : Nat
  ect1 : Nat
  ecnCe : Nat
  deriving DecidableEq, Repr

structure Ack where
  largestAcked : Nat
  ackDelay : Nat
  firstRange : Nat
  rangeCount : Nat
  rangesBytes : List Byte
  ecnCounts : Option EcnCounts := none
  deriving DecidableEq, Repr

structure PathAck where
  pathId : Nat
  largestAcked : Nat
  ackDelay : Nat
  firstRange : Nat
  rangeCount : Nat
  rangesBytes : List Byte
  ecnCounts : Option EcnCounts := none
  deriving DecidableEq, Repr

structure PathAbandon where
  pathId : Nat
  errorCode : Nat
  deriving DecidableEq, Repr

structure PathStatus where
  pathId : Nat
  sequenceNumber : Nat
  deriving DecidableEq, Repr

structure PathNewConnectionId where
  pathId : Nat
  sequenceNumber : Nat
  retirePriorTo : Nat
  connectionId : ConnId
  statelessResetToken : Fixed 16
  deriving DecidableEq, Repr

structure PathRetireConnectionId where
  pathId : Nat
  sequenceNumber : Nat
  deriving DecidableEq, Repr

structure MaxPathId where
  maximumPathId : Nat
  deriving DecidableEq, Repr

structure PathsBlocked where
  maximumPathId : Nat
  deriving DecidableEq, Repr

structure PathCidsBlocked where
  pathId : Nat
  nextSequenceNumber : Nat
  deriving DecidableEq, Repr

/-- `AlternativeV4Address` and `AlternativeV6Address`, which differ in the size of the address. -/
structure AlternativeAddress (size : Nat) where
  preferred : Bool
  retire : Bool
  statusSequenceNumber : Nat
  address : Fixed size
  port : Nat
  deriving DecidableEq, Repr

structure Stream where
  streamId : Nat
  offset : Nat := 0
  data : List Byte
  hasOffset : Bool := false
  hasLength : Bool := true
  fin : Bool := false
  deriving DecidableEq, Repr

structure Datagram where
  data : List Byte
  hasLength : Bool := true
  deriving DecidableEq, Repr

structure AckFrequency where
  sequenceNumber : Nat
  ackElicitingThreshold : Nat
  requestMaxAckDelayUs : Nat
  reorderingThreshold : Nat
  deriving DecidableEq, Repr

end QuicZig.Frame

namespace QuicZig
open QuicZig.Frame

inductive Frame where
  | padding (f : Padding)
  | ping
  | ack (f : Ack)
  | resetStream (f : ResetStream)
  | stopSending (f : StopSending)
  | crypto (f : Crypto)
  | newToken (f : NewToken)
  | stream (f : Stream)
  | maxData (f : MaxData)
  | maxStreamData (f : MaxStreamData)
  | maxStreams (f : MaxStreams)
  | dataBlocked (f : DataBlocked)
  | streamDataBlocked (f : StreamDataBlocked)
  | streamsBlocked (f : StreamsBlocked)
  | newConnectionId (f : NewConnectionId)
  | retireConnectionId (f : RetireConnectionId)
  | pathChallenge (f : PathChallenge)
  | pathResponse (f : PathResponse)
  | connectionClose (f : ConnectionClose)
  | handshakeDone
  | datagram (f : Datagram)
  | pathAck (f : PathAck)
  | pathAbandon (f : PathAbandon)
  | pathStatusBackup (f : PathStatus)
  | pathStatusAvailable (f : PathStatus)
  | pathNewConnectionId (f : PathNewConnectionId)
  | pathRetireConnectionId (f : PathRetireConnectionId)
  | maxPathId (f : MaxPathId)
  | pathsBlocked (f : PathsBlocked)
  | pathCidsBlocked (f : PathCidsBlocked)
  | alternativeV4Address (f : AlternativeAddress 4)
  | alternativeV6Address (f : AlternativeAddress 16)
  | ackFrequency (f : AckFrequency)
  | immediateAck
  deriving DecidableEq, Repr

end QuicZig
