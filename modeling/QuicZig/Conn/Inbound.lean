import QuicZig.Conn.CryptoRecv
import QuicZig.Conn.PeerCredit
import QuicZig.Conn.RecvPacket
import QuicZig.Conn.RecvStream
import QuicZig.Conn.SendFlowRun
import QuicZig.Conn.StreamBlocked
import QuicZig.Library.Ledger

/-! A connection with both halves of its streams: what the peer's frames put into its
buffers, what the application takes out, and the one memory budget that they share. -/
namespace QuicZig.Conn.Inbound
open Machine Paths Streams SendFlow

inductive Error where
  | flow (error : SendFlow.Error)
  | recv (error : RecvStream.Error)
  | crypto (error : CryptoBuffer.Error)
  | blocked (error : BlockedStreams.Error)
  | send (error : SendStream.Error)
  | streamNotReadable | streamNotWritable | streamNotFound | consumeBeyondReadable
  | excessiveLoad | outOfMemory
  /-- A failed assertion. -/
  | trap
  deriving DecidableEq, Repr

/-- A receive window that tunes itself, and the epoch it is tuned on. -/
structure Window where
  window : Nat := 0
  epochStartOffset : Nat := 0
  epochStartUs : Nat := 0
  deriving DecidableEq, Repr

/-- The fields of a stream that belong to its receive half. -/
structure RecvHalf where
  recv : RecvStream := .init RecvStream.defaultMaxBufferedSpan
  recvMaxData : Nat := 0
  recvWindow : Window := {}
  recvStopped : Bool := false
  deriving DecidableEq, Repr

/-- The frames that wait to be sent for the receive side. -/
structure PendingFrames where
  maxData : Option Nat := none
  maxStreamData : List (Nat × Nat) := []
  maxStreamsBidi : Option Nat := none
  maxStreamsUni : Option Nat := none
  stopSending : List (Nat × Nat) := []
  deriving DecidableEq, Repr

/-- `flow` is the send side and has the stream table. The entry of an id in `half` is the receive half of its
stream, and stays as it was when the stream is gone. -/
structure Connection where
  flow : SendFlow.Connection
  half : Nat → RecvHalf := fun _ => {}
  resident : Resident := {}
  blocked : BlockedStreams := {}
  crypto : EncryptionLevel → CryptoRecv := fun _ => {}
  recvDatagrams : List (List Byte) := []
  localTransportParams : Tls.TransportParams.Params := {}
  localMaxData : Nat := 0
  peerSentStreamData : Nat := 0
  recvStreamBytesRead : Nat := 0
  connRecvWindow : Window := {}
  pendingFrames : PendingFrames := {}
  peerDataBlockedAt : Option Nat := none
  peerStreamsBlockedBidi : Option Nat := none
  peerStreamsBlockedUni : Option Nat := none
  autoTuneReceiveWindows : Bool := true
  maxStreamReceiveWindow : Nat := 8*1024*1024
  maxConnectionReceiveWindow : Nat := 16*1024*1024
  clockUs : Nat := 0
  smoothedRttUs : Nat := 0

abbrev Outcome (α : Type) := Except Error α × Connection

def transportErrorFlowControl : Nat := 0x03

def transportErrorFinalSize : Nat := 0x06

def maxConcurrentStreamsPerKind : Nat := 4096

def maxSupportedUdpPayloadSize : Nat := 4096

def maxPendingDatagramBytes : Nat := 64*1024

def recvDatagramItemOverhead : Nat := 48

def gcBatch : Nat := 128

def maxInitialConnectionReceiveWindow : Nat := 16*1024*1024

def recvFullyTerminated (h : RecvHalf) : Bool :=
  h.recv.state = .dataRecvd ∨ h.recv.state = .dataRead ∨ h.recv.state = .resetRecvd ∨ h.recv.state = .resetRead

def shouldQueueReceiveCredit (consumed advertised window : Nat) : Bool :=
  if consumed = 0 then false
  else if saturatingAdd consumed window ≤ advertised then false
  else if consumed ≥ advertised then true
  else advertised-consumed ≤ window/2

namespace Connection

def close (conn : Connection) (errorCode : Nat) (reason : String) : Connection :=
  {conn with flow := conn.flow.close true errorCode reason}

def live (conn : Connection) : Bool := conn.flow.live

def modifyHalf (conn : Connection) (id : Nat) (f : RecvHalf → RecvHalf) : Connection :=
  {conn with half := Function.update conn.half id (f (conn.half id))}

def setRecv (conn : Connection) (id : Nat) (recv : RecvStream) : Connection :=
  conn.modifyHalf id fun h => {h with recv := recv}

/-- The receive half of `id` goes on, and the budget gets back what its buffer became shorter by. -/
def shrinkRecv (conn : Connection) (id : Nat) (recv : RecvStream) : Connection :=
  {conn.setRecv id recv with
    resident := conn.resident.releaseResidentBytes ((conn.half id).recv.bytes.length-recv.bytes.length)}

/-- Every receive buffer gives back the charge of its consumed prefix. -/
def compactReceivePrefixes (conn : Connection) : Connection :=
  (conn.flow.streams.map (·.id)).foldl (fun conn id =>
    if peerMaySendOnStream conn.flow.role id then conn.shrinkRecv id (conn.half id).recv.compactPrefix else conn) conn

def connectionWindowCap (conn : Connection) : Nat :=
  min conn.maxConnectionReceiveWindow (conn.resident.maxConnectionMemory/2)

def receiveShare (conn : Connection) : Nat := max conn.connRecvWindow.window conn.connectionWindowCap

def writerBudget (conn : Connection) : Nat := conn.resident.maxConnectionMemory-conn.receiveShare

/-- `true` when the window grew. -/
def tuneWindow (conn : Connection) (w : Window) (consumed cap : Nat) : Bool × Window :=
  let consumedInEpoch := consumed-w.epochStartOffset
  if !conn.autoTuneReceiveWindows then (false,w)
  else if consumedInEpoch < w.window/2 then (false,w)
  else
    let started := {w with epochStartOffset := consumed,epochStartUs := conn.clockUs}
    let elapsed := conn.clockUs-w.epochStartUs
    let budget := min (4*consumedInEpoch*conn.smoothedRttUs/max w.window 1) maxU64
    if w.epochStartUs = 0 then (false,started)
    else if elapsed ≥ budget ∨ w.window ≥ cap then (false,started)
    else (true,{started with window := min (min (w.window*2) maxU64) cap})

/-- The append may fail; the limit of the stream is raised before it. -/
def queueMaxStreamData (granted : Bool) (conn : Connection) (streamId maximumStreamData : Nat) : Outcome Unit :=
  let conn := if (conn.flow.get streamId).isSome then
      conn.modifyHalf streamId fun h => {h with recvMaxData := max h.recvMaxData maximumStreamData}
    else conn
  let conn := {conn with blocked := {conn.blocked with
    peerStreamDataBlocked := BlockedStreams.clearStreamBlocked conn.blocked.peerStreamDataBlocked streamId maximumStreamData}}
  let pending := conn.pendingFrames.maxStreamData
  if (pending.find? (·.1 = streamId)).isSome then
    (.ok (),{conn with pendingFrames := {conn.pendingFrames with
      maxStreamData := FirstMatch.update (·.1 = streamId) (fun item => (item.1,max item.2 maximumStreamData)) pending}})
  else if !granted then (.error .outOfMemory,conn)
  else
    (.ok (),{conn with pendingFrames := {conn.pendingFrames with maxStreamData := pending ++ [(streamId,maximumStreamData)]}})

def queueMaxData (conn : Connection) (maximumData : Nat) : Connection :=
  {conn with
    localMaxData := max conn.localMaxData maximumData
    peerDataBlockedAt := if conn.peerDataBlockedAt.any (maximumData > ·) then none else conn.peerDataBlockedAt
    pendingFrames := if conn.pendingFrames.maxData.all (maximumData > ·) then
        {conn.pendingFrames with maxData := some maximumData}
      else conn.pendingFrames}

/-- The slots of one kind: the limit of the peer, where it says it is blocked, and the frame to send. -/
def raiseMaxStreams (conn : Connection) (bidi : Bool) (limit : Nat) : Connection :=
  let ids := conn.flow.ids
  if bidi then
    {conn with
      flow := {conn.flow with ids := {ids with peerBidiIds := {ids.peerBidiIds with limit := limit}}}
      peerStreamsBlockedBidi := if conn.peerStreamsBlockedBidi.any (limit > ·) then none else conn.peerStreamsBlockedBidi
      pendingFrames := if conn.pendingFrames.maxStreamsBidi.all (limit > ·) then
          {conn.pendingFrames with maxStreamsBidi := some limit}
        else conn.pendingFrames}
  else
    {conn with
      flow := {conn.flow with ids := {ids with peerUniIds := {ids.peerUniIds with limit := limit}}}
      peerStreamsBlockedUni := if conn.peerStreamsBlockedUni.any (limit > ·) then none else conn.peerStreamsBlockedUni
      pendingFrames := if conn.pendingFrames.maxStreamsUni.all (limit > ·) then
          {conn.pendingFrames with maxStreamsUni := some limit}
        else conn.pendingFrames}

def peerIds (conn : Connection) (bidi : Bool) : StreamIdSpace :=
  if bidi then conn.flow.ids.peerBidiIds else conn.flow.ids.peerUniIds

def queueMaxStreams (conn : Connection) (bidi : Bool) (maximumStreams : Nat) : Connection :=
  if conn.flow.gracefulShutdown then conn
  else if maximumStreams > StreamIdSpace.maxStreamCount then conn
  else
    let ids := conn.peerIds bidi
    let bounded := min maximumStreams (saturatingAdd ids.closed maxConcurrentStreamsPerKind)
    if bounded ≤ ids.limit then conn else conn.raiseMaxStreams bidi bounded

def maybeAdvertiseStreamCredit (conn : Connection) (bidi : Bool) : Connection :=
  match (conn.peerIds bidi).creditToAdvertise (if bidi then conn.peerStreamsBlockedBidi else conn.peerStreamsBlockedUni) with
  | none => conn
  | some newLimit => conn.queueMaxStreams bidi newLimit

/-- `n` bytes are done with: read, or never going to be read. -/
def creditConnectionRecvWindow (conn : Connection) (n : Nat) : Connection :=
  if n = 0 then conn else
  let read := conn.recvStreamBytesRead+n
  let (_,w) := conn.tuneWindow conn.connRecvWindow read conn.connectionWindowCap
  let conn := {conn with recvStreamBytesRead := read,connRecvWindow := w}
  if shouldQueueReceiveCredit read conn.localMaxData w.window then conn.queueMaxData (saturatingAdd read w.window) else conn

/-- The loop of `discardStopped`. `none` is an assertion of `consume`, which `discardTurns_effect` excludes. -/
def discardTurns (id : Nat) : Nat → Connection → Connection
  | 0,conn => conn
  | turns+1,conn =>
    let n := (conn.half id).recv.peek.length
    match (conn.half id).recv.consume n with
    | none => conn
    | some after =>
      let conn := (conn.shrinkRecv id after).creditConnectionRecvWindow n
      if n = 0 then conn else discardTurns id turns conn

/-- A turn that reads something takes the first range out, so one turn more than there are ranges is enough. -/
def discardStopped (conn : Connection) (id : Nat) : Connection :=
  conn.discardTurns id ((conn.half id).recv.ranges.length+1)

def initialRecvStreamLimit (conn : Connection) (id : Nat) : Nat :=
  let params := conn.localTransportParams
  if streamIsUni id then
    if streamInitiatedByLocal conn.flow.role id then 0 else params.initialMaxStreamDataUni
  else if streamInitiatedByLocal conn.flow.role id then params.initialMaxStreamDataBidiLocal
  else params.initialMaxStreamDataBidiRemote

/-- The receive half of a stream that is made now. -/
def freshHalf (conn : Connection) (id : Nat) : Connection :=
  let limit := conn.initialRecvStreamLimit id
  conn.modifyHalf id fun _ => {recvMaxData := limit,recvWindow := {window := limit}}

/-- What the stream table did for an id; a stream that is new has a receive half too. -/
def adopt {α : Type} (conn : Connection) (id : Nat) (outcome : SendFlow.Outcome α) : Outcome α :=
  let after := {conn with flow := outcome.2}
  (outcome.1.mapError .flow,
    if (conn.flow.get id).isNone && (outcome.2.get id).isSome then after.freshHalf id else after)

/-- The same for a frame of the peer: the open may have used the peer's last id. -/
def adoptPeer (conn : Connection) (id : Nat) (outcome : SendFlow.Outcome Bool) : Outcome Bool :=
  let (result,after) := conn.adopt id outcome
  (result,if (conn.flow.get id).isNone && (outcome.2.get id).isSome then
      after.maybeAdvertiseStreamCredit (streamIsBidi id)
    else after)

def ensurePeerStream (grants : Allocator) (conn : Connection) (id : Nat) (frame : SendFlow.Connection.PeerStreamFrame) : Outcome Bool :=
  conn.adoptPeer id (conn.flow.ensurePeerStream grants id frame)

def sendPartForPeerFrame (grants : Allocator) (conn : Connection) (id : Nat) (frame : SendFlow.Connection.SendPartFrame) : Outcome Bool :=
  conn.adoptPeer id (conn.flow.sendPartForPeerFrame grants id frame)

/-- `none` when the connection was closed here. -/
def creditPeerStreamHighWater (conn : Connection) (id newEnd : Nat) (stream conn' : String) : Option Nat × Connection :=
  let h := conn.half id
  match RecvFlow.creditPeerStreamHighWater h.recvMaxData conn.localMaxData conn.peerSentStreamData h.recv.endOffset newEnd with
  | .error .stream => (none,conn.close transportErrorFlowControl stream)
  | .error .conn => (none,conn.close transportErrorFlowControl conn')
  | .ok delta => (some delta,conn)

def reconcileRecvResidentBytes (conn : Connection) (id : Nat) (recv : RecvStream) : Connection :=
  let before := (conn.half id).recv.bytes.length
  let after := recv.bytes.length
  {conn.setRecv id recv with
    resident :=
      if after < before then conn.resident.releaseResidentBytes (before-after)
      else if after > before then conn.resident.concedeResidentBytes (after-before)
      else conn.resident}

/-- The charge of a buffer that grew; `false` when the budget has no room for it, and the connection is closed. -/
def growRecv (conn : Connection) (id : Nat) (recv : RecvStream) : Bool × Connection :=
  let grew := recv.bytes.length-(conn.half id).recv.bytes.length
  let grown := conn.setRecv id recv
  match grown.resident.tryReserveResidentBytes grew with
  | some resident => (true,{grown with resident := resident})
  | none =>
    let compacted := grown.compactReceivePrefixes
    match compacted.resident.tryReserveResidentBytes grew with
    | some resident => (true,{compacted with resident := resident})
    | none =>
      (false,{compacted with resident := compacted.resident.concedeResidentBytes grew}.close
        transportErrorExcessiveLoad "excessive resource use")

/-- The buffer of a frame that was taken, before the frame is charged. -/
def settleRecv (conn : Connection) (id : Nat) (recv : RecvStream) : Bool × Connection :=
  if recv.bytes.length > (conn.half id).recv.bytes.length then conn.growRecv id recv else (true,conn.shrinkRecv id recv)

/-- Request 0 of the open is `grants 0 0`, of the buffer `grants 1 0`. -/
def handleStream (grants : Nat → Allocator) (conn : Connection) (s : Frame.Stream) : Outcome Unit :=
  match checkedAdd s.offset s.data.length with
  | none => (.ok (),conn.close transportErrorFlowControl "stream offset overflow")
  | some frameEnd =>
    match conn.ensurePeerStream (grants 0) s.streamId .streamData with
    | (.error e,conn) => (.error e,conn)
    | (.ok false,conn) => (.ok (),conn)
    | (.ok true,conn) =>
      match conn.creditPeerStreamHighWater s.streamId frameEnd "peer exceeded stream data limit"
          "peer exceeded connection data limit" with
      | (none,conn) => (.ok (),conn)
      | (some delta,conn) =>
        match (conn.half s.streamId).recv.recv (grants 1) s.offset s.data s.fin with
        | (.error e,recv) =>
          let conn := conn.reconcileRecvResidentBytes s.streamId recv
          match e with
          | .bufferLimitExceeded =>
            (.ok (),conn.close transportErrorProtocolViolation "stream reassembly exceeds allocation limit")
          | .beyondFinalSize | .finalSizeChanged =>
            (.ok (),conn.close transportErrorFinalSize "stream final size changed")
          | .outOfMemory => (.error (.recv e),conn)
        | (.ok _,recv) =>
          match conn.settleRecv s.streamId recv with
          | (false,conn) => (.ok (),conn)
          | (true,conn) =>
            let conn := {conn with peerSentStreamData := conn.peerSentStreamData+delta}
            (.ok (),if (conn.half s.streamId).recvStopped then conn.discardStopped s.streamId else conn)

def handleResetStream (grants : Allocator) (conn : Connection) (rs : Frame.ResetStream) : Outcome Unit :=
  match conn.ensurePeerStream grants rs.streamId .resetStream with
  | (.error e,conn) => (.error e,conn)
  | (.ok false,conn) => (.ok (),conn)
  | (.ok true,conn) =>
    match conn.creditPeerStreamHighWater rs.streamId rs.finalSize "peer reset exceeds stream data limit"
        "peer reset exceeds connection data limit" with
    | (none,conn) => (.ok (),conn)
    | (some delta,conn) =>
      let before := (conn.half rs.streamId).recv
      match before.resetStream rs.applicationErrorCode rs.finalSize with
      | (.error _,_) => (.ok (),conn.close transportErrorFinalSize "reset stream final size changed")
      | (.ok _,recv) =>
        let conn := conn.shrinkRecv rs.streamId recv
        let conn := {conn with peerSentStreamData := conn.peerSentStreamData+delta}
        (.ok (),if before.reset.isNone then conn.creditConnectionRecvWindow (rs.finalSize-recv.readOffset) else conn)

def handleStopSending (grants : Allocator) (conn : Connection) (ss : Frame.StopSending) : Outcome Unit :=
  match conn.sendPartForPeerFrame grants ss.streamId .stopSending with
  | (.error e,conn) => (.error e,conn)
  | (.ok false,conn) => (.ok (),conn)
  | (.ok true,conn) => (.ok (),{conn with flow := conn.flow.modify ss.streamId (SendFlow.Connection.resetOne ss.applicationErrorCode)})

def handleMaxStreamData (grants : Allocator) (conn : Connection) (msd : Frame.MaxStreamData) : Outcome Unit :=
  match conn.sendPartForPeerFrame grants msd.streamId .maxStreamData with
  | (.error e,conn) => (.error e,conn)
  | (.ok false,conn) => (.ok (),conn)
  | (.ok true,conn) =>
    if (conn.flow.get msd.streamId).any (msd.maximumStreamData > ·.sendMaxData) then
      (.ok (),{conn with
        flow := conn.flow.modify msd.streamId fun s => {s with sendMaxData := msd.maximumStreamData}
        blocked := conn.blocked.clearLocalStreamDataBlocked msd.streamId msd.maximumStreamData})
    else (.ok (),conn)

/-- `none` is an id within the limits; otherwise why the connection is closed. -/
def beyondLocalLimit (conn : Connection) (id : Nat) : Option (Nat × String) :=
  let idx := streamIndex id
  if idx ≥ StreamIdSpace.maxStreamCount then some (transportErrorFrameEncoding,"stream id exceeds stream count space")
  else if idx ≥ (conn.peerIds (streamIsBidi id)).limit then
    some (transportErrorStreamLimit,if streamIsBidi id then "peer referenced bidirectional stream above limit"
      else "peer referenced unidirectional stream above limit")
  else none

def handleStreamDataBlocked (granted : Bool) (conn : Connection) (sdb : Frame.StreamDataBlocked) : Outcome Unit :=
  if !peerMaySendOnStream conn.flow.role sdb.streamId then
    (.ok (),conn.close transportErrorStreamState "stream data blocked for receive-only stream")
  else if streamIndex sdb.streamId ≥ StreamIdSpace.maxStreamCount then
    (.ok (),conn.close transportErrorFrameEncoding "stream data blocked exceeds stream id space")
  else
    let existing := conn.flow.get sdb.streamId
    if existing.isNone && streamInitiatedByLocal conn.flow.role sdb.streamId then (.ok (),conn) else
    match if existing.isNone then conn.beyondLocalLimit sdb.streamId else none with
    | some (errorCode,reason) => (.ok (),conn.close errorCode reason)
    | none =>
      match BlockedStreams.upsertStreamBlocked granted conn.blocked.peerStreamDataBlocked sdb with
      | (.error .streamLimitExceeded,_) =>
        (.ok (),conn.close transportErrorProtocolViolation "stream data blocked tracking exhausted")
      | (.error e,_) => (.error (.blocked e),conn)
      | (.ok _,list) => (.ok (),{conn with blocked := {conn.blocked with peerStreamDataBlocked := list}})

def handleStreamsBlocked (conn : Connection) (sb : Frame.StreamsBlocked) : Connection :=
  if sb.maximumStreams > StreamIdSpace.maxStreamCount then
    conn.close transportErrorFrameEncoding "streams blocked exceeds stream id space"
  else
    let conn := if sb.bidi then {conn with peerStreamsBlockedBidi := some sb.maximumStreams}
      else {conn with peerStreamsBlockedUni := some sb.maximumStreams}
    conn.maybeAdvertiseStreamCredit sb.bidi

/-- The levels share the budget and the close. -/
def handleCrypto (grants : Allocator) (conn : Connection) (lvl : EncryptionLevel) (cr : Frame.Crypto) : Outcome Unit :=
  let (result,s) := CryptoRecv.handleCrypto grants
    {conn.crypto lvl with resident := conn.resident,pendingClose := conn.flow.pendingClose} cr
  (result.mapError .crypto,{conn with
    crypto := Function.update conn.crypto lvl s
    resident := s.resident
    flow := {conn.flow with pendingClose := s.pendingClose}})

/-- TLS takes what waits at a level. -/
def drainInbox (conn : Connection) (lvl : EncryptionLevel) : Connection :=
  let s := conn.crypto lvl
  {conn with crypto := Function.update conn.crypto lvl {s with inbox := s.inbox.drain.2}}

/-- `recv_datagram_bytes`. -/
def recvDatagramBytes (conn : Connection) : Nat := (conn.recvDatagrams.map List.length).sum

def levels : List EncryptionLevel := [.initial,.earlyData,.handshake,.application]

/-- The bytes that the budget should be charged for. -/
def residentBytesSum (conn : Connection) : Nat :=
  (conn.flow.streams.map fun s => s.send.bytes.live+(conn.half s.id).recv.bytes.length).sum+
    (levels.map fun lvl => (conn.crypto lvl).cryptoPendingBytes).sum+conn.recvDatagramBytes

/-- The queue takes a datagram that the budget has room for. Request 0 is for the copy, 1 for the queue. -/
def queueDatagram (grants : Allocator) (conn : Connection) (resident : Resident) (data : List Byte) : Outcome Unit :=
  if !grants 0 || !grants 1 then
    (.error .outOfMemory,{conn with resident := resident.releaseResidentBytes data.length})
  else (.ok (),{conn with resident := resident,recvDatagrams := conn.recvDatagrams ++ [data]})

/-- A datagram that finds no room is dropped. -/
def handleDatagram (grants : Allocator) (conn : Connection) (dg : Frame.Datagram) : Outcome Unit :=
  let localMax := conn.localTransportParams.maxDatagramFrameSize
  if localMax = 0 ∨ dg.data.length > localMax ∨ dg.data.length > maxSupportedUdpPayloadSize then
    (.ok (),conn.close transportErrorProtocolViolation "datagram exceeds local limit")
  else
    let need := dg.data.length+recvDatagramItemOverhead
    let used := conn.recvDatagramBytes+conn.recvDatagrams.length*recvDatagramItemOverhead
    if need > maxPendingDatagramBytes ∨ used > maxPendingDatagramBytes-need then (.ok (),conn) else
    match conn.resident.tryReserveResidentBytes dg.data.length with
    | some resident => conn.queueDatagram grants resident dg.data
    | none =>
      let conn := conn.compactReceivePrefixes
      match conn.resident.tryReserveResidentBytes dg.data.length with
      | some resident => conn.queueDatagram grants resident dg.data
      | none => (.ok (),conn)

def receiveDatagramInfo (conn : Connection) : Connection :=
  match conn.recvDatagrams with
  | [] => conn
  | item::rest => {conn with recvDatagrams := rest,resident := conn.resident.releaseResidentBytes item.length}

/-- The part of `afterStreamConsume` that gives the stream its credit. -/
def creditStream (granted : Bool) (conn : Connection) (id : Nat) : Outcome Unit :=
  let h := conn.half id
  let pace := if h.recv.readableBytes = 0 then max h.recv.readOffset h.recv.endOffset else h.recv.readOffset
  let connCap := conn.connectionWindowCap
  let (grew,w) := conn.tuneWindow h.recvWindow pace (min conn.maxStreamReceiveWindow connCap)
  let conn := conn.modifyHalf id fun h => {h with recvWindow := w}
  let floor := min (saturatingAdd w.window (w.window/2)) connCap
  let conn := if grew && conn.connRecvWindow.window < floor then
      {conn with connRecvWindow := {conn.connRecvWindow with window := floor}}
    else conn
  if shouldQueueReceiveCredit h.recv.readOffset h.recvMaxData w.window then
    conn.queueMaxStreamData granted id (saturatingAdd h.recv.readOffset w.window)
  else (.ok (),conn)

def afterStreamConsume (granted : Bool) (conn : Connection) (id : Nat) (recv : RecvStream) (n : Nat) : Outcome Unit :=
  let conn := conn.shrinkRecv id recv
  if n = 0 then (.ok (),conn) else
  match conn.creditStream granted id with
  | (.error e,conn) => (.error e,conn)
  | (.ok _,conn) => (.ok (),conn.creditConnectionRecvWindow n)

def streamRead (granted : Bool) (conn : Connection) (id dstLen : Nat) : Outcome (List Byte) :=
  if !peerMaySendOnStream conn.flow.role id then (.error .streamNotReadable,conn)
  else if (conn.flow.get id).isNone then (.error .streamNotFound,conn)
  else match (conn.half id).recv.read dstLen with
    | none => (.error .trap,conn)
    | some (bytes,recv) =>
      let (result,conn) := conn.afterStreamConsume granted id recv bytes.length
      (result.map fun _ => bytes,conn)

def streamConsume (granted : Bool) (conn : Connection) (id n : Nat) : Outcome Unit :=
  if !peerMaySendOnStream conn.flow.role id then (.error .streamNotReadable,conn)
  else if (conn.flow.get id).isNone then (.error .streamNotFound,conn)
  else if n > (conn.half id).recv.peek.length then (.error .consumeBeyondReadable,conn)
  else match (conn.half id).recv.consume n with
    | none => (.error .trap,conn)
    | some recv => conn.afterStreamConsume granted id recv n

local instance lawful_items : LawfulBEq (Nat × Nat) := inferInstance

def queueStopSending (granted : Bool) (conn : Connection) (item : Nat × Nat) : Outcome Unit :=
  if item ∈ conn.pendingFrames.stopSending then (.ok (),conn)
  else if !granted then (.error .outOfMemory,conn)
  else (.ok (),{conn with pendingFrames := {conn.pendingFrames with stopSending := conn.pendingFrames.stopSending ++ [item]}})

def streamStopSending (grants : Nat → Allocator) (conn : Connection) (id applicationErrorCode : Nat) : Outcome Unit :=
  if !peerMaySendOnStream conn.flow.role id then (.error .streamNotReadable,conn) else
  match conn.adopt id (conn.flow.streamStopSending (grants 0) id) with
  | (.error e,conn) => (.error e,conn)
  | (.ok _,conn) =>
    if recvFullyTerminated (conn.half id) then (.ok (),conn) else
    match conn.queueStopSending (grants 1 0) (id,applicationErrorCode) with
    | (.error e,conn) => (.error e,conn)
    | (.ok _,conn) => (.ok (),conn.modifyHalf id fun h => {h with recvStopped := true})

/-- A write takes what the writer's budget leaves. -/
def streamWrite (grants : Allocator) (conn : Connection) (id : Nat) (data : List Byte) : Outcome Nat :=
  if !localMaySendOnStream conn.flow.role id then (.error .streamNotWritable,conn) else
  match conn.flow.get id with
  | none => (.error .streamNotFound,conn)
  | some s =>
    let send := conn.flow.followCredit s
    let headroom := send.maxBuffered-s.send.bytes.live
    let budgetLeft := conn.writerBudget-conn.resident.bytesResident
    let want := min data.length (min headroom budgetLeft)
    match conn.resident.tryReserveResidentBytes want with
    | none => (.error .excessiveLoad,{conn with flow := conn.flow.modify id fun s => {s with send := send}})
    | some resident =>
      let (result,send) := send.write grants (data.take want)
      let conn := {conn with flow := conn.flow.modify id fun s => {s with send := send}}
      match result with
      | .error e => (.error (.send e),{conn with resident := resident.releaseResidentBytes want})
      | .ok accepted => (.ok accepted,{conn with resident := resident.releaseResidentBytes (want-accepted)})

/-- The loop over the streams that a packet had data of; request `n` and what follows are for reference `n`. -/
def dispatchAckedPacketToStreams (grants : Nat → Allocator) : Nat → List (Nat × Nat) → Connection → Outcome Unit
  | _,[],conn => (.ok (),conn)
  | n,(id,key)::rest,conn =>
    match conn.flow.get id with
    | none => dispatchAckedPacketToStreams grants (n+1) rest conn
    | some s =>
      match s.send.onPacketAcked (grants n) key with
      | (.error .unknownPacket,_) => dispatchAckedPacketToStreams grants (n+1) rest conn
      | (.error e,send) => (.error (.send e),{conn with flow := conn.flow.modify id fun s => {s with send := send}})
      | (.ok _,send) =>
        dispatchAckedPacketToStreams grants (n+1) rest {conn with
          flow := conn.flow.modify id fun s => {s with send := send}
          resident := conn.resident.releaseResidentBytes (s.send.bytes.live-send.bytes.live)}

def streamFullyTerminated (conn : Connection) (s : SendFlow.Stream) : Bool :=
  conn.flow.streamFullyTerminated (recvFullyTerminated (conn.half s.id)) s

/-- The streams to reclaim among the candidates, once the stopped ones are read to their end. A candidate
is a live stream. -/
def collectGc (room : Nat) : List Nat → Connection → List Nat × Connection
  | [],conn => ([],conn)
  | id::rest,conn =>
    match conn.flow.get id with
    | none => collectGc room rest conn
    | some s =>
      let conn := if (conn.half id).recvStopped then conn.discardStopped id else conn
      if !conn.streamFullyTerminated s then collectGc room rest conn
      else if room = 0 then ([],conn)
      else
        let (batch,conn) := collectGc (room-1) rest conn
        (id::batch,conn)

/-- A stream leaves the table. -/
def retire (conn : Connection) (id : Nat) : Connection :=
  match conn.flow.get id with
  | none => conn
  | some s =>
    let conn := {conn with flow := {conn.flow with streams := conn.flow.streams.filter (·.id ≠ id)}}
    let conn := if conn.flow.ids.Used conn.flow.role id then
        let closed := {conn with flow := {conn.flow with ids := conn.flow.ids.modify conn.flow.role id (·.noteClosed)}}
        if streamInitiatedByLocal conn.flow.role id then closed else closed.maybeAdvertiseStreamCredit (streamIsBidi id)
      else conn
    {conn with resident := conn.resident.releaseResidentBytes (s.send.bytes.live+(conn.half id).recv.bytes.length)}

/-- `candidates` are the streams named for a cleanup, or all, in the order of the table. -/
def gcClosedStreams (conn : Connection) (candidates : List Nat) : Connection :=
  let (batch,conn) := collectGc gcBatch candidates conn
  batch.foldl retire conn

/-- The chunk of a stream that its credit allows, and the note of a stream that has none. -/
def limitChunkToSendFlowAfterPlanned (notes : Allocator) (flow : SendFlow.Connection) (blocked : BlockedStreams)
    (s : SendFlow.Stream) (chunk : Chunk) (planned : Nat) : Except Error (Option Chunk) × BlockedStreams :=
  let limited := (flow.limitChunkToSendFlowAfterPlanned true s chunk planned).mapError .flow
  if localMaySendOnStream flow.role s.id ∧ chunk.length ≠ 0 ∧ chunk.offset+chunk.length ≤ maxU64 ∧
      chunk.offset+chunk.length > s.sendFlowHighest ∧ s.sendMaxData ≤ s.sendFlowHighest then
    match blocked.noteStreamDataBlocked notes ⟨s.id,s.sendMaxData⟩ with
    | (.error e,blocked) => (.error (.blocked e),blocked)
    | (.ok _,blocked) => (limited,blocked)
  else (limited,blocked)

/-- The loop over the ready streams, with the notes it takes. -/
def pack (notes grants : Nat → Allocator) (maxPayload : Nat) :
    Nat → List Nat → BlockedStreams → Packet → Except Error Unit × BlockedStreams × Packet
  | _,[],blocked,p => (.ok (),blocked,p)
  | n,id::rest,blocked,p =>
    if p.sentChunks.length ≥ maxStreamKeysPerPacket then (.ok (),blocked,p)
    else if maxPayload ≤ p.plPos+streamOverhead then (.ok (),blocked,p) else
    let budget := maxPayload-p.plPos-streamOverhead
    match p.conn.get id with
    | none => pack notes grants maxPayload (n+1) rest blocked p
    | some s =>
      match s.send.peekChunk budget with
      | none => pack notes grants maxPayload (n+1) rest blocked p
      | some rawChunk =>
        match limitChunkToSendFlowAfterPlanned (notes n) p.conn blocked s rawChunk p.plannedConnNewBytes with
        | (.error e,blocked) => (.error e,blocked,p)
        | (.ok none,blocked) => pack notes grants maxPayload (n+1) rest blocked p
        | (.ok (some chunk),blocked) =>
          match p.add (grants n) maxPayload s chunk with
          | (.error e,p) => (.error (.flow e),blocked,p)
          | (.ok _,p) => pack notes grants maxPayload (n+1) rest blocked p

/-- The part of `pollLevelOnPath` that has to do with streams. -/
def poll (notes : Nat → Allocator) (conn : Connection) (p : SendFlow.Poll) : Outcome Unit :=
  match conn.flow.stageReset p with
  | .error e => (.error (.flow e),conn)
  | .ok (reset,pos) =>
    match pack notes (fun n => p.grants (n+1)) p.maxPayload 0 p.ready conn.blocked
        {conn := conn.flow,plPos := pos+p.datagramLen} with
    | (.error e,blocked,packet) => (.error e,{conn with flow := packet.conn,blocked := blocked})
    | (.ok _,blocked,packet) =>
      let flow := if p.sealed' then
          (match reset with
            | none => packet.conn
            | some rs => packet.conn.markResetQueued rs.streamId).commitChunks packet.sentChunks
        else packet.conn
      (.ok (),{conn with flow := flow,blocked := blocked})

end Connection
end QuicZig.Conn.Inbound
