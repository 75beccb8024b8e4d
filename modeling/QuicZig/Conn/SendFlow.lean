import QuicZig.Conn.SendStream
import QuicZig.Conn.StreamIdSpace
import QuicZig.Frame.Encode
import QuicZig.Library.FirstMatch
import QuicZig.Tls.TransportParams

/-! The sending side of a connection's flow control: the limits the peer gave, the
packets that plan stream data against them, and the places that write the limits. -/
namespace QuicZig.Conn.SendFlow
open Machine Paths Streams Tls.TransportParams

inductive Error where
  | outOfMemory
  | invalidStreamId | streamAlreadyOpen | streamLimitExceeded | tooManySkippedStreamIds | shuttingDown
  | streamNotFound | streamNotWritable
  | stream (error : SendStream.Error)
  | params (error : Tls.TransportParams.Error)
  | frame (error : Wire.Error)
  /-- A failed assertion. -/
  | trap
  deriving DecidableEq, Repr

structure Stream where
  id : Nat
  send : SendStream
  sendMaxData : Nat := maxU64
  sendFlowHighest : Nat := 0
  deriving DecidableEq, Repr

structure Connection where
  role : Role
  ids : IdSpaces := {}
  streams : List Stream := []
  /-- The peer's blob, once TLS has it. -/
  peerQuicTransportParams : Option (List Byte) := none
  cachedPeerTransportParams : Option Params := none
  rememberedPeerTransportParams : Option Params := none
  /-- The write secret of the early data level is there. -/
  earlyDataWriteSecret : Bool := false
  earlyDataAccepted : Bool := false
  gracefulShutdown : Bool := false
  maxBufferedSend : Nat := SendStream.defaultMaxBufferedSend
  sendBufferFollowsCredit : Bool := true
  maxBufferedSendCap : Nat := 16*1024*1024
  peerMaxData : Nat := maxU64
  weSentStreamData : Nat := 0
  nextStreamPacketKey : Nat := 0
  pendingClose : Option ConnectionClose := none
  deriving DecidableEq, Repr

abbrev Outcome (α : Type) := Except Error α × Connection

def transportErrorStreamLimit : Nat := 0x04

def transportErrorStreamState : Nat := 0x05

def transportErrorTransportParameter : Nat := 0x08

def maxLocalSkippedStreamRanges : Nat := 64

def minQuicUdpPayloadSize : Nat := 1200

namespace Connection

def close (conn : Connection) (isTransport : Bool) (errorCode : Nat) (reason : String) : Connection :=
  if conn.pendingClose.isSome then conn else {conn with pendingClose := some ⟨isTransport,errorCode,reason⟩}

def get (conn : Connection) (id : Nat) : Option Stream := conn.streams.find? (·.id = id)

def modify (conn : Connection) (id : Nat) (f : Stream → Stream) : Connection :=
  {conn with streams := FirstMatch.update (·.id = id) f conn.streams}

def initialSendStreamLimit (conn : Connection) (id : Nat) : Nat :=
  match conn.cachedPeerTransportParams <|> conn.rememberedPeerTransportParams with
  | none => if conn.earlyDataWriteSecret then maxU64 else 0
  | some params =>
    if streamIsUni id then
      if streamInitiatedByLocal conn.role id then params.initialMaxStreamDataUni else 0
    else if streamInitiatedByLocal conn.role id then params.initialMaxStreamDataBidiRemote
    else params.initialMaxStreamDataBidiLocal

def ofIdSpace : StreamIdSpace.Error → Error
  | .outOfMemory => .outOfMemory
  | .tooManySkippedIds => .tooManySkippedStreamIds
  | .limitExceeded => .streamLimitExceeded
  | .alreadyUsed => .streamAlreadyOpen

/-- The memory comes first and the id space last. -/
def materializeStream (grants : Allocator) (conn : Connection) (id : Nat) (maxHoleRanges : Option Nat) : Outcome Unit :=
  if !grants 0 || !grants 1 then (.error .outOfMemory,conn) else
  match (conn.ids.idSpace conn.role id).open (grants 2) (streamIndex id) maxHoleRanges with
  | (.error e,space) => (.error (ofIdSpace e),{conn with ids := conn.ids.modify conn.role id fun _ => space})
  | (.ok _,space) =>
    (.ok (),{conn with
      ids := conn.ids.modify conn.role id fun _ => space
      streams := conn.streams ++ [{id := id,send := SendStream.init conn.maxBufferedSend,
                                   sendMaxData := conn.initialSendStreamLimit id}]})

def openLocalStream (grants : Allocator) (conn : Connection) (id : Nat) : Outcome Unit :=
  let idx := streamIndex id
  let ids := conn.ids.idSpace conn.role id
  if (conn.get id).isSome || ids.classify idx = .used then (.error .streamAlreadyOpen,conn)
  else if conn.gracefulShutdown then (.error .shuttingDown,conn)
  else if idx ≥ StreamIdSpace.maxStreamCount then (.error .invalidStreamId,conn)
  else if idx ≥ ids.limit then (.error .streamLimitExceeded,conn)
  else conn.materializeStream grants id (some maxLocalSkippedStreamRanges)

def openBidi (grants : Allocator) (conn : Connection) (id : Nat) : Outcome Unit :=
  if !streamIsBidi id || !streamInitiatedByLocal conn.role id then (.error .invalidStreamId,conn)
  else conn.openLocalStream grants id

def openUni (grants : Allocator) (conn : Connection) (id : Nat) : Outcome Unit :=
  if !streamIsUni id || !streamInitiatedByLocal conn.role id then (.error .invalidStreamId,conn)
  else conn.openLocalStream grants id

/-- `true` when the stream is there to act on. -/
def openPeerStream (grants : Allocator) (conn : Connection) (id : Nat) : Outcome Bool :=
  let idx := streamIndex id
  let ids := conn.ids.idSpace conn.role id
  if ids.classify idx = .used then (.ok false,conn)
  else if idx ≥ StreamIdSpace.maxStreamCount then
    (.ok false,conn.close true transportErrorFrameEncoding "stream id exceeds stream count space")
  else if idx ≥ ids.limit then
    (.ok false,conn.close true transportErrorStreamLimit
      (if streamIsBidi id then "peer exceeded bidirectional stream limit" else "peer exceeded unidirectional stream limit"))
  else
    let (result,conn) := conn.materializeStream grants id none
    (result.map fun _ => true,conn)

inductive PeerStreamFrame where
  | streamData | resetStream
  deriving DecidableEq, Repr

def ensurePeerStream (grants : Allocator) (conn : Connection) (id : Nat) (frame : PeerStreamFrame) : Outcome Bool :=
  if !peerMaySendOnStream conn.role id then
    (.ok false,conn.close true transportErrorStreamState (match frame with
      | .streamData => "stream data on receive-only stream"
      | .resetStream => "reset stream on receive-only stream"))
  else if (conn.get id).isSome then (.ok true,conn)
  else if streamInitiatedByLocal conn.role id then
    if (conn.ids.idSpace conn.role id).classify (streamIndex id) = .used then (.ok false,conn)
    else
      (.ok false,conn.close true transportErrorStreamState (match frame with
        | .streamData => "peer referenced unopened local stream"
        | .resetStream => "peer reset unopened local stream"))
  else conn.openPeerStream grants id

inductive SendPartFrame where
  | stopSending | maxStreamData
  deriving DecidableEq, Repr

def sendPartForPeerFrame (grants : Allocator) (conn : Connection) (id : Nat) (frame : SendPartFrame) : Outcome Bool :=
  if !localMaySendOnStream conn.role id then
    (.ok false,conn.close true transportErrorStreamState (match frame with
      | .stopSending => "stop sending for receive-only stream"
      | .maxStreamData => "max stream data for receive-only stream"))
  else if (conn.get id).isSome then (.ok true,conn)
  else if streamInitiatedByLocal conn.role id then
    if (conn.ids.idSpace conn.role id).classify (streamIndex id) = .used then (.ok false,conn)
    else
      (.ok false,conn.close true transportErrorStreamState (match frame with
        | .stopSending => "stop sending for unopened local stream"
        | .maxStreamData => "max stream data for unopened local stream"))
  else conn.openPeerStream grants id

def handleMaxData (conn : Connection) (md : Frame.MaxData) : Connection :=
  if md.maximumData > conn.peerMaxData then {conn with peerMaxData := md.maximumData} else conn

def handleMaxStreamData (grants : Allocator) (conn : Connection) (msd : Frame.MaxStreamData) : Outcome Unit :=
  match conn.sendPartForPeerFrame grants msd.streamId .maxStreamData with
  | (.error e,conn) => (.error e,conn)
  | (.ok false,conn) => (.ok (),conn)
  | (.ok true,conn) =>
    (.ok (),conn.modify msd.streamId fun s =>
      if msd.maximumStreamData > s.sendMaxData then {s with sendMaxData := msd.maximumStreamData} else s)

def handleMaxStreams (conn : Connection) (ms : Frame.MaxStreams) : Connection :=
  if ms.maximumStreams > StreamIdSpace.maxStreamCount then
    conn.close true transportErrorFrameEncoding "max streams exceeds stream id space"
  else
    let raise (ids : StreamIdSpace) : StreamIdSpace :=
      if ms.maximumStreams > ids.limit then {ids with limit := ms.maximumStreams} else ids
    if ms.bidi then {conn with ids := {conn.ids with localBidiIds := raise conn.ids.localBidiIds}}
    else {conn with ids := {conn.ids with localUniIds := raise conn.ids.localUniIds}}

def resetOne (applicationErrorCode : Nat) (s : Stream) : Stream := {s with send := s.send.resetStream applicationErrorCode}

def handleStopSending (grants : Allocator) (conn : Connection) (ss : Frame.StopSending) : Outcome Unit :=
  match conn.sendPartForPeerFrame grants ss.streamId .stopSending with
  | (.error e,conn) => (.error e,conn)
  | (.ok false,conn) => (.ok (),conn)
  | (.ok true,conn) => (.ok (),conn.modify ss.streamId (resetOne ss.applicationErrorCode))

def followCredit (conn : Connection) (s : Stream) : SendStream :=
  if conn.sendBufferFollowsCredit then
    let byCredit := s.sendMaxData-s.send.baseOffset
    let limit := min byCredit conn.maxBufferedSendCap
    if limit > s.send.maxBuffered then {s.send with maxBuffered := limit} else s.send
  else s.send

/-- `budgetLeft` is what the connection's memory budget leaves to a writer. -/
def streamWrite (grants : Allocator) (budgetLeft : Nat) (conn : Connection) (id : Nat) (data : List Byte) : Outcome Nat :=
  if !localMaySendOnStream conn.role id then (.error .streamNotWritable,conn) else
  match conn.get id with
  | none => (.error .streamNotFound,conn)
  | some s =>
    let before := s.send.bytes.live
    let send := conn.followCredit s
    let headroom := send.maxBuffered-before
    let want := min data.length (min headroom budgetLeft)
    let (result,send) := send.write grants (data.take want)
    (result.mapError .stream,conn.modify id fun s => {s with send := send})

def streamFinish (conn : Connection) (id : Nat) : Outcome Unit :=
  if !localMaySendOnStream conn.role id then (.error .streamNotWritable,conn) else
  match conn.get id with
  | none => (.error .streamNotFound,conn)
  | some s =>
    let (result,send) := s.send.finish
    (result.mapError .stream,conn.modify id fun s => {s with send := send})

def streamReset (conn : Connection) (id applicationErrorCode : Nat) : Outcome Unit :=
  if !localMaySendOnStream conn.role id then (.error .streamNotWritable,conn) else
  match conn.get id with
  | none => (.error .streamNotFound,conn)
  | some _ => (.ok (),conn.modify id (resetOne applicationErrorCode))

/-- The part of `streamStopSending` that makes the stream of a skipped id. -/
def streamStopSending (grants : Allocator) (conn : Connection) (id : Nat) : Outcome Unit :=
  if !peerMaySendOnStream conn.role id then (.error .streamNotFound,conn)
  else if (conn.get id).isSome then (.ok (),conn)
  else if streamInitiatedByLocal conn.role id then (.error .streamNotFound,conn)
  else if (conn.ids.idSpace conn.role id).classify (streamIndex id) ≠ .hole then (.error .streamNotFound,conn)
  else conn.materializeStream grants id none

/-- A stream leaves the table when every half that it has came to its end; `recvDone` is the answer of the other half. -/
def streamFullyTerminated (conn : Connection) (recvDone : Bool) (s : Stream) : Bool :=
  if streamIsBidi s.id then s.send.isTerminal && recvDone
  else if streamInitiatedByLocal conn.role s.id then s.send.isTerminal
  else recvDone

/-- One turn of `gcClosedStreams`. -/
def reclaim (recvDone : Bool) (conn : Connection) (id : Nat) : Connection :=
  match conn.get id with
  | none => conn
  | some s =>
    if conn.streamFullyTerminated recvDone s then
      {conn with
        streams := conn.streams.filter (·.id ≠ id)
        ids := if conn.ids.Used conn.role id then conn.ids.modify conn.role id (·.noteClosed) else conn.ids}
    else conn

/-- `noted` is whether the note that the stream is blocked was taken. -/
def limitChunkToSendFlowAfterPlanned (noted : Bool) (conn : Connection) (s : Stream) (chunk : Chunk)
    (plannedConnNewBytes : Nat) : Except Error (Option Chunk) :=
  if !localMaySendOnStream conn.role s.id then .ok none
  else if chunk.length = 0 then .ok (some chunk) else
  match checkedAdd chunk.offset chunk.length with
  | none => .ok none
  | some chunkEnd =>
    let wantsNewData := chunkEnd > s.sendFlowHighest
    let streamNewAllowance := s.sendMaxData-s.sendFlowHighest
    let plannedConnSent := saturatingAdd conn.weSentStreamData plannedConnNewBytes
    let connNewAllowance := conn.peerMaxData-plannedConnSent
    if wantsNewData ∧ streamNewAllowance = 0 ∧ noted = false then .error .outOfMemory
    else
      let newAllowance := min streamNewAllowance connNewAllowance
      let retransmitEnd := if chunk.offset < s.sendFlowHighest then min chunkEnd s.sendFlowHighest else chunk.offset
      let allowedEnd := saturatingAdd retransmitEnd newAllowance
      let sendEnd := min chunkEnd allowedEnd
      if sendEnd ≤ chunk.offset then .ok none
      else .ok (some {chunk with length := sendEnd-chunk.offset,fin := chunk.fin && sendEnd = chunkEnd})

def streamFlowNewBytes (s : Stream) (chunk : Chunk) : Nat :=
  match checkedAdd chunk.offset chunk.length with
  | none => 0
  | some stop => if stop ≤ s.sendFlowHighest then 0 else stop-s.sendFlowHighest

def recordStreamFlowSent (conn : Connection) (id : Nat) (chunk : Chunk) : Connection :=
  match conn.get id with
  | none => conn
  | some s =>
    match checkedAdd chunk.offset chunk.length with
    | none => conn
    | some stop =>
      if stop ≤ s.sendFlowHighest then conn
      else
        let delta := stop-s.sendFlowHighest
        {conn.modify id fun s => {s with sendFlowHighest := stop} with weSentStreamData := conn.weSentStreamData+delta}

end Connection

/-- A chunk that has its place in the packet under construction. -/
structure SentStreamChunk where
  streamId : Nat
  chunk : Chunk
  streamKey : Nat
  deriving DecidableEq, Repr

def maxStreamKeysPerPacket : Nat := 32

def streamOverhead : Nat := 25

/-- The packet under construction, and the connection it is built from. -/
structure Packet where
  conn : Connection
  plPos : Nat
  sentChunks : List SentStreamChunk := []
  plannedConnNewBytes : Nat := 0
  deriving DecidableEq, Repr

namespace Packet

/-- The frame of a chunk, after the checks that may refuse it; request 1 is for the map, 2 for the packet's reference. -/
def add (grants : Allocator) (maxPayload : Nat) (p : Packet) (s : Stream) (chunk : Chunk) : Except Error Unit × Packet :=
  let (reserved,inFlight) := s.send.inFlight.ensureUnusedCapacity (grants 1) 1
  let conn := p.conn.modify s.id fun s => {s with send := {s.send with inFlight := inFlight}}
  let p := {p with conn := conn}
  match reserved with
  | .error _ => (.error .outOfMemory,p)
  | .ok _ =>
    match s.send.chunkBytesContiguous chunk with
    | none => (.error .trap,p)
    | some data =>
      match Frame.encode (.stream {streamId := s.id,offset := chunk.offset,data := data,hasOffset := chunk.offset ≠ 0,
                                   hasLength := true,fin := chunk.fin}) (maxPayload-p.plPos) with
      | .error e => (.error (.frame e),p)
      | .ok wrote =>
        let streamKey := conn.nextStreamPacketKey
        let p := {p with conn := {conn with nextStreamPacketKey := saturatingAdd conn.nextStreamPacketKey 1}}
        if !grants 2 then (.error .outOfMemory,p)
        else
          (.ok (),{p with
            plPos := p.plPos+wrote.length
            sentChunks := p.sentChunks ++ [⟨s.id,chunk,streamKey⟩]
            plannedConnNewBytes := saturatingAdd p.plannedConnNewBytes (Connection.streamFlowNewBytes s chunk)})

/-- The loop over the ready streams. Each turn has three requests of its own. -/
def pack (grants : Nat → Allocator) (maxPayload : Nat) : Nat → List Nat → Packet → Except Error Unit × Packet
  | _,[],p => (.ok (),p)
  | n,id::rest,p =>
    if p.sentChunks.length ≥ maxStreamKeysPerPacket then (.ok (),p)
    else if maxPayload ≤ p.plPos+streamOverhead then (.ok (),p) else
    let budget := maxPayload-p.plPos-streamOverhead
    match p.conn.get id with
    | none => pack grants maxPayload (n+1) rest p
    | some s =>
      match s.send.peekChunk budget with
      | none => pack grants maxPayload (n+1) rest p
      | some rawChunk =>
        match p.conn.limitChunkToSendFlowAfterPlanned (grants n 0) s rawChunk p.plannedConnNewBytes with
        | .error e => (.error e,p)
        | .ok none => pack grants maxPayload (n+1) rest p
        | .ok (some chunk) =>
          match p.add (grants n) maxPayload s chunk with
          | (.error e,p) => (.error e,p)
          | (.ok _,p) => pack grants maxPayload (n+1) rest p

end Packet

namespace Connection

/-- The part of the commit that is about one chunk. The room is reserved, so `recordSent` makes no request. -/
def commitChunk (conn : Connection) (sc : SentStreamChunk) : Connection :=
  (conn.modify sc.streamId fun s => {s with send := (s.send.recordSent false sc.streamKey sc.chunk).2}).recordStreamFlowSent
    sc.streamId sc.chunk

def commitChunks (conn : Connection) (sent : List SentStreamChunk) : Connection := sent.foldl commitChunk conn

def pendingResetStream (conn : Connection) (sendable : List Nat) : Option Stream :=
  (sendable.filterMap conn.get).find? fun s => s.send.reset.any (!·.queued)

def resetFrame (s : Stream) : Option Frame.ResetStream :=
  s.send.reset.map fun ri => {streamId := s.id,applicationErrorCode := ri.errorCode,finalSize := ri.finalSize}

/-- The frame is queued when the packet that carries it is sent. -/
def markResetQueued (conn : Connection) (id : Nat) : Connection :=
  conn.modify id fun s => {s with send := {s.send with reset := s.send.reset.map fun ri => {ri with queued := true}}}

/-- `error_code` and `final_size` of the frame are the ones the stream still has. -/
def resetMatches (s : Stream) (rs : Frame.ResetStream) : Bool :=
  s.send.reset.any fun r => r.errorCode = rs.applicationErrorCode && r.finalSize = rs.finalSize

def dispatchAckedResetStream (conn : Connection) (rs : Frame.ResetStream) : Connection :=
  conn.modify rs.streamId fun s => if resetMatches s rs then {s with send := s.send.onResetAcked} else s

def dispatchLostResetStream (conn : Connection) (rs : Frame.ResetStream) : Connection :=
  conn.modify rs.streamId fun s => if resetMatches s rs then {s with send := s.send.onResetLost} else s

/-- What a packet's acknowledgement does to one stream it had data of. -/
def dispatchAckedStreamRef (grants : Allocator) (conn : Connection) (id key : Nat) : Connection :=
  conn.modify id fun s => {s with send := (s.send.onPacketAcked grants key).2}

def dispatchLostStreamRef (grants : Allocator) (conn : Connection) (id key : Nat) : Connection :=
  conn.modify id fun s => {s with send := (s.send.onPacketLost grants key).2}

def dispatchProbeStreamRef (grants : Allocator) (conn : Connection) (id key : Nat) : Connection :=
  conn.modify id fun s => {s with send := (s.send.onPacketProbeRequeued grants key).2}

def setRememberedPeerTransportParams (conn : Connection) (params : Params) : Connection :=
  let conn := {conn with rememberedPeerTransportParams := some params}
  if conn.cachedPeerTransportParams = none then
    {conn with
      peerMaxData := min conn.peerMaxData params.initialMaxData
      ids := {conn.ids with
        localBidiIds := {conn.ids.localBidiIds with limit := min conn.ids.localBidiIds.limit params.initialMaxStreamsBidi}
        localUniIds := {conn.ids.localUniIds with limit := min conn.ids.localUniIds.limit params.initialMaxStreamsUni}}}
  else conn

def applyPeerFlowTransportParams (conn : Connection) (params : Params) : Connection :=
  {conn with
    peerMaxData := params.initialMaxData
    ids := {conn.ids with
      localBidiIds := {conn.ids.localBidiIds with limit := params.initialMaxStreamsBidi}
      localUniIds := {conn.ids.localUniIds with limit := params.initialMaxStreamsUni}}
    streams := conn.streams.map fun s =>
      let current := if s.sendMaxData = maxU64 then 0 else s.sendMaxData
      {s with sendMaxData := max current (conn.initialSendStreamLimit s.id)}}

/-- What makes `validatePeerTransportLimits` close instead of applying the parameters. -/
def limitsError (params : Params) : Option String :=
  if params.maxUdpPayloadSize < minQuicUdpPayloadSize then some "peer max udp payload below minimum"
  else if params.initialMaxStreamsBidi > StreamIdSpace.maxStreamCount ∨
      params.initialMaxStreamsUni > StreamIdSpace.maxStreamCount then some "peer stream count exceeds maximum"
  else if params.minAckDelayUs.any (· > min (params.maxAckDelayMs*1000) maxU64) then
    some "peer min_ack_delay above its max_ack_delay"
  else none

def validatePeerTransportLimits (conn : Connection) : Connection :=
  match conn.cachedPeerTransportParams with
  | none => conn
  | some params =>
    match limitsError params with
    | some reason => conn.close true transportErrorTransportParameter reason
    | none => conn.applyPeerFlowTransportParams params

def earlyDataParamReduced (fresh remembered : Params) : Option String :=
  if fresh.activeConnectionIdLimit < remembered.activeConnectionIdLimit then some "active_connection_id_limit"
  else if fresh.initialMaxData < remembered.initialMaxData then some "initial_max_data"
  else if fresh.initialMaxStreamDataBidiLocal < remembered.initialMaxStreamDataBidiLocal then
    some "initial_max_stream_data_bidi_local"
  else if fresh.initialMaxStreamDataBidiRemote < remembered.initialMaxStreamDataBidiRemote then
    some "initial_max_stream_data_bidi_remote"
  else if fresh.initialMaxStreamDataUni < remembered.initialMaxStreamDataUni then some "initial_max_stream_data_uni"
  else if fresh.initialMaxStreamsBidi < remembered.initialMaxStreamsBidi then some "initial_max_streams_bidi"
  else if fresh.initialMaxStreamsUni < remembered.initialMaxStreamsUni then some "initial_max_streams_uni"
  else match remembered.initialMaxPathId with
    | none => none
    | some remPathId =>
      match fresh.initialMaxPathId with
      | none => some "initial_max_path_id"
      | some freshPathId => if freshPathId < remPathId then some "initial_max_path_id" else none

def validateEarlyDataParamReduction (conn : Connection) : Connection :=
  match conn.rememberedPeerTransportParams,conn.cachedPeerTransportParams with
  | some remembered,some fresh =>
    if conn.role = .client ∧ conn.earlyDataAccepted ∧ (earlyDataParamReduced fresh remembered).isSome then
      conn.close true transportErrorProtocolViolation "0-RTT transport parameter reduced (RFC 9000 §7.4.1)"
    else conn
  | _,_ => conn

/-- The checks of the role, the tokens and the connection IDs: they may close, and touch none of the limits. -/
def checkRest (conn : Connection) (refused : Option ConnectionClose) : Connection :=
  match refused with
  | none => conn
  | some c => conn.close c.isTransport c.errorCode c.reason

def peerTransportParams (conn : Connection) (refused : Option ConnectionClose) : Outcome (Option Params) :=
  match conn.peerQuicTransportParams with
  | none => (.ok none,conn)
  | some blob =>
    match decode blob with
    | .error e => (.error (.params e),conn)
    | .ok params =>
      (.ok (some params),({conn with cachedPeerTransportParams := some params}.validatePeerTransportLimits).checkRest refused)

def cachePeerTransportParams (conn : Connection) (refused : Option ConnectionClose) : Outcome Unit :=
  if conn.cachedPeerTransportParams.isSome then (.ok (),conn) else
  match conn.peerQuicTransportParams with
  | none => (.ok (),conn)
  | some blob =>
    match decode blob with
    | .error e => (.error (.params e),conn)
    | .ok params =>
      (.ok (),(({conn with cachedPeerTransportParams := some params}.validatePeerTransportLimits).checkRest
        refused).validateEarlyDataParamReduction)

end Connection
end QuicZig.Conn.SendFlow
