import QuicZig.Conn.Inbound
import QuicZig.Conn.RecvHalf

/-! Runs of a connection with both halves of its streams: the frames of the peer, the fate
of packets, the calls of the application and the cleanup. -/
namespace QuicZig.Conn
open Machine Paths Streams

def SendFlow.Call.alone : SendFlow.Call → Bool
  | .streamFinish _ | .streamReset .. | .setRememberedPeerTransportParams _ | .peerTransportParams _ |
    .cachePeerTransportParams _ | .beginGracefulShutdown | .close _ | .tlsTransportParams _ | .tlsEarlyDataSecret |
    .tlsEarlyDataAccepted | .maxData .. | .maxStreams _ | .lost .. | .probeRequeued .. | .resetAcked _ | .resetLost _ => true
  | _ => false

namespace Inbound
open SendFlow

inductive Call where
  | stream (s : Frame.Stream) (varint : s.offset ≤ Wire.Varint.maxValue) (packet : s.data.length ≤ maxSupportedUdpPayloadSize)
  | resetStream (rs : Frame.ResetStream)
  | stopSending (ss : Frame.StopSending)
  | maxStreamData (msd : Frame.MaxStreamData)
  | streamDataBlocked (sdb : Frame.StreamDataBlocked)
  | streamsBlocked (sb : Frame.StreamsBlocked)
  | dataBlocked (maximumData : Nat)
  | crypto (lvl : EncryptionLevel) (cr : Frame.Crypto)
  | datagram (dg : Frame.Datagram)
  /-- A packet with data of these streams, under these keys, is acknowledged. -/
  | acked (refs : List (Nat × Nat))
  /-- A packet with such a frame is lost. -/
  | lostMaxData (maximumData : Nat)
  | lostMaxStreamData (id maximumStreamData : Nat)
  | lostStopSending (item : Nat × Nat)
  | lostStreamDataBlocked (item : Frame.StreamDataBlocked)
  | poll (p : SendFlow.Poll)
  /-- The frame at the head of the queue went out. -/
  | sentMaxData
  | sentMaxStreamData
  | sentMaxStreams (bidi : Bool)
  | sentStopSending
  | sentStreamDataBlocked
  | streamRead (id dstLen : Nat)
  | streamConsume (id n : Nat)
  | streamStopSending (id applicationErrorCode : Nat)
  | streamWrite (id : Nat) (data : List Byte)
  | openBidi (id : Nat)
  | openUni (id : Nat)
  | receiveDatagram
  | queueMaxStreams (bidi : Bool) (maximumStreams : Nat)
  | drainInbox (lvl : EncryptionLevel)
  | gcClosedStreams (candidates : List Nat)
  | clock (nowUs smoothedRttUs : Nat)
  | send (call : SendFlow.Call) (alone : call.alone = true)

structure Event where
  call : Call
  grants : Nat → Allocator := fun _ => granting
  notes : Nat → Allocator := fun _ => granting
  /-- The frame, or the ACK that tells the fate, stands behind another frame of its packet. -/
  behind : Bool := false

/-- The frames of the peer, and the fates of packets. -/
def Call.received : Call → Bool
  | .stream .. | .resetStream _ | .stopSending _ | .maxStreamData _ | .streamDataBlocked _ | .streamsBlocked _ |
    .dataBlocked _ | .crypto .. | .datagram _ | .acked _ | .lostMaxData _ | .lostMaxStreamData .. | .lostStopSending _ |
    .lostStreamDataBlocked _ => true
  | _ => false

/-- What goes out. -/
def Call.leaves : Call → Bool
  | .poll _ | .sentMaxData | .sentMaxStreamData | .sentMaxStreams _ | .sentStopSending | .sentStreamDataBlocked => true
  | _ => false

namespace Connection

/-- The outcome of a call without what it returns. -/
def done {α : Type} (outcome : Outcome α) : Outcome Unit := (outcome.1.map fun _ => (),outcome.2)

def sentMaxStreams (conn : Connection) (bidi : Bool) : Connection :=
  let pending := conn.pendingFrames
  {conn with pendingFrames := if bidi then {pending with maxStreamsBidi := none} else {pending with maxStreamsUni := none}}

def requeueStreamDataBlocked (granted : Bool) (conn : Connection) (item : Frame.StreamDataBlocked) : Outcome Unit :=
  let (result,blocked) := conn.blocked.requeueStreamDataBlocked granted item
  ((result.map fun _ => ()).mapError .blocked,{conn with blocked := blocked})

def apply (conn : Connection) (e : Event) : Outcome Unit :=
  match e.call with
  | .stream s _ _ => conn.handleStream e.grants s
  | .resetStream rs => conn.handleResetStream (e.grants 0) rs
  | .stopSending ss => conn.handleStopSending (e.grants 0) ss
  | .maxStreamData msd => conn.handleMaxStreamData (e.grants 0) msd
  | .streamDataBlocked sdb => conn.handleStreamDataBlocked (e.grants 0 0) sdb
  | .streamsBlocked sb => (.ok (),conn.handleStreamsBlocked sb)
  | .dataBlocked maximumData => (.ok (),{conn with peerDataBlockedAt := some maximumData})
  | .crypto lvl cr => conn.handleCrypto (e.grants 0) lvl cr
  | .datagram dg => conn.handleDatagram (e.grants 0) dg
  | .acked refs => conn.dispatchAckedPacketToStreams e.grants 0 refs
  | .lostMaxData maximumData => (.ok (),conn.queueMaxData maximumData)
  | .lostMaxStreamData id maximumStreamData => conn.queueMaxStreamData (e.grants 0 0) id maximumStreamData
  | .lostStopSending item => conn.queueStopSending (e.grants 0 0) item
  | .lostStreamDataBlocked item => conn.requeueStreamDataBlocked (e.grants 0 0) item
  | .poll p => conn.poll e.notes p
  | .sentMaxData => (.ok (),{conn with pendingFrames := {conn.pendingFrames with maxData := none}})
  | .sentMaxStreamData =>
    (.ok (),{conn with pendingFrames := {conn.pendingFrames with maxStreamData := conn.pendingFrames.maxStreamData.tail}})
  | .sentMaxStreams bidi => (.ok (),conn.sentMaxStreams bidi)
  | .sentStopSending =>
    (.ok (),{conn with pendingFrames := {conn.pendingFrames with stopSending := conn.pendingFrames.stopSending.tail}})
  | .sentStreamDataBlocked =>
    (.ok (),{conn with blocked := {conn.blocked with pendingStreamDataBlocked := conn.blocked.pendingStreamDataBlocked.tail}})
  | .streamRead id dstLen => done (conn.streamRead (e.grants 0 0) id dstLen)
  | .streamConsume id n => conn.streamConsume (e.grants 0 0) id n
  | .streamStopSending id applicationErrorCode => conn.streamStopSending e.grants id applicationErrorCode
  | .streamWrite id data => done (conn.streamWrite (e.grants 0) id data)
  | .openBidi id => conn.adopt id (conn.flow.openBidi (e.grants 0) id)
  | .openUni id => conn.adopt id (conn.flow.openUni (e.grants 0) id)
  | .receiveDatagram => (.ok (),conn.receiveDatagramInfo)
  | .queueMaxStreams bidi maximumStreams => (.ok (),conn.queueMaxStreams bidi maximumStreams)
  | .drainInbox lvl => (.ok (),conn.drainInbox lvl)
  | .gcClosedStreams candidates => (.ok (),conn.gcClosedStreams candidates)
  | .clock nowUs smoothedRttUs => (.ok (),{conn with clockUs := nowUs,smoothedRttUs := smoothedRttUs})
  | .send call _ => (.ok (),{conn with flow := (SendFlow.step {conn := conn.flow} {call := call,grants := e.grants 0}).conn})

/-- A closed connection takes no packet and sends none, but `dispatchFrames` goes on behind the frame that closes it. -/
def takes (conn : Connection) (e : Event) : Bool :=
  if e.call.received then conn.live || e.behind else conn.live || !e.call.leaves

def act (conn : Connection) (e : Event) : Outcome Unit := if conn.takes e then conn.apply e else (.ok (),conn)

end Connection

structure History where
  conn : Connection
  /-- The ids that have, or had, a stream, in the order of their making. -/
  opened : List Nat := []
  /-- The bytes read by calls that failed before the connection's window had them. -/
  forfeited : Nat := 0

/-- The ids of the streams that a step makes. -/
def made (before after : Connection) : List Nat :=
  (after.flow.streams.map (·.id)).filter fun id => (before.flow.get id).isNone

def forfeit (before after : Connection) (call : Call) (result : Except Error Unit) : Nat :=
  match call,result with
  | .streamRead id _,.error _ | .streamConsume id _,.error _ => (after.half id).recv.doneWith-(before.half id).recv.doneWith
  | _,_ => 0

def step (h : History) (e : Event) : History :=
  let (result,conn) := h.conn.act e
  {conn := conn,opened := h.opened ++ made h.conn conn,forfeited := h.forfeited+forfeit h.conn conn e.call result}

/-- What `normalizeLocalTransportParams` lets through. -/
structure Normalized (params : Tls.TransportParams.Params) : Prop where
  maxData : params.initialMaxData ≤ maxInitialConnectionReceiveWindow
  bidiLocal : params.initialMaxStreamDataBidiLocal ≤ RecvStream.defaultMaxBufferedSpan
  bidiRemote : params.initialMaxStreamDataBidiRemote ≤ RecvStream.defaultMaxBufferedSpan
  uni : params.initialMaxStreamDataUni ≤ RecvStream.defaultMaxBufferedSpan
  streamsBidi : params.initialMaxStreamsBidi ≤ maxConcurrentStreamsPerKind
  streamsUni : params.initialMaxStreamsUni ≤ maxConcurrentStreamsPerKind
  datagram : params.maxDatagramFrameSize ≤ maxSupportedUdpPayloadSize

/-- A connection once its own transport parameters are set, before its first stream. -/
def start (role : Role) (params : Tls.TransportParams.Params) (maxConnectionMemory : Nat) : Connection where
  flow := {
    role := role
    ids := {peerBidiIds := .initAdvertised params.initialMaxStreamsBidi,peerUniIds := .initAdvertised params.initialMaxStreamsUni}}
  resident := {maxConnectionMemory := maxConnectionMemory}
  localTransportParams := params
  localMaxData := params.initialMaxData
  connRecvWindow := {window := params.initialMaxData}

/-- The embedder sets how much is buffered and how far the windows tune. -/
def Fresh (h : History) : Prop :=
  ∃ (role : Role) (params : Tls.TransportParams.Params) (maxConnectionMemory maxBufferedSend maxBufferedSendCap : Nat)
    (follows : Bool) (autoTune : Bool) (maxStreamWindow maxConnectionWindow : Nat), Normalized params ∧
    h = {conn := {start role params maxConnectionMemory with
      flow := {(start role params maxConnectionMemory).flow with
        maxBufferedSend := maxBufferedSend
        maxBufferedSendCap := maxBufferedSendCap
        sendBufferFollowsCredit := follows}
      autoTuneReceiveWindows := autoTune
      maxStreamReceiveWindow := maxStreamWindow
      maxConnectionReceiveWindow := maxConnectionWindow}}

end Inbound
end QuicZig.Conn
