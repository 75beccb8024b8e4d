import QuicZig.Conn.SendFlow
import QuicZig.Conn.SendRun
import QuicZig.Library.HighWater
import QuicZig.Tls.RoundTrip

/-! Runs of the sending side: the calls of the application, the frames of the peer, the
fate of packets, and the packets themselves. A history keeps the frames that were built
and sent, and what the peer told since its parameters were applied. -/
namespace QuicZig.Conn.SendFlow
open Machine Paths Streams HighWater Wire

/-- What one turn of `pollLevelOnPath` has to do with streams. -/
structure Poll where
  /-- `false` is the early data level. -/
  application : Bool
  /-- The sendable list, as `pendingResetStream` goes through it. -/
  sendable : List Nat
  /-- The ready streams, in the order of their priority. -/
  ready : List Nat
  distinct : ready.Nodup
  maxPayload : Nat
  /-- What the frames before the RESET_STREAM take. -/
  plPos : Nat
  /-- What a DATAGRAM frame takes. -/
  datagramLen : Nat
  grants : Nat → Allocator
  /-- The packet was sealed and recorded. -/
  sealed' : Bool

namespace Connection

/-- The RESET_STREAM of the packet, when there is one and it fits, and where the frames after it begin. -/
def stageReset (conn : Connection) (p : Poll) : Except Error (Option Frame.ResetStream × Nat) :=
  match (if p.application then conn.pendingResetStream p.sendable else none).bind resetFrame with
  | none => .ok (none,p.plPos)
  | some rs =>
    if p.maxPayload < p.plPos+Frame.encodedLen (.resetStream rs) then .ok (none,p.plPos)
    else if !p.grants 0 0 then .error .outOfMemory
    else match Frame.encode (.resetStream rs) (p.maxPayload-p.plPos) with
      | .error e => .error (.frame e)
      | .ok wrote => .ok (some rs,p.plPos+wrote.length)

end Connection

structure StreamFrame where
  streamId : Nat
  chunk : Chunk
  sendMaxData : Nat
  deriving DecidableEq, Repr

/-- One past the last byte of the frame. -/
def StreamFrame.stop (f : StreamFrame) : Nat := f.chunk.offset+f.chunk.length

structure ResetFrame where
  frame : Frame.ResetStream
  sendMaxData : Nat
  deriving DecidableEq, Repr

/-- What the peer gives credit for. -/
inductive Credit where
  | data
  | streams (bidi : Bool)
  | streamData (id : Nat)
  deriving DecidableEq, Repr

structure History where
  conn : Connection
  /-- The STREAM frames built, and those of the packets that went out. -/
  built : List StreamFrame := []
  sent : List StreamFrame := []
  resets : List ResetFrame := []
  /-- The peer's transport parameters have been applied. -/
  applied : Bool := false
  /-- The values the peer told since. -/
  told : List (Credit × Nat) := []

namespace History

/-- The highest offset sent in a STREAM frame, by stream. -/
def offsets (h : History) : List (Nat × Nat) := h.sent.map fun f => (f.streamId,f.stop)

def finalSizes (h : History) : List (Nat × Nat) := h.resets.map fun r => (r.frame.streamId,r.frame.finalSize)

def note (h : History) (credit : Credit) (value : Nat) : History :=
  if h.applied then {h with told := (credit,value)::h.told} else h

end History

inductive Call where
  | openBidi (id : Nat)
  | openUni (id : Nat)
  | streamWrite (id budgetLeft : Nat) (data : List Byte)
  | streamFinish (id : Nat)
  | streamReset (id applicationErrorCode : Nat)
  | streamStopSending (id : Nat)
  | setRememberedPeerTransportParams (params : Tls.TransportParams.Params)
  | peerTransportParams (refused : Option ConnectionClose)
  | cachePeerTransportParams (refused : Option ConnectionClose)
  | beginGracefulShutdown
  | close (error : ConnectionClose)
  /-- TLS has the peer's blob, the early data secret, or the peer's word that it takes early data. -/
  | tlsTransportParams (blob : List Byte)
  | tlsEarlyDataSecret
  | tlsEarlyDataAccepted
  | maxData (md : Frame.MaxData) (varint : md.maximumData ≤ Varint.maxValue)
  | maxStreamData (msd : Frame.MaxStreamData) (varint : msd.maximumStreamData ≤ Varint.maxValue)
  | maxStreams (ms : Frame.MaxStreams)
  | stopSending (ss : Frame.StopSending)
  /-- A STREAM or RESET_STREAM frame of the peer, for what it does to the stream table. -/
  | peerFrame (id : Nat) (frame : Connection.PeerStreamFrame)
  /-- The receiving side lets the peer open more streams. -/
  | raisePeerLimit (bidi : Bool) (limit : Nat)
  | acked (id key : Nat)
  | lost (id key : Nat)
  | probeRequeued (id key : Nat)
  | resetAcked (rs : Frame.ResetStream)
  | resetLost (rs : Frame.ResetStream)
  | reclaim (id : Nat) (recvDone : Bool)
  | poll (p : Poll)

structure Event where
  call : Call
  grants : Allocator := granting

namespace Connection

/-- The parameters that a call of `peerTransportParams` would apply. -/
def applicable (conn : Connection) : Option Tls.TransportParams.Params :=
  match conn.peerQuicTransportParams with
  | none => none
  | some blob =>
    match Tls.TransportParams.decode blob with
    | .error _ => none
    | .ok params => if limitsError params = none then some params else none

/-- Packets with stream data go out until the connection is closed. -/
def live (conn : Connection) : Bool := conn.pendingClose.isNone

/-- Credit for the stream is not refused: this end may send on it, and it is there or was. -/
def knows (conn : Connection) (id : Nat) : Bool :=
  localMaySendOnStream conn.role id && ((conn.get id).isSome || conn.ids.Used conn.role id)

end Connection

def frameOf (conn : Connection) (sc : SentStreamChunk) : StreamFrame :=
  ⟨sc.streamId,sc.chunk,((conn.get sc.streamId).map (·.sendMaxData)).getD 0⟩

def pollStep (h : History) (p : Poll) : History :=
  match h.conn.stageReset p with
  | .error _ => h
  | .ok (reset,pos) =>
    let (result,packet) := Packet.pack (fun n => p.grants (n+1)) p.maxPayload 0 p.ready
      {conn := h.conn,plPos := pos+p.datagramLen}
    let frames := packet.sentChunks.map (frameOf packet.conn)
    let h := {h with conn := packet.conn,built := frames.reverse ++ h.built}
    match result with
    | .error _ => h
    | .ok _ =>
      if p.sealed' then
        let conn := match reset with
          | none => packet.conn
          | some rs => packet.conn.markResetQueued rs.streamId
        {h with
          conn := conn.commitChunks packet.sentChunks
          sent := frames.reverse ++ h.sent
          resets := (reset.map fun rs => ⟨rs,((packet.conn.get rs.streamId).map (·.sendMaxData)).getD 0⟩).toList ++ h.resets}
      else h

/-- What a call does while the connection is open or closed alike. -/
def callStep (h : History) (grants : Allocator) : Call → History
  | .openBidi id => {h with conn := (h.conn.openBidi grants id).2}
  | .openUni id => {h with conn := (h.conn.openUni grants id).2}
  | .streamWrite id budgetLeft data => {h with conn := (h.conn.streamWrite grants budgetLeft id data).2}
  | .streamFinish id => {h with conn := (h.conn.streamFinish id).2}
  | .streamReset id code => {h with conn := (h.conn.streamReset id code).2}
  | .streamStopSending id => {h with conn := (h.conn.streamStopSending grants id).2}
  | .setRememberedPeerTransportParams params => {h with conn := h.conn.setRememberedPeerTransportParams params}
  | .peerTransportParams refused =>
    {h with conn := (h.conn.peerTransportParams refused).2,applied := h.applied || h.conn.applicable.isSome}
  | .cachePeerTransportParams refused =>
    {h with
      conn := (h.conn.cachePeerTransportParams refused).2
      applied := h.applied || (h.conn.cachedPeerTransportParams.isNone && h.conn.applicable.isSome)}
  | .beginGracefulShutdown => {h with conn := {h.conn with gracefulShutdown := true}}
  | .close error => {h with conn := h.conn.close error.isTransport error.errorCode error.reason}
  | .tlsTransportParams blob =>
    {h with conn := {h.conn with peerQuicTransportParams := h.conn.peerQuicTransportParams <|> some blob}}
  | .tlsEarlyDataSecret => {h with conn := {h.conn with earlyDataWriteSecret := true}}
  | .tlsEarlyDataAccepted => {h with conn := {h.conn with earlyDataAccepted := true}}
  | .raisePeerLimit bidi limit =>
    {h with conn := {h.conn with ids :=
      if bidi then {h.conn.ids with peerBidiIds := {h.conn.ids.peerBidiIds with limit := limit}}
      else {h.conn.ids with peerUniIds := {h.conn.ids.peerUniIds with limit := limit}}}}
  | .reclaim id recvDone => {h with conn := h.conn.reclaim recvDone id}
  | _ => h

/-- What a frame of the peer does, and the fate it tells of a packet. The frames behind one that closes the connection are
handled like those before it. -/
def frameStep (h : History) (grants : Allocator) : Call → History
  | .maxData md _ => {h with conn := h.conn.handleMaxData md}.note .data md.maximumData
  | .maxStreamData msd _ =>
    match h.conn.handleMaxStreamData grants msd with
    | (.error _,conn) => {h with conn := conn}
    | (.ok _,conn) =>
      if conn.knows msd.streamId then {h with conn := conn}.note (.streamData msd.streamId) msd.maximumStreamData
      else {h with conn := conn}
  | .maxStreams ms =>
    let conn := h.conn.handleMaxStreams ms
    if ms.maximumStreams ≤ StreamIdSpace.maxStreamCount then {h with conn := conn}.note (.streams ms.bidi) ms.maximumStreams
    else {h with conn := conn}
  | .stopSending ss => {h with conn := (h.conn.handleStopSending grants ss).2}
  | .peerFrame id frame => {h with conn := (h.conn.ensurePeerStream grants id frame).2}
  | .acked id key => {h with conn := h.conn.dispatchAckedStreamRef grants id key}
  | .lost id key => {h with conn := h.conn.dispatchLostStreamRef grants id key}
  | .probeRequeued id key => {h with conn := h.conn.dispatchProbeStreamRef grants id key}
  | .resetAcked rs => {h with conn := h.conn.dispatchAckedResetStream rs}
  | .resetLost rs => {h with conn := h.conn.dispatchLostResetStream rs}
  | .poll p => if h.conn.live then pollStep h p else h
  | _ => h

def Call.ofPackets : Call → Bool
  | .maxData .. | .maxStreamData .. | .maxStreams _ | .stopSending _ | .peerFrame .. | .acked .. | .lost .. |
    .probeRequeued .. | .resetAcked _ | .resetLost _ | .poll _ => true
  | _ => false

def step (h : History) (e : Event) : History :=
  if e.call.ofPackets then frameStep h e.grants e.call else callStep h e.grants e.call

/-- A connection as `init` builds it, before its first stream and before the peer said anything. -/
def Fresh (h : History) : Prop :=
  ∃ (role : Role) (bidi uni maxBufferedSend maxBufferedSendCap : Nat) (follows : Bool), h = {conn := {
    role := role
    ids := {peerBidiIds := .initAdvertised bidi,peerUniIds := .initAdvertised uni}
    maxBufferedSend := maxBufferedSend
    sendBufferFollowsCredit := follows
    maxBufferedSendCap := maxBufferedSendCap}}

end QuicZig.Conn.SendFlow
