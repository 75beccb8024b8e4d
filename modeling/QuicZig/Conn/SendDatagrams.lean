import QuicZig.Frame.Encode
import QuicZig.Frame.Decode

/-! The datagrams that an application sends: their queue, the packets that take them, and the one
report of each. -/
namespace QuicZig.Conn.SendDatagrams
open Machine Wire

def defaultMtu : Nat := 1200

def maxRecvPlaintext : Nat := 4096

def maxOutboundDatagramPayloadSize : Nat := defaultMtu-9

def maxPendingDatagramCount : Nat := 64

def maxPendingDatagramBytes : Nat := 64*1024

inductive Error where
  | datagramUnavailable
  | datagramTooLarge
  | datagramQueueFull
  | datagramIdExhausted
  | outOfMemory
  deriving DecidableEq, Repr

structure PendingSendDatagram where
  id : Nat
  data : List Byte
  deriving DecidableEq, Repr

structure SentDatagram where
  id : Nat
  len : Nat
  pathId : Nat
  deriving DecidableEq, Repr

/-- A tracked packet, as far as the datagrams go. -/
structure SentPacket where
  pn : Nat
  pathId : Nat
  datagram : Option SentDatagram
  deriving DecidableEq, Repr

structure DatagramSendEvent where
  id : Nat
  len : Nat
  pathId : Nat
  packetNumber : Nat
  deriving DecidableEq, Repr

inductive StoredDatagramSendEvent where
  | acked (event : DatagramSendEvent)
  | lost (event : DatagramSendEvent)
  deriving DecidableEq, Repr

def StoredDatagramSendEvent.event : StoredDatagramSendEvent → DatagramSendEvent
  | .acked event | .lost event => event

structure PathSize where
  pmtu : Nat := defaultMtu
  peerCidLen : Nat := 0
  deriving DecidableEq, Repr

/-- A frame on the wire: the payload that it carries, and the packet that it went in. -/
structure Carried where
  datagram : PendingSendDatagram
  frame : List Byte
  pathId : Nat
  pn : Nat
  deriving DecidableEq, Repr

/-- `peerLimit` is the `max_datagram_frame_size` of the peer, which the connection has in `cachedPeerLimit` from the
handshake on. `accepted`, `carried` and `reported` are history; the code does not keep them. -/
structure Connection where
  sendDatagrams : List PendingSendDatagram := []
  sendDatagramBytes : Nat := 0
  nextDatagramId : Nat := 0
  cachedPeerLimit : Option Nat := none
  paths : Nat → PathSize
  active : Nat := 0
  peerDcidLen : Nat := 0
  longHeaderScidLen : Nat := 0
  nextPn : Nat → Nat := fun _ => 0
  sent : List SentPacket := []
  peerLimit : Nat
  accepted : List PendingSendDatagram := []
  carried : List Carried := []
  reported : List StoredDatagramSendEvent := []

inductive Level where
  | earlyData
  | application
  deriving DecidableEq, Repr

namespace Connection

def pmtu (conn : Connection) : Nat := (conn.paths conn.active).pmtu

def maxDatagramPayload (conn : Connection) : Except Error Nat :=
  let packetReserve := defaultMtu-maxOutboundDatagramPayloadSize
  let limit := min (conn.pmtu-packetReserve) maxRecvPlaintext
  match conn.cachedPeerLimit with
  | none => .ok limit
  | some size => if size = 0 then .error .datagramUnavailable else .ok (min limit size)

/-- `copies` and `appends` are the allocator's answers. -/
def sendDatagramTracked (conn : Connection) (payload : List Byte) (copies appends : Bool) : Except Error Nat × Connection :=
  match conn.maxDatagramPayload with
  | .error e => (.error e,conn)
  | .ok maxPayload =>
    if payload.length > maxPayload then (.error .datagramTooLarge,conn)
    else if conn.sendDatagrams.length ≥ maxPendingDatagramCount then (.error .datagramQueueFull,conn)
    else if payload.length > maxPendingDatagramBytes ∨ conn.sendDatagramBytes > maxPendingDatagramBytes-payload.length then
      (.error .datagramQueueFull,conn)
    else if !copies then (.error .outOfMemory,conn)
    else if conn.nextDatagramId = maxU64 then (.error .datagramIdExhausted,conn)
    else
      let id := conn.nextDatagramId
      let conn := {conn with nextDatagramId := id+1}
      if !appends then (.error .outOfMemory,conn)
      else
        (.ok id,{conn with
          sendDatagrams := conn.sendDatagrams ++ [⟨id,payload⟩]
          sendDatagramBytes := conn.sendDatagramBytes+payload.length
          accepted := conn.accepted ++ [⟨id,payload⟩]})

/-- What the rest of `pollLevelOnPath` decides: the room of the packet, the bytes of the frames before the datagram,
whether one of the other frames asks for an acknowledgement or any stands behind it, whether the datagrams are held
back (a full window, a full tracker, the pacer, a path response elsewhere), and whether the packet is sealed. -/
structure Build where
  level : Level
  pathId : Nat
  room : Nat
  plPos : Nat
  eliciting : Bool
  behind : Bool
  held : Bool
  sealed : Bool
  deriving DecidableEq, Repr

def maxPayload (conn : Connection) (level : Level) (pathId room : Nat) : Nat :=
  let overhead := match level with
    | .application => 1+(conn.paths pathId).peerCidLen+4+16
    | .earlyData => 1+4+1+conn.peerDcidLen+1+conn.longHeaderScidLen+8+4+16+8
  if room ≤ overhead then 0 else min maxRecvPlaintext (room-overhead)

def frameOf (data : List Byte) : QuicZig.Frame := .datagram {data, hasLength := true}

/-- The bytes of the frame: the type, the length, the payload. -/
def frameLen (data : List Byte) : Nat := 1+Varint.encodedLen data.length+data.length

/-- The datagram that the packet takes: the head of the queue, where it fits behind what is there. -/
def chosen (conn : Connection) (build : Build) : Option PendingSendDatagram :=
  if build.held then none
  else
    match conn.sendDatagrams with
    | [] => none
    | dg::_ => if conn.maxPayload build.level build.pathId build.room ≥ build.plPos+frameLen dg.data then some dg else none

/-- The commit of a packet, with the frame of the datagram that it takes. -/
def commit (conn : Connection) (build : Build) (taken : Option (PendingSendDatagram × List Byte)) : Connection :=
  let pn := conn.nextPn build.pathId
  let conn := {conn with nextPn := Function.update conn.nextPn build.pathId (pn+1)}
  match taken with
  | none => if build.eliciting then {conn with sent := conn.sent ++ [⟨pn,build.pathId,none⟩]} else conn
  | some (dg,frame) => {conn with
      sendDatagrams := conn.sendDatagrams.tail
      sendDatagramBytes := conn.sendDatagramBytes-dg.data.length
      sent := conn.sent ++ [⟨pn,build.pathId,some ⟨dg.id,dg.data.length,build.pathId⟩⟩]
      carried := conn.carried ++ [⟨dg,frame,build.pathId,pn⟩]}

/-- The DATAGRAM step of `pollLevelOnPath`, and its commit. A poll that fails leaves everything as it was. -/
def pollLevelOnPath (conn : Connection) (build : Build) : Connection :=
  let maxPayload := conn.maxPayload build.level build.pathId build.room
  if maxPayload = 0 then conn
  else
    match conn.chosen build with
    | none => if build.sealed && (build.plPos > 0 || build.behind) then conn.commit build none else conn
    | some dg =>
      match Frame.encode (frameOf dg.data) (maxPayload-build.plPos) with
      | .error _ => conn
      | .ok frame => if build.sealed then conn.commit build (some (dg,frame)) else conn

def datagramEventFromPacket (packet : SentPacket) : Option DatagramSendEvent :=
  packet.datagram.map fun dg => ⟨dg.id,dg.len,dg.pathId,packet.pn⟩

/-- `recordDatagramAcked` and `recordDatagramLost` of a packet that the tracker gives up. -/
def recordOutcome (conn : Connection) (acked : Bool) (index : Nat) : Connection :=
  match conn.sent[index]? with
  | none => conn
  | some packet =>
    let conn := {conn with sent := conn.sent.eraseIdx index}
    match datagramEventFromPacket packet with
    | none => conn
    | some event => {conn with reported := conn.reported ++ [if acked then .acked event else .lost event]}

end Connection

/-- What happens to a connection, in any order. `forget` is a packet whose path is given up. -/
inductive Event where
  | send (payload : List Byte) (copies appends : Bool)
  | poll (build : Connection.Build)
  | outcome (acked : Bool) (index : Nat)
  | forget (index : Nat)
  | pathSize (pathId : Nat) (size : PathSize)
  | switch (pathId : Nat)
  | longHeaderCids (dcidLen scidLen : Nat)
  | peerParams
  deriving DecidableEq, Repr

def step (conn : Connection) : Event → Connection
  | .send payload copies appends => (conn.sendDatagramTracked payload copies appends).2
  | .poll build => conn.pollLevelOnPath build
  | .outcome acked index => conn.recordOutcome acked index
  | .forget index => {conn with sent := conn.sent.eraseIdx index}
  | .pathSize pathId size => {conn with paths := Function.update conn.paths pathId size}
  | .switch pathId => {conn with active := pathId}
  | .longHeaderCids dcidLen scidLen => {conn with peerDcidLen := dcidLen, longHeaderScidLen := scidLen}
  | .peerParams => {conn with cachedPeerLimit := some conn.peerLimit}

end QuicZig.Conn.SendDatagrams
