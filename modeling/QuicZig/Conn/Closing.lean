import Mathlib.Tactic
import QuicZig.Machine
import QuicZig.Library.System

/-! How a connection ends. The state is not stored: it is read off four fields that the calls
below set. -/
namespace QuicZig.Conn.Closing
open Machine

structure ConnectionCloseInfo where
  isTransport : Bool
  errorCode : Nat
  frameType : Nat := 0
  reason : List Byte := []
  deriving DecidableEq, Repr

inductive CloseSource where
  | «local» | peer | idleTimeout | handshakeTimeout | statelessReset | versionNegotiation
  deriving DecidableEq, Repr

inductive CloseErrorSpace where
  | transport | application
  deriving DecidableEq, Repr

inductive CloseState where
  | open | closing | draining | closed
  deriving DecidableEq, Repr

def maxCloseReasonLen : Nat := 256

structure StoredCloseEvent where
  source : CloseSource
  errorSpace : CloseErrorSpace
  errorCode : Nat
  frameType : Nat := 0
  reasonLen : Nat := 0
  reasonTruncated : Bool := false
  atUs : Option Nat := none
  drainingDeadlineUs : Option Nat := none
  delivered : Bool := false
  deriving DecidableEq, Repr

def closeErrorSpace (isTransport : Bool) : CloseErrorSpace := if isTransport then .transport else .application

/-- The text of a reason that the code writes itself. -/
def text (s : String) : List Byte := s.toList.map fun c => c.toNat.toUInt8

structure LifecycleState where
  pendingClose : Option ConnectionCloseInfo := none
  closed : Bool := false
  closingDeadlineUs : Option Nat := none
  drainingDeadlineUs : Option Nat := none
  lastCloseEmitUs : Option Nat := none
  closeEmitCount : Nat := 0
  closingPacketsSinceEmit : Nat := 0
  closeEvent : Option StoredCloseEvent := none
  closeReasonBuf : List Byte := []
  deriving DecidableEq, Repr

/-- What ended a connection: the source, the error and the words of it. -/
structure CloseCause where
  source : CloseSource
  errorSpace : CloseErrorSpace
  errorCode : Nat
  frameType : Nat
  reason : List Byte
  atUs : Option Nat
  deriving DecidableEq, Repr

namespace LifecycleState

def state (l : LifecycleState) : CloseState :=
  if l.drainingDeadlineUs.isSome then .draining
  else if l.closingDeadlineUs.isSome then .closing
  else if l.pendingClose.isSome then .closing
  else if l.closed then .closed
  else .open

/-- `event` for the embedder, without the deadline. -/
def cause (l : LifecycleState) : Option CloseCause :=
  l.closeEvent.map fun stored =>
    {source := stored.source
     errorSpace := stored.errorSpace
     errorCode := stored.errorCode
     frameType := stored.frameType
     reason := l.closeReasonBuf.take stored.reasonLen
     atUs := stored.atUs}

/-- The first cause wins. -/
def record (l : LifecycleState) (source : CloseSource) (errorSpace : CloseErrorSpace) (errorCode frameType : Nat)
    (reason : List Byte) (atUs drainingDeadlineUs : Option Nat) : LifecycleState :=
  if l.closeEvent.isSome then l
  else
    let reasonLen := min reason.length maxCloseReasonLen
    {l with
      closeReasonBuf := reason.take reasonLen ++ l.closeReasonBuf.drop reasonLen
      closeEvent := some {
        source := source
        errorSpace := errorSpace
        errorCode := errorCode
        frameType := frameType
        reasonLen := reasonLen
        reasonTruncated := reason.length > reasonLen
        atUs := atUs
        drainingDeadlineUs := drainingDeadlineUs}}

def updateDrainingDeadline (l : LifecycleState) (deadlineUs : Nat) : LifecycleState :=
  {l with closeEvent := l.closeEvent.map fun ev => {ev with drainingDeadlineUs := some deadlineUs}}

def enterDraining (l : LifecycleState) (source : CloseSource) (errorSpace : CloseErrorSpace) (errorCode frameType : Nat)
    (reason : List Byte) (nowUs drainingDeadline : Nat) : LifecycleState :=
  {l.record source errorSpace errorCode frameType reason (some nowUs) (some drainingDeadline) with
    pendingClose := none
    closingDeadlineUs := none
    closed := true
    drainingDeadlineUs := some drainingDeadline}

def finishDraining (l : LifecycleState) : LifecycleState :=
  {l with
    pendingClose := none
    closingDeadlineUs := none
    drainingDeadlineUs := none
    closed := true}

def enterClosed (l : LifecycleState) (source : CloseSource) (errorSpace : CloseErrorSpace) (errorCode frameType : Nat)
    (reason : List Byte) (nowUs : Nat) : LifecycleState :=
  {l.record source errorSpace errorCode frameType reason (some nowUs) none with
    pendingClose := none
    closingDeadlineUs := none
    drainingDeadlineUs := none
    closed := true}

def noteCloseEmit (l : LifecycleState) (nowUs closingDeadline : Nat) : LifecycleState :=
  {l with
    pendingClose := none
    closed := true
    closingDeadlineUs :=
      if l.drainingDeadlineUs.isNone ∧ l.closingDeadlineUs.isNone then some closingDeadline else l.closingDeadlineUs
    lastCloseEmitUs := some nowUs
    closeEmitCount := min (l.closeEmitCount+1) maxU32
    closingPacketsSinceEmit := 0}

def noteClosingPacket (l : LifecycleState) : LifecycleState :=
  {l with closingPacketsSinceEmit := min (l.closingPacketsSinceEmit+1) maxU32}

def shouldRearmCloseRepeat (l : LifecycleState) : Bool :=
  if l.pendingClose.isSome then false
  else if l.closingDeadlineUs.isNone then false
  else if l.closeEmitCount = 0 then true
  else l.closingPacketsSinceEmit ≥ 2^min (l.closeEmitCount-1) 16

/-- `Connection.close` on the fields. -/
def close (l : LifecycleState) (isTransport : Bool) (errorCode : Nat) (reason : List Byte) : LifecycleState :=
  if l.pendingClose.isSome || l.closed then l
  else {l.record .local (closeErrorSpace isTransport) errorCode 0 reason none none with
    pendingClose := some {isTransport := isTransport,errorCode := errorCode,reason := reason}}

/-- The close that went out goes out again. -/
def rearm (l : LifecycleState) : LifecycleState :=
  match l.closeEvent with
  | none => l
  | some stored => {l with pendingClose := some {
      isTransport := stored.errorSpace = .transport
      errorCode := stored.errorCode
      frameType := stored.frameType
      reason := l.closeReasonBuf.take stored.reasonLen}}

def closingAttributionOnly (l : LifecycleState) : Bool :=
  l.closingDeadlineUs.isSome && l.pendingClose.isNone && l.drainingDeadlineUs.isNone

/-- `shouldStopDatagramLoop` -/
def stops (l : LifecycleState) : Bool :=
  l.state = .draining || l.state = .closed || (l.state = .closing && l.pendingClose.isSome)

end LifecycleState

inductive Trigger where
  | close | enterDraining | finishDraining | enterClosed | closeEmitted | closingPacket | rearm | event | tick
  deriving DecidableEq, Repr

/-- One change of the lifecycle, or a whole tick. -/
structure Moment where
  trigger : Trigger
  nowUs : Nat
  before : LifecycleState
  after : LifecycleState
  deriving DecidableEq, Repr

inductive Level where
  | initial | earlyData | handshake | application
  deriving DecidableEq, Repr

structure ConnectionClose where
  isTransport : Bool
  errorCode : Nat
  frameType : Nat := 0
  reasonPhrase : List Byte := []
  deriving DecidableEq, Repr

/-- A packet holds one CONNECTION_CLOSE frame, or what else there was to send. -/
inductive Content where
  | close (frame : ConnectionClose)
  | frames
  deriving DecidableEq, Repr

def Content.isClose : Content → Bool
  | .close _ => true
  | .frames => false

/-- What left, and the lifecycle it was built in. -/
structure Sent where
  during : LifecycleState
  packets : List (Level × Content)
  deriving DecidableEq, Repr

def Sent.hasClose (s : Sent) : Bool := s.packets.any (·.2.isClose)

/-- `drainingDurationUs` is 3 PTO of the active path as it is now. `past`, `sent` and `attributed` tell what has been. -/
structure Connection where
  lifecycle : LifecycleState := {}
  clockUs : Nat := 0
  drainingDurationUs : Nat
  restDeadlineValid : Bool := false
  closingStateAttributionObserved : Bool := false
  revealCloseReasonOnWire : Bool := false
  past : List Moment := []
  sent : List Sent := []
  attributed : Nat := 0
  deriving DecidableEq, Repr

/-- What the rest of the connection does to its end. -/
inductive Effect where
  | other (drainingDurationUs : Nat)
  | close (isTransport : Bool) (errorCode : Nat) (reason : List Byte)
  | fail
  deriving DecidableEq, Repr

/-- A frame as the parser gives it. A close that its level forbids has the words of the refusal; a handler may end the payload. -/
inductive Frame where
  | malformed
  | connectionClose (cc : ConnectionClose) (forbidden : Option (List Byte))
  | other (effects : List Effect) (returns : Bool)
  deriving DecidableEq, Repr

/-- What comes of a packet whose keys are there or not. -/
inductive Opening where
  | dropped
  | refused (errorCode : Nat) (reason : List Byte)
  | opened (before : List Effect) (duplicate : Bool) (frames : List Frame) (after : List Effect)
  | failed
  deriving DecidableEq, Repr

inductive Packet where
  | empty
  | statelessReset
  | versionNegotiation
  | long (opening : Opening)
  deriving DecidableEq, Repr

/-- One packet of a datagram, the change of address that it brings, and what TLS makes of its CRYPTO data. -/
structure Received where
  packet : Packet
  rebind : List Effect := []
  drainTls : Bool := true
  tls : List Effect := []
  deriving DecidableEq, Repr

/-- `held` are the Handshake packets that were kept, if the keys for them are there after the others. -/
structure Datagram where
  tooLarge : Bool := false
  packets : List Received
  tls : List Effect := []
  held : List Opening := []
  heldTls : List Effect := []
  deriving DecidableEq, Repr

/-- What a level has for the datagram that is built. -/
inductive Offer where
  | none
  | fails
  | ready (closeFails : Bool) (frames : Option Bool)
  deriving DecidableEq, Repr

structure Poll where
  prepare : Effect
  quiet : Bool := false
  initial : Offer := .none
  earlyData : Offer := .none
  handshake : Offer := .none
  application : Offer := .none
  deriving DecidableEq, Repr

structure Timers where
  due : Bool := true
  handshakeDeadline : Option Nat := none
  idleDeadline : Option Nat := none
  effects : List Effect := []
  deriving DecidableEq, Repr

namespace Connection

def moves (c : Connection) (trigger : Trigger) (nowUs : Nat) (after : LifecycleState) : Connection :=
  {c with
    lifecycle := after
    past := ⟨trigger,nowUs,c.lifecycle,after⟩::c.past}

def touch (c : Connection) : Connection := {c with restDeadlineValid := false}

def close (c : Connection) (isTransport : Bool) (errorCode : Nat) (reason : List Byte) : Connection :=
  c.touch.moves .close c.clockUs (c.lifecycle.close isTransport errorCode reason)

def enterDraining (c : Connection) (source : CloseSource) (errorSpace : CloseErrorSpace) (errorCode frameType : Nat)
    (reason : List Byte) (nowUs : Nat) : Connection :=
  c.touch.moves .enterDraining nowUs
    (c.lifecycle.enterDraining source errorSpace errorCode frameType reason nowUs (saturatingAdd nowUs c.drainingDurationUs))

def finishDraining (c : Connection) (nowUs : Nat) : Connection := c.touch.moves .finishDraining nowUs c.lifecycle.finishDraining

def enterClosed (c : Connection) (source : CloseSource) (errorSpace : CloseErrorSpace) (errorCode frameType : Nat)
    (reason : List Byte) (nowUs : Nat) : Connection :=
  c.touch.moves .enterClosed nowUs (c.lifecycle.enterClosed source errorSpace errorCode frameType reason nowUs)

def enterStatelessReset (c : Connection) (nowUs : Nat) : Connection :=
  c.enterDraining .statelessReset .transport 0 0 (text "stateless reset") nowUs

/-- `pollEvent` as far as the close event goes. -/
def pollEvent (c : Connection) : Connection :=
  c.moves .event c.clockUs {c.lifecycle with closeEvent := c.lifecycle.closeEvent.map fun ev => {ev with delivered := true}}

/-- `none` is an error that leaves the call. -/
def effects (c : Connection) : List Effect → Bool × Connection
  | [] => (true,c)
  | .other drainingDurationUs::rest => {c with drainingDurationUs := drainingDurationUs}.effects rest
  | .close isTransport errorCode reason::rest => (c.close isTransport errorCode reason).effects rest
  | .fail::_ => (false,c)

def peerClose (c : Connection) (cc : ConnectionClose) (nowUs : Nat) : Connection :=
  c.enterDraining .peer (closeErrorSpace cc.isTransport) cc.errorCode (if cc.isTransport then cc.frameType else 0) cc.reasonPhrase nowUs

def scanForPeerCloseFrame (c : Connection) (nowUs : Nat) : List Frame → Connection
  | [] => c
  | .malformed::_ => c
  | .connectionClose cc _::_ => c.peerClose cc nowUs
  | .other _ _::rest => c.scanForPeerCloseFrame nowUs rest

def transportErrorProtocolViolation : Nat := 0x0a
def transportErrorFrameEncoding : Nat := 0x07
def transportErrorApplicationError : Nat := 0x0c

def dispatchFrames (c : Connection) (nowUs : Nat) : List Frame → Bool × Connection
  | [] => (true,c)
  | .malformed::_ => (true,c.close true transportErrorFrameEncoding (text "malformed frame"))
  | .connectionClose cc none::rest => (c.peerClose cc nowUs).dispatchFrames nowUs rest
  | .connectionClose _ (some reason)::_ => (true,c.close true transportErrorProtocolViolation reason)
  | .other effects returns::rest =>
    match c.effects effects with
    | (false,c) => (false,c)
    | (true,c) => if returns then (true,c) else c.dispatchFrames nowUs rest

/-- `openLongOrDrop` and `finishOpenedPacket`. -/
def finishOpened (c : Connection) (nowUs : Nat) : Opening → Bool × Connection
  | .dropped => (true,c)
  | .refused errorCode reason => (true,c.close true errorCode reason)
  | .failed => (false,c)
  | .opened before duplicate frames after =>
    match c.effects before with
    | (false,c) => (false,c)
    | (true,c) =>
      if c.lifecycle.closingAttributionOnly then
        (true,{c with closingStateAttributionObserved := true}.scanForPeerCloseFrame nowUs frames)
      else if duplicate then (true,c)
      else match c.dispatchFrames nowUs frames with
        | (false,c) => (false,c)
        | (true,c) => c.effects after

def handleOnePacket (c : Connection) (nowUs : Nat) : Packet → Bool × Connection
  | .empty => (true,c)
  | .statelessReset => (true,c.enterStatelessReset nowUs)
  | .versionNegotiation => (true,c.enterClosed .versionNegotiation .transport 0 0 (text "no compatible QUIC version") nowUs)
  | .long opening => c.finishOpened nowUs opening

/-- The packets of a datagram, one behind the other. -/
def packetLoop (c : Connection) (nowUs : Nat) : List Received → Bool × Connection
  | [] => (true,c)
  | received::rest =>
    match c.handleOnePacket nowUs received.packet with
    | (false,c) => (false,c)
    | (true,c) =>
      if received.packet = .empty then (true,c)
      else match c.effects received.rebind with
        | (false,c) => (false,c)
        | (true,c) =>
          if c.lifecycle.stops || !received.drainTls then (true,c)
          else match c.effects received.tls with
            | (false,c) => (false,c)
            | (true,c) => c.packetLoop nowUs rest

/-- `drainInboxIntoTls`, unless the connection only looks for a close. -/
def drainInbox (c : Connection) (tls : List Effect) : Bool × Connection :=
  if c.lifecycle.closingAttributionOnly then (true,c) else c.effects tls

def heldLoop (c : Connection) (nowUs : Nat) : List Opening → Bool × Connection
  | [] => (true,c)
  | opening::rest =>
    match c.finishOpened nowUs opening with
    | (false,c) => (false,c)
    | (true,c) => c.heldLoop nowUs rest

def replayHeldHandshakePackets (c : Connection) (nowUs : Nat) (held : List Opening) (tls : List Effect) : Bool × Connection :=
  match c.heldLoop nowUs held with
  | (false,c) => (false,c)
  | (true,c) => if held = [] then (true,c) else c.drainInbox tls

def maybeRearmClosingStateCloseRepeat (c : Connection) : Connection :=
  if !c.closingStateAttributionObserved then c
  else
    let c := {c with
      closingStateAttributionObserved := false
      attributed := c.attributed+1}
    if c.lifecycle.state ≠ .closing ∨ c.lifecycle.closingDeadlineUs.isNone ∨ c.lifecycle.pendingClose.isSome then c
    else
      let c := c.moves .closingPacket c.clockUs c.lifecycle.noteClosingPacket
      if !c.lifecycle.shouldRearmCloseRepeat then c else c.moves .rearm c.clockUs c.lifecycle.rearm

/-- `handleWithEcn` up to the tick of the path validators. -/
def handle (c : Connection) (d : Datagram) (nowUs : Nat) : Connection :=
  let c := {c with clockUs := max c.clockUs nowUs}.touch
  if c.lifecycle.stops then c
  else
    let c := {c with closingStateAttributionObserved := false}
    if d.tooLarge then c
    else match c.packetLoop nowUs d.packets with
      | (false,c) => c
      | (true,c) => match c.drainInbox d.tls with
        | (false,c) => c
        | (true,c) => match c.replayHeldHandshakePackets nowUs d.held d.heldTls with
          | (false,c) => c
          | (true,c) => c.maybeRearmClosingStateCloseRepeat

/-- `atRest` as far as the lifecycle goes. -/
def atRest (c : Connection) (quiet : Bool) : Bool :=
  quiet && !(c.lifecycle.closed || c.lifecycle.pendingClose.isSome) &&
    !(c.lifecycle.drainingDeadlineUs.isSome || c.lifecycle.closingDeadlineUs.isSome)

def nextTimerDeadline (c : Connection) (quiet : Bool) : Connection :=
  {c with restDeadlineValid := c.restDeadlineValid || c.atRest quiet}

def tickFull (c : Connection) (nowUs : Nat) (timers : Timers) : Connection :=
  match c.lifecycle.drainingDeadlineUs with
  | some deadline => if nowUs ≥ deadline then c.finishDraining nowUs else c
  | none => match c.lifecycle.closingDeadlineUs with
    | some deadline => if nowUs ≥ deadline then c.finishDraining nowUs else c
    | none =>
      if c.lifecycle.closed then c
      else if timers.handshakeDeadline.any (nowUs ≥ ·) then
        c.enterDraining .handshakeTimeout .transport 0 0 (text "handshake timeout") nowUs
      else if timers.idleDeadline.any (nowUs ≥ ·) then c.enterDraining .idleTimeout .transport 0 0 (text "idle timeout") nowUs
      else (c.effects timers.effects).2

def tick (c : Connection) (nowUs : Nat) (timers : Timers) : Connection :=
  let before := c.lifecycle
  let c := {c with clockUs := max c.clockUs nowUs}
  let c := if c.restDeadlineValid && !timers.due then c else c.tickFull nowUs timers
  {c with past := ⟨.tick,nowUs,before,c.lifecycle⟩::c.past}

def noteCloseEmitted (c : Connection) (nowUs : Nat) : Connection :=
  let closingDeadline := saturatingAdd nowUs c.drainingDurationUs
  c.moves .closeEmitted nowUs ((c.lifecycle.noteCloseEmit nowUs closingDeadline).updateDrainingDeadline closingDeadline)

def closeFrame (c : Connection) (lvl : Level) (info : ConnectionCloseInfo) : ConnectionClose :=
  let forceTransport := !info.isTransport && (lvl = .initial || lvl = .handshake)
  let wireIsTransport := info.isTransport || forceTransport
  {isTransport := wireIsTransport
   errorCode := if forceTransport then transportErrorApplicationError else info.errorCode
   frameType := if wireIsTransport then info.frameType else 0
   reasonPhrase := if forceTransport then [] else if c.revealCloseReasonOnWire then info.reason else []}

/-- `none` is an error. -/
def pollLevelOnPath (c : Connection) (lvl : Level) (inDatagram appWriteKeys : Bool) : Offer → Option (Option Content)
  | .none => some none
  | .fails => none
  | .ready closeFails frames =>
    match c.lifecycle.pendingClose with
    | none =>
      if c.lifecycle.closed then some none
      else frames.map fun built => if built then some .frames else none
    | some info =>
      if !inDatagram && lvl ≠ .application && appWriteKeys then some none
      else if closeFails then none
      else some (some (.close (c.closeFrame lvl info)))

/-- The levels of one datagram, in the order of their packets. -/
def pollLevels (c : Connection) : List (Level × Offer) → Option (List (Level × Content))
  | [] => some []
  | (lvl,offer)::rest =>
    match c.pollLevelOnPath lvl true false offer with
    | none => none
    | some none => c.pollLevels rest
    | some (some content) => (c.pollLevels rest).map ((lvl,content)::·)

def pollDatagramFull (c : Connection) (p : Poll) (nowUs : Nat) : Connection :=
  match c.pollLevels [(.initial,p.initial),(.earlyData,p.earlyData),(.handshake,p.handshake),(.application,p.application)] with
  | none => c
  | some packets =>
    let out := {during := c.lifecycle,packets := packets : Sent}
    if packets = [] then c
    else
      let c := if out.hasClose then c.noteCloseEmitted nowUs else c
      {c with
        restDeadlineValid := false
        sent := out::c.sent}

def pollDatagram (c : Connection) (p : Poll) (nowUs : Nat) : Connection :=
  let c := {c with clockUs := max c.clockUs nowUs}
  if c.lifecycle.closed && c.lifecycle.pendingClose.isNone then c
  else match c.effects [p.prepare] with
    | (false,c) => c
    | (true,c) =>
      if c.restDeadlineValid || c.atRest p.quiet then c.nextTimerDeadline p.quiet else c.pollDatagramFull p nowUs

/-- A direct `pollLevel`: one packet, which is no part of a datagram. -/
def pollLevel (c : Connection) (lvl : Level) (appWriteKeys : Bool) (offer : Offer) (nowUs : Nat) : Connection :=
  match c.pollLevelOnPath lvl false appWriteKeys offer with
  | none => c
  | some none => c
  | some (some content) =>
    let out := {during := c.lifecycle,packets := [(lvl,content)] : Sent}
    let c := if content.isClose then c.noteCloseEmitted nowUs else c
    {c with sent := out::c.sent}

end Connection

inductive Event where
  | close (isTransport : Bool) (errorCode : Nat) (reason : List Byte)
  | handle (d : Datagram) (nowUs : Nat)
  | tick (timers : Timers) (nowUs : Nat)
  | nextTimerDeadline (quiet : Bool)
  | pollDatagram (p : Poll) (nowUs : Nat)
  | pollLevel (lvl : Level) (appWriteKeys : Bool) (offer : Offer) (nowUs : Nat)
  | pollEvent
  | work (effects : List Effect)
  deriving DecidableEq, Repr

def step (c : Connection) : Event → Connection
  | .close isTransport errorCode reason => c.close isTransport errorCode reason
  | .handle d nowUs => c.handle d nowUs
  | .tick timers nowUs => c.tick nowUs timers
  | .nextTimerDeadline quiet => c.nextTimerDeadline quiet
  | .pollDatagram p nowUs => c.pollDatagram p nowUs
  | .pollLevel lvl appWriteKeys offer nowUs => c.pollLevel lvl appWriteKeys offer nowUs
  | .pollEvent => c.pollEvent
  | .work effects => (c.effects effects).2

end QuicZig.Conn.Closing
