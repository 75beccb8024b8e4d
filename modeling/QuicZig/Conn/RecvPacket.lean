import QuicZig.Conn.PnSpace
import QuicZig.Conn.AckRun
import QuicZig.Frame.Payload

/-! What happens to a packet that was opened: it is attributed to its path, looked up
among the numbers received, recorded, counted, and its frames are dispatched. -/
namespace QuicZig.Conn
open Machine AckTracker Spans

inductive EncryptionLevel where
  | initial
  | earlyData
  | handshake
  | application
  deriving DecidableEq, Repr

namespace RecvPacket

/-- The fields of `lifecycle` that tell a connection in the closing state. -/
structure Lifecycle where
  closingDeadlineUs : Option Nat := none
  pendingClose : Bool := false
  drainingDeadlineUs : Option Nat := none
  deriving DecidableEq, Repr

/-- The fields of the connection that the shared tail of the packet handlers reads or writes. -/
structure Connection where
  lifecycle : Lifecycle := {}
  lastRecvEcn : EcnCodepoint := .notEct
  effectiveAckThreshold : Nat := 2
  ackQuickGapUs : Nat := 0
  effectiveReorderThreshold : Nat := 1
  lastAuthenticatedPathId : Nat := 0
  closingStateAttributionObserved : Bool := false
  qlogPacketsReceived : Nat := 0
  lastActivityUs : Nat := 0
  ackElicitingSentSinceRecv : Bool := false
  deriving DecidableEq, Repr

def closingAttributionOnly (conn : Connection) : Bool :=
  conn.lifecycle.closingDeadlineUs.isSome && !conn.lifecycle.pendingClose && !conn.lifecycle.drainingDeadlineUs.isSome

def recordApplicationReceivedPacket (granted : Bool) (appPnSpace : PnSpace) (pn nowUs : Nat)
    (cls : Frame.PayloadClassification) (delayedAckThreshold quickGapUs reorderThreshold : Nat) : PnSpace :=
  if cls.ackEliciting && cls.needsImmediateAck then appPnSpace.recordReceivedPacketUs granted pn nowUs true
  else appPnSpace.recordReceivedPacketDelayed granted pn (nowUs/1000) cls.ackEliciting delayedAckThreshold nowUs quickGapUs
    reorderThreshold

/-- What becomes of the frames: searched for a close only, given to `dispatchFrames`, or left unread. -/
inductive Verdict where
  | attribution (peerClose : Option Frame.ConnectionClose)
  | dispatch
  | duplicate
  deriving DecidableEq, Repr

/-- A packet that passed the AEAD. -/
structure Opened where
  lvl : EncryptionLevel
  pathId : Nat
  pn : Nat
  payload : List Byte
  nowUs : Nat
  deriving DecidableEq, Repr

def record (granted : Bool) (conn : Connection) (space : PnSpace) (p : Opened) : PnSpace :=
  let cls := Frame.classifyPayload p.payload
  match p.lvl with
  | .earlyData | .application => recordApplicationReceivedPacket granted space p.pn p.nowUs cls conn.effectiveAckThreshold
      conn.ackQuickGapUs conn.effectiveReorderThreshold
  | .initial | .handshake => space.recordReceivedPacketUs granted p.pn p.nowUs cls.ackEliciting

/-- The dispatch itself acts on the rest of the connection and is not part of this function. -/
def finishOpenedPacket (granted : Bool) (conn : Connection) (space : PnSpace) (p : Opened) :
    Verdict × Connection × PnSpace :=
  let conn := {conn with lastAuthenticatedPathId := p.pathId}
  if closingAttributionOnly conn then
    (.attribution (Frame.peerCloseFrame p.payload),{conn with closingStateAttributionObserved := true},space)
  else
    let duplicatePn := space.received.contains p.pn
    let space := (record granted conn space p).onPacketReceivedWithEcn conn.lastRecvEcn
    let conn := {conn with qlogPacketsReceived := saturatingAdd conn.qlogPacketsReceived 1,lastActivityUs := p.nowUs,
                           ackElicitingSentSinceRecv := false}
    (if duplicatePn then .duplicate else .dispatch,conn,space)

theorem record_addition (granted : Bool) (conn : Connection) (space : PnSpace) (p : Opened) :
    ∃ call : AckRun.Addition, call.pn = p.pn ∧
      record granted conn space p = {space with received := (AckRun.Event.mk call granted).apply space.received} := by
  unfold record recordApplicationReceivedPacket
  cases p.lvl with
  | initial | handshake => exact ⟨.addPacketUs p.pn p.nowUs (Frame.classifyPayload p.payload).ackEliciting,rfl,rfl⟩
  | earlyData | application =>
    dsimp only
    split
    · exact ⟨.addPacketUs p.pn p.nowUs true,rfl,rfl⟩
    · exact ⟨.addPacketDelayed p.pn (p.nowUs/1000) _ _ p.nowUs _ _,rfl,rfl⟩

theorem ecn_received (space : PnSpace) (codepoint : EcnCodepoint) :
    (space.onPacketReceivedWithEcn codepoint).received = space.received := by
  cases codepoint <;> rfl

theorem finish_closing {conn : Connection} (granted : Bool) (space : PnSpace) (p : Opened)
    (closing : closingAttributionOnly conn = true) : ∃ conn',
    finishOpenedPacket granted conn space p = (.attribution (Frame.peerCloseFrame p.payload),conn',space) := by
  have going : closingAttributionOnly {conn with lastAuthenticatedPathId := p.pathId} = true := closing
  unfold finishOpenedPacket
  dsimp only
  rw [if_pos going]
  exact ⟨_,rfl⟩

/-- Any other one looks the number up, records it, and counts the ECN mark. -/
theorem finish_open {conn : Connection} (granted : Bool) (space : PnSpace) (p : Opened)
    (active : closingAttributionOnly conn = false) : ∃ conn',
    finishOpenedPacket granted conn space p = (if space.received.contains p.pn then .duplicate else .dispatch,conn',
      (record granted conn space p).onPacketReceivedWithEcn conn.lastRecvEcn) := by
  have going : ¬ closingAttributionOnly {conn with lastAuthenticatedPathId := p.pathId} = true := by
    intro closing
    exact Bool.false_ne_true (active.symm.trans closing)
  unfold finishOpenedPacket
  dsimp only
  rw [if_neg going]
  exact ⟨_,rfl⟩

end RecvPacket

end QuicZig.Conn
