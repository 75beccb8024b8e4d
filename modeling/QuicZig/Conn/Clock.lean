import QuicZig.Conn.AckTracker
import QuicZig.Conn.Closing
import QuicZig.Conn.Deadline
import QuicZig.Conn.PathState

/-! What a connection does when a time has come, and the earliest deadline it names to its host. Frames that are queued
again, the congestion controller, the pacer's own state and the log are not modelled: no timer reads them. -/
namespace QuicZig.Conn.Clock
open Machine
open Closing (LifecycleState)

def saturatingMul (a b : Nat) : Nat := min (a*b) maxU64

def ms : Nat := 1000

def granularityUs : Nat := ms

structure RttEstimator where
  latestRttUs : Nat := 0
  smoothedRttUs : Nat := 333*ms
  rttVarUs : Nat := 333*ms/2
  deriving DecidableEq, Repr

def RttEstimator.pto (rtt : RttEstimator) (maxAckDelayUs : Nat) : Nat :=
  saturatingAdd (saturatingAdd rtt.smoothedRttUs (max (saturatingMul rtt.rttVarUs 4) granularityUs)) maxAckDelayUs

/-- A packet in flight, of which a loss or a probe timer runs. -/
structure SentRecord where
  pn : Nat
  sentTimeUs : Nat
  ackEliciting : Bool
  deriving DecidableEq, Repr

/-- One packet number space: what was received, and what is in flight in the order of the numbers. -/
structure Space where
  received : AckTracker := {}
  largestAckedSent : Option Nat := none
  sent : List SentRecord := []
  capacity : Nat := 4096
  timeShift : Nat := 3
  ptoCount : Nat := 0
  pendingPing : Bool := false

namespace Space

def isFull (s : Space) : Bool := s.sent.length ≥ s.capacity

def widestThresholdUs (rtt : RttEstimator) : Nat :=
  let referenceRtt := max rtt.latestRttUs rtt.smoothedRttUs
  let margin := max (saturatingMul rtt.rttVarUs 4) (referenceRtt/4)
  saturatingAdd (saturatingAdd referenceRtt referenceRtt) margin

def timeThresholdUs (s : Space) (rtt : RttEstimator) : Nat :=
  if s.timeShift = 0 then max (widestThresholdUs rtt) granularityUs
  else
    let referenceRtt := max rtt.latestRttUs rtt.smoothedRttUs
    max (saturatingAdd referenceRtt (referenceRtt/2^s.timeShift)) granularityUs

def earliestLossDeadline (s : Space) (rtt : RttEstimator) : Option Nat :=
  s.largestAckedSent.bind fun largestAcked =>
    ((s.sent.filter (·.pn ≤ largestAcked)).map (saturatingAdd ·.sentTimeUs (s.timeThresholdUs rtt))).min?

def ackEliciting (s : Space) : List Nat := (s.sent.filter (·.ackEliciting)).map (·.sentTimeUs)

def newestAckElicitingSentTime (s : Space) : Option Nat := s.ackEliciting.max?

/-- The walk of `sweepLosses` over the packets, with a number that none acknowledged goes beyond and a send time that a lost one
lies before: what is left, whether any was lost, and whether all frames of the lost ones could be queued again. -/
def sweepLosses (largestAcked : Option Nat) (cutoff : Nat) (requeued : SentRecord → Bool) :
    List SentRecord → List SentRecord × Bool × Bool
  | [] => ([],false,true)
  | p::rest =>
    if largestAcked.all (p.pn > ·) then (p::rest,false,true)
    else if p.sentTimeUs < cutoff then
      if requeued p then
        let (left,_,whole) := sweepLosses largestAcked cutoff requeued rest
        (left,true,whole)
      else (rest,true,false)
    else
      let (left,any,whole) := sweepLosses largestAcked cutoff requeued rest
      (p::left,any,whole)

/-- Without the oldest packet that asks for an acknowledgement. -/
def removeOldest (s : Space) : Space :=
  {s with sent := s.sent.eraseP (·.ackEliciting)}

end Space

structure TimedPath where
  path : PathState
  space : Space := {}
  rtt : RttEstimator := {}
  ptoProbeCount : Nat := 0
  retireDeadlineUs : Option Nat := none
  /-- When the pacer lets a datagram out that waits for nothing else. -/
  pacingReadyUs : Nat → Option Nat := fun _ => none

structure PreviousKeys where
  discardDeadlineUs : Option Nat

inductive Place where
  | initial
  | handshake
  | path (index : Nat)
  deriving DecidableEq, Repr

/-- A timed action that a tick takes. -/
inductive Fired where
  | pathValidation (pathId : Nat)
  | pathRetirement (pathId : Nat)
  | keyDiscard
  | draining
  | closing
  | handshakeTimeout
  | idle
  | ackDelay (place : Place)
  | lossDetection (place : Place)
  | pto (place : Place)
  | streamGc
  deriving DecidableEq, Repr

structure Connection where
  lifecycle : LifecycleState := {}
  paths : List TimedPath
  activePath : Nat := 0
  initial : Space := {}
  handshake : Space := {}
  initialKeysDiscarded : Bool := false
  handshakeKeysDiscarded : Bool := false
  isClient : Bool := false
  initialDcidSet : Bool := true
  receivedHandshakeAck : Bool := false
  handshakeWriteKeys : Bool := false
  handshakeProbeAnchorUs : Option Nat := none
  peerAckFrequency : Option Nat := none
  localMaxAckDelayMs : Nat := 25
  peerMaxAckDelayMs : Option Nat := none
  localMaxIdleTimeoutMs : Nat := 0
  peerMaxIdleTimeoutMs : Option Nat := none
  lastActivityUs : Nat := 0
  handshakeTimeoutUs : Nat := 0
  handshakeDeadlineUs : Option Nat := none
  appReadPrevious : Option PreviousKeys := none
  streamsGcPending : Bool := false
  restDeadlineValid : Bool := false
  restDeadline : Option TimerDeadline := none

/-- What the actions of a tick come to that is decided elsewhere: whether the frames of a lost packet are queued again, and what
a probe found to send (`none` is a failed allocation), and whether ended streams are reclaimed and fill the batch. -/
structure Outcomes where
  requeued : Place → SentRecord → Bool := fun _ _ => true
  probe : Place → Option Bool := fun _ => some true
  reclaims : Bool := true
  fullBatch : Bool := false

namespace Connection

def space (conn : Connection) : Place → Option Space
  | .initial => some conn.initial
  | .handshake => some conn.handshake
  | .path i => conn.paths[i]?.map TimedPath.space

def setSpace (conn : Connection) (place : Place) (space : Space) : Connection :=
  match place with
  | .initial => {conn with initial := space}
  | .handshake => {conn with handshake := space}
  | .path i => {conn with paths := conn.paths.modify i ({· with space := space})}

def primaryPath (conn : Connection) : TimedPath := conn.paths.headD {path := {id := 0}}

def active (conn : Connection) : TimedPath := conn.paths.getD conn.activePath conn.primaryPath

/-- Of the spaces before the application's, that of the first path. -/
def rtt (conn : Connection) : Place → RttEstimator
  | .initial => conn.primaryPath.rtt
  | .handshake => conn.primaryPath.rtt
  | .path i => (conn.paths[i]?.map TimedPath.rtt).getD {}

/-- The spaces with timers, in the order of the loops. -/
def places (conn : Connection) : List Place :=
  (if conn.initialKeysDiscarded then [] else [.initial]) ++ (if conn.handshakeKeysDiscarded then [] else [.handshake]) ++
    ((List.range conn.paths.length).filter fun i => conn.paths[i]?.any (·.path.path.state ≠ .failed)).map Place.path

def effectiveMaxAckDelayUs (conn : Connection) : Nat := conn.peerAckFrequency.getD (conn.localMaxAckDelayMs*ms)

def peerMaxAckDelayUs (conn : Connection) : Nat := conn.peerMaxAckDelayMs.getD 25*ms

def ackDelayBaseUs (t : AckTracker) : Option Nat :=
  if t.delayedAckArmed then
    some (if t.delayedAckStartUs ≠ 0 then t.delayedAckStartUs else min (t.delayedAckStartMs*1000) maxU64)
  else if t.pendingAck then some (if t.largestAtUs ≠ 0 then t.largestAtUs else min (t.largestAtMs*1000) maxU64)
  else none

def ackDelayDeadlineUs (conn : Connection) (t : AckTracker) : Option Nat :=
  (ackDelayBaseUs t).map (saturatingAdd · conn.effectiveMaxAckDelayUs)

def lossDeadline (conn : Connection) (place : Place) : Option Nat :=
  (conn.space place).bind (·.earliestLossDeadline (conn.rtt place))

def backoffDuration (base count : Nat) : Nat := if base > maxU64/2^min count 16 then maxU64 else base*2^min count 16

def maxHandshakePtoUs : Nat := ({} : RttEstimator).pto 0

def ptoDuration (conn : Connection) (place : Place) (count : Nat) : Nat :=
  match place with
  | .path _ => backoffDuration ((conn.rtt place).pto conn.peerMaxAckDelayUs) count
  | _ =>
    let base := (conn.rtt place).pto 0
    max base (min (backoffDuration base count) maxHandshakePtoUs)

/-- The space that a client owes a probe in although nothing is in flight. -/
def antiDeadlockLevel (conn : Connection) : Option Place :=
  if !conn.isClient || conn.receivedHandshakeAck then none
  else if conn.initial.ackEliciting ≠ [] ∨ conn.handshake.ackEliciting ≠ [] then none
  else if conn.handshakeWriteKeys then some .handshake
  else if conn.initialKeysDiscarded then none
  else some .initial

def applicationPtoHeld (conn : Connection) : Bool := conn.initialDcidSet && !conn.handshakeKeysDiscarded

def ptoDeadline (conn : Connection) (place : Place) : Option Nat :=
  (conn.space place).bind fun space =>
    match place with
    | .path _ =>
      if conn.applicationPtoHeld then none
      else space.newestAckElicitingSentTime.map (saturatingAdd · (conn.ptoDuration place space.ptoCount))
    | _ =>
      match space.newestAckElicitingSentTime with
      | some sentAt => some (saturatingAdd sentAt (conn.ptoDuration place space.ptoCount))
      | none =>
        if conn.antiDeadlockLevel = some place then
          conn.handshakeProbeAnchorUs.map (saturatingAdd · (conn.ptoDuration place space.ptoCount))
        else none

def idleTimeoutUs (conn : Connection) : Option Nat :=
  if conn.localMaxIdleTimeoutMs = 0 then none
  else
    match conn.peerMaxIdleTimeoutMs with
    | none => none
    | some 0 => none
    | some peer => some (max (min conn.localMaxIdleTimeoutMs peer*ms)
      (saturatingMul 3 (conn.active.rtt.pto conn.peerMaxAckDelayUs)))

def idleDeadline (conn : Connection) : Option Nat :=
  if conn.lastActivityUs = 0 then none else conn.idleTimeoutUs.map (saturatingAdd conn.lastActivityUs)

def handshakeDeadline (conn : Connection) (nowUs : Nat) : Option Nat :=
  if conn.handshakeTimeoutUs = 0 then none
  else if conn.handshakeKeysDiscarded then none
  else some (conn.handshakeDeadlineUs.getD (saturatingAdd nowUs conn.handshakeTimeoutUs))

def drainingDurationUs (conn : Connection) : Nat := saturatingMul 3 (conn.active.rtt.pto conn.peerMaxAckDelayUs)

end Connection

def Place.level : Place → EncryptionLevel
  | .initial => .initial
  | .handshake => .handshake
  | .path _ => .application

namespace Connection

def pathId (conn : Connection) : Place → Nat
  | .path i => (conn.paths[i]?.map (·.path.id)).getD 0
  | _ => 0

def deadline (conn : Connection) (kind : TimerKind) (place : Place) (atUs : Nat) : TimerDeadline where
  kind := kind
  atUs := atUs
  level := some place.level
  pathId := conn.pathId place

def spaceDeadlines (conn : Connection) (nowUs : Nat) (place : Place) : List TimerDeadline :=
  let path := match place with
    | .path i => conn.paths[i]?
    | _ => none
  let retirement := path.bind fun p => if p.path.path.state = .retiring then p.retireDeadlineUs else none
  let pacing := path.bind fun p => if p.path.path.state = .retiring then none else p.pacingReadyUs nowUs
  retirement.toList.map (conn.deadline .pathRetirement place) ++
    ((conn.space place).bind (conn.ackDelayDeadlineUs ·.received)).toList.map (conn.deadline .ackDelay place) ++
    (conn.lossDeadline place).toList.map (conn.deadline .lossDetection place) ++
    (conn.ptoDeadline place).toList.map (conn.deadline .pto place) ++
    pacing.toList.map (conn.deadline .pacing place)

/-- What `computeNextTimerDeadline` considers, one after the other. -/
def considered (conn : Connection) (nowUs : Nat) : List TimerDeadline :=
  match conn.lifecycle.drainingDeadlineUs,conn.lifecycle.closingDeadlineUs with
  | some atUs,_ => [{kind := .draining,atUs := atUs}]
  | none,some atUs => [{kind := .closing,atUs := atUs}]
  | none,none =>
    if conn.lifecycle.closed then []
    else
      (if conn.streamsGcPending then [{kind := .streamGc,atUs := nowUs}] else []) ++
        conn.places.flatMap (conn.spaceDeadlines nowUs) ++
        (conn.appReadPrevious.bind (·.discardDeadlineUs)).toList.map
          ({kind := .keyDiscard,atUs := ·,level := some .application}) ++
        conn.idleDeadline.toList.map ({kind := .idle,atUs := ·}) ++
        (conn.handshakeDeadline nowUs).toList.map ({kind := .handshakeTimeout,atUs := ·})

def computeNextTimerDeadline (conn : Connection) (nowUs : Nat) : Option TimerDeadline :=
  (conn.considered nowUs).foldl considerDeadline none

def nextTimerDeadline (conn : Connection) (nowUs : Nat) : Option TimerDeadline :=
  if conn.restDeadlineValid then conn.restDeadline else conn.computeNextTimerDeadline nowUs

end Connection

/-- What a tick has done so far; a failed allocation ends it. -/
structure Pass where
  conn : Connection
  fired : List Fired := []
  failed : Bool := false

/-- A path whose challenge has timed out, now or before. The frames and the recovery of the path go with it. -/
def TimedPath.validationFailed (p : TimedPath) : TimedPath :=
  match if p.path.pendingMigrationReset then p.path.migrationRollback else none with
  | some rollback => {p with path := p.path.rollbackFailedMigration rollback}
  | none => {p with
      path := {p.path with path := p.path.path.fail,pendingMigrationReset := false,migrationRollback := none}
      space := {p.space with received := p.space.received.reset,sent := [],pendingPing := false,ptoCount := 0}
      ptoProbeCount := 0
    }

/-- A failure that was there before counts as an action when there is a migration to take back. -/
def TimedPath.tickValidator (nowUs : Nat) (p : TimedPath) : TimedPath × List Fired :=
  let after := p.path.path.validator.tick nowUs
  if after.status = .failed then
    ({p with path := {p.path with path := {p.path.path with validator := after}}}.validationFailed,
      if p.path.path.validator.status ≠ .failed ∨ (p.path.pendingMigrationReset ∧ p.path.migrationRollback.isSome) then
        [.pathValidation p.path.id]
      else [])
  else (p,[])

/-- One path in `expireRetiringPaths`. -/
def TimedPath.expire (nowUs : Nat) (p : TimedPath) : TimedPath × List Fired :=
  match if p.path.path.state = .retiring then p.retireDeadlineUs else none with
  | none => (p,[])
  | some deadline =>
    if nowUs < deadline then (p,[])
    else ({p with
      path := {p.path with path := p.path.path.fail}
      retireDeadlineUs := none
      space := {p.space with received := p.space.received.reset,sent := [],pendingPing := false,ptoCount := 0}
      ptoProbeCount := 0
    },[.pathRetirement p.path.id])

namespace Connection

def overPaths (conn : Connection) (f : TimedPath → TimedPath × List Fired) : Connection × List Fired :=
  ({conn with paths := conn.paths.map fun p => (f p).1},conn.paths.flatMap fun p => (f p).2)

def discardExpiredApplicationReadKeys (conn : Connection) (nowUs : Nat) : Connection × List Fired :=
  match conn.appReadPrevious.bind (·.discardDeadlineUs) with
  | some deadline => if nowUs ≥ deadline then ({conn with appReadPrevious := none},[.keyDiscard]) else (conn,[])
  | none => (conn,[])

def clearPendingPings (conn : Connection) : Connection := {conn with
  initial := {conn.initial with pendingPing := false}
  handshake := {conn.handshake with pendingPing := false}
  paths := conn.paths.map fun p => {p with space := {p.space with pendingPing := false},ptoProbeCount := 0}
}

def clearRecoveryState (conn : Connection) : Connection :=
  clearPendingPings {conn with
    initial := {conn.initial with sent := []}
    handshake := {conn.handshake with sent := []}
    paths := conn.paths.map fun p => {p with space := {p.space with sent := [],ptoCount := 0}}
  }

def finishDraining (conn : Connection) : Connection :=
  clearRecoveryState {conn with lifecycle := conn.lifecycle.finishDraining}

def enterDraining (conn : Connection) (source : Closing.CloseSource) (reason : String) (nowUs : Nat) : Connection :=
  let drainingDeadline := saturatingAdd nowUs conn.drainingDurationUs
  clearPendingPings {conn with
    lifecycle := conn.lifecycle.enterDraining source .transport 0 0 (Closing.text reason) nowUs drainingDeadline
  }

end Connection

namespace Pass

def fire (pass : Pass) (conn : Connection) (action : Fired) : Pass :=
    {pass with conn := conn,fired := pass.fired ++ [action]}

def promoteDueAckDelay (nowUs : Nat) (pass : Pass) (place : Place) : Pass :=
  match pass.conn.space place with
  | none => pass
  | some space =>
    match space.received.promoteDelayedAckUs nowUs pass.conn.effectiveMaxAckDelayUs with
    | (false,_) => pass
    | (true,received) => pass.fire (pass.conn.setSpace place {space with received := received}) (.ackDelay place)

def detectLossesByTimeThreshold (outcomes : Outcomes) (nowUs : Nat) (pass : Pass) (place : Place) : Pass :=
  if pass.failed then pass
  else
    match pass.conn.space place with
    | none => pass
    | some space =>
      let timeThreshold := space.timeThresholdUs (pass.conn.rtt place)
      if nowUs ≤ timeThreshold then pass
      else
        match Space.sweepLosses space.largestAckedSent (nowUs-timeThreshold) (outcomes.requeued place) space.sent with
        | (_,false,_) => pass
        | (left,true,whole) =>
          {pass.fire (pass.conn.setSpace place {space with sent := left}) (.lossDetection place) with failed := !whole}

/-- A probe of a space before the application's takes its packet out, and so does one whose packets fill the tracker. -/
def fireDuePto (outcomes : Outcomes) (nowUs : Nat) (pass : Pass) (place : Place) : Pass :=
  if pass.failed then pass
  else
    match pass.conn.space place,pass.conn.ptoDeadline place with
    | some space,some deadline =>
      if nowUs < deadline then pass
      else
        let takesOut := match place with
          | .path _ => space.isFull
          | _ => true
        let left := if takesOut then space.removeOldest else space
        match outcomes.probe place with
        | none => {pass.fire (pass.conn.setSpace place left) (.pto place) with failed := true}
        | some requeued =>
          let conn := pass.conn.setSpace place {left with
            ptoCount := min (space.ptoCount+1) maxU32
            pendingPing := !requeued
          }
          let anchored := match place with
            | .path i => {conn with paths := conn.paths.modify i fun p =>
                {p with ptoProbeCount := if requeued ∧ p.ptoProbeCount < 2 then p.ptoProbeCount+1 else p.ptoProbeCount}}
            | _ => if space.ackEliciting = [] then {conn with handshakeProbeAnchorUs := some nowUs} else conn
          pass.fire anchored (.pto place)
    | _,_ => pass

/-- Behind a full batch there may be more to reclaim. -/
def gcClosedStreams (outcomes : Outcomes) (pass : Pass) : Pass :=
  if pass.failed then pass
  else if pass.conn.streamsGcPending then pass.fire {pass.conn with streamsGcPending := outcomes.fullBatch} .streamGc
  else pass

end Pass

namespace Connection

/-- The actions of an open connection that neither its handshake nor its idle time ends. -/
def tickSpaces (outcomes : Outcomes) (nowUs : Nat) (pass : Pass) : Pass :=
  let pass := pass.conn.places.foldl (Pass.promoteDueAckDelay nowUs) pass
  let pass := pass.conn.places.foldl (Pass.detectLossesByTimeThreshold outcomes nowUs) pass
  let pass := pass.conn.places.foldl (Pass.fireDuePto outcomes nowUs) pass
  pass.gcClosedStreams outcomes

def tickIdle (outcomes : Outcomes) (nowUs : Nat) (pass : Pass) : Pass :=
  match pass.conn.idleDeadline with
  | some deadline =>
    if nowUs ≥ deadline then pass.fire (pass.conn.enterDraining .idleTimeout "idle timeout" nowUs) .idle
    else tickSpaces outcomes nowUs pass
  | none => tickSpaces outcomes nowUs pass

/-- The first tick anchors the deadline of the handshake. -/
def tickOpen (outcomes : Outcomes) (nowUs : Nat) (pass : Pass) : Pass :=
  match pass.conn.handshakeDeadline nowUs with
  | some deadline =>
    let pass := {pass with conn := {pass.conn with handshakeDeadlineUs := some deadline}}
    if nowUs ≥ deadline then pass.fire (pass.conn.enterDraining .handshakeTimeout "handshake timeout"
      nowUs) .handshakeTimeout
    else tickIdle outcomes nowUs pass
  | none => tickIdle outcomes nowUs {pass with conn := {pass.conn with handshakeDeadlineUs := none}}

def tickFull (outcomes : Outcomes) (conn : Connection) (nowUs : Nat) : Pass :=
  let (conn,validations) := conn.overPaths (TimedPath.tickValidator nowUs)
  let (conn,retirements) := conn.overPaths (TimedPath.expire nowUs)
  let (conn,discards) := conn.discardExpiredApplicationReadKeys nowUs
  let pass : Pass := {conn := conn,fired := validations ++ retirements ++ discards}
  match conn.lifecycle.drainingDeadlineUs,conn.lifecycle.closingDeadlineUs with
  | some deadline,_ => if nowUs ≥ deadline then pass.fire conn.finishDraining .draining else pass
  | none,some deadline => if nowUs ≥ deadline then pass.fire conn.finishDraining .closing else pass
  | none,none => if conn.lifecycle.closed then pass else tickOpen outcomes nowUs pass

/-- Every action drops the rest deadline, and so does a path whose validation has failed before. -/
def touches (outcomes : Outcomes) (conn : Connection) (nowUs : Nat) (fired : List Fired) : Bool :=
  fired.any (fun action => outcomes.reclaims || action ≠ .streamGc) ||
    conn.paths.any fun p => (p.path.path.validator.tick nowUs).status = .failed

def tick (outcomes : Outcomes) (conn : Connection) (nowUs : Nat) : Pass :=
  if conn.restDeadlineValid ∧ conn.restDeadline.all (nowUs < ·.atUs) then {conn := conn}
  else
    let pass := tickFull outcomes conn nowUs
    let restDeadlineValid := conn.restDeadlineValid && !touches outcomes conn nowUs pass.fired
    {pass with conn := {pass.conn with restDeadlineValid := restDeadlineValid}}

end Connection

end QuicZig.Conn.Clock
