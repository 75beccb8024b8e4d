import QuicZig.Conn.Congestion
import QuicZig.Conn.LossReference
import QuicZig.Conn.Pmtud

/-! The packets of a path from their sending to their acknowledgement or loss, and the decision that the path is persistently
congested. `none` is a failed assertion. -/
namespace QuicZig.Conn.PersistentCongestion
open Machine SentPackets LossSweep
open Congestion (Controller LossStats)
open Pmtud (PathMtu)

variable {Retransmit γ ε : Type}

structure RttEstimator extends Clock.RttEstimator where
  minRttUs : Nat := 0
  firstSampleTaken : Bool := false
  deriving DecidableEq, Repr

def RttEstimator.update (self : RttEstimator) (latestRttUsIn ackDelayUs : Nat) (handshakeConfirmed : Bool)
    (maxAckDelayUs : Nat) :
    RttEstimator :=
  if !self.firstSampleTaken then
    { latestRttUs := latestRttUsIn
      smoothedRttUs := latestRttUsIn
      rttVarUs := latestRttUsIn/2
      minRttUs := latestRttUsIn
      firstSampleTaken := true }
  else
    let minRttUs := min latestRttUsIn self.minRttUs
    let ackDelay := if handshakeConfirmed ∧ ackDelayUs > maxAckDelayUs then maxAckDelayUs else ackDelayUs
    let adjustedRtt := if latestRttUsIn ≥ saturatingAdd minRttUs ackDelay then latestRttUsIn-ackDelay else latestRttUsIn
    let smoothedRttUs := saturatingAdd (Clock.saturatingMul self.smoothedRttUs 7) adjustedRtt/8
    let rttvarSample := if smoothedRttUs > adjustedRtt then smoothedRttUs-adjustedRtt else adjustedRtt-smoothedRttUs
    { latestRttUs := latestRttUsIn
      smoothedRttUs
      rttVarUs := saturatingAdd (Clock.saturatingMul self.rttVarUs 3) rttvarSample/4
      minRttUs
      firstSampleTaken := true }

/-- What the ACKs and the sweeps read of the connection. -/
structure Connection where
  peerMaxAckDelayUs : Nat := 25*Clock.ms
  peerAckDelayExponent : Nat := 3
  handshakeConfirmed : Bool := true
  ecnEnabled : Bool := false
  pmtudConfig : Pmtud.Config := {}
  deriving DecidableEq, Repr

structure Path (Retransmit : Type) where
  sent : SentPacketTracker Retransmit
  space : PnSpace := {}
  rtt : RttEstimator := {}
  cc : Controller
  mtu : PathMtu := {}
  deriving DecidableEq, Repr

def basePtoDurationForApplicationPath (conn : Connection) (path : Path Retransmit) :
    Nat := path.rtt.pto conn.peerMaxAckDelayUs

/-! An ACK. -/

def scaledAckDelayUs (raw exponent : Nat) : Nat :=
  if exponent = 0 then raw else if raw > maxU64/2^exponent then maxU64 else raw*2^exponent

structure AckDispatchCtx where
  largestAckedSendTimeUs : Option Nat := none
  anyAckElicitingNewlyAcked : Bool := false
  pmtudProbeAcked : Bool := false
  anyRegularAcked : Bool := false
  deriving DecidableEq, Repr

/-- `deliver` is what the streams make of the acknowledgement. -/
def dispatchAcked (deliver : SentPacket Retransmit → Except ε Unit) (pmtuProbePn : Option Nat) (largestAcked : Nat)
    (ctx : AckDispatchCtx) (acked : SentPacket Retransmit) : Except ε Unit × AckDispatchCtx :=
  (deliver acked,{
    largestAckedSendTimeUs := if acked.pn = largestAcked then some acked.sentTimeUs else ctx.largestAckedSendTimeUs
    anyAckElicitingNewlyAcked := ctx.anyAckElicitingNewlyAcked || acked.ackEliciting
    pmtudProbeAcked := ctx.pmtudProbeAcked || pmtuProbePn = some acked.pn
    anyRegularAcked := ctx.anyRegularAcked || pmtuProbePn ≠ some acked.pn})

/-- The ranges of an ACK, from the largest down. -/
def ackLoop (onAcked : γ → SentPacket Retransmit → Except ε Unit × γ) (it : Frame.Iterator) (ctx : γ)
    (t : SentPacketTracker Retransmit) : Option (Except (Wire.Error ⊕ ε) Unit × γ × SentPacketTracker Retransmit) :=
  match _step : it.next with
  | (.error e,_) => some (.error (.inl e),ctx,t)
  | (.ok none,_) => some (.ok (),ctx,t)
  | (.ok (some interval),later) =>
    match t.lowerBound interval.smallest with
    | none => ackLoop onAcked later ctx t
    | some start =>
      let stop := runEnd (fun p => decide (p.pn ≤ interval.largest)) t (t.count-start) start
      match t.removeRangeWithError onAcked ctx start stop with
      | none => none
      | some (.error e,ctx,t) => some (.error (.inr e),ctx,t)
      | some (.ok (),ctx,t) => ackLoop onAcked later ctx t
termination_by it.left
decreasing_by all_goals exact Frame.Iterator.left_next _step

/-- How far an ACK comes before losses are looked for. -/
inductive Applied where
  | closed
  | failed
  | walked (rttSampled : Bool)
  deriving DecidableEq, Repr

/-- `told` is what the ACK's own calls make of the controller. -/
def apply (conn : Connection) (a : Frame.Ack) (nowUs : Nat) (deliver : SentPacket Retransmit → Except ε Unit)
    (told : Controller → Controller) (path : Path Retransmit) : Option (Applied × Path Retransmit) :=
  match path.space.applyAck conn.ecnEnabled a with
  | none => some (.closed,path)
  | some space =>
    match ackLoop (dispatchAcked deliver path.mtu.probePn a.largestAcked) (Frame.iter a) {} path.sent with
    | none => none
    | some (.error _,_,sent) =>
      some (.failed,{path with
        space
        sent
        cc := told path.cc})
    | some (.ok (),ctx,sent) =>
      let mtu := if ctx.pmtudProbeAcked then path.mtu.pmtudOnProbeAcked conn.pmtudConfig.probeStep
        conn.pmtudConfig.maxMtu else path.mtu
      let mtu := if ctx.anyRegularAcked then mtu.pmtudOnRegularAcked else mtu
      let sample := ctx.largestAckedSendTimeUs.filter fun sentTimeUs => ctx.anyAckElicitingNewlyAcked && nowUs ≥ sentTimeUs
      let rtt :=
        match sample with
        | none => path.rtt
        | some sentTimeUs =>
          path.rtt.update (nowUs-sentTimeUs) (scaledAckDelayUs a.ackDelay conn.peerAckDelayExponent) conn.handshakeConfirmed
            conn.peerMaxAckDelayUs
      some (.walked sample.isSome,{path with
        space
        sent
        rtt
        mtu
        cc := told path.cc})

/-! Losses. -/

/-- The packets a sweep declares lost are reported together; `true` when persistent congestion is declared. -/
def onPacketsLost (conn : Connection) (stats : LossStats) (nowUs : Nat) (path : Path Retransmit) : Bool × Path Retransmit :=
  let (declared,cc) := Congestion.Recovery.onApplicationPathPacketsLost path.cc stats
    (basePtoDurationForApplicationPath conn path) nowUs
  (declared,{path with cc := if stats.count = 0 then cc else cc.noteDeclaredLost stats.count})

def probeLost (conn : Connection) (mtu : PathMtu) : PathMtu :=
  (mtu.pmtudOnProbeLost conn.pmtudConfig.probeThreshold conn.pmtudConfig.probeStep conn.pmtudConfig.maxMtu).1

def regularLost (conn : Connection) (mtu : PathMtu) : PathMtu :=
  if !conn.pmtudConfig.enable then mtu
  else (mtu.pmtudOnRegularLost conn.pmtudConfig.probeThreshold conn.pmtudConfig.initialMtu).1

/-- `lost` are the packets that were handed over. -/
structure SweepCtx (Retransmit : Type) where
  mtu : PathMtu
  stats : LossStats := {}
  lost : List (SentPacket Retransmit) := []

/-- `requeue` is what queueing the packet's frames again comes to. -/
def SweepCtx.handle (conn : Connection) (requeue : SentPacket Retransmit → Except ε Unit) (ctx : SweepCtx Retransmit)
    (lost : SentPacket Retransmit) : Except ε Unit × SweepCtx Retransmit :=
  let isProbe := decide (ctx.mtu.probePn = some lost.pn)
  let ctx := {ctx with
    mtu := if isProbe then probeLost conn ctx.mtu else ctx.mtu
    lost := lost::ctx.lost}
  match requeue lost with
  | .error e => (.error e,ctx)
  | .ok () =>
    if isProbe then (.ok (),ctx)
    else
      (.ok (),{ctx with
        stats := ctx.stats.add lost
        mtu := regularLost conn ctx.mtu})

/-- What comes of looking for losses: whether persistent congestion is declared, and the packets declared lost. -/
structure Verdict (Retransmit : Type) where
  declared : Bool := false
  lost : List (SentPacket Retransmit) := []

def sweepLosses (conn : Connection) (requeue : SentPacket Retransmit → Except ε Unit) (pred : LossPredicate) (nowUs : Nat)
    (path : Path Retransmit) : Option (Verdict Retransmit × Path Retransmit) :=
  match LossSweep.sweepLosses (SweepCtx.handle conn requeue) pred {mtu := path.mtu} path.sent with
  | none => none
  | some (.error _,ctx,sent) =>
    some ({lost := ctx.lost},{path with
      sent
      mtu := ctx.mtu})
  | some (.ok (),ctx,sent) =>
    let (declared,path) := onPacketsLost conn ctx.stats nowUs {path with
      sent
      mtu := ctx.mtu}
    some ({declared,lost := ctx.lost},path)

/-- What the sweep of an ACK takes, if it is made. -/
def packetThreshold (reorder : ReorderWindow) (path : Path Retransmit) : Option LossPredicate :=
  path.space.largestAckedSent.map (.packetThreshold · reorder.packetThreshold)

/-- What the sweep of a tick takes, if it is made. -/
def timeThreshold (reorder : ReorderWindow) (nowUs : Nat) (path : Path Retransmit) : Option LossPredicate :=
  let timeThreshold := reorder.timeThresholdUs path.rtt.toRttEstimator
  if nowUs ≤ timeThreshold then none else some (.timeThreshold path.space.largestAckedSent (nowUs-timeThreshold))

/-- The oldest live ack-eliciting packet expires. -/
def firePto (conn : Connection) (requeue : SentPacket Retransmit → Except ε Unit) (nowUs : Nat) (path : Path Retransmit) :
    Option (Verdict Retransmit × Path Retransmit) :=
  match (path.sent.packets.take path.sent.count).findIdx? fun p => p.alive && p.ackEliciting with
  | none => some ({},path)
  | some i => do
    let (lost,sent) ← path.sent.removeAt i
    let isProbe := decide (path.mtu.probePn = some lost.pn)
    let path := {path with
      sent
      mtu := if isProbe then probeLost conn path.mtu else path.mtu}
    match requeue lost with
    | .error _ => return ({lost := [lost]},path)
    | .ok () =>
      if isProbe then return ({lost := [lost]},path)
      else
        let (declared,path) := onPacketsLost conn (LossStats.add {} lost) nowUs path
        return ({declared,lost := [lost]},path)

/-! A run. -/

/-- What was sent, what was declared lost, which ACKs came, and when the first RTT sample was taken. -/
structure Account (Retransmit : Type) where
  sent : List (SentPacket Retransmit) := []
  lost : List (SentPacket Retransmit) := []
  acks : List Frame.Ack := []
  firstSampleUs : Option Nat := none

namespace Account

def sampled (account : Account Retransmit) (nowUs : Nat) : Account Retransmit :=
  {account with firstSampleUs := some (account.firstSampleUs.getD nowUs)}

def acked (account : Account Retransmit) (p : SentPacket Retransmit) : Bool := account.acks.any (LossReference.Acked · p)

def After (account : Account Retransmit) (p : SentPacket Retransmit) :
    Prop := ∃ first ∈ account.firstSampleUs, first < p.sentTimeUs

/-- Of the packets sent between two, by their numbers, none has been acknowledged. -/
def Unacked (account : Account Retransmit) (p q : SentPacket Retransmit) : Prop :=
  ∀ r ∈ account.sent, (p.pn < r.pn ∧ r.pn < q.pn) ∨ (q.pn < r.pn ∧ r.pn < p.pn) → account.acked r = false

end Account

/-- Persistent congestion was declared; `account` is as it stood then. -/
structure Declaration (Retransmit : Type) where
  durationUs : Nat
  account : Account Retransmit

/-- The two packets of RFC 9002 section 7.6.2. -/
def Declaration.Justified (d : Declaration Retransmit) : Prop :=
  ∃ p ∈ d.account.lost, ∃ q ∈ d.account.lost, p.ackEliciting = true ∧ q.ackEliciting = true ∧ p.sentTimeUs < q.sentTimeUs ∧
    p.sentTimeUs+d.durationUs ≤ q.sentTimeUs ∧ d.account.After p ∧ d.account.After q ∧ d.account.Unacked p q

structure History (Retransmit : Type) where
  path : Path Retransmit
  account : Account Retransmit := {}
  declarations : List (Declaration Retransmit) := []

/-- `handshakeAck` is a sample that an ACK of a handshake space gives the path. -/
inductive Event (Retransmit ε : Type) where
  | send (granted : Bool) (probeSize : Option Nat) (packet : SentPacket Retransmit)
  | ack (conn : Connection) (a : Frame.Ack) (nowUs : Nat) (reorder : ReorderWindow)
    (deliver requeue : SentPacket Retransmit → Except ε Unit) (told : Controller → Controller)
  | handshakeAck (conn : Connection) (latestRttUs nowUs : Nat)
  | tick (conn : Connection) (nowUs : Nat) (reorder : ReorderWindow) (requeue : SentPacket Retransmit → Except ε Unit)
  | pto (conn : Connection) (nowUs : Nat) (requeue : SentPacket Retransmit → Except ε Unit)

namespace History

def send (h : History Retransmit) (granted : Bool) (probeSize : Option Nat) (packet : SentPacket Retransmit) :
    History Retransmit :=
  match h.path.space.allocatePn with
  | none => h
  | some (pn,space) =>
    let packet := {packet with
      pn := pn
      dead := false}
    match h.path.sent.record granted packet with
    | none => h
    | some (.error _,sent) =>
      {h with path := {h.path with
        space
        sent}}
    | some (.ok (),sent) =>
      {h with
        path := {h.path with
          space
          sent
          mtu := probeSize.elim h.path.mtu (h.path.mtu.pmtudOnProbeSent pn)}
        account := {h.account with sent := packet::h.account.sent}}

/-- An ACK up to its sweep; `true` when it comes to that. -/
def acknowledge (h : History Retransmit) (conn : Connection) (a : Frame.Ack) (nowUs : Nat)
    (deliver : SentPacket Retransmit → Except ε Unit) (told : Controller → Controller) : Bool × History Retransmit :=
  let account := {h.account with acks := a::h.account.acks}
  match apply conn a nowUs deliver told h.path with
  | none => (false,h)
  | some (.closed,_) => (false,h)
  | some (.failed,path) =>
    (false,{h with
      path
      account})
  | some (.walked rttSampled,path) =>
    (true,{h with
      path
      account := if rttSampled then account.sampled nowUs else account})

/-- The outcome of looking for losses is put on record. -/
def judge (h : History Retransmit) (conn : Connection) (outcome : Option (Verdict Retransmit × Path Retransmit)) :
    History Retransmit :=
  match outcome with
  | none => h
  | some (verdict,path) =>
    let account := {h.account with lost := verdict.lost ++ h.account.lost}
    let declaration : Declaration Retransmit := {
      durationUs := basePtoDurationForApplicationPath conn h.path*Congestion.persistentCongestionThreshold
      account}
    { path
      account
      declarations := if verdict.declared then declaration::h.declarations else h.declarations }

def sweep (h : History Retransmit) (conn : Connection) (nowUs : Nat) (requeue : SentPacket Retransmit → Except ε Unit)
    (pred : Option LossPredicate) : History Retransmit :=
  match pred with
  | none => h
  | some pred => h.judge conn (sweepLosses conn requeue pred nowUs h.path)

end History

def step (h : History Retransmit) : Event Retransmit ε → History Retransmit
  | .send granted probeSize packet => h.send granted probeSize packet
  | .ack conn a nowUs reorder deliver requeue told =>
    match h.acknowledge conn a nowUs deliver told with
    | (false,h) => h
    | (true,h) => h.sweep conn nowUs requeue (packetThreshold reorder h.path)
  | .handshakeAck conn latestRttUs nowUs =>
    {h with
      path := {h.path with rtt := h.path.rtt.update latestRttUs 0 conn.handshakeConfirmed conn.peerMaxAckDelayUs}
      account := h.account.sampled nowUs}
  | .tick conn nowUs reorder requeue => h.sweep conn nowUs requeue (timeThreshold reorder nowUs h.path)
  | .pto conn nowUs requeue => h.judge conn (firePto conn requeue nowUs h.path)

/-- Nothing has been sent. -/
def Fresh (h : History Retransmit) : Prop :=
  ∃ cap cc mtu, 0 < cap ∧ h = {path := {sent := .init cap,cc,mtu}}

end QuicZig.Conn.PersistentCongestion
