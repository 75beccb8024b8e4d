import QuicZig.Conn.SentPackets
import QuicZig.Machine

/-! NewReno and CUBIC on one path, with the memory of the packets that were declared lost. -/
namespace QuicZig.Conn.Congestion
open Machine SentPackets

structure HyStartConfig where
  nRttSample : Nat := 8
  minRttThreshUs : Nat := 4000
  maxRttThreshUs : Nat := 16000
  minRttDivisor : Nat := 8
  cssGrowthDivisor : Nat := 4
  cssRounds : Nat := 5
  enabled : Bool := true
  deriving DecidableEq, Repr

structure HyStart where
  cfg : HyStartConfig := {}
  lastRoundMinRttUs : Option Nat := none
  currentRoundMinRttUs : Option Nat := none
  cssBaselineMinRttUs : Option Nat := none
  rttSampleCount : Nat := 0
  cssRoundsSeen : Nat := 0
  inCss : Bool := false
  roundEndPn : Option Nat := none
  deriving DecidableEq, Repr

namespace HyStart

def reset (s : HyStart) : HyStart := {cfg := s.cfg}

def slowStartGrowth (s : HyStart) (bytesAcked : Nat) : Nat :=
  if !s.cfg.enabled || !s.inCss then bytesAcked else bytesAcked/s.cfg.cssGrowthDivisor

/-- One sample of the round; enough of them above the round before enter Conservative Slow Start. -/
def sample (s : HyStart) (rtt : Nat) : HyStart :=
  let s := {s with
    currentRoundMinRttUs := if s.currentRoundMinRttUs.all (rtt < ·) then some rtt else s.currentRoundMinRttUs
    rttSampleCount := s.rttSampleCount+1}
  match s.lastRoundMinRttUs,s.currentRoundMinRttUs with
  | some lastMin,some curMin =>
    let rttThresh := max s.cfg.minRttThreshUs (min s.cfg.maxRttThreshUs (lastMin/s.cfg.minRttDivisor))
    if !s.inCss && s.rttSampleCount ≥ s.cfg.nRttSample && curMin ≥ saturatingAdd lastMin rttThresh then
      {s with
        inCss := true
        cssBaselineMinRttUs := some lastMin
        cssRoundsSeen := 0}
    else s
  | _,_ => s

/-- The round is over: `true` when slow start is. -/
def endRound (s : HyStart) (nextPnToSend : Nat) : Bool × HyStart :=
  let falseAlarm := match s.cssBaselineMinRttUs,s.currentRoundMinRttUs with
    | some baseline,some curMin => s.inCss && curMin < baseline
    | _,_ => false
  let s := if falseAlarm then
      {s with
        inCss := false
        cssBaselineMinRttUs := none
        cssRoundsSeen := 0}
    else s
  let s := if s.inCss then {s with cssRoundsSeen := s.cssRoundsSeen+1} else s
  if s.inCss && s.cssRoundsSeen ≥ s.cfg.cssRounds then (true,s)
  else (false,{s with
    lastRoundMinRttUs := s.currentRoundMinRttUs
    currentRoundMinRttUs := none
    rttSampleCount := 0
    roundEndPn := some nextPnToSend})

def onAckProcessed (s : HyStart) (largestAckedPn : Nat) (latestRttUs : Option Nat) (nextPnToSend : Nat) : Bool × HyStart :=
  if !s.cfg.enabled then (false,s)
  else
    let roundEndPn := s.roundEndPn.getD nextPnToSend
    let s := {s with roundEndPn := some roundEndPn}
    let s := match latestRttUs with
      | some rtt => s.sample rtt
      | none => s
    if largestAckedPn < roundEndPn then (false,s) else s.endRound nextPnToSend

end HyStart

inductive Algorithm where
  | newReno | cubic
  deriving DecidableEq, Repr

structure Config where
  maxDatagramSize : Nat := 1200
  algorithm : Algorithm
  hystart : HyStartConfig := {}
  deriving DecidableEq, Repr

def Config.minWindow (c : Config) : Nat := 2*c.maxDatagramSize

def Config.initialWindow (c : Config) : Nat := min (10*c.maxDatagramSize) (max c.minWindow 14720)

def persistentCongestionThreshold : Nat := 3
def lossReductionFactorNum : Nat := 1
def lossReductionFactorDen : Nat := 2

def ackFillsWindow (cwnd bytesAcked bytesInFlight : Nat) : Bool := saturatingAdd bytesInFlight bytesAcked ≥ cwnd

/-- `false` is a stale ACK; the recovery period may end. -/
def exitRecoveryOrStall (recovery : Option Nat) (largestAckedSentTimeUs : Nat) : Bool × Option Nat :=
  match recovery with
  | none => (true,none)
  | some recStart => if largestAckedSentTimeUs > recStart then (true,none) else (false,recovery)

structure LossEpisodes where
  episode : Nat := 0
  pending : Nat := 0
  undoable : Bool := false
  prevEpisode : Nat := 0
  prevPending : Nat := 0
  prevUndoable : Bool := false
  undos : Nat := 0
  deriving DecidableEq, Repr

inductive Arrived where
  | none | current | previous
  deriving DecidableEq, Repr

namespace LossEpisodes

def «open» (e : LossEpisodes) : LossEpisodes :=
  {e with
    prevEpisode := e.episode
    prevPending := e.pending
    prevUndoable := e.undoable && e.pending ≠ 0
    episode := (e.episode+1)%2^32
    pending := 0
    undoable := true}

def noteDeclaredLost (e : LossEpisodes) (count : Nat) : LossEpisodes := {e with pending := min (e.pending+count) maxU32}

def arrived (e : LossEpisodes) (episode : Nat) : Arrived × LossEpisodes :=
  if episode = e.episode then
    if e.pending = 0 then (.none,e)
    else
      let e := {e with pending := e.pending-1}
      if e.pending ≠ 0 ∨ e.undoable = false then (.none,e)
      else (.current,{e with undoable := false,undos := e.undos+1})
  else if episode = e.prevEpisode ∧ e.prevUndoable = true then
    if e.prevPending = 0 then (.none,e)
    else
      let e := {e with prevPending := e.prevPending-1}
      if e.prevPending ≠ 0 then (.none,e)
      else (.previous,{e with prevUndoable := false,undos := e.undos+1})
  else (.none,e)

def currentStands (e : LossEpisodes) : Bool := e.undoable

end LossEpisodes

structure NewReno where
  cfg : Config
  cwnd : Nat
  ssthresh : Option Nat := none
  recoveryStartTimeUs : Option Nat := none
  bytesAckedInCa : Nat := 0
  hystart : HyStart := {}
  episodes : LossEpisodes := {}
  undoCwnd : Nat := 0
  undoSsthresh : Option Nat := none
  prevUndoCwnd : Nat := 0
  prevUndoSsthresh : Option Nat := none
  deriving DecidableEq, Repr

namespace NewReno

def init (cfg : Config) : NewReno := {cfg := cfg,cwnd := cfg.initialWindow,hystart := {cfg := cfg.hystart}}

def isInRecovery (c : NewReno) (sentTimeUs : Nat) : Bool := c.recoveryStartTimeUs.any (sentTimeUs ≤ ·)

def isSlowStart (c : NewReno) : Bool := c.ssthresh.all (c.cwnd < ·)

def onPacketAcked (c : NewReno) (bytesAcked largestAckedSentTimeUs bytesInFlight : Nat) : NewReno :=
  match exitRecoveryOrStall c.recoveryStartTimeUs largestAckedSentTimeUs with
  | (false,_) => c
  | (true,recovery) =>
    let c := {c with recoveryStartTimeUs := recovery}
    if !ackFillsWindow c.cwnd bytesAcked bytesInFlight then c
    else if c.isSlowStart then {c with cwnd := saturatingAdd c.cwnd (c.hystart.slowStartGrowth bytesAcked)}
    else
      let bytesAckedInCa := saturatingAdd c.bytesAckedInCa bytesAcked
      if bytesAckedInCa ≥ c.cwnd then
        {c with
          bytesAckedInCa := bytesAckedInCa-c.cwnd
          cwnd := saturatingAdd c.cwnd c.cfg.maxDatagramSize}
      else {c with bytesAckedInCa := bytesAckedInCa}

def reduce (c : NewReno) : NewReno :=
  let ssthresh := max (c.cwnd*lossReductionFactorNum/lossReductionFactorDen) c.cfg.minWindow
  {c with
    episodes := c.episodes.open
    prevUndoCwnd := c.undoCwnd
    prevUndoSsthresh := c.undoSsthresh
    undoCwnd := c.cwnd
    undoSsthresh := c.ssthresh
    ssthresh := some ssthresh
    cwnd := ssthresh
    bytesAckedInCa := 0
    hystart := c.hystart.reset}

/-- A loss and an ECN-CE report take the same course. -/
def onPacketLost (c : NewReno) (lostLargestSentTimeUs nowUs : Nat) : NewReno :=
  if c.isInRecovery lostLargestSentTimeUs then c else {c with recoveryStartTimeUs := some nowUs}.reduce

def onCongestionEvent (c : NewReno) (cePacketSentTimeUs nowUs : Nat) : NewReno :=
  if c.isInRecovery cePacketSentTimeUs then c else {c with recoveryStartTimeUs := some nowUs}.reduce

def onPersistentCongestion (c : NewReno) : NewReno :=
  {c with
    cwnd := c.cfg.minWindow
    recoveryStartTimeUs := none
    bytesAckedInCa := 0
    hystart := c.hystart.reset}

def onSpuriousLoss (c : NewReno) (episode : Nat) : NewReno :=
  let (arrived,episodes) := c.episodes.arrived episode
  let c := {c with episodes := episodes}
  match arrived with
  | .none => c
  | .current =>
    {c with
      cwnd := max c.cwnd c.undoCwnd
      ssthresh := c.undoSsthresh
      recoveryStartTimeUs := none
      bytesAckedInCa := 0}
  | .previous =>
    if c.episodes.currentStands then
      {c with
        cwnd := max c.cwnd c.undoCwnd
        ssthresh := some (max c.cwnd c.undoCwnd)
        undoCwnd := c.prevUndoCwnd
        undoSsthresh := c.prevUndoSsthresh
        bytesAckedInCa := 0}
    else
      {c with
        cwnd := max c.cwnd c.prevUndoCwnd
        ssthresh := c.prevUndoSsthresh
        recoveryStartTimeUs := none
        bytesAckedInCa := 0}

def onAckProcessed (c : NewReno) (largestAckedPn : Nat) (latestRttUs : Option Nat) (nextPnToSend : Nat) : NewReno :=
  if !c.isSlowStart then c
  else match c.hystart.onAckProcessed largestAckedPn latestRttUs nextPnToSend with
    | (true,hystart) => {c with ssthresh := some c.cwnd,hystart := hystart.reset}
    | (false,hystart) => {c with hystart := hystart}

end NewReno

/-- The two functions of the cubic curve that the source computes in floating point. -/
structure Curve where
  cubicK : Nat → Nat → Nat
  cubicWindowBytes : Nat → Nat → Nat → Nat → Nat

structure Cubic where
  cfg : Config
  cwnd : Nat
  ssthresh : Option Nat := none
  recoveryStartTimeUs : Option Nat := none
  wMax : Nat := 0
  epochStartUs : Option Nat := none
  cwndEpoch : Nat := 0
  kUs : Nat := 0
  wEst : Nat := 0
  hystart : HyStart := {}
  episodes : LossEpisodes := {}
  undoCwnd : Nat := 0
  undoSsthresh : Option Nat := none
  undoWMax : Nat := 0
  prevUndoCwnd : Nat := 0
  prevUndoSsthresh : Option Nat := none
  prevUndoWMax : Nat := 0
  deriving DecidableEq, Repr

namespace Cubic

def betaNum : Nat := 7
def betaDen : Nat := 10
def alphaNum : Nat := 9
def alphaDen : Nat := 17

def init (cfg : Config) : Cubic := {cfg := cfg,cwnd := cfg.initialWindow,hystart := {cfg := cfg.hystart}}

def isInRecovery (c : Cubic) (sentTimeUs : Nat) : Bool := c.recoveryStartTimeUs.any (sentTimeUs ≤ ·)

def isSlowStart (c : Cubic) : Bool := c.ssthresh.all (c.cwnd < ·)

/-- The first ACK of an epoch anchors it. -/
def anchor (curve : Curve) (c : Cubic) (nowUs : Nat) : Cubic :=
  match c.epochStartUs with
  | some _ => c
  | none =>
    {c with
      epochStartUs := some nowUs
      cwndEpoch := c.cwnd
      kUs := curve.cubicK (c.wMax-c.cwnd) c.cfg.maxDatagramSize
      wEst := c.cwnd}

def grow (curve : Curve) (c : Cubic) (bytesAcked nowUs srttUs : Nat) : Cubic :=
  let wEstGrow := alphaNum*c.cfg.maxDatagramSize*bytesAcked/(alphaDen*max c.cwnd 1)
  let wEst := saturatingAdd c.wEst (min wEstGrow maxU64)
  let tUs := saturatingAdd (nowUs-c.epochStartUs.getD nowUs) srttUs
  let wCubic := curve.cubicWindowBytes tUs c.kUs c.wMax c.cfg.maxDatagramSize
  let target := min wCubic (saturatingAdd c.cwnd (c.cwnd/2))
  let cwnd := if target > c.cwnd then saturatingAdd c.cwnd (min ((target-c.cwnd)*bytesAcked/max c.cwnd 1) maxU64) else c.cwnd
  {c with
    wEst := wEst
    cwnd := if wEst > cwnd then wEst else cwnd}

def onPacketAcked (curve : Curve) (c : Cubic) (bytesAcked largestAckedSentTimeUs nowUs srttUs bytesInFlight : Nat) : Cubic :=
  match exitRecoveryOrStall c.recoveryStartTimeUs largestAckedSentTimeUs with
  | (false,_) => c
  | (true,recovery) =>
    let c := {c with recoveryStartTimeUs := recovery}
    if !ackFillsWindow c.cwnd bytesAcked bytesInFlight then {c with epochStartUs := none}
    else if c.isSlowStart then {c with cwnd := saturatingAdd c.cwnd (c.hystart.slowStartGrowth bytesAcked)}
    else (c.anchor curve nowUs).grow curve bytesAcked nowUs srttUs

def reduce (c : Cubic) : Cubic :=
  let ssthresh := max (c.cwnd*betaNum/betaDen) c.cfg.minWindow
  {c with
    episodes := c.episodes.open
    prevUndoCwnd := c.undoCwnd
    prevUndoSsthresh := c.undoSsthresh
    prevUndoWMax := c.undoWMax
    undoCwnd := c.cwnd
    undoSsthresh := c.ssthresh
    undoWMax := c.wMax
    wMax := if c.cwnd < c.wMax then c.cwnd*(betaNum+betaDen)/(2*betaDen) else c.cwnd
    ssthresh := some ssthresh
    cwnd := ssthresh
    epochStartUs := none
    hystart := c.hystart.reset}

def onPacketLost (c : Cubic) (lostLargestSentTimeUs nowUs : Nat) : Cubic :=
  if c.isInRecovery lostLargestSentTimeUs then c else {c with recoveryStartTimeUs := some nowUs}.reduce

def onCongestionEvent (c : Cubic) (cePacketSentTimeUs nowUs : Nat) : Cubic :=
  if c.isInRecovery cePacketSentTimeUs then c else {c with recoveryStartTimeUs := some nowUs}.reduce

def onPersistentCongestion (c : Cubic) : Cubic :=
  {c with
    cwnd := c.cfg.minWindow
    recoveryStartTimeUs := none
    epochStartUs := none
    hystart := c.hystart.reset}

def onSpuriousLoss (c : Cubic) (episode : Nat) : Cubic :=
  let (arrived,episodes) := c.episodes.arrived episode
  let c := {c with episodes := episodes}
  match arrived with
  | .none => c
  | .current =>
    {c with
      cwnd := max c.cwnd c.undoCwnd
      ssthresh := c.undoSsthresh
      wMax := c.undoWMax
      recoveryStartTimeUs := none
      epochStartUs := none}
  | .previous =>
    if c.episodes.currentStands then
      {c with
        cwnd := max c.cwnd c.undoCwnd
        ssthresh := some (max c.cwnd c.undoCwnd)
        wMax := max c.wMax c.undoCwnd
        undoCwnd := c.prevUndoCwnd
        undoSsthresh := c.prevUndoSsthresh
        undoWMax := c.prevUndoWMax
        epochStartUs := none}
    else
      {c with
        cwnd := max c.cwnd c.prevUndoCwnd
        ssthresh := c.prevUndoSsthresh
        wMax := c.prevUndoWMax
        recoveryStartTimeUs := none
        epochStartUs := none}

def onAckProcessed (c : Cubic) (largestAckedPn : Nat) (latestRttUs : Option Nat) (nextPnToSend : Nat) : Cubic :=
  if !c.isSlowStart then c
  else match c.hystart.onAckProcessed largestAckedPn latestRttUs nextPnToSend with
    | (true,hystart) => {c with ssthresh := some c.cwnd,epochStartUs := none,hystart := hystart.reset}
    | (false,hystart) => {c with hystart := hystart}

end Cubic

/-- `CongestionController` without the arm of BBR. -/
inductive Controller where
  | newReno (c : NewReno)
  | cubic (c : Cubic)
  deriving DecidableEq, Repr

namespace Controller

def init (cfg : Config) : Controller :=
  match cfg.algorithm with
  | .newReno => .newReno (.init cfg)
  | .cubic => .cubic (.init cfg)

def cfg : Controller → Config
  | .newReno c => c.cfg
  | .cubic c => c.cfg

def cwnd : Controller → Nat
  | .newReno c => c.cwnd
  | .cubic c => c.cwnd

def episodes : Controller → LossEpisodes
  | .newReno c => c.episodes
  | .cubic c => c.episodes

def isInRecovery : Controller → Nat → Bool
  | .newReno c => c.isInRecovery
  | .cubic c => c.isInRecovery

def onPacketAcked (curve : Curve) (bytesAcked largestAckedSentTimeUs nowUs srttUs bytesInFlight : Nat) : Controller → Controller
  | .newReno c => .newReno (c.onPacketAcked bytesAcked largestAckedSentTimeUs bytesInFlight)
  | .cubic c => .cubic (c.onPacketAcked curve bytesAcked largestAckedSentTimeUs nowUs srttUs bytesInFlight)

def onAckProcessed (largestAckedPn : Nat) (latestRttUs : Option Nat) (nextPnToSend : Nat) : Controller → Controller
  | .newReno c => .newReno (c.onAckProcessed largestAckedPn latestRttUs nextPnToSend)
  | .cubic c => .cubic (c.onAckProcessed largestAckedPn latestRttUs nextPnToSend)

def onPacketLost (lostLargestSentTimeUs nowUs : Nat) : Controller → Controller
  | .newReno c => .newReno (c.onPacketLost lostLargestSentTimeUs nowUs)
  | .cubic c => .cubic (c.onPacketLost lostLargestSentTimeUs nowUs)

def onCongestionEvent (cePacketSentTimeUs nowUs : Nat) : Controller → Controller
  | .newReno c => .newReno (c.onCongestionEvent cePacketSentTimeUs nowUs)
  | .cubic c => .cubic (c.onCongestionEvent cePacketSentTimeUs nowUs)

def onPersistentCongestion : Controller → Controller
  | .newReno c => .newReno c.onPersistentCongestion
  | .cubic c => .cubic c.onPersistentCongestion

def onSpuriousLoss (episode : Nat) : Controller → Controller
  | .newReno c => .newReno (c.onSpuriousLoss episode)
  | .cubic c => .cubic (c.onSpuriousLoss episode)

def noteDeclaredLost (count : Nat) : Controller → Controller
  | .newReno c => .newReno {c with episodes := c.episodes.noteDeclaredLost count}
  | .cubic c => .cubic {c with episodes := c.episodes.noteDeclaredLost count}

def lossEpisode (cc : Controller) : Nat := cc.episodes.episode

end Controller

structure LostRecord where
  pn : Nat
  sentTimeUs : Nat
  episode : Nat := 0
  deriving DecidableEq, Repr

def tombstonePn : Nat := maxU64

def ringSlots : Nat := 256

/-- `records` is the ring from its head on, tombstones included. -/
structure ReorderWindow where
  allocated : Bool := false
  records : List LostRecord := []
  live : Nat := 0
  deriving DecidableEq, Repr

namespace ReorderWindow

def remember (granted : Bool) (w : ReorderWindow) (pn sentTimeUs : Nat) : ReorderWindow :=
  if !w.allocated && !granted then w
  else
    let full := w.records.length = ringSlots
    {allocated := true
     records := (if full then w.records.tail else w.records) ++ [{pn := pn,sentTimeUs := sentTimeUs}]
     live := (if full ∧ w.records.head?.any (·.pn ≠ tombstonePn) then w.live-1 else w.live)+1}

def stampLast (w : ReorderWindow) (n episode : Nat) : ReorderWindow :=
  let older := w.records.length-n
  {w with records := w.records.take older ++ (w.records.drop older).map fun rec => {rec with episode := episode}}

/-- The walk over the ring: what is covered is forgotten, and told to the callback. -/
def takeLoop {γ : Type} (smallest largest : Nat) (callback : γ → LostRecord → γ) : List LostRecord → Nat → γ →
    List LostRecord × Nat × γ
  | [],live,context => ([],live,context)
  | rec::rest,live,context =>
    if rec.pn = tombstonePn ∨ rec.pn < smallest ∨ rec.pn > largest then
      let (rest,live,context) := takeLoop smallest largest callback rest live context
      (rec::rest,live,context)
    else
      let (rest,live,context) := takeLoop smallest largest callback rest (live-1) (callback context rec)
      ({rec with pn := tombstonePn}::rest,live,context)

def takeCovered {γ : Type} (w : ReorderWindow) (smallest largest : Nat) (context : γ) (callback : γ → LostRecord → γ) :
    ReorderWindow × γ :=
  if w.live = 0 then (w,context)
  else
    let (records,live,context) := takeLoop smallest largest callback w.records w.live context
    ({w with
      records := if live = 0 then [] else records
      live := live},context)

end ReorderWindow

structure LossStats where
  count : Nat := 0
  inFlightBytesLost : Nat := 0
  largestLostSentTimeUs : Nat := 0
  ackElicitingCount : Nat := 0
  earliestAckElicitingLostSentTimeUs : Option Nat := none
  largestAckElicitingLostSentTimeUs : Nat := 0
  deriving DecidableEq, Repr

def LossStats.add {Frame : Type} (s : LossStats) (packet : SentPacket Frame) : LossStats :=
  let s := {s with
    count := s.count+1
    inFlightBytesLost := if packet.inFlight then s.inFlightBytesLost+packet.bytes else s.inFlightBytesLost
    largestLostSentTimeUs := max s.largestLostSentTimeUs packet.sentTimeUs}
  if packet.ackEliciting then
    {s with
      ackElicitingCount := s.ackElicitingCount+1
      earliestAckElicitingLostSentTimeUs :=
        some ((s.earliestAckElicitingLostSentTimeUs.map fun earliest => min earliest packet.sentTimeUs).getD packet.sentTimeUs)
      largestAckElicitingLostSentTimeUs := max s.largestAckElicitingLostSentTimeUs packet.sentTimeUs}
  else s

def isPersistentCongestionFromBasePto (basePtoUs : Nat) (stats : LossStats) : Bool :=
  match stats.earliestAckElicitingLostSentTimeUs with
  | none => false
  | some earliest =>
    if stats.ackElicitingCount < 2 ∨ stats.largestAckElicitingLostSentTimeUs ≤ earliest then false
    else stats.largestAckElicitingLostSentTimeUs-earliest ≥ basePtoUs*persistentCongestionThreshold

/-- The controller of a path and its memory of lost packets. -/
structure Recovery where
  cc : Controller
  reorder : ReorderWindow := {}
  deriving DecidableEq, Repr

namespace Recovery

def rememberAll {Frame : Type} (grants : Allocator) : Nat → List (SentPacket Frame) → ReorderWindow → ReorderWindow
  | _,[],w => w
  | request,packet::rest,w => rememberAll grants (request+1) rest (w.remember (grants request) packet.pn packet.sentTimeUs)

/-- `true` when the controller was told of persistent congestion. -/
def onApplicationPathPacketsLost (cc : Controller) (stats : LossStats) (basePtoUs nowUs : Nat) : Bool × Controller :=
  if stats.inFlightBytesLost = 0 then (false,cc)
  else
    let cc := cc.onPacketLost stats.largestLostSentTimeUs nowUs
    if isPersistentCongestionFromBasePto basePtoUs stats then (true,cc.onPersistentCongestion) else (false,cc)

def noteDeclaredLost (r : Recovery) (count : Nat) : Recovery :=
  if count = 0 then r
  else
    let cc := r.cc.noteDeclaredLost count
    {cc := cc,reorder := r.reorder.stampLast count cc.lossEpisode}

/-- The end of a loss sweep, or of a probe timeout: the packets that were removed are counted against the controller. -/
def sweepLosses {Frame : Type} (grants : Allocator) (r : Recovery) (packets : List (SentPacket Frame)) (basePtoUs nowUs : Nat) :
    Recovery :=
  let stats := packets.foldl LossStats.add {}
  let cc := (onApplicationPathPacketsLost r.cc stats basePtoUs nowUs).2
  {cc := cc,reorder := rememberAll grants 0 packets r.reorder : Recovery}.noteDeclaredLost stats.count

/-- An ACK range covers packets that were declared lost. -/
def ackRange (r : Recovery) (smallest largest : Nat) : Recovery :=
  let (reorder,cc) := r.reorder.takeCovered smallest largest r.cc fun cc rec => cc.onSpuriousLoss rec.episode
  {cc := cc,reorder := reorder}

end Recovery
end QuicZig.Conn.Congestion
