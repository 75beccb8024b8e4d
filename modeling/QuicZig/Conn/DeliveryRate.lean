import QuicZig.Machine
import QuicZig.Conn.SentPackets

/-! Delivery rate estimation. Packets are stamped with the delivery state of the path when they are sent, and each ACK turns the
newest stamp it covers into a sample. -/
namespace QuicZig.Conn.DeliveryRate
open QuicZig.Machine
open QuicZig.Conn.SentPackets

def usPerS : Nat := 1000000

structure RateSample where
  deliveryRateBps : Nat := 0
  hasRate : Bool := false
  isAppLimited : Bool := false
  intervalUs : Nat := 0
  sendElapsedUs : Nat := 0
  ackElapsedUs : Nat := 0
  delivered : Nat := 0
  priorDelivered : Nat := 0
  priorTimeUs : Nat := 0
  priorLost : Nat := 0
  txInFlight : Nat := 0
  lost : Nat := 0
  newlyAcked : Nat := 0
  newlyLost : Nat := 0
  ceDelta : Nat := 0
  cDelivered : Nat := 0
  cLost : Nat := 0
  lastAckedPn : Nat := 0
  deriving DecidableEq

structure LostPacketInfo where
  bytes : Nat
  txInFlight : Nat
  lostAtSend : Nat
  deliveredAtSend : Nat
  isAppLimited : Bool
  sentTimeUs : Nat
  cLost : Nat
  cDelivered : Nat
  deriving DecidableEq

structure Estimator where
  delivered : Nat := 0
  deliveredTimeUs : Nat := 0
  firstSentTimeUs : Nat := 0
  lost : Nat := 0
  appLimitedUntil : Nat := 0
  rsHasSample : Bool := false
  rsPriorDelivered : Nat := 0
  rsPriorTimeUs : Nat := 0
  rsPriorLost : Nat := 0
  rsTxInFlight : Nat := 0
  rsIsAppLimited : Bool := false
  rsSendElapsedUs : Nat := 0
  rsNewestSentTimeUs : Nat := 0
  rsLastAckedPn : Nat := 0
  eventNewlyAcked : Nat := 0
  eventPriorLost : Nat := 0
  deriving DecidableEq

namespace Estimator
variable {Frame : Type}

/-- With nothing in flight both clocks restart at this packet. -/
def onPacketSent (e : Estimator) (p : SentPacket Frame) (bytesInFlightBefore : Nat) : Estimator × SentPacket Frame :=
  let e := if bytesInFlightBefore = 0 then {e with firstSentTimeUs := p.sentTimeUs,deliveredTimeUs := p.sentTimeUs} else e
  (e,{p with
    delivered := e.delivered
    deliveredTimeUs := e.deliveredTimeUs
    firstSentTimeUs := e.firstSentTimeUs
    txInFlight := saturatingAdd bytesInFlightBefore p.bytes
    lostAtSend := e.lost
    isAppLimited := decide (e.appLimitedUntil ≠ 0)})

def beginAckEvent (e : Estimator) : Estimator :=
  {e with
    rsHasSample := false
    rsPriorDelivered := 0
    rsPriorTimeUs := 0
    rsPriorLost := 0
    rsTxInFlight := 0
    rsIsAppLimited := false
    rsSendElapsedUs := 0
    rsNewestSentTimeUs := 0
    rsLastAckedPn := 0
    eventNewlyAcked := 0
    eventPriorLost := e.lost}

def onPacketAcked (e : Estimator) (p : SentPacket Frame) (nowUs : Nat) : Estimator :=
  let e := {e with
    delivered := saturatingAdd e.delivered p.bytes
    deliveredTimeUs := nowUs
    eventNewlyAcked := saturatingAdd e.eventNewlyAcked p.bytes}
  let newest := !e.rsHasSample || decide (p.sentTimeUs > e.rsNewestSentTimeUs) ||
    decide (p.sentTimeUs = e.rsNewestSentTimeUs ∧ p.pn > e.rsLastAckedPn)
  let e := if newest then {e with
    rsPriorDelivered := p.delivered
    rsPriorTimeUs := p.deliveredTimeUs
    rsPriorLost := p.lostAtSend
    rsTxInFlight := p.txInFlight
    rsIsAppLimited := p.isAppLimited
    rsNewestSentTimeUs := p.sentTimeUs
    rsLastAckedPn := p.pn
    rsSendElapsedUs := p.sentTimeUs-p.firstSentTimeUs
    firstSentTimeUs := p.sentTimeUs} else e
  {e with rsHasSample := true}

def onPacketLost (e : Estimator) (p : SentPacket Frame) : Estimator × LostPacketInfo :=
  let e := {e with lost := saturatingAdd e.lost p.bytes}
  (e,{
    bytes := p.bytes
    txInFlight := p.txInFlight
    lostAtSend := p.lostAtSend
    deliveredAtSend := p.delivered
    isAppLimited := p.isAppLimited
    sentTimeUs := p.sentTimeUs
    cLost := e.lost
    cDelivered := e.delivered})

/-- The interval that a rate is reliable from; 1 ms stands in until there is a round trip sample. -/
def reliabilityFloorUs (minRttUs : Nat) : Nat := if minRttUs = 0 then 1000 else minRttUs

def generateRateSample (e : Estimator) (minRttUs ceDelta : Nat) : Estimator × Option RateSample :=
  let e := if e.appLimitedUntil ≠ 0 ∧ e.delivered > e.appLimitedUntil then {e with appLimitedUntil := 0} else e
  if !e.rsHasSample then (e,none) else
  let sendElapsed := e.rsSendElapsedUs
  let ackElapsed := e.deliveredTimeUs-e.rsPriorTimeUs
  let interval := max sendElapsed ackElapsed
  let deliveredInSample := e.delivered-e.rsPriorDelivered
  let hasRate := decide (e.rsPriorTimeUs ≠ 0 ∧ interval > 0 ∧ interval ≥ reliabilityFloorUs minRttUs)
  (e,some {
    deliveryRateBps := if hasRate then min (deliveredInSample*usPerS/interval) maxU64 else 0
    hasRate
    isAppLimited := e.rsIsAppLimited
    intervalUs := interval
    sendElapsedUs := sendElapsed
    ackElapsedUs := ackElapsed
    delivered := deliveredInSample
    priorDelivered := e.rsPriorDelivered
    priorTimeUs := e.rsPriorTimeUs
    priorLost := e.rsPriorLost
    txInFlight := e.rsTxInFlight
    lost := e.lost-e.rsPriorLost
    newlyAcked := e.eventNewlyAcked
    newlyLost := e.lost-e.eventPriorLost
    ceDelta
    cDelivered := e.delivered
    cLost := e.lost
    lastAckedPn := e.rsLastAckedPn})

def markAppLimited (e : Estimator) (bytesInFlight : Nat) : Estimator :=
  {e with appLimitedUntil := max (saturatingAdd e.delivered bytesInFlight) 1}

def isAppLimited (e : Estimator) : Bool := decide (e.appLimitedUntil ≠ 0)

end Estimator

end QuicZig.Conn.DeliveryRate
