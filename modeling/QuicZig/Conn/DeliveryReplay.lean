import Mathlib.Tactic
import QuicZig.Conn.DeliveryRate
import QuicZig.Library.System
import Mathlib.Data.List.Perm.Basic
import Mathlib.Algebra.BigOperators.Group.List.Basic

/-! The estimator against a replay of everything the path was told. The replay keeps no running state: each quantity is read off
the whole log, newest entry first. -/
namespace QuicZig.Conn.DeliveryReplay
open QuicZig.Machine
open QuicZig.Conn.SentPackets
open QuicZig.Conn.DeliveryRate
open QuicZig.System (Reaches)

structure Packet where
  pn : Nat
  sentTimeUs : Nat
  bytes : Nat
  deriving DecidableEq

/-- What an ACK event does to a packet. -/
inductive Outcome (α : Type) where
  | acked (p : α)
  | lost (p : α)
  deriving DecidableEq

namespace Outcome
variable {α β : Type}

def packet : Outcome α → α
  | acked p => p
  | lost p => p

def map (f : α → β) : Outcome α → Outcome β
  | acked p => acked (f p)
  | lost p => lost (f p)

def ackedOf : List (Outcome α) → List α := List.filterMap fun
  | acked p => some p
  | lost _ => none

def lostOf : List (Outcome α) → List α := List.filterMap fun
  | acked _ => none
  | lost p => some p

end Outcome

open Outcome

inductive Entry where
  | sent (p : Packet)
  | ack (nowUs : Nat) (outcomes : List (Outcome Packet))
  | lost (p : Packet)
  | marked (bytesInFlight : Nat)

abbrev Log := List Entry

def bytesOf (ps : List Packet) : Nat := (ps.map Packet.bytes).sum

namespace Entry

@[simp] def sentBytes : Entry → Nat
  | sent p => p.bytes
  | _ => 0

@[simp] def ackedBytes : Entry → Nat
  | ack _ outcomes => bytesOf (ackedOf outcomes)
  | _ => 0

@[simp] def lostBytes : Entry → Nat
  | ack _ outcomes => bytesOf (lostOf outcomes)
  | lost p => p.bytes
  | _ => 0

end Entry

namespace Log

def sent (log : Log) : Nat := (log.map Entry.sentBytes).sum

def delivered (log : Log) : Nat := (log.map Entry.ackedBytes).sum

def lost (log : Log) : Nat := (log.map Entry.lostBytes).sum

@[simp] theorem sent_cons (entry : Entry) (log : Log) : Log.sent (entry::log) = entry.sentBytes+log.sent := List.sum_cons

@[simp] theorem delivered_cons (entry : Entry) (log : Log) : Log.delivered (entry::log) = entry.ackedBytes+log.delivered :=
  List.sum_cons

@[simp] theorem lost_cons (entry : Entry) (log : Log) : Log.lost (entry::log) = entry.lostBytes+log.lost := List.sum_cons

/-- The bytes in flight. -/
def outstanding (log : Log) : Nat := log.sent-(log.delivered+log.lost)

/-- When a packet was last delivered, or first sent after nothing was in flight. -/
def lastDelivery : Log → Nat
  | [] => 0
  | .sent p::before => if outstanding before = 0 then p.sentTimeUs else lastDelivery before
  | .ack nowUs outcomes::before => if ackedOf outcomes = [] then lastDelivery before else nowUs
  | _::before => lastDelivery before

/-- When the newest packet of the last delivering ACK was sent, or the first packet after nothing was in flight. -/
def epoch : Log → Nat
  | [] => 0
  | .sent p::before => if outstanding before = 0 then p.sentTimeUs else epoch before
  | .ack _ outcomes::before => ((ackedOf outcomes).map Packet.sentTimeUs).max?.getD (epoch before)
  | _::before => epoch before

/-- A counter of 64 bits that stops at its top. -/
def cap (n : Nat) : Nat := min n maxU64

/-- The total that has to be passed for the app-limited mark to go, zero without a mark. -/
def marker : Log → Nat
  | [] => 0
  | .marked bytesInFlight::before => max (cap (delivered before+bytesInFlight)) 1
  | .ack nowUs outcomes::before =>
    if marker before ≠ 0 ∧ cap (delivered (.ack nowUs outcomes::before)) > marker before then 0 else marker before
  | _::before => marker before

end Log

open Log

/-- The sample of an ACK event that makes `log` the log, taken from a packet that was sent when `before` was. -/
def reference (log before : Log) (p : Packet) (nowUs minRttUs ceDelta : Nat) (outcomes : List (Outcome Packet)) : RateSample :=
  let sendElapsed := p.sentTimeUs-epoch (.sent p::before)
  let ackElapsed := nowUs-lastDelivery (.sent p::before)
  let interval := max sendElapsed ackElapsed
  let deliveredInSample := cap log.delivered-cap before.delivered
  let hasRate := decide (lastDelivery (.sent p::before) ≠ 0 ∧ interval > 0 ∧ interval ≥ Estimator.reliabilityFloorUs minRttUs)
  {
    deliveryRateBps := if hasRate then cap (deliveredInSample*usPerS/interval) else 0
    hasRate
    isAppLimited := decide (marker before ≠ 0)
    intervalUs := interval
    sendElapsedUs := sendElapsed
    ackElapsedUs := ackElapsed
    delivered := deliveredInSample
    priorDelivered := cap before.delivered
    priorTimeUs := lastDelivery (.sent p::before)
    priorLost := cap before.lost
    txInFlight := cap (outstanding before+p.bytes)
    lost := cap log.lost-cap before.lost
    newlyAcked := cap (bytesOf (ackedOf outcomes))
    newlyLost := cap log.lost-cap (Log.lost log.tail)
    ceDelta
    cDelivered := cap log.delivered
    cLost := cap log.lost
    lastAckedPn := p.pn}

/-- Sent later, or at the same time under a higher number. -/
def Later (p q : Packet) : Prop := q.sentTimeUs < p.sentTimeUs ∨ (q.sentTimeUs = p.sentTimeUs ∧ q.pn < p.pn)

section
variable {Frame : Type}

def bare (p : SentPacket Frame) : Packet := ⟨p.pn,p.sentTimeUs,p.bytes⟩

structure History (Frame : Type) where
  est : Estimator := {}
  inFlight : List (SentPacket Frame) := []
  log : Log := []
  nowUs : Nat := 0

/-- A packet is sent; an ACK settles some of the packets in flight, in any order, and `rest` stay; a packet is lost between
ACKs; the application has nothing to send. -/
inductive Event (Frame : Type) where
  | send (p : SentPacket Frame)
  | ack (nowUs minRttUs ceDelta : Nat) (outcomes : List (Outcome (SentPacket Frame))) (rest : List (SentPacket Frame))
  | lost (p : SentPacket Frame) (rest : List (SentPacket Frame))
  | markAppLimited

def settle (nowUs : Nat) (e : Estimator) : Outcome (SentPacket Frame) → Estimator
  | .acked p => e.onPacketAcked p nowUs
  | .lost p => (e.onPacketLost p).1

def ackEvent (e : Estimator) (nowUs minRttUs ceDelta : Nat) (outcomes : List (Outcome (SentPacket Frame))) :
    Estimator × Option RateSample :=
  (outcomes.foldl (settle nowUs) e.beginAckEvent).generateRateSample minRttUs ceDelta

def bytesInFlight (inFlight : List (SentPacket Frame)) : Nat := bytesOf (inFlight.map bare)

def step (h : History Frame) : Event Frame → History Frame
  | .send p =>
    {est := (h.est.onPacketSent p (bytesInFlight h.inFlight)).1
     inFlight := (h.est.onPacketSent p (bytesInFlight h.inFlight)).2::h.inFlight
     log := .sent (bare p)::h.log
     nowUs := p.sentTimeUs}
  | .ack nowUs minRttUs ceDelta outcomes rest =>
    {est := (ackEvent h.est nowUs minRttUs ceDelta outcomes).1
     inFlight := rest
     log := .ack nowUs (outcomes.map (Outcome.map bare))::h.log
     nowUs}
  | .lost p rest => {h with est := (h.est.onPacketLost p).1,inFlight := rest,log := .lost (bare p)::h.log}
  | .markAppLimited =>
    {h with est := h.est.markAppLimited (bytesInFlight h.inFlight),log := .marked (bytesInFlight h.inFlight)::h.log}

def Fresh (h : History Frame) : Prop := h = {}

/-- The clock does not go back, and only packets in flight are settled. -/
def Allowed (h : History Frame) : Event Frame → Prop
  | .send p => h.nowUs ≤ p.sentTimeUs
  | .ack nowUs _ _ outcomes rest => h.nowUs ≤ nowUs ∧ h.inFlight.Perm (outcomes.map Outcome.packet ++ rest)
  | .lost p rest => h.inFlight.Perm (p::rest)
  | .markAppLimited => True

structure Stamped (before : Log) (p : SentPacket Frame) : Prop where
  delivered : p.delivered = cap before.delivered
  deliveredTimeUs : p.deliveredTimeUs = lastDelivery (.sent (bare p)::before)
  firstSentTimeUs : p.firstSentTimeUs = epoch (.sent (bare p)::before)
  txInFlight : p.txInFlight = cap (outstanding before+p.bytes)
  lostAtSend : p.lostAtSend = cap before.lost
  isAppLimited : p.isAppLimited = decide (marker before ≠ 0)

/-- The estimator's state is the replay's, and every packet in flight has the stamp of its own entry. -/
structure Agrees (h : History Frame) : Prop where
  delivered : h.est.delivered = cap h.log.delivered
  lost : h.est.lost = cap h.log.lost
  deliveredTimeUs : h.est.deliveredTimeUs = lastDelivery h.log
  firstSentTimeUs : h.est.firstSentTimeUs = epoch h.log
  appLimitedUntil : h.est.appLimitedUntil = marker h.log
  flight : bytesInFlight h.inFlight = outstanding h.log
  account : h.log.delivered+h.log.lost ≤ h.log.sent
  stamped : ∀ p ∈ h.inFlight, ∃ after before, h.log = after ++ .sent (bare p)::before ∧ Stamped before p

theorem cap_add (a b : Nat) : saturatingAdd (cap a) b = cap (a+b) := by
  unfold saturatingAdd cap
  omega

variable {h : History Frame}

@[simp] theorem bytesInFlight_cons (p : SentPacket Frame) (rest : List (SentPacket Frame)) :
    bytesInFlight (p::rest) = p.bytes+bytesInFlight rest := List.sum_cons

theorem bytesInFlight_append (ps qs : List (SentPacket Frame)) :
    bytesInFlight (ps ++ qs) = bytesInFlight ps+bytesInFlight qs := by
  simp [bytesInFlight,bytesOf]

theorem bytesInFlight_perm {ps qs : List (SentPacket Frame)} (perm : ps.Perm qs) : bytesInFlight ps = bytesInFlight qs :=
  ((perm.map bare).map Packet.bytes).sum_eq

theorem stamped_later {log : Log} {p : SentPacket Frame} (entry : Entry)
    (known : ∃ after before, log = after ++ .sent (bare p)::before ∧ Stamped before p) :
    ∃ after before, entry::log = after ++ .sent (bare p)::before ∧ Stamped before p := by
  obtain ⟨after,before,split,stamped⟩ := known
  exact ⟨entry::after,before,by rw [split,List.cons_append],stamped⟩

theorem onPacketSent_stamps (e : Estimator) (p : SentPacket Frame) (before : Nat) :
    (e.onPacketSent p before).1 = {e with
      firstSentTimeUs := if before = 0 then p.sentTimeUs else e.firstSentTimeUs
      deliveredTimeUs := if before = 0 then p.sentTimeUs else e.deliveredTimeUs} ∧
    (e.onPacketSent p before).2 = {p with
      delivered := e.delivered
      deliveredTimeUs := if before = 0 then p.sentTimeUs else e.deliveredTimeUs
      firstSentTimeUs := if before = 0 then p.sentTimeUs else e.firstSentTimeUs
      txInFlight := saturatingAdd before p.bytes
      lostAtSend := e.lost
      isAppLimited := decide (e.appLimitedUntil ≠ 0)} := by
  unfold Estimator.onPacketSent
  by_cases idle : before = 0 <;> simp [idle]

theorem agrees_send (agrees : Agrees h) (p : SentPacket Frame) : Agrees (step h (.send p)) := by
  obtain ⟨delivered,lost,deliveredTimeUs,firstSentTimeUs,appLimitedUntil,flight,account,stamped⟩ := agrees
  obtain ⟨est,sent⟩ := onPacketSent_stamps h.est p (bytesInFlight h.inFlight)
  have restart : (if bytesInFlight h.inFlight = 0 then p.sentTimeUs else h.est.deliveredTimeUs) =
      lastDelivery (.sent (bare p)::h.log) := by
    rw [flight,deliveredTimeUs]
    rfl
  have epoch' : (if bytesInFlight h.inFlight = 0 then p.sentTimeUs else h.est.firstSentTimeUs) =
      epoch (.sent (bare p)::h.log) := by
    rw [flight,firstSentTimeUs]
    rfl
  rw [restart,epoch'] at est sent
  simp only [step,est,sent]
  refine ⟨by simpa using delivered,by simpa using lost,rfl,rfl,appLimitedUntil,?_,?_,?_⟩
  · unfold outstanding at flight ⊢
    simp [flight,bare]
    omega
  · simp
    omega
  · intro q member
    rcases List.mem_cons.mp member with rfl | older
    · refine ⟨[],h.log,rfl,delivered,rfl,rfl,?_,lost,by rw [appLimitedUntil]⟩
      rw [flight]
      rfl
    · exact stamped_later _ (stamped q older)

theorem agrees_lost (agrees : Agrees h) {p : SentPacket Frame} {rest : List (SentPacket Frame)} (left : h.inFlight.Perm (p::rest)) :
    Agrees (step h (.lost p rest)) := by
  obtain ⟨delivered,lost,deliveredTimeUs,firstSentTimeUs,appLimitedUntil,flight,account,stamped⟩ := agrees
  rw [bytesInFlight_perm left,bytesInFlight_cons] at flight
  have within : p.bytes+h.log.delivered+h.log.lost ≤ h.log.sent := by
    unfold outstanding at flight
    omega
  simp only [step,Estimator.onPacketLost]
  refine ⟨by simpa using delivered,?_,deliveredTimeUs,firstSentTimeUs,appLimitedUntil,?_,?_,?_⟩
  · rw [lost,cap_add]
    simp [bare,Nat.add_comm]
  · unfold outstanding at flight ⊢
    simp [bare]
    omega
  · simp [bare]
    omega
  · exact fun q member => stamped_later _ (stamped q (left.mem_iff.mpr (List.mem_cons_of_mem p member)))

theorem agrees_mark (agrees : Agrees h) : Agrees (step h .markAppLimited) := by
  obtain ⟨delivered,lost,deliveredTimeUs,firstSentTimeUs,appLimitedUntil,flight,account,stamped⟩ := agrees
  simp only [step,Estimator.markAppLimited]
  refine ⟨by simpa using delivered,by simpa using lost,deliveredTimeUs,firstSentTimeUs,?_,?_,?_,?_⟩
  · rw [delivered,cap_add]
    rfl
  · unfold outstanding at flight ⊢
    simpa using flight
  · simpa using account
  · exact fun q member => stamped_later _ (stamped q member)

structure Adopted (e : Estimator) (p : SentPacket Frame) : Prop where
  priorDelivered : e.rsPriorDelivered = p.delivered
  priorTimeUs : e.rsPriorTimeUs = p.deliveredTimeUs
  priorLost : e.rsPriorLost = p.lostAtSend
  txInFlight : e.rsTxInFlight = p.txInFlight
  isAppLimited : e.rsIsAppLimited = p.isAppLimited
  newestSentTimeUs : e.rsNewestSentTimeUs = p.sentTimeUs
  lastAckedPn : e.rsLastAckedPn = p.pn
  sendElapsedUs : e.rsSendElapsedUs = p.sentTimeUs-p.firstSentTimeUs
  firstSentTimeUs : e.firstSentTimeUs = p.sentTimeUs

def Newest (p : SentPacket Frame) (acked : List (SentPacket Frame)) : Prop :=
  p ∈ acked ∧ ∀ q ∈ acked, ¬Later (bare q) (bare p)

/-- The estimator within an ACK event that starts with `start`, after the packets of `done`. -/
structure Midway (log : Log) (start : Estimator) (nowUs : Nat) (done : List (Outcome (SentPacket Frame))) (e : Estimator) : Prop where
  delivered : e.delivered = cap (log.delivered+bytesInFlight (ackedOf done))
  lost : e.lost = cap (log.lost+bytesInFlight (lostOf done))
  appLimitedUntil : e.appLimitedUntil = start.appLimitedUntil
  newlyAcked : e.eventNewlyAcked = cap (bytesInFlight (ackedOf done))
  priorLost : e.eventPriorLost = cap log.lost
  sample : (ackedOf done = [] ∧ e.rsHasSample = false ∧ e.deliveredTimeUs = start.deliveredTimeUs ∧
      e.firstSentTimeUs = start.firstSentTimeUs) ∨
    (e.rsHasSample = true ∧ e.deliveredTimeUs = nowUs ∧ ∃ p, Newest p (ackedOf done) ∧ Adopted e p)

theorem midway_begin (agrees : Agrees h) (nowUs : Nat) : Midway h.log h.est nowUs ([] : List (Outcome (SentPacket Frame))) h.est.beginAckEvent where
  delivered := agrees.delivered
  lost := agrees.lost
  appLimitedUntil := rfl
  newlyAcked := rfl
  priorLost := agrees.lost
  sample := .inl ⟨rfl,rfl,rfl,rfl⟩

theorem newest_append {p q : SentPacket Frame} {acked : List (SentPacket Frame)} (newest : Newest q acked) :
    (Later (bare p) (bare q) → Newest p (acked ++ [p])) ∧ (¬Later (bare p) (bare q) → Newest q (acked ++ [p])) := by
  obtain ⟨member,first⟩ := newest
  constructor
  · intro later
    refine ⟨by simp,fun r any => ?_⟩
    rcases List.mem_append.mp any with older | here
    · have before := first r older
      unfold Later at before later ⊢
      omega
    · rw [List.mem_singleton.mp here]
      simp [Later]
  · intro notLater
    refine ⟨by simp [member],fun r any => ?_⟩
    rcases List.mem_append.mp any with older | here
    · exact first r older
    · rw [List.mem_singleton.mp here]
      exact notLater

theorem midway_acked {log : Log} {start e : Estimator} {nowUs : Nat} {done : List (Outcome (SentPacket Frame))}
    (midway : Midway log start nowUs done e) (p : SentPacket Frame) :
    Midway log start nowUs (done ++ [.acked p]) (e.onPacketAcked p nowUs) := by
  obtain ⟨delivered,lost,appLimitedUntil,newlyAcked,priorLost,sample⟩ := midway
  have acked : ackedOf (done ++ [.acked p]) = ackedOf done ++ [p] := by simp [ackedOf]
  have same : lostOf (done ++ [.acked p]) = lostOf done := by simp [lostOf]
  have one : bytesInFlight [p] = p.bytes := by simp [bytesInFlight,bytesOf,bare]
  have total : saturatingAdd e.delivered p.bytes = cap (log.delivered+bytesInFlight (ackedOf done ++ [p])) := by
    rw [delivered,cap_add,bytesInFlight_append,one,Nat.add_assoc]
  have newly : saturatingAdd e.eventNewlyAcked p.bytes = cap (bytesInFlight (ackedOf done ++ [p])) := by
    rw [newlyAcked,cap_add,bytesInFlight_append,one]
  unfold Estimator.onPacketAcked
  dsimp only
  split
  · rename_i newest
    refine ⟨by rw [acked]; exact total,by rw [same]; exact lost,appLimitedUntil,by rw [acked]; exact newly,priorLost,.inr ⟨rfl,rfl,p,?_,?_⟩⟩
    · rw [acked]
      rcases sample with ⟨none,_⟩ | ⟨some_,_,q,first,adopted⟩
      · rw [none]
        exact ⟨by simp,fun r any => by rw [List.mem_singleton.mp any]; simp [Later]⟩
      · refine (newest_append first).1 ?_
        simp only [some_,adopted.newestSentTimeUs,adopted.lastAckedPn,Bool.not_true,Bool.false_or,Bool.or_eq_true,
          decide_eq_true_eq] at newest
        unfold Later bare
        dsimp only
        omega
    · exact ⟨rfl,rfl,rfl,rfl,rfl,rfl,rfl,rfl,rfl⟩
  · rename_i older
    simp only [Bool.or_eq_true,Bool.not_eq_true',decide_eq_true_eq,not_or,Bool.not_eq_false] at older
    obtain ⟨⟨some_,early⟩,low⟩ := older
    refine ⟨by rw [acked]; exact total,by rw [same]; exact lost,appLimitedUntil,by rw [acked]; exact newly,priorLost,.inr ⟨rfl,rfl,?_⟩⟩
    rcases sample with ⟨_,none,_⟩ | ⟨_,_,q,first,adopted⟩
    · rw [none] at some_
      cases some_
    · refine ⟨q,?_,?_⟩
      · rw [acked]
        refine (newest_append first).2 ?_
        rw [adopted.newestSentTimeUs] at early low
        rw [adopted.lastAckedPn] at low
        unfold Later bare
        dsimp only
        omega
      · obtain ⟨a,b,c,d,f,g,i,j,k⟩ := adopted
        exact ⟨a,b,c,d,f,g,i,j,k⟩

theorem midway_lost {log : Log} {start e : Estimator} {nowUs : Nat} {done : List (Outcome (SentPacket Frame))}
    (midway : Midway log start nowUs done e) (p : SentPacket Frame) :
    Midway log start nowUs (done ++ [.lost p]) (e.onPacketLost p).1 := by
  obtain ⟨delivered,lost,appLimitedUntil,newlyAcked,priorLost,sample⟩ := midway
  have same : ackedOf (done ++ [.lost p]) = ackedOf done := by simp [ackedOf]
  have gone : lostOf (done ++ [.lost p]) = lostOf done ++ [p] := by simp [lostOf]
  have one : bytesInFlight [p] = p.bytes := by simp [bytesInFlight,bytesOf,bare]
  have total : saturatingAdd e.lost p.bytes = cap (log.lost+bytesInFlight (lostOf done ++ [p])) := by
    rw [lost,cap_add,bytesInFlight_append,one,Nat.add_assoc]
  refine ⟨by rw [same]; exact delivered,by rw [gone]; exact total,appLimitedUntil,by rw [same]; exact newlyAcked,priorLost,?_⟩
  rw [same]
  rcases sample with none | ⟨some_,time,q,first,⟨a,b,c,d,f,g,i,j,k⟩⟩
  · exact .inl none
  · exact .inr ⟨some_,time,q,first,⟨a,b,c,d,f,g,i,j,k⟩⟩

theorem midway_fold {log : Log} {start e : Estimator} {nowUs : Nat} {done : List (Outcome (SentPacket Frame))}
    (midway : Midway log start nowUs done e) (outcomes : List (Outcome (SentPacket Frame))) :
    Midway log start nowUs (done ++ outcomes) (outcomes.foldl (settle nowUs) e) := by
  induction outcomes generalizing done e with
  | nil => simpa using midway
  | cons outcome rest ih =>
    rw [List.foldl_cons,List.append_cons]
    cases outcome with
    | acked p => exact ih (midway_acked midway p)
    | lost p => exact ih (midway_lost midway p)

theorem ackedOf_map {α β : Type} (f : α → β) (outcomes : List (Outcome α)) :
    ackedOf (outcomes.map (Outcome.map f)) = (ackedOf outcomes).map f := by
  induction outcomes with
  | nil => rfl
  | cons outcome rest ih =>
    unfold ackedOf at ih ⊢
    cases outcome with
    | acked p => simpa [Outcome.map] using ih
    | lost p => simpa [Outcome.map] using ih

theorem lostOf_map {α β : Type} (f : α → β) (outcomes : List (Outcome α)) :
    lostOf (outcomes.map (Outcome.map f)) = (lostOf outcomes).map f := by
  induction outcomes with
  | nil => rfl
  | cons outcome rest ih =>
    unfold lostOf at ih ⊢
    cases outcome with
    | acked p => simpa [Outcome.map] using ih
    | lost p => simpa [Outcome.map] using ih

theorem bytesInFlight_packets (outcomes : List (Outcome (SentPacket Frame))) :
    bytesInFlight (outcomes.map Outcome.packet) = bytesInFlight (ackedOf outcomes)+bytesInFlight (lostOf outcomes) := by
  induction outcomes with
  | nil => rfl
  | cons outcome rest ih =>
    rw [List.map_cons,bytesInFlight_cons,ih]
    cases outcome with
    | acked p =>
      change _ = bytesInFlight (p::ackedOf rest)+bytesInFlight (lostOf rest)
      rw [bytesInFlight_cons,Nat.add_assoc]
      rfl
    | lost p =>
      change _ = bytesInFlight (ackedOf rest)+bytesInFlight (p::lostOf rest)
      rw [bytesInFlight_cons,Nat.add_left_comm]
      rfl

theorem packet_of_acked {outcomes : List (Outcome (SentPacket Frame))} {p : SentPacket Frame} (member : p ∈ ackedOf outcomes) :
    p ∈ outcomes.map Outcome.packet := by
  obtain ⟨outcome,inside,is⟩ := List.mem_filterMap.mp member
  cases outcome with
  | acked q =>
    obtain rfl := Option.some.inj is
    exact List.mem_map_of_mem inside
  | lost q => cases is

theorem epoch_newest {p : SentPacket Frame} {acked : List (SentPacket Frame)} (newest : Newest p acked) (before : Nat) :
    ((acked.map bare).map Packet.sentTimeUs).max?.getD before = p.sentTimeUs := by
  obtain ⟨member,first⟩ := newest
  have top : ((acked.map bare).map Packet.sentTimeUs).max? = some p.sentTimeUs := by
    rw [List.max?_eq_some_iff]
    refine ⟨List.mem_map.mpr ⟨bare p,List.mem_map_of_mem member,rfl⟩,fun t any => ?_⟩
    obtain ⟨q',inside,rfl⟩ := List.mem_map.mp any
    obtain ⟨q,here,rfl⟩ := List.mem_map.mp inside
    have before := first q here
    unfold Later at before
    exact Nat.le_of_not_lt fun later => before (.inl later)
  rw [top]
  rfl

theorem generateRateSample_est (e : Estimator) (minRttUs ceDelta : Nat) : (e.generateRateSample minRttUs ceDelta).1 =
    {e with appLimitedUntil := if e.appLimitedUntil ≠ 0 ∧ e.delivered > e.appLimitedUntil then 0 else e.appLimitedUntil} := by
  unfold Estimator.generateRateSample
  dsimp only
  by_cases passed : e.appLimitedUntil ≠ 0 ∧ e.delivered > e.appLimitedUntil
  · rw [if_pos passed,if_pos passed]
    split <;> rfl
  · rw [if_neg passed,if_neg passed]
    split <;> rfl

theorem agrees_ack (agrees : Agrees h) (nowUs minRttUs ceDelta : Nat) {outcomes : List (Outcome (SentPacket Frame))}
    {rest : List (SentPacket Frame)} (left : h.inFlight.Perm (outcomes.map Outcome.packet ++ rest)) :
    Agrees (step h (.ack nowUs minRttUs ceDelta outcomes rest)) := by
  have midway := midway_fold (midway_begin agrees nowUs) outcomes
  rw [List.nil_append] at midway
  obtain ⟨_,_,deliveredTimeUs,firstSentTimeUs,appLimitedUntil,flight,account,stamped⟩ := agrees
  rw [bytesInFlight_perm left,bytesInFlight_append,bytesInFlight_packets] at flight
  simp only [step,ackEvent,generateRateSample_est]
  generalize outcomes.foldl (settle nowUs) h.est.beginAckEvent = e at midway ⊢
  have acked : Entry.ackedBytes (.ack nowUs (outcomes.map (Outcome.map bare))) = bytesInFlight (ackedOf outcomes) := by
    rw [Entry.ackedBytes,ackedOf_map]
    rfl
  have lost : Entry.lostBytes (.ack nowUs (outcomes.map (Outcome.map bare))) = bytesInFlight (lostOf outcomes) := by
    rw [Entry.lostBytes,lostOf_map]
    rfl
  have total : cap (Log.delivered (.ack nowUs (outcomes.map (Outcome.map bare))::h.log)) = e.delivered := by
    rw [delivered_cons,acked,Nat.add_comm,midway.delivered]
  refine ⟨total.symm,?_,?_,?_,?_,?_,?_,?_⟩
  · rw [lost_cons,lost,Nat.add_comm]
    exact midway.lost
  · unfold lastDelivery
    rw [ackedOf_map,← deliveredTimeUs]
    rcases midway.sample with ⟨none,_,time,_⟩ | ⟨_,time,p,newest,_⟩
    · rw [none]
      exact time
    · rw [if_neg (List.ne_nil_of_mem (List.mem_map_of_mem newest.1))]
      exact time
  · unfold epoch
    rw [ackedOf_map,← firstSentTimeUs]
    rcases midway.sample with ⟨none,_,_,first⟩ | ⟨_,_,p,newest,adopted⟩
    · rw [none]
      exact first
    · rw [epoch_newest newest]
      exact adopted.firstSentTimeUs
  · unfold marker
    rw [total,← appLimitedUntil,← midway.appLimitedUntil]
  · unfold outstanding at flight ⊢
    rw [sent_cons,delivered_cons,lost_cons,acked,lost]
    simp only [Entry.sentBytes]
    omega
  · unfold outstanding at flight
    rw [sent_cons,delivered_cons,lost_cons,acked,lost]
    simp only [Entry.sentBytes]
    omega
  · intro q member
    exact stamped_later _ (stamped q (left.mem_iff.mpr (List.mem_append_right _ member)))

theorem generateRateSample_clears (e : Estimator) (minRttUs ceDelta : Nat) : (e.generateRateSample minRttUs ceDelta).2 =
    (({e with appLimitedUntil := 0} : Estimator).generateRateSample minRttUs ceDelta).2 := by
  unfold Estimator.generateRateSample
  dsimp only
  rw [if_neg (fun both : 0 ≠ 0 ∧ _ => both.1 rfl)]
  by_cases passed : e.appLimitedUntil ≠ 0 ∧ e.delivered > e.appLimitedUntil
  · rw [if_pos passed]
  · rw [if_neg passed]
    split <;> rfl

theorem generateRateSample_none {e : Estimator} (none_ : e.rsHasSample = false) (minRttUs ceDelta : Nat) :
    (e.generateRateSample minRttUs ceDelta).2 = none := by
  unfold Estimator.generateRateSample
  dsimp only
  split <;> simp [none_]

theorem ackEvent_sample (agrees : Agrees h) (nowUs minRttUs ceDelta : Nat) {outcomes : List (Outcome (SentPacket Frame))}
    {rest : List (SentPacket Frame)} (left : h.inFlight.Perm (outcomes.map Outcome.packet ++ rest)) :
    (ackedOf outcomes = [] ∧ (ackEvent h.est nowUs minRttUs ceDelta outcomes).2 = none) ∨
    ∃ p ∈ h.inFlight, Newest p (ackedOf outcomes) ∧ ∃ after before, h.log = after ++ .sent (bare p)::before ∧ Stamped before p ∧
      (ackEvent h.est nowUs minRttUs ceDelta outcomes).2 =
        some (reference (.ack nowUs (outcomes.map (Outcome.map bare))::h.log) before (bare p) nowUs minRttUs ceDelta
          (outcomes.map (Outcome.map bare))) := by
  have midway := midway_fold (midway_begin agrees nowUs) outcomes
  have after := agrees_ack agrees nowUs minRttUs ceDelta left
  obtain ⟨total,gone,_⟩ := after
  simp only [step,ackEvent,generateRateSample_est] at total gone
  rw [List.nil_append] at midway
  unfold ackEvent
  generalize outcomes.foldl (settle nowUs) h.est.beginAckEvent = e at midway total gone ⊢
  rcases midway.sample with ⟨none,none_,_⟩ | ⟨some_,time,p,newest,adopted⟩
  · exact .inl ⟨none,generateRateSample_none none_ minRttUs ceDelta⟩
  · right
    have flying : p ∈ h.inFlight := left.mem_iff.mpr (List.mem_append_left _ (packet_of_acked newest.1))
    obtain ⟨after,before,split_,stamped⟩ := agrees.stamped p flying
    refine ⟨p,flying,newest,after,before,split_,stamped,?_⟩
    have newly : e.eventNewlyAcked = cap (bytesOf (ackedOf (outcomes.map (Outcome.map bare)))) := by
      rw [ackedOf_map,midway.newlyAcked]
      rfl
    have room : p.txInFlight = cap (outstanding before+(bare p).bytes) := stamped.txInFlight
    rw [generateRateSample_clears]
    unfold Estimator.generateRateSample reference
    dsimp only
    rw [if_neg (fun both : 0 ≠ 0 ∧ _ => both.1 rfl),List.tail_cons,← total,← gone,← newly,← midway.priorLost,← stamped.delivered,
      ← stamped.deliveredTimeUs,← stamped.firstSentTimeUs,← room,← stamped.lostAtSend,← stamped.isAppLimited]
    simp only [some_,Bool.not_true,Bool.false_eq_true,if_false,time,adopted.priorDelivered,adopted.priorTimeUs,adopted.priorLost,
      adopted.txInFlight,adopted.isAppLimited,adopted.lastAckedPn,adopted.sendElapsedUs]
    rfl

theorem agrees_run (reached : Reaches Fresh step Allowed h) : Agrees h := by
  apply reached.invariant Agrees
  · rintro h rfl
    exact ⟨rfl,rfl,rfl,rfl,rfl,rfl,le_rfl,fun _ member => absurd member List.not_mem_nil⟩
  · intro h event agrees allowed
    cases event with
    | send p => exact agrees_send agrees p
    | ack nowUs minRttUs ceDelta outcomes rest => exact agrees_ack agrees nowUs minRttUs ceDelta allowed.2
    | lost p rest => exact agrees_lost agrees allowed
    | markAppLimited => exact agrees_mark agrees

/-- With a clock that does not go back, no clock of the estimator or of a stamp is ahead of the times it is taken from. -/
structure Timely (h : History Frame) : Prop where
  delivery : h.est.deliveredTimeUs ≤ h.nowUs
  epoch : h.est.firstSentTimeUs ≤ h.nowUs
  inFlight : ∀ p ∈ h.inFlight, p.sentTimeUs ≤ h.nowUs ∧ p.firstSentTimeUs ≤ p.sentTimeUs ∧ p.deliveredTimeUs ≤ p.sentTimeUs

theorem timely_send (timely : Timely h) {p : SentPacket Frame} (passed : h.nowUs ≤ p.sentTimeUs) : Timely (step h (.send p)) := by
  obtain ⟨delivery,epoch,inFlight⟩ := timely
  obtain ⟨est,sent⟩ := onPacketSent_stamps h.est p (bytesInFlight h.inFlight)
  have first : (if bytesInFlight h.inFlight = 0 then p.sentTimeUs else h.est.firstSentTimeUs) ≤ p.sentTimeUs := by
    split <;> omega
  have last : (if bytesInFlight h.inFlight = 0 then p.sentTimeUs else h.est.deliveredTimeUs) ≤ p.sentTimeUs := by
    split <;> omega
  simp only [step,est,sent]
  refine ⟨last,first,fun q member => ?_⟩
  rcases List.mem_cons.mp member with rfl | older
  · exact ⟨le_rfl,first,last⟩
  · obtain ⟨known,stamps⟩ := inFlight q older
    exact ⟨known.trans passed,stamps⟩

theorem timely_ack (agrees : Agrees h) (timely : Timely h) {nowUs : Nat} (passed : h.nowUs ≤ nowUs) (minRttUs ceDelta : Nat)
    {outcomes : List (Outcome (SentPacket Frame))} {rest : List (SentPacket Frame)}
    (left : h.inFlight.Perm (outcomes.map Outcome.packet ++ rest)) :
    Timely (step h (.ack nowUs minRttUs ceDelta outcomes rest)) := by
  have midway := midway_fold (midway_begin agrees nowUs) outcomes
  rw [List.nil_append] at midway
  obtain ⟨delivery,epoch,inFlight⟩ := timely
  simp only [step,ackEvent,generateRateSample_est]
  generalize outcomes.foldl (settle nowUs) h.est.beginAckEvent = e at midway ⊢
  have staying : ∀ p ∈ rest, p.sentTimeUs ≤ nowUs ∧ p.firstSentTimeUs ≤ p.sentTimeUs ∧ p.deliveredTimeUs ≤ p.sentTimeUs := by
    intro p member
    obtain ⟨known,stamps⟩ := inFlight p (left.mem_iff.mpr (List.mem_append_right _ member))
    exact ⟨known.trans passed,stamps⟩
  rcases midway.sample with ⟨_,_,time,first⟩ | ⟨_,time,p,newest,adopted⟩
  · exact ⟨time.le.trans (delivery.trans passed),first.le.trans (epoch.trans passed),staying⟩
  · have flying : p ∈ h.inFlight := left.mem_iff.mpr (List.mem_append_left _ (packet_of_acked newest.1))
    exact ⟨time.le,adopted.firstSentTimeUs.le.trans ((inFlight p flying).1.trans passed),staying⟩

theorem timely_run (reached : Reaches Fresh step Allowed h) : Timely h := by
  apply reached.invariant_under Agrees Timely
  · exact fun _ reached => agrees_run reached
  · rintro h rfl
    exact ⟨le_rfl,le_rfl,fun _ member => absurd member List.not_mem_nil⟩
  · intro h event agrees timely allowed
    cases event with
    | send p => exact timely_send timely allowed
    | ack nowUs minRttUs ceDelta outcomes rest => exact timely_ack agrees timely allowed.1 minRttUs ceDelta allowed.2
    | lost p rest =>
      exact ⟨timely.delivery,timely.epoch,fun q member =>
        timely.inFlight q ((show h.inFlight.Perm (p::rest) from allowed).mem_iff.mpr (List.mem_cons_of_mem p member))⟩
    | markAppLimited => exact ⟨timely.delivery,timely.epoch,timely.inFlight⟩

/-- Since a mark, either it stands or more was delivered than was in flight then. -/
theorem marker_since (before : Log) (bytes : Nat) (after : Log) (unmarked : ∀ b, Entry.marked b ∉ after) :
    let log : Log := after ++ .marked bytes::before
    (marker log = max (cap (before.delivered+bytes)) 1 ∨ marker log = 0) ∧ before.delivered ≤ log.delivered ∧
      (marker log = 0 → before.delivered+bytes < log.delivered) := by
  induction after with
  | nil =>
    refine ⟨.inl rfl,by simp,fun none => ?_⟩
    simp only [List.nil_append,marker] at none
    omega
  | cons entry after ih =>
    obtain ⟨stands,more,gone⟩ := ih fun b member => unmarked b (List.mem_cons_of_mem entry member)
    rw [List.cons_append]
    generalize after ++ Entry.marked bytes::before = log at stands more gone ⊢
    dsimp only
    rw [delivered_cons]
    refine ⟨?_,by omega,?_⟩
    · cases entry with
      | sent p => exact stands
      | lost p => exact stands
      | marked b => exact absurd List.mem_cons_self (unmarked b)
      | ack nowUs outcomes =>
        unfold marker
        split
        · exact .inr rfl
        · exact stands
    · cases entry with
      | sent p => exact fun none => (gone none).trans_le (Nat.le_add_left _ _)
      | lost p => exact fun none => (gone none).trans_le (Nat.le_add_left _ _)
      | marked b => exact absurd List.mem_cons_self (unmarked b)
      | ack nowUs outcomes =>
        unfold marker
        split
        · rename_i passed
          intro _
          obtain ⟨some_,above⟩ := passed
          rw [delivered_cons] at above
          unfold cap at above stands
          omega
        · exact fun none => (gone none).trans_le (Nat.le_add_left _ _)

/-- The totals are sums over the log, up to what their counters hold. A mark goes only once more was delivered than was in flight
when it was set. And the sample of an ACK event is the replay's, for the newest packet that the event delivers. -/
theorem samples_replayed {Frame : Type} (h : History Frame) (reached : Reaches Fresh step Allowed h) :
    h.est.delivered = cap h.log.delivered ∧ h.est.lost = cap h.log.lost ∧ h.est.appLimitedUntil = marker h.log ∧
    (∀ (after before : Log) (bytes : Nat), h.log = after ++ .marked bytes::before → (∀ b, Entry.marked b ∉ after) →
      h.est.isAppLimited = false → before.delivered+bytes < h.log.delivered) ∧
    ∀ (nowUs minRttUs ceDelta : Nat) (outcomes : List (Outcome (SentPacket Frame))) (rest : List (SentPacket Frame)),
      Allowed h (.ack nowUs minRttUs ceDelta outcomes rest) →
      (ackedOf outcomes = [] ∧ (ackEvent h.est nowUs minRttUs ceDelta outcomes).2 = none) ∨
      ∃ p, Newest p (ackedOf outcomes) ∧ ∃ after before, h.log = after ++ .sent (bare p)::before ∧
        epoch (.sent (bare p)::before) ≤ p.sentTimeUs ∧ lastDelivery (.sent (bare p)::before) ≤ nowUs ∧
        (ackEvent h.est nowUs minRttUs ceDelta outcomes).2 =
          some (reference (.ack nowUs (outcomes.map (Outcome.map bare))::h.log) before (bare p) nowUs minRttUs ceDelta
            (outcomes.map (Outcome.map bare))) := by
  have agrees := agrees_run reached
  have timely := timely_run reached
  refine ⟨agrees.delivered,agrees.lost,agrees.appLimitedUntil,?_,?_⟩
  · intro after before bytes split_ unmarked gone
    have none : marker h.log = 0 := by
      rw [← agrees.appLimitedUntil]
      simpa [Estimator.isAppLimited] using gone
    rw [split_] at none ⊢
    exact (marker_since before bytes after unmarked).2.2 none
  · intro nowUs minRttUs ceDelta outcomes rest allowed
    obtain ⟨passed,left⟩ := allowed
    refine (ackEvent_sample agrees nowUs minRttUs ceDelta left).imp_right ?_
    rintro ⟨p,flying,newest,after,before,split_,stamped,sample⟩
    obtain ⟨known,first,last⟩ := timely.inFlight p flying
    rw [stamped.firstSentTimeUs] at first
    rw [stamped.deliveredTimeUs] at last
    exact ⟨p,newest,after,before,split_,first,last.trans (known.trans passed),sample⟩

def packet (pn sentTimeUs bytes : Nat) : SentPacket Unit := {pn,sentTimeUs,bytes,ackEliciting := true,inFlight := true}

def run (events : List (Event Unit)) : History Unit := System.run step {} events

/-- Two packets behind a mark. -/
def marked : List (Event Unit) :=
  [.send (packet 1 1000 1000),.markAppLimited,.send (packet 2 2000 1500),.send (packet 3 2500 1200)]

/-- The ACK of the last of them comes first. -/
def overtaken : History Unit :=
  step (run marked) (.ack 4000 0 0 (((run marked).inFlight.take 1).map .acked) ((run marked).inFlight.drop 1))

theorem reached_overtaken : Reaches Fresh step Allowed overtaken := by
  have sent : Reaches Fresh step Allowed (run marked) :=
    .run marked (.start rfl) ⟨show _ ≤ _ by decide,trivial,show _ ≤ _ by decide,show _ ≤ _ by decide,trivial⟩
  exact sent.next _ ⟨by decide,.refl _⟩

theorem samples_replayed_overtaken : overtaken.est.delivered = 1200 ∧ overtaken.est.isAppLimited = false ∧
    (ackEvent overtaken.est 5000 0 0 (overtaken.inFlight.map .acked)).2.map (·.isAppLimited) = some true ∧
    ∃ p, Newest p (ackedOf (overtaken.inFlight.map .acked)) := by
  obtain ⟨delivered,_,_,_,samples⟩ := samples_replayed overtaken reached_overtaken
  refine ⟨delivered.trans (by decide),by decide,by decide,?_⟩
  obtain ⟨none,_⟩ | ⟨p,newest,_⟩ := samples 5000 0 0 (overtaken.inFlight.map .acked) [] ⟨by decide,.refl _⟩
  · exact absurd none (by decide)
  · exact ⟨p,newest⟩

/-- The second packet alone passes the mark that was set while the first was in flight. And a counter stops at its top. -/
theorem mark_outlived :
    (¬∀ h h' : History Unit, Reaches Fresh step Allowed h →
      Reaches (· = step h .markAppLimited) step (fun s e => Allowed s e ∧ e ≠ .markAppLimited) h' →
      h'.est.isAppLimited = false → ∀ p ∈ h.inFlight, p ∉ h'.inFlight) ∧
    ¬∀ h : History Unit, Reaches Fresh step Allowed h → h.est.delivered = h.log.delivered := by
  constructor
  · intro always
    let first := run [.send (packet 1 1000 1000)]
    let both := step (step first .markAppLimited) (.send (packet 2 2000 1500))
    let last := step both (.ack 3000 0 0 ((both.inFlight.take 1).map .acked) (both.inFlight.drop 1))
    have reached : Reaches Fresh step Allowed first := .run _ (.start rfl) ⟨show _ ≤ _ by decide,trivial⟩
    have marked : Reaches (· = step first .markAppLimited) step (fun s e => Allowed s e ∧ e ≠ .markAppLimited) last :=
      .next _ (.next _ (.start rfl) ⟨show _ ≤ _ by decide,nofun⟩) ⟨⟨by decide,.refl _⟩,nofun⟩
    exact always first last reached marked (by decide) (first.inFlight.head (by decide)) (by decide) (by decide)
  · intro always
    let both := run [.send (packet 1 1000 (2^63)),.send (packet 2 1000 (2^63))]
    let last := step both (.ack 3000 0 0 (both.inFlight.map .acked) [])
    have reached : Reaches Fresh step Allowed last :=
      .next _ (.run _ (.start rfl) ⟨show _ ≤ _ by decide,show _ ≤ _ by decide,trivial⟩) ⟨by decide,.refl _⟩
    exact absurd (always last reached) (by decide)

end

end QuicZig.Conn.DeliveryReplay
