import QuicZig.Conn.AckTracker
import QuicZig.Frame.Types

/-! One packet number space: the numbers it gives out, the numbers it received,
and the ECN counts of both directions with their validation. -/
namespace QuicZig.Conn
open Machine

inductive EcnCodepoint where
  | notEct
  | ect1
  | ect0
  | ce
  deriving DecidableEq, Repr

inductive EcnValidationState where
  | testing
  | failed
  deriving DecidableEq, Repr

structure PnSpace where
  nextPn : Nat := 0
  largestAckedSent : Option Nat := none
  received : AckTracker := {}
  recvEct0 : Nat := 0
  recvEct1 : Nat := 0
  recvCe : Nat := 0
  peerAckEct0 : Nat := 0
  peerAckEct1 : Nat := 0
  peerAckCe : Nat := 0
  peerAckEcnSeen : Bool := false
  ectMarkedSent : Nat := 0
  validation : EcnValidationState := .testing
  deriving DecidableEq, Repr

namespace PnSpace

def maxPn : Nat := 1 <<< 62-1

/-- The method `nextPn`: `none` when the space is exhausted. -/
def allocatePn (self : PnSpace) : Option (Nat × PnSpace) :=
  if self.nextPn > maxPn then none else some (self.nextPn,{self with nextPn := self.nextPn+1})

def recordReceivedPacketUs (granted : Bool) (self : PnSpace) (pn nowUs : Nat) (ackEliciting : Bool) : PnSpace :=
  {self with received := self.received.addPacketUs granted pn nowUs ackEliciting}

def recordReceivedPacketDelayed (granted : Bool) (self : PnSpace) (pn nowMs : Nat) (ackEliciting : Bool)
    (packetThreshold nowUs quickGapUs reorderThreshold : Nat) : PnSpace :=
  {self with received := self.received.addPacketDelayed granted pn nowMs ackEliciting packetThreshold nowUs quickGapUs
                           reorderThreshold}

def onAckReceived (self : PnSpace) (ackLargestAcked : Nat) : PnSpace :=
  match self.largestAckedSent with
  | none => {self with largestAckedSent := some ackLargestAcked}
  | some largest => if ackLargestAcked > largest then {self with largestAckedSent := some ackLargestAcked} else self

def onPacketReceivedWithEcn (self : PnSpace) : EcnCodepoint → PnSpace
  | .notEct => self
  | .ect0 => {self with recvEct0 := saturatingAdd self.recvEct0 1}
  | .ect1 => {self with recvEct1 := saturatingAdd self.recvEct1 1}
  | .ce => {self with recvCe := saturatingAdd self.recvCe 1}

def hasObservedEcn (self : PnSpace) : Bool := decide (self.recvEct0 ≠ 0 ∨ self.recvEct1 ≠ 0 ∨ self.recvCe ≠ 0)

/-- The counts of an outgoing ACK frame, as `pollLevelOnPath` picks them. -/
def ackEcnCounts (ecnEnabled : Bool) (self : PnSpace) : Option Frame.EcnCounts :=
  if !ecnEnabled then none
  else if self.validation = .failed then none
  else if !self.hasObservedEcn then none
  else some {ect0 := self.recvEct0,ect1 := self.recvEct1,ecnCe := self.recvCe}

/-- What the end of `pollLevelOnPath` counts for a packet that is not a close: only one that asks for an ACK. -/
def recordSent (ecnEnabled : Bool) (self : PnSpace) (ackEliciting : Bool) : PnSpace :=
  if ackEliciting then
    if ecnEnabled then {self with ectMarkedSent := saturatingAdd self.ectMarkedSent 1} else self
  else self

/-- What it counts for a packet with a CONNECTION_CLOSE. -/
def recordCloseSent (ecnEnabled : Bool) (self : PnSpace) : PnSpace :=
  if ecnEnabled then {self with ectMarkedSent := saturatingAdd self.ectMarkedSent 1} else self

def reportedTotal (counts : Frame.EcnCounts) : Nat :=
  saturatingAdd (saturatingAdd counts.ect0 counts.ect1) counts.ecnCe

def validateAndApplyAckEcn (self : PnSpace) (ecnCounts : Option Frame.EcnCounts) : Bool × PnSpace :=
  match ecnCounts with
  | none => (true,self)
  | some counts =>
    if self.validation = .failed then (false,self)
    else if self.peerAckEcnSeen ∧ (counts.ect0 < self.peerAckEct0 ∨ counts.ect1 < self.peerAckEct1 ∨
        counts.ecnCe < self.peerAckCe) then (false,self)
    else if reportedTotal counts > self.ectMarkedSent then (false,self)
    else (true,{self with peerAckEct0 := counts.ect0,peerAckEct1 := counts.ect1,peerAckCe := counts.ecnCe,
                          peerAckEcnSeen := true})

/-- What `apply` does to the space before it walks the ranges; `none` is the close for an ACK of an unsent packet. -/
def applyAck (ecnEnabled : Bool) (self : PnSpace) (a : Frame.Ack) : Option PnSpace :=
  if a.largestAcked ≥ self.nextPn then none
  else
    let (ecnOk,self) := if ecnEnabled then self.validateAndApplyAckEcn a.ecnCounts else (true,self)
    let self := if !ecnOk then {self with validation := .failed} else self
    some (self.onAckReceived a.largestAcked)

theorem onAckReceived_frame (self : PnSpace) (ackLargestAcked : Nat) :
    ∃ largest, self.onAckReceived ackLargestAcked = {self with largestAckedSent := largest} := by
  unfold onAckReceived
  split
  · exact ⟨_,rfl⟩
  · split <;> exact ⟨_,rfl⟩

structure Accepts (space : PnSpace) (counts : Frame.EcnCounts) : Prop where
  testing : space.validation = .testing
  monotone : space.peerAckEcnSeen = true → space.peerAckEct0 ≤ counts.ect0 ∧ space.peerAckEct1 ≤ counts.ect1 ∧
    space.peerAckCe ≤ counts.ecnCe
  total : reportedTotal counts ≤ space.ectMarkedSent

theorem validate_accepts {self : PnSpace} {counts : Frame.EcnCounts} (accepts : self.Accepts counts) :
    self.validateAndApplyAckEcn (some counts) = (true,{self with
      peerAckEct0 := counts.ect0
      peerAckEct1 := counts.ect1
      peerAckCe := counts.ecnCe
      peerAckEcnSeen := true}) := by
  have inOrder : ¬ (self.peerAckEcnSeen = true ∧ (counts.ect0 < self.peerAckEct0 ∨ counts.ect1 < self.peerAckEct1 ∨
      counts.ecnCe < self.peerAckCe)) := by
    intro behind
    have monotone := accepts.monotone behind.1
    omega
  unfold validateAndApplyAckEcn
  dsimp only
  rw [if_neg (by rw [accepts.testing]; nofun),if_neg inOrder,if_neg (Nat.not_lt.mpr accepts.total)]

theorem validate_rejects {self : PnSpace} {counts : Frame.EcnCounts} (rejects : ¬ self.Accepts counts) :
    self.validateAndApplyAckEcn (some counts) = (false,self) := by
  unfold validateAndApplyAckEcn
  dsimp only
  split_ifs with failed behind many
  · rfl
  · rfl
  · rfl
  · have testing : self.validation = .testing := by
      cases state : self.validation with
      | testing => rfl
      | failed => exact absurd state failed
    have monotone : self.peerAckEcnSeen = true → self.peerAckEct0 ≤ counts.ect0 ∧ self.peerAckEct1 ≤ counts.ect1 ∧
        self.peerAckCe ≤ counts.ecnCe := by
      intro seen
      have inOrder := not_and.mp behind seen
      omega
    exact absurd ⟨testing,monotone,Nat.not_lt.mp many⟩ rejects

theorem applyAck_cases {self : PnSpace} {a : Frame.Ack} (ecnEnabled : Bool) (sent : a.largestAcked < self.nextPn) :
    ∃ largest,
      ((ecnEnabled = false ∨ a.ecnCounts = none) ∧
        self.applyAck ecnEnabled a = some {self with largestAckedSent := largest}) ∨
      (ecnEnabled = true ∧ ∃ counts, a.ecnCounts = some counts ∧ self.Accepts counts ∧
        self.applyAck ecnEnabled a = some {self with
          largestAckedSent := largest
          peerAckEct0 := counts.ect0
          peerAckEct1 := counts.ect1
          peerAckCe := counts.ecnCe
          peerAckEcnSeen := true}) ∨
      (ecnEnabled = true ∧ ∃ counts, a.ecnCounts = some counts ∧ ¬ self.Accepts counts ∧
        self.applyAck ecnEnabled a = some {self with largestAckedSent := largest,validation := .failed}) := by
  unfold applyAck
  rw [if_neg (Nat.not_le.mpr sent)]
  cases ecnEnabled with
  | false =>
    obtain ⟨largest,acked⟩ := onAckReceived_frame self a.largestAcked
    exact ⟨largest,.inl ⟨.inl rfl,congrArg some acked⟩⟩
  | true =>
    cases reported : a.ecnCounts with
    | none =>
      obtain ⟨largest,acked⟩ := onAckReceived_frame self a.largestAcked
      exact ⟨largest,.inl ⟨.inr rfl,congrArg some acked⟩⟩
    | some counts =>
      by_cases accepts : self.Accepts counts
      · obtain ⟨largest,acked⟩ := onAckReceived_frame {self with
          peerAckEct0 := counts.ect0
          peerAckEct1 := counts.ect1
          peerAckCe := counts.ecnCe
          peerAckEcnSeen := true} a.largestAcked
        simp only [validate_accepts accepts]
        exact ⟨largest,.inr (.inl ⟨trivial,counts,rfl,accepts,congrArg some acked⟩)⟩
      · obtain ⟨largest,acked⟩ := onAckReceived_frame {self with validation := .failed} a.largestAcked
        simp only [validate_rejects accepts]
        exact ⟨largest,.inr (.inr ⟨trivial,counts,rfl,accepts,congrArg some acked⟩)⟩

/-- An ACK changes the largest number acknowledged and the state of the validation, and nothing else. -/
theorem applyAck_frame {ecnEnabled : Bool} {self after : PnSpace} {a : Frame.Ack}
    (applied : self.applyAck ecnEnabled a = some after) : ∃ largest ect0 ect1 ce seen validation,
      after = {self with largestAckedSent := largest,peerAckEct0 := ect0,peerAckEct1 := ect1,peerAckCe := ce,
                         peerAckEcnSeen := seen,validation := validation} := by
  by_cases sent : a.largestAcked < self.nextPn
  · obtain ⟨largest,⟨_,ignored⟩ | ⟨_,counts,_,_,taken⟩ | ⟨_,counts,_,_,rejected⟩⟩ := applyAck_cases ecnEnabled sent
    · exact ⟨_,_,_,_,_,_,Option.some.inj (applied.symm.trans ignored)⟩
    · exact ⟨_,_,_,_,_,_,Option.some.inj (applied.symm.trans taken)⟩
    · exact ⟨_,_,_,_,_,_,Option.some.inj (applied.symm.trans rejected)⟩
  · rw [applyAck,if_pos (Nat.not_lt.mp sent)] at applied
    cases applied

/-- The part of `PathState.clearRecovery` about the space. -/
def clearRecovery (self : PnSpace) : PnSpace := {self with received := self.received.reset}

/-- The part of `dropSpaceRecoveryState` about the space. -/
def dropSpaceRecoveryState (self : PnSpace) : PnSpace :=
  {self with received := {self.received with pendingAck := false,delayedAckArmed := false}}

end PnSpace

end QuicZig.Conn
