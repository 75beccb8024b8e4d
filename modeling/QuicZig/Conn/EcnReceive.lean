import QuicZig.Conn.ReplayRun
import QuicZig.Conn.AckFrame
import Mathlib.Data.List.Perm.Subperm
import Mathlib.Data.List.Dedup

/-! The ECN counts a receiver keeps and reports, and the sender's check of their total,
for a network that drops, delays, reorders and duplicates datagrams. -/
namespace QuicZig.Conn.EcnReceive
open Machine AckTracker RecvPacket

/-- A sender's space, the receiver of its packets, and the ACK frames that the receiver built. `arrived` are the
numbers of the packets that the receiver recorded, `counted` the numbers it counted with their marks. -/
structure Link where
  senderEcn : Bool := true
  receiverEcn : Bool := true
  sender : PnSpace := {}
  receiver : ReplayRun.Endpoint := {}
  arrived : List Nat := []
  counted : List (Nat × EcnCodepoint) := []
  acks : List Frame.Ack := []

inductive Event where
  | send (ackEliciting : Bool)
  | sendClose
  | arrive (p : Opened) (ecn : EcnCodepoint) (granted : Bool)
  | buildAck (ackDelayScaled bufferLen maxRangesBytes maxLowerRanges : Nat)
  | deliverAck (a : Frame.Ack)
  /-- Anything else that happens at the receiver. -/
  | receiver (e : ReplayRun.Event)

/-- The codepoint that `handleWithEcn` keeps for the packets of a datagram. -/
def lastRecvEcn (s : Link) (ecn : EcnCodepoint) : EcnCodepoint := if s.receiverEcn then ecn else .notEct

def arrive (s : Link) (p : Opened) (ecn : EcnCodepoint) (granted : Bool) : Link :=
  let mark := lastRecvEcn s ecn
  let receiver := ReplayRun.receive {s.receiver with conn := {s.receiver.conn with lastRecvEcn := mark}} p granted
  if closingAttributionOnly s.receiver.conn then {s with receiver := receiver}
  else {s with receiver := receiver,arrived := p.pn::s.arrived,
               counted := if mark = .notEct then s.counted else (p.pn,mark)::s.counted}

def step (s : Link) : Event → Link
  | .send ackEliciting =>
    match s.sender.allocatePn with
    | none => s
    | some (_,space) => {s with sender := space.recordSent s.senderEcn ackEliciting}
  | .sendClose =>
    match s.sender.allocatePn with
    | none => s
    | some (_,space) => {s with sender := space.recordCloseSent s.senderEcn}
  | .arrive p ecn granted => arrive s p ecn granted
  | .buildAck ackDelayScaled bufferLen maxRangesBytes maxLowerRanges =>
    match s.receiver.space.received.toAckFrameLimitedRangesWithEcn ackDelayScaled bufferLen maxRangesBytes maxLowerRanges
      (s.receiver.space.ackEcnCounts s.receiverEcn) with
    | .error _ => s
    | .ok a => {s with acks := a::s.acks}
  | .deliverAck a => {s with sender := (s.sender.applyAck s.senderEcn a).getD s.sender}
  | .receiver e => {s with receiver := ReplayRun.step s.receiver e}

/-- The network makes no packets up, though it may deliver one any number of times, and change its mark. -/
def Genuine (s : Link) : Event → Prop
  | .arrive p _ _ => p.pn < s.sender.nextPn
  | .deliverAck a => a ∈ s.acks
  | .receiver e => ∀ p granted, e ≠ .packet p granted
  | _ => True

def Fresh (s : Link) : Prop := ∃ receiver senderEcn receiverEcn,
  ReplayRun.Fresh receiver ∧ s = {senderEcn := senderEcn,receiverEcn := receiverEcn,receiver := receiver}

def tally (counted : List (Nat × EcnCodepoint)) (mark : EcnCodepoint) : Nat := counted.countP fun c => c.2 = mark

def counter (space : PnSpace) : EcnCodepoint → Nat
  | .notEct => 0
  | .ect0 => space.recvEct0
  | .ect1 => space.recvEct1
  | .ce => space.recvCe

/-- The counters are the tallies of what was counted. -/
structure Tallied (s : Link) : Prop where
  counts : ∀ mark, mark ≠ .notEct → counter s.receiver.space mark = min (tally s.counted mark) maxU64
  inside : ∀ x ∈ s.counted.map Prod.fst, x ∈ s.arrived
  sent : ∀ x ∈ s.arrived, x < s.sender.nextPn
  reported : ∀ a ∈ s.acks, ∀ counts, a.ecnCounts = some counts → PnSpace.reportedTotal counts ≤ s.counted.length

def TooMany (s : Link) (a : Frame.Ack) : Prop :=
  ∃ counts, a.ecnCounts = some counts ∧ PnSpace.reportedTotal counts > s.sender.ectMarkedSent

/-- Every number is counted once at most, the counts do not exceed the distinct numbers that arrived, and no ACK
frame reports more packets than were sent: it can fail the check of its total only if the sender's own count
misses packets that it sent. -/
structure Counted (s : Link) : Prop where
  once : (s.counted.map Prod.fst).Nodup
  distinct : s.receiver.space.recvEct0+s.receiver.space.recvEct1+s.receiver.space.recvCe ≤ s.arrived.dedup.length
  total : ∀ a ∈ s.acks, ∀ counts, a.ecnCounts = some counts → PnSpace.reportedTotal counts ≤ s.sender.nextPn
  checked : ∀ a ∈ s.acks, TooMany s a → s.sender.ectMarkedSent < s.sender.nextPn

def MarkedOnce (s : Link) : Event → Prop
  | .arrive p ecn _ => closingAttributionOnly s.receiver.conn = true ∨ lastRecvEcn s ecn = .notEct ∨
      p.pn ∉ s.counted.map Prod.fst
  | _ => True

theorem tally_cons (pn : Nat) (mark other : EcnCodepoint) (counted : List (Nat × EcnCodepoint)) :
    tally ((pn,mark)::counted) other = tally counted other+if mark = other then 1 else 0 := by
  unfold tally
  rw [List.countP_cons]
  simp

theorem tally_sum (counted : List (Nat × EcnCodepoint)) :
    tally counted .ect0+tally counted .ect1+tally counted .ce ≤ counted.length := by
  induction counted with
  | nil => exact Nat.le_refl 0
  | cons c rest ih =>
    obtain ⟨pn,mark⟩ := c
    simp only [tally_cons,List.length_cons]
    cases mark <;> simp <;> omega

theorem Tallied.sum {s : Link} (tallied : Tallied s) :
    s.receiver.space.recvEct0+s.receiver.space.recvEct1+s.receiver.space.recvCe ≤ s.counted.length := by
  have sum := tally_sum s.counted
  have ect0 : s.receiver.space.recvEct0 = min (tally s.counted .ect0) maxU64 := tallied.counts .ect0 nofun
  have ect1 : s.receiver.space.recvEct1 = min (tally s.counted .ect1) maxU64 := tallied.counts .ect1 nofun
  have ce : s.receiver.space.recvCe = min (tally s.counted .ce) maxU64 := tallied.counts .ce nofun
  omega

theorem Tallied.counted {s : Link} (tallied : Tallied s) : Counted s ↔ (s.counted.map Prod.fst).Nodup := by
  constructor
  · exact Counted.once
  · intro once
    have length : s.counted.length = (s.counted.map Prod.fst).length := (List.length_map _).symm
    have few : s.counted.length ≤ s.arrived.dedup.length := by
      rw [length]
      apply List.Subperm.length_le
      exact List.subperm_of_subset once (fun x member => List.mem_dedup.mpr (tallied.inside x member))
    have sent : s.counted.length ≤ s.sender.nextPn := by
      rw [length,← List.length_range (n := s.sender.nextPn)]
      apply List.Subperm.length_le
      exact List.subperm_of_subset once
        (fun x member => List.mem_range.mpr (tallied.sent x (tallied.inside x member)))
    have total : ∀ a ∈ s.acks, ∀ counts, a.ecnCounts = some counts → PnSpace.reportedTotal counts ≤ s.sender.nextPn :=
      fun a member counts here => (tallied.reported a member counts here).trans sent
    refine ⟨once,tallied.sum.trans few,total,?_⟩
    intro a member tooMany
    obtain ⟨counts,here,more⟩ := tooMany
    exact Nat.lt_of_lt_of_le more (total a member counts here)

theorem fresh_tallied (s : Link) (fresh : Fresh s) : Tallied s ∧ (s.counted.map Prod.fst).Nodup := by
  obtain ⟨receiver,senderEcn,receiverEcn,⟨allocator,rfl⟩,rfl⟩ := fresh
  refine ⟨⟨?_,by simp,by simp,by simp⟩,List.nodup_nil⟩
  intro mark _
  cases mark <;> rfl

theorem Tallied.frame {s s' : Link} (tallied : Tallied s)
    (counters : counter s'.receiver.space = counter s.receiver.space) (counted : s'.counted = s.counted)
    (arrived : s'.arrived = s.arrived) (sent : s.sender.nextPn ≤ s'.sender.nextPn) (acks : s'.acks = s.acks) :
    Tallied s' := by
  refine ⟨?_,?_,?_,?_⟩
  · rw [counters,counted]
    exact tallied.counts
  · rw [counted,arrived]
    exact tallied.inside
  · rw [arrived]
    exact fun x member => Nat.lt_of_lt_of_le (tallied.sent x member) sent
  · rw [acks,counted]
    exact tallied.reported

theorem counter_congr {space after : PnSpace} (ect0 : after.recvEct0 = space.recvEct0)
    (ect1 : after.recvEct1 = space.recvEct1) (ce : after.recvCe = space.recvCe) : counter after = counter space := by
  funext mark
  cases mark with
  | notEct => rfl
  | ect0 => exact ect0
  | ect1 => exact ect1
  | ce => exact ce

theorem counter_received (space : PnSpace) (mark other : EcnCodepoint) (marked : other ≠ .notEct) :
    counter (space.onPacketReceivedWithEcn mark) other =
      if mark = other then saturatingAdd (counter space other) 1 else counter space other := by
  cases mark <;> cases other <;> first | rfl | exact absurd rfl marked

theorem applyAck_counters (ecnEnabled : Bool) (space : PnSpace) (a : Frame.Ack) :
    counter ((space.applyAck ecnEnabled a).getD space) = counter space ∧
      ((space.applyAck ecnEnabled a).getD space).nextPn = space.nextPn := by
  cases applied : space.applyAck ecnEnabled a with
  | none => exact ⟨rfl,rfl⟩
  | some after =>
    obtain ⟨_,_,_,_,_,_,rfl⟩ := PnSpace.applyAck_frame applied
    exact ⟨counter_congr rfl rfl rfl,rfl⟩

theorem allocatePn_counters {space after : PnSpace} {pn : Nat} (allocated : space.allocatePn = some (pn,after)) :
    counter after = counter space ∧ after.nextPn = space.nextPn+1 := by
  unfold PnSpace.allocatePn at allocated
  split at allocated
  · cases allocated
  · cases allocated
    exact ⟨counter_congr rfl rfl rfl,rfl⟩

theorem recordSent_counters (ecnEnabled ackEliciting : Bool) (space : PnSpace) :
    counter (space.recordSent ecnEnabled ackEliciting) = counter space ∧
      (space.recordSent ecnEnabled ackEliciting).nextPn = space.nextPn := by
  cases ecnEnabled <;> cases ackEliciting <;> exact ⟨counter_congr rfl rfl rfl,rfl⟩

theorem recordCloseSent_next (ecnEnabled : Bool) (space : PnSpace) :
    (space.recordCloseSent ecnEnabled).nextPn = space.nextPn := by
  cases ecnEnabled <;> rfl

theorem receiver_counters (r : ReplayRun.Endpoint) (e : ReplayRun.Event) (other : ∀ p granted, e ≠ .packet p granted) :
    counter (ReplayRun.step r e).space = counter r.space := by
  cases e with
  | packet p granted => exact absurd rfl (other p granted)
  | ackReceived ecnEnabled a => exact (applyAck_counters ecnEnabled r.space a).1
  | packetSent ecnEnabled ackEliciting =>
    rw [ReplayRun.step]
    split
    · rfl
    · rename_i allocated
      exact (recordSent_counters ecnEnabled ackEliciting _).1.trans (allocatePn_counters allocated).1
  | connection | promoteDelayedAckUs | markAckSent | dropSpaceRecoveryState | clearRecovery =>
    exact counter_congr rfl rfl rfl

/-- Recording a packet leaves the counters, which then go up for its mark. -/
theorem receive_counters (r : ReplayRun.Endpoint) (p : Opened) (granted : Bool)
    (active : closingAttributionOnly r.conn = false) : ∃ received,
    (ReplayRun.receive r p granted).space =
      {r.space with received := received}.onPacketReceivedWithEcn r.conn.lastRecvEcn := by
  obtain ⟨call,_,recorded⟩ := record_addition granted r.conn r.space p
  obtain ⟨conn',finished⟩ := finish_open granted r.space p active
  unfold ReplayRun.receive
  rw [finished,recorded]
  cases r.space.received.contains p.pn <;> exact ⟨_,rfl⟩

theorem count_next (n : Nat) : saturatingAdd (min n maxU64) 1 = min (n+1) maxU64 := by
  unfold saturatingAdd
  omega

theorem tallied_arrive {s : Link} (p : Opened) (ecn : EcnCodepoint) (granted : Bool) (tallied : Tallied s)
    (genuine : p.pn < s.sender.nextPn) : Tallied (arrive s p ecn granted) := by
  unfold arrive
  dsimp only
  generalize lastRecvEcn s ecn = mark
  cases active : closingAttributionOnly s.receiver.conn with
  | true =>
    have closing : closingAttributionOnly {s.receiver.conn with lastRecvEcn := mark} = true := active
    obtain ⟨space,_,_⟩ := ReplayRun.receive_closing
      (s := {s.receiver with conn := {s.receiver.conn with lastRecvEcn := mark}}) p granted closing
    rw [if_pos rfl]
    exact tallied.frame (congrArg counter space) rfl rfl (Nat.le_refl _) rfl
  | false =>
    have going : closingAttributionOnly {s.receiver.conn with lastRecvEcn := mark} = false := active
    obtain ⟨received,space⟩ := receive_counters {s.receiver with conn := {s.receiver.conn with lastRecvEcn := mark}} p granted
      going
    rw [if_neg Bool.false_ne_true]
    refine ⟨?_,?_,?_,?_⟩
    · intro other marked
      have before := tallied.counts other marked
      have same : counter {s.receiver.space with received := received} other = counter s.receiver.space other :=
        congrFun (counter_congr rfl rfl rfl) other
      dsimp only
      rw [space,counter_received _ _ _ marked,same,before]
      by_cases here : mark = other
      · subst here
        rw [if_pos rfl,if_neg marked,tally_cons,if_pos rfl,count_next]
      · rw [if_neg here]
        split
        · rfl
        · rw [tally_cons,if_neg here,Nat.add_zero]
    · intro x member
      dsimp only at member
      split at member
      · exact List.mem_cons_of_mem _ (tallied.inside x member)
      · rcases List.mem_cons.mp member with rfl | before
        · exact List.mem_cons_self
        · exact List.mem_cons_of_mem _ (tallied.inside x before)
    · intro x member
      rcases List.mem_cons.mp member with rfl | before
      · exact genuine
      · exact tallied.sent x before
    · intro a member counts here
      have before := tallied.reported a member counts here
      dsimp only
      split
      · exact before
      · exact Nat.le_succ_of_le before

theorem tallied_step (s : Link) (e : Event) (tallied : Tallied s) (genuine : Genuine s e) : Tallied (step s e) := by
  cases e with
  | send ackEliciting =>
    rw [step]
    split
    · exact tallied
    · rename_i allocated
      obtain ⟨_,next⟩ := allocatePn_counters allocated
      refine tallied.frame rfl rfl rfl ?_ rfl
      dsimp only
      rw [(recordSent_counters _ _ _).2,next]
      exact Nat.le_succ _
  | sendClose =>
    rw [step]
    split
    · exact tallied
    · rename_i allocated
      obtain ⟨_,next⟩ := allocatePn_counters allocated
      refine tallied.frame rfl rfl rfl ?_ rfl
      dsimp only
      rw [recordCloseSent_next,next]
      exact Nat.le_succ _
  | arrive p ecn granted => exact tallied_arrive p ecn granted tallied genuine
  | buildAck ackDelayScaled bufferLen maxRangesBytes maxLowerRanges =>
    rw [step]
    split
    · exact tallied
    · rename_i a built
      refine ⟨tallied.counts,tallied.inside,tallied.sent,?_⟩
      intro other member counts here
      rcases List.mem_cons.mp member with rfl | before
      · have reports := limited_counts built
        rw [reports] at here
        have sum := tallied.sum
        unfold PnSpace.ackEcnCounts at here
        split at here
        · cases here
        split at here
        · cases here
        split at here
        · cases here
        cases here
        refine Nat.le_trans ?_ sum
        unfold PnSpace.reportedTotal saturatingAdd
        dsimp only
        omega
      · exact tallied.reported other before counts here
  | deliverAck a =>
    refine tallied.frame rfl rfl rfl ?_ rfl
    exact Nat.le_of_eq (applyAck_counters s.senderEcn s.sender a).2.symm
  | receiver e => exact tallied.frame (receiver_counters s.receiver e genuine) rfl rfl (Nat.le_refl _) rfl

theorem once_step (s : Link) (e : Event) (once : (s.counted.map Prod.fst).Nodup) :
    ((step s e).counted.map Prod.fst).Nodup ↔ MarkedOnce s e := by
  cases e with
  | arrive p ecn granted =>
    unfold MarkedOnce
    rw [step,arrive]
    cases closingAttributionOnly s.receiver.conn with
    | true => simp [once]
    | false =>
      by_cases marked : lastRecvEcn s ecn = .notEct
      · simp [marked,once]
      · simpa [marked] using fun _ => once
  | send ackEliciting | sendClose =>
    rw [step]
    split <;> exact ⟨fun _ => trivial,fun _ => once⟩
  | buildAck ackDelayScaled bufferLen maxRangesBytes maxLowerRanges =>
    rw [step]
    split <;> exact ⟨fun _ => trivial,fun _ => once⟩
  | deliverAck | receiver => exact ⟨fun _ => trivial,fun _ => once⟩

/-- Whatever the network drops, delays, reorders and duplicates, the counts are right in every state of a run just in
case no packet arrives with a mark under a number that was counted before. -/
theorem counted_once (s : Link) (fresh : Fresh s) (events : List Event) (genuine : System.Admits step Genuine s events) :
    System.Throughout Counted step s events ↔ System.Admits step MarkedOnce s events := by
  obtain ⟨tallied,once⟩ := fresh_tallied s fresh
  apply System.throughout_iff tallied_step _ tallied (tallied.counted.mpr once) genuine
  intro s e tallied good allowed
  exact (tallied_step s e tallied allowed).counted.trans (once_step s e (tallied.counted.mp good))

def ping (pn : Nat) : Opened := {lvl := .application,pathId := 0,pn := pn,payload := [1],nowUs := 1}

/-- One packet is sent, delivered once and acknowledged. -/
theorem counted_once_ping : System.Throughout Counted step {}
    [.send true,.arrive (ping 0) .ect0 false,.buildAck 0 100 100 100] :=
  (counted_once {} ⟨{},true,true,⟨false,rfl⟩,rfl⟩ [.send true,.arrive (ping 0) .ect0 false,.buildAck 0 100 100 100]
    ⟨trivial,Nat.zero_lt_one,trivial,trivial⟩).mpr ⟨trivial,.inr (.inr (by decide)),trivial,trivial⟩

/-- One packet arrives twice with its mark, and is counted twice. -/
theorem duplicate_counted : ¬ ∀ (s : Link) (events : List Event), Fresh s → System.Admits step Genuine s events →
    Counted (System.run step s events) := by
  intro counted
  have run := counted {} [.send true,.arrive (ping 0) .ect0 false,.arrive (ping 0) .ect0 false]
    ⟨{},true,true,⟨false,rfl⟩,rfl⟩ ⟨trivial,Nat.zero_lt_one,Nat.zero_lt_one,trivial⟩
  have distinct := run.distinct
  revert distinct
  decide

end QuicZig.Conn.EcnReceive
