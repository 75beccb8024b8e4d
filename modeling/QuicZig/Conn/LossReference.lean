import Mathlib.Data.List.Sort
import QuicZig.Conn.LossSweep
import QuicZig.Conn.PnSpace
import QuicZig.Frame.AckRange

/-! The reference of RFC 9002 for acknowledgements and loss, and the connection's sweeps against it: both declare the same
packets lost, at the thresholds a space starts with. -/
namespace QuicZig.Conn.LossReference
open Machine SentPackets SentPacketTracker LossSweep
open Clock (RttEstimator granularityUs)

variable {Retransmit γ ε : Type}

/-- A callback that cannot fail. -/
def collecting (collect : γ → SentPacket Retransmit → γ) (context : γ) (p : SentPacket Retransmit) : Except Empty Unit × γ :=
  (.ok (),collect context p)

/-- What an infallible callback has come to. -/
def result {α : Type} : Except Empty Unit × α → α := Prod.snd

structure AckProcessing where
  newlyAckedCount : Nat := 0
  bytesAcked : Nat := 0
  inFlightBytesAcked : Nat := 0
  largestAckedNewlyAcked : Bool := false
  largestAckedSendTimeUs : Nat := 0
  largestAckedAckEliciting : Bool := false
  anyAckElicitingNewlyAcked : Bool := false
  deriving DecidableEq, Repr

def collectAckedPacket (largestAcked : Nat) (ctx : AckProcessing) (packet : SentPacket Retransmit) : AckProcessing :=
  let isLargest := packet.pn = largestAcked
  { newlyAckedCount := ctx.newlyAckedCount+1
    bytesAcked := ctx.bytesAcked+packet.bytes
    inFlightBytesAcked := if packet.inFlight then ctx.inFlightBytesAcked+packet.bytes else ctx.inFlightBytesAcked
    largestAckedNewlyAcked := if isLargest then true else ctx.largestAckedNewlyAcked
    largestAckedSendTimeUs := if isLargest then packet.sentTimeUs else ctx.largestAckedSendTimeUs
    largestAckedAckEliciting := if isLargest then packet.ackEliciting else ctx.largestAckedAckEliciting
    anyAckElicitingNewlyAcked := if packet.ackEliciting then true else ctx.anyAckElicitingNewlyAcked }

/-- The tracker entries that an interval covers, removed as a span; `none` is a failed assertion. -/
def removeInterval (largestAcked : Nat) (interval : Frame.Interval) (ctx : AckProcessing) (t : SentPacketTracker Retransmit) :
    Option (AckProcessing × SentPacketTracker Retransmit) :=
  match t.lowerBound interval.smallest with
  | none => some (ctx,t)
  | some start =>
    let stop := runEnd (fun p => decide (p.pn ≤ interval.largest)) t (t.count-start) start
    (t.removeRangeWithError (collecting (collectAckedPacket largestAcked)) ctx start stop).map result

def ackLoop (largestAcked : Nat) (it : Frame.Iterator) (ctx : AckProcessing) (t : SentPacketTracker Retransmit) :
    Option (Except Wire.Error AckProcessing × SentPacketTracker Retransmit) :=
  match _step : it.next with
  | (.error e,_) => some (.error e,t)
  | (.ok none,_) => some (.ok ctx,t)
  | (.ok (some interval),later) =>
    match removeInterval largestAcked interval ctx t with
    | none => none
    | some (ctx,t) => ackLoop largestAcked later ctx t
termination_by it.left
decreasing_by exact Frame.Iterator.left_next _step

def processAck (t : SentPacketTracker Retransmit) (space : PnSpace) (ack : Frame.Ack) :
    Option (Except Wire.Error AckProcessing × PnSpace × SentPacketTracker Retransmit) :=
  (ackLoop ack.largestAcked (Frame.iter ack) {} t).map fun (answer,t) => (answer,space.onAckReceived ack.largestAcked,t)

structure LossResult where
  bytesLost : Nat := 0
  inFlightBytesLost : Nat := 0
  largestLostSendTimeUs : Nat := 0
  count : Nat := 0
  deriving DecidableEq, Repr

def collectLostPacket (ctx : LossResult) (packet : SentPacket Retransmit) : LossResult where
  bytesLost := ctx.bytesLost+packet.bytes
  inFlightBytesLost := if packet.inFlight then ctx.inFlightBytesLost+packet.bytes else ctx.inFlightBytesLost
  largestLostSendTimeUs :=
    if packet.sentTimeUs > ctx.largestLostSendTimeUs then packet.sentTimeUs else ctx.largestLostSendTimeUs
  count := ctx.count+1

def packetThreshold : Nat := 3

/-- `none` is the product that does not fit 64 bits. -/
def timeThresholdUs (rtt : RttEstimator) : Option Nat :=
  let product := max rtt.latestRttUs rtt.smoothedRttUs*9
  if product ≤ maxU64 then some (max (product/8) granularityUs) else none

def isLost (packet : SentPacket Retransmit) (largestAcked lostSendTimeCutoff : Nat) : Bool :=
  decide (largestAcked-packet.pn ≥ packetThreshold) || decide (packet.sentTimeUs < lostSendTimeCutoff)

/-- `none` is a failed assertion or an overflow. -/
def detectLosses (t : SentPacketTracker Retransmit) (space : PnSpace) (rtt : RttEstimator) (nowUs : Nat) :
    Option (LossResult × SentPacketTracker Retransmit) :=
  match space.largestAckedSent with
  | none => some ({},t)
  | some largestAcked => do
    let timeThreshold ← timeThresholdUs rtt
    let cutoff := if nowUs > timeThreshold then nowUs-timeThreshold else 0
    (sweep (fun p => decide (p.pn > largestAcked)) (fun p => decide (p.pn ≤ largestAcked) && isLost p largestAcked cutoff)
      (collecting collectLostPacket) (fuelFor t) 0 {} t).map result

/-- The two sweeps of the connection, one after the other. -/
def sweepBoth (handle : γ → SentPacket Retransmit → Except ε Unit × γ) (largestAckedSent : Option Nat) (reorder : ReorderWindow)
    (rtt : RttEstimator) (nowUs : Nat) (context : γ) (t : SentPacketTracker Retransmit) :
    Option (Except ε Unit × γ × SentPacketTracker Retransmit) :=
  match detectLossesByPacketThreshold handle largestAckedSent reorder context t with
  | some (.ok (),context,t) => detectLossesByTimeThreshold handle largestAckedSent reorder rtt nowUs context t
  | stopped => stopped

/-! What is to be removed. -/

def Acked (ack : Frame.Ack) (p : SentPacket Retransmit) : Bool :=
  (Frame.iter ack).walk.1.any fun i => decide (i.smallest ≤ p.pn ∧ p.pn ≤ i.largest)

/-- `max(9/8 * max(latest_rtt, smoothed_rtt), 1ms)`. -/
def threshold (rtt : RttEstimator) : Nat := max (9*max rtt.latestRttUs rtt.smoothedRttUs/8) granularityUs

/-- At or below the largest acknowledged number, and three below it or older than the time threshold. -/
def Lost (largestAckedSent : Option Nat) (rtt : RttEstimator) (nowUs : Nat) (p : SentPacket Retransmit) : Bool :=
  match largestAckedSent with
  | none => false
  | some largestAcked =>
    decide (p.pn ≤ largestAcked ∧ (p.pn+3 ≤ largestAcked ∨ p.sentTimeUs+threshold rtt < nowUs))

section
variable {t u : SentPacketTracker Retransmit} {collect : γ → SentPacket Retransmit → γ}

theorem hand_collecting (packets : List (SentPacket Retransmit)) (context : γ) :
    hand (collecting collect) context packets = (.ok (),packets.foldl collect context,[]) := by
  induction packets generalizing context with
  | nil => rfl
  | cons p rest ih =>
    rw [hand_cons]
    exact ih (collect context p)

theorem live_ascending (sound : t.Sound) : t.live.Pairwise (fun p q => p.pn < q.pn) :=
  (List.pairwise_map.mp sound.ascending).filter _

theorem live_of_left (sound : t.Sound) (sound' : u.Sound) {takes : SentPacket Retransmit → Bool}
    (left : Left takes t.live u.live []) : u.live = t.live.filter (!takes ·) := by
  have apart {l : List (SentPacket Retransmit)} (ascending : l.Pairwise (fun p q => p.pn < q.pn)) : l.Nodup :=
    ascending.imp fun less same => absurd (congrArg SentPacket.pn same) less.ne
  have kept := (live_ascending sound).filter (!takes ·)
  have perm : u.live.Perm (t.live.filter (!takes ·)) := by
    refine (List.perm_ext_iff_of_nodup (apart (live_ascending sound')) (apart kept)).mpr fun p => ?_
    rw [left p,List.mem_filter]
    simp
  exact perm.eq_of_pairwise (fun p q _ _ less more => absurd less more.asymm) (live_ascending sound') kept

theorem filter_twice (l : List (SentPacket Retransmit)) (first second : SentPacket Retransmit → Bool) :
    (l.filter first ++ (l.filter (!first ·)).filter second).Perm (l.filter fun p => first p || second p) ∧
      (l.filter (!first ·)).filter (!second ·) = l.filter fun p => !(first p || second p) := by
  constructor
  · induction l with
    | nil => exact .nil
    | cons p rest ih =>
      cases one : first p with
      | true =>
        rw [List.filter_cons_of_pos one,List.filter_cons_of_neg (by simp [one]),List.filter_cons_of_pos (by simp [one])]
        exact ih.cons p
      | false =>
        rw [List.filter_cons_of_neg (by simp [one]),List.filter_cons_of_pos (by simp [one])]
        cases two : second p with
        | true =>
          rw [List.filter_cons_of_pos two,List.filter_cons_of_pos (by simp [two])]
          exact List.perm_middle.trans (ih.cons p)
        | false =>
          rw [List.filter_cons_of_neg (by simp [two]),List.filter_cons_of_neg (by simp [one,two])]
          exact ih
  · rw [List.filter_filter]
    congr 1
    funext p
    cases first p <;> cases second p <;> rfl

theorem lowerBound_split (sound : t.Sound) (pn : Nat) :
    (t.lowerBound pn = none ∧ ∀ p ∈ t.slots, p.pn < pn) ∨ ∃ before after, t.lowerBound pn = some before.length ∧
      t.slots = before ++ after ∧ (∀ p ∈ before, p.pn < pn) ∧ ∀ p ∈ after, pn ≤ p.pn := by
  let below : Nat → Bool := fun i => decide (t.pnAt i < pn)
  have length := sound.length_slots
  obtain ⟨_,within⟩ := Search.lowerBound_range below t.count 0 t.count (Nat.zero_le _)
  obtain ⟨less,notLess⟩ := Search.lowerBound_split below t.count 0 t.count (by omega) (by
    intro i j ordered bound small
    rcases Nat.lt_or_eq_of_le ordered with before | rfl
    · have up := sound.pn_lt before bound
      simp only [below,decide_eq_true_eq] at small ⊢
      omega
    · exact small)
  have found : t.lowerBound pn = if Search.lowerBound below t.count 0 t.count ≥ t.count then none
      else some (Search.lowerBound below t.count 0 t.count) := rfl
  generalize Search.lowerBound below t.count 0 t.count = lo at less notLess within found
  have small : ∀ i, i < lo → ∀ p, t.slots[i]? = some p → p.pn < pn := by
    intro i before p slot
    have := less i (Nat.zero_le i) before
    simpa [below,sound.pnAt slot] using this
  have large : ∀ i, lo ≤ i → ∀ p, t.slots[i]? = some p → pn ≤ p.pn := by
    intro i after p slot
    have bound := (List.getElem?_eq_some_iff.mp slot).1
    have := notLess i after (by omega)
    simpa [below,sound.pnAt slot] using this
  rw [found]
  split
  · rename_i past
    refine .inl ⟨rfl,fun p member => ?_⟩
    obtain ⟨i,slot⟩ := List.getElem?_of_mem member
    have bound := (List.getElem?_eq_some_iff.mp slot).1
    exact small i (by omega) p slot
  · refine .inr ⟨t.slots.take lo,t.slots.drop lo,?_,(List.take_append_drop lo _).symm,fun p member => ?_,fun p member => ?_⟩
    · rw [List.length_take,length,Nat.min_eq_left within]
    · obtain ⟨i,slot⟩ := List.getElem?_of_mem member
      have bound := (List.getElem?_eq_some_iff.mp slot).1
      rw [List.length_take] at bound
      rw [List.getElem?_take_of_lt (by omega)] at slot
      exact small i (by omega) p slot
    · obtain ⟨i,slot⟩ := List.getElem?_of_mem member
      rw [List.getElem?_drop] at slot
      exact large (lo+i) (Nat.le_add_right lo i) p slot

def inside (interval : Frame.Interval) (p : SentPacket Retransmit) : Bool :=
  decide (interval.smallest ≤ p.pn ∧ p.pn ≤ interval.largest)

theorem removeInterval_spec (sound : t.Sound) (largestAcked : Nat) (interval : Frame.Interval) (ctx : AckProcessing) :
    ∃ u, removeInterval largestAcked interval ctx t =
        some ((t.live.filter (inside interval)).foldl (collectAckedPacket largestAcked) ctx,u) ∧ u.Sound ∧
      u.live = t.live.filter (!inside interval ·) := by
  unfold removeInterval
  obtain ⟨none,below⟩ | ⟨before,after,found,slots,below,above⟩ := lowerBound_split sound interval.smallest
  · have outside : ∀ p ∈ t.live, inside interval p = false := by
      intro p member
      have := below p (List.mem_of_mem_filter member)
      simp only [inside,decide_eq_false_iff_not]
      omega
    rw [none]
    refine ⟨t,?_,sound,?_⟩
    · rw [List.filter_eq_nil_iff.mpr fun p member => by simp [outside p member]]
      rfl
    · rw [List.filter_eq_self.mpr fun p member => by simp [outside p member]]
  · rw [found]
    dsimp only
    obtain ⟨run,tail,rfl,covered,beyond⟩ : ∃ run tail, after = run ++ tail ∧ (∀ p ∈ run, p.pn ≤ interval.largest) ∧
        ∀ p ∈ tail, interval.largest < p.pn := by
      have ascending : (after.map SentPacket.pn).Pairwise (· < ·) := by
        have whole := sound.ascending
        rw [slots,List.map_append] at whole
        exact (List.pairwise_append.mp whole).2.1
      refine ⟨_,_,(List.takeWhile_append_dropWhile (p := fun p => decide (p.pn ≤ interval.largest))).symm,fun p member => ?_,?_⟩
      · simpa using List.mem_takeWhile_imp member
      · have head := List.head?_dropWhile_not (fun p : SentPacket Retransmit => decide (p.pn ≤ interval.largest)) after
        rw [← List.takeWhile_append_dropWhile (p := fun p => decide (p.pn ≤ interval.largest)) (l := after),List.map_append] at ascending
        have pairs := (List.pairwise_append.mp ascending).2.1
        cases rest : after.dropWhile fun p => decide (p.pn ≤ interval.largest) with
        | nil => exact fun _ member => absurd member List.not_mem_nil
        | cons first more =>
          rw [rest] at head pairs
          have beyond : interval.largest < first.pn := by simpa using head
          intro p member
          rcases List.mem_cons.mp member with rfl | later
          · exact beyond
          · exact beyond.trans ((List.pairwise_cons.mp pairs).1 p.pn (List.mem_map_of_mem later))
    have length := sound.length_slots
    rw [slots,List.length_append,List.length_append] at length
    have whole : t.slots = before ++ run ++ tail := by rw [slots,List.append_assoc]
    have stop := runEnd_spec sound whole (show ∀ p ∈ run, decide (p.pn ≤ interval.largest) = true from
      fun p member => by simpa using covered p member) (fun p first => by simpa using beyond p (List.mem_of_mem_head? first))
    rw [stop]
    obtain ⟨u,middle',removed,sound',_,slots',left⟩ := sound.removeLoop (collecting (collectAckedPacket largestAcked)) ctx
      whole
    rw [hand_collecting] at removed left
    have front : ∀ p ∈ before.filter SentPacket.alive, inside interval p = false := by
      intro p member
      have := below p (List.mem_of_mem_filter member)
      simp only [inside,decide_eq_false_iff_not]
      omega
    have middle : ∀ p ∈ run.filter SentPacket.alive, inside interval p = true := by
      intro p member
      have member' := List.mem_of_mem_filter member
      simpa [inside] using ⟨above p (List.mem_append_left _ member'),covered p member'⟩
    have back : ∀ p ∈ tail.filter SentPacket.alive, inside interval p = false := by
      intro p member
      have := beyond p (List.mem_of_mem_filter member)
      simp only [inside,decide_eq_false_iff_not]
      omega
    have live : t.live = before.filter SentPacket.alive ++ (run.filter SentPacket.alive ++ tail.filter SentPacket.alive) := by
      unfold SentPacketTracker.live
      rw [slots,List.filter_append,List.filter_append]
    have taken : t.live.filter (inside interval) = run.filter SentPacket.alive := by
      have none : (before.filter SentPacket.alive).filter (inside interval) = [] :=
        List.filter_eq_nil_iff.mpr fun p member => by simp [front p member]
      have none' : (tail.filter SentPacket.alive).filter (inside interval) = [] :=
        List.filter_eq_nil_iff.mpr fun p member => by simp [back p member]
      rw [live,List.filter_append,List.filter_append,none,none',List.filter_eq_self.mpr middle,List.nil_append,List.append_nil]
    have stays : t.live.filter (!inside interval ·) = before.filter SentPacket.alive ++ tail.filter SentPacket.alive := by
      have all : (before.filter SentPacket.alive).filter (!inside interval ·) = before.filter SentPacket.alive :=
        List.filter_eq_self.mpr fun p member => by simp [front p member]
      have all' : (tail.filter SentPacket.alive).filter (!inside interval ·) = tail.filter SentPacket.alive :=
        List.filter_eq_self.mpr fun p member => by simp [back p member]
      have none : (run.filter SentPacket.alive).filter (!inside interval ·) = [] :=
        List.filter_eq_nil_iff.mpr fun p member => by simp [middle p member]
      rw [live,List.filter_append,List.filter_append,all,all',none,List.nil_append]
    refine ⟨u,?_,sound',?_⟩
    · unfold SentPacketTracker.removeRangeWithError
      rw [if_pos ⟨Nat.le_add_right _ _,by omega⟩,Nat.add_sub_cancel_left,removed,taken]
      rfl
    · rw [stays]
      unfold SentPacketTracker.live
      rw [slots',List.filter_append,List.filter_append,left,List.append_nil]

/-- The intervals of a walk take out what they cover, one after the other. -/
theorem ackLoop_spec (sound : t.Sound) (largestAcked : Nat) (it : Frame.Iterator) (valid : it.walk.2 = none) (ctx : AckProcessing) :
    ∃ (removed : List (SentPacket Retransmit)) (u : SentPacketTracker Retransmit), ackLoop largestAcked it ctx t = some (.ok (removed.foldl (collectAckedPacket largestAcked) ctx),u) ∧ u.Sound ∧
      removed.Perm (t.live.filter fun p => it.walk.1.any (inside · p)) ∧
      u.live = t.live.filter fun p => !it.walk.1.any (inside · p) := by
  fun_induction Frame.Iterator.walk it generalizing t ctx with
  | case1 it e later step =>
    cases valid
  | case2 it later step =>
    refine ⟨[],t,?_,sound,by simp,by simp⟩
    rw [ackLoop]
    split
    · rename_i other
      rw [step] at other
      cases other
    · rfl
    · rename_i other
      rw [step] at other
      cases other
  | case3 it interval later step ih =>
    obtain ⟨u,taken,sound',live⟩ := removeInterval_spec sound largestAcked interval ctx
    obtain ⟨removed,v,looped,sound'',perm,live'⟩ := ih sound' valid
      ((t.live.filter (inside interval)).foldl (collectAckedPacket largestAcked) ctx)
    obtain ⟨both,rest⟩ := filter_twice t.live (inside interval) fun p => later.walk.1.any (inside · p)
    refine ⟨t.live.filter (inside interval) ++ removed,v,?_,sound'',?_,?_⟩
    · rw [List.foldl_append,← looped,ackLoop]
      split
      · rename_i other
        rw [step] at other
        cases other
      · rename_i other
        rw [step] at other
        cases other
      · rename_i other
        rw [step] at other
        cases other
        rw [taken]
    · rw [live] at perm
      exact (perm.append_left _).trans both
    · rw [live',live,rest]
      rfl

theorem processAck_spec (sound : t.Sound) (space : PnSpace) (ack : Frame.Ack) (valid : (Frame.iter ack).walk.2 = none) :
    ∃ (removed : List (SentPacket Retransmit)) (u : SentPacketTracker Retransmit), processAck t space ack =
        some (.ok (removed.foldl (collectAckedPacket ack.largestAcked) {}),space.onAckReceived ack.largestAcked,u) ∧ u.Sound ∧
      removed.Perm (t.live.filter (Acked ack)) ∧ u.live = t.live.filter (!Acked ack ·) := by
  obtain ⟨removed,u,looped,sound',perm,live⟩ := ackLoop_spec sound ack.largestAcked (Frame.iter ack) valid {}
  refine ⟨removed,u,?_,sound',perm,live⟩
  unfold processAck
  rw [looped]
  rfl

/-! Both sweeps. -/

def Fits (rtt : RttEstimator) : Prop := max rtt.latestRttUs rtt.smoothedRttUs*9 ≤ maxU64

theorem timeThresholdUs_eq {rtt : RttEstimator} (fits : Fits rtt) : timeThresholdUs rtt = some (threshold rtt) := by
  unfold timeThresholdUs threshold
  dsimp only
  rw [if_pos (show max rtt.latestRttUs rtt.smoothedRttUs*9 ≤ maxU64 from fits),Nat.mul_comm]

theorem reorder_threshold {rtt : RttEstimator} (fits : Fits rtt) : ReorderWindow.timeThresholdUs {} rtt = threshold rtt := by
  unfold Fits at fits
  unfold ReorderWindow.timeThresholdUs threshold saturatingAdd
  rw [if_neg (by decide)]
  dsimp only
  congr 1
  omega

theorem detectLosses_spec (sound : t.Sound) (space : PnSpace) {rtt : RttEstimator} (fits : Fits rtt) (nowUs : Nat) :
    ∃ u, detectLosses t space rtt nowUs =
        some ((t.live.filter (Lost space.largestAckedSent rtt nowUs)).foldl collectLostPacket {},u) ∧ u.Sound ∧
      u.live = t.live.filter (!Lost space.largestAckedSent rtt nowUs ·) := by
  unfold detectLosses
  cases space.largestAckedSent with
  | none =>
    rw [show t.live.filter (Lost none rtt nowUs) = [] from List.filter_false t.live]
    exact ⟨t,rfl,sound,(List.filter_true t.live).symm⟩
  | some largestAcked =>
    rw [timeThresholdUs_eq fits]
    have same : (fun p : SentPacket Retransmit => decide (p.pn ≤ largestAcked) &&
        isLost p largestAcked (if nowUs > threshold rtt then nowUs-threshold rtt else 0)) =
          Lost (some largestAcked) rtt nowUs := by
      funext p
      unfold isLost Lost packetThreshold
      rw [← Bool.decide_or,← Bool.decide_and]
      congr 1
      apply propext
      split <;> omega
    have ends : ∀ p q : SentPacket Retransmit, decide (p.pn > largestAcked) = true → p.pn ≤ q.pn →
        Lost (some largestAcked) rtt nowUs q = false := by
      intro p q stopped above
      simp only [decide_eq_true_eq] at stopped
      simp only [Lost,decide_eq_false_iff_not]
      omega
    obtain ⟨u,swept,sound',_,left⟩ := sweep_spec (collecting collectLostPacket) sound ends {}
    rw [hand_collecting] at swept left
    refine ⟨u,?_,sound',live_of_left sound sound' left⟩
    simp only [bind,Option.bind,same,swept]
    rfl

variable {handle : γ → SentPacket Retransmit → Except ε Unit × γ}

/-- Older than the time threshold. -/
def Late (largestAcked : Nat) (rtt : RttEstimator) (nowUs : Nat) (p : SentPacket Retransmit) : Bool :=
  decide (p.pn ≤ largestAcked ∧ p.sentTimeUs+threshold rtt < nowUs)

theorem lost_split (largestAcked : Nat) (rtt : RttEstimator) (nowUs : Nat) (p : SentPacket Retransmit) :
    Lost (some largestAcked) rtt nowUs p =
      ((LossPredicate.packetThreshold largestAcked 3).matches p || Late largestAcked rtt nowUs p) := by
  unfold Lost Late LossPredicate.matches
  dsimp only
  rw [← Bool.decide_or]
  congr 1
  apply propext
  omega

variable (handle) in
theorem timeSweep_spec (sound : t.Sound) (largestAcked : Nat) {rtt : RttEstimator} (fits : Fits rtt) (nowUs : Nat) (context : γ) :
    ∃ u, detectLossesByTimeThreshold handle (some largestAcked) {} rtt nowUs context t =
        some ((hand handle context (t.live.filter (Late largestAcked rtt nowUs))).1,
          (hand handle context (t.live.filter (Late largestAcked rtt nowUs))).2.1,u) ∧ u.Sound ∧
      Left (Late largestAcked rtt nowUs) t.live u.live (hand handle context (t.live.filter (Late largestAcked rtt nowUs))).2.2 := by
  unfold detectLossesByTimeThreshold
  rw [reorder_threshold fits]
  dsimp only
  split
  · rename_i early
    have none : ∀ p : SentPacket Retransmit, Late largestAcked rtt nowUs p = false := by
      intro p
      simp only [Late,decide_eq_false_iff_not]
      omega
    rw [List.filter_eq_nil_iff.mpr fun p _ => by simp [none p]]
    exact ⟨t,rfl,sound,fun p => ⟨fun member => ⟨member,.inl (none p)⟩,And.left⟩⟩
  · rename_i past
    have same : (LossPredicate.timeThreshold (some largestAcked) (nowUs-threshold rtt)).matches =
        @Late Retransmit largestAcked rtt nowUs := by
      funext p
      unfold Late LossPredicate.matches
      dsimp only
      congr 1
      apply propext
      omega
    obtain ⟨u,swept,sound',_,left⟩ := sweepLosses_spec handle sound
      (.timeThreshold (some largestAcked) (nowUs-threshold rtt)) context
    rw [same] at swept left
    exact ⟨u,swept,sound',left⟩

theorem left_stopped {before after rest : List (SentPacket Retransmit)} {first second : SentPacket Retransmit → Bool}
    (left : Left first before after rest) :
    Left (fun p => first p || second p) before after (rest ++ (before.filter (!first ·)).filter second) := by
  intro p
  rw [left p,List.mem_append,List.mem_filter,List.mem_filter]
  cases one : first p with
  | true => simp [one]
  | false =>
    cases two : second p with
    | true => simpa [one,two] using Or.inr
    | false => simp [one,two]

theorem left_twice {before after rest : List (SentPacket Retransmit)} {first second : SentPacket Retransmit → Bool}
    (within : rest ⊆ (before.filter (!first ·)).filter second) (left : Left second (before.filter (!first ·)) after rest) :
    Left (fun p => first p || second p) before after rest := by
  intro p
  have stood : p ∈ rest → first p = false := by
    intro member
    simpa using (List.mem_filter.mp (List.mem_of_mem_filter (within member))).2
  rw [left p,List.mem_filter]
  cases one : first p with
  | true =>
    have fell : p ∉ rest := fun member => by simp [stood member] at one
    simp [one,fell]
  | false => simp [one]

/-- The connection's two sweeps hand over the packets the reference declares lost, each once, unless the callback fails. -/
theorem sweepBoth_spec (sound : t.Sound) (largestAckedSent : Option Nat) {rtt : RttEstimator} (fits : Fits rtt) (nowUs : Nat)
    (context : γ) : ∃ (declared : List (SentPacket Retransmit)) (u : SentPacketTracker Retransmit),
      sweepBoth handle largestAckedSent {} rtt nowUs context t =
        some ((hand handle context declared).1,(hand handle context declared).2.1,u) ∧ u.Sound ∧
      declared.Perm (t.live.filter (Lost largestAckedSent rtt nowUs)) ∧
      Left (Lost largestAckedSent rtt nowUs) t.live u.live (hand handle context declared).2.2 := by
  cases largestAckedSent with
  | none =>
    have nobody (cutoff : Nat) : t.live.filter (LossPredicate.timeThreshold none cutoff).matches = [] :=
      List.filter_false t.live
    rw [show t.live.filter (Lost none rtt nowUs) = [] from List.filter_false t.live]
    unfold sweepBoth detectLossesByPacketThreshold detectLossesByTimeThreshold
    dsimp only
    split
    · exact ⟨[],t,rfl,sound,.nil,fun p => ⟨fun member => ⟨member,.inl rfl⟩,And.left⟩⟩
    · obtain ⟨u,swept,sound',_,left⟩ := sweepLosses_spec handle sound
        (.timeThreshold none (nowUs-ReorderWindow.timeThresholdUs {} rtt)) context
      rw [nobody] at swept left
      exact ⟨[],u,swept,sound',.nil,left⟩
  | some largestAcked =>
    have union : Lost (some largestAcked) rtt nowUs = fun p : SentPacket Retransmit =>
        (LossPredicate.packetThreshold largestAcked 3).matches p || Late largestAcked rtt nowUs p :=
      funext (lost_split largestAcked rtt nowUs)
    obtain ⟨both,stand⟩ := filter_twice t.live (LossPredicate.packetThreshold largestAcked 3).matches (Late largestAcked rtt nowUs)
    obtain ⟨u,swept,sound',_,left⟩ := sweepLosses_spec handle sound (.packetThreshold largestAcked 3) context
    unfold sweepBoth detectLossesByPacketThreshold
    dsimp only
    rw [swept,union]
    rcases handed : hand handle context (t.live.filter (LossPredicate.packetThreshold largestAcked 3).matches) with ⟨answer,context',undone⟩
    rw [handed] at left
    cases answer with
    | error e =>
      refine ⟨_,u,?_,sound',both,fun p => ?_⟩
      · rw [hand_append,handed]
      · rw [hand_append,handed]
        exact left_stopped left p
    | ok _ =>
      obtain rfl := hand_ok handed
      have live := live_of_left sound sound' left
      obtain ⟨v,swept',sound'',left'⟩ := timeSweep_spec handle sound' largestAcked fits nowUs context'
      rw [live] at swept' left'
      refine ⟨_,v,?_,sound'',both,fun p => ?_⟩
      · rw [hand_append,handed]
        exact swept'
      · rw [hand_append,handed]
        exact left_twice (hand_subset (Prod.ext rfl (Prod.ext rfl rfl))) left' p

end

/-- An ACK takes out the packets it covers and no others. Where the reference's product fits, it takes out the packets that are
lost, and the two sweeps hand over the same ones, each once; a callback that fails keeps what was not handed over. -/
theorem sweeps_match_reference (t : SentPacketTracker Retransmit) (sound : t.Sound) :
    (∀ (space : PnSpace) (ack : Frame.Ack), (Frame.iter ack).walk.2 = none →
      ∃ (removed : List (SentPacket Retransmit)) (u : SentPacketTracker Retransmit), processAck t space ack =
          some (.ok (removed.foldl (collectAckedPacket ack.largestAcked) {}),space.onAckReceived ack.largestAcked,u) ∧ u.Sound ∧
        removed.Perm (t.live.filter (Acked ack)) ∧ u.live = t.live.filter (!Acked ack ·)) ∧
    ∀ (space : PnSpace) (rtt : RttEstimator) (nowUs : Nat), Fits rtt →
      (∃ u, detectLosses t space rtt nowUs =
          some ((t.live.filter (Lost space.largestAckedSent rtt nowUs)).foldl collectLostPacket {},u) ∧ u.Sound ∧
        u.live = t.live.filter (!Lost space.largestAckedSent rtt nowUs ·)) ∧
      ∀ {γ ε : Type} (handle : γ → SentPacket Retransmit → Except ε Unit × γ) (context : γ),
        ∃ (declared : List (SentPacket Retransmit)) (u : SentPacketTracker Retransmit),
          sweepBoth handle space.largestAckedSent {} rtt nowUs context t =
            some ((hand handle context declared).1,(hand handle context declared).2.1,u) ∧ u.Sound ∧
          declared.Perm (t.live.filter (Lost space.largestAckedSent rtt nowUs)) ∧
          Left (Lost space.largestAckedSent rtt nowUs) t.live u.live (hand handle context declared).2.2 :=
  ⟨fun space ack valid => processAck_spec sound space ack valid,fun space _ nowUs fits =>
    ⟨detectLosses_spec sound space fits nowUs,fun _ context => sweepBoth_spec sound space.largestAckedSent fits nowUs context⟩⟩

def four : SentPacketTracker Unit where
  packets := (List.range 4).map fun pn => {pn := pn,sentTimeUs := 0,bytes := 1200,ackEliciting := true,inFlight := true}
  count := 4
  bytesInFlight := 4800
  ackElicitingInFlight := 4800

theorem four_sound : four.Sound := ⟨by decide,.inl rfl,by decide,by decide,by decide,by decide⟩

theorem sweeps_match_reference_four :
    ∃ u, detectLosses four {largestAckedSent := some 3} {} 0 =
        some ((four.live.filter (Lost (some 3) {} 0)).foldl collectLostPacket {},u) ∧ u.Sound ∧
      u.live = four.live.filter (!Lost (some 3) {} 0 ·) :=
  ((sweeps_match_reference four four_sound).2 {largestAckedSent := some 3} {} 0 (by unfold Fits; decide)).1

/-- With an RTT of 2^61 microseconds the reference overflows; the sweeps saturate, and declare packet 0 lost. -/
theorem reference_overflows :
    detectLosses four {largestAckedSent := some 3} {latestRttUs := 2^61} 0 = none ∧
      (sweepBoth (collecting collectLostPacket) (some 3) {} {latestRttUs := 2^61} 0 {} four).map (·.2.1.count) = some 1 := by
  decide +kernel

end QuicZig.Conn.LossReference
