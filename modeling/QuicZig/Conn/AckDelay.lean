import QuicZig.Conn.AckFrame
import QuicZig.Conn.RecvPacket

/-! The delayed acknowledgements of a tracker. An ack-eliciting packet waits from its receipt until an ACK is emitted, and
while one waits the tracker asks for an ACK or its timer runs from no later than that receipt. -/
namespace QuicZig.Conn.AckDelay
open QuicZig.Machine
open QuicZig.Frame (Ack EcnCounts)
open QuicZig.Spans (separated_nil)
open QuicZig.Conn.AckTracker
open QuicZig.System (Reaches)

/-- An ack-eliciting packet with the clock, in both of its units, that it was received at. -/
structure Receipt where
  pn : Nat
  us : Nat
  ms : Nat
  deriving DecidableEq

/-- `uncovered` are the ack-eliciting packets that no ACK emitted later has named, `waiting` those that no ACK was emitted
after, `us` and `ms` the clock of the last receipt. -/
structure History where
  tracker : AckTracker
  us : Nat := 0
  ms : Nat := 0
  uncovered : List Receipt := []
  waiting : List Receipt := []

inductive Event where
  | add (e : AckRun.Event)
  | receive (granted : Bool) (conn : RecvPacket.Connection) (p : RecvPacket.Opened)
  | promoteDelayedAck (nowMs maxAckDelayMs : Nat)
  | promoteDelayedAckUs (nowUs maxAckDelayUs : Nat)
  | emit (ackDelayScaled bufferLen maxRangesBytes maxLowerRanges : Nat) (ecnCounts : Option EcnCounts)

def receipt : AckRun.Addition → Receipt × Bool
  | .addPacketUs pn nowUs ackEliciting => (⟨pn,nowUs,nowUs/1000⟩,ackEliciting)
  | .addPacket pn nowMs ackEliciting => (⟨pn,min (nowMs*1000) maxU64,nowMs⟩,ackEliciting)
  | .addPacketDelayed pn nowMs ackEliciting _ nowUs _ _ =>
    (⟨pn,if nowUs ≠ 0 then nowUs else min (nowMs*1000) maxU64,nowMs⟩,ackEliciting)
  | .add pn nowMs => (⟨pn,min (nowMs*1000) maxU64,nowMs⟩,true)

/-- The packet is new to the tracker and asks for an acknowledgement. -/
def newlyElicits (t : AckTracker) (e : AckRun.Event) : Bool := (t.insert e.granted e.call.pn).1 && (receipt e.call).2

def names (frame : Ack) (pn : Nat) : Bool :=
  (Frame.iter frame).walk.1.any fun i => decide (i.smallest ≤ pn ∧ pn ≤ i.largest)

/-- The packet builder marks the ACK as sent once its frame is written. -/
def step (h : History) : Event → History
  | .add e =>
    let new := if newlyElicits h.tracker e then [(receipt e.call).1] else []
    {tracker := e.apply h.tracker,us := (receipt e.call).1.us,ms := (receipt e.call).1.ms,uncovered := new ++ h.uncovered,
     waiting := new ++ h.waiting}
  | .receive granted conn p =>
    let new := if (h.tracker.insert granted p.pn).1 && (Frame.classifyPayload p.payload).ackEliciting then
      [⟨p.pn,p.nowUs,p.nowUs/1000⟩] else []
    {tracker := (RecvPacket.record granted conn {received := h.tracker} p).received,us := p.nowUs,ms := p.nowUs/1000,
     uncovered := new ++ h.uncovered,waiting := new ++ h.waiting}
  | .promoteDelayedAck nowMs maxAckDelayMs => {h with tracker := (h.tracker.promoteDelayedAck nowMs maxAckDelayMs).2}
  | .promoteDelayedAckUs nowUs maxAckDelayUs => {h with tracker := (h.tracker.promoteDelayedAckUs nowUs maxAckDelayUs).2}
  | .emit ackDelayScaled bufferLen maxRangesBytes maxLowerRanges ecnCounts =>
    match h.tracker.toAckFrameLimitedRangesWithEcn ackDelayScaled bufferLen maxRangesBytes maxLowerRanges ecnCounts with
    | .error _ => h
    | .ok frame =>
      {h with
        tracker := h.tracker.markAckSent
        uncovered := h.uncovered.filter fun r => !names frame r.pn
        waiting := []}

def Fresh (h : History) : Prop := ∃ allocator, h = {tracker := {allocator := allocator}}

/-- Packets are received with a clock that does not go back. -/
def Clocked (h : History) : Event → Prop
  | .add e => h.us ≤ (receipt e.call).1.us ∧ h.ms ≤ (receipt e.call).1.ms
  | .receive _ _ p => h.us ≤ p.nowUs ∧ h.ms ≤ p.nowUs/1000
  | _ => True

/-- The start that the microsecond timer reads. -/
def startUs (t : AckTracker) : Nat :=
  if t.delayedAckStartUs ≠ 0 then t.delayedAckStartUs else min (t.delayedAckStartMs*1000) maxU64

/-- An ACK is asked for, or the timer runs since no later than the receipt. -/
def Scheduled (t : AckTracker) (r : Receipt) : Prop :=
  t.pendingAck = true ∨ (t.delayedAckArmed = true ∧ startUs t ≤ r.us ∧ t.delayedAckStartMs ≤ r.ms)

instance (t : AckTracker) (r : Receipt) : Decidable (Scheduled t r) := inferInstanceAs (Decidable (_ ∨ _))

structure SameSchedule (before t : AckTracker) : Prop where
  pending : t.pendingAck = before.pendingAck
  armed : t.delayedAckArmed = before.delayedAckArmed
  us : t.delayedAckStartUs = before.delayedAckStartUs
  ms : t.delayedAckStartMs = before.delayedAckStartMs

/-- A new ack-eliciting packet leaves an ACK asked for or the timer armed; an armed timer keeps its start, and one that was not
armed starts at the receipt. -/
structure Arms (before t : AckTracker) (r : Receipt) : Prop where
  either : t.pendingAck = true ∨ t.delayedAckArmed = true
  pending : before.pendingAck = true → t.pendingAck = true
  running : t.delayedAckArmed = true →
    (before.delayedAckArmed = true ∧ t.delayedAckStartUs = before.delayedAckStartUs ∧
      t.delayedAckStartMs = before.delayedAckStartMs) ∨
    (before.delayedAckArmed = false ∧ startUs t = r.us ∧ t.delayedAckStartMs = r.ms)

theorem insert_schedule (granted : Bool) (t : AckTracker) (pn : Nat) (sorted : Sorted t.slots) (fits : t.rangeCount ≤ t.capacity) :
    SameSchedule t (t.insert granted pn).2 := by
  rcases insert_spec granted t pn sorted fits with ⟨_,_,same⟩ | ⟨_,_,effect⟩
  · rw [same]
    exact ⟨rfl,rfl,rfl,rfl⟩
  · obtain ⟨slots,heap,frame⟩ := effect.frame
    rw [frame]
    exact ⟨rfl,rfl,rfl,rfl⟩

/-- What recording a packet does to the schedule, given that it is new and ack-eliciting or not. -/
def Outcome (before t : AckTracker) (r : Receipt) (new : Bool) : Prop :=
  if new then Arms before t r else SameSchedule before t

theorem Outcome.later {before t after : AckTracker} {r : Receipt} {new : Bool} (outcome : Outcome before t r new)
    (same : SameSchedule t after) : Outcome before after r new := by
  obtain ⟨pending,armed,us,ms⟩ := same
  have start : startUs after = startUs t := by
    unfold startUs
    rw [us,ms]
  cases new with
  | false => exact ⟨pending.trans outcome.pending,armed.trans outcome.armed,us.trans outcome.us,ms.trans outcome.ms⟩
  | true =>
    obtain ⟨either,still,running⟩ := outcome
    refine ⟨by rwa [pending,armed],fun before => by rw [pending]; exact still before,fun runs => ?_⟩
    rw [us,ms,start]
    exact running (armed ▸ runs)

theorem addPacketUs_outcome {t : AckTracker} (sorted : Sorted t.slots) (fits : t.rangeCount ≤ t.capacity) (granted : Bool)
    (pn nowUs : Nat) (ackEliciting : Bool) {r : Receipt} :
    Outcome t (t.addPacketUs granted pn nowUs ackEliciting) r ((t.insert granted pn).1 && ackEliciting) := by
  have same := insert_schedule granted t pn sorted fits
  unfold addPacketUs Outcome
  generalize t.insert granted pn = result at same ⊢
  rcases result with ⟨inserted,after⟩
  obtain ⟨pending,armed,us,ms⟩ := same
  cases inserted with
  | false => exact ⟨pending,armed,us,ms⟩
  | true =>
    cases ackEliciting with
    | true => exact ⟨.inl rfl,fun _ => rfl,nofun⟩
    | false => cases t.raisesLargest pn <;> exact ⟨pending,armed,us,ms⟩

theorem addPacket_outcome {t : AckTracker} (sorted : Sorted t.slots) (fits : t.rangeCount ≤ t.capacity) (granted : Bool)
    (pn nowMs : Nat) (ackEliciting : Bool) {r : Receipt} :
    Outcome t (t.addPacket granted pn nowMs ackEliciting) r ((t.insert granted pn).1 && ackEliciting) := by
  have outcome := addPacketUs_outcome sorted fits granted pn (min (nowMs*1000) maxU64) ackEliciting (r := r)
  unfold addPacket
  dsimp only
  split
  · exact outcome.later ⟨rfl,rfl,rfl,rfl⟩
  · exact outcome

theorem armDelayed_arms {before t : AckTracker} (same : SameSchedule before t) (previous : AckTracker)
    (pn nowMs packetThreshold nowUs quickGapUs reorderThreshold : Nat) :
    let effectiveUs := if nowUs ≠ 0 then nowUs else min (nowMs*1000) maxU64
    Arms before (t.armDelayed previous pn nowMs packetThreshold nowUs effectiveUs quickGapUs reorderThreshold)
      ⟨pn,effectiveUs,nowMs⟩ := by
  intro effectiveUs
  have start : (if effectiveUs ≠ 0 then effectiveUs else min (nowMs*1000) maxU64) = effectiveUs := by
    unfold effectiveUs maxU64
    grind
  obtain ⟨pending,armed,us,ms⟩ := same
  unfold armDelayed
  dsimp only
  split
  · rename_i already
    exact ⟨.inl already,fun _ => already,fun runs => .inl ⟨armed ▸ runs,us,ms⟩⟩
  · rename_i notYet
    have idle : before.pendingAck ≠ true := by
      rw [← pending]
      exact notYet
    cases running : t.delayedAckArmed with
    | true =>
      simp only [Bool.not_true,Bool.false_eq_true,if_false]
      split
      · exact ⟨.inl rfl,fun _ => rfl,fun _ => .inl ⟨armed ▸ running,us,ms⟩⟩
      · exact ⟨.inr rfl,fun pending => absurd pending idle,fun _ => .inl ⟨armed ▸ running,us,ms⟩⟩
    | false =>
      simp only [Bool.not_false,if_true]
      split
      · exact ⟨.inl rfl,fun _ => rfl,fun _ => .inr ⟨armed ▸ running,start,rfl⟩⟩
      · exact ⟨.inr rfl,fun pending => absurd pending idle,fun _ => .inr ⟨armed ▸ running,start,rfl⟩⟩

theorem addPacketDelayed_outcome {t : AckTracker} (sorted : Sorted t.slots) (fits : t.rangeCount ≤ t.capacity) (granted : Bool)
    (pn nowMs : Nat) (ackEliciting : Bool) (packetThreshold nowUs quickGapUs reorderThreshold : Nat) :
    Outcome t (t.addPacketDelayed granted pn nowMs ackEliciting packetThreshold nowUs quickGapUs reorderThreshold)
      ⟨pn,if nowUs ≠ 0 then nowUs else min (nowMs*1000) maxU64,nowMs⟩ ((t.insert granted pn).1 && ackEliciting) := by
  have same := insert_schedule granted t pn sorted fits
  unfold addPacketDelayed Outcome
  generalize t.insert granted pn = result at same ⊢
  rcases result with ⟨inserted,after⟩
  obtain ⟨pending,armed,us,ms⟩ := same
  cases inserted with
  | false => exact ⟨pending,armed,us,ms⟩
  | true =>
    cases ackEliciting with
    | false => cases t.raisesLargest pn <;> exact ⟨pending,armed,us,ms⟩
    | true =>
      cases t.raisesLargest pn with
      | false => exact armDelayed_arms ⟨pending,armed,us,ms⟩ t pn nowMs packetThreshold nowUs quickGapUs reorderThreshold
      | true =>
        have kept : SameSchedule t {after with
            largest := some pn
            largestAtMs := nowMs
            largestAtUs := if nowUs ≠ 0 then nowUs else min (nowMs*1000) maxU64} :=
          ⟨pending,armed,us,ms⟩
        exact armDelayed_arms kept t pn nowMs packetThreshold nowUs quickGapUs reorderThreshold

theorem apply_outcome {t : AckTracker} (tidy : Tidy t) (e : AckRun.Event) :
    Outcome t (e.apply t) (receipt e.call).1 (newlyElicits t e) := by
  obtain ⟨sorted,fits⟩ := tidy
  rcases e with ⟨call,granted⟩
  cases call with
  | addPacketUs => exact addPacketUs_outcome sorted fits ..
  | addPacket => exact addPacket_outcome sorted fits ..
  | addPacketDelayed => exact addPacketDelayed_outcome sorted fits ..
  | add => exact addPacket_outcome sorted fits ..

def addition (conn : RecvPacket.Connection) (p : RecvPacket.Opened) : AckRun.Addition :=
  let cls := Frame.classifyPayload p.payload
  match p.lvl with
  | .initial | .handshake => .addPacketUs p.pn p.nowUs cls.ackEliciting
  | .earlyData | .application =>
    if cls.ackEliciting && cls.needsImmediateAck then .addPacketUs p.pn p.nowUs true
    else .addPacketDelayed p.pn (p.nowUs/1000) cls.ackEliciting conn.effectiveAckThreshold p.nowUs conn.ackQuickGapUs
      conn.effectiveReorderThreshold

theorem record_addition (granted : Bool) (conn : RecvPacket.Connection) (t : AckTracker) (p : RecvPacket.Opened) :
    (RecvPacket.record granted conn {received := t} p).received = (AckRun.Event.mk (addition conn p) granted).apply t := by
  rcases p with ⟨lvl,pathId,pn,payload,nowUs⟩
  unfold RecvPacket.record RecvPacket.recordApplicationReceivedPacket addition
  cases lvl with
  | initial | handshake => rfl
  | earlyData | application =>
    dsimp only
    split <;> rfl

theorem receipt_addition (conn : RecvPacket.Connection) (p : RecvPacket.Opened) : (addition conn p).pn = p.pn ∧
    receipt (addition conn p) = (⟨p.pn,p.nowUs,p.nowUs/1000⟩,(Frame.classifyPayload p.payload).ackEliciting) := by
  rcases p with ⟨lvl,pathId,pn,payload,nowUs⟩
  have clock : (if nowUs ≠ 0 then nowUs else min (nowUs/1000*1000) maxU64) = nowUs := by
    split
    · rfl
    · omega
  unfold addition
  cases lvl with
  | initial | handshake => exact ⟨rfl,rfl⟩
  | earlyData | application =>
    dsimp only
    split
    · rename_i both
      rw [(Bool.and_eq_true_iff.mp both).1]
      exact ⟨rfl,rfl⟩
    · refine ⟨rfl,?_⟩
      simp only [receipt,clock]

theorem receive_eq_add (h : History) (granted : Bool) (conn : RecvPacket.Connection) (p : RecvPacket.Opened) :
    step h (.receive granted conn p) = step h (.add ⟨addition conn p,granted⟩) := by
  obtain ⟨pn,receipt⟩ := receipt_addition conn p
  simp only [step,newlyElicits,record_addition,receipt,pn]

/-- The timer does not run from a later time than the clock's, and everything that waits is scheduled. -/
structure Kept (h : History) : Prop where
  tidy : Tidy h.tracker
  started : h.tracker.delayedAckArmed = true → startUs h.tracker ≤ h.us ∧ h.tracker.delayedAckStartMs ≤ h.ms
  scheduled : ∀ r ∈ h.waiting, Scheduled h.tracker r

theorem SameSchedule.scheduled {before t : AckTracker} (same : SameSchedule before t) {r : Receipt} (scheduled : Scheduled before r) :
    Scheduled t r := by
  unfold Scheduled startUs at scheduled ⊢
  rwa [same.pending,same.armed,same.us,same.ms]

/-- A promotion takes the timer away only for an ACK that is asked for. -/
structure Promotes (before t : AckTracker) : Prop where
  tidy : t.slots = before.slots ∧ t.capacity = before.capacity
  either : SameSchedule before t ∨ (t.pendingAck = true ∧ t.delayedAckArmed = false)

theorem promoteDelayedAck_promotes (t : AckTracker) (nowMs maxAckDelayMs : Nat) :
    Promotes t (t.promoteDelayedAck nowMs maxAckDelayMs).2 := by
  unfold promoteDelayedAck
  split
  · exact ⟨⟨rfl,rfl⟩,.inl ⟨rfl,rfl,rfl,rfl⟩⟩
  · split
    · exact ⟨⟨rfl,rfl⟩,.inl ⟨rfl,rfl,rfl,rfl⟩⟩
    · exact ⟨⟨rfl,rfl⟩,.inr ⟨rfl,rfl⟩⟩

theorem promoteDelayedAckUs_promotes (t : AckTracker) (nowUs maxAckDelayUs : Nat) :
    Promotes t (t.promoteDelayedAckUs nowUs maxAckDelayUs).2 := by
  unfold promoteDelayedAckUs
  generalize (if t.delayedAckStartUs ≠ 0 then t.delayedAckStartUs else min (t.delayedAckStartMs*1000) maxU64) = start
  dsimp only
  split
  · exact ⟨⟨rfl,rfl⟩,.inl ⟨rfl,rfl,rfl,rfl⟩⟩
  · split
    · exact ⟨⟨rfl,rfl⟩,.inl ⟨rfl,rfl,rfl,rfl⟩⟩
    · exact ⟨⟨rfl,rfl⟩,.inr ⟨rfl,rfl⟩⟩

theorem kept_promotes {h : History} (kept : Kept h) {t : AckTracker} (promotes : Promotes h.tracker t) :
    Kept {h with tracker := t} := by
  obtain ⟨⟨slots,capacity⟩,either⟩ := promotes
  have tidy : Tidy t := by
    refine ⟨slots ▸ kept.tidy.sorted,?_⟩
    unfold rangeCount
    rw [slots,capacity]
    exact kept.tidy.fits
  rcases either with same | ⟨pending,idle⟩
  · refine ⟨tidy,fun armed => ?_,fun r member => same.scheduled (kept.scheduled r member)⟩
    have started := kept.started (same.armed ▸ armed)
    unfold startUs at started ⊢
    rwa [same.us,same.ms]
  · refine ⟨tidy,fun armed => ?_,fun _ _ => .inl pending⟩
    rw [idle] at armed
    cases armed

theorem kept_add {h : History} (kept : Kept h) {e : AckRun.Event} (us : h.us ≤ (receipt e.call).1.us)
    (ms : h.ms ≤ (receipt e.call).1.ms) : Kept (step h (.add e)) := by
  have outcome := apply_outcome kept.tidy e
  have tidy : Tidy (e.apply h.tracker) := tidy_call h.tracker (.add e) kept.tidy
  cases new : newlyElicits h.tracker e with
  | false =>
    rw [new] at outcome
    simp only [step,new,Bool.false_eq_true,if_false,List.nil_append]
    have same : SameSchedule h.tracker (e.apply h.tracker) := outcome
    refine ⟨tidy,fun armed => ?_,fun r member => same.scheduled (kept.scheduled r member)⟩
    have started := kept.started (same.armed ▸ armed)
    unfold startUs at started ⊢
    rw [same.us,same.ms]
    exact ⟨started.1.trans us,started.2.trans ms⟩
  | true =>
    rw [new] at outcome
    simp only [step,new,if_true,List.cons_append,List.nil_append]
    have arms : Arms h.tracker (e.apply h.tracker) (receipt e.call).1 := outcome
    have started : (e.apply h.tracker).delayedAckArmed = true →
        startUs (e.apply h.tracker) ≤ (receipt e.call).1.us ∧ (e.apply h.tracker).delayedAckStartMs ≤ (receipt e.call).1.ms := by
      intro armed
      rcases arms.running armed with ⟨before,sameUs,sameMs⟩ | ⟨idle,now,nowMs⟩
      · have earlier := kept.started before
        unfold startUs at earlier ⊢
        rw [sameUs,sameMs]
        exact ⟨earlier.1.trans us,earlier.2.trans ms⟩
      · exact ⟨now.le,nowMs.le⟩
    refine ⟨tidy,started,fun r member => ?_⟩
    rcases List.mem_cons.mp member with rfl | older
    · exact arms.either.imp_right fun armed => ⟨armed,started armed⟩
    · rcases kept.scheduled r older with pending | ⟨armed,early,earlyMs⟩
      · exact .inl (arms.pending pending)
      · refine arms.either.imp_right fun runs => ⟨runs,?_⟩
        rcases arms.running runs with ⟨_,sameUs,sameMs⟩ | ⟨idle,now,nowMs⟩
        · unfold startUs at early ⊢
          rw [sameUs,sameMs]
          exact ⟨early,earlyMs⟩
        · rw [armed] at idle
          cases idle

theorem kept_step {h : History} (kept : Kept h) {event : Event} (allowed : Clocked h event) : Kept (step h event) := by
  cases event with
  | add e => exact kept_add kept allowed.1 allowed.2
  | receive granted conn p =>
    obtain ⟨_,receipt⟩ := receipt_addition conn p
    rw [receive_eq_add]
    exact kept_add kept (by rw [receipt]; exact allowed.1) (by rw [receipt]; exact allowed.2)
  | promoteDelayedAck nowMs maxAckDelayMs => exact kept_promotes kept (promoteDelayedAck_promotes ..)
  | promoteDelayedAckUs nowUs maxAckDelayUs => exact kept_promotes kept (promoteDelayedAckUs_promotes ..)
  | emit ackDelayScaled bufferLen maxRangesBytes maxLowerRanges ecnCounts =>
    simp only [step]
    split
    · exact kept
    · exact ⟨tidy_call h.tracker .markAckSent kept.tidy,nofun,nofun⟩

theorem kept_run {h : History} (reached : Reaches Fresh step Clocked h) : Kept h := by
  apply reached.invariant Kept
  · intro h fresh
    obtain ⟨allocator,rfl⟩ := fresh
    exact ⟨⟨separated_nil,Nat.zero_le _⟩,nofun,nofun⟩
  · exact fun _ _ kept allowed => kept_step kept allowed

theorem promoteDelayedAckUs_due {t : AckTracker} {r : Receipt} (scheduled : Scheduled t r) {nowUs maxAckDelayUs : Nat}
    (due : saturatingAdd r.us maxAckDelayUs ≤ nowUs) : (t.promoteDelayedAckUs nowUs maxAckDelayUs).2.pendingAck = true := by
  unfold promoteDelayedAckUs
  rcases scheduled with pending | ⟨armed,start,_⟩
  · simp [pending]
  · unfold startUs at start
    unfold saturatingAdd at due ⊢
    dsimp only
    split
    · rename_i idle
      simpa [armed] using idle
    · rw [if_neg (by omega)]

theorem promoteDelayedAck_due {t : AckTracker} {r : Receipt} (scheduled : Scheduled t r) {nowMs maxAckDelayMs : Nat}
    (due : saturatingAdd r.ms maxAckDelayMs ≤ nowMs) : (t.promoteDelayedAck nowMs maxAckDelayMs).2.pendingAck = true := by
  unfold promoteDelayedAck
  rcases scheduled with pending | ⟨armed,_,start⟩
  · simp [pending]
  · unfold saturatingAdd at due ⊢
    split
    · rename_i idle
      simpa [armed] using idle
    · rw [if_neg (by omega)]

/-- The frame holds as many lower ranges as it may, or the next one does not fit its bytes. -/
def Limited (t : AckTracker) (bufferLen maxRangesBytes maxLowerRanges : Nat) (frame : Ack) : Prop :=
  frame.rangeCount = maxLowerRanges ∨
    min bufferLen maxRangesBytes < Frame.rangesEncodedLen (t.pairsOf.take (frame.rangeCount+1))

theorem frame_names {t : AckTracker} (tidy : Tidy t) {ackDelayScaled bufferLen maxRangesBytes maxLowerRanges : Nat}
    {ecnCounts : Option EcnCounts} {frame : Ack}
    (ok : t.toAckFrameLimitedRangesWithEcn ackDelayScaled bufferLen maxRangesBytes maxLowerRanges ecnCounts = .ok frame)
    {pn : Nat} (known : t.contains pn = true) :
    names frame pn = true ∨ (Limited t bufferLen maxRangesBytes maxLowerRanges frame ∧
      ∀ i ∈ (Frame.iter frame).walk.1, pn < i.smallest) := by
  obtain ⟨count,acknowledges,_⟩ := limited_acknowledges tidy.sorted ok
  obtain ⟨packs,rangeCount,fewer,_,walk⟩ := acknowledges
  have intervals : (Frame.iter frame).walk.1 = (t.slots.reverse.take (count+1)).map Range.interval := by rw [walk]
  obtain ⟨r,member,low,high⟩ := (containsFrom_iff pn t.slots tidy.sorted).mp known
  have top : pn ≤ r.largest := Nat.le_of_lt_succ high
  unfold names
  rw [intervals]
  rw [← List.mem_reverse,← List.take_append_drop (count+1) t.slots.reverse] at member
  rcases List.mem_append.mp member with taken | left
  · left
    exact List.any_eq_true.mpr ⟨r.interval,List.mem_map_of_mem taken,decide_eq_true ⟨low,top⟩⟩
  · right
    constructor
    · have pairs := length_pairsOf t
      have more := List.length_pos_of_mem left
      rw [List.length_drop,List.length_reverse] at more
      change 0 < t.rangeCount-(count+1) at more
      unfold Limited
      rw [rangeCount]
      rcases packs.stops with all | most | large
      · omega
      · exact .inl (by omega)
      · exact .inr (by omega)
    · have apart := (Sorted.falling tidy.sorted).apart
      rw [← List.take_append_drop (count+1) t.slots.reverse] at apart
      intro i named
      obtain ⟨upper,taken,rfl⟩ := List.mem_map.mp named
      have gap := (List.pairwise_append.mp apart).2.2 upper taken r left
      change pn < upper.smallest
      omega

/-- While an ack-eliciting packet waits for an ACK to be emitted, one is asked for or the timer runs from no later than its
receipt, so that a promotion after the delay asks for one. An ACK names all the tracker holds that its limits do not leave out. -/
theorem delayed_ack_kept (h : History) (reached : Reaches Fresh step Clocked h) :
    (∀ r ∈ h.waiting, Scheduled h.tracker r ∧
      (∀ nowUs maxAckDelayUs, saturatingAdd r.us maxAckDelayUs ≤ nowUs →
        (h.tracker.promoteDelayedAckUs nowUs maxAckDelayUs).2.pendingAck = true) ∧
      ∀ nowMs maxAckDelayMs, saturatingAdd r.ms maxAckDelayMs ≤ nowMs →
        (h.tracker.promoteDelayedAck nowMs maxAckDelayMs).2.pendingAck = true) ∧
    ∀ (ackDelayScaled bufferLen maxRangesBytes maxLowerRanges : Nat) (ecnCounts : Option EcnCounts) (frame : Ack),
      h.tracker.toAckFrameLimitedRangesWithEcn ackDelayScaled bufferLen maxRangesBytes maxLowerRanges ecnCounts = .ok frame →
      ∀ pn, h.tracker.contains pn = true → names frame pn = true ∨
        (Limited h.tracker bufferLen maxRangesBytes maxLowerRanges frame ∧ ∀ i ∈ (Frame.iter frame).walk.1, pn < i.smallest) := by
  have kept := kept_run reached
  constructor
  · intro r member
    have scheduled := kept.scheduled r member
    exact ⟨scheduled,fun _ _ due => promoteDelayedAckUs_due scheduled due,fun _ _ due => promoteDelayedAck_due scheduled due⟩
  · intro _ _ _ _ _ frame ok pn known
    exact frame_names kept.tidy ok known

def delayed (pn us : Nat) : Event := .add ⟨.addPacketDelayed pn (us/1000) true 10 us 0 1,false⟩

def run (events : List Event) : History := System.run step {tracker := {}} events

theorem delayed_ack_kept_armed :
    ((run [delayed 7 5000]).tracker.promoteDelayedAckUs 30000 25000).2.pendingAck = true := by
  have reached : Reaches Fresh step Clocked (run [delayed 7 5000]) :=
    .run _ (.start ⟨false,rfl⟩) ⟨⟨by decide,by decide⟩,trivial⟩
  exact ((delayed_ack_kept (run [delayed 7 5000]) reached).1 ⟨7,5000,5⟩ (by decide)).2.1 30000 25000 (by decide)

/-- Packet 5, received after packet 10, is left out of an ACK that has no bytes for a lower range. And a clock that goes back
finds the timer armed later than the receipt. -/
theorem left_out_forgotten :
    (¬∀ h, Reaches Fresh step Clocked h → ∀ r ∈ h.uncovered, Scheduled h.tracker r) ∧
    ¬∀ h, Reaches Fresh step (fun _ _ => True) h → ∀ r ∈ h.waiting, Scheduled h.tracker r := by
  constructor
  · intro always
    let events := [delayed 10 1000,delayed 5 2000,.emit 0 1200 0 255 none]
    have reached : Reaches Fresh step Clocked (run events) :=
      .run _ (.start ⟨false,rfl⟩) ⟨⟨by decide,by decide⟩,⟨by decide,by decide⟩,trivial,trivial⟩
    exact absurd (always _ reached ⟨5,2000,2⟩ (by decide +kernel)) (by decide +kernel)
  · intro always
    have reached : Reaches Fresh step (fun _ _ => True) (run [delayed 1 2000,delayed 2 1000]) :=
      .run _ (.start ⟨false,rfl⟩) ⟨trivial,trivial,trivial⟩
    exact absurd (always _ reached ⟨2,1000,1⟩ (by decide)) (by decide)

end QuicZig.Conn.AckDelay
