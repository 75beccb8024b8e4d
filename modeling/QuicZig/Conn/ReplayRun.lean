import QuicZig.Conn.RecvPacket

/-! Which packets of one space are dispatched twice, whatever the order of arrivals and replays. -/
namespace QuicZig.Conn.ReplayRun
open Machine Spans AckTracker RecvPacket

/-- What can happen to a space and to the connection around it. An authenticated packet comes with the
allocator's answer to a request for the heap block. -/
inductive Event where
  | packet (p : Opened) (granted : Bool)
  /-- Other parts of the connection set the fields that the tail of the packet handlers reads. -/
  | connection (lifecycle : Lifecycle) (lastRecvEcn : EcnCodepoint)
      (effectiveAckThreshold ackQuickGapUs effectiveReorderThreshold : Nat)
  | promoteDelayedAckUs (nowUs maxAckDelayUs : Nat)
  | markAckSent
  | ackReceived (ecnEnabled : Bool) (a : Frame.Ack)
  | packetSent (ecnEnabled ackEliciting : Bool)
  | dropSpaceRecoveryState
  /-- A path validation failed, or a retired path expired. -/
  | clearRecovery

/-- `dispatched` are the numbers whose frames were dispatched, latest first. A number is forgotten when its range
is dropped or the tracker is reset, until it is recorded again. -/
structure Endpoint where
  conn : Connection := {}
  space : PnSpace := {}
  dispatched : List Nat := []
  forgotten : Nat → Bool := fun _ => false

def receive (s : Endpoint) (p : Opened) (granted : Bool) : Endpoint :=
  let (verdict,conn,space) := finishOpenedPacket granted s.conn s.space p
  match verdict with
  | .attribution _ => {s with conn := conn,space := space}
  | .dispatch => {conn := conn,space := space,dispatched := p.pn::s.dispatched,
                  forgotten := fun x => decide (x ≠ p.pn) &&
                    (s.forgotten x || AckRun.forgets granted s.space.received p.pn x)}
  | .duplicate => {s with conn := conn,space := space,
                          forgotten := fun x => decide (x ≠ p.pn) &&
                            (s.forgotten x || AckRun.forgets granted s.space.received p.pn x)}

def step (s : Endpoint) : Event → Endpoint
  | .packet p granted => receive s p granted
  | .connection lifecycle lastRecvEcn effectiveAckThreshold ackQuickGapUs effectiveReorderThreshold =>
    {s with conn := {s.conn with
      lifecycle := lifecycle
      lastRecvEcn := lastRecvEcn
      effectiveAckThreshold := effectiveAckThreshold
      ackQuickGapUs := ackQuickGapUs
      effectiveReorderThreshold := effectiveReorderThreshold}}
  | .promoteDelayedAckUs nowUs maxAckDelayUs =>
    {s with space := {s.space with received := (s.space.received.promoteDelayedAckUs nowUs maxAckDelayUs).2}}
  | .markAckSent => {s with space := {s.space with received := s.space.received.markAckSent}}
  | .ackReceived ecnEnabled a => {s with space := (s.space.applyAck ecnEnabled a).getD s.space}
  | .packetSent ecnEnabled ackEliciting =>
    match s.space.allocatePn with
    | none => s
    | some (_,space) => {s with space := space.recordSent ecnEnabled ackEliciting}
  | .dropSpaceRecoveryState => {s with space := s.space.dropSpaceRecoveryState}
  | .clearRecovery =>
    {s with space := s.space.clearRecovery,
            forgotten := fun x => s.forgotten x || s.space.received.contains x}

def Fresh (s : Endpoint) : Prop := ∃ allocator, s = {space := {received := {allocator := allocator}}}

/-- The tracker knows a number just in case it was dispatched and not forgotten since. -/
structure Known (s : Endpoint) : Prop where
  sorted : Sorted s.space.received.slots
  fits : s.space.received.rangeCount ≤ s.space.received.capacity
  known : ∀ x, Covered s.space.received.slots x ↔ x ∈ s.dispatched ∧ s.forgotten x = false
  past : ∀ x, s.forgotten x = true → x ∈ s.dispatched

/-- No packet arrives whose number the tracker has forgotten; a closing connection records none at all. -/
def NotForgotten (s : Endpoint) : Event → Prop
  | .packet p _ => closingAttributionOnly s.conn = true ∨ s.forgotten p.pn = false
  | _ => True

theorem Known.contains {s : Endpoint} (known : Known s) (x : Nat) :
    s.space.received.contains x = true ↔ x ∈ s.dispatched ∧ s.forgotten x = false :=
  (containsFrom_iff x _ known.sorted).trans (known.known x)

theorem fresh_known (s : Endpoint) (fresh : Fresh s) : Known s := by
  obtain ⟨allocator,rfl⟩ := fresh
  exact ⟨separated_nil,Nat.zero_le _,by simp,by simp⟩

theorem Known.frame {s s' : Endpoint} (known : Known s) (slots : s'.space.received.slots = s.space.received.slots)
    (capacity : s'.space.received.capacity = s.space.received.capacity) (dispatched : s'.dispatched = s.dispatched)
    (forgotten : s'.forgotten = s.forgotten) : Known s' := by
  refine ⟨?_,?_,?_,?_⟩
  · rw [slots]
    exact known.sorted
  · unfold rangeCount
    rw [slots,capacity]
    exact known.fits
  · rw [slots,dispatched,forgotten]
    exact known.known
  · rw [dispatched,forgotten]
    exact known.past

/-- What a packet does when the connection is not closing. -/
structure Receives (s s' : Endpoint) (p : Opened) (granted : Bool) : Prop where
  received : ∃ call : AckRun.Addition, call.pn = p.pn ∧
    s'.space.received = (AckRun.Event.mk call granted).apply s.space.received
  dispatched : s'.dispatched = if s.space.received.contains p.pn then s.dispatched else p.pn::s.dispatched
  forgotten : ∀ x, s'.forgotten x =
    (decide (x ≠ p.pn) && (s.forgotten x || AckRun.forgets granted s.space.received p.pn x))

theorem receive_open {s : Endpoint} (p : Opened) (granted : Bool) (active : closingAttributionOnly s.conn = false) :
    Receives s (receive s p granted) p granted := by
  obtain ⟨call,number,recorded⟩ := record_addition granted s.conn s.space p
  obtain ⟨conn',finished⟩ := finish_open granted s.space p active
  have received := (ecn_received (record granted s.conn s.space p) s.conn.lastRecvEcn).trans (congrArg PnSpace.received recorded)
  unfold receive
  rw [finished]
  cases seen : s.space.received.contains p.pn with
  | true => exact ⟨⟨call,number,received⟩,by rw [seen]; rfl,fun _ => rfl⟩
  | false => exact ⟨⟨call,number,received⟩,by rw [seen]; rfl,fun _ => rfl⟩

theorem receive_closing {s : Endpoint} (p : Opened) (granted : Bool) (closing : closingAttributionOnly s.conn = true) :
    (receive s p granted).space = s.space ∧ (receive s p granted).dispatched = s.dispatched ∧
      (receive s p granted).forgotten = s.forgotten := by
  obtain ⟨conn',finished⟩ := finish_closing granted s.space p closing
  unfold receive
  rw [finished]
  exact ⟨rfl,rfl,rfl⟩

theorem Receives.known {s s' : Endpoint} {p : Opened} {granted : Bool} (receives : Receives s s' p granted)
    (known : Known s) : Known s' := by
  obtain ⟨call,number,received⟩ := receives.received
  obtain ⟨sorted,fits,covers⟩ := AckRun.addition_spec ⟨call,granted⟩ known.sorted known.fits
  have seen := known.contains p.pn
  dsimp only at covers
  rw [number] at covers
  have dispatched (x : Nat) : x ∈ s'.dispatched ↔ x = p.pn ∨ x ∈ s.dispatched := by
    rw [receives.dispatched]
    split
    · rename_i old
      have member := (seen.mp old).1
      constructor
      · exact .inr
      · intro either
        rcases either with rfl | before
        · exact member
        · exact before
    · exact List.mem_cons
  refine ⟨by rw [received]; exact sorted,by rw [received]; exact fits,?_,?_⟩
  · intro x
    rw [received,covers x,known.known x,dispatched x,receives.forgotten x]
    by_cases here : x = p.pn
    · simp [here]
    · simp [here,and_assoc]
  · intro x forgotten
    rw [receives.forgotten x] at forgotten
    simp only [Bool.and_eq_true,Bool.or_eq_true,decide_eq_true_eq] at forgotten
    apply (dispatched x).mpr
    right
    rcases forgotten.2 with before | now
    · exact known.past x before
    · -- What an addition drops was covered.
      have covered : Covered s.space.received.slots x := by
        unfold AckRun.forgets at now
        split at now
        · rename_i r drops
          exact ⟨r,AckRun.dropped_covered drops,of_decide_eq_true now⟩
        · cases now
      exact ((known.known x).mp covered).1

theorem promoted_frame (t : AckTracker) (nowUs maxAckDelayUs : Nat) :
    (t.promoteDelayedAckUs nowUs maxAckDelayUs).2.slots = t.slots ∧
      (t.promoteDelayedAckUs nowUs maxAckDelayUs).2.capacity = t.capacity := by
  unfold promoteDelayedAckUs
  dsimp only
  split_ifs <;> exact ⟨rfl,rfl⟩

theorem known_step (s : Endpoint) (e : Event) (known : Known s) : Known (step s e) := by
  cases e with
  | packet p granted =>
    cases active : closingAttributionOnly s.conn with
    | true =>
      obtain ⟨space,dispatched,forgotten⟩ := receive_closing (s := s) p granted active
      exact known.frame (by rw [step,space]) (by rw [step,space]) dispatched forgotten
    | false => exact (receive_open p granted active).known known
  | connection => exact known.frame rfl rfl rfl rfl
  | promoteDelayedAckUs nowUs maxAckDelayUs =>
    obtain ⟨slots,capacity⟩ := promoted_frame s.space.received nowUs maxAckDelayUs
    exact known.frame slots capacity rfl rfl
  | markAckSent => exact known.frame rfl rfl rfl rfl
  | ackReceived ecnEnabled a =>
    have same : ((s.space.applyAck ecnEnabled a).getD s.space).received = s.space.received := by
      unfold PnSpace.applyAck PnSpace.validateAndApplyAckEcn PnSpace.onAckReceived
      grind
    exact known.frame (by rw [step,same]) (by rw [step,same]) rfl rfl
  | packetSent ecnEnabled ackEliciting =>
    have same : (step s (.packetSent ecnEnabled ackEliciting)).space.received = s.space.received ∧
        (step s (.packetSent ecnEnabled ackEliciting)).dispatched = s.dispatched ∧
        (step s (.packetSent ecnEnabled ackEliciting)).forgotten = s.forgotten := by
      unfold step PnSpace.allocatePn PnSpace.recordSent
      grind
    obtain ⟨received,dispatched,forgotten⟩ := same
    exact known.frame (by rw [received]) (by rw [received]) dispatched forgotten
  | dropSpaceRecoveryState => exact known.frame rfl rfl rfl rfl
  | clearRecovery =>
    refine ⟨separated_nil,Nat.zero_le _,?_,?_⟩
    · intro x
      have seen := known.contains x
      simp only [step,PnSpace.clearRecovery,reset,covers_nil,Bool.or_eq_false_iff,false_iff,not_and]
      intro member kept covered
      have both := seen.mpr ⟨member,kept⟩
      rw [both] at covered
      cases covered
    · intro x either
      simp only [step,Bool.or_eq_true] at either
      rcases either with before | now
      · exact known.past x before
      · exact ((known.contains x).mp now).1

/-- A step dispatches no number twice, unless it takes a packet with a forgotten number. -/
theorem once_step (s : Endpoint) (e : Event) (known : Known s) (once : s.dispatched.Nodup) :
    (step s e).dispatched.Nodup ↔ NotForgotten s e := by
  cases e with
  | packet p granted =>
    cases active : closingAttributionOnly s.conn with
    | true =>
      rw [step,(receive_closing p granted active).2.1]
      simp [NotForgotten,active,once]
    | false =>
      have seen := known.contains p.pn
      have past := known.past p.pn
      rw [step,(receive_open p granted active).dispatched]
      have condition : NotForgotten s (.packet p granted) ↔ s.forgotten p.pn = false := by simp [NotForgotten,active]
      rw [condition]
      split
      · rename_i old
        have kept := (seen.mp old).2
        simp [once,kept]
      · rename_i new
        rw [seen] at new
        rw [List.nodup_cons]
        constructor
        · intro both
          by_contra forgotten
          exact both.1 (past (Bool.eq_true_of_not_eq_false forgotten))
        · intro kept
          exact ⟨fun member => new ⟨member,kept⟩,once⟩
  | packetSent ecnEnabled ackEliciting =>
    have same : (step s (.packetSent ecnEnabled ackEliciting)).dispatched = s.dispatched := by
      unfold step
      grind
    rw [same]
    exact ⟨fun _ => trivial,fun _ => once⟩
  | connection | promoteDelayedAckUs | markAckSent | ackReceived | dropSpaceRecoveryState | clearRecovery =>
    exact ⟨fun _ => trivial,fun _ => once⟩

/-- In any run, the frames of every packet number are dispatched once at most in every state, just in case no packet
arrives with a number that was forgotten: dropped with the lowest range of a full tracker, or in a reset of the path. -/
theorem dispatched_once (s : Endpoint) (fresh : Fresh s) (events : List Event) :
    System.Throughout (fun s => s.dispatched.Nodup) step s events ↔ System.Admits step NotForgotten s events := by
  have start : s.dispatched.Nodup := by
    obtain ⟨allocator,rfl⟩ := fresh
    exact List.nodup_nil
  have free : ∀ s, System.Admits step (fun _ _ => True) s events := by
    induction events with
    | nil => exact fun _ => trivial
    | cons e rest ih => exact fun s => ⟨trivial,ih _⟩
  exact System.throughout_iff (fun s e known _ => known_step s e known) (fun s e known once _ => once_step s e known once)
    (fresh_known s fresh) start (free s)

def ping (pn : Nat) : Event := .packet {lvl := .application,pathId := 0,pn := pn,payload := [1],nowUs := 1} false

theorem dispatched_once_duplicates : System.Throughout (fun s => s.dispatched.Nodup) step {} ([4,2,2,4].map ping) :=
  (dispatched_once {} ⟨false,rfl⟩ ([4,2,2,4].map ping)).mpr
    ⟨.inr (by decide),.inr (by decide),.inr (by decide),.inr (by decide),trivial⟩

/-- Eight ranges fill a tracker without an allocator. Number 18 pushes 2 out, and a replay of 2 is dispatched. -/
theorem replay_dispatched : ¬ ∀ (s : Endpoint) (events : List Event), Fresh s →
    (System.run step s events).dispatched.Nodup := by
  intro once
  have twice := once {} ([2,4,6,8,10,12,14,16,18,2].map ping) ⟨false,rfl⟩
  revert twice
  decide

end QuicZig.Conn.ReplayRun
