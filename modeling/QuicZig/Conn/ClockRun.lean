import QuicZig.Conn.Clock

/-! A host that sleeps until the deadline that a connection names: which timed actions it sleeps past. -/
namespace QuicZig.Conn.Clock
open Machine

theorem consider_le (best : Option TimerDeadline) (candidate : TimerDeadline) (t : Nat) :
    (∃ d, considerDeadline best candidate = some d ∧ d.atUs ≤ t) ↔
    (∃ d, best = some d ∧ d.atUs ≤ t) ∨ candidate.atUs ≤ t := by
  cases best with
  | none => simp [considerDeadline]
  | some b =>
    unfold considerDeadline
    dsimp only
    split_ifs with earlier
    · simp only [Option.some.injEq,exists_eq_left']
      omega
    · simp only [Option.some.injEq,exists_eq_left']
      omega

theorem foldl_consider_le (l : List TimerDeadline) (best : Option TimerDeadline) (t : Nat) :
    (∃ d, l.foldl considerDeadline best = some d ∧ d.atUs ≤ t) ↔
      (∃ d, best = some d ∧ d.atUs ≤ t) ∨ ∃ c ∈ l, c.atUs ≤ t := by
  induction l generalizing best with
  | nil => simp
  | cons c rest ih =>
    rw [List.foldl_cons,ih,consider_le]
    simp [or_assoc]

/-- When a challenge of the path has timed out. A failure that left a migration to take back has no time of its own. -/
def TimedPath.validationTimes (p : TimedPath) : List Nat :=
  match p.path.path.validator.status with
  | .pending => [p.path.path.validator.pendingAtUs+p.path.path.validator.timeoutUs+1]
  | .failed => if p.path.pendingMigrationReset ∧ p.path.migrationRollback.isSome then [0] else []
  | _ => []

def TimedPath.retirementTime (p : TimedPath) : Option Nat :=
  if p.path.path.state = .retiring then p.retireDeadlineUs else none

namespace Connection

/-- The connection closes, drains or is closed. -/
def ended (conn : Connection) : Bool :=
  conn.lifecycle.drainingDeadlineUs.isSome || conn.lifecycle.closingDeadlineUs.isSome || conn.lifecycle.closed

/-- The times of a connection's state that no deadline is computed from. -/
def unlisted (conn : Connection) : List Nat :=
  conn.paths.flatMap TimedPath.validationTimes ++
    if conn.ended then
      (conn.paths.filter (·.path.path.validator.status ≠ .failed)).flatMap (·.retirementTime.toList) ++
        (conn.appReadPrevious.bind (·.discardDeadlineUs)).toList
    else []

end Connection

theorem tick_failed (v : PathValidator) (nowUs : Nat) :
    (v.tick nowUs).status = .failed ↔ v.status = .failed ∨ v.status = .pending ∧ v.pendingAtUs+v.timeoutUs+1 ≤ nowUs := by
  unfold PathValidator.tick
  by_cases pending : v.status = .pending
  · rw [if_neg (not_not.mpr pending)]
    split_ifs with late
    · exact iff_of_true rfl (.inr ⟨pending,by omega⟩)
    · rw [pending]
      simp only [reduceCtorEq,true_and,false_or,false_iff]
      omega
  · rw [if_pos pending]
    simp [pending]

theorem validation_fires (p : TimedPath) (nowUs : Nat) :
    (p.tickValidator nowUs).2 ≠ [] ↔ ∃ h ∈ p.validationTimes, h ≤ nowUs := by
  have fired : (p.tickValidator nowUs).2 ≠ [] ↔ (p.path.path.validator.tick nowUs).status = .failed ∧
      (p.path.path.validator.status ≠ .failed ∨ p.path.pendingMigrationReset ∧ p.path.migrationRollback.isSome) := by
    unfold TimedPath.tickValidator
    dsimp only
    split_ifs with failed first
    · exact iff_of_true (List.cons_ne_nil _ _) ⟨failed,first⟩
    · exact iff_of_false (not_not.mpr rfl) fun both => first both.2
    · exact iff_of_false (not_not.mpr rfl) fun both => failed both.1
  rw [fired,tick_failed]
  unfold TimedPath.validationTimes
  cases status : p.path.path.validator.status with
  | pending => simp
  | failed =>
    dsimp only
    split_ifs with back
    · simp [back]
    · simpa using back
  | idle => simp
  | validated => simp

theorem validation_quiet {p : TimedPath} {nowUs : Nat} (quiet : (p.tickValidator nowUs).2 = []) :
    (p.tickValidator nowUs).1 = p ∧ p.path.path.validator.status ≠ .failed ∨
      (p.tickValidator nowUs).1.path.path.state = .failed ∧ (p.tickValidator nowUs).1.rtt = p.rtt := by
  unfold TimedPath.tickValidator at quiet ⊢
  dsimp only at quiet ⊢
  by_cases failed : (p.path.path.validator.tick nowUs).status = .failed
  · rw [if_pos failed] at quiet ⊢
    by_cases first : p.path.path.validator.status ≠ .failed ∨ p.path.pendingMigrationReset ∧ p.path.migrationRollback.isSome
    · rw [if_pos first] at quiet
      cases quiet
    · have still : ¬(p.path.pendingMigrationReset = true ∧ p.path.migrationRollback.isSome = true) :=
        fun back => first (.inr back)
      refine .inr ?_
      unfold TimedPath.validationFailed
      split
      · rename_i rollback here
        dsimp only at here
        split_ifs at here with reset
        exact absurd ⟨reset,by rw [here]; rfl⟩ still
      · exact ⟨rfl,rfl⟩
  · rw [if_neg failed]
    exact .inl ⟨rfl,fun before => failed ((tick_failed _ nowUs).mpr (.inl before))⟩

theorem expire_fires (p : TimedPath) (nowUs : Nat) : (p.expire nowUs).2 ≠
    [] ↔ ∃ h, p.retirementTime = some h ∧ h ≤ nowUs := by
  unfold TimedPath.expire
  rw [show (if p.path.path.state = .retiring then p.retireDeadlineUs else none) = p.retirementTime from rfl]
  cases p.retirementTime with
  | none => simp
  | some deadline =>
    dsimp only
    split_ifs with early
    · simp; omega
    · simp; omega

theorem expire_quiet {p : TimedPath} {nowUs : Nat} (quiet : (p.expire nowUs).2 = []) : (p.expire nowUs).1 = p := by
  unfold TimedPath.expire at quiet ⊢
  split at quiet
  · rfl
  · rename_i deadline due
    split_ifs at quiet with early
    rw [if_pos early]

theorem discard_fires (conn : Connection) (nowUs : Nat) : (conn.discardExpiredApplicationReadKeys nowUs).2 ≠ [] ↔
    ∃ h, conn.appReadPrevious.bind (·.discardDeadlineUs) = some h ∧ h ≤ nowUs := by
  unfold Connection.discardExpiredApplicationReadKeys
  cases conn.appReadPrevious.bind (·.discardDeadlineUs) with
  | none => simp
  | some deadline =>
    dsimp only
    split_ifs with due
    · simpa using due
    · simpa using due

theorem discard_quiet {conn : Connection} {nowUs : Nat} (quiet : (conn.discardExpiredApplicationReadKeys nowUs).2 = []) :
    (conn.discardExpiredApplicationReadKeys nowUs).1 = conn := by
  unfold Connection.discardExpiredApplicationReadKeys at quiet ⊢
  split at quiet
  · split_ifs at quiet with due
    rw [if_neg due]
  · rfl

/-- The connection with some of its paths failed, and the deadline of its handshake set. -/
def Stale (conn after : Connection) : Prop :=
  ∃ f anchor, after = {conn with paths := conn.paths.map f,handshakeDeadlineUs := anchor} ∧
    ∀ p ∈ conn.paths, f p = p ∨ (f p).path.path.state = .failed ∧ (f p).rtt = p.rtt

namespace Stale

theorem pathAt {conn after : Connection} (stale : Stale conn after) (i : Nat) {q : TimedPath}
    (there : after.paths[i]? = some q) :
    ∃ p, conn.paths[i]? = some p ∧ (q = p ∨ q.path.path.state = .failed ∧ q.rtt = p.rtt) := by
  obtain ⟨f,anchor,rfl,fails⟩ := stale
  change (conn.paths.map f)[i]? = some q at there
  rw [List.getElem?_map] at there
  obtain ⟨p,here,rfl⟩ := Option.map_eq_some_iff.mp there
  exact ⟨p,here,fails p (List.mem_of_getElem? here)⟩

theorem length {conn after : Connection} (stale : Stale conn after) : after.paths.length = conn.paths.length := by
  obtain ⟨f,anchor,rfl,-⟩ := stale
  exact List.length_map f

theorem rtts {conn after : Connection} (stale : Stale conn after) (i : Nat) :
    after.paths[i]?.map TimedPath.rtt = conn.paths[i]?.map TimedPath.rtt := by
  cases there : after.paths[i]? with
  | none =>
    rw [List.getElem?_eq_none_iff,stale.length] at there
    rw [List.getElem?_eq_none_iff.mpr there]
  | some q =>
    obtain ⟨p,here,same⟩ := stale.pathAt i there
    rw [here]
    rcases same with rfl | ⟨-,same⟩
    · rfl
    · exact congrArg some same

theorem primaryRtt {conn after : Connection} (stale : Stale conn after) : after.primaryPath.rtt = conn.primaryPath.rtt := by
  have first (c : Connection) : c.primaryPath.rtt = (c.paths[0]?.map TimedPath.rtt).getD {} := by
    unfold Connection.primaryPath
    cases c.paths with
    | nil => rfl
    | cons p rest => rfl
  rw [first,first,stale.rtts]

theorem activeRtt {conn after : Connection} (stale : Stale conn after) : after.active.rtt = conn.active.rtt := by
  have chosen (c : Connection) : c.active.rtt = (c.paths[c.activePath]?.map TimedPath.rtt).getD c.primaryPath.rtt := by
    unfold Connection.active
    rw [List.getD_eq_getElem?_getD]
    cases c.paths[c.activePath]? with
    | none => rfl
    | some p => rfl
  have index : after.activePath = conn.activePath := by
    obtain ⟨f,anchor,rfl,-⟩ := stale
    rfl
  rw [chosen,chosen,index,stale.rtts,stale.primaryRtt]

theorem rtt {conn after : Connection} (stale : Stale conn after) (place : Place) : after.rtt place = conn.rtt place := by
  cases place with
  | initial => exact stale.primaryRtt
  | handshake => exact stale.primaryRtt
  | path i => exact congrArg (·.getD {}) (stale.rtts i)

theorem place {conn after : Connection} (stale : Stale conn after) {place : Place} (there : place ∈ after.places) :
    place ∈ conn.places ∧ after.space place = conn.space place := by
  have flags : after.initialKeysDiscarded = conn.initialKeysDiscarded ∧ after.handshakeKeysDiscarded =
    conn.handshakeKeysDiscarded ∧
      after.initial = conn.initial ∧ after.handshake = conn.handshake := by
    obtain ⟨f,anchor,rfl,-⟩ := stale
    exact ⟨rfl,rfl,rfl,rfl⟩
  obtain ⟨initialKeys,handshakeKeys,initial,handshake⟩ := flags
  unfold Connection.places at there ⊢
  rw [initialKeys,handshakeKeys,List.mem_append] at there
  rw [List.mem_append]
  rcases there with level | path
  · refine ⟨.inl level,?_⟩
    cases place with
    | initial => exact congrArg some initial
    | handshake => exact congrArg some handshake
    | path i =>
      split_ifs at level <;> simp at level
  · obtain ⟨i,inside,rfl⟩ := List.mem_map.mp path
    obtain ⟨within,live⟩ := List.mem_filter.mp inside
    cases here : after.paths[i]? with
    | none =>
      rw [here] at live
      cases live
    | some q =>
      rw [here] at live
      have alive : q.path.path.state ≠ .failed := by simpa using live
      obtain ⟨p,before,same⟩ := stale.pathAt i here
      obtain rfl := same.resolve_right fun failed => alive failed.1
      refine ⟨.inr (List.mem_map_of_mem (List.mem_filter.mpr ⟨?_,?_⟩)),?_⟩
      · rw [← stale.length]
        exact within
      · rw [before]
        exact live
      · change after.paths[i]?.map TimedPath.space = conn.paths[i]?.map TimedPath.space
        rw [here,before]

theorem ptoDeadline {conn after : Connection} (stale : Stale conn after) {place : Place} (there : place ∈ after.places) :
    after.ptoDeadline place = conn.ptoDeadline place := by
  have rest : after.applicationPtoHeld = conn.applicationPtoHeld ∧ after.antiDeadlockLevel = conn.antiDeadlockLevel ∧
      after.handshakeProbeAnchorUs = conn.handshakeProbeAnchorUs ∧ after.peerMaxAckDelayUs = conn.peerMaxAckDelayUs := by
    obtain ⟨f,anchor,rfl,-⟩ := stale
    exact ⟨rfl,rfl,rfl,rfl⟩
  have duration (count : Nat) : after.ptoDuration place count = conn.ptoDuration place count := by
    unfold Connection.ptoDuration
    rw [stale.rtt,rest.2.2.2]
  unfold Connection.ptoDeadline
  rw [(stale.place there).2,rest.1,rest.2.1,rest.2.2.1]
  simp only [duration]

theorem idleDeadline {conn after : Connection} (stale : Stale conn after) : after.idleDeadline = conn.idleDeadline := by
  have rest : after.localMaxIdleTimeoutMs = conn.localMaxIdleTimeoutMs ∧ after.peerMaxIdleTimeoutMs =
    conn.peerMaxIdleTimeoutMs ∧
      after.lastActivityUs = conn.lastActivityUs ∧ after.peerMaxAckDelayUs = conn.peerMaxAckDelayUs := by
    obtain ⟨f,anchor,rfl,-⟩ := stale
    exact ⟨rfl,rfl,rfl,rfl⟩
  unfold Connection.idleDeadline Connection.idleTimeoutUs
  rw [stale.activeRtt,rest.1,rest.2.1,rest.2.2.1,rest.2.2.2]

end Stale

namespace Connection

/-- A deadline that is considered falls on the time. -/
def Listed (conn : Connection) (nowUs atUs : Nat) : Prop := ∃ c ∈ conn.considered nowUs, c.atUs = atUs

theorem considered_open {conn : Connection} (opened : conn.ended = false) (nowUs : Nat) : conn.considered nowUs =
    (if conn.streamsGcPending then [{kind := .streamGc,atUs := nowUs}] else []) ++
      conn.places.flatMap (conn.spaceDeadlines nowUs) ++
      (conn.appReadPrevious.bind (·.discardDeadlineUs)).toList.map
        ({kind := .keyDiscard,atUs := ·,level := some .application}) ++
      conn.idleDeadline.toList.map ({kind := .idle,atUs := ·}) ++
      (conn.handshakeDeadline nowUs).toList.map ({kind := .handshakeTimeout,atUs := ·}) := by
  unfold ended at opened
  rw [Bool.or_eq_false_iff,Bool.or_eq_false_iff,Option.isSome_eq_false_iff,Option.isSome_eq_false_iff] at opened
  unfold considered
  rw [Option.isNone_iff_eq_none.mp opened.1.1,Option.isNone_iff_eq_none.mp opened.1.2,opened.2]
  rfl

theorem listed_space {conn : Connection} (opened : conn.ended = false) {nowUs : Nat} {place : Place}
    (there : place ∈ conn.places)
    {c : TimerDeadline} (own : c ∈ conn.spaceDeadlines nowUs place) : conn.Listed nowUs c.atUs := by
  refine ⟨c,?_,rfl⟩
  rw [considered_open opened]
  simp only [List.mem_append,List.mem_flatMap]
  exact .inl (.inl (.inl (.inr ⟨place,there,own⟩)))

theorem listed_ackDelay {conn : Connection} (opened : conn.ended = false) {nowUs atUs : Nat} {place : Place}
    (there : place ∈ conn.places)
    {space : Space} (own : conn.space place = some space) (runs : conn.ackDelayDeadlineUs space.received = some atUs) :
    conn.Listed nowUs atUs := by
  refine listed_space opened there (c := conn.deadline .ackDelay place atUs) ?_
  unfold spaceDeadlines
  simp [own,runs]

theorem listed_loss {conn : Connection} (opened : conn.ended = false) {nowUs atUs : Nat} {place : Place}
    (there : place ∈ conn.places)
    (runs : conn.lossDeadline place = some atUs) : conn.Listed nowUs atUs := by
  refine listed_space opened there (c := conn.deadline .lossDetection place atUs) ?_
  unfold spaceDeadlines
  simp [runs]

theorem listed_pto {conn : Connection} (opened : conn.ended = false) {nowUs atUs : Nat} {place : Place}
    (there : place ∈ conn.places)
    (runs : conn.ptoDeadline place = some atUs) : conn.Listed nowUs atUs := by
  refine listed_space opened there (c := conn.deadline .pto place atUs) ?_
  unfold spaceDeadlines
  simp [runs]

theorem listed_retirement {conn : Connection} (opened : conn.ended = false) {nowUs atUs : Nat} {p : TimedPath}
    (there : p ∈ conn.paths)
    (runs : p.retirementTime = some atUs) : conn.Listed nowUs atUs := by
  obtain ⟨i,within,rfl⟩ := List.mem_iff_getElem.mp there
  have here : conn.paths[i]? = some conn.paths[i] := List.getElem?_eq_getElem within
  have retiring : conn.paths[i].path.path.state = .retiring := by
    unfold TimedPath.retirementTime at runs
    split_ifs at runs with state
    exact state
  have place : Place.path i ∈ conn.places := by
    unfold places
    refine List.mem_append_right _ (List.mem_map_of_mem (List.mem_filter.mpr ⟨List.mem_range.mpr within,?_⟩))
    rw [here]
    simp [retiring]
  refine listed_space opened place (c := conn.deadline .pathRetirement (.path i) atUs) ?_
  unfold TimedPath.retirementTime at runs
  unfold spaceDeadlines
  simp [here,runs]

end Connection

/-- Nothing that is considered has come. -/
def Early (conn : Connection) (firstUs nowUs : Nat) : Prop := ∀ atUs, conn.Listed firstUs atUs → nowUs < atUs

namespace Pass

theorem promote_quiet {conn : Connection} (opened : conn.ended = false) {firstUs nowUs : Nat}
    (early : Early conn firstUs nowUs)
    {pass : Pass} (stale : Stale conn pass.conn) {place : Place} (there : place ∈ pass.conn.places) :
    pass.promoteDueAckDelay nowUs place = pass := by
  obtain ⟨before,same⟩ := stale.place there
  have delay : pass.conn.effectiveMaxAckDelayUs = conn.effectiveMaxAckDelayUs := by
    obtain ⟨f,anchor,changed,-⟩ := stale
    rw [changed]
    rfl
  unfold promoteDueAckDelay
  split
  · rfl
  · rename_i space own
    rw [delay]
    have waits : (space.received.promoteDelayedAckUs nowUs conn.effectiveMaxAckDelayUs).1 = false := by
      unfold AckTracker.promoteDelayedAckUs
      dsimp only
      by_cases idle : (space.received.pendingAck || !space.received.delayedAckArmed) = true
      · rw [if_pos idle]
      · rw [if_neg idle]
        rw [Bool.or_eq_true,not_or,Bool.not_eq_true,Bool.not_eq_true',Bool.not_eq_false] at idle
        have soon := early _ (Connection.listed_ackDelay opened before (same ▸ own) (by
          unfold Connection.ackDelayDeadlineUs Connection.ackDelayBaseUs
          rw [if_pos idle.2]
          rfl))
        rw [if_pos soon]
    split
    · rfl
    · rename_i received promoted
      rw [promoted] at waits
      cases waits

theorem sweep_takes {largestAcked : Option Nat} {cutoff : Nat} {requeued : SentRecord → Bool} {sent : List SentRecord}
    (any : (Space.sweepLosses largestAcked cutoff requeued sent).2.1 = true) :
    ∃ p ∈ sent, (∃ largest, largestAcked = some largest ∧ p.pn ≤ largest) ∧ p.sentTimeUs < cutoff := by
  induction sent with
  | nil => cases any
  | cons p rest ih =>
    unfold Space.sweepLosses at any
    split_ifs at any with beyond old whole
    · cases largestAcked with
      | none => exact absurd rfl beyond
      | some largest => exact ⟨p,List.mem_cons_self,⟨largest,rfl,by simpa using beyond⟩,old⟩
    · cases largestAcked with
      | none => exact absurd rfl beyond
      | some largest => exact ⟨p,List.mem_cons_self,⟨largest,rfl,by simpa using beyond⟩,old⟩
    · obtain ⟨q,there,lost⟩ := ih any
      exact ⟨q,List.mem_cons_of_mem p there,lost⟩

theorem detect_quiet {conn : Connection} (opened : conn.ended = false) {firstUs nowUs : Nat}
    (early : Early conn firstUs nowUs)
    (outcomes : Outcomes) {pass : Pass} (stale : Stale conn pass.conn) {place : Place} (there : place ∈ pass.conn.places) :
    pass.detectLossesByTimeThreshold outcomes nowUs place = pass := by
  obtain ⟨before,same⟩ := stale.place there
  unfold detectLossesByTimeThreshold
  split
  · rfl
  · split
    · rfl
    · rename_i space own
      rw [stale.rtt]
      dsimp only
      split_ifs with soon
      · rfl
      · split
        · rfl
        · rename_i left whole swept
          have any : (Space.sweepLosses space.largestAckedSent (nowUs-space.timeThresholdUs (conn.rtt place))
              (outcomes.requeued place) space.sent).2.1 = true := by rw [swept]
          obtain ⟨p,inside,⟨largest,acked,below⟩,old⟩ := sweep_takes any
          have runs : ∃ atUs, conn.lossDeadline place = some atUs ∧
              atUs ≤ saturatingAdd p.sentTimeUs (space.timeThresholdUs (conn.rtt place)) := by
            unfold Connection.lossDeadline Space.earliestLossDeadline
            rw [← same,own,Option.bind_some,acked,Option.bind_some]
            have counted : saturatingAdd p.sentTimeUs (space.timeThresholdUs (conn.rtt place)) ∈
                (space.sent.filter (·.pn ≤ largest)).map (saturatingAdd ·.sentTimeUs
                  (space.timeThresholdUs (conn.rtt place))) :=
              List.mem_map_of_mem (List.mem_filter.mpr ⟨inside,decide_eq_true below⟩)
            obtain ⟨atUs,least⟩ := Option.isSome_iff_exists.mp (List.isSome_min?_of_mem counted)
            exact ⟨atUs,least,(List.min?_eq_some_iff.mp least).2 _ counted⟩
          obtain ⟨atUs,runs,least⟩ := runs
          have late := early _ (Connection.listed_loss opened before runs)
          unfold saturatingAdd at least
          omega

theorem pto_quiet {conn : Connection} (opened : conn.ended = false) {firstUs nowUs : Nat} (early : Early conn firstUs nowUs)
    (outcomes : Outcomes) {pass : Pass} (stale : Stale conn pass.conn) {place : Place} (there : place ∈ pass.conn.places) :
    pass.fireDuePto outcomes nowUs place = pass := by
  unfold fireDuePto
  rw [stale.ptoDeadline there]
  split
  · rfl
  · split
    · rename_i space deadline own runs
      rw [if_pos (early _ (Connection.listed_pto opened (stale.place there).1 runs))]
    · rfl

theorem foldl_quiet {f : Pass → Place → Pass} {places : List Place} {pass : Pass}
    (quiet : ∀ place ∈ places, f pass place = pass) :
    places.foldl f pass = pass := by
  induction places with
  | nil => rfl
  | cons place rest ih =>
    rw [List.foldl_cons,quiet place List.mem_cons_self]
    exact ih fun other there => quiet other (List.mem_cons_of_mem _ there)

end Pass

namespace Connection

theorem tickSpaces_quiet {conn : Connection} (opened : conn.ended = false) {firstUs nowUs : Nat} (since : firstUs ≤ nowUs)
    (early : Early conn firstUs nowUs) (outcomes : Outcomes) {pass : Pass} (stale : Stale conn pass.conn) :
    tickSpaces outcomes nowUs pass = pass := by
  have idle : pass.conn.streamsGcPending = false := by
    have same : pass.conn.streamsGcPending = conn.streamsGcPending := by
      obtain ⟨f,anchor,changed,-⟩ := stale
      rw [changed]
    rw [same,Bool.eq_false_iff]
    intro pending
    refine absurd (early firstUs ⟨{kind := .streamGc,atUs := firstUs},?_,rfl⟩) (Nat.not_lt_of_le since)
    rw [considered_open opened,if_pos pending]
    simp
  unfold tickSpaces
  dsimp only
  rw [Pass.foldl_quiet fun place there => Pass.promote_quiet opened early stale there,
    Pass.foldl_quiet fun place there => Pass.detect_quiet opened early outcomes stale there,
    Pass.foldl_quiet fun place there => Pass.pto_quiet opened early outcomes stale there]
  unfold Pass.gcClosedStreams
  rw [idle]
  split <;> rfl

theorem tickIdle_quiet {conn : Connection} (opened : conn.ended = false) {firstUs nowUs : Nat} (since : firstUs ≤ nowUs)
    (early : Early conn firstUs nowUs) (outcomes : Outcomes) {pass : Pass} (stale : Stale conn pass.conn) :
    tickIdle outcomes nowUs pass = pass := by
  unfold tickIdle
  rw [stale.idleDeadline]
  split
  · rename_i deadline runs
    have soon : nowUs < deadline := by
      refine early deadline ⟨{kind := .idle,atUs := deadline},?_,rfl⟩
      rw [considered_open opened,runs]
      simp
    rw [if_neg (Nat.not_le_of_lt soon)]
    exact tickSpaces_quiet opened since early outcomes stale
  · exact tickSpaces_quiet opened since early outcomes stale

theorem tickOpen_quiet {conn : Connection} (opened : conn.ended = false) {firstUs nowUs : Nat} (since : firstUs ≤ nowUs)
    (early : Early conn firstUs nowUs) (outcomes : Outcomes) {pass : Pass} (stale : Stale conn pass.conn)
    (anchored : pass.conn.handshakeDeadlineUs = conn.handshakeDeadlineUs) :
    (tickOpen outcomes nowUs pass).fired = pass.fired := by
  have anchor (at' : Option Nat) : Stale conn {pass.conn with handshakeDeadlineUs := at'} := by
    obtain ⟨f,before,changed,fails⟩ := stale
    exact ⟨f,at',by rw [changed],fails⟩
  have quiet (at' : Option Nat) :
    (tickIdle outcomes nowUs {pass with conn := {pass.conn with handshakeDeadlineUs := at'}}).fired =
      pass.fired := by
    rw [tickIdle_quiet opened since early outcomes (anchor at')]
  unfold tickOpen
  split
  · rename_i deadline runs
    have soon : nowUs < deadline := by
      have listed (atUs : Nat) (own : conn.handshakeDeadline firstUs = some atUs) : nowUs < atUs := by
        refine early atUs ⟨{kind := .handshakeTimeout,atUs := atUs},?_,rfl⟩
        rw [considered_open opened,own]
        simp
      have fields : pass.conn.handshakeTimeoutUs = conn.handshakeTimeoutUs ∧
          pass.conn.handshakeKeysDiscarded = conn.handshakeKeysDiscarded := by
        obtain ⟨f,before,changed,-⟩ := stale
        rw [changed]
        exact ⟨rfl,rfl⟩
      unfold handshakeDeadline at runs listed
      rw [anchored,fields.1,fields.2] at runs
      split_ifs at runs with off confirmed
      rw [if_neg off,if_neg confirmed] at listed
      cases set : conn.handshakeDeadlineUs with
      | some atUs =>
        rw [set] at runs listed
        exact listed deadline runs
      | none =>
        rw [set] at runs listed
        have first := listed _ rfl
        have last : saturatingAdd nowUs conn.handshakeTimeoutUs = deadline := Option.some.inj runs
        rw [Option.getD_none] at first
        unfold saturatingAdd at first last
        omega
    dsimp only
    rw [if_neg (Nat.not_le_of_lt soon)]
    exact quiet (some deadline)
  · exact quiet none

theorem overPaths_quiet {conn : Connection} {f : TimedPath → TimedPath × List Fired} (quiet : (conn.overPaths f).2 = []) :
    ∀ p ∈ conn.paths, (f p).2 = [] := List.flatMap_eq_nil_iff.mp quiet

theorem listed_discard {conn : Connection} (opened : conn.ended = false) {nowUs atUs : Nat}
    (runs : conn.appReadPrevious.bind (·.discardDeadlineUs) = some atUs) : conn.Listed nowUs atUs := by
  refine ⟨{kind := .keyDiscard,atUs := atUs,level := some .application},?_,rfl⟩
  rw [considered_open opened,runs]
  simp

theorem prelude_quiet {conn : Connection} {firstUs nowUs : Nat} (early : Early conn firstUs nowUs)
    (unlisted : ∀ h ∈ conn.unlisted, nowUs < h) : ∃ after, Stale conn after ∧
      after.handshakeDeadlineUs = conn.handshakeDeadlineUs ∧ after.lifecycle = conn.lifecycle ∧
      conn.overPaths (TimedPath.tickValidator nowUs) = (after,[]) ∧ after.overPaths (TimedPath.expire nowUs) = (after,[]) ∧
      after.discardExpiredApplicationReadKeys nowUs = (after,[]) := by
  have validations (p : TimedPath) (there : p ∈ conn.paths) : (p.tickValidator nowUs).2 = [] := by
    by_contra fires
    obtain ⟨h,inside,due⟩ := (validation_fires p nowUs).mp fires
    have own : h ∈ conn.unlisted := List.mem_append_left _ (List.mem_flatMap.mpr ⟨p,there,inside⟩)
    exact absurd (unlisted h own) (Nat.not_lt_of_le due)
  -- a time of the two kinds is considered while the connection is open, and stands apart later
  have later (atUs : Nat) (listed : conn.ended = false → conn.Listed firstUs atUs)
      (apart : conn.ended = true → atUs ∈ conn.unlisted) : nowUs < atUs := by
    cases ended : conn.ended with
    | false => exact early atUs (listed ended)
    | true => exact unlisted atUs (apart ended)
  refine ⟨{conn with paths := conn.paths.map fun p => (p.tickValidator nowUs).1},
    ⟨fun p => (p.tickValidator nowUs).1,conn.handshakeDeadlineUs,rfl,
      fun p there => (validation_quiet (validations p there)).imp_left And.left⟩,
    rfl,rfl,?_,?_,?_⟩
  · exact Prod.ext rfl (List.flatMap_eq_nil_iff.mpr validations)
  · have retirements (q : TimedPath) (there : q ∈ conn.paths.map fun p => (p.tickValidator nowUs).1) :
      (q.expire nowUs).2 = [] := by
      obtain ⟨p,before,rfl⟩ := List.mem_map.mp there
      by_contra fires
      obtain ⟨h,runs,due⟩ := (expire_fires _ nowUs).mp fires
      rcases validation_quiet (validations p before) with ⟨same,live⟩ | ⟨failed,-⟩
      · rw [same] at runs
        refine absurd (later h (fun opened => listed_retirement opened before runs) fun ended => ?_) (Nat.not_lt_of_le due)
        refine List.mem_append_right _ ?_
        rw [if_pos ended]
        have kept : p ∈ conn.paths.filter (·.path.path.validator.status ≠ .failed) :=
          List.mem_filter.mpr ⟨before,decide_eq_true live⟩
        exact List.mem_append_left _ (List.mem_flatMap.mpr ⟨p,kept,Option.mem_toList.mpr runs⟩)
      · unfold TimedPath.retirementTime at runs
        rw [if_neg (by rw [failed]; decide)] at runs
        cases runs
    refine Prod.ext ?_ (List.flatMap_eq_nil_iff.mpr retirements)
    have still : (conn.paths.map fun p => (p.tickValidator nowUs).1).map (fun q => (q.expire nowUs).1) =
        (conn.paths.map fun p => (p.tickValidator nowUs).1).map id :=
      List.map_congr_left fun q there => expire_quiet (retirements q there)
    unfold overPaths
    dsimp only
    rw [still,List.map_id]
  · have discards : (discardExpiredApplicationReadKeys
      {conn with paths := conn.paths.map fun p => (p.tickValidator nowUs).1} nowUs).2 =
        [] := by
      by_contra fires
      obtain ⟨h,runs,due⟩ := (discard_fires _ nowUs).mp fires
      refine absurd (later h (fun opened => listed_discard opened runs) fun ended => ?_) (Nat.not_lt_of_le due)
      refine List.mem_append_right _ ?_
      rw [if_pos ended]
      exact List.mem_append_right _ (Option.mem_toList.mpr runs)
    exact Prod.ext (discard_quiet discards) discards

/-- Nothing that is due goes without a deadline that has come, or a time that none is computed from. -/
theorem tickFull_quiet {conn : Connection} {firstUs nowUs : Nat} (since : firstUs ≤ nowUs) (early : Early conn firstUs nowUs)
    (unlisted : ∀ h ∈ conn.unlisted, nowUs < h) (outcomes : Outcomes) : (tickFull outcomes conn nowUs).fired = [] := by
  obtain ⟨after,stale,anchored,lifecycle,validations,retirements,discards⟩ := prelude_quiet early unlisted
  unfold tickFull
  rw [validations]
  dsimp only
  rw [retirements]
  dsimp only
  rw [discards]
  dsimp only [List.append_nil]
  rw [lifecycle]
  have soon (kind : TimerKind) (atUs : Nat) (runs : {kind := kind,atUs := atUs} ∈ conn.considered firstUs) : ¬nowUs ≥ atUs :=
    Nat.not_le_of_lt (early atUs ⟨_,runs,rfl⟩)
  unfold considered at soon
  split
  · rename_i deadline draining
    rw [draining] at soon
    rw [if_neg (soon .draining deadline List.mem_cons_self)]
    rfl
  · rename_i deadline draining closing
    rw [draining,closing] at soon
    rw [if_neg (soon .closing deadline List.mem_cons_self)]
    rfl
  · rename_i draining closing
    split
    · rfl
    · rename_i opened
      refine tickOpen_quiet ?_ since early outcomes stale anchored
      unfold Connection.ended
      rw [draining,closing]
      simpa using opened

end Connection

namespace Pass

/-- What has been done stays done. -/
def Keeps (before after : Pass) : Prop := before.fired ≠ [] → after.fired ≠ []

theorem Keeps.trans {a b c : Pass} (one : Keeps a b) (two : Keeps b c) : Keeps a c := two ∘ one

theorem keeps_more {before after : Pass} {action : Fired} (more : after.fired = before.fired ++ [action]) :
    Keeps before after := by
  intro _
  rw [more]
  exact List.append_ne_nil_of_right_ne_nil _ (List.cons_ne_nil action [])

theorem keeps_foldl {f : Pass → Place → Pass} (keeps : ∀ pass place, Keeps pass (f pass place)) (places : List Place)
    (pass : Pass) :
    Keeps pass (places.foldl f pass) := by
  induction places generalizing pass with
  | nil => exact id
  | cons place rest ih => exact (keeps pass place).trans (ih (f pass place))

theorem keeps_promote (nowUs : Nat) (pass : Pass) (place : Place) : Keeps pass (pass.promoteDueAckDelay nowUs place) := by
  unfold promoteDueAckDelay
  split
  · exact id
  · split
    · exact id
    · exact keeps_more rfl

theorem keeps_detect (outcomes : Outcomes) (nowUs : Nat) (pass : Pass) (place : Place) :
    Keeps pass (pass.detectLossesByTimeThreshold outcomes nowUs place) := by
  unfold detectLossesByTimeThreshold
  split
  · exact id
  · split
    · exact id
    · dsimp only
      split
      · exact id
      · split
        · exact id
        · exact keeps_more rfl

theorem keeps_pto (outcomes : Outcomes) (nowUs : Nat) (pass : Pass) (place : Place) : Keeps pass
    (pass.fireDuePto outcomes nowUs place) := by
  unfold fireDuePto
  split
  · exact id
  · split
    · split
      · exact id
      · dsimp only
        split
        · exact keeps_more rfl
        · exact keeps_more rfl
    · exact id

theorem keeps_gc (outcomes : Outcomes) (pass : Pass) : Keeps pass (pass.gcClosedStreams outcomes) := by
  unfold gcClosedStreams
  split
  · exact id
  · split
    · exact keeps_more rfl
    · exact id

theorem keeps_spaces (outcomes : Outcomes) (nowUs : Nat) (pass : Pass) : Keeps pass
    (Connection.tickSpaces outcomes nowUs pass) :=
  (((keeps_foldl (keeps_promote nowUs) _ pass).trans (keeps_foldl (keeps_detect outcomes nowUs) _ _)).trans
    (keeps_foldl (keeps_pto outcomes nowUs) _ _)).trans (keeps_gc outcomes _)

theorem keeps_idle (outcomes : Outcomes) (nowUs : Nat) (pass : Pass) : Keeps pass
    (Connection.tickIdle outcomes nowUs pass) := by
  unfold Connection.tickIdle
  split
  · split
    · exact keeps_more rfl
    · exact keeps_spaces outcomes nowUs pass
  · exact keeps_spaces outcomes nowUs pass

theorem keeps_open (outcomes : Outcomes) (nowUs : Nat) (pass : Pass) : Keeps pass
    (Connection.tickOpen outcomes nowUs pass) := by
  have anchored (anchor : Option Nat) : Keeps pass {pass with conn := {pass.conn with handshakeDeadlineUs := anchor}} := id
  unfold Connection.tickOpen
  split
  · rename_i deadline runs
    dsimp only
    split
    · exact (anchored (some deadline)).trans (keeps_more rfl)
    · exact (anchored (some deadline)).trans (keeps_idle outcomes nowUs _)
  · exact (anchored none).trans (keeps_idle outcomes nowUs _)

end Pass

namespace Connection

/-- What is due that no deadline is computed from is done by the first steps of a tick. -/
theorem tickFull_fires {conn : Connection} {nowUs h : Nat} (unlisted : h ∈ conn.unlisted) (due : h ≤ nowUs)
    (outcomes : Outcomes) :
    (tickFull outcomes conn nowUs).fired ≠ [] := by
  have first : (conn.overPaths (TimedPath.tickValidator nowUs)).2 ++
      ((conn.overPaths (TimedPath.tickValidator nowUs)).1.overPaths (TimedPath.expire nowUs)).2 ++
      (((conn.overPaths (TimedPath.tickValidator nowUs)).1.overPaths
        (TimedPath.expire nowUs)).1.discardExpiredApplicationReadKeys
        nowUs).2 ≠ [] := by
    intro none
    obtain ⟨both,discards⟩ := List.append_eq_nil_iff.mp none
    obtain ⟨validations,retirements⟩ := List.append_eq_nil_iff.mp both
    have validations := overPaths_quiet validations
    rcases List.mem_append.mp unlisted with validation | later
    · obtain ⟨p,there,inside⟩ := List.mem_flatMap.mp validation
      exact (validation_fires p nowUs).mpr ⟨h,inside,due⟩ (validations p there)
    · split_ifs at later with ended
      · rcases List.mem_append.mp later with retirement | discard
        · obtain ⟨p,kept,runs⟩ := List.mem_flatMap.mp retirement
          obtain ⟨there,live⟩ := List.mem_filter.mp kept
          have alive : p.path.path.validator.status ≠ .failed := by simpa using live
          have same : (p.tickValidator nowUs).1 = p := by
            unfold TimedPath.tickValidator
            dsimp only
            split_ifs with failed first
            · have fired := validations p there
              unfold TimedPath.tickValidator at fired
              dsimp only at fired
              rw [if_pos failed,if_pos first] at fired
              cases fired
            · exact absurd (.inl alive) first
            · rfl
          have inside : p ∈ (conn.overPaths (TimedPath.tickValidator nowUs)).1.paths := List.mem_map.mpr ⟨p,there,same⟩
          exact (expire_fires p nowUs).mpr ⟨h,Option.mem_toList.mp runs,due⟩ (overPaths_quiet retirements p inside)
        · refine (discard_fires _ nowUs).mpr ?_ discards
          exact ⟨h,Option.mem_toList.mp discard,due⟩
      · exact absurd later List.not_mem_nil
  unfold tickFull
  dsimp only
  split
  · split
    · exact Pass.keeps_more rfl first
    · exact first
  · split
    · exact Pass.keeps_more rfl first
    · exact first
  · split
    · exact first
    · exact Pass.keeps_open outcomes nowUs _ first

/-- A host that sleeps until the deadline that a connection names sleeps past none of its timed actions if and only if the
rest deadline is in force or each time that no deadline is computed from comes no earlier than one of the deadlines. -/
theorem sleeps_past_none_iff (conn : Connection) (outcomes : Outcomes) (nowUs : Nat) :
    (∀ laterUs, nowUs ≤ laterUs → laterUs ≤ maxU64 → (conn.tick outcomes laterUs).fired ≠ [] →
      ∃ d, conn.nextTimerDeadline nowUs = some d ∧ d.atUs ≤ laterUs) ↔
    (conn.restDeadlineValid = true ∨ ∀ h ∈ conn.unlisted, max h nowUs ≤ maxU64 →
    ∃ c ∈ conn.considered nowUs, c.atUs ≤ max h nowUs) := by
  cases rest : conn.restDeadlineValid with
  | true =>
    refine iff_of_true (fun laterUs _ _ fires => ?_) (.inl rfl)
    unfold tick at fires
    rw [rest] at fires
    unfold nextTimerDeadline
    rw [rest]
    cases kept : conn.restDeadline with
    | none =>
      rw [kept,if_pos ⟨rfl,rfl⟩] at fires
      exact absurd rfl fires
    | some d =>
      refine ⟨d,rfl,Nat.le_of_not_lt fun soon => ?_⟩
      rw [kept,if_pos ⟨rfl,decide_eq_true soon⟩] at fires
      exact fires rfl
  | false =>
    have whole (laterUs : Nat) : (conn.tick outcomes laterUs).fired = (tickFull outcomes conn laterUs).fired := by
      unfold tick
      rw [rest,if_neg fun both => Bool.false_ne_true both.1]
    have named : conn.nextTimerDeadline nowUs = (conn.considered nowUs).foldl considerDeadline none := by
      unfold nextTimerDeadline
      rw [rest,if_neg Bool.false_ne_true]
      rfl
    have reached (t : Nat) : (∃ d, (conn.considered nowUs).foldl considerDeadline none = some d ∧ d.atUs ≤ t) ↔
        ∃ c ∈ conn.considered nowUs, c.atUs ≤ t := by
      rw [foldl_consider_le]
      simp
    simp only [whole,named,reached,Bool.false_eq_true,false_or]
    constructor
    · intro all h unlisted small
      exact all (max h nowUs) (Nat.le_max_right h nowUs) small (tickFull_fires unlisted (Nat.le_max_left h nowUs) outcomes)
    · intro covered laterUs since small fires
      by_contra none
      have early : Early conn nowUs laterUs := by
        rintro atUs ⟨c,there,rfl⟩
        exact Nat.lt_of_not_le fun due => none ⟨c,there,due⟩
      refine fires (tickFull_quiet since early (fun h unlisted => Nat.lt_of_not_le fun due => none ?_) outcomes)
      have before : max h nowUs ≤ laterUs := Nat.max_le.mpr ⟨due,since⟩
      obtain ⟨c,there,early⟩ := covered h unlisted (before.trans small)
      exact ⟨c,there,early.trans before⟩

end Connection

/-- A path that is being validated, with nothing in flight. -/
def validating : TimedPath where
  path := {id := 0,path := {state := .active,validator := {status := .pending,pendingAtUs := 5000000,timeoutUs := 1200000}}}

/-- A server whose client has moved, and whose challenge was acknowledged but not answered. -/
def challenging : Connection where
  paths := [validating]
  initialKeysDiscarded := true
  handshakeKeysDiscarded := true
  localMaxIdleTimeoutMs := 30000
  peerMaxIdleTimeoutMs := some 30000
  lastActivityUs := 5000000

/-- The validation times out at 6.2 seconds; the one deadline is that of the idle timeout. -/
theorem validation_slept_past : ¬∀ laterUs, 5000000 ≤ laterUs → laterUs ≤ maxU64 → (challenging.tick {} laterUs).fired ≠ [] →
    ∃ d, challenging.nextTimerDeadline 5000000 = some d ∧ d.atUs ≤ laterUs := by
  intro all
  obtain ⟨d,named,early⟩ := all 6200001 (by decide) (by decide) (by decide +kernel)
  have idle : challenging.nextTimerDeadline 5000000 = some {kind := .idle,atUs := 35000000} := by decide +kernel
  rw [idle] at named
  cases named
  exact absurd early (by decide)

end QuicZig.Conn.Clock
