import QuicZig.Conn.InboundAccount
import QuicZig.Conn.InboundLimits

/-! Late frames for streams that are gone, and the ids that a higher one skipped. -/
namespace QuicZig.Conn.Inbound
open Machine Paths Streams SendFlow BlockedStreams

/-- The id had a stream, which is gone. -/
def Reclaimed (conn : Connection) (id : Nat) : Prop := conn.flow.ids.Used conn.flow.role id ∧ conn.flow.get id = none

def Call.about (role : Role) : Call → Option Nat
  | .stream s _ _ => if peerMaySendOnStream role s.streamId then some s.streamId else none
  | .resetStream rs => if peerMaySendOnStream role rs.streamId then some rs.streamId else none
  | .stopSending ss => if localMaySendOnStream role ss.streamId then some ss.streamId else none
  | .maxStreamData msd => if localMaySendOnStream role msd.streamId then some msd.streamId else none
  | .streamDataBlocked sdb => if peerMaySendOnStream role sdb.streamId then some sdb.streamId else none
  | _ => none

def Late (conn : Connection) (e : Event) : Prop := ∃ id, e.call.about conn.flow.role = some id ∧ Reclaimed conn id

/-- The step does no more than to note something: no error, no close, no stream and no change to one. -/
structure Harmless (conn : Connection) (e : Event) : Prop where
  ok : (conn.act e).1 = .ok ()
  live : (conn.act e).2.live = conn.live
  streams : (conn.act e).2.flow.streams = conn.flow.streams
  half : (conn.act e).2.half = conn.half

/-- A late STREAM_DATA_BLOCKED frame finds no place in the list of the streams that the peer says are blocked. -/
def Exhausts (conn : Connection) (e : Event) : Prop :=
  match e.call with
  | .streamDataBlocked sdb => conn.takes e = true ∧ peerMaySendOnStream conn.flow.role sdb.streamId = true ∧
      streamInitiatedByLocal conn.flow.role sdb.streamId = false ∧ Reclaimed conn sdb.streamId ∧
      sdb.streamId ∉ ids conn.blocked.peerStreamDataBlocked ∧
      if maxTrackedStreamDataBlocked ≤ conn.blocked.peerStreamDataBlocked.length then conn.live = true else e.grants 0 0 = false
  | _ => False

section
variable {conn : Connection} {id : Nat}

theorem used_within (sound : conn.slots.Sound) (used : conn.flow.ids.Used conn.flow.role id) :
    streamIndex id < StreamIdSpace.maxStreamCount ∧
      (streamInitiatedByLocal conn.flow.role id = false → streamIndex id < (conn.peerIds (streamIsBidi id)).limit) := by
  have early : streamIndex id < (conn.flow.ids.idSpace conn.flow.role id).opened := by
    unfold IdSpaces.Used StreamIdSpace.classify at used
    split at used
    · cases used
    · omega
  cases ours : streamInitiatedByLocal conn.flow.role id with
  | true =>
    refine ⟨?_,fun theirs => (nomatch theirs)⟩
    unfold IdSpaces.idSpace at early
    rw [if_pos ours] at early
    have bidi := sound.localBidi
    have uni := sound.localUni
    split at early
    · exact early.trans_le bidi
    · exact early.trans_le uni
  | false =>
    have space : conn.flow.ids.idSpace conn.flow.role id = conn.slots.peerIds (streamIsBidi id) :=
      Slots.idSpace_theirs (s := conn.slots) ours
    have bounded := sound.peer (streamIsBidi id)
    rw [space] at early
    have below := early.trans_le bounded.opened
    exact ⟨below.trans_le bounded.limit,fun _ => below⟩

theorem adoptPeer_still (conn : Connection) (id : Nat) (result : Except SendFlow.Error Bool) :
    conn.adoptPeer id (result,conn.flow) = (result.mapError .flow,conn) := by
  unfold Connection.adoptPeer Connection.adopt
  dsimp only
  have still : ((conn.flow.get id).isNone && (conn.flow.get id).isSome) = false := by cases conn.flow.get id <;> rfl
  rw [still]
  rfl

theorem openPeerStream_late (gone : Reclaimed conn id) (grants : Allocator) :
    conn.flow.openPeerStream grants id = (.ok false,conn.flow) := by
  unfold SendFlow.Connection.openPeerStream
  exact if_pos gone.1

theorem ensurePeerStream_late (gone : Reclaimed conn id) (may : peerMaySendOnStream conn.flow.role id = true) (grants : Allocator)
    (frame : SendFlow.Connection.PeerStreamFrame) : conn.ensurePeerStream grants id frame = (.ok false,conn) := by
  have ignored : conn.flow.ensurePeerStream grants id frame = (.ok false,conn.flow) := by
    unfold SendFlow.Connection.ensurePeerStream
    rw [if_neg (by simpa using may),if_neg (by rw [gone.2]; exact Bool.false_ne_true)]
    split
    · exact if_pos gone.1
    · exact openPeerStream_late gone grants
  unfold Connection.ensurePeerStream
  rw [ignored]
  exact adoptPeer_still conn id _

theorem sendPartForPeerFrame_late (gone : Reclaimed conn id) (may : localMaySendOnStream conn.flow.role id = true)
    (grants : Allocator) (frame : SendFlow.Connection.SendPartFrame) :
    conn.sendPartForPeerFrame grants id frame = (.ok false,conn) := by
  have ignored : conn.flow.sendPartForPeerFrame grants id frame = (.ok false,conn.flow) := by
    unfold SendFlow.Connection.sendPartForPeerFrame
    rw [if_neg (by simpa using may),if_neg (by rw [gone.2]; exact Bool.false_ne_true)]
    split
    · exact if_pos gone.1
    · exact openPeerStream_late gone grants
  unfold Connection.sendPartForPeerFrame
  rw [ignored]
  exact adoptPeer_still conn id _

theorem harmless_still {e : Event} (still : conn.act e = (.ok (),conn)) : Harmless conn e :=
  ⟨by rw [still],by rw [still],by rw [still],by rw [still]⟩

theorem close_dead (dead : conn.live ≠ true) (errorCode : Nat) (reason : String) : conn.close errorCode reason = conn := by
  have closed : conn.flow.pendingClose.isSome = true := by
    unfold Connection.live SendFlow.Connection.live at dead
    simpa [Option.isSome_iff_ne_none] using dead
  unfold Connection.close SendFlow.Connection.close
  rw [if_pos closed]

theorem handleStreamDataBlocked_late (sound : conn.slots.Sound) {sdb : Frame.StreamDataBlocked} (gone : Reclaimed conn sdb.streamId)
    (may : peerMaySendOnStream conn.flow.role sdb.streamId = true) (granted : Bool) :
    conn.handleStreamDataBlocked granted sdb =
      if streamInitiatedByLocal conn.flow.role sdb.streamId then (.ok (),conn)
      else match upsertStreamBlocked granted conn.blocked.peerStreamDataBlocked sdb with
        | (.error .streamLimitExceeded,_) =>
          (.ok (),conn.close transportErrorProtocolViolation "stream data blocked tracking exhausted")
        | (.error e,_) => (.error (.blocked e),conn)
        | (.ok _,list) => (.ok (),{conn with blocked := {conn.blocked with peerStreamDataBlocked := list}}) := by
  obtain ⟨bound,limit⟩ := used_within sound gone.1
  unfold Connection.handleStreamDataBlocked
  rw [if_neg (by simpa using may),if_neg (not_le.mpr bound),gone.2]
  cases ours : streamInitiatedByLocal conn.flow.role sdb.streamId with
  | true => rfl
  | false =>
    have within : conn.beyondLocalLimit sdb.streamId = none := by
      unfold Connection.beyondLocalLimit
      dsimp only
      rw [if_neg (not_le.mpr bound),if_neg (not_le.mpr (limit ours))]
    dsimp only [Option.isNone]
    rw [if_neg (by simp),if_pos rfl,within]
    rfl

/-- A late frame does no harm, but for one that finds no place in the list. -/
theorem late_harmless (sound : conn.slots.Sound) (e : Event) : (Late conn e → Harmless conn e) ↔ ¬ Exhausts conn e := by
  by_cases takes : conn.takes e = true
  swap
  · refine iff_of_true (fun _ => harmless_still (if_neg takes)) fun bad => ?_
    unfold Exhausts at bad
    split at bad
    · exact takes bad.1
    · exact bad
  have taken : conn.act e = conn.apply e := if_pos takes
  obtain ⟨call,grants,notes,behind⟩ := e
  cases call with
  | stream s varint packet =>
    refine ⟨fun _ => id,fun _ late => ?_⟩
    obtain ⟨id,about,gone⟩ := late
    obtain ⟨may,rfl⟩ : peerMaySendOnStream conn.flow.role s.streamId = true ∧ s.streamId = id := by
      simpa [Call.about] using about
    refine harmless_still (taken.trans ?_)
    have whole : checkedAdd s.offset s.data.length = some (s.offset+s.data.length) := by
      have largest : Wire.Varint.maxValue+maxSupportedUdpPayloadSize ≤ maxU64 := by decide
      exact if_pos (by omega)
    unfold Connection.apply Connection.handleStream
    dsimp only
    rw [whole,ensurePeerStream_late gone may]
  | resetStream rs =>
    refine ⟨fun _ => id,fun _ late => ?_⟩
    obtain ⟨id,about,gone⟩ := late
    obtain ⟨may,rfl⟩ : peerMaySendOnStream conn.flow.role rs.streamId = true ∧ rs.streamId = id := by
      simpa [Call.about] using about
    refine harmless_still (taken.trans ?_)
    unfold Connection.apply Connection.handleResetStream
    dsimp only
    rw [ensurePeerStream_late gone may]
  | stopSending ss =>
    refine ⟨fun _ => id,fun _ late => ?_⟩
    obtain ⟨id,about,gone⟩ := late
    obtain ⟨may,rfl⟩ : localMaySendOnStream conn.flow.role ss.streamId = true ∧ ss.streamId = id := by
      simpa [Call.about] using about
    refine harmless_still (taken.trans ?_)
    unfold Connection.apply Connection.handleStopSending
    dsimp only
    rw [sendPartForPeerFrame_late gone may]
  | maxStreamData msd =>
    refine ⟨fun _ => id,fun _ late => ?_⟩
    obtain ⟨id,about,gone⟩ := late
    obtain ⟨may,rfl⟩ : localMaySendOnStream conn.flow.role msd.streamId = true ∧ msd.streamId = id := by
      simpa [Call.about] using about
    refine harmless_still (taken.trans ?_)
    unfold Connection.apply Connection.handleMaxStreamData
    dsimp only
    rw [sendPartForPeerFrame_late gone may]
  | streamDataBlocked sdb =>
    constructor
    · rintro harmless ⟨_,may,theirs,gone,absent,full⟩
      obtain ⟨ok,still,_,_⟩ := harmless ⟨sdb.streamId,if_pos may,gone⟩
      rw [taken] at ok still
      change (conn.handleStreamDataBlocked (grants 0 0) sdb).1 = _ at ok
      change (conn.handleStreamDataBlocked (grants 0 0) sdb).2.live = _ at still
      rw [handleStreamDataBlocked_late sound gone may,if_neg (by rw [theirs]; exact Bool.false_ne_true)] at ok still
      unfold upsertStreamBlocked at ok still
      rw [find_none.mpr absent] at ok still
      dsimp only at ok still
      by_cases most : maxTrackedStreamDataBlocked ≤ conn.blocked.peerStreamDataBlocked.length
      · rw [if_pos most] at full
        have live : conn.live = true := full
        rw [if_pos most,live] at still
        have closed : (conn.close transportErrorProtocolViolation "stream data blocked tracking exhausted").live = false := by
          have open' : conn.flow.pendingClose = none := by
            unfold Connection.live SendFlow.Connection.live at live
            simpa using live
          unfold Connection.close SendFlow.Connection.close Connection.live SendFlow.Connection.live
          dsimp only
          rw [open']
          rfl
        rw [closed] at still
        cases still
      · have refused : (!grants 0 0) = true := by simpa [if_neg most] using full
        rw [if_neg most,if_pos refused] at ok
        cases ok
    · rintro fine ⟨id,about,gone⟩
      obtain ⟨may,rfl⟩ : peerMaySendOnStream conn.flow.role sdb.streamId = true ∧ sdb.streamId = id := by
        simpa [Call.about] using about
      have act : conn.act {call := .streamDataBlocked sdb,grants := grants,notes := notes,behind := behind} =
        conn.handleStreamDataBlocked (grants 0 0) sdb := taken
      rw [handleStreamDataBlocked_late sound gone may] at act
      cases ours : streamInitiatedByLocal conn.flow.role sdb.streamId with
      | true =>
        rw [if_pos ours] at act
        exact harmless_still act
      | false =>
        rw [if_neg (by rw [ours]; exact Bool.false_ne_true)] at act
        have noted : (∃ changed list, upsertStreamBlocked (grants 0 0) conn.blocked.peerStreamDataBlocked sdb = (.ok changed,list)) →
            Harmless conn {call := .streamDataBlocked sdb,grants := grants,notes := notes,behind := behind} := by
          rintro ⟨changed,list,noted⟩
          rw [noted] at act
          exact ⟨by rw [act],by rw [act]; rfl,by rw [act],by rw [act]⟩
        unfold upsertStreamBlocked at noted act
        by_cases listed : sdb.streamId ∈ ids conn.blocked.peerStreamDataBlocked
        · refine noted ?_
          cases found : findStreamBlocked conn.blocked.peerStreamDataBlocked sdb.streamId with
          | none => exact absurd listed (find_none.mp found)
          | some old =>
            dsimp only
            split <;> exact ⟨_,_,rfl⟩
        rw [find_none.mpr listed] at noted act
        dsimp only at noted act
        by_cases most : maxTrackedStreamDataBlocked ≤ conn.blocked.peerStreamDataBlocked.length
        · -- the list is full, so the connection was closed before, and it is not closed again
          have dead : conn.live ≠ true := fun live => fine ⟨takes,may,ours,gone,listed,by rw [if_pos most]; exact live⟩
          rw [if_pos most] at act
          exact harmless_still (act.trans (congrArg _ (close_dead dead _ _)))
        · have memory : grants 0 0 = true := by
            by_contra refused
            exact fine ⟨takes,may,ours,gone,listed,by rw [if_neg most]; exact Bool.eq_false_iff.mpr refused⟩
          refine noted ?_
          rw [if_neg most,if_neg (by rw [memory]; exact Bool.false_ne_true)]
          exact ⟨_,_,rfl⟩
  | _ => exact ⟨fun _ => id,fun _ ⟨_,about,_⟩ => (nomatch about)⟩

end

def Skipped (conn : Connection) (id : Nat) : Prop := (conn.flow.ids.idSpace conn.flow.role id).classify (streamIndex id) = .hole

/-- What this endpoint asks for before it opens a stream of its own in a gap. -/
def Admitted (conn : Connection) (id : Nat) : Prop :=
  let ids := conn.flow.ids.idSpace conn.flow.role id
  conn.flow.gracefulShutdown = false ∧ streamIndex id < StreamIdSpace.maxStreamCount ∧ streamIndex id < ids.limit ∧
    (RangeList.removalSplits ids.holes (streamIndex id) && decide (ids.holes.length ≥ maxLocalSkippedStreamRanges)) = false

/-- The first frame or call for a skipped id, where there is memory for its stream. -/
def Opens (conn : Connection) (e : Event) (id : Nat) : Prop :=
  (e.grants 0 0 = true ∧ e.grants 0 1 = true ∧ e.grants 0 2 = true) ∧
  match e.call with
  | .stream s _ _ => conn.takes e = true ∧ s.streamId = id ∧ streamInitiatedByLocal conn.flow.role id = false
  | .resetStream rs => conn.takes e = true ∧ rs.streamId = id ∧ streamInitiatedByLocal conn.flow.role id = false
  | .stopSending ss =>
    conn.takes e = true ∧ ss.streamId = id ∧ streamInitiatedByLocal conn.flow.role id = false ∧ streamIsBidi id = true
  | .maxStreamData msd =>
    conn.takes e = true ∧ msd.streamId = id ∧ streamInitiatedByLocal conn.flow.role id = false ∧ streamIsBidi id = true
  | .streamStopSending id' _ => id' = id ∧ streamInitiatedByLocal conn.flow.role id = false
  | .openBidi id' => id' = id ∧ streamInitiatedByLocal conn.flow.role id = true ∧ streamIsBidi id = true ∧ Admitted conn id
  | .openUni id' => id' = id ∧ streamInitiatedByLocal conn.flow.role id = true ∧ streamIsUni id = true ∧ Admitted conn id
  | _ => False

section
variable {conn mid after : Connection} {id : Nat}

theorem Quiet.used (quiet : Quiet conn after) (id : Nat) :
    after.flow.ids.Used after.flow.role id ↔ conn.flow.ids.Used conn.flow.role id := by
  have ids : after.flow.ids = conn.flow.ids := congrArg Slots.ids quiet
  have role : after.flow.role = conn.flow.role := congrArg Slots.role quiet
  rw [ids,role]

theorem Skipped.unused (skipped : Skipped conn id) : ¬ conn.flow.ids.Used conn.flow.role id := by
  unfold IdSpaces.Used
  rw [show _ = _ from skipped]
  exact fun absurd => (nomatch absurd)

theorem Skipped.absent (skipped : Skipped conn id) (housed : Housed conn) : conn.flow.get id = none := by
  by_contra there
  exact skipped.unused (housed.used id (mem_names.mpr (Option.isSome_iff_ne_none.mpr there)))

theorem materializeStream_skipped (housed : Housed conn) (skipped : Skipped conn id) {grants : Allocator} {cap : Option Nat}
    (granted : grants 0 = true ∧ grants 1 = true ∧ grants 2 = true)
    (below : streamIndex id < (conn.flow.ids.idSpace conn.flow.role id).limit)
    (room : (RangeList.removalSplits (conn.flow.ids.idSpace conn.flow.role id).holes (streamIndex id) &&
      cap.any ((conn.flow.ids.idSpace conn.flow.role id).holes.length ≥ ·)) = false) :
    (conn.flow.materializeStream grants id cap).1 = .ok () ∧
      (conn.flow.materializeStream grants id cap).2.ids.Used (conn.flow.materializeStream grants id cap).2.role id := by
  obtain ⟨space,ok⟩ := StreamIdSpace.open_hole below skipped room
  have used := ((IdSpaces.open_spec housed.ids ok).2.2 id).mpr (.inr rfl)
  unfold SendFlow.Connection.materializeStream
  rw [granted.1,granted.2.1,granted.2.2,ok]
  exact ⟨rfl,used⟩

/-- The limit never gets in the way of an id of the peer that was skipped, and neither does a cap. -/
theorem Skipped.theirs (skipped : Skipped conn id) (sound : conn.slots.Sound) (theirs : streamInitiatedByLocal conn.flow.role id = false) :
    streamIndex id < StreamIdSpace.maxStreamCount ∧ streamIndex id < (conn.flow.ids.idSpace conn.flow.role id).limit := by
  have space : conn.flow.ids.idSpace conn.flow.role id = conn.slots.peerIds (streamIsBidi id) :=
    Slots.idSpace_theirs (s := conn.slots) theirs
  have bounded := sound.peer (streamIsBidi id)
  have early : streamIndex id < (conn.flow.ids.idSpace conn.flow.role id).opened := by
    unfold Skipped StreamIdSpace.classify at skipped
    split at skipped
    · cases skipped
    · omega
  rw [space] at early ⊢
  have below := early.trans_le bounded.opened
  exact ⟨below.trans_le bounded.limit,below⟩

theorem openPeerStream_skipped (housed : Housed conn) (sound : conn.slots.Sound) (skipped : Skipped conn id)
    (theirs : streamInitiatedByLocal conn.flow.role id = false) {grants : Allocator}
    (granted : grants 0 = true ∧ grants 1 = true ∧ grants 2 = true) : (conn.flow.openPeerStream grants id).1 = .ok true := by
  obtain ⟨bound,below⟩ := skipped.theirs sound theirs
  have made := (@materializeStream_skipped _ _ housed skipped _ none granted below (by simp)).1
  unfold SendFlow.Connection.openPeerStream
  dsimp only
  rw [if_neg (by exact skipped.unused),if_neg (not_le.mpr bound),if_neg (not_le.mpr below)]
  dsimp only
  rw [made]
  rfl

theorem adoptPeer_result (conn : Connection) (id : Nat) (outcome : SendFlow.Outcome Bool) :
    (conn.adoptPeer id outcome).1 = outcome.1.mapError .flow := rfl

theorem ensurePeerStream_skipped (housed : Housed conn) (sound : conn.slots.Sound) (skipped : Skipped conn id)
    (theirs : streamInitiatedByLocal conn.flow.role id = false) {grants : Allocator}
    (granted : grants 0 = true ∧ grants 1 = true ∧ grants 2 = true) (frame : SendFlow.Connection.PeerStreamFrame) :
    (conn.ensurePeerStream grants id frame).2.flow.ids.Used (conn.ensurePeerStream grants id frame).2.flow.role id := by
  have ok : (conn.ensurePeerStream grants id frame).1 = .ok true := by
    have may : peerMaySendOnStream conn.flow.role id = true := by
      unfold peerMaySendOnStream
      rw [theirs,Bool.not_false,Bool.or_true]
    have reached : conn.flow.ensurePeerStream grants id frame = conn.flow.openPeerStream grants id := by
      unfold SendFlow.Connection.ensurePeerStream
      rw [if_neg (by simpa using may),if_neg (by rw [skipped.absent housed]; exact Bool.false_ne_true),
        if_neg (by rw [theirs]; exact Bool.false_ne_true)]
    unfold Connection.ensurePeerStream
    rw [adoptPeer_result,reached,openPeerStream_skipped housed sound skipped theirs granted]
    rfl
  have through := ensurePeerStream_through housed grants id frame
  generalize conn.ensurePeerStream grants id frame = outcome at ok through ⊢
  obtain ⟨result,mid⟩ := outcome
  obtain rfl : result = .ok true := ok
  exact (through.housed housed).used id through.there

theorem sendPartForPeerFrame_skipped (housed : Housed conn) (sound : conn.slots.Sound) (skipped : Skipped conn id)
    (theirs : streamInitiatedByLocal conn.flow.role id = false) (bidi : streamIsBidi id = true) {grants : Allocator}
    (granted : grants 0 = true ∧ grants 1 = true ∧ grants 2 = true) (frame : SendFlow.Connection.SendPartFrame) :
    (conn.sendPartForPeerFrame grants id frame).2.flow.ids.Used (conn.sendPartForPeerFrame grants id frame).2.flow.role id := by
  have ok : (conn.sendPartForPeerFrame grants id frame).1 = .ok true := by
    have may : localMaySendOnStream conn.flow.role id = true := by
      unfold localMaySendOnStream
      rw [bidi,Bool.true_or]
    have reached : conn.flow.sendPartForPeerFrame grants id frame = conn.flow.openPeerStream grants id := by
      unfold SendFlow.Connection.sendPartForPeerFrame
      rw [if_neg (by simpa using may),if_neg (by rw [skipped.absent housed]; exact Bool.false_ne_true),
        if_neg (by rw [theirs]; exact Bool.false_ne_true)]
    unfold Connection.sendPartForPeerFrame
    rw [adoptPeer_result,reached,openPeerStream_skipped housed sound skipped theirs granted]
    rfl
  have through := sendPartForPeerFrame_through housed grants id frame
  generalize conn.sendPartForPeerFrame grants id frame = outcome at ok through ⊢
  obtain ⟨result,mid⟩ := outcome
  obtain rfl : result = .ok true := ok
  exact (through.housed housed).used id through.there

theorem adopt_used {α : Type} {outcome : SendFlow.Outcome α} (used : outcome.2.ids.Used outcome.2.role id) :
    (conn.adopt id outcome).2.flow.ids.Used (conn.adopt id outcome).2.flow.role id := by
  have slots := adopt_slots conn id outcome
  have ids : (conn.adopt id outcome).2.flow.ids = outcome.2.ids := congrArg Slots.ids slots
  have role : (conn.adopt id outcome).2.flow.role = outcome.2.role := congrArg Slots.role slots
  rw [ids,role]
  exact used

theorem openLocalStream_skipped (housed : Housed conn) (skipped : Skipped conn id) (admitted : Admitted conn id) {grants : Allocator}
    (granted : grants 0 = true ∧ grants 1 = true ∧ grants 2 = true) :
    (conn.flow.openLocalStream grants id).2.ids.Used (conn.flow.openLocalStream grants id).2.role id := by
  obtain ⟨running,bound,below,room⟩ := admitted
  have unopened : ¬ ((conn.flow.get id).isSome = true ∨
      (conn.flow.ids.idSpace conn.flow.role id).classify (streamIndex id) = .used) := by
    rintro (there | used)
    · rw [skipped.absent housed] at there
      cases there
    · exact skipped.unused used
  have made := (@materializeStream_skipped _ _ housed skipped _ (some maxLocalSkippedStreamRanges) granted below room).2
  unfold SendFlow.Connection.openLocalStream
  dsimp only
  rw [if_neg (by simpa using unopened),if_neg (by rw [running]; exact Bool.false_ne_true),if_neg (not_le.mpr bound),
    if_neg (not_le.mpr below)]
  exact made

theorem skipped_opens (housed : Housed conn) (sound : conn.slots.Sound) (skipped : Skipped conn id) {e : Event}
    (opens : Opens conn e id) : (conn.act e).2.flow.ids.Used (conn.act e).2.flow.role id := by
  have taken : conn.takes e = true → conn.act e = conn.apply e := fun takes => if_pos takes
  obtain ⟨call,grants,notes,behind⟩ := e
  obtain ⟨granted,opens⟩ := opens
  cases call with
  | stream s varint packet =>
    obtain ⟨takes,rfl,theirs⟩ := opens
    rw [taken takes]
    have whole : checkedAdd s.offset s.data.length = some (s.offset+s.data.length) := by
      have largest : Wire.Varint.maxValue+maxSupportedUdpPayloadSize ≤ maxU64 := by decide
      exact if_pos (by omega)
    exact ((handleStream_quiet grants conn whole).used _).mpr (ensurePeerStream_skipped housed sound skipped theirs granted _)
  | resetStream rs =>
    obtain ⟨takes,rfl,theirs⟩ := opens
    rw [taken takes]
    exact ((handleResetStream_quiet (grants 0) conn rs).used _).mpr (ensurePeerStream_skipped housed sound skipped theirs granted _)
  | stopSending ss =>
    obtain ⟨takes,rfl,theirs,bidi⟩ := opens
    rw [taken takes]
    exact ((handleStopSending_quiet (grants 0) conn ss).used _).mpr
      (sendPartForPeerFrame_skipped housed sound skipped theirs bidi granted _)
  | maxStreamData msd =>
    obtain ⟨takes,rfl,theirs,bidi⟩ := opens
    rw [taken takes]
    exact ((handleMaxStreamData_quiet (grants 0) conn msd).used _).mpr
      (sendPartForPeerFrame_skipped housed sound skipped theirs bidi granted _)
  | streamStopSending id' code =>
    obtain ⟨rfl,theirs⟩ := opens
    rw [taken (Bool.or_true _)]
    have may : peerMaySendOnStream conn.flow.role id' = true := by
      unfold peerMaySendOnStream
      rw [theirs,Bool.not_false,Bool.or_true]
    refine ((stopSending_quiet grants conn code may).used _).mpr (adopt_used ?_)
    unfold SendFlow.Connection.streamStopSending
    rw [if_neg (by simpa using may),if_neg (by rw [skipped.absent housed]; exact Bool.false_ne_true),
      if_neg (by rw [theirs]; exact Bool.false_ne_true),if_neg (by exact not_not.mpr skipped)]
    exact (materializeStream_skipped housed skipped granted (skipped.theirs sound theirs).2 (by simp)).2
  | openBidi id' =>
    obtain ⟨rfl,ours,bidi,admitted⟩ := opens
    rw [taken (Bool.or_true _)]
    refine adopt_used ?_
    unfold SendFlow.Connection.openBidi
    rw [if_neg (by rw [ours,bidi]; exact Bool.false_ne_true)]
    exact openLocalStream_skipped housed skipped admitted granted
  | openUni id' =>
    obtain ⟨rfl,ours,uni,admitted⟩ := opens
    rw [taken (Bool.or_true _)]
    refine adopt_used ?_
    unfold SendFlow.Connection.openUni
    rw [if_neg (by rw [ours,uni]; exact Bool.false_ne_true)]
    exact openLocalStream_skipped housed skipped admitted granted
  | _ => exact opens.elim

end

/-- A step treats the streams that are gone as gone, and the ids that were skipped as still free. -/
structure Respects (h : History) (e : Event) : Prop where
  late : Late h.conn e → Harmless h.conn e
  gone : ∀ id, Reclaimed h.conn id → (step h e).conn.flow.get id = none
  spare : ∀ id, Skipped h.conn id → id ∉ h.opened
  opens : ∀ id, Skipped h.conn id → Opens h.conn e id → id ∈ (step h e).opened
  once : (step h e).opened.Nodup

theorem Kept.respects {h : History} (kept : Kept h) (sound : h.conn.slots.Sound) (e : Event) :
    Respects h e ↔ ¬ Exhausts h.conn e := by
  rw [← late_harmless sound e]
  refine ⟨Respects.late,fun harmless => ?_⟩
  obtain ⟨charged,risen,booked⟩ := @step_booked False h kept e fun absurd => absurd.elim
  have kept' := booked.kept
  refine ⟨harmless,fun id gone => ?_,fun id skipped there => skipped.unused ((kept.used id).mpr there),
    fun id skipped opens => (kept'.used id).mp (skipped_opens kept.housed sound skipped opens),kept'.once⟩
  by_contra there
  have named : id ∈ names (step h e).conn := mem_names.mpr (Option.isSome_iff_ne_none.mpr there)
  have again : id ∈ made h.conn (step h e).conn := by
    unfold made
    rw [List.mem_filter]
    exact ⟨named,by rw [gone.2]; rfl⟩
  -- the stream of the id would be in the list twice
  have opened : (step h e).opened = h.opened ++ made h.conn (step h e).conn := rfl
  have apart := (List.nodup_append.mp (opened ▸ kept'.once)).2.2
  exact apart id ((kept.used id).mp gone.1) id again rfl

/-- Streams that are gone stay gone, whatever comes late for them, and a skipped id can be opened once. It is so just
in the runs where every late STREAM_DATA_BLOCKED frame finds a place in the list of blocked streams. -/
theorem reclaimed_stays_gone (start : History) (events : List Event) (fresh : Fresh start) :
    System.Admits step Respects start events ↔ System.Admits step (fun h e => ¬ Exhausts h.conn e) start events := by
  have exactly : ∀ h, Kept h → h.conn.slots.Sound → (∀ bidi, Slots.Offered h.conn.slots bidi) → ∀ rest,
      System.Admits step Respects h rest ↔ System.Admits step (fun h e => ¬ Exhausts h.conn e) h rest := by
    intro h kept sound offered rest
    induction rest generalizing h with
    | nil => exact Iff.rfl
    | cons e rest ih =>
      obtain ⟨charged,risen,booked⟩ := @step_booked False h kept e fun absurd => absurd.elim
      obtain ⟨sound',offered',_⟩ := act_keeps sound offered e
      exact and_congr (kept.respects sound e) (ih (step h e) booked.kept sound' offered')
  obtain ⟨kept,_⟩ := kept_fresh fresh
  obtain ⟨sound,offered⟩ := fresh_slots fresh
  exact exactly start kept sound offered events
instance (conn : Connection) (id : Nat) : Decidable (Reclaimed conn id) :=
  decidable_of_iff (conn.flow.ids.Used conn.flow.role id ∧ (conn.flow.get id).isNone = true) (by rw [Option.isNone_iff_eq_none]; rfl)

instance (conn : Connection) (e : Event) : Decidable (Exhausts conn e) := by
  obtain ⟨call,grants,notes,behind⟩ := e
  apply Call.casesOn (motive := fun call => Decidable (Exhausts conn ⟨call,grants,notes,behind⟩)) call <;>
    (intros; delta Exhausts; dsimp only; infer_instance)

theorem reclaimed_stays_gone_late :
    System.Admits step Respects announcing
      [{call := .stream {streamId := 2,offset := 0,data := [7],fin := true} (by decide) (by decide)},{call := .streamRead 2 1},
       {call := .gcClosedStreams [2]},{call := .stream {streamId := 2,offset := 0,data := [7],fin := true} (by decide) (by decide)},
       {call := .resetStream {streamId := 10,applicationErrorCode := 0,finalSize := 0}},
       {call := .stream {streamId := 6,offset := 0,data := [1]} (by decide) (by decide)},
       {call := .streamDataBlocked {streamId := 2,maximumStreamData := 0}},
       {call := .resetStream {streamId := 2,applicationErrorCode := 0,finalSize := 1}}] :=
  (reclaimed_stays_gone announcing _ announcing_fresh).mpr (by decide +kernel)

theorem run_sound {start : History} (fresh : Fresh start) (events : List Event) : (System.run step start events).conn.slots.Sound := by
  have all : ∀ h : History, h.conn.slots.Sound → (∀ bidi, Slots.Offered h.conn.slots bidi) → ∀ rest,
      (System.run step h rest).conn.slots.Sound := by
    intro h sound offered rest
    induction rest generalizing h with
    | nil => exact sound
    | cons e rest ih =>
      obtain ⟨sound',offered',_⟩ := act_keeps sound offered e
      exact ih (step h e) sound' offered'
  obtain ⟨sound,offered⟩ := fresh_slots fresh
  exact all start sound offered events

/-- The peer may say that it is blocked on the stream. -/
def Reportable (conn : Connection) (id : Nat) : Prop :=
  peerMaySendOnStream conn.flow.role id = true ∧ streamIndex id < StreamIdSpace.maxStreamCount ∧
    ((conn.flow.get id).isSome = true ∨
      (streamInitiatedByLocal conn.flow.role id = false ∧ streamIndex id < (conn.peerIds (streamIsBidi id)).limit))

def reports (blocked : List Nat) : List Event := blocked.map fun id => {call := .streamDataBlocked {streamId := id,maximumStreamData := 0}}

theorem reports_listed {blocked : List Nat} {h : History} (live : h.conn.live = true) (once : blocked.Nodup)
    (reportable : ∀ id ∈ blocked, Reportable h.conn id) (fresh : ∀ id ∈ blocked, id ∉ ids h.conn.blocked.peerStreamDataBlocked)
    (room : h.conn.blocked.peerStreamDataBlocked.length+blocked.length ≤ maxTrackedStreamDataBlocked) :
    ∃ list, (System.run step h (reports blocked)).conn = {h.conn with blocked := {h.conn.blocked with peerStreamDataBlocked := list}} ∧
      ids list = ids h.conn.blocked.peerStreamDataBlocked ++ blocked := by
  induction blocked generalizing h with
  | nil => exact ⟨_,rfl,(List.append_nil _).symm⟩
  | cons id rest ih =>
    obtain ⟨absent,once'⟩ := List.nodup_cons.mp once
    obtain ⟨may,bound,known⟩ := reportable id List.mem_cons_self
    have new := fresh id List.mem_cons_self
    rw [List.length_cons] at room
    have noted : upsertStreamBlocked true h.conn.blocked.peerStreamDataBlocked {streamId := id,maximumStreamData := 0} =
        (.ok true,h.conn.blocked.peerStreamDataBlocked ++ [{streamId := id,maximumStreamData := 0}]) := by
      unfold upsertStreamBlocked
      rw [find_none.mpr new]
      exact (if_neg (by omega)).trans (if_neg Bool.false_ne_true)
    have handled : h.conn.handleStreamDataBlocked true {streamId := id,maximumStreamData := 0} = (.ok (),{h.conn with blocked :=
        {h.conn.blocked with peerStreamDataBlocked :=
          h.conn.blocked.peerStreamDataBlocked ++ [{streamId := id,maximumStreamData := 0}]}}) := by
      unfold Connection.handleStreamDataBlocked
      rw [if_neg (by simpa using may),if_neg (not_le.mpr bound)]
      dsimp only
      rcases known with there | ⟨theirs,limit⟩
      · have absent : (h.conn.flow.get id).isNone = false := by
          cases found : h.conn.flow.get id with
          | none =>
            rw [found] at there
            cases there
          | some _ => rfl
        rw [absent,noted]
        rfl
      · have within : h.conn.beyondLocalLimit id = none := by
          unfold Connection.beyondLocalLimit
          dsimp only
          rw [if_neg (not_le.mpr bound),if_neg (not_le.mpr limit)]
        rw [theirs,within,Bool.and_false,ite_self,noted]
        rfl
    have act : h.conn.act {call := .streamDataBlocked {streamId := id,maximumStreamData := 0}} =
        h.conn.handleStreamDataBlocked true {streamId := id,maximumStreamData := 0} := by
      have takes : h.conn.takes {call := .streamDataBlocked {streamId := id,maximumStreamData := 0}} = true :=
        (Bool.or_eq_true _ _).mpr (.inl live)
      exact if_pos takes
    have next : (step h {call := .streamDataBlocked {streamId := id,maximumStreamData := 0}}).conn = {h.conn with blocked :=
        {h.conn.blocked with peerStreamDataBlocked :=
          h.conn.blocked.peerStreamDataBlocked ++ [{streamId := id,maximumStreamData := 0}]}} := by
      change (h.conn.act _).2 = _
      rw [act,handled]
    have more : ids (h.conn.blocked.peerStreamDataBlocked ++ [{streamId := id,maximumStreamData := 0}]) =
      ids h.conn.blocked.peerStreamDataBlocked ++ [id] := List.map_append
    obtain ⟨list,reached,names⟩ := @ih (step h {call := .streamDataBlocked {streamId := id,maximumStreamData := 0}})
      (by rw [next]; exact live) once' (fun other there => by
        rw [next]
        exact reportable other (List.mem_cons_of_mem _ there)) (fun other there => by
        rw [next]
        dsimp only
        rw [more,List.mem_append,List.mem_singleton]
        rintro (old | rfl)
        · exact fresh other (List.mem_cons_of_mem _ there) old
        · exact absent there) (by
        rw [next]
        dsimp only
        rw [List.length_append,List.length_singleton]
        omega)
    refine ⟨list,?_,?_⟩
    · change (System.run step (step h _) (reports rest)).conn = _
      rw [reached,next]
    · rw [names,next]
      dsimp only
      rw [more,List.append_assoc]
      rfl

/-- What a server that lets its peer open as many streams as it can announces. -/
def generous : Tls.TransportParams.Params :=
  {initialMaxData := 65536,initialMaxStreamDataUni := 4096,initialMaxStreamsBidi := maxConcurrentStreamsPerKind
   initialMaxStreamsUni := maxConcurrentStreamsPerKind}

def crowded : History := {conn := start .server generous (32*1024*1024)}

theorem crowded_fresh : Fresh crowded :=
  ⟨.server,generous,32*1024*1024,SendStream.defaultMaxBufferedSend,16*1024*1024,true,true,8*1024*1024,16*1024*1024,
    ⟨by decide,by decide,by decide,by decide,by decide,by decide,by decide⟩,rfl⟩

/-- The first unidirectional stream of the peer comes and goes, and this endpoint opens a stream of its own. -/
def comings : List Event :=
  [{call := .stream {streamId := 2,offset := 0,data := [],fin := true} (by decide) (by decide)},{call := .gcClosedStreams [2]},
   {call := .openBidi 1}]

/-- All the other streams that the peer may say it is blocked on. -/
def others : List Nat :=
  1::((List.range maxConcurrentStreamsPerKind).map (4*·) ++ (List.range (maxConcurrentStreamsPerKind-1)).map (4*·+6))

theorem others_spec : others.Nodup ∧ others.length = maxTrackedStreamDataBlocked ∧ 2 ∉ others := by
  have bidi : ∀ id ∈ (List.range maxConcurrentStreamsPerKind).map (4*·), id % 4 = 0 := by
    intro id there
    obtain ⟨n,_,rfl⟩ := List.mem_map.mp there
    omega
  have uni : ∀ id ∈ (List.range (maxConcurrentStreamsPerKind-1)).map (4*·+6), id % 4 = 2 ∧ 6 ≤ id := by
    intro id there
    obtain ⟨n,_,rfl⟩ := List.mem_map.mp there
    omega
  unfold others
  refine ⟨List.nodup_cons.mpr ⟨fun there => ?_,List.nodup_append.mpr ⟨?_,?_,fun x first y second same => ?_⟩⟩,?_,fun there => ?_⟩
  · rcases List.mem_append.mp there with first | second
    · have := bidi 1 first
      omega
    · have := uni 1 second
      omega
  · exact List.nodup_range.map fun x y same => by omega
  · exact List.nodup_range.map fun x y same => by omega
  · have even := bidi x first
    have odd := uni y second
    omega
  · rw [List.length_cons,List.length_append,List.length_map,List.length_map,List.length_range,List.length_range]
    rfl
  · rcases List.mem_cons.mp there with one | there
    · cases one
    rcases List.mem_append.mp there with first | second
    · have := bidi 2 first
      omega
    · have := uni 2 second
      omega

theorem theirs_spec {id : Nat} (even : id % 2 = 0) (below : id/4 < maxConcurrentStreamsPerKind) :
    peerMaySendOnStream .server id = true ∧ streamIndex id < StreamIdSpace.maxStreamCount ∧
      streamInitiatedByLocal .server id = false ∧ streamIndex id < maxConcurrentStreamsPerKind := by
  have most : maxConcurrentStreamsPerKind ≤ StreamIdSpace.maxStreamCount := by decide
  have theirs : streamInitiatedByLocal .server id = false := by
    unfold streamInitiatedByLocal
    rw [IdSpaces.streamInitiatedByClient_eq,decide_eq_true even]
    rfl
  have index : streamIndex id < maxConcurrentStreamsPerKind := (IdSpaces.streamIndex_eq id).trans_lt below
  refine ⟨?_,index.trans_le most,theirs,index⟩
  unfold peerMaySendOnStream
  rw [theirs,Bool.not_false,Bool.or_true]

/-- A late frame closes a connection whose list is full of streams that are not there. -/
theorem late_frame_closes :
    ¬ System.Admits step Respects crowded
      (comings ++ (reports others ++ [{call := .streamDataBlocked {streamId := 2,maximumStreamData := 0}}])) := by
  intro all
  obtain ⟨once,length,spared⟩ := others_spec
  have ready : (System.run step crowded comings).conn.live = true ∧
      Reclaimed (System.run step crowded comings).conn 2 ∧ (System.run step crowded comings).conn.flow.role = .server ∧
      ((System.run step crowded comings).conn.flow.get 1).isSome = true ∧
      (∀ bidi, ((System.run step crowded comings).conn.peerIds bidi).limit = maxConcurrentStreamsPerKind) ∧
      (System.run step crowded comings).conn.blocked.peerStreamDataBlocked = [] := by decide +kernel
  have sound := run_sound crowded_fresh (comings ++ reports others)
  have last := (System.Admits.append.mp (System.Admits.append.mp all).2).2
  rw [System.run,List.foldl_append] at sound
  change (System.run step (System.run step crowded comings) (reports others)).conn.slots.Sound at sound
  generalize System.run step crowded comings = h at ready sound last
  obtain ⟨live,gone,role,own,limit,empty⟩ := ready
  have reportable : ∀ id ∈ others, Reportable h.conn id := by
    intro id there
    unfold Reportable
    rw [role,limit]
    rcases List.mem_cons.mp there with rfl | there
    · exact ⟨rfl,by decide,.inl own⟩
    rcases List.mem_append.mp there with first | second
    · obtain ⟨n,below,rfl⟩ := List.mem_map.mp first
      obtain ⟨may,bound,theirs,within⟩ := @theirs_spec (4*n) (by omega) (by have := List.mem_range.mp below; omega)
      exact ⟨may,bound,.inr ⟨theirs,within⟩⟩
    · obtain ⟨n,below,rfl⟩ := List.mem_map.mp second
      obtain ⟨may,bound,theirs,within⟩ := @theirs_spec (4*n+6) (by omega) (by have := List.mem_range.mp below; omega)
      exact ⟨may,bound,.inr ⟨theirs,within⟩⟩
  obtain ⟨list,reached,listed⟩ := reports_listed live once reportable (fun id _ => by rw [empty]; exact List.not_mem_nil) (by
    rw [empty,length]
    rfl)
  rw [empty] at listed
  refine (late_harmless sound _).mp last.1.late ?_
  rw [reached]
  refine ⟨(Bool.or_eq_true _ _).mpr (.inl live),?_,?_,gone,?_,?_⟩
  · rw [role]
    rfl
  · rw [role]
    rfl
  · change 2 ∉ ids list
    rw [listed]
    exact spared
  · have full := congrArg List.length listed
    unfold ids at full
    rw [List.length_map] at full
    rw [if_pos (full.trans length).ge]
    exact live

end QuicZig.Conn.Inbound
