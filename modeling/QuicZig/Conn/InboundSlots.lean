import Mathlib.Logic.Relation
import QuicZig.Conn.InboundRun
import QuicZig.Conn.SendFlowTable

/-! The stream ids of a connection by themselves: what is open, what was promised to the
peer, and where it says it is blocked. Every call moves them in a few ways only. -/
namespace QuicZig.Conn.Inbound
open Machine Paths Streams SendFlow

structure Slots where
  role : Role
  ids : IdSpaces
  /-- Where the peer says it is blocked, and the MAX_STREAMS frame that waits, by kind: `true` is bidirectional. -/
  blockedAt : Bool → Option Nat
  pending : Bool → Option Nat
  shut : Bool

namespace Slots

def peerIds (s : Slots) (bidi : Bool) : StreamIdSpace := if bidi then s.ids.peerBidiIds else s.ids.peerUniIds

def setPeer (s : Slots) (bidi : Bool) (space : StreamIdSpace) : Slots :=
  {s with ids := if bidi then {s.ids with peerBidiIds := space} else {s.ids with peerUniIds := space}}

def raise (s : Slots) (bidi : Bool) (limit : Nat) : Slots :=
  {s.setPeer bidi {s.peerIds bidi with limit := limit} with
    blockedAt := Function.update s.blockedAt bidi (if (s.blockedAt bidi).any (limit > ·) then none else s.blockedAt bidi)
    pending := Function.update s.pending bidi (if (s.pending bidi).all (limit > ·) then some limit else s.pending bidi)}

def queueMaxStreams (s : Slots) (bidi : Bool) (maximumStreams : Nat) : Slots :=
  if s.shut then s
  else if maximumStreams > StreamIdSpace.maxStreamCount then s
  else
    let bounded := min maximumStreams (saturatingAdd (s.peerIds bidi).closed maxConcurrentStreamsPerKind)
    if bounded ≤ (s.peerIds bidi).limit then s else s.raise bidi bounded

def advertise (s : Slots) (bidi : Bool) : Slots :=
  match (s.peerIds bidi).creditToAdvertise (s.blockedAt bidi) with
  | none => s
  | some newLimit => s.queueMaxStreams bidi newLimit

/-- The credit that an event may have freed is given to the peer, if the event was about its ids. -/
def offer (s : Slots) (id : Nat) : Slots := if streamInitiatedByLocal s.role id then s else s.advertise (streamIsBidi id)

end Slots

def Connection.slots (conn : Connection) : Slots where
  role := conn.flow.role
  ids := conn.flow.ids
  blockedAt bidi := if bidi then conn.peerStreamsBlockedBidi else conn.peerStreamsBlockedUni
  pending bidi := if bidi then conn.pendingFrames.maxStreamsBidi else conn.pendingFrames.maxStreamsUni
  shut := conn.flow.gracefulShutdown

inductive Move (s : Slots) : Slots → Prop
  | opened {granted : Bool} {id : Nat} {cap : Option Nat} {space : StreamIdSpace} (bound : streamIndex id < StreamIdSpace.maxStreamCount)
      (ok : (s.ids.idSpace s.role id).open granted (streamIndex id) cap = (.ok (),space)) :
      Move s (Slots.offer {s with ids := s.ids.modify s.role id fun _ => space} id)
  /-- The application stops a stream of the peer that was skipped. -/
  | filled {granted : Bool} {id : Nat} {cap : Option Nat} {space : StreamIdSpace} (theirs : streamInitiatedByLocal s.role id = false)
      (hole : (s.ids.idSpace s.role id).classify (streamIndex id) = .hole)
      (ok : (s.ids.idSpace s.role id).open granted (streamIndex id) cap = (.ok (),space)) :
      Move s {s with ids := s.ids.modify s.role id fun _ => space}
  | closed (id : Nat) : Move s (Slots.offer {s with ids := s.ids.modify s.role id (·.noteClosed)} id)
  | queued (bidi : Bool) (maximumStreams : Nat) : Move s (s.queueMaxStreams bidi maximumStreams)
  | granted (bidiLimit uniLimit : Nat) : Move s {s with ids := {s.ids with
      localBidiIds := {s.ids.localBidiIds with limit := bidiLimit},localUniIds := {s.ids.localUniIds with limit := uniLimit}}}
  | shut : Move s {s with shut := true}

def Moves : Slots → Slots → Prop := Relation.ReflTransGen Move

section
variable {conn mid after : Connection} {id : Nat}

/-- The ids are as they were. -/
def Quiet (conn after : Connection) : Prop := after.slots = conn.slots

theorem Quiet.refl (conn : Connection) : Quiet conn conn := rfl

theorem Quiet.trans (first : Quiet conn mid) (second : Quiet mid after) : Quiet conn after := Eq.trans second first

theorem Quiet.moves (quiet : Quiet conn after) : Moves conn.slots after.slots := by
  rw [show after.slots = conn.slots from quiet]
  exact .refl

theorem Slots.ext' {s t : Slots} (role : s.role = t.role) (ids : s.ids = t.ids) (bidiBlocked : s.blockedAt true = t.blockedAt true)
    (uniBlocked : s.blockedAt false = t.blockedAt false) (bidiPending : s.pending true = t.pending true)
    (uniPending : s.pending false = t.pending false) (shut : s.shut = t.shut) : s = t := by
  have blocked : s.blockedAt = t.blockedAt := funext fun bidi => by
    cases bidi
    · exact uniBlocked
    · exact bidiBlocked
  have pending : s.pending = t.pending := funext fun bidi => by
    cases bidi
    · exact uniPending
    · exact bidiPending
  obtain ⟨_,_,_,_,_⟩ := s
  obtain ⟨_,_,_,_,_⟩ := t
  cases role
  cases ids
  cases blocked
  cases pending
  cases shut
  rfl

/-- The send side goes on, and its ids are as they were. -/
structure Idle (flow after : SendFlow.Connection) : Prop where
  role : after.role = flow.role
  ids : after.ids = flow.ids
  shut : after.gracefulShutdown = flow.gracefulShutdown

theorem Idle.refl (flow : SendFlow.Connection) : Idle flow flow := ⟨rfl,rfl,rfl⟩

theorem Idle.trans {flow mid after : SendFlow.Connection} (first : Idle flow mid) (second : Idle mid after) : Idle flow after :=
  ⟨second.role.trans first.role,second.ids.trans first.ids,second.shut.trans first.shut⟩

theorem Idle.quiet (idle : Idle conn.flow after.flow) (bidiBlocked : after.peerStreamsBlockedBidi = conn.peerStreamsBlockedBidi)
    (uniBlocked : after.peerStreamsBlockedUni = conn.peerStreamsBlockedUni) (pending : after.pendingFrames = conn.pendingFrames) :
    Quiet conn after :=
  Slots.ext' idle.role idle.ids bidiBlocked uniBlocked (congrArg (·.maxStreamsBidi) pending) (congrArg (·.maxStreamsUni) pending)
    idle.shut

theorem close_quiet (conn : Connection) (errorCode : Nat) (reason : String) : Quiet conn (conn.close errorCode reason) := by
  unfold Connection.close SendFlow.Connection.close
  split <;> rfl

theorem raise_slots (conn : Connection) (bidi : Bool) (limit : Nat) :
    (conn.raiseMaxStreams bidi limit).slots = conn.slots.raise bidi limit := by
  cases bidi
  · have waits : conn.slots.pending false = conn.pendingFrames.maxStreamsUni := rfl
    unfold Connection.raiseMaxStreams Slots.raise
    rw [waits]
    by_cases higher : conn.pendingFrames.maxStreamsUni.all (limit > ·) = true
    · rw [if_pos higher,if_pos higher]
      exact Slots.ext' rfl rfl rfl rfl rfl rfl rfl
    · rw [if_neg higher,if_neg higher]
      exact Slots.ext' rfl rfl rfl rfl rfl rfl rfl
  · have waits : conn.slots.pending true = conn.pendingFrames.maxStreamsBidi := rfl
    unfold Connection.raiseMaxStreams Slots.raise
    rw [waits]
    by_cases higher : conn.pendingFrames.maxStreamsBidi.all (limit > ·) = true
    · rw [if_pos higher,if_pos higher]
      exact Slots.ext' rfl rfl rfl rfl rfl rfl rfl
    · rw [if_neg higher,if_neg higher]
      exact Slots.ext' rfl rfl rfl rfl rfl rfl rfl

theorem queueMaxStreams_slots (conn : Connection) (bidi : Bool) (maximumStreams : Nat) :
    (conn.queueMaxStreams bidi maximumStreams).slots = conn.slots.queueMaxStreams bidi maximumStreams := by
  have ids : conn.slots.peerIds bidi = conn.peerIds bidi := rfl
  have shut : conn.slots.shut = conn.flow.gracefulShutdown := rfl
  unfold Connection.queueMaxStreams Slots.queueMaxStreams
  dsimp only
  rw [ids,shut]
  split
  · rfl
  split
  · rfl
  split
  · rfl
  · exact raise_slots conn bidi _

theorem advertise_slots (conn : Connection) (bidi : Bool) :
    (conn.maybeAdvertiseStreamCredit bidi).slots = conn.slots.advertise bidi := by
  unfold Connection.maybeAdvertiseStreamCredit Slots.advertise
  have ids : conn.slots.peerIds bidi = conn.peerIds bidi := rfl
  have blocked : conn.slots.blockedAt bidi = if bidi then conn.peerStreamsBlockedBidi else conn.peerStreamsBlockedUni := rfl
  rw [ids,blocked]
  cases (conn.peerIds bidi).creditToAdvertise (if bidi then conn.peerStreamsBlockedBidi else conn.peerStreamsBlockedUni) with
  | none => rfl
  | some newLimit => exact queueMaxStreams_slots conn bidi newLimit

structure OpenedIds (cap : Option Nat) (id : Nat) (conn after : SendFlow.Connection) : Prop where
  role : after.role = conn.role
  space : ∃ granted space, (conn.ids.idSpace conn.role id).open granted (streamIndex id) cap = (.ok (),space) ∧
    after.ids = conn.ids.modify conn.role id fun _ => space
  shut : after.gracefulShutdown = conn.gracefulShutdown
  there : (after.get id).isSome = true

theorem materializeStream_ids (grants : Allocator) (conn : SendFlow.Connection) (id : Nat) (cap : Option Nat) :
    (conn.materializeStream grants id cap).2 = conn ∨ OpenedIds cap id conn (conn.materializeStream grants id cap).2 := by
  unfold SendFlow.Connection.materializeStream
  split
  · exact .inl rfl
  cases outcome : (conn.ids.idSpace conn.role id).open (grants 2) (streamIndex id) cap with
  | mk result space =>
  cases result with
  | error e =>
    left
    dsimp only
    rw [StreamIdSpace.open_error outcome,IdSpaces.modify_same]
  | ok _ =>
    refine .inr ⟨rfl,⟨_,space,outcome,rfl⟩,rfl,?_⟩
    unfold SendFlow.Connection.get
    rw [List.find?_append,Option.isSome_or,List.find?_singleton]
    simp

/-- A frame of the peer either opens the stream, or leaves the table as it is. -/
def Arrives (id : Nat) (conn after : SendFlow.Connection) : Prop :=
  (Idle conn after ∧ after.get id = conn.get id) ∨
    (streamInitiatedByLocal conn.role id = false ∧ conn.get id = none ∧ streamIndex id < StreamIdSpace.maxStreamCount ∧
      OpenedIds none id conn after)

theorem close_arrives (conn : SendFlow.Connection) (id errorCode : Nat) (reason : String) :
    Arrives id conn (conn.close true errorCode reason) := by
  left
  unfold SendFlow.Connection.close
  split
  · exact ⟨.refl _,rfl⟩
  · exact ⟨⟨rfl,rfl,rfl⟩,rfl⟩

theorem openPeerStream_arrives (grants : Allocator) (conn : SendFlow.Connection) (id : Nat)
    (theirs : streamInitiatedByLocal conn.role id = false) (absent : conn.get id = none) :
    Arrives id conn (conn.openPeerStream grants id).2 := by
  unfold SendFlow.Connection.openPeerStream
  dsimp only
  split
  · exact .inl ⟨.refl _,rfl⟩
  split
  · exact close_arrives conn id _ _
  rename_i bound
  split
  · exact close_arrives conn id _ _
  · rcases materializeStream_ids grants conn id none with same | opened
    · rw [same]
      exact .inl ⟨.refl _,rfl⟩
    · exact .inr ⟨theirs,absent,not_le.mp bound,opened⟩

theorem ensurePeerStream_arrives (grants : Allocator) (conn : SendFlow.Connection) (id : Nat)
    (frame : SendFlow.Connection.PeerStreamFrame) : Arrives id conn (conn.ensurePeerStream grants id frame).2 := by
  unfold SendFlow.Connection.ensurePeerStream
  split
  · exact close_arrives conn id _ _
  split
  · exact .inl ⟨.refl _,rfl⟩
  rename_i absent
  split
  · split
    · exact .inl ⟨.refl _,rfl⟩
    · exact close_arrives conn id _ _
  · rename_i theirs
    exact openPeerStream_arrives grants conn id (by simpa using theirs) (by simpa using absent)

theorem sendPartForPeerFrame_arrives (grants : Allocator) (conn : SendFlow.Connection) (id : Nat)
    (frame : SendFlow.Connection.SendPartFrame) : Arrives id conn (conn.sendPartForPeerFrame grants id frame).2 := by
  unfold SendFlow.Connection.sendPartForPeerFrame
  split
  · exact close_arrives conn id _ _
  split
  · exact .inl ⟨.refl _,rfl⟩
  rename_i absent
  split
  · split
    · exact .inl ⟨.refl _,rfl⟩
    · exact close_arrives conn id _ _
  · rename_i theirs
    exact openPeerStream_arrives grants conn id (by simpa using theirs) (by simpa using absent)

theorem adopt_slots {α : Type} (conn : Connection) (id : Nat) (outcome : SendFlow.Outcome α) :
    (conn.adopt id outcome).2.slots =
      {conn.slots with role := outcome.2.role,ids := outcome.2.ids,shut := outcome.2.gracefulShutdown} := by
  unfold Connection.adopt
  dsimp only
  split
  · exact Slots.ext' rfl rfl rfl rfl rfl rfl rfl
  · exact Slots.ext' rfl rfl rfl rfl rfl rfl rfl

theorem adoptPeer_moves {outcome : SendFlow.Outcome Bool} (arrives : Arrives id conn.flow outcome.2) :
    Moves conn.slots (conn.adoptPeer id outcome).2.slots := by
  unfold Connection.adoptPeer
  dsimp only
  have slots := adopt_slots conn id outcome
  rcases arrives with ⟨⟨role,ids,shut⟩,get⟩ | ⟨theirs,absent,bound,role,⟨granted,space,ok,ids⟩,shut,there⟩
  · have still : ((conn.flow.get id).isNone && (outcome.2.get id).isSome) = false := by
      rw [get]
      cases conn.flow.get id <;> rfl
    rw [role,ids,shut] at slots
    rw [still]
    exact @Quiet.moves conn _ slots
  · have opens : ((conn.flow.get id).isNone && (outcome.2.get id).isSome) = true := by rw [absent,there]; rfl
    rw [opens,if_pos rfl,advertise_slots,slots,role,shut,ids]
    have move := Move.opened (s := conn.slots) bound ok
    unfold Slots.offer at move
    rw [if_neg (by rw [Bool.not_eq_true]; exact theirs)] at move
    exact .single move

theorem ensurePeerStream_moves (grants : Allocator) (conn : Connection) (id : Nat) (frame : SendFlow.Connection.PeerStreamFrame) :
    Moves conn.slots (conn.ensurePeerStream grants id frame).2.slots :=
  adoptPeer_moves (ensurePeerStream_arrives grants conn.flow id frame)

theorem sendPartForPeerFrame_moves (grants : Allocator) (conn : Connection) (id : Nat) (frame : SendFlow.Connection.SendPartFrame) :
    Moves conn.slots (conn.sendPartForPeerFrame grants id frame).2.slots :=
  adoptPeer_moves (sendPartForPeerFrame_arrives grants conn.flow id frame)

theorem openLocal_moves {conn : Connection} {id : Nat} {α : Type} {outcome : SendFlow.Outcome α} {cap : Option Nat}
    (either : outcome.2 = conn.flow ∨ (streamInitiatedByLocal conn.flow.role id = true ∧
      streamIndex id < StreamIdSpace.maxStreamCount ∧ OpenedIds cap id conn.flow outcome.2)) :
    Moves conn.slots (conn.adopt id outcome).2.slots := by
  rw [adopt_slots]
  rcases either with same | ⟨ours,bound,role,⟨granted,space,ok,ids⟩,shut,_⟩
  · rw [same]
    exact .refl
  · rw [role,ids,shut]
    have move := Move.opened (s := conn.slots) bound ok
    unfold Slots.offer at move
    rw [if_pos (by exact ours)] at move
    exact .single move

theorem openLocalStream_ids (grants : Allocator) (conn : SendFlow.Connection) (id : Nat) :
    (conn.openLocalStream grants id).2 = conn ∨ (streamIndex id < StreamIdSpace.maxStreamCount ∧
      OpenedIds (some maxLocalSkippedStreamRanges) id conn (conn.openLocalStream grants id).2) := by
  unfold SendFlow.Connection.openLocalStream
  dsimp only
  split_ifs with _ _ bound _
  · exact .inl rfl
  · exact .inl rfl
  · exact .inl rfl
  · exact .inl rfl
  · exact (materializeStream_ids grants conn id _).imp_right fun opened => ⟨not_le.mp bound,opened⟩

theorem openBidi_moves (grants : Allocator) (conn : Connection) (id : Nat) :
    Moves conn.slots (conn.adopt id (conn.flow.openBidi grants id)).2.slots := by
  refine @openLocal_moves _ _ _ _ (some maxLocalSkippedStreamRanges) ?_
  unfold SendFlow.Connection.openBidi
  split
  · exact .inl rfl
  · rename_i ours
    exact (openLocalStream_ids grants conn.flow id).imp_right fun opened => ⟨by simp at ours; exact ours.2,opened⟩

theorem openUni_moves (grants : Allocator) (conn : Connection) (id : Nat) :
    Moves conn.slots (conn.adopt id (conn.flow.openUni grants id)).2.slots := by
  refine @openLocal_moves _ _ _ _ (some maxLocalSkippedStreamRanges) ?_
  unfold SendFlow.Connection.openUni
  split
  · exact .inl rfl
  · rename_i ours
    exact (openLocalStream_ids grants conn.flow id).imp_right fun opened => ⟨by simp at ours; exact ours.2,opened⟩

theorem streamStopSending_moves (grants : Allocator) (conn : Connection) (id : Nat) :
    Moves conn.slots (conn.adopt id (conn.flow.streamStopSending grants id)).2.slots := by
  rw [adopt_slots]
  unfold SendFlow.Connection.streamStopSending
  split_ifs with _ _ ours hole
  · exact .refl
  · exact .refl
  · exact .refl
  · exact .refl
  · rcases materializeStream_ids grants conn.flow id none with same | ⟨role,⟨granted,space,ok,ids⟩,shut,_⟩
    · rw [same]
      exact .refl
    · rw [role,ids,shut]
      exact .single (.filled (s := conn.slots) (by rw [← Bool.not_eq_true]; exact ours) (not_not.mp hole) ok)


theorem queueMaxData_quiet (conn : Connection) (maximumData : Nat) : Quiet conn (conn.queueMaxData maximumData) := by
  unfold Connection.queueMaxData
  split <;> rfl

theorem creditConnectionRecvWindow_quiet (conn : Connection) (n : Nat) : Quiet conn (conn.creditConnectionRecvWindow n) := by
  unfold Connection.creditConnectionRecvWindow
  split
  · rfl
  dsimp only
  split
  · exact (queueMaxData_quiet _ _).trans rfl
  · rfl

theorem compactReceivePrefixes_quiet (conn : Connection) : Quiet conn conn.compactReceivePrefixes := by
  have walk : ∀ (ids : List Nat) (mid : Connection), Quiet mid (ids.foldl (fun conn id =>
      if peerMaySendOnStream conn.flow.role id then conn.shrinkRecv id (conn.half id).recv.compactPrefix else conn) mid) := by
    intro ids
    induction ids with
    | nil => exact fun mid => .refl mid
    | cons id rest ih =>
      intro mid
      refine Quiet.trans ?_ (ih _)
      dsimp only
      split <;> rfl
  exact walk _ conn

theorem growRecv_quiet (conn : Connection) (id : Nat) (recv : RecvStream) : Quiet conn (conn.growRecv id recv).2 := by
  unfold Connection.growRecv
  dsimp only
  split
  · rfl
  · have compacted : Quiet conn (conn.setRecv id recv).compactReceivePrefixes :=
      @Quiet.trans _ (conn.setRecv id recv) _ rfl (compactReceivePrefixes_quiet _)
    split
    · exact compacted.trans rfl
    · exact compacted.trans ((close_quiet _ _ _).trans rfl)

theorem settleRecv_quiet (conn : Connection) (id : Nat) (recv : RecvStream) : Quiet conn (conn.settleRecv id recv).2 := by
  unfold Connection.settleRecv
  split
  · exact growRecv_quiet conn id recv
  · rfl

theorem discardTurns_quiet (id turns : Nat) (conn : Connection) : Quiet conn (conn.discardTurns id turns) := by
  induction turns generalizing conn with
  | zero => exact .refl conn
  | succ turns ih =>
    unfold Connection.discardTurns
    dsimp only
    split
    · exact .refl conn
    · rename_i read _
      have once : Quiet conn ((conn.shrinkRecv id read).creditConnectionRecvWindow (conn.half id).recv.peek.length) :=
        @Quiet.trans _ (conn.shrinkRecv id read) _ rfl (creditConnectionRecvWindow_quiet _ _)
      split
      · exact once
      · exact once.trans (ih _)

theorem handleStream_quiet (grants : Nat → Allocator) (conn : Connection) {s : Frame.Stream} {frameEnd : Nat}
    (whole : checkedAdd s.offset s.data.length = some frameEnd) :
    Quiet (conn.ensurePeerStream (grants 0) s.streamId .streamData).2 (conn.handleStream grants s).2 := by
  unfold Connection.handleStream
  rw [whole]
  dsimp only
  generalize conn.ensurePeerStream (grants 0) s.streamId .streamData = outcome
  obtain ⟨result,mid⟩ := outcome
  match result with
  | .error _ | .ok false => exact .refl mid
  | .ok true =>
    dsimp only
    unfold Connection.creditPeerStreamHighWater
    dsimp only
    cases RecvFlow.creditPeerStreamHighWater (mid.half s.streamId).recvMaxData mid.localMaxData mid.peerSentStreamData
      (mid.half s.streamId).recv.endOffset frameEnd with
    | error e =>
      cases e with
      | stream => exact close_quiet mid _ _
      | conn => exact close_quiet mid _ _
    | ok delta =>
      dsimp only
      cases (mid.half s.streamId).recv.recv (grants 1) s.offset s.data s.fin with
      | mk taken recv =>
      cases taken with
      | error e =>
        have reconciled : Quiet mid (mid.reconcileRecvResidentBytes s.streamId recv) := rfl
        cases e with
        | outOfMemory => exact reconciled
        | bufferLimitExceeded | beyondFinalSize | finalSizeChanged => exact reconciled.trans (close_quiet _ _ _)
      | ok _ =>
        dsimp only
        have settled := settleRecv_quiet mid s.streamId recv
        generalize mid.settleRecv s.streamId recv = settling at settled ⊢
        obtain ⟨kept,after⟩ := settling
        cases kept with
        | false => exact settled
        | true =>
          dsimp only
          split
          · exact (settled.trans rfl : Quiet mid {after with peerSentStreamData := after.peerSentStreamData+delta}).trans
              (discardTurns_quiet _ _ _)
          · exact settled.trans rfl

theorem handleStream_moves (grants : Nat → Allocator) (conn : Connection) (s : Frame.Stream) :
    Moves conn.slots (conn.handleStream grants s).2.slots := by
  cases whole : checkedAdd s.offset s.data.length with
  | none =>
    unfold Connection.handleStream
    rw [whole]
    exact (close_quiet conn _ _).moves
  | some frameEnd =>
    exact (ensurePeerStream_moves (grants 0) conn s.streamId .streamData).trans (handleStream_quiet grants conn whole).moves

theorem handleResetStream_quiet (grants : Allocator) (conn : Connection) (rs : Frame.ResetStream) :
    Quiet (conn.ensurePeerStream grants rs.streamId .resetStream).2 (conn.handleResetStream grants rs).2 := by
  unfold Connection.handleResetStream
  generalize conn.ensurePeerStream grants rs.streamId .resetStream = outcome
  obtain ⟨result,mid⟩ := outcome
  match result with
  | .error _ | .ok false => exact .refl mid
  | .ok true =>
    dsimp only
    unfold Connection.creditPeerStreamHighWater
    dsimp only
    cases RecvFlow.creditPeerStreamHighWater (mid.half rs.streamId).recvMaxData mid.localMaxData mid.peerSentStreamData
      (mid.half rs.streamId).recv.endOffset rs.finalSize with
    | error e =>
      cases e with
      | stream => exact close_quiet mid _ _
      | conn => exact close_quiet mid _ _
    | ok delta =>
      dsimp only
      cases (mid.half rs.streamId).recv.resetStream rs.applicationErrorCode rs.finalSize with
      | mk taken recv =>
      cases taken with
      | error _ => exact close_quiet mid _ _
      | ok _ =>
        dsimp only
        split
        · exact @Quiet.trans _ {mid.shrinkRecv rs.streamId recv with
            peerSentStreamData := (mid.shrinkRecv rs.streamId recv).peerSentStreamData+delta} _ rfl (creditConnectionRecvWindow_quiet _ _)
        · rfl

theorem handleResetStream_moves (grants : Allocator) (conn : Connection) (rs : Frame.ResetStream) :
    Moves conn.slots (conn.handleResetStream grants rs).2.slots :=
  (ensurePeerStream_moves grants conn rs.streamId .resetStream).trans (handleResetStream_quiet grants conn rs).moves

theorem handleStopSending_quiet (grants : Allocator) (conn : Connection) (ss : Frame.StopSending) :
    Quiet (conn.sendPartForPeerFrame grants ss.streamId .stopSending).2 (conn.handleStopSending grants ss).2 := by
  unfold Connection.handleStopSending
  generalize conn.sendPartForPeerFrame grants ss.streamId .stopSending = outcome
  obtain ⟨result,mid⟩ := outcome
  match result with
  | .error _ | .ok false => exact .refl mid
  | .ok true => exact @Idle.quiet mid _ ⟨rfl,rfl,rfl⟩ rfl rfl rfl

theorem handleStopSending_moves (grants : Allocator) (conn : Connection) (ss : Frame.StopSending) :
    Moves conn.slots (conn.handleStopSending grants ss).2.slots :=
  (sendPartForPeerFrame_moves grants conn ss.streamId .stopSending).trans (handleStopSending_quiet grants conn ss).moves

theorem handleMaxStreamData_quiet (grants : Allocator) (conn : Connection) (msd : Frame.MaxStreamData) :
    Quiet (conn.sendPartForPeerFrame grants msd.streamId .maxStreamData).2 (conn.handleMaxStreamData grants msd).2 := by
  unfold Connection.handleMaxStreamData
  generalize conn.sendPartForPeerFrame grants msd.streamId .maxStreamData = outcome
  obtain ⟨result,mid⟩ := outcome
  match result with
  | .error _ | .ok false => exact .refl mid
  | .ok true =>
    dsimp only
    split
    · exact @Idle.quiet mid _ ⟨rfl,rfl,rfl⟩ rfl rfl rfl
    · exact .refl mid

theorem handleMaxStreamData_moves (grants : Allocator) (conn : Connection) (msd : Frame.MaxStreamData) :
    Moves conn.slots (conn.handleMaxStreamData grants msd).2.slots :=
  (sendPartForPeerFrame_moves grants conn msd.streamId .maxStreamData).trans (handleMaxStreamData_quiet grants conn msd).moves

theorem handleStreamDataBlocked_quiet (granted : Bool) (conn : Connection) (sdb : Frame.StreamDataBlocked) :
    Quiet conn (conn.handleStreamDataBlocked granted sdb).2 := by
  unfold Connection.handleStreamDataBlocked
  split
  · exact close_quiet conn _ _
  split
  · exact close_quiet conn _ _
  dsimp only
  split
  · exact .refl conn
  split
  · exact close_quiet conn _ _
  · cases BlockedStreams.upsertStreamBlocked granted conn.blocked.peerStreamDataBlocked sdb with
    | mk result list =>
    cases result with
    | ok _ => exact Slots.ext' rfl rfl rfl rfl rfl rfl rfl
    | error e =>
      cases e with
      | streamLimitExceeded => exact close_quiet conn _ _
      | outOfMemory => exact .refl conn

/-- The word of a peer that is blocked. -/
def Slots.hear (s : Slots) (bidi : Bool) (maximumStreams : Nat) : Slots :=
  Slots.advertise {s with blockedAt := Function.update s.blockedAt bidi (some maximumStreams)} bidi

theorem handleStreamsBlocked_slots (conn : Connection) (sb : Frame.StreamsBlocked) :
    (conn.handleStreamsBlocked sb).slots =
      if sb.maximumStreams > StreamIdSpace.maxStreamCount then conn.slots else conn.slots.hear sb.bidi sb.maximumStreams := by
  unfold Connection.handleStreamsBlocked
  split
  · exact close_quiet conn _ _
  dsimp only
  have noted : (if sb.bidi then {conn with peerStreamsBlockedBidi := some sb.maximumStreams}
      else {conn with peerStreamsBlockedUni := some sb.maximumStreams} : Connection).slots =
      {conn.slots with blockedAt := Function.update conn.slots.blockedAt sb.bidi (some sb.maximumStreams)} := by
    cases sb.bidi
    · exact Slots.ext' rfl rfl rfl rfl rfl rfl rfl
    · exact Slots.ext' rfl rfl rfl rfl rfl rfl rfl
  rw [advertise_slots,noted]
  rfl

theorem queueDatagram_quiet (grants : Allocator) (conn : Connection) (resident : Resident) (data : List Byte) :
    Quiet conn (conn.queueDatagram grants resident data).2 := by
  unfold Connection.queueDatagram
  split <;> rfl

theorem handleDatagram_quiet (grants : Allocator) (conn : Connection) (dg : Frame.Datagram) :
    Quiet conn (conn.handleDatagram grants dg).2 := by
  unfold Connection.handleDatagram
  dsimp only
  split
  · exact close_quiet conn _ _
  split
  · exact .refl conn
  split
  · exact queueDatagram_quiet grants conn _ _
  · split
    · exact (compactReceivePrefixes_quiet conn).trans (queueDatagram_quiet grants _ _ _)
    · exact compactReceivePrefixes_quiet conn

theorem dispatchAcked_quiet (grants : Nat → Allocator) (refs : List (Nat × Nat)) (n : Nat) (conn : Connection) :
    Quiet conn (conn.dispatchAckedPacketToStreams grants n refs).2 := by
  induction refs generalizing n conn with
  | nil => exact .refl conn
  | cons ref rest ih =>
    obtain ⟨id,key⟩ := ref
    unfold Connection.dispatchAckedPacketToStreams
    split
    · exact ih (n+1) conn
    · rename_i s _
      split
      · exact ih (n+1) conn
      · exact Idle.quiet ⟨rfl,rfl,rfl⟩ rfl rfl rfl
      · rename_i send _
        exact @Quiet.trans _ {conn with
          flow := conn.flow.modify id fun s => {s with send := send}
          resident := conn.resident.releaseResidentBytes (s.send.bytes.live-send.bytes.live)} _
            (Slots.ext' rfl rfl rfl rfl rfl rfl rfl) (ih (n+1) _)

theorem add_idle (grants : Allocator) (maxPayload : Nat) (p : Packet) (s : SendFlow.Stream) (chunk : Chunk) :
    Idle p.conn (p.add grants maxPayload s chunk).2.conn := by
  unfold Packet.add
  dsimp only
  split
  · exact ⟨rfl,rfl,rfl⟩
  split
  · exact ⟨rfl,rfl,rfl⟩
  split
  · exact ⟨rfl,rfl,rfl⟩
  split
  · exact ⟨rfl,rfl,rfl⟩
  · exact ⟨rfl,rfl,rfl⟩

theorem pack_idle (notes grants : Nat → Allocator) (maxPayload : Nat) (ready : List Nat) (n : Nat) (blocked : BlockedStreams)
    (p : Packet) : Idle p.conn (Connection.pack notes grants maxPayload n ready blocked p).2.2.conn := by
  induction ready generalizing n blocked p with
  | nil => exact ⟨rfl,rfl,rfl⟩
  | cons id rest ih =>
    unfold Connection.pack
    split
    · exact ⟨rfl,rfl,rfl⟩
    split
    · exact ⟨rfl,rfl,rfl⟩
    dsimp only
    split
    · exact ih _ _ _
    rename_i s _
    split
    · exact ih _ _ _
    split
    · exact ⟨rfl,rfl,rfl⟩
    · exact ih _ _ _
    rename_i chunk blocked' _
    have added := add_idle (grants n) maxPayload p s chunk
    generalize p.add (grants n) maxPayload s chunk = outcome at added ⊢
    obtain ⟨result,p'⟩ := outcome
    cases result with
    | error _ => exact added
    | ok _ => exact added.trans (ih (n+1) blocked' p')

theorem commitChunks_idle (conn : SendFlow.Connection) (sent : List SentStreamChunk) :
    Idle conn (conn.commitChunks sent) := by
  unfold SendFlow.Connection.commitChunks
  induction sent generalizing conn with
  | nil => exact ⟨rfl,rfl,rfl⟩
  | cons sc rest ih =>
    have once : Idle conn (conn.commitChunk sc) := by
      unfold SendFlow.Connection.commitChunk SendFlow.Connection.recordStreamFlowSent
      split
      · exact ⟨rfl,rfl,rfl⟩
      split
      · exact ⟨rfl,rfl,rfl⟩
      split
      · exact ⟨rfl,rfl,rfl⟩
      · exact ⟨rfl,rfl,rfl⟩
    exact once.trans (ih (conn.commitChunk sc))

theorem poll_quiet (notes : Nat → Allocator) (conn : Connection) (p : SendFlow.Poll) : Quiet conn (conn.poll notes p).2 := by
  unfold Connection.poll
  split
  · exact .refl conn
  rename_i reset pos _
  have packed := pack_idle notes (fun n => p.grants (n+1)) p.maxPayload p.ready 0 conn.blocked
    {conn := conn.flow,plPos := pos+p.datagramLen}
  generalize Connection.pack notes (fun n => p.grants (n+1)) p.maxPayload 0 p.ready conn.blocked
    {conn := conn.flow,plPos := pos+p.datagramLen} = outcome at packed ⊢
  obtain ⟨result,blocked,packet⟩ := outcome
  cases result with
  | error _ => exact packed.quiet rfl rfl rfl
  | ok _ =>
    dsimp only
    split
    · cases reset with
      | none => exact (packed.trans (commitChunks_idle packet.conn packet.sentChunks)).quiet rfl rfl rfl
      | some rs =>
        have queued : Idle conn.flow (packet.conn.markResetQueued rs.streamId) := ⟨packed.role,packed.ids,packed.shut⟩
        exact (queued.trans (commitChunks_idle _ packet.sentChunks)).quiet rfl rfl rfl
    · exact packed.quiet rfl rfl rfl

theorem queueMaxStreamData_quiet (granted : Bool) (conn : Connection) (streamId maximumStreamData : Nat) :
    Quiet conn (conn.queueMaxStreamData granted streamId maximumStreamData).2 := by
  unfold Connection.queueMaxStreamData
  dsimp only
  split_ifs <;> rfl

theorem creditStream_quiet (granted : Bool) (conn : Connection) (id : Nat) : Quiet conn (conn.creditStream granted id).2 := by
  unfold Connection.creditStream
  dsimp only
  generalize conn.tuneWindow (conn.half id).recvWindow _ _ = tuned
  obtain ⟨grew,w⟩ := tuned
  dsimp only
  have widened : Quiet conn (if (grew && decide ((conn.modifyHalf id fun h => {h with recvWindow := w}).connRecvWindow.window <
      min (saturatingAdd w.window (w.window/2)) conn.connectionWindowCap)) = true then
        {conn.modifyHalf id fun h => {h with recvWindow := w} with connRecvWindow :=
          {(conn.modifyHalf id fun h => {h with recvWindow := w}).connRecvWindow with
            window := min (saturatingAdd w.window (w.window/2)) conn.connectionWindowCap}}
      else conn.modifyHalf id fun h => {h with recvWindow := w}) := by
    split <;> rfl
  split
  · exact widened.trans (queueMaxStreamData_quiet _ _ _ _)
  · exact widened

theorem afterStreamConsume_quiet (granted : Bool) (conn : Connection) (id : Nat) (recv : RecvStream) (n : Nat) :
    Quiet conn (conn.afterStreamConsume granted id recv n).2 := by
  unfold Connection.afterStreamConsume
  dsimp only
  split
  · rfl
  have credited : Quiet conn ((conn.shrinkRecv id recv).creditStream granted id).2 :=
    @Quiet.trans _ (conn.shrinkRecv id recv) _ rfl (creditStream_quiet _ _ _)
  generalize (conn.shrinkRecv id recv).creditStream granted id = outcome at credited ⊢
  obtain ⟨result,mid⟩ := outcome
  cases result with
  | error _ => exact credited
  | ok _ => exact credited.trans (creditConnectionRecvWindow_quiet _ _)

theorem streamRead_quiet (granted : Bool) (conn : Connection) (id dstLen : Nat) :
    Quiet conn (conn.streamRead granted id dstLen).2 := by
  unfold Connection.streamRead
  split
  · exact .refl conn
  split
  · exact .refl conn
  split
  · exact .refl conn
  · exact afterStreamConsume_quiet _ _ _ _ _

theorem streamConsume_quiet (granted : Bool) (conn : Connection) (id n : Nat) : Quiet conn (conn.streamConsume granted id n).2 := by
  unfold Connection.streamConsume
  split
  · exact .refl conn
  split
  · exact .refl conn
  split
  · exact .refl conn
  split
  · exact .refl conn
  · exact afterStreamConsume_quiet _ _ _ _ _

theorem queueStopSending_quiet (granted : Bool) (conn : Connection) (item : Nat × Nat) :
    Quiet conn (conn.queueStopSending granted item).2 := by
  unfold Connection.queueStopSending
  split
  · exact .refl conn
  split
  · exact .refl conn
  · rfl

theorem stopSending_quiet (grants : Nat → Allocator) (conn : Connection) {id : Nat} (applicationErrorCode : Nat)
    (may : peerMaySendOnStream conn.flow.role id = true) :
    Quiet (conn.adopt id (conn.flow.streamStopSending (grants 0) id)).2 (conn.streamStopSending grants id applicationErrorCode).2 := by
  unfold Connection.streamStopSending
  rw [if_neg (by simpa using may)]
  generalize conn.adopt id (conn.flow.streamStopSending (grants 0) id) = outcome
  obtain ⟨result,mid⟩ := outcome
  cases result with
  | error _ => exact .refl mid
  | ok _ =>
    dsimp only
    split
    · exact .refl mid
    have queued := queueStopSending_quiet (grants 1 0) mid (id,applicationErrorCode)
    generalize mid.queueStopSending (grants 1 0) (id,applicationErrorCode) = outcome at queued ⊢
    obtain ⟨result,after⟩ := outcome
    cases result with
    | error _ => exact queued
    | ok _ => exact queued.trans rfl

theorem stopSending_moves (grants : Nat → Allocator) (conn : Connection) (id applicationErrorCode : Nat) :
    Moves conn.slots (conn.streamStopSending grants id applicationErrorCode).2.slots := by
  cases may : peerMaySendOnStream conn.flow.role id with
  | true => exact (streamStopSending_moves (grants 0) conn id).trans (stopSending_quiet grants conn applicationErrorCode may).moves
  | false =>
    unfold Connection.streamStopSending
    rw [if_pos (by rw [may]; rfl)]
    exact .refl

theorem streamWrite_quiet (grants : Allocator) (conn : Connection) (id : Nat) (data : List Byte) :
    Quiet conn (conn.streamWrite grants id data).2 := by
  unfold Connection.streamWrite
  split
  · exact .refl conn
  split
  · exact .refl conn
  dsimp only
  split
  · exact Slots.ext' rfl rfl rfl rfl rfl rfl rfl
  · split
    · exact Slots.ext' rfl rfl rfl rfl rfl rfl rfl
    · exact Slots.ext' rfl rfl rfl rfl rfl rfl rfl

theorem collectGc_quiet (candidates : List Nat) (room : Nat) (conn : Connection) :
    Quiet conn (Connection.collectGc room candidates conn).2 := by
  induction candidates generalizing room conn with
  | nil => exact .refl conn
  | cons id rest ih =>
    unfold Connection.collectGc
    split
    · exact ih room conn
    dsimp only
    have read : Quiet conn (if (conn.half id).recvStopped then conn.discardStopped id else conn) := by
      split
      · exact discardTurns_quiet _ _ _
      · exact .refl conn
    generalize (if (conn.half id).recvStopped then conn.discardStopped id else conn) = mid at read ⊢
    split
    · exact read.trans (ih _ _)
    split
    · exact read
    · exact read.trans (ih _ _)

theorem retire_moves (conn : Connection) (id : Nat) : Moves conn.slots (conn.retire id).slots := by
  unfold Connection.retire
  split
  · exact .refl
  dsimp only
  split
  · have move := Move.closed (s := conn.slots) id
    unfold Slots.offer at move
    split
    · rename_i ours
      rw [if_pos (by exact ours)] at move
      exact .single move
    · rename_i theirs
      rw [if_neg (by exact theirs)] at move
      change Moves _ (Connection.maybeAdvertiseStreamCredit _ _).slots
      rw [advertise_slots]
      exact .single move
  · exact .refl

theorem gcClosedStreams_moves (conn : Connection) (candidates : List Nat) : Moves conn.slots (conn.gcClosedStreams candidates).slots := by
  unfold Connection.gcClosedStreams
  have collected := collectGc_quiet candidates gcBatch conn
  generalize Connection.collectGc gcBatch candidates conn = outcome at collected ⊢
  obtain ⟨batch,mid⟩ := outcome
  refine collected.moves.trans ?_
  clear collected
  induction batch generalizing mid with
  | nil => exact .refl
  | cons id rest ih => exact (retire_moves mid id).trans (ih (mid.retire id))

theorem sentMaxStreams_slots (conn : Connection) (bidi : Bool) :
    (conn.sentMaxStreams bidi).slots = {conn.slots with pending := Function.update conn.slots.pending bidi none} := by
  cases bidi
  · exact Slots.ext' rfl rfl rfl rfl rfl rfl rfl
  · exact Slots.ext' rfl rfl rfl rfl rfl rfl rfl

/-- The limits of this endpoint are what the peer says; nothing else of the ids is up to the send side. -/
structure Granted (flow after : SendFlow.Connection) : Prop where
  role : after.role = flow.role
  ids : ∃ bidiLimit uniLimit, after.ids = {flow.ids with
    localBidiIds := {flow.ids.localBidiIds with limit := bidiLimit},localUniIds := {flow.ids.localUniIds with limit := uniLimit}}
  shut : after.gracefulShutdown = flow.gracefulShutdown

theorem Idle.granted {flow after : SendFlow.Connection} (idle : Idle flow after) : Granted flow after :=
  ⟨idle.role,⟨_,_,idle.ids⟩,idle.shut⟩

theorem Granted.trans {flow mid after : SendFlow.Connection} (first : Granted flow mid) (second : Granted mid after) :
    Granted flow after := by
  obtain ⟨role,⟨bidi,uni,ids⟩,shut⟩ := first
  obtain ⟨role',⟨bidi',uni',ids'⟩,shut'⟩ := second
  rw [ids] at ids'
  exact ⟨role'.trans role,⟨bidi',uni',ids'⟩,shut'.trans shut⟩

theorem close_idle (flow : SendFlow.Connection) (isTransport : Bool) (errorCode : Nat) (reason : String) :
    Idle flow (flow.close isTransport errorCode reason) := by
  unfold SendFlow.Connection.close
  split
  · exact .refl flow
  · exact ⟨rfl,rfl,rfl⟩

theorem validate_granted (flow : SendFlow.Connection) : Granted flow flow.validatePeerTransportLimits := by
  unfold SendFlow.Connection.validatePeerTransportLimits
  split
  · exact (Idle.refl flow).granted
  split
  · exact (close_idle flow _ _ _).granted
  · exact ⟨rfl,⟨_,_,rfl⟩,rfl⟩

theorem checkRest_idle (flow : SendFlow.Connection) (refused : Option ConnectionClose) : Idle flow (flow.checkRest refused) := by
  unfold SendFlow.Connection.checkRest
  split
  · exact .refl flow
  · exact close_idle flow _ _ _

theorem reduction_idle (flow : SendFlow.Connection) : Idle flow flow.validateEarlyDataParamReduction := by
  unfold SendFlow.Connection.validateEarlyDataParamReduction
  split
  · split
    · exact close_idle flow _ _ _
    · exact .refl flow
  · exact .refl flow

theorem params_granted (flow : SendFlow.Connection) (params : Tls.TransportParams.Params) (refused : Option ConnectionClose) :
    Granted flow (({flow with cachedPeerTransportParams := some params}.validatePeerTransportLimits).checkRest refused) := by
  have cached : Granted flow {flow with cachedPeerTransportParams := some params} := ⟨rfl,⟨_,_,rfl⟩,rfl⟩
  exact (cached.trans (validate_granted _)).trans (checkRest_idle _ refused).granted

theorem handleMaxStreams_granted (flow : SendFlow.Connection) (ms : Frame.MaxStreams) : Granted flow (flow.handleMaxStreams ms) := by
  unfold SendFlow.Connection.handleMaxStreams
  dsimp only
  split
  · exact (close_idle flow _ _ _).granted
  split
  · split
    · exact ⟨rfl,⟨_,_,rfl⟩,rfl⟩
    · exact ⟨rfl,⟨_,_,rfl⟩,rfl⟩
  · split
    · exact ⟨rfl,⟨_,_,rfl⟩,rfl⟩
    · exact ⟨rfl,⟨_,_,rfl⟩,rfl⟩

theorem frame_granted {flow : SendFlow.Connection} {call : SendFlow.Call} {grants : Allocator} (packets : call.ofPackets = true)
    (kept : Granted flow (SendFlow.frameStep {conn := flow} grants call).conn) :
    Granted flow (SendFlow.step {conn := flow} {call := call,grants := grants}).conn := by
  unfold SendFlow.step
  rw [if_pos packets]
  exact kept

theorem alone_granted (flow : SendFlow.Connection) (call : SendFlow.Call) (alone : call.alone = true) (grants : Allocator) :
    Granted flow (SendFlow.step {conn := flow} {call := call,grants := grants}).conn ∨ call = .beginGracefulShutdown := by
  cases call with
  | beginGracefulShutdown => exact .inr rfl
  | streamFinish id =>
    left
    change Granted flow (flow.streamFinish id).2
    unfold SendFlow.Connection.streamFinish
    split
    · exact (Idle.refl flow).granted
    split
    · exact (Idle.refl flow).granted
    · exact ⟨rfl,⟨_,_,rfl⟩,rfl⟩
  | streamReset id code =>
    left
    change Granted flow (flow.streamReset id code).2
    unfold SendFlow.Connection.streamReset
    split
    · exact (Idle.refl flow).granted
    split
    · exact (Idle.refl flow).granted
    · exact ⟨rfl,⟨_,_,rfl⟩,rfl⟩
  | setRememberedPeerTransportParams params =>
    left
    change Granted flow (flow.setRememberedPeerTransportParams params)
    unfold SendFlow.Connection.setRememberedPeerTransportParams
    dsimp only
    split
    · exact ⟨rfl,⟨_,_,rfl⟩,rfl⟩
    · exact ⟨rfl,⟨_,_,rfl⟩,rfl⟩
  | peerTransportParams refused =>
    left
    change Granted flow (flow.peerTransportParams refused).2
    unfold SendFlow.Connection.peerTransportParams
    split
    · exact (Idle.refl flow).granted
    split
    · exact (Idle.refl flow).granted
    · exact params_granted flow _ refused
  | cachePeerTransportParams refused =>
    left
    change Granted flow (flow.cachePeerTransportParams refused).2
    unfold SendFlow.Connection.cachePeerTransportParams
    split
    · exact (Idle.refl flow).granted
    split
    · exact (Idle.refl flow).granted
    split
    · exact (Idle.refl flow).granted
    · exact (params_granted flow _ refused).trans (reduction_idle _).granted
  | close error => exact .inl (close_idle flow _ _ _).granted
  | tlsTransportParams _ | tlsEarlyDataSecret | tlsEarlyDataAccepted => exact .inl ⟨rfl,⟨_,_,rfl⟩,rfl⟩
  | maxData md varint =>
    refine .inl (frame_granted rfl ?_)
    change Granted flow (flow.handleMaxData md)
    unfold SendFlow.Connection.handleMaxData
    split
    · exact ⟨rfl,⟨_,_,rfl⟩,rfl⟩
    · exact (Idle.refl flow).granted
  | maxStreams ms =>
    refine .inl (frame_granted rfl ?_)
    unfold SendFlow.frameStep
    dsimp only
    split <;> exact handleMaxStreams_granted flow ms
  | lost id key => exact .inl (frame_granted rfl ⟨rfl,⟨_,_,rfl⟩,rfl⟩)
  | probeRequeued id key => exact .inl (frame_granted rfl ⟨rfl,⟨_,_,rfl⟩,rfl⟩)
  | resetAcked rs => exact .inl (frame_granted rfl ⟨rfl,⟨_,_,rfl⟩,rfl⟩)
  | resetLost rs => exact .inl (frame_granted rfl ⟨rfl,⟨_,_,rfl⟩,rfl⟩)
  | _ => cases alone

theorem alone_moves (conn : Connection) (call : SendFlow.Call) (alone : call.alone = true) (grants : Allocator) :
    Moves conn.slots {conn with flow := (SendFlow.step {conn := conn.flow} {call := call,grants := grants}).conn}.slots := by
  rcases alone_granted conn.flow call alone grants with ⟨role,⟨bidi,uni,ids⟩,shut⟩ | rfl
  · have slots : Connection.slots {conn with flow := (SendFlow.step {conn := conn.flow} {call := call,grants := grants}).conn} =
        {conn.slots with ids := {conn.flow.ids with
          localBidiIds := {conn.flow.ids.localBidiIds with limit := bidi}
          localUniIds := {conn.flow.ids.localUniIds with limit := uni}}} :=
      Slots.ext' role ids rfl rfl rfl rfl shut
    rw [slots]
    exact .single (.granted bidi uni)
  · exact .single .shut

theorem act_moves (conn : Connection) (e : Event) (kept : ∀ bidi, e.call ≠ .sentMaxStreams bidi)
    (silent : ∀ sb, e.call ≠ .streamsBlocked sb) : Moves conn.slots (conn.act e).2.slots := by
  unfold Connection.act
  split
  swap
  · exact .refl
  obtain ⟨call,grants,notes,behind⟩ := e
  cases call with
  | stream s varint packet => exact handleStream_moves grants conn s
  | resetStream rs => exact handleResetStream_moves (grants 0) conn rs
  | stopSending ss => exact handleStopSending_moves (grants 0) conn ss
  | maxStreamData msd => exact handleMaxStreamData_moves (grants 0) conn msd
  | streamDataBlocked sdb => exact (handleStreamDataBlocked_quiet (grants 0 0) conn sdb).moves
  | streamsBlocked sb => exact absurd rfl (silent sb)
  | crypto lvl cr => exact @Quiet.moves conn _ (Idle.quiet ⟨rfl,rfl,rfl⟩ rfl rfl rfl)
  | datagram dg => exact (handleDatagram_quiet (grants 0) conn dg).moves
  | acked refs => exact (dispatchAcked_quiet grants refs 0 conn).moves
  | lostMaxData maximumData => exact (queueMaxData_quiet conn maximumData).moves
  | lostMaxStreamData id' limit => exact (queueMaxStreamData_quiet (grants 0 0) conn id' limit).moves
  | lostStopSending item => exact (queueStopSending_quiet (grants 0 0) conn item).moves
  | lostStreamDataBlocked item => exact @Quiet.moves conn _ (Idle.quiet ⟨rfl,rfl,rfl⟩ rfl rfl rfl)
  | poll p => exact (poll_quiet notes conn p).moves
  | dataBlocked _ | sentMaxData | sentMaxStreamData | sentStopSending | sentStreamDataBlocked | clock _ _ =>
    exact .refl
  | sentMaxStreams bidi => exact absurd rfl (kept bidi)
  | streamRead id' dstLen => exact (streamRead_quiet (grants 0 0) conn id' dstLen).moves
  | streamConsume id' n => exact (streamConsume_quiet (grants 0 0) conn id' n).moves
  | streamStopSending id' code => exact stopSending_moves grants conn id' code
  | streamWrite id' data => exact (streamWrite_quiet (grants 0) conn id' data).moves
  | openBidi id' => exact openBidi_moves (grants 0) conn id'
  | openUni id' => exact openUni_moves (grants 0) conn id'
  | receiveDatagram =>
    refine @Quiet.moves conn _ ?_
    unfold Connection.apply Connection.receiveDatagramInfo
    dsimp only
    split <;> rfl
  | queueMaxStreams bidi limit =>
    change Moves conn.slots (conn.queueMaxStreams bidi limit).slots
    rw [queueMaxStreams_slots]
    exact .single (.queued bidi limit)
  | drainInbox lvl => exact .refl
  | gcClosedStreams candidates => exact gcClosedStreams_moves conn candidates
  | send call alone => exact alone_moves conn call alone (grants 0)

end

end QuicZig.Conn.Inbound
