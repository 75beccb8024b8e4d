import Mathlib.Logic.Relation
import QuicZig.Conn.SendFlowRun
import QuicZig.Conn.SendReach

/-! What the calls and the frames do to a sending connection. A stream changes by moves,
a connection by changes of its streams between packets, or by one stream that it opens. -/
namespace QuicZig.Conn.SendFlow
open Machine Paths Streams HighWater Relation

/-- A stream whose bytes are on their way: `sendFlowHighest` is how far it has sent, and within its limit. -/
structure Metered (s : Stream) : Prop where
  running : s.send.reset = none → ∃ written acked, SendRun.Coherent ⟨s.send,written,acked⟩ ∧
    SendRun.Below s.sendFlowHighest ⟨s.send,written,acked⟩
  reach : s.sendFlowHighest ≤ s.send.writeOffset
  limit : s.sendFlowHighest ≤ s.sendMaxData

/-- What the calls do to a stream between two packets. -/
inductive StreamMove (mayReset : Stream → Prop) : Stream → Stream → Prop where
  | limit {s : Stream} (sendMaxData : Nat) (above : s.sendFlowHighest ≤ s.sendMaxData → s.sendFlowHighest ≤ sendMaxData) :
      StreamMove mayReset s {s with sendMaxData := sendMaxData}
  | room {s : Stream} (maxBuffered : Nat) : StreamMove mayReset s {s with send := {s.send with maxBuffered := maxBuffered}}
  | reserve {s : Stream} (granted : Bool) (n : Nat) :
      StreamMove mayReset s {s with send := {s.send with inFlight := (s.send.inFlight.ensureUnusedCapacity granted n).2}}
  | call {s : Stream} (e : SendRun.Event) (still : ∀ pn maxBytes, e.call ≠ .send pn maxBytes) :
      StreamMove mayReset s {s with send := (SendRun.step {stream := s.send} e).stream}
  | reset {s : Stream} (errorCode : Nat) (may : mayReset s) : StreamMove mayReset s {s with send := s.send.resetStream errorCode}
  | note {s : Stream} {send : SendStream} (idle : s.send.reset = none → send = s.send)
      (final : send.reset.map (·.finalSize) = s.send.reset.map (·.finalSize)) (write : send.writeOffset = s.send.writeOffset) :
      StreamMove mayReset s {s with send := send}

variable {mayReset : Stream → Prop}

theorem step_stream (h : SendRun.History) (e : SendRun.Event) :
    (SendRun.step h e).stream = (SendRun.step {stream := h.stream} e).stream := by
  unfold SendRun.step
  cases e.call with
  | write data =>
    dsimp only
    split <;> rfl
  | finish => rfl
  | send pn maxBytes =>
    dsimp only
    split <;> rfl
  | acked pn =>
    dsimp only
    split <;> rfl
  | lost pn => rfl
  | probeRequeued pn => rfl

theorem StreamMove.same {s t : Stream} (move : StreamMove mayReset s t) : t.id = s.id ∧ t.sendFlowHighest = s.sendFlowHighest := by
  cases move <;> exact ⟨rfl,rfl⟩

theorem StreamMove.all_same {s t : Stream} (moves : ReflTransGen (StreamMove mayReset) s t) :
    t.id = s.id ∧ t.sendFlowHighest = s.sendFlowHighest := by
  induction moves with
  | refl => exact ⟨rfl,rfl⟩
  | tail _ move ih => exact ⟨move.same.1.trans ih.1,move.same.2.trans ih.2⟩

theorem resetStream_idle {s : SendStream} (errorCode : Nat) (idle : s.reset.isSome ∨ s.state = .dataRecvd) :
    s.resetStream errorCode = s := by
  unfold SendStream.resetStream
  grind

theorem resetStream_writeOffset (s : SendStream) (errorCode : Nat) : (s.resetStream errorCode).writeOffset = s.writeOffset := by
  unfold SendStream.resetStream
  grind

theorem resetStream_reset {s : SendStream} (errorCode : Nat) (busy : ¬ (s.reset.isSome ∨ s.state = .dataRecvd)) :
    (s.resetStream errorCode).reset = some {errorCode := errorCode,finalSize := s.writeOffset} := by
  unfold SendStream.resetStream
  grind

theorem Metered.move {s t : Stream} (metered : Metered s) (move : StreamMove mayReset s t) : Metered t := by
  obtain ⟨running,reach,limit⟩ := metered
  cases move with
  | limit sendMaxData above => exact ⟨running,reach,above limit⟩
  | room maxBuffered =>
    refine ⟨fun idle => ?_,reach,limit⟩
    obtain ⟨written,acked,coherent,below⟩ := running idle
    exact ⟨written,acked,⟨coherent.buffered.transfer rfl rfl rfl rfl,coherent.inFlight,coherent.pending,coherent.pendingEnd,
      coherent.chunkEnd,coherent.sized,coherent.open',coherent.running⟩,⟨below.unsent,below.inFlight,below.acked,below.reach⟩⟩
  | reserve granted n =>
    refine ⟨fun idle => ?_,reach,limit⟩
    obtain ⟨written,acked,coherent,below⟩ := running idle
    obtain ⟨sound,alive,_⟩ := InFlightMap.ensureUnusedCapacity_spec granted s.send.inFlight n coherent.inFlight
    have quiet : SendRun.Quiet s.send
        {s.send with inFlight := (s.send.inFlight.ensureUnusedCapacity granted n).2} :=
      ⟨⟨_,_,rfl⟩,coherent.buffered.bytes,rfl,sound,alive⟩
    have effect := SendRun.Effect.quiet (h := ⟨s.send,written,acked⟩) (e := ⟨.finish,granting⟩) (by simp) quiet
    exact ⟨written,acked,SendRun.coherent_effect coherent effect,SendRun.below_effect coherent below effect (by simp)⟩
  | call e still =>
    by_cases idle : s.send.reset = none
    · obtain ⟨written,acked,coherent,below⟩ := running idle
      have effect := SendRun.step_effect coherent e
      have same := step_stream ⟨s.send,written,acked⟩ e
      have coherent' := SendRun.coherent_effect coherent effect
      have below' := SendRun.below_effect coherent below effect still
      refine ⟨fun _ => ⟨(SendRun.step ⟨s.send,written,acked⟩ e).written,(SendRun.step ⟨s.send,written,acked⟩ e).ackedChunks,?_⟩,
        ?_,limit⟩
      · dsimp only
        rw [← same]
        exact ⟨coherent',below'⟩
      · dsimp only
        rw [← same]
        exact below'.reach
    · have kept := SendStream.step_reset (h := {stream := s.send}) e (Option.isSome_iff_ne_none.mpr idle)
      refine ⟨fun open' => absurd (kept.reset.symm.trans open') idle,?_,limit⟩
      dsimp only
      rw [kept.writeOffset]
      exact reach
  | reset errorCode may =>
    by_cases idle : s.send.reset.isSome ∨ s.send.state = .dataRecvd
    · rw [resetStream_idle errorCode idle]
      exact ⟨running,reach,limit⟩
    · refine ⟨fun open' => ?_,?_,limit⟩
      · dsimp only at open'
        rw [resetStream_reset errorCode idle] at open'
        cases open'
      · dsimp only
        rw [resetStream_writeOffset]
        exact reach
  | note idle final write =>
    refine ⟨fun open' => ?_,write ▸ reach,limit⟩
    have open'' : s.send.reset = none := by
      dsimp only at open'
      rw [open'] at final
      simpa using final.symm
    dsimp only
    rw [idle open'']
    exact running open''

theorem Metered.moves {s t : Stream} (metered : Metered s) (moves : ReflTransGen (StreamMove mayReset) s t) : Metered t := by
  induction moves with
  | refl => exact metered
  | tail _ move ih => exact ih.move move

/-- What a call that opens nothing does to the connection. -/
structure Calm (mayReset : Stream → Prop) (conn after : Connection) : Prop where
  role : after.role = conn.role
  sound : conn.ids.Sound → after.ids.Sound
  used : ∀ id, conn.ids.Used conn.role id → after.ids.Used conn.role id
  weSent : after.weSentStreamData = conn.weSentStreamData
  ceiling : conn.weSentStreamData ≤ conn.peerMaxData → conn.peerMaxData ≤ maxU64 →
    conn.weSentStreamData ≤ after.peerMaxData ∧ after.peerMaxData ≤ maxU64
  names : (after.streams.map (·.id)).Sublist (conn.streams.map (·.id))
  streams : ∀ t ∈ after.streams, ∃ s ∈ conn.streams, ReflTransGen (StreamMove mayReset) s t

theorem Calm.refl (conn : Connection) : Calm mayReset conn conn :=
  ⟨rfl,id,fun _ => id,rfl,fun within bound => ⟨within,bound⟩,.refl _,fun t member => ⟨t,member,.refl⟩⟩

theorem Calm.trans {a b c : Connection} (first : Calm mayReset a b) (second : Calm mayReset b c) : Calm mayReset a c := by
  refine ⟨second.role.trans first.role,fun sound => second.sound (first.sound sound),fun id used => ?_,
    second.weSent.trans first.weSent,fun within bound => ?_,second.names.trans first.names,fun t member => ?_⟩
  · rw [← first.role]
    exact second.used id (first.role.symm ▸ first.used id used)
  · obtain ⟨within',bound'⟩ := first.ceiling within bound
    rw [← first.weSent]
    exact second.ceiling (first.weSent.symm ▸ within') bound'
  · obtain ⟨u,inside,later⟩ := second.streams t member
    obtain ⟨s,there,earlier⟩ := first.streams u inside
    exact ⟨s,there,earlier.trans later⟩

theorem Calm.same {conn after : Connection} (role : after.role = conn.role) (ids : after.ids = conn.ids)
    (weSent : after.weSentStreamData = conn.weSentStreamData) (peerMaxData : after.peerMaxData = conn.peerMaxData)
    (streams : after.streams = conn.streams) : Calm mayReset conn after := by
  refine ⟨role,fun sound => ids ▸ sound,fun id used => ids ▸ used,weSent,fun within bound => ?_,?_,fun t member => ?_⟩
  · rw [peerMaxData]
    exact ⟨within,bound⟩
  · rw [streams]
  · exact ⟨t,streams ▸ member,.refl⟩

theorem close_calm (conn : Connection) (isTransport : Bool) (errorCode : Nat) (reason : String) :
    Calm mayReset conn (conn.close isTransport errorCode reason) := by
  unfold Connection.close
  split
  · exact .refl conn
  · exact .same rfl rfl rfl rfl rfl

theorem checkRest_calm (conn : Connection) (refused : Option ConnectionClose) : Calm mayReset conn (conn.checkRest refused) := by
  unfold Connection.checkRest
  split
  · exact .refl conn
  · exact close_calm _ _ _ _

section
variable {f : Stream → Stream} (named : ∀ s, (f s).id = s.id)
include named

theorem get_modify (conn : Connection) (id : Nat) : (conn.modify id f).get id = (conn.get id).map f :=
  FirstMatch.find_update (fun s => by rw [named]) conn.streams

theorem get_modify_other (conn : Connection) {id other : Nat} (apart : other ≠ id) :
    (conn.modify id f).get other = conn.get other := by
  refine FirstMatch.find_update_other (fun s => by rw [named]) (fun s here => ?_) conn.streams
  have here' : s.id = id := by simpa using here
  simp [here',Ne.symm apart]

theorem modify_modify (conn : Connection) (id : Nat) (g : Stream → Stream) :
    (conn.modify id f).modify id g = conn.modify id (g ∘ f) := by
  unfold Connection.modify
  dsimp only
  rw [FirstMatch.update_update (fun s => by rw [named])]

end

theorem modify_congr {conn : Connection} {id : Nat} {s : Stream} (found : conn.get id = some s) {f g : Stream → Stream}
    (same : f s = g s) : conn.modify id f = conn.modify id g := by
  unfold Connection.modify
  rw [FirstMatch.update_congr found same]

theorem modify_calm (conn : Connection) (id : Nat) (f : Stream → Stream) (named : ∀ s, (f s).id = s.id)
    (moves : ∀ s, conn.get id = some s → ReflTransGen (StreamMove mayReset) s (f s)) :
    Calm mayReset conn (conn.modify id f) := by
  refine ⟨rfl,fun sound => sound,fun _ used => used,rfl,fun within bound => ⟨within,bound⟩,?_,fun t member => ?_⟩
  · change ((FirstMatch.update _ f conn.streams).map (·.id)).Sublist _
    rw [FirstMatch.map_update named]
  · cases found : conn.get id with
    | none =>
      change t ∈ FirstMatch.update _ f conn.streams at member
      rw [FirstMatch.update_none found] at member
      exact ⟨t,member,.refl⟩
    | some s =>
      obtain ⟨before,after,whole,changed⟩ := FirstMatch.update_split found
      change t ∈ FirstMatch.update _ f conn.streams at member
      rw [changed f] at member
      rw [whole]
      rcases List.mem_append.mp member with early | later
      · exact ⟨t,List.mem_append_left _ early,.refl⟩
      · rcases List.mem_cons.mp later with rfl | late
        · exact ⟨s,List.mem_append_right _ List.mem_cons_self,moves s found⟩
        · exact ⟨t,List.mem_append_right _ (List.mem_cons_of_mem _ late),.refl⟩

/-- A stream that is new, under an id that had none. -/
structure Opened (id : Nat) (conn after : Connection) : Prop where
  role : after.role = conn.role
  sound : conn.ids.Sound → after.ids.Sound
  fresh : conn.ids.Sound → ¬ conn.ids.Used conn.role id
  used : conn.ids.Sound → ∀ other, after.ids.Used conn.role other ↔ conn.ids.Used conn.role other ∨ other = id
  weSent : after.weSentStreamData = conn.weSentStreamData
  peerMaxData : after.peerMaxData = conn.peerMaxData
  blob : after.peerQuicTransportParams = conn.peerQuicTransportParams
  cached : after.cachedPeerTransportParams = conn.cachedPeerTransportParams
  pendingClose : after.pendingClose = conn.pendingClose
  limits : conn.ids.Sound → after.ids.localBidiIds.limit = conn.ids.localBidiIds.limit ∧
    after.ids.localUniIds.limit = conn.ids.localUniIds.limit
  streams : ∃ s, after.streams = conn.streams ++ [s] ∧ s.id = id ∧ s.sendFlowHighest = 0 ∧
    s.sendMaxData = conn.initialSendStreamLimit id ∧ ∃ maxBuffered, s.send = SendStream.init maxBuffered

def Grown (id : Nat) (conn after : Connection) : Prop := after = conn ∨ Opened id conn after

theorem materializeStream_spec (grants : Allocator) (conn : Connection) (id : Nat) (cap : Option Nat) :
    match conn.materializeStream grants id cap with
    | (.ok _,after) => Opened id conn after
    | (.error _,after) => after = conn := by
  unfold Connection.materializeStream
  by_cases refused : (!grants 0 || !grants 1) = true
  · simp only [if_pos refused]
  · simp only [if_neg refused]
    cases outcome : (conn.ids.idSpace conn.role id).open (grants 2) (streamIndex id) cap with
    | mk result space =>
    cases result with
    | error e =>
      dsimp only
      rw [StreamIdSpace.open_error outcome,IdSpaces.modify_same]
    | ok _ =>
      exact ⟨rfl,fun sound => (IdSpaces.open_spec sound outcome).1,fun sound => (IdSpaces.open_spec sound outcome).2.1,
        fun sound => (IdSpaces.open_spec sound outcome).2.2,rfl,rfl,rfl,rfl,rfl,fun sound => IdSpaces.open_limits sound outcome,
        _,rfl,rfl,rfl,rfl,_,rfl⟩

theorem materializeStream_grown (grants : Allocator) (conn : Connection) (id : Nat) (cap : Option Nat) :
    Grown id conn (conn.materializeStream grants id cap).2 := by
  have spec := materializeStream_spec grants conn id cap
  cases outcome : conn.materializeStream grants id cap with
  | mk result after =>
  rw [outcome] at spec
  cases result with
  | ok _ => exact .inr spec
  | error _ => exact .inl spec

theorem openLocalStream_grown (grants : Allocator) (conn : Connection) (id : Nat) :
    Grown id conn (conn.openLocalStream grants id).2 := by
  unfold Connection.openLocalStream
  dsimp only
  split_ifs
  · exact .inl rfl
  · exact .inl rfl
  · exact .inl rfl
  · exact .inl rfl
  · exact materializeStream_grown _ _ _ _

theorem openBidi_grown (grants : Allocator) (conn : Connection) (id : Nat) : Grown id conn (conn.openBidi grants id).2 := by
  unfold Connection.openBidi
  split
  · exact .inl rfl
  · exact openLocalStream_grown grants conn id

theorem openUni_grown (grants : Allocator) (conn : Connection) (id : Nat) : Grown id conn (conn.openUni grants id).2 := by
  unfold Connection.openUni
  split
  · exact .inl rfl
  · exact openLocalStream_grown grants conn id

theorem streamStopSending_grown (grants : Allocator) (conn : Connection) (id : Nat) :
    Grown id conn (conn.streamStopSending grants id).2 := by
  unfold Connection.streamStopSending
  split_ifs
  · exact .inl rfl
  · exact .inl rfl
  · exact .inl rfl
  · exact .inl rfl
  · exact materializeStream_grown _ _ _ _

/-- A frame finds its stream, makes it, or changes nothing but the close state. -/
theorem openPeerStream_spec (grants : Allocator) (conn : Connection) (id : Nat) :
    match conn.openPeerStream grants id with
    | (.ok true,after) => Opened id conn after
    | (.ok false,after) => after = conn ∨ ∃ code reason, after = conn.close true code reason
    | (.error _,after) => after = conn := by
  unfold Connection.openPeerStream
  dsimp only
  split_ifs
  · exact .inl rfl
  · exact .inr ⟨_,_,rfl⟩
  · exact .inr ⟨_,_,rfl⟩
  · exact .inr ⟨_,_,rfl⟩
  · have spec := materializeStream_spec grants conn id none
    cases outcome : conn.materializeStream grants id none with
    | mk result after =>
    rw [outcome] at spec
    cases result with
    | ok _ => exact spec
    | error _ => exact spec

/-- What the prologues of the peer's frames do. -/
def Prologue (id : Nat) (conn : Connection) (outcome : Outcome Bool) : Prop :=
  match outcome with
  | (.ok true,after) => Grown id conn after
  | (.ok false,after) => after = conn ∨ ∃ code reason, after = conn.close true code reason
  | (.error _,after) => after = conn

theorem openPeerStream_prologue (grants : Allocator) (conn : Connection) (id : Nat) :
    Prologue id conn (conn.openPeerStream grants id) := by
  have spec := openPeerStream_spec grants conn id
  cases outcome : conn.openPeerStream grants id with
  | mk result after =>
  rw [outcome] at spec
  cases result with
  | error e => exact spec
  | ok there =>
    cases there with
    | false => exact spec
    | true => exact .inr spec

theorem sendPartForPeerFrame_spec (grants : Allocator) (conn : Connection) (id : Nat) (frame : Connection.SendPartFrame) :
    Prologue id conn (conn.sendPartForPeerFrame grants id frame) := by
  unfold Connection.sendPartForPeerFrame
  split_ifs
  · exact .inr ⟨_,_,rfl⟩
  · exact .inl rfl
  · exact .inl rfl
  · exact .inr ⟨_,_,rfl⟩
  · exact openPeerStream_prologue grants conn id

theorem ensurePeerStream_spec (grants : Allocator) (conn : Connection) (id : Nat) (frame : Connection.PeerStreamFrame) :
    Prologue id conn (conn.ensurePeerStream grants id frame) := by
  unfold Connection.ensurePeerStream
  split_ifs
  · exact .inr ⟨_,_,rfl⟩
  · exact .inl rfl
  · exact .inl rfl
  · exact .inr ⟨_,_,rfl⟩
  · exact openPeerStream_prologue grants conn id

def Moves (mayReset : Stream → Prop) (conn after : Connection) : Prop :=
  ∃ id mid, Grown id conn mid ∧ Calm mayReset mid after

theorem Calm.moves {conn after : Connection} (calm : Calm mayReset conn after) : Moves mayReset conn after :=
  ⟨0,conn,.inl rfl,calm⟩

theorem Grown.moves {id : Nat} {conn after : Connection} (grown : Grown id conn after) : Moves mayReset conn after :=
  ⟨id,after,grown,.refl after⟩

theorem Prologue.moves {id : Nat} {conn : Connection} {outcome : Outcome Bool} (prologue : Prologue id conn outcome) :
    Moves mayReset conn outcome.2 := by
  obtain ⟨result,after⟩ := outcome
  unfold Prologue at prologue
  cases result with
  | error e =>
    dsimp only at prologue ⊢
    rw [prologue]
    exact (Calm.refl conn).moves
  | ok there =>
    cases there with
    | true => exact Grown.moves prologue
    | false =>
      rcases prologue with same | ⟨code,reason,closed⟩
      · dsimp only
        rw [same]
        exact (Calm.refl conn).moves
      · dsimp only
        rw [closed]
        exact (close_calm conn true code reason).moves

theorem ids_calm {conn after : Connection} (role : after.role = conn.role) (ids : IdSpaces.SameIds conn.ids after.ids)
    (weSent : after.weSentStreamData = conn.weSentStreamData)
    (ceiling : conn.weSentStreamData ≤ conn.peerMaxData → conn.peerMaxData ≤ maxU64 →
      conn.weSentStreamData ≤ after.peerMaxData ∧ after.peerMaxData ≤ maxU64)
    (names : (after.streams.map (·.id)).Sublist (conn.streams.map (·.id)))
    (streams : ∀ t ∈ after.streams, ∃ s ∈ conn.streams, ReflTransGen (StreamMove mayReset) s t) : Calm mayReset conn after :=
  ⟨role,ids.sound,fun id => (ids.used id).mpr,weSent,ceiling,names,streams⟩

theorem handleMaxData_calm (conn : Connection) (md : Frame.MaxData) (varint : md.maximumData ≤ Wire.Varint.maxValue) :
    Calm mayReset conn (conn.handleMaxData md) := by
  unfold Connection.handleMaxData
  split
  · rename_i more
    refine ids_calm rfl (.refl _) rfl (fun within _ => ⟨?_,?_⟩) (.refl _) (fun t member => ⟨t,member,.refl⟩)
    · exact within.trans (Nat.le_of_lt more)
    · exact varint.trans (by decide)
  · exact .refl conn

theorem handleMaxStreams_calm (conn : Connection) (ms : Frame.MaxStreams) : Calm mayReset conn (conn.handleMaxStreams ms) := by
  have raised (ids : StreamIdSpace) :
      StreamIdSpace.SameIds ids (if ms.maximumStreams > ids.limit then {ids with limit := ms.maximumStreams} else ids) := by
    split
    · exact ⟨rfl,rfl⟩
    · exact .refl ids
  unfold Connection.handleMaxStreams
  split
  · exact close_calm _ _ _ _
  dsimp only
  split
  · exact ids_calm rfl {IdSpaces.SameIds.refl conn.ids with localBidiIds := raised _} rfl (fun within bound => ⟨within,bound⟩)
      (.refl _) (fun t member => ⟨t,member,.refl⟩)
  · exact ids_calm rfl {IdSpaces.SameIds.refl conn.ids with localUniIds := raised _} rfl (fun within bound => ⟨within,bound⟩)
      (.refl _) (fun t member => ⟨t,member,.refl⟩)

theorem handleMaxStreamData_moves (grants : Allocator) (conn : Connection) (msd : Frame.MaxStreamData) :
    Moves mayReset conn (conn.handleMaxStreamData grants msd).2 := by
  have prologue := sendPartForPeerFrame_spec grants conn msd.streamId .maxStreamData
  unfold Connection.handleMaxStreamData
  cases outcome : conn.sendPartForPeerFrame grants msd.streamId .maxStreamData with
  | mk result mid =>
  rw [outcome] at prologue
  cases result with
  | error e => exact prologue.moves
  | ok there =>
    cases there with
    | false => exact prologue.moves
    | true =>
      refine ⟨msd.streamId,mid,prologue,modify_calm _ _ _ (fun s => ?_) (fun s _ => ?_)⟩
      · split <;> rfl
      · split
        · rename_i more
          exact .single (.limit _ (fun within => within.trans (Nat.le_of_lt more)))
        · exact .refl

theorem resetOne_moves {s : Stream} (errorCode : Nat)
    (may : ¬ (s.send.reset.isSome ∨ s.send.state = .dataRecvd) → mayReset s) :
    ReflTransGen (StreamMove mayReset) s (Connection.resetOne errorCode s) := by
  unfold Connection.resetOne
  by_cases idle : s.send.reset.isSome ∨ s.send.state = .dataRecvd
  · rw [resetStream_idle errorCode idle]
  · exact .single (.reset errorCode (may idle))

/-- The streams that a call may reset: all of them, or those that sent what was written to them. -/
def MayReset (mayReset : Stream → Prop) (conn : Connection) (id : Nat) : Prop :=
  ∀ s, conn.get id = some s → ¬ (s.send.reset.isSome ∨ s.send.state = .dataRecvd) → mayReset s

theorem get_grown {id : Nat} {conn mid : Connection} (grown : Grown id conn mid) {s : Stream} (found : mid.get id = some s) :
    conn.get id = some s ∨ (s.sendFlowHighest = 0 ∧ s.send.writeOffset = 0) := by
  rcases grown with rfl | opened
  · exact .inl found
  · obtain ⟨new,streams,_,none,_,maxBuffered,send⟩ := opened.streams
    unfold Connection.get at found ⊢
    rw [streams,List.find?_append] at found
    cases old : conn.streams.find? (·.id = id) with
    | some t =>
      rw [old] at found
      exact .inl found
    | none =>
      rw [old,Option.none_or] at found
      have same : s = new := by
        have member := List.mem_of_find?_eq_some found
        simpa using member
      rw [same,send]
      exact .inr ⟨none,rfl⟩

theorem handleStopSending_moves (grants : Allocator) (conn : Connection) (ss : Frame.StopSending)
    (fresh : ∀ s : Stream, s.sendFlowHighest = 0 → s.send.writeOffset = 0 → mayReset s)
    (may : MayReset mayReset conn ss.streamId) : Moves mayReset conn (conn.handleStopSending grants ss).2 := by
  have prologue := sendPartForPeerFrame_spec grants conn ss.streamId .stopSending
  unfold Connection.handleStopSending
  cases outcome : conn.sendPartForPeerFrame grants ss.streamId .stopSending with
  | mk result mid =>
  rw [outcome] at prologue
  cases result with
  | error e => exact prologue.moves
  | ok there =>
    cases there with
    | false => exact prologue.moves
    | true =>
      refine ⟨ss.streamId,mid,prologue,modify_calm _ _ _ (fun _ => rfl) (fun s found => resetOne_moves _ fun busy => ?_)⟩
      rcases get_grown prologue found with old | ⟨none,unwritten⟩
      · exact may s old busy
      · exact fresh s none unwritten

theorem streamReset_calm (conn : Connection) (id errorCode : Nat) (may : MayReset mayReset conn id) :
    Calm mayReset conn (conn.streamReset id errorCode).2 := by
  unfold Connection.streamReset
  split
  · exact .refl conn
  split
  · exact .refl conn
  · exact modify_calm _ _ _ (fun _ => rfl) (fun s found => resetOne_moves _ (may s found))

theorem followCredit_moves (conn : Connection) (s : Stream) :
    ReflTransGen (StreamMove mayReset) s {s with send := conn.followCredit s} := by
  unfold Connection.followCredit
  dsimp only
  split
  · split
    · exact .single (.room _)
    · exact .refl
  · exact .refl

theorem streamWrite_calm (grants : Allocator) (budgetLeft : Nat) (conn : Connection) (id : Nat) (data : List Byte) :
    Calm mayReset conn (conn.streamWrite grants budgetLeft id data).2 := by
  unfold Connection.streamWrite
  split
  · exact .refl conn
  split
  · exact .refl conn
  rename_i s found
  refine modify_calm _ _ _ (fun _ => rfl) (fun t there => ?_)
  obtain rfl : s = t := Option.some.inj (found.symm.trans there)
  refine (followCredit_moves conn s).tail ?_
  generalize data.take _ = taken
  have step : (SendRun.step {stream := conn.followCredit s} ⟨.write taken,grants⟩).stream =
      ((conn.followCredit s).write grants taken).2 := by
    unfold SendRun.step
    dsimp only
    split <;> simp_all
  have move : StreamMove mayReset {s with send := conn.followCredit s} _ := .call ⟨.write taken,grants⟩ (by simp)
  rw [step] at move
  exact move

theorem streamFinish_calm (conn : Connection) (id : Nat) : Calm mayReset conn (conn.streamFinish id).2 := by
  unfold Connection.streamFinish
  split
  · exact .refl conn
  split
  · exact .refl conn
  rename_i s found
  refine modify_calm _ _ _ (fun _ => rfl) (fun t there => ?_)
  obtain rfl : s = t := Option.some.inj (found.symm.trans there)
  exact .single (.call ⟨.finish,granting⟩ (by simp))

theorem dispatchAcked_calm (grants : Allocator) (conn : Connection) (id key : Nat) :
    Calm mayReset conn (conn.dispatchAckedStreamRef grants id key) := by
  refine modify_calm _ _ _ (fun _ => rfl) (fun s _ => .single ?_)
  have step : (SendRun.step {stream := s.send} ⟨.acked key,grants⟩).stream = (s.send.onPacketAcked grants key).2 := by
    unfold SendRun.step
    dsimp only
    split <;> simp_all
  have move : StreamMove mayReset s _ := .call ⟨.acked key,grants⟩ (by simp)
  rw [step] at move
  exact move

theorem dispatchLost_calm (grants : Allocator) (conn : Connection) (id key : Nat) :
    Calm mayReset conn (conn.dispatchLostStreamRef grants id key) :=
  modify_calm _ _ _ (fun _ => rfl) (fun _ _ => .single (.call ⟨.lost key,grants⟩ (by simp)))

theorem dispatchProbe_calm (grants : Allocator) (conn : Connection) (id key : Nat) :
    Calm mayReset conn (conn.dispatchProbeStreamRef grants id key) :=
  modify_calm _ _ _ (fun _ => rfl) (fun _ _ => .single (.call ⟨.probeRequeued key,grants⟩ (by simp)))

theorem onResetAcked_move (s : Stream) : StreamMove mayReset s {s with send := s.send.onResetAcked} := by
  unfold SendStream.onResetAcked
  split
  · rename_i r reset
    have same := SendStream.maybeAdvanceState_sameEnd {s.send with reset := some {r with queued := true,acked := true}}
    refine .note (fun idle => ?_) ?_ same.writeOffset
    · rw [reset] at idle
      cases idle
    · rw [same.reset,reset]
      rfl
  · exact .note (fun _ => rfl) rfl rfl

theorem onResetLost_move (s : Stream) : StreamMove mayReset s {s with send := s.send.onResetLost} := by
  unfold SendStream.onResetLost
  split
  · rename_i r reset
    split
    · exact .note (fun _ => rfl) rfl rfl
    · refine .note (fun idle => ?_) ?_ rfl
      · rw [reset] at idle
        cases idle
      · rw [reset]
        rfl
  · exact .note (fun _ => rfl) rfl rfl

theorem dispatchReset_calm (conn : Connection) (rs : Frame.ResetStream) (f : SendStream → SendStream)
    (move : ∀ s : Stream, StreamMove mayReset s {s with send := f s.send}) :
    Calm mayReset conn (conn.modify rs.streamId fun s => if Connection.resetMatches s rs then {s with send := f s.send} else s) := by
  refine modify_calm _ _ _ (fun s => ?_) (fun s _ => ?_)
  · split <;> rfl
  · split
    · exact .single (move s)
    · exact .refl

theorem markResetQueued_calm (conn : Connection) (id : Nat) : Calm mayReset conn (conn.markResetQueued id) := by
  refine modify_calm _ _ _ (fun _ => rfl) (fun s _ => .single (.note (fun idle => ?_) ?_ rfl))
  · rw [idle,Option.map_none,← idle]
  · cases s.send.reset <;> rfl

theorem reclaim_calm (recvDone : Bool) (conn : Connection) (id : Nat) : Calm mayReset conn (conn.reclaim recvDone id) := by
  unfold Connection.reclaim
  split
  · exact .refl conn
  split
  · refine ids_calm rfl ?_ rfl (fun within bound => ⟨within,bound⟩) (List.filter_sublist.map _)
      (fun t member => ⟨t,List.mem_of_mem_filter member,.refl⟩)
    dsimp only
    split
    · exact IdSpaces.sameIds_modify _ _ _ fun _ => ⟨rfl,rfl⟩
    · exact .refl _
  · exact .refl conn

end QuicZig.Conn.SendFlow
