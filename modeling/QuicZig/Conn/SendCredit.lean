import QuicZig.Conn.StreamCredit
import QuicZig.Library.System

/-! The credit that the peer gives, level by level: what each call leaves of it, and when
it is exactly what the peer said. -/
namespace QuicZig.Conn.SendFlow
open Machine Paths Streams HighWater Wire

def Connection.level (conn : Connection) : Credit → Option Nat
  | .data => some conn.peerMaxData
  | .streams true => some conn.ids.localBidiIds.limit
  | .streams false => some conn.ids.localUniIds.limit
  | .streamData id => (conn.get id).map (·.sendMaxData)

@[simp] theorem level_data (conn : Connection) : conn.level .data = some conn.peerMaxData := rfl

@[simp] theorem level_streamData (conn : Connection) (id : Nat) :
    conn.level (.streamData id) = (conn.get id).map (·.sendMaxData) := rfl

/-- What the peer's parameters give of a credit. -/
def initialLevel (role : Role) (params : Tls.TransportParams.Params) : Credit → Nat
  | .data => params.initialMaxData
  | .streams true => params.initialMaxStreamsBidi
  | .streams false => params.initialMaxStreamsUni
  | .streamData id => ({role := role,cachedPeerTransportParams := some params} : Connection).initialSendStreamLimit id

/-- A call that writes no credit; a stream may leave, with its own. -/
structure Keeps (conn after : Connection) : Prop where
  role : after.role = conn.role
  sound : conn.ids.Sound → after.ids.Sound
  used : ∀ id, conn.ids.Used conn.role id → after.ids.Used conn.role id
  blob : ∀ blob, conn.peerQuicTransportParams = some blob → after.peerQuicTransportParams = some blob
  cached : after.cachedPeerTransportParams = conn.cachedPeerTransportParams
  level : ∀ c v, after.level c = some v → conn.level c = some v

theorem Keeps.refl (conn : Connection) : Keeps conn conn := ⟨rfl,id,fun _ => id,fun _ => id,rfl,fun _ _ => id⟩

theorem Keeps.trans {a b c : Connection} (first : Keeps a b) (second : Keeps b c) : Keeps a c := by
  refine ⟨second.role.trans first.role,second.sound ∘ first.sound,fun id used => ?_,
    fun blob there => second.blob blob (first.blob blob there),second.cached.trans first.cached,
    fun c v there => first.level c v (second.level c v there)⟩
  rw [← first.role]
  exact second.used id (first.role.symm ▸ first.used id used)

theorem Keeps.same {conn after : Connection} (role : after.role = conn.role) (ids : after.ids = conn.ids)
    (blob : after.peerQuicTransportParams = conn.peerQuicTransportParams)
    (cached : after.cachedPeerTransportParams = conn.cachedPeerTransportParams)
    (peerMaxData : after.peerMaxData = conn.peerMaxData) (streams : after.streams = conn.streams) : Keeps conn after := by
  refine ⟨role,fun sound => ids ▸ sound,fun id used => ids ▸ used,fun _ there => blob.trans there,cached,fun c v there => ?_⟩
  rw [← there]
  cases c with
  | data => exact congrArg some peerMaxData.symm
  | streams bidi => cases bidi <;> simp only [Connection.level,ids]
  | streamData id => simp only [Connection.level,Connection.get,streams]

theorem close_keeps (conn : Connection) (isTransport : Bool) (errorCode : Nat) (reason : String) :
    Keeps conn (conn.close isTransport errorCode reason) := by
  unfold Connection.close
  split
  · exact .refl conn
  · exact .same rfl rfl rfl rfl rfl rfl

theorem level_modify {f : Stream → Stream} (named : ∀ s, (f s).id = s.id) (conn : Connection) (id : Nat) (c : Credit) :
    (conn.modify id f).level c = if c = .streamData id then (conn.get id).map fun s => (f s).sendMaxData else conn.level c := by
  cases c with
  | data => rfl
  | streams bidi => cases bidi <;> rfl
  | streamData other =>
    rw [level_streamData,level_streamData]
    by_cases same : other = id
    · subst same
      rw [get_modify named,Option.map_map,if_pos rfl]
      rfl
    · rw [get_modify_other named conn same,if_neg fun equal => same (by cases equal; rfl)]

theorem modify_keeps (conn : Connection) (id : Nat) (f : Stream → Stream) (named : ∀ s, (f s).id = s.id)
    (limit : ∀ s, (f s).sendMaxData = s.sendMaxData) : Keeps conn (conn.modify id f) := by
  refine ⟨rfl,fun sound => sound,fun _ used => used,fun _ there => there,rfl,fun c v there => ?_⟩
  rw [level_modify named] at there
  split at there
  · rename_i here
    rw [here,level_streamData,← there]
    exact congrArg (fun g => (conn.get id).map g) (funext fun s => (limit s).symm)
  · exact there

theorem followed_keeps (conn : Connection) (id : Nat) (send : SendStream) :
    Keeps conn (conn.modify id fun s => {s with send := send}) :=
  modify_keeps conn id _ (fun _ => rfl) fun _ => rfl

theorem streamWrite_keeps (grants : Allocator) (budgetLeft : Nat) (conn : Connection) (id : Nat) (data : List Byte) :
    Keeps conn (conn.streamWrite grants budgetLeft id data).2 := by
  unfold Connection.streamWrite
  split
  · exact .refl conn
  split
  · exact .refl conn
  · exact followed_keeps _ _ _

theorem streamFinish_keeps (conn : Connection) (id : Nat) : Keeps conn (conn.streamFinish id).2 := by
  unfold Connection.streamFinish
  split
  · exact .refl conn
  split
  · exact .refl conn
  · exact followed_keeps _ _ _

theorem resetOne_keeps (conn : Connection) (id errorCode : Nat) : Keeps conn (conn.modify id (Connection.resetOne errorCode)) :=
  modify_keeps conn id _ (fun _ => rfl) fun _ => rfl

theorem streamReset_keeps (conn : Connection) (id errorCode : Nat) : Keeps conn (conn.streamReset id errorCode).2 := by
  unfold Connection.streamReset
  split
  · exact .refl conn
  split
  · exact .refl conn
  · exact resetOne_keeps conn id errorCode

theorem reclaim_keeps (recvDone : Bool) (conn : Connection) (id : Nat) : Keeps conn (conn.reclaim recvDone id) := by
  unfold Connection.reclaim
  split
  · exact .refl conn
  split
  · have ids : IdSpaces.SameIds conn.ids
        (if conn.ids.Used conn.role id then conn.ids.modify conn.role id (·.noteClosed) else conn.ids) := by
      split
      · exact IdSpaces.sameIds_modify _ _ _ fun _ => ⟨rfl,rfl⟩
      · exact .refl _
    refine ⟨rfl,ids.sound,fun other => (ids.used other).mpr,fun _ there => there,rfl,fun c v there => ?_⟩
    have limits (spaces : IdSpaces) : (spaces.modify conn.role id (·.noteClosed)).localBidiIds.limit = spaces.localBidiIds.limit ∧
        (spaces.modify conn.role id (·.noteClosed)).localUniIds.limit = spaces.localUniIds.limit := by
      unfold IdSpaces.modify
      split <;> split <;> exact ⟨rfl,rfl⟩
    cases c with
    | data => exact there
    | streams bidi =>
      cases bidi <;> unfold Connection.level at there ⊢ <;> dsimp only at there <;> split at there
      · exact (limits conn.ids).2 ▸ there
      · exact there
      · exact (limits conn.ids).1 ▸ there
      · exact there
    | streamData other =>
      rw [level_streamData] at there ⊢
      unfold Connection.get at there ⊢
      dsimp only at there
      by_cases gone : other = id
      · rw [FirstMatch.find_filter_gone (fun s apart => by simpa [gone] using apart)] at there
        cases there
      · rwa [FirstMatch.find_filter (fun s here => by simp_all)] at there
  · exact .refl conn

theorem add_keeps (grants : Allocator) (maxPayload : Nat) {p : Packet} {s : Stream} (chunk : Chunk)
    (found : p.conn.get s.id = some s) : Keeps p.conn (p.add grants maxPayload s chunk).2.conn := by
  obtain ⟨key,conn⟩ := add_conn grants maxPayload chunk found
  have reserved : Keeps p.conn (p.conn.modify s.id (reserveOne (grants 1))) :=
    modify_keeps _ _ _ (fun _ => rfl) fun _ => rfl
  rw [conn]
  exact reserved.trans (.same rfl rfl rfl rfl rfl rfl)

theorem pack_keeps (grants : Nat → Allocator) (maxPayload n : Nat) (ready : List Nat) (p : Packet) :
    Keeps p.conn (Packet.pack grants maxPayload n ready p).2.conn := by
  induction ready generalizing n p with
  | nil => exact .refl _
  | cons id rest ih =>
    unfold Packet.pack
    split
    · exact .refl _
    split
    · exact .refl _
    dsimp only
    split
    · exact ih _ _
    rename_i s found
    split
    · exact ih _ _
    split
    · exact .refl _
    · exact ih _ _
    rename_i chunk _
    have named : s.id = id := by simpa using List.find?_some found
    subst named
    have added : Keeps p.conn (p.add (grants n) maxPayload s chunk).2.conn := add_keeps (grants n) maxPayload chunk found
    split
    · rename_i outcome
      rw [outcome] at added
      exact added
    · rename_i outcome
      rw [outcome] at added
      exact added.trans (ih _ _)

theorem recordStreamFlowSent_keeps (conn : Connection) (id : Nat) (chunk : Chunk) :
    Keeps conn (conn.recordStreamFlowSent id chunk) := by
  unfold Connection.recordStreamFlowSent
  split
  · exact .refl conn
  split
  · exact .refl conn
  split
  · exact .refl conn
  · rename_i stop _ _
    have raised : Keeps conn (conn.modify id fun s => {s with sendFlowHighest := stop}) :=
      modify_keeps conn id _ (fun _ => rfl) fun _ => rfl
    exact raised.trans (.same rfl rfl rfl rfl rfl rfl)

theorem commitChunks_keeps (conn : Connection) (sent : List SentStreamChunk) : Keeps conn (conn.commitChunks sent) := by
  induction sent generalizing conn with
  | nil => exact .refl conn
  | cons sc rest ih =>
    have recorded : Keeps conn
        (conn.modify sc.streamId fun s => {s with send := (s.send.recordSent false sc.streamKey sc.chunk).2}) :=
      modify_keeps conn _ _ (fun _ => rfl) fun _ => rfl
    have once : Keeps conn (conn.commitChunk sc) := recorded.trans (recordStreamFlowSent_keeps _ _ _)
    exact once.trans (ih _)

/-- A step that writes no credit, and notes none. -/
structure Idle (h after : History) : Prop where
  keeps : Keeps h.conn after.conn
  applied : after.applied = h.applied
  told : after.told = h.told

theorem pollStep_idle (h : History) (p : Poll) : Idle h (pollStep h p) := by
  unfold pollStep
  split
  · exact ⟨.refl _,rfl,rfl⟩
  rename_i reset pos staged
  have packed : Keeps h.conn _ :=
    pack_keeps (fun n => p.grants (n+1)) p.maxPayload 0 p.ready {conn := h.conn,plPos := pos+p.datagramLen}
  dsimp only
  split
  · exact ⟨packed,rfl,rfl⟩
  split
  · refine ⟨packed.trans (.trans ?_ (commitChunks_keeps _ _)),rfl,rfl⟩
    split
    · exact .refl _
    · exact modify_keeps _ _ _ (fun _ => rfl) fun _ => rfl
  · exact ⟨packed,rfl,rfl⟩

structure Raises (c : Credit) (value : Nat) (conn after : Connection) : Prop where
  role : after.role = conn.role
  sound : conn.ids.Sound → after.ids.Sound
  used : ∀ id, conn.ids.Used conn.role id → after.ids.Used conn.role id
  blob : after.peerQuicTransportParams = conn.peerQuicTransportParams
  cached : after.cachedPeerTransportParams = conn.cachedPeerTransportParams
  level : ∀ d, after.level d = if d = c then (conn.level d).map (max value) else conn.level d

theorem handleMaxData_raises (conn : Connection) (md : Frame.MaxData) :
    Raises .data md.maximumData conn (conn.handleMaxData md) := by
  unfold Connection.handleMaxData
  split
  · rename_i more
    refine ⟨rfl,fun sound => sound,fun _ used => used,rfl,rfl,fun d => ?_⟩
    cases d with
    | data => simp [max_eq_left (Nat.le_of_lt more)]
    | streams bidi => cases bidi <;> rfl
    | streamData id => rfl
  · rename_i stale
    refine ⟨rfl,fun sound => sound,fun _ used => used,rfl,rfl,fun d => ?_⟩
    cases d with
    | data => simp [max_eq_right (Nat.le_of_not_lt stale)]
    | streams bidi => rfl
    | streamData id => rfl

theorem handleMaxStreams_raises (conn : Connection) (ms : Frame.MaxStreams) :
    if ms.maximumStreams ≤ StreamIdSpace.maxStreamCount then
      Raises (.streams ms.bidi) ms.maximumStreams conn (conn.handleMaxStreams ms)
    else Keeps conn (conn.handleMaxStreams ms) := by
  have raised (ids : StreamIdSpace) : ∃ limit,limit = max ms.maximumStreams ids.limit ∧
      (if ms.maximumStreams > ids.limit then {ids with limit := ms.maximumStreams} else ids) = {ids with limit := limit} := by
    split
    · exact ⟨_,(max_eq_left (by omega)).symm,rfl⟩
    · exact ⟨_,(max_eq_right (by omega)).symm,rfl⟩
  unfold Connection.handleMaxStreams
  by_cases may : ms.maximumStreams ≤ StreamIdSpace.maxStreamCount
  · rw [if_pos may,if_neg (not_lt.mpr may)]
    dsimp only
    split
    · rename_i bidi
      obtain ⟨limit,most,same⟩ := raised conn.ids.localBidiIds
      rw [same,bidi]
      have ids : IdSpaces.SameIds conn.ids {conn.ids with localBidiIds := {conn.ids.localBidiIds with limit := limit}} :=
        {IdSpaces.SameIds.refl conn.ids with localBidiIds := ⟨rfl,rfl⟩}
      refine ⟨rfl,ids.sound,fun id => (ids.used id).mpr,rfl,rfl,fun d => ?_⟩
      cases d with
      | data => rfl
      | streams bidi => cases bidi <;> simp [Connection.level,most]
      | streamData id => rfl
    · rename_i uni
      obtain ⟨limit,most,same⟩ := raised conn.ids.localUniIds
      rw [same,Bool.eq_false_iff.mpr uni]
      have ids : IdSpaces.SameIds conn.ids {conn.ids with localUniIds := {conn.ids.localUniIds with limit := limit}} :=
        {IdSpaces.SameIds.refl conn.ids with localUniIds := ⟨rfl,rfl⟩}
      refine ⟨rfl,ids.sound,fun id => (ids.used id).mpr,rfl,rfl,fun d => ?_⟩
      cases d with
      | data => rfl
      | streams bidi => cases bidi <;> simp [Connection.level,most]
      | streamData id => rfl
  · rw [if_neg may,if_pos (not_le.mp may)]
    exact close_keeps _ _ _ _

theorem knows_close (conn : Connection) (isTransport : Bool) (code : Nat) (reason : String) (id : Nat) :
    (conn.close isTransport code reason).knows id = conn.knows id := by
  unfold Connection.close
  split <;> rfl

/-- A MAX_STREAM_DATA or STOP_SENDING frame finds its stream or opens it, or the stream had its time, or the
connection closes. -/
theorem sendPartForPeerFrame_cases (grants : Allocator) (conn : Connection) (id : Nat) (frame : Connection.SendPartFrame) :
    match conn.sendPartForPeerFrame grants id frame with
    | (.ok true,after) => localMaySendOnStream conn.role id = true ∧ (after = conn ∧ (conn.get id).isSome ∨ Opened id conn after)
    | (.ok false,after) => after = conn ∧ conn.get id = none ∧ localMaySendOnStream conn.role id = true ∧
          conn.ids.Used conn.role id ∨
        conn.knows id = false ∧ ∃ code reason, after = conn.close true code reason
    | (.error _,after) => after = conn := by
  unfold Connection.sendPartForPeerFrame
  by_cases may : (!localMaySendOnStream conn.role id) = true
  · rw [if_pos may]
    refine .inr ⟨?_,_,_,rfl⟩
    unfold Connection.knows
    rw [Bool.not_eq_true' _ |>.mp may]
    rfl
  rw [if_neg may]
  have sends : localMaySendOnStream conn.role id = true := by simpa using may
  by_cases found : (conn.get id).isSome
  · rw [if_pos found]
    exact ⟨sends,.inl ⟨rfl,found⟩⟩
  have absent : conn.get id = none := by simpa using found
  have unknown (unused : ¬ conn.ids.Used conn.role id) : conn.knows id = false := by
    unfold Connection.knows
    rw [absent,decide_eq_false unused,Option.isSome_none,Bool.or_false,Bool.and_false]
  rw [if_neg found]
  by_cases initiated : streamInitiatedByLocal conn.role id
  · rw [if_pos initiated]
    by_cases used : (conn.ids.idSpace conn.role id).classify (streamIndex id) = .used
    · rw [if_pos used]
      exact .inl ⟨rfl,absent,sends,used⟩
    · rw [if_neg used]
      exact .inr ⟨unknown used,_,_,rfl⟩
  rw [if_neg initiated]
  by_cases used : (conn.ids.idSpace conn.role id).classify (streamIndex id) = .used
  · unfold Connection.openPeerStream
    dsimp only
    rw [if_pos used]
    exact .inl ⟨rfl,absent,sends,used⟩
  have spec := openPeerStream_spec grants conn id
  cases outcome : conn.openPeerStream grants id with
  | mk result after =>
  rw [outcome] at spec
  cases result with
  | error e => exact spec
  | ok there =>
    cases there with
    | true => exact ⟨sends,.inr spec⟩
    | false =>
      refine .inr ⟨unknown used,?_⟩
      rcases spec with rfl | closed
      · unfold Connection.openPeerStream at outcome
        dsimp only at outcome
        rw [if_neg used] at outcome
        split at outcome
        · simp only [Prod.mk.injEq,true_and] at outcome
          exact ⟨_,_,outcome.symm⟩
        split at outcome
        · simp only [Prod.mk.injEq,true_and] at outcome
          exact ⟨_,_,outcome.symm⟩
        · cases made : after.materializeStream grants id none with
          | mk result last =>
          rw [made] at outcome
          cases result <;> simp [Except.map] at outcome
      · exact closed

theorem handleMaxStreamData_raises (grants : Allocator) {conn : Connection} (msd : Frame.MaxStreamData) :
    match conn.handleMaxStreamData grants msd with
    | (.error _,after) => after = conn
    | (.ok _,after) => after.knows msd.streamId = false ∧ Keeps conn after ∨ after.knows msd.streamId = true ∧
        ∃ mid, Grown msd.streamId conn mid ∧ ((mid.get msd.streamId).isSome ∨ mid.ids.Used mid.role msd.streamId) ∧
        Raises (.streamData msd.streamId) msd.maximumStreamData mid after := by
  have cases' := sendPartForPeerFrame_cases grants conn msd.streamId .maxStreamData
  unfold Connection.handleMaxStreamData
  cases outcome : conn.sendPartForPeerFrame grants msd.streamId .maxStreamData with
  | mk result after =>
  rw [outcome] at cases'
  cases result with
  | error e => exact cases'
  | ok there =>
    cases there with
    | false =>
      rcases cases' with ⟨rfl,absent,sends,used⟩ | ⟨unknown,code,reason,rfl⟩
      · refine .inr ⟨?_,after,.inl rfl,.inr used,rfl,fun sound => sound,fun _ used => used,rfl,rfl,fun d => ?_⟩
        · unfold Connection.knows
          rw [sends,decide_eq_true used,Bool.or_true,Bool.and_true]
        · split
          · rename_i here
            rw [here,level_streamData,absent]
            rfl
          · rfl
      · exact .inl ⟨(knows_close conn _ _ _ _).trans unknown,close_keeps _ _ _ _⟩
    | true =>
      obtain ⟨sends,cases'⟩ := cases'
      let raise (s : Stream) : Stream :=
        if msd.maximumStreamData > s.sendMaxData then {s with sendMaxData := msd.maximumStreamData} else s
      have named : ∀ s, (raise s).id = s.id := by
        intro s
        unfold raise
        split <;> rfl
      have raised : ∀ s, (raise s).sendMaxData = max msd.maximumStreamData s.sendMaxData := by
        intro s
        unfold raise
        split
        · rename_i more
          exact (max_eq_left (Nat.le_of_lt more)).symm
        · rename_i stale
          exact (max_eq_right (Nat.le_of_not_lt stale)).symm
      have effect : Raises (.streamData msd.streamId) msd.maximumStreamData after (after.modify msd.streamId raise) := by
        refine ⟨rfl,fun sound => sound,fun _ used => used,rfl,rfl,fun d => ?_⟩
        rw [level_modify named]
        split
        · rename_i here
          rw [here,level_streamData,Option.map_map]
          exact congrArg (fun g => (after.get msd.streamId).map g) (funext raised)
        · rfl
      have known (sends : localMaySendOnStream after.role msd.streamId = true) (found : (after.get msd.streamId).isSome) :
          (after.modify msd.streamId raise).knows msd.streamId = true := by
        unfold Connection.knows
        rw [get_modify named,Option.isSome_map,found,Bool.true_or,Bool.and_true]
        exact sends
      rcases cases' with ⟨rfl,found⟩ | opened
      · exact .inr ⟨known sends found,after,.inl rfl,.inl found,effect⟩
      · have found : (after.get msd.streamId).isSome := by
          obtain ⟨new,streams,named,_⟩ := opened.streams
          unfold Connection.get
          rw [streams,List.find?_isSome]
          exact ⟨new,List.mem_append_right _ (List.mem_singleton_self new),decide_eq_true named⟩
        exact .inr ⟨known (opened.role.symm ▸ sends) found,after,.inr opened,.inl found,effect⟩

/-- What stays of a level when the parameters are applied: a stream's own limit, unless it had none. -/
def standing : Credit → Nat → Nat
  | .streamData _,value => if value = maxU64 then 0 else value
  | _,_ => 0

theorem initialSendStreamLimit_cached {conn : Connection} {params : Tls.TransportParams.Params}
    (cached : conn.cachedPeerTransportParams = some params) (id : Nat) :
    conn.initialSendStreamLimit id = initialLevel conn.role params (.streamData id) := by
  unfold initialLevel Connection.initialSendStreamLimit
  rw [cached]
  rfl

theorem level_apply (conn : Connection) (params : Tls.TransportParams.Params)
    (cached : conn.cachedPeerTransportParams = some params) (c : Credit) :
    (conn.applyPeerFlowTransportParams params).level c =
      (conn.level c).map fun v => max (standing c v) (initialLevel conn.role params c) := by
  cases c with
  | data => simp [Connection.applyPeerFlowTransportParams,standing,initialLevel]
  | streams bidi => cases bidi <;> simp [Connection.applyPeerFlowTransportParams,Connection.level,standing,initialLevel]
  | streamData id =>
    unfold Connection.applyPeerFlowTransportParams
    rw [level_streamData,level_streamData]
    unfold Connection.get
    dsimp only
    rw [List.find?_map,Option.map_map,Option.map_map]
    change Option.map _ (conn.streams.find? fun s => decide (s.id = id)) = _
    refine Option.map_congr fun s found => ?_
    have named : s.id = id := by simpa using List.find?_some found
    simp only [Function.comp,standing,named,initialSendStreamLimit_cached cached]

end QuicZig.Conn.SendFlow
