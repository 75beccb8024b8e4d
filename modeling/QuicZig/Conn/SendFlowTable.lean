import QuicZig.Conn.SendFlowSpec

/-! The stream table of the sending side: most calls keep its streams and the bytes that
their buffers hold. -/
namespace QuicZig.Conn

namespace SendStream
open Machine

theorem finish_bytes (s : SendStream) : s.finish.2.bytes = s.bytes := by
  unfold finish
  split_ifs <;> rfl

theorem resetStream_bytes (s : SendStream) (errorCode : Nat) : (s.resetStream errorCode).bytes = s.bytes := by
  unfold resetStream
  split_ifs <;> rfl

theorem maybeAdvanceState_bytes (s : SendStream) : s.maybeAdvanceState.bytes = s.bytes := by
  unfold maybeAdvanceState
  split
  · split
    · split_ifs <;> rfl
    · rfl
  · split_ifs <;> rfl

theorem onResetAcked_bytes (s : SendStream) : s.onResetAcked.bytes = s.bytes := by
  unfold onResetAcked
  split
  · rw [maybeAdvanceState_bytes]
  · rfl

theorem onResetLost_bytes (s : SendStream) : s.onResetLost.bytes = s.bytes := by
  unfold onResetLost
  split
  · split_ifs <;> rfl
  · rfl

theorem addUnackedPending_bytes (grants : Allocator) (s : SendStream) (r : RangeList.Range) :
    (s.addUnackedPending grants r).2.bytes = s.bytes := by
  unfold addUnackedPending
  dsimp only
  split
  · rfl
  · have added : (s.addPending (grants 0) ⟨max r.offset s.baseOffset,r.stop⟩).2.bytes = s.bytes := by
      unfold addPending
      rfl
    generalize s.addPending (grants 0) ⟨max r.offset s.baseOffset,r.stop⟩ = outcome at added ⊢
    obtain ⟨result,after⟩ := outcome
    cases result with
    | error _ => exact added
    | ok _ => exact added

theorem requeue_bytes (grants : Allocator) (s : SendStream) (c : Chunk) : (s.requeue grants c).2.bytes = s.bytes := by
  unfold requeue
  split
  · exact addUnackedPending_bytes grants s _
  · rfl

theorem onPacketLost_bytes (grants : Allocator) (s : SendStream) (pn : Nat) : (s.onPacketLost grants pn).2.bytes = s.bytes := by
  unfold onPacketLost
  split
  · rfl
  · rename_i c inFlight _
    dsimp only
    split
    · rfl
    · have kept := requeue_bytes grants {s with inFlight := inFlight} c
      generalize requeue grants {s with inFlight := inFlight} c = outcome at kept ⊢
      obtain ⟨result,after⟩ := outcome
      cases result with
      | error _ => exact kept
      | ok _ => exact kept

theorem onPacketProbeRequeued_bytes (grants : Allocator) (s : SendStream) (pn : Nat) :
    (s.onPacketProbeRequeued grants pn).2.bytes = s.bytes := by
  unfold onPacketProbeRequeued
  split
  · rfl
  · rename_i c _
    split
    · rfl
    · dsimp only
      split
      · rfl
      · have kept := requeue_bytes grants s c
        generalize requeue grants s c = outcome at kept ⊢
        obtain ⟨result,after⟩ := outcome
        cases result with
        | error _ => exact kept
        | ok _ => exact kept

theorem recordSent_bytes (granted : Bool) (s : SendStream) (pn : Nat) (c : Chunk) :
    (s.recordSent granted pn c).2.bytes = s.bytes := by
  unfold recordSent
  split
  · rfl
  · split
    · rfl
    · rename_i inFlight _
      have taken : ∀ t : SendStream, (t.takePending c).2.bytes = t.bytes := by
        intro t
        unfold takePending
        split
        · split
          · rfl
          · split_ifs <;> rfl
        · split_ifs <;> rfl
      have stored : ∀ t : SendStream, (t.storeSent pn c).2.bytes = t.bytes := by
        intro t
        unfold storeSent
        split_ifs <;> rfl
      have kept := taken {s with inFlight := inFlight}
      generalize takePending {s with inFlight := inFlight} c = outcome at kept ⊢
      obtain ⟨result,after⟩ := outcome
      cases result with
      | error _ => exact kept
      | ok _ => exact (stored after).trans kept

theorem discardPrefix_sound {b : SendByteBuffer} (sound : b.Sound) (n : Nat) : (b.discardPrefix n).Sound := by
  have fits := sound.fits
  unfold SendByteBuffer.discardPrefix
  split
  · exact sound
  · refine ⟨(Nat.sub_le _ _).trans fits,?_⟩
    dsimp only
    split
    · exact .inr rfl
    · exact .inl (Nat.mod_lt _ (by omega))

/-- The floor only takes bytes out of the buffer. -/
structure Drained (s t : SendStream) : Prop where
  sound : s.bytes.Sound → t.bytes.Sound
  fewer : t.bytes.live ≤ s.bytes.live

theorem Drained.of_bytes {s t : SendStream} (same : t.bytes = s.bytes) : Drained s t :=
  ⟨fun sound => same.symm ▸ sound,same ▸ le_rfl⟩

theorem Drained.trans {s t u : SendStream} (first : Drained s t) (second : Drained t u) : Drained s u :=
  ⟨fun sound => second.sound (first.sound sound),second.fewer.trans first.fewer⟩

theorem advanceFloor_drained (s : SendStream) (newFloor : Nat) : Drained s (s.advanceFloor newFloor) := by
  unfold advanceFloor
  dsimp only
  split
  · exact .of_bytes rfl
  · refine ⟨fun sound => discardPrefix_sound sound _,?_⟩
    unfold SendByteBuffer.discardPrefix
    split
    · exact le_rfl
    · exact Nat.sub_le _ _

theorem absorb_drained (ranges : List RangeList.Range) (s : SendStream) : Drained s (s.absorb ranges) := by
  induction ranges generalizing s with
  | nil => exact .of_bytes rfl
  | cons first rest ih =>
    unfold absorb
    split
    · split
      · exact (advanceFloor_drained s _).trans (ih _)
      · exact ih s
    · exact .of_bytes rfl

/-- An acknowledgement that fails leaves the buffer as it was. -/
def Acknowledges (s : SendStream) (outcome : Outcome Unit) : Prop :=
  match outcome with
  | (.ok _,t) => Drained s t
  | (.error _,t) => t.bytes = s.bytes

theorem recordAcked_drained (granted : Bool) (s : SendStream) (r : RangeList.Range) :
    Acknowledges s (s.recordAcked granted r) := by
  unfold recordAcked
  dsimp only
  split_ifs
  · exact .of_bytes rfl
  · generalize RangeList.insertMerge granted s.ackedAbove ⟨max r.offset s.baseOffset,r.stop⟩ = outcome
    obtain ⟨result,above⟩ := outcome
    cases result with
    | error e => rfl
    | ok _ => exact .of_bytes rfl
  · exact (advanceFloor_drained s _).trans (absorb_drained _ _)

theorem markAcked_drained (grants : Allocator) (s : SendStream) (r : RangeList.Range) :
    Acknowledges s (s.markAcked grants r) := by
  unfold markAcked
  split
  · generalize RangeList.removeRange (grants 0) s.pending r = outcome
    obtain ⟨result,pending⟩ := outcome
    cases result with
    | error e => rfl
    | ok _ =>
      have recorded := recordAcked_drained (grants 1) {s with pending := pending,probeRequeuedPending := !pending.isEmpty} r
      dsimp only
      generalize recordAcked (grants 1) {s with pending := pending,probeRequeuedPending := !pending.isEmpty} r = outcome
        at recorded ⊢
      obtain ⟨result,t⟩ := outcome
      cases result with
      | error _ => exact recorded
      | ok _ => exact ⟨recorded.sound,recorded.fewer⟩
  · exact recordAcked_drained (grants 1) s r

theorem onPacketAcked_drained (grants : Allocator) (s : SendStream) (pn : Nat) :
    Acknowledges s (s.onPacketAcked grants pn) := by
  unfold onPacketAcked
  split
  · rfl
  · rename_i c inFlight _
    dsimp only
    split
    · have marked := markAcked_drained grants {s with inFlight := inFlight,finAcked := s.finAcked || c.fin}
        ⟨c.offset,c.offset+c.length⟩
      generalize markAcked grants {s with inFlight := inFlight,finAcked := s.finAcked || c.fin} ⟨c.offset,c.offset+c.length⟩ =
        outcome at marked ⊢
      obtain ⟨result,t⟩ := outcome
      cases result with
      | error _ => exact marked
      | ok _ => exact Drained.trans ⟨marked.sound,marked.fewer⟩ (.of_bytes (maybeAdvanceState_bytes t))
    · refine .of_bytes ?_
      rw [maybeAdvanceState_bytes]

theorem write_filled {s : SendStream} (sound : s.bytes.Sound) (grants : Allocator) (data : List Byte) :
    match s.write grants data with
    | (.ok accepted,t) => t.bytes.Sound ∧ t.bytes.live = s.bytes.live+accepted ∧ accepted ≤ data.length
    | (.error _,t) => t.bytes.Sound ∧ t.bytes.live = s.bytes.live := by
  unfold write
  split_ifs with closed none
  · exact ⟨sound,rfl⟩
  · exact ⟨sound,rfl,Nat.zero_le _⟩
  dsimp only
  generalize accept : min data.length (s.maxBuffered-s.bytes.live) = n
  split_ifs with zero
  · exact ⟨sound,rfl,Nat.zero_le _⟩
  obtain ⟨ready,_,room⟩ := SendByteBuffer.ensureUnusedCapacity_spec (grants 0) s.bytes n sound
  have live := SendByteBuffer.ensureUnusedCapacity_live (grants 0) s.bytes n
  generalize s.bytes.ensureUnusedCapacity (grants 0) n = outcome at ready room live ⊢
  obtain ⟨result,bytes⟩ := outcome
  cases result with
  | error _ => exact ⟨ready,live⟩
  | ok _ =>
  obtain ⟨fits,address⟩ := room rfl
  dsimp only at ready live fits ⊢
  have added : ({s with bytes := bytes}.addPending (grants 1) ⟨s.writeOffset,s.writeOffset+n⟩).2.bytes = bytes := rfl
  generalize {s with bytes := bytes}.addPending (grants 1) ⟨s.writeOffset,s.writeOffset+n⟩ = outcome at added ⊢
  obtain ⟨result,t⟩ := outcome
  cases result with
  | error _ => exact ⟨added.symm ▸ ready,added.symm ▸ live⟩
  | ok _ =>
  have taken : (data.take n).length = n := by
    rw [List.length_take]
    omega
  dsimp only at added ⊢
  rw [added]
  obtain ⟨_,sound',contents⟩ := SendByteBuffer.appendSlice_spec false bytes (data.take n) ready (by omega) (by omega)
  refine ⟨sound',?_,by omega⟩
  have length := congrArg List.length contents
  rw [List.length_append,SendByteBuffer.length_contents,SendByteBuffer.length_contents,taken] at length
  omega

end SendStream

namespace SendFlow
open Machine Paths Streams

/-- The table keeps its streams, and each stream its bytes. -/
structure Stable (conn after : Connection) : Prop where
  role : after.role = conn.role
  ids : IdSpaces.SameIds conn.ids after.ids
  held : after.streams.map (fun s => (s.id,s.send.bytes)) = conn.streams.map fun s => (s.id,s.send.bytes)

theorem Stable.refl (conn : Connection) : Stable conn conn := ⟨rfl,.refl _,rfl⟩

theorem Stable.trans {conn mid after : Connection} (first : Stable conn mid) (second : Stable mid after) : Stable conn after :=
  ⟨second.role.trans first.role,first.ids.trans second.ids,second.held.trans first.held⟩

theorem Stable.same {conn after : Connection} (role : after.role = conn.role) (ids : after.ids = conn.ids)
    (streams : after.streams = conn.streams) : Stable conn after :=
  ⟨role,ids ▸ .refl _,by rw [streams]⟩

theorem modify_stable (conn : Connection) (id : Nat) (f : Stream → Stream)
    (kept : ∀ s, (f s).id = s.id ∧ (f s).send.bytes = s.send.bytes) : Stable conn (conn.modify id f) := by
  refine ⟨rfl,.refl _,?_⟩
  refine FirstMatch.map_update ?_ conn.streams
  intro s
  rw [(kept s).1,(kept s).2]

theorem close_stable (conn : Connection) (isTransport : Bool) (errorCode : Nat) (reason : String) :
    Stable conn (conn.close isTransport errorCode reason) := by
  unfold Connection.close
  split
  · exact .refl conn
  · exact .same rfl rfl rfl

theorem handleMaxStreams_stable (conn : Connection) (ms : Frame.MaxStreams) : Stable conn (conn.handleMaxStreams ms) := by
  unfold Connection.handleMaxStreams
  dsimp only
  split
  · exact close_stable _ _ _ _
  · split
    · refine ⟨rfl,{IdSpaces.SameIds.refl conn.ids with localBidiIds := ?_},rfl⟩
      dsimp only
      split <;> exact ⟨rfl,rfl⟩
    · refine ⟨rfl,{IdSpaces.SameIds.refl conn.ids with localUniIds := ?_},rfl⟩
      dsimp only
      split <;> exact ⟨rfl,rfl⟩

theorem handleMaxData_stable (conn : Connection) (md : Frame.MaxData) : Stable conn (conn.handleMaxData md) := by
  unfold Connection.handleMaxData
  split
  · exact .same rfl rfl rfl
  · exact .refl conn

theorem remember_stable (conn : Connection) (params : Tls.TransportParams.Params) :
    Stable conn (conn.setRememberedPeerTransportParams params) := by
  unfold Connection.setRememberedPeerTransportParams
  dsimp only
  split
  · exact ⟨rfl,{IdSpaces.SameIds.refl conn.ids with localBidiIds := ⟨rfl,rfl⟩,localUniIds := ⟨rfl,rfl⟩},rfl⟩
  · exact .same rfl rfl rfl

theorem validate_stable (conn : Connection) : Stable conn conn.validatePeerTransportLimits := by
  unfold Connection.validatePeerTransportLimits
  split
  · exact .refl conn
  · split
    · exact close_stable _ _ _ _
    · refine ⟨rfl,{IdSpaces.SameIds.refl conn.ids with localBidiIds := ⟨rfl,rfl⟩,localUniIds := ⟨rfl,rfl⟩},?_⟩
      unfold Connection.applyPeerFlowTransportParams
      rw [List.map_map]
      rfl

theorem checkRest_stable (conn : Connection) (refused : Option ConnectionClose) : Stable conn (conn.checkRest refused) := by
  unfold Connection.checkRest
  split
  · exact .refl conn
  · exact close_stable _ _ _ _

theorem reduction_stable (conn : Connection) : Stable conn conn.validateEarlyDataParamReduction := by
  unfold Connection.validateEarlyDataParamReduction
  split
  · split
    · exact close_stable _ _ _ _
    · exact .refl conn
  · exact .refl conn

theorem params_stable (conn : Connection) (params : Tls.TransportParams.Params) (refused : Option ConnectionClose) :
    Stable conn ({conn with cachedPeerTransportParams := some params}.validatePeerTransportLimits.checkRest refused) := by
  have cached : Stable conn {conn with cachedPeerTransportParams := some params} := .same rfl rfl rfl
  exact (cached.trans (validate_stable _)).trans (checkRest_stable _ _)

theorem peerTransportParams_stable (conn : Connection) (refused : Option ConnectionClose) :
    Stable conn (conn.peerTransportParams refused).2 := by
  unfold Connection.peerTransportParams
  split
  · exact .refl conn
  · split
    · exact .refl conn
    · exact params_stable _ _ _

theorem cachePeerTransportParams_stable (conn : Connection) (refused : Option ConnectionClose) :
    Stable conn (conn.cachePeerTransportParams refused).2 := by
  unfold Connection.cachePeerTransportParams
  split
  · exact .refl conn
  · split
    · exact .refl conn
    · split
      · exact .refl conn
      · exact (params_stable _ _ _).trans (reduction_stable _)

theorem streamFinish_stable (conn : Connection) (id : Nat) : Stable conn (conn.streamFinish id).2 := by
  unfold Connection.streamFinish
  split
  · exact .refl conn
  · split
    · exact .refl conn
    · rename_i s found
      have same : conn.modify id (fun t => {t with send := s.send.finish.2}) =
          conn.modify id fun t => {t with send := t.send.finish.2} := modify_congr found rfl
      change Stable conn (conn.modify id fun t => {t with send := s.send.finish.2})
      rw [same]
      exact modify_stable _ _ _ fun t => ⟨rfl,t.send.finish_bytes⟩

theorem streamReset_stable (conn : Connection) (id applicationErrorCode : Nat) :
    Stable conn (conn.streamReset id applicationErrorCode).2 := by
  unfold Connection.streamReset
  split
  · exact .refl conn
  · split
    · exact .refl conn
    · exact modify_stable _ _ _ fun t => ⟨rfl,t.send.resetStream_bytes _⟩

theorem resetOne_stable (conn : Connection) (id applicationErrorCode : Nat) :
    Stable conn (conn.modify id (Connection.resetOne applicationErrorCode)) :=
  modify_stable _ _ _ fun t => ⟨rfl,t.send.resetStream_bytes _⟩

theorem dispatchReset_stable (conn : Connection) (rs : Frame.ResetStream) (f : SendStream → SendStream)
    (kept : ∀ s, (f s).bytes = s.bytes) :
    Stable conn (conn.modify rs.streamId fun s => if Connection.resetMatches s rs then {s with send := f s.send} else s) := by
  refine modify_stable _ _ _ fun s => ?_
  split
  · exact ⟨rfl,kept s.send⟩
  · exact ⟨rfl,rfl⟩

theorem dispatchLost_stable (grants : Allocator) (conn : Connection) (id key : Nat) :
    Stable conn (conn.dispatchLostStreamRef grants id key) :=
  modify_stable _ _ _ fun t => ⟨rfl,t.send.onPacketLost_bytes grants key⟩

theorem dispatchProbe_stable (grants : Allocator) (conn : Connection) (id key : Nat) :
    Stable conn (conn.dispatchProbeStreamRef grants id key) :=
  modify_stable _ _ _ fun t => ⟨rfl,t.send.onPacketProbeRequeued_bytes grants key⟩

theorem add_stable (grants : Allocator) (maxPayload : Nat) (p : Packet) (s : Stream) (chunk : Chunk) :
    Stable p.conn (p.add grants maxPayload s chunk).2.conn := by
  unfold Packet.add
  dsimp only
  generalize s.send.inFlight.ensureUnusedCapacity (grants 1) 1 = outcome
  obtain ⟨reserved,inFlight⟩ := outcome
  have moved : Stable p.conn (p.conn.modify s.id fun s => {s with send := {s.send with inFlight := inFlight}}) :=
    modify_stable _ _ _ fun _ => ⟨rfl,rfl⟩
  cases reserved with
  | error _ => exact moved
  | ok _ =>
    dsimp only
    split
    · exact moved
    · split
      · exact moved
      · split
        · exact moved.trans (.same rfl rfl rfl)
        · exact moved.trans (.same rfl rfl rfl)

theorem record_stable (conn : Connection) (id : Nat) (chunk : Chunk) : Stable conn (conn.recordStreamFlowSent id chunk) := by
  unfold Connection.recordStreamFlowSent
  split
  · exact .refl conn
  · split
    · exact .refl conn
    · split
      · exact .refl conn
      · rename_i s found stop whole above
        have moved : Stable conn (conn.modify id fun s => {s with sendFlowHighest := stop}) :=
          modify_stable _ _ _ fun _ => ⟨rfl,rfl⟩
        exact moved.trans (.same rfl rfl rfl)

theorem commit_stable (conn : Connection) (sent : List SentStreamChunk) : Stable conn (conn.commitChunks sent) := by
  unfold Connection.commitChunks
  induction sent generalizing conn with
  | nil => exact .refl conn
  | cons sc rest ih =>
    have recorded : Stable conn (conn.modify sc.streamId fun s =>
        {s with send := (s.send.recordSent false sc.streamKey sc.chunk).2}) :=
      modify_stable _ _ _ fun t => ⟨rfl,t.send.recordSent_bytes false _ _⟩
    exact (recorded.trans (record_stable _ _ _)).trans (ih _)

theorem queued_stable (conn : Connection) (id : Nat) : Stable conn (conn.markResetQueued id) :=
  modify_stable _ _ _ fun _ => ⟨rfl,rfl⟩

end SendFlow
end QuicZig.Conn
