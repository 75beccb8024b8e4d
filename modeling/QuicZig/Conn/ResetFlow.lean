import QuicZig.Conn.SendCreditRun
import QuicZig.Conn.PeerCredit

/-! RESET_STREAM against the peer's limits. The final size is what was written, so it is
within the limits when all of that was sent before the reset. -/
namespace QuicZig.Conn.SendFlow
open Machine Paths Streams HighWater Relation

def SentAll (s : Stream) : Prop := s.send.writeOffset ≤ s.sendFlowHighest

/-- The final size of a stream that was reset is no further than what it sent. -/
def Settled (s : Stream) : Prop := ∀ r, s.send.reset = some r → r.finalSize ≤ s.sendFlowHighest

theorem Settled.move {s t : Stream} (settled : Settled s) (move : StreamMove SentAll s t) : Settled t := by
  cases move with
  | limit sendMaxData above => exact settled
  | room maxBuffered => exact settled
  | reserve granted n => exact settled
  | call e still =>
    intro r reset
    dsimp only at reset
    rw [SendStream.step_keepsReset] at reset
    exact settled r reset
  | reset errorCode may =>
    by_cases idle : s.send.reset.isSome ∨ s.send.state = .dataRecvd
    · rw [resetStream_idle errorCode idle]
      exact settled
    · intro r reset
      dsimp only at reset
      rw [resetStream_reset errorCode idle] at reset
      cases reset
      exact may
  | note idle final write =>
    intro r reset
    dsimp only at reset
    rw [reset,Option.map_some] at final
    obtain ⟨old,was,same⟩ := Option.map_eq_some_iff.mp final.symm
    rw [← same]
    exact settled old was

theorem Settled.moves {s t : Stream} (settled : Settled s) (moves : ReflTransGen (StreamMove SentAll) s t) : Settled t := by
  induction moves with
  | refl => exact settled
  | tail _ move ih => exact ih.move move

theorem settled_fresh {s : Stream} {maxBuffered : Nat} (send : s.send = SendStream.init maxBuffered) : Settled s := by
  intro r reset
  rw [send] at reset
  cases reset

theorem settled_moves {conn after : Connection} (settled : ∀ s ∈ conn.streams, Settled s) (moves : Moves SentAll conn after) :
    ∀ t ∈ after.streams, Settled t := by
  obtain ⟨id,mid,grown,calm⟩ := moves
  intro t member
  obtain ⟨s,there,path⟩ := calm.streams t member
  refine Settled.moves ?_ path
  rcases grown with rfl | opened
  · exact settled s there
  · obtain ⟨new,streams,_,_,_,_,send⟩ := opened.streams
    rw [streams] at there
    rcases List.mem_append.mp there with old | last
    · exact settled s old
    · rw [List.mem_singleton.mp last]
      exact settled_fresh send

/-- What holds of a history whose resets were all of streams that had sent everything. -/
structure Reset (h : History) : Prop where
  credited : Credited h
  sent : ∀ f ∈ h.sent, f ∈ h.built
  settled : ∀ s ∈ h.conn.streams, Settled s
  limits : ∀ r ∈ h.resets, r.frame.finalSize ≤ r.sendMaxData
  finals : ∀ r ∈ h.resets, r.frame.finalSize ≤ mark h.offsets r.frame.streamId

theorem Reset.packetless {h after : History} (reset : Reset h) (less : Packetless SentAll h after) : Reset after := by
  have offsets : after.offsets = h.offsets := congrArg (List.map _) less.sent
  refine ⟨less.credited reset.credited,?_,settled_moves reset.settled less.moves,?_,?_⟩
  · rw [less.sent,less.built]
    exact reset.sent
  · rw [less.resets]
    exact reset.limits
  · rw [less.resets,offsets]
    exact reset.finals

theorem add_level (grants : Allocator) (maxPayload : Nat) {p : Packet} {s : Stream} (chunk : Chunk)
    (found : p.conn.get s.id = some s) (c : Credit) : (p.add grants maxPayload s chunk).2.conn.level c = p.conn.level c := by
  obtain ⟨key,conn⟩ := add_conn grants maxPayload chunk found
  have reserved : (p.conn.modify s.id (reserveOne (grants 1))).level c = p.conn.level c := by
    rw [level_modify (f := reserveOne (grants 1)) fun _ => rfl]
    split
    · rename_i here
      rw [here]
      rfl
    · rfl
  rw [conn]
  refine Eq.trans ?_ reserved
  cases c with
  | data => rfl
  | streams bidi => cases bidi <;> rfl
  | streamData id => rfl

theorem pack_level (grants : Nat → Allocator) (maxPayload n : Nat) (ready : List Nat) (p : Packet) (c : Credit) :
    (Packet.pack grants maxPayload n ready p).2.conn.level c = p.conn.level c := by
  induction ready generalizing n p with
  | nil => rfl
  | cons id rest ih =>
    unfold Packet.pack
    split
    · rfl
    split
    · rfl
    dsimp only
    split
    · exact ih _ _
    rename_i s found
    split
    · exact ih _ _
    split
    · rfl
    · exact ih _ _
    rename_i chunk _
    have named : s.id = id := by simpa using List.find?_some found
    subst named
    have added : (p.add (grants n) maxPayload s chunk).2.conn.level c = p.conn.level c :=
      add_level (grants n) maxPayload chunk found c
    split
    · rename_i outcome
      rw [outcome] at added
      exact added
    · rename_i outcome
      rw [outcome] at added
      exact (ih _ _).trans added

theorem stageReset_spec {conn : Connection} {p : Poll} {rs : Frame.ResetStream} {pos : Nat}
    (staged : conn.stageReset p = .ok (some rs,pos)) : ∃ s r, conn.get rs.streamId = some s ∧ s ∈ conn.streams ∧
      s.send.reset = some r ∧ rs.finalSize = r.finalSize := by
  have due : ((if p.application then conn.pendingResetStream p.sendable else none).bind Connection.resetFrame) = some rs := by
    unfold Connection.stageReset at staged
    split at staged
    · simp at staged
    · rename_i found here
      rw [here]
      split at staged
      · simp at staged
      split at staged
      · simp at staged
      split at staged
      · simp at staged
      · simp only [Except.ok.injEq,Prod.mk.injEq] at staged
        exact staged.1
  obtain ⟨s,pending,frame⟩ := Option.bind_eq_some_iff.mp due
  have chosen : conn.pendingResetStream p.sendable = some s := by
    split at pending
    · exact pending
    · cases pending
  unfold Connection.resetFrame at frame
  obtain ⟨r,reset,rfl⟩ := Option.map_eq_some_iff.mp frame
  obtain ⟨id,_,found⟩ := List.mem_filterMap.mp (List.mem_of_find?_eq_some chosen)
  have named : s.id = id := by simpa using List.find?_some found
  exact ⟨s,r,named ▸ found,List.mem_of_find?_eq_some found,reset,rfl⟩

theorem settled_modify {conn : Connection} (settled : ∀ s ∈ conn.streams, Settled s) (id : Nat) {f : Stream → Stream}
    (kept : ∀ s, Settled s → Settled (f s)) : ∀ t ∈ (conn.modify id f).streams, Settled t := by
  intro t member
  rcases FirstMatch.mem_update member with old | ⟨s,there,_,rfl⟩
  · exact settled t old
  · exact kept s (settled s there)

theorem settled_commit {conn : Connection} (settled : ∀ s ∈ conn.streams, Settled s) (sent : List SentStreamChunk) :
    ∀ s ∈ (conn.commitChunks sent).streams, Settled s := by
  induction sent generalizing conn with
  | nil => exact settled
  | cons sc rest ih =>
    let record (s : Stream) : Stream := {s with send := (s.send.recordSent false sc.streamKey sc.chunk).2}
    have recorded : ∀ t ∈ (conn.modify sc.streamId record).streams, Settled t := by
      refine settled_modify settled _ fun s settled r reset => ?_
      have reset' : s.send.reset = some r := (SendStream.recordSent_reset false s.send sc.streamKey sc.chunk).symm.trans reset
      exact settled r reset'
    suffices first : ∀ t ∈ (conn.commitChunk sc).streams, Settled t from ih first
    unfold Connection.commitChunk Connection.recordStreamFlowSent
    rw [show conn.modify sc.streamId (fun s => {s with send := (s.send.recordSent false sc.streamKey sc.chunk).2}) =
      conn.modify sc.streamId record from rfl]
    cases found : (conn.modify sc.streamId record).get sc.streamId with
    | none => exact recorded
    | some s =>
      dsimp only
      split
      · exact recorded
      rename_i stop _
      split
      · exact recorded
      · rename_i more
        let raise (t : Stream) : Stream := {t with sendFlowHighest := max t.sendFlowHighest stop}
        have same : (conn.modify sc.streamId record).modify sc.streamId (fun t => {t with sendFlowHighest := stop}) =
            (conn.modify sc.streamId record).modify sc.streamId raise := by
          refine modify_congr found ?_
          unfold raise
          rw [max_eq_right (by omega)]
        dsimp only
        rw [same]
        exact settled_modify recorded _ fun t settled r reset => (settled r reset).trans (le_max_left _ _)

/-- The RESET_STREAM of a packet is within the limit of its stream, and no further than what the stream sent. -/
theorem staged_within {h : History} (reset : Reset h) {p : Poll} {rs : Frame.ResetStream} {pos : Nat}
    (staged : h.conn.stageReset p = .ok (some rs,pos)) : ∃ limit, h.conn.level (.streamData rs.streamId) = some limit ∧
      rs.finalSize ≤ limit ∧ rs.finalSize ≤ mark h.offsets rs.streamId := by
  obtain ⟨s,r,found,there,was,size⟩ := stageReset_spec staged
  have named : s.id = rs.streamId := by simpa using List.find?_some found
  have settled := reset.settled s there r was
  refine ⟨s.sendMaxData,by rw [level_streamData,found]; rfl,?_,?_⟩
  · rw [size]
    exact settled.trans (reset.credited.accounted.metered s there).limit
  · rw [size,← named,reset.credited.accounted.marks s there]
    exact settled

theorem reset_poll {h : History} (reset : Reset h) (p : Poll) : Reset (pollStep h p) := by
  have credited := (pollStep_out h p reset.credited).credited
  unfold pollStep at credited ⊢
  cases staged : h.conn.stageReset p with
  | error e => exact reset
  | ok pair =>
  obtain ⟨rs,pos⟩ := pair
  rw [staged] at credited
  have calm : Calm SentAll h.conn _ :=
    pack_calm (fun n => p.grants (n+1)) p.maxPayload 0 p.ready {conn := h.conn,plPos := pos+p.datagramLen}
  have level : ∀ c, _ = h.conn.level c :=
    pack_level (fun n => p.grants (n+1)) p.maxPayload 0 p.ready {conn := h.conn,plPos := pos+p.datagramLen}
  dsimp only at credited ⊢
  cases outcome : Packet.pack (fun n => p.grants (n+1)) p.maxPayload 0 p.ready {conn := h.conn,plPos := pos+p.datagramLen} with
  | mk result packet =>
  rw [outcome] at calm level credited
  change Calm SentAll h.conn packet.conn at calm
  change ∀ c, packet.conn.level c = h.conn.level c at level
  have settled := settled_moves reset.settled calm.moves
  have more {old : List StreamFrame} (within : ∀ f ∈ h.sent, f ∈ old) (new : List StreamFrame) : ∀ f ∈ h.sent, f ∈ new ++ old :=
    fun f member => List.mem_append_right _ (within f member)
  cases result with
  | error e => exact ⟨credited,more reset.sent _,settled,reset.limits,reset.finals⟩
  | ok _ =>
    dsimp only at credited ⊢
    split
    · rename_i out
      rw [if_pos out] at credited
      refine ⟨credited,fun f member => ?_,settled_commit ?_ _,fun r member => ?_,fun r member => ?_⟩
      · rcases List.mem_append.mp member with new | old
        · exact List.mem_append_left _ new
        · exact List.mem_append_right _ (reset.sent f old)
      · cases rs with
        | none => exact settled
        | some rs => exact settled_moves settled (markResetQueued_calm packet.conn rs.streamId).moves
      · rcases List.mem_append.mp member with new | old
        · cases rs with
          | none => cases new
          | some rs =>
            obtain rfl := List.mem_singleton.mp new
            obtain ⟨limit,here,within,_⟩ := staged_within reset staged
            have same : (packet.conn.get rs.streamId).map (·.sendMaxData) = some limit := (level (.streamData rs.streamId)).trans here
            dsimp only
            rw [same]
            exact within
        · exact reset.limits r old
      · refine le_trans ?_ (mark_mono (fun (entry : Nat × Nat) (noted : entry ∈ h.offsets) => ?_) r.frame.streamId)
        · rcases List.mem_append.mp member with new | old
          · cases rs with
            | none => cases new
            | some rs =>
              obtain rfl := List.mem_singleton.mp new
              obtain ⟨_,_,_,reach⟩ := staged_within reset staged
              exact reach
          · exact reset.finals r old
        · unfold History.offsets at noted ⊢
          rw [List.map_append]
          exact List.mem_append_right _ noted
    · rename_i out
      rw [if_neg out] at credited
      exact ⟨credited,more reset.sent _,settled,reset.limits,reset.finals⟩

/-- The condition of a step: the parameters leave room for what was sent, and a stream that is reset has sent
everything that was written to it. -/
def ResetSent (h : History) (e : Event) : Prop := Affordable h e ∧ StepMayReset SentAll h e

theorem reset_step (h : History) (e : Event) (reset : Reset h) (met : ResetSent h e) : Reset (step h e) := by
  obtain ⟨affordable,may⟩ := met
  by_cases poll : ∃ p, e.call = .poll p
  · obtain ⟨p,call⟩ := poll
    obtain ⟨call',grants⟩ := e
    subst call
    show Reset (if h.conn.live then pollStep h p else h)
    split
    · exact reset_poll reset p
    · exact reset
  · exact reset.packetless (step_packetless h e affordable (fun p is => poll ⟨p,is⟩)
      (fun s none unwritten => by unfold SentAll; omega) may)

theorem reset_fresh (h : History) (fresh : Fresh h) : Reset h := by
  have credited := credited_fresh h fresh
  obtain ⟨role,bidi,uni,maxBufferedSend,maxBufferedSendCap,follows,rfl⟩ := fresh
  exact ⟨credited,by simp,by simp,by simp,by simp⟩

/-- Final sizes that the streams had sent up to add nothing to what is counted. -/
theorem total_finals {finals offsets : List (Nat × Nat)} (within : ∀ entry ∈ finals, entry.2 ≤ mark offsets entry.1) :
    total (finals ++ offsets) = total offsets := by
  induction finals with
  | nil => rfl
  | cons entry rest ih =>
    have rest' := ih fun next member => within next (List.mem_cons_of_mem _ member)
    have here := within entry List.mem_cons_self
    have up : mark offsets entry.1 ≤ mark (rest ++ offsets) entry.1 :=
      mark_mono (fun _ member => List.mem_append_right _ member) _
    rw [List.cons_append]
    refine (total_cons entry.1 entry.2 (rest ++ offsets)).trans ?_
    omega

/-- What reaches the peer is among the frames of the packets that went out. -/
def Sent (h : History) : RecvFlow.Arrival → Prop
  | .stream id stop => (id,stop) ∈ h.offsets
  | .reset id finalSize => (id,finalSize) ∈ h.finalSizes

/-- In every run whose steps meet the condition, each RESET_STREAM is within the limit of its stream, the highest
offsets and the final sizes add up to no more than the peer's limit, and a peer whose limits are at least those it
gave accepts every selection of the frames, in every order that has nothing of a stream after its reset. -/
theorem resets_within_credit (start : History) (events : List Event) (fresh : Fresh start)
    (met : System.Admits step ResetSent start events) :
    System.Throughout (fun h => (∀ r ∈ h.resets, r.frame.finalSize ≤ r.sendMaxData) ∧
      total (h.finalSizes ++ h.offsets) ≤ h.conn.peerMaxData ∧
      ∀ (recvMaxData : Nat → Nat) (localMaxData : Nat) (arrivals : List RecvFlow.Arrival),
        (∀ f ∈ h.sent, f.sendMaxData ≤ recvMaxData f.streamId) →
        (∀ r ∈ h.resets, r.sendMaxData ≤ recvMaxData r.frame.streamId) → h.conn.peerMaxData ≤ localMaxData →
        (∀ a ∈ arrivals, Sent h a) → RecvFlow.Account.Tidy arrivals →
        ∃ account, RecvFlow.Account.takeAll recvMaxData localMaxData {} arrivals = .ok account) step start events := by
  refine System.Throughout.of_reaches (fun h reached => ?_) (.start fresh) met
  have reset : Reset h := reached.invariant Reset reset_fresh reset_step
  have finals : total (h.finalSizes ++ h.offsets) = total h.offsets := by
    refine total_finals fun entry noted => ?_
    obtain ⟨r,member,rfl⟩ := List.mem_map.mp noted
    exact reset.finals r member
  have within : total (h.finalSizes ++ h.offsets) ≤ h.conn.peerMaxData := by
    rw [finals,reset.credited.accounted.total]
    exact reset.credited.accounted.within
  refine ⟨reset.limits,within,fun recvMaxData localMaxData arrivals streams resets conn arrived tidy => ?_⟩
  refine RecvFlow.Account.takeAll_within [] (h.finalSizes ++ h.offsets) {} arrivals (by simp) (fun a member => ?_) rfl
    (fun _ _ => rfl) tidy (fun entry noted => ?_) (within.trans conn)
  · have came := arrived a member
    cases a with
    | stream id stop => exact List.mem_append_right _ came
    | reset id finalSize => exact List.mem_append_left _ came
  · rcases List.mem_append.mp noted with final | offset
    · obtain ⟨r,member,rfl⟩ := List.mem_map.mp final
      exact (reset.limits r member).trans (resets r member)
    · obtain ⟨f,member,rfl⟩ := List.mem_map.mp offset
      exact (reset.credited.built f (reset.sent f member)).trans (streams f member)

theorem nodup_streamZero : [0].Nodup := List.nodup_singleton 0

/-- A packet for whatever is due of stream 0. -/
def resetPacket : Poll := ⟨true,[0],[0],nodup_streamZero,1200,0,0,fun _ => granting,true⟩

def writeAndReset (limit : Byte) (sends : Bool) : List Event :=
  [⟨.tlsTransportParams [4,1,limit,6,1,limit,8,1,1],granting⟩,⟨.cachePeerTransportParams none,granting⟩,⟨.openBidi 0,granting⟩,
    ⟨.streamWrite 0 100 [7,8],granting⟩] ++ (if sends then [⟨.poll resetPacket,granting⟩] else []) ++
    [⟨.streamReset 0 9,granting⟩,⟨.poll resetPacket,granting⟩]

theorem mayReset_of_all {conn : Connection} {id : Nat}
    (all : (conn.get id).all (fun s => decide (s.send.writeOffset ≤ s.sendFlowHighest)) = true) : MayReset SentAll conn id := by
  intro s found _
  rw [found] at all
  exact of_decide_eq_true (p := s.send.writeOffset ≤ s.sendFlowHighest) all

theorem resets_within_credit_sent : System.Admits step ResetSent client (writeAndReset 5 true) ∧
    ((System.run step client (writeAndReset 5 true)).resets.map (·.frame.finalSize) = [2]) ∧
    ∀ r ∈ (System.run step client (writeAndReset 5 true)).resets, r.frame.finalSize ≤ r.sendMaxData := by
  have met : System.Admits step ResetSent client (writeAndReset 5 true) :=
    ⟨⟨trivial,trivial⟩,⟨fun _ _ _ => ⟨Nat.zero_le _,fun _ none => (List.not_mem_nil none).elim⟩,trivial⟩,⟨trivial,trivial⟩,
      ⟨trivial,trivial⟩,⟨trivial,trivial⟩,⟨trivial,mayReset_of_all (by decide +kernel)⟩,⟨trivial,trivial⟩,trivial⟩
  exact ⟨met,by decide +kernel,(resets_within_credit client (writeAndReset 5 true) client_fresh met).last.1⟩

/-- The final size counts bytes that were never sent, and that the peer gave no credit for. -/
theorem reset_beyond_limit : Fresh client ∧ ∃ r ∈ (System.run step client (writeAndReset 1 false)).resets,
    r.sendMaxData < r.frame.finalSize :=
  ⟨client_fresh,by decide +kernel⟩

end QuicZig.Conn.SendFlow
