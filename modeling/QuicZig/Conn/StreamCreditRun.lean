import QuicZig.Conn.StreamCredit
import QuicZig.Library.System

/-! Runs of a sending connection within the peer's credit. -/
namespace QuicZig.Conn.SendFlow
open Machine Paths Streams HighWater Relation

variable {mayReset : Stream → Prop}

/-- What holds of a history when its connection keeps its account. -/
structure Credited (h : History) : Prop where
  accounted : Accounted h.offsets h.conn
  built : ∀ f ∈ h.built, f.stop ≤ f.sendMaxData

theorem Packetless.credited {h after : History} (less : Packetless mayReset h after) (credited : Credited h) :
    Credited after := by
  have offsets : after.offsets = h.offsets := congrArg (List.map _) less.sent
  exact ⟨offsets ▸ credited.accounted.moves less.moves,less.built.symm ▸ credited.built⟩

theorem Ready.markReset {offsets : List (Nat × Nat)} {conn : Connection} {sent : List SentStreamChunk}
    (ready : Ready offsets conn sent) (id : Nat) : Ready offsets (conn.markResetQueued id) sent := by
  let queue (s : Stream) : Stream := {s with send := {s.send with reset := s.send.reset.map fun ri => {ri with queued := true}}}
  have named : ∀ s, (queue s).id = s.id := fun _ => rfl
  have calm : Calm (fun _ => True) conn (conn.markResetQueued id) := markResetQueued_calm conn id
  refine ⟨ready.accounted.calm calm,fun sc member => ?_,ready.distinct,ready.room⟩
  obtain ⟨s,found,planned⟩ := ready.chunks sc member
  by_cases other : sc.streamId = id
  · have same : queue s = s := by
      have idle := peeked_running planned.peeked
      change {s with send := {s.send with reset := s.send.reset.map fun ri => {ri with queued := true}}} = s
      rw [idle,Option.map_none,← idle]
    have marked := get_modify named conn sc.streamId
    rw [found,Option.map_some,same] at marked
    subst other
    exact ⟨s,marked,planned⟩
  · exact ⟨s,(get_modify_other named conn other).trans found,planned⟩

theorem frames_offsets (conn : Connection) (sent : List SentStreamChunk) :
    ((sent.map (frameOf conn)).map fun f => (f.streamId,f.stop)) =
      sent.map fun sc => (sc.streamId,sc.chunk.offset+sc.chunk.length) := by
  rw [List.map_map]
  rfl

/-- A packet that goes out adds its frames, and charges each for what it has above its stream's mark. -/
structure PacketOut (h after : History) : Prop where
  credited : Credited after
  charged : ∃ new, after.sent = new ++ h.sent ∧ (new.map (·.streamId)).Nodup ∧
    after.conn.weSentStreamData = h.conn.weSentStreamData+(new.map fun f => f.stop-mark h.offsets f.streamId).sum

theorem total_reverse (sent : List SentStreamChunk) (offsets : List (Nat × Nat)) (distinct : (sent.map (·.streamId)).Nodup) :
    total ((sent.map fun sc => (sc.streamId,sc.chunk.offset+sc.chunk.length)).reverse ++ offsets) =
      total offsets+(sent.map (charge offsets)).sum := by
  induction sent generalizing offsets with
  | nil => simp
  | cons sc rest ih =>
    obtain ⟨apart,distinct⟩ := List.nodup_cons.mp distinct
    have charges : rest.map (charge ((sc.streamId,sc.chunk.offset+sc.chunk.length)::offsets)) = rest.map (charge offsets) := by
      refine List.map_congr_left fun next member => ?_
      unfold charge
      rw [mark_other fun same => apart (List.mem_map.mpr ⟨next,member,same.symm⟩)]
    have whole := ih ((sc.streamId,sc.chunk.offset+sc.chunk.length)::offsets) distinct
    rw [charges,total_cons] at whole
    rw [List.map_cons,List.reverse_cons,List.append_assoc,List.map_cons,List.sum_cons]
    refine whole.trans ?_
    unfold charge
    omega

theorem pollStep_out (h : History) (p : Poll) (credited : Credited h) : PacketOut h (pollStep h p) := by
  have still {after : History} (credited : Credited after) (sent : after.sent = h.sent)
      (weSent : after.conn.weSentStreamData = h.conn.weSentStreamData) : PacketOut h after :=
    ⟨credited,[],sent,.nil,weSent⟩
  unfold pollStep
  cases h.conn.stageReset p with
  | error e => exact still credited rfl rfl
  | ok staged =>
  obtain ⟨reset,pos⟩ := staged
  have begin' : Packed h.offsets p.ready {conn := h.conn,plPos := pos+p.datagramLen} :=
    ⟨credited.accounted,by simp,.nil,by simp,rfl,credited.accounted.within⟩
  have packed := pack_packed (fun n => p.grants (n+1)) p.maxPayload 0 p.ready _ p.distinct begin'
  have calm : Calm (fun _ => True) h.conn _ :=
    pack_calm (fun n => p.grants (n+1)) p.maxPayload 0 p.ready {conn := h.conn,plPos := pos+p.datagramLen}
  dsimp only
  cases outcome : Packet.pack (fun n => p.grants (n+1)) p.maxPayload 0 p.ready {conn := h.conn,plPos := pos+p.datagramLen} with
  | mk result packet =>
  rw [outcome] at packed calm
  change Packed h.offsets [] packet at packed
  change Calm (fun _ => True) h.conn packet.conn at calm
  have built : ∀ f ∈ (packet.sentChunks.map (frameOf packet.conn)).reverse ++ h.built, f.stop ≤ f.sendMaxData := by
    intro f member
    rcases List.mem_append.mp member with new | old
    · obtain ⟨sc,inside,rfl⟩ := List.mem_map.mp (List.mem_reverse.mp new)
      obtain ⟨s,found,planned⟩ := packed.chunks sc inside
      unfold frameOf StreamFrame.stop
      rw [found]
      exact planned.within
    · exact credited.built f old
  have unsent : PacketOut h {h with conn := packet.conn,built := (packet.sentChunks.map (frameOf packet.conn)).reverse ++ h.built} :=
    still ⟨packed.accounted,built⟩ rfl calm.weSent
  cases result with
  | error e => exact unsent
  | ok _ =>
    dsimp only
    split
    · have committed (conn : Connection) (resets) (ready : Ready h.offsets conn packet.sentChunks) : PacketOut h {h with
            conn := conn.commitChunks packet.sentChunks
            built := (packet.sentChunks.map (frameOf packet.conn)).reverse ++ h.built
            sent := (packet.sentChunks.map (frameOf packet.conn)).reverse ++ h.sent
            resets := resets
          } := by
        have accounted := ready.commit
        have offsets : (packet.sentChunks.map fun sc => (sc.streamId,sc.chunk.offset+sc.chunk.length)).reverse ++ h.offsets =
            ((packet.sentChunks.map (frameOf packet.conn)).reverse ++ h.sent).map fun f => (f.streamId,f.stop) := by
          rw [List.map_append,List.map_reverse,frames_offsets]
          rfl
        refine ⟨⟨?_,built⟩,(packet.sentChunks.map (frameOf packet.conn)).reverse,rfl,?_,?_⟩
        · rw [offsets] at accounted
          exact accounted
        · rw [List.map_reverse,List.nodup_reverse,List.map_map]
          exact packed.distinct
        · have sum := accounted.total
          rw [total_reverse _ _ packed.distinct,credited.accounted.total] at sum
          rw [List.map_reverse,List.sum_reverse,List.map_map]
          exact sum.symm
      cases reset with
      | none => exact committed _ _ packed.ready
      | some rs => exact committed _ _ (packed.ready.markReset rs.streamId)
    · exact unsent

theorem step_out (h : History) (e : Event) (credited : Credited h) (affordable : Affordable h e) : PacketOut h (step h e) := by
  obtain ⟨call,grants⟩ := e
  by_cases poll : ∃ p, call = .poll p
  · obtain ⟨p,rfl⟩ := poll
    show PacketOut h (if h.conn.live then pollStep h p else h)
    split
    · exact pollStep_out h p credited
    · exact ⟨credited,[],rfl,.nil,rfl⟩
  · have may : StepMayReset (fun _ => True) h ⟨call,grants⟩ := by
      unfold StepMayReset
      split
      · exact fun _ _ _ => trivial
      · exact fun _ _ _ => trivial
      · exact trivial
    have less := step_packetless h ⟨call,grants⟩ affordable (fun p is => poll ⟨p,is⟩) (fun _ _ _ => trivial) may
    obtain ⟨id,mid,grown,calm⟩ := less.moves
    refine ⟨less.credited credited,[],less.sent,.nil,?_⟩
    rcases grown with rfl | opened
    · exact calm.weSent
    · exact calm.weSent.trans opened.weSent

theorem credited_fresh (h : History) (fresh : Fresh h) : Credited h := by
  obtain ⟨role,bidi,uni,maxBufferedSend,maxBufferedSendCap,follows,rfl⟩ := fresh
  refine ⟨⟨⟨StreamIdSpace.sound_init _ _,StreamIdSpace.sound_init _ _,StreamIdSpace.sound_init _ _,StreamIdSpace.sound_init _ _⟩,
    .nil,by simp,by simp [History.offsets],by simp,by simp,rfl,Nat.zero_le _,le_rfl⟩,by simp⟩

/-- In every run whose steps leave room for what was sent before, each STREAM frame ends within the limit of its
stream, the highest offsets sent add up to what the connection counts, within the peer's limit, and a step counts
only what its frames have above the highest offset that their streams had sent. -/
theorem stream_credit_respected (start : History) (events : List Event) (fresh : Fresh start)
    (met : System.Admits step Affordable start events) :
    System.Throughout (fun h => (∀ f ∈ h.built, f.stop ≤ f.sendMaxData) ∧ total h.offsets = h.conn.weSentStreamData ∧
      h.conn.weSentStreamData ≤ h.conn.peerMaxData) step start events ∧
    ∀ before e after, events = before ++ e::after → ∃ new, (step (System.run step start before) e).sent =
        new ++ (System.run step start before).sent ∧ (new.map (·.streamId)).Nodup ∧
      (step (System.run step start before) e).conn.weSentStreamData =
        (System.run step start before).conn.weSentStreamData+
          (new.map fun f => f.stop-mark (System.run step start before).offsets f.streamId).sum := by
  have always : ∀ h, System.Reaches Fresh step Affordable h → Credited h := fun h reached =>
    reached.invariant Credited credited_fresh (fun h e credited affordable => (step_out h e credited affordable).credited)
  refine ⟨System.Throughout.of_reaches (fun h reached => ?_) (.start fresh) met,?_⟩
  · have credited := always h reached
    exact ⟨credited.built,credited.accounted.total,credited.accounted.within⟩
  · rintro before e after rfl
    obtain ⟨first,rest⟩ := System.Admits.append.mp met
    exact (step_out _ e (always _ ((System.Reaches.start fresh).run before first)) rest.1).charged

/-- One stream, one packet: the parameters give 1 byte and the peer raises that to 3 before 2 bytes go out. -/
def onePacket : Poll := ⟨true,[],[0],by decide,1200,0,0,fun _ => granting,true⟩

def oneStream : List Event := [⟨.tlsTransportParams [4,1,1,6,1,3,8,1,1],granting⟩,⟨.cachePeerTransportParams none,granting⟩,
  ⟨.openBidi 0,granting⟩,⟨.maxData ⟨3⟩ (by decide),granting⟩,⟨.streamWrite 0 100 [7,8],granting⟩,⟨.poll onePacket,granting⟩]

def client : History := {conn := {role := .client}}

theorem client_fresh : Fresh client := ⟨.client,0,0,_,_,true,rfl⟩

theorem client_affordable : System.Admits step Affordable client oneStream :=
  ⟨trivial,fun _ _ _ => ⟨Nat.zero_le _,fun _ none => (List.not_mem_nil none).elim⟩,trivial,trivial,trivial,trivial,trivial⟩

theorem stream_credit_respected_oneStream :
    System.Throughout (fun h => (∀ f ∈ h.built, f.stop ≤ f.sendMaxData) ∧ total h.offsets = h.conn.weSentStreamData ∧
      h.conn.weSentStreamData ≤ h.conn.peerMaxData) step client oneStream :=
  (stream_credit_respected client oneStream client_fresh client_affordable).1

/-- Asking for the parameters again puts the limit back to the initial one, below what was sent. -/
theorem parameters_undercut : Fresh client ∧
    (System.run step client (oneStream ++ [⟨.peerTransportParams none,granting⟩])).conn.peerMaxData <
      (System.run step client (oneStream ++ [⟨.peerTransportParams none,granting⟩])).conn.weSentStreamData :=
  ⟨client_fresh,by decide +kernel⟩

end QuicZig.Conn.SendFlow
