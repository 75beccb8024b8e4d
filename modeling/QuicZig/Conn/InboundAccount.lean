import QuicZig.Conn.InboundSteps
import QuicZig.Library.System

/-! The two accounts of a connection over whole runs: the bytes its buffers hold, and the
bytes its peer is charged for. -/
namespace QuicZig.Conn.Inbound
open Machine Paths Streams SendFlow Ledger BlockedStreams

/-- All that is held for the peer and for the application. -/
def heldBytes (conn : Connection) : Nat :=
  (conn.flow.streams.map fun s => s.send.bytes.live+(conn.half s.id).recv.bytes.length).sum+
    (Connection.levels.map fun lvl => ((conn.crypto lvl).cryptoPending.map (·.data.length)).sum).sum+
    (conn.recvDatagrams.map List.length).sum

theorem Balanced.held {conn : Connection} (balanced : Balanced conn) : conn.resident.bytesResident = heldBytes conn := by
  rw [balanced.resident]
  unfold heldBytes Connection.residentBytesSum Connection.recvDatagramBytes
  simp only [balanced.counted]

def peerStreams (h : History) : List Nat := h.opened.filter (peerMaySendOnStream h.conn.flow.role)

/-- What holds of every state: an id has one stream in its life, and all that is done with went back to the window or
was forfeited. -/
structure Kept (h : History) : Prop where
  housed : Housed h.conn
  used : ∀ id, h.conn.flow.ids.Used h.conn.flow.role id ↔ id ∈ h.opened
  once : h.opened.Nodup
  finished : finished (peerStreams h) h.conn = h.conn.recvStreamBytesRead+h.forfeited
  limit : h.conn.peerSentStreamData ≤ h.conn.localMaxData

structure Booked (fits : Prop) (h : History) (e : Event) (charged risen : Nat) : Prop where
  kept : Kept (step h e)
  sent : (step h e).conn.peerSentStreamData = h.conn.peerSentStreamData+charged
  reached : reached (peerStreams (step h e)) (step h e).conn = reached (peerStreams h) h.conn+risen
  even : fits → Balanced h.conn → Balanced (step h e).conn
  misses : fits → Balanced h.conn → (charged = risen ↔ ¬ Misses h.conn e)
  fair : Fair charged h.conn (h.conn.act e)

theorem step_used {h : History} (kept : Kept h) (e : Event)
    (used : ∀ id, (h.conn.act e).2.flow.ids.Used (h.conn.act e).2.flow.role id ↔
      h.conn.flow.ids.Used h.conn.flow.role id ∨ id ∈ made h.conn (h.conn.act e).2) (id : Nat) :
    (step h e).conn.flow.ids.Used (step h e).conn.flow.role id ↔ id ∈ (step h e).opened := by
  change _ ↔ id ∈ h.opened ++ made h.conn (h.conn.act e).2
  rw [List.mem_append,← kept.used]
  exact used id

theorem total_peerStreams {conn : Connection} {opened keys : List Nat}
    (used : ∀ id, conn.flow.ids.Used conn.flow.role id ↔ id ∈ opened) (once : opened.Nodup) (once' : keys.Nodup)
    (member : ∀ id ∈ opened, id ∈ keys ↔ peerMaySendOnStream conn.flow.role id = true) {worth : RecvHalf → Nat}
    (blank : ∀ id, ¬ conn.flow.ids.Used conn.flow.role id → worth (conn.half id) = 0) :
    total worth conn.half keys = total worth conn.half (opened.filter (peerMaySendOnStream conn.flow.role)) := by
  refine total_support once' (once.filter _) fun id some => ?_
  have there : id ∈ opened := by
    by_contra absent
    exact some (blank id fun known => absent ((used id).mp known))
  rw [member id there,List.mem_filter]
  exact ⟨fun may => ⟨there,may⟩,And.right⟩

theorem step_booked {fits : Prop} {h : History} (kept : Kept h) (e : Event)
    (room : fits → (step h e).conn.residentBytesSum ≤ maxU64) : ∃ charged risen, Booked fits h e charged risen := by
  let keys := ((e.call.subject.toList ++ h.opened ++ made h.conn (h.conn.act e).2).dedup).filter
    (peerMaySendOnStream h.conn.flow.role)
  have once : keys.Nodup := (List.nodup_dedup _).filter _
  have member : ∀ id, id ∈ keys ↔ ((e.call.subject = some id ∨ id ∈ h.opened) ∨ id ∈ made h.conn (h.conn.act e).2) ∧
      peerMaySendOnStream h.conn.flow.role id = true := by
    intro id
    change id ∈ List.filter _ _ ↔ _
    rw [List.mem_filter,List.mem_dedup,List.mem_append,List.mem_append,Option.mem_toList]
  have live : ∀ id ∈ names h.conn, id ∈ h.opened := fun id there => (kept.used id).mp (kept.housed.used id there)
  have counted : ∀ id, peerMaySendOnStream h.conn.flow.role id = true →
      id ∈ names h.conn ∨ e.call.subject = some id → id ∈ keys := by
    rintro id may (there | subject)
    · exact (member id).mpr ⟨.inl (.inr (live id there)),may⟩
    · exact (member id).mpr ⟨.inl (.inl subject),may⟩
  obtain ⟨charged,risen,up,back,turn,same,misses,fair⟩ := @act_turn ⟨keys,fits,False⟩ h.conn kept.housed once e counted room id
  have used := step_used kept e turn.used
  have once' : (step h e).opened.Nodup := by
    refine List.nodup_append.mpr ⟨kept.once,?_,fun x old y fresh equal => ?_⟩
    · exact turn.housed.once.filter _
    · exact turn.fresh y fresh ((kept.used y).mpr (equal ▸ old))
  have before : ∀ worth : RecvHalf → Nat, (∀ id, ¬ h.conn.flow.ids.Used h.conn.flow.role id → worth (h.conn.half id) = 0) →
      total worth h.conn.half keys = total worth h.conn.half (peerStreams h) := fun worth blank =>
    total_peerStreams kept.used kept.once once (fun id there => by
      rw [member]
      exact ⟨And.right,fun may => ⟨.inl (.inr there),may⟩⟩) blank
  have after : ∀ worth : RecvHalf → Nat, (∀ id, ¬ (step h e).conn.flow.ids.Used (step h e).conn.flow.role id →
      worth ((step h e).conn.half id) = 0) →
        total worth (step h e).conn.half keys = total worth (step h e).conn.half (peerStreams (step h e)) := fun worth blank =>
    total_peerStreams used once' once (fun id there => by
      have role : (step h e).conn.flow.role = h.conn.flow.role := turn.role
      rw [member,role]
      refine ⟨And.right,fun may => ⟨?_,may⟩⟩
      exact (List.mem_append.mp there).elim (fun old => .inl (.inr old)) .inr) blank
  have reach : total (fun h : RecvHalf => h.recv.highWater) (step h e).conn.half keys =
      total (fun h : RecvHalf => h.recv.highWater) h.conn.half keys+risen := turn.reached
  have done : total (fun h : RecvHalf => h.recv.doneWith) (step h e).conn.half keys =
      total (fun h : RecvHalf => h.recv.doneWith) h.conn.half keys+up := turn.finished
  rw [before _ fun id unused => (kept.housed.blank id unused).1,after _ fun id unused => (turn.housed.blank id unused).1] at reach
  rw [before _ fun id unused => (kept.housed.blank id unused).2,after _ fun id unused => (turn.housed.blank id unused).2] at done
  refine ⟨charged,risen,⟨turn.housed,used,once',?_,?_⟩,turn.sent,reach,turn.even,misses,fair⟩
  · have finished' : total (fun h : RecvHalf => h.recv.doneWith) h.conn.half (peerStreams h) =
        h.conn.recvStreamBytesRead+h.forfeited := kept.finished
    have read : (step h e).conn.recvStreamBytesRead = h.conn.recvStreamBytesRead+back := turn.read
    have forfeited : (step h e).forfeited =
      h.forfeited+forfeit h.conn (h.conn.act e).2 e.call (h.conn.act e).1 := rfl
    unfold finished
    omega
  · have sent : (step h e).conn.peerSentStreamData = h.conn.peerSentStreamData+charged := turn.sent
    rw [sent]
    exact (fair.limit kept.limit).trans turn.limit

theorem kept_fresh {h : History} (fresh : Fresh h) : Kept h ∧ Balanced h.conn ∧ h.conn.peerSentStreamData = 0 ∧ h.opened = [] := by
  obtain ⟨role,params,memory,send,cap,follows,tunes,stream,conn,normal,rfl⟩ := fresh
  let ids : IdSpaces := {
    peerBidiIds := .initAdvertised params.initialMaxStreamsBidi
    peerUniIds := .initAdvertised params.initialMaxStreamsUni}
  have sound : ids.Sound :=
    ⟨StreamIdSpace.sound_init _ _,StreamIdSpace.sound_init _ _,StreamIdSpace.sound_init _ _,StreamIdSpace.sound_init _ _⟩
  have unused : ∀ id, ¬ ids.Used role id := by
    intro id
    unfold IdSpaces.Used
    rw [StreamIdSpace.classify_used (sound.idSpace id)]
    unfold IdSpaces.idSpace
    split <;> split <;> exact fun both => absurd both.1 (Nat.not_lt_zero _)
  refine ⟨⟨⟨sound,List.nodup_nil,fun id there => (nomatch there),fun s there => (nomatch there),
    fun _ => (RecvStream.running_init _).sound,fun _ _ => ⟨rfl,rfl⟩,fun _ stop => (nomatch stop)⟩,fun id => ?_,List.nodup_nil,rfl,
    Nat.zero_le _⟩,⟨rfl,fun _ => rfl⟩,rfl,rfl⟩
  exact ⟨fun known => absurd known (unused id),fun there => (nomatch there)⟩

/-- The bytes held after a step are bytes of one address space. -/
def Addressable (h : History) (e : Event) : Prop := (step h e).conn.residentBytesSum ≤ maxU64

/-- The budget is charged for what is held, whatever is received, read, written, acknowledged, reset or reclaimed. -/
theorem resident_bytes_exact (start : History) (events : List Event) (fresh : Fresh start)
    (admitted : System.Admits step Addressable start events) :
    System.Throughout (fun h => h.conn.resident.bytesResident = heldBytes h.conn) step start events := by
  have known : ∀ h, System.Reaches Fresh step Addressable h → Kept h ∧ Balanced h.conn := by
    intro h reached
    refine reached.invariant (fun h => Kept h ∧ Balanced h.conn) (fun h fresh => ?_) fun h e ⟨kept,balanced⟩ addressable => ?_
    · exact ⟨(kept_fresh fresh).1,(kept_fresh fresh).2.1⟩
    · obtain ⟨charged,risen,booked⟩ := @step_booked True h kept e fun _ => addressable
      exact ⟨booked.kept,booked.even trivial balanced⟩
  exact System.Throughout.of_reaches (fun h reached => (known h reached).2.held) (.start fresh) admitted

instance (h : History) (e : Event) : Decidable (Addressable h e) := inferInstanceAs (Decidable (_ ≤ _))

/-- The account of what the peer sent: each of its streams is charged for up to where it reached, and each byte goes
back to the window at most once. -/
structure Accounted (h : History) : Prop where
  charged : h.conn.peerSentStreamData = reached (peerStreams h) h.conn
  limit : h.conn.peerSentStreamData ≤ h.conn.localMaxData
  returned : h.conn.recvStreamBytesRead+h.forfeited = finished (peerStreams h) h.conn
  once : ∀ id, (h.conn.half id).recv.doneWith ≤ (h.conn.half id).recv.highWater

/-- The step fails, or closes the connection. -/
def Rejected (conn : Connection) (e : Event) : Prop :=
  (∃ error, (conn.act e).1 = .error error) ∨ (conn.live = true ∧ (conn.act e).2.live = false)

/-- A frame that is rejected is charged for nothing. -/
def RejectsFree (h : History) (e : Event) : Prop :=
  Rejected h.conn e → (step h e).conn.peerSentStreamData = h.conn.peerSentStreamData

theorem Booked.accounted {fits : Prop} {h : History} {e : Event} {charged risen : Nat}
    (booked : Booked fits h e charged risen) (before : h.conn.peerSentStreamData = Inbound.reached (peerStreams h) h.conn) :
    Accounted (step h e) ↔ charged = risen := by
  obtain ⟨kept,sent,reach,_,_,_⟩ := booked
  rw [before] at sent
  constructor
  · intro accounted
    have both := accounted.charged
    omega
  · intro equal
    exact ⟨by omega,kept.limit,kept.finished.symm,fun id => (kept.housed.halves id).done_le⟩

theorem Fair.rejects {charged : Nat} {h : History} {e : Event} (fair : Fair charged h.conn (h.conn.act e))
    (sent : (step h e).conn.peerSentStreamData = h.conn.peerSentStreamData+charged) : RejectsFree h e := by
  intro rejected
  have none : charged = 0 := by
    by_contra some
    obtain ⟨ok,live⟩ := fair.taken some
    rcases rejected with ⟨error,failed⟩ | ⟨before,after⟩
    · rw [ok] at failed
      cases failed
    · rw [live,before] at after
      cases after
  rw [sent,none,Nat.add_zero]

/-- What the peer sent is charged once, and comes back at most once, just in the runs where no frame reaches above the
highest offset of a stream that is reset already, or of one whose buffer it finds no memory for. -/
theorem peer_bytes_charged_once (start : History) (events : List Event) (fresh : Fresh start)
    (admitted : System.Admits step Addressable start events) :
    (System.Throughout Accounted step start events ∧ System.Admits step RejectsFree start events) ↔
      System.Admits step (fun h e => ¬ Misses h.conn e) start events := by
  obtain ⟨kept,balanced,sent,opened⟩ := kept_fresh fresh
  have none : reached (peerStreams start) start.conn = 0 := by
    unfold reached peerStreams
    rw [opened]
    rfl
  have first : Accounted start := ⟨sent.trans none.symm,kept.limit,kept.finished.symm,fun id => (kept.housed.halves id).done_le⟩
  have exactly : System.Throughout Accounted step start events ↔ System.Admits step (fun h e => ¬ Misses h.conn e) start events := by
    refine @System.throughout_iff _ _ step Addressable (fun h => Kept h ∧ Balanced h.conn) _ _ ?_ ?_ start events
      ⟨kept,balanced⟩ first admitted
    · rintro h e ⟨kept,balanced⟩ addressable
      obtain ⟨charged,risen,booked⟩ := @step_booked True h kept e fun _ => addressable
      exact ⟨booked.kept,booked.even trivial balanced⟩
    · rintro h e ⟨kept,balanced⟩ accounted addressable
      obtain ⟨charged,risen,booked⟩ := @step_booked True h kept e fun _ => addressable
      exact (booked.accounted accounted.charged).trans (booked.misses trivial balanced)
  refine ⟨fun both => exactly.mp both.1,fun met => ⟨exactly.mpr met,?_⟩⟩
  have free : ∀ h, Kept h → ∀ rest, System.Admits step RejectsFree h rest := by
    intro h kept rest
    induction rest generalizing h with
    | nil => exact trivial
    | cons e rest ih =>
      obtain ⟨charged,risen,booked⟩ := @step_booked False h kept e fun absurd => absurd.elim
      exact ⟨booked.fair.rejects booked.sent,ih (step h e) booked.kept⟩
  exact free start kept events

instance (grants : Allocator) (conn : Connection) (id level : Nat) (frame : SendFlow.Connection.PeerStreamFrame) :
    Decidable (Rises grants conn id level frame) :=
  decidable_of_iff ((conn.ensurePeerStream grants id frame).1 = .ok true ∧ (peerHalf conn id).recv.endOffset < level ∧
      level ≤ (peerHalf conn id).recvMaxData ∧
      conn.peerSentStreamData+(level-(peerHalf conn id).recv.endOffset) ≤ conn.localMaxData)
    ⟨fun ⟨through,above,stream,limit⟩ => ⟨through,above,stream,limit⟩,fun rises => ⟨rises.through,rises.above,rises.stream,rises.conn⟩⟩

instance (conn : Connection) (s : Frame.Stream) : Decidable (Unaffordable conn s) := inferInstanceAs (Decidable (_ ∧ _))

instance (grants : Nat → Allocator) (conn : Connection) (s : Frame.Stream) : Decidable (StreamMisses grants conn s) :=
  decidable_of_iff (Rises (grants 0) conn s.streamId (s.offset+s.data.length) .streamData ∧
      ((peerHalf conn s.streamId).recv.reset.isSome = true ∨
        (((peerHalf conn s.streamId).recv.recv (grants 1) s.offset s.data s.fin).1 = .ok () ∧ Unaffordable conn s)))
    ⟨fun ⟨rises,kept⟩ => ⟨rises,kept⟩,fun misses => ⟨misses.rises,misses.kept⟩⟩

instance (grants : Allocator) (conn : Connection) (rs : Frame.ResetStream) : Decidable (ResetMisses grants conn rs) :=
  decidable_of_iff (Rises grants conn rs.streamId rs.finalSize .resetStream ∧
      (peerHalf conn rs.streamId).recv.reset.isSome = true)
    ⟨fun ⟨rises,kept⟩ => ⟨rises,kept⟩,fun misses => ⟨misses.rises,misses.kept⟩⟩

instance (conn : Connection) (e : Event) : Decidable (Misses conn e) := by
  unfold Misses
  split <;> infer_instance

/-- What a server that lets its peer open streams announces. -/
def announced : Tls.TransportParams.Params :=
  {initialMaxData := 65536,initialMaxStreamDataBidiRemote := 4096,initialMaxStreamDataUni := 4096,initialMaxStreamsBidi := 8
   initialMaxStreamsUni := 8,maxDatagramFrameSize := 1200}

def announcing : History := {conn := start .server announced (32*1024*1024)}

theorem announcing_fresh : Fresh announcing :=
  ⟨.server,announced,32*1024*1024,SendStream.defaultMaxBufferedSend,16*1024*1024,true,true,8*1024*1024,16*1024*1024,
    ⟨by decide,by decide,by decide,by decide,by decide,by decide,by decide⟩,rfl⟩

theorem resident_bytes_exact_mixed :
    System.Throughout (fun h => h.conn.resident.bytesResident = heldBytes h.conn) step announcing
      [{call := .stream {streamId := 0,offset := 2,data := [3,4],hasOffset := true,hasLength := true,fin := false} (by decide) (by decide)},
       {call := .stream {streamId := 0,offset := 0,data := [1,2],hasOffset := true,hasLength := true,fin := true} (by decide) (by decide)},
       {call := .crypto .initial {offset := 5,data := [1,2,3]}},{call := .datagram {data := [9],hasLength := true}},
       {call := .streamWrite 0 [7,8,9]},{call := .streamRead 0 3},{call := .receiveDatagram},
       {call := .resetStream {streamId := 2,applicationErrorCode := 1,finalSize := 10}},{call := .gcClosedStreams [0,2]}] :=
  resident_bytes_exact announcing _ announcing_fresh (by decide +kernel)

theorem peer_bytes_charged_once_mixed :
    System.Throughout Accounted step announcing
        [{call := .stream {streamId := 0,offset := 2,data := [3,4],hasOffset := true,hasLength := true,fin := false} (by decide) (by decide)},
         {call := .stream {streamId := 0,offset := 0,data := [1,2,3],hasOffset := true,hasLength := true,fin := false} (by decide) (by decide)},
         {call := .streamRead 0 3},{call := .resetStream {streamId := 0,applicationErrorCode := 1,finalSize := 10}},
         {call := .resetStream {streamId := 2,applicationErrorCode := 1,finalSize := 5000}},{call := .gcClosedStreams [0,2]}] ∧
      System.Admits step RejectsFree announcing
        [{call := .stream {streamId := 0,offset := 2,data := [3,4],hasOffset := true,hasLength := true,fin := false} (by decide) (by decide)},
         {call := .stream {streamId := 0,offset := 0,data := [1,2,3],hasOffset := true,hasLength := true,fin := false} (by decide) (by decide)},
         {call := .streamRead 0 3},{call := .resetStream {streamId := 0,applicationErrorCode := 1,finalSize := 10}},
         {call := .resetStream {streamId := 2,applicationErrorCode := 1,finalSize := 5000}},{call := .gcClosedStreams [0,2]}] :=
  (peer_bytes_charged_once announcing _ announcing_fresh (by decide +kernel)).mpr (by decide +kernel)

/-- The second of two equal RESET_STREAM frames is charged for again. -/
theorem reset_charged_twice :
    ¬ System.Throughout Accounted step announcing
      [{call := .resetStream {streamId := 2,applicationErrorCode := 1,finalSize := 10}},
       {call := .resetStream {streamId := 2,applicationErrorCode := 1,finalSize := 10}}] := by
  intro all
  have twice := all.2.2.charged
  revert twice
  decide +kernel

end QuicZig.Conn.Inbound
