import Mathlib.Data.List.Perm.Subperm
import QuicZig.Conn.SendDatagrams
import QuicZig.Frame.RoundTrip
import QuicZig.Library.System

/-! What becomes of the datagrams of an application in a run: they leave in order and unchanged, the head
of the queue is never stuck, and each is reported once. The sizes are what a run has to mind. -/
namespace QuicZig.Conn.SendDatagrams
open Machine Wire QuicZig.System

namespace Connection

/-- A packet of the current PMTU that nothing else goes into. -/
def emptyPacket (conn : Connection) : Build where
  level := .application
  pathId := conn.active
  room := conn.pmtu
  plPos := 0
  eliciting := false
  behind := false
  held := false
  sealed := true

/-- The payload fits a packet of the current PMTU that is otherwise empty. -/
def Fits (conn : Connection) (data : List Byte) : Prop :=
  frameLen data ≤ conn.maxPayload .application conn.active conn.pmtu

def HeadFits (conn : Connection) : Prop := ∀ dg ∈ conn.sendDatagrams.head?, conn.Fits dg.data

/-- What an application may count on. -/
structure Delivers (conn : Connection) : Prop where
  small : ∀ c ∈ conn.carried, c.frame.length ≤ conn.peerLimit
  unchanged : ∀ c ∈ conn.carried,
    Frame.decode c.frame = .ok {frame := frameOf c.datagram.data,bytesConsumed := c.frame.length}
  ordered : conn.accepted = conn.carried.map (·.datagram) ++ conn.sendDatagrams
  once : (conn.accepted.map (·.id)).Nodup
  counted : conn.sendDatagramBytes = (conn.sendDatagrams.map (·.data.length)).sum
  unblocked : ∀ dg rest, conn.sendDatagrams = dg::rest → (conn.pollLevelOnPath conn.emptyPacket).sendDatagrams = rest
  reportedOnce : (conn.reported.map (·.event.id)).Nodup

/-- The sizes that a step has to mind: a payload that is accepted fits the peer's limit with its type and its length,
and whatever is the head of the queue after the step fits a packet of the PMTU that is then current. -/
def Sized (conn : Connection) : Event → Prop
  | .send payload copies appends => (∃ id, (conn.sendDatagramTracked payload copies appends).1 = .ok id) →
      frameLen payload ≤ conn.peerLimit ∧ (conn.sendDatagrams = [] → conn.Fits payload)
  | .poll build => (conn.chosen build).isSome = true → ∀ next ∈ conn.sendDatagrams.tail.head?, conn.Fits next.data
  | .pathSize pathId size =>
    ∀ dg ∈ conn.sendDatagrams.head?, Fits {conn with paths := Function.update conn.paths pathId size} dg.data
  | .switch pathId => ∀ dg ∈ conn.sendDatagrams.head?, Fits {conn with active := pathId} dg.data
  | _ => True

end Connection

def Start (conn : Connection) : Prop :=
  conn.sendDatagrams = [] ∧ conn.sendDatagramBytes = 0 ∧ conn.sent = [] ∧ conn.accepted = [] ∧ conn.carried = [] ∧
    conn.reported = []

namespace Connection

def openIds (conn : Connection) : List Nat := (conn.sent.filterMap (·.datagram)).map (·.id)

def reportedIds (conn : Connection) : List Nat := conn.reported.map (·.event.id)

/-- What every step keeps, whatever the sizes. -/
structure Books (conn : Connection) : Prop where
  unchanged : ∀ c ∈ conn.carried,
    Frame.decode c.frame = .ok {frame := frameOf c.datagram.data,bytesConsumed := c.frame.length}
  ordered : conn.accepted = conn.carried.map (·.datagram) ++ conn.sendDatagrams
  once : (conn.accepted.map (·.id)).Nodup
  fresh : ∀ dg ∈ conn.accepted, dg.id < conn.nextDatagramId
  counted : conn.sendDatagramBytes = (conn.sendDatagrams.map (·.data.length)).sum
  bounded : ∀ dg ∈ conn.sendDatagrams, dg.data.length ≤ maxRecvPlaintext
  single : (conn.openIds ++ conn.reportedIds).Nodup
  sent : ∀ id ∈ conn.openIds ++ conn.reportedIds, id ∈ conn.carried.map (·.datagram.id)

/-- What a step that minds the sizes keeps. -/
structure Sound (conn : Connection) : Prop where
  books : conn.Books
  small : ∀ c ∈ conn.carried, c.frame.length ≤ conn.peerLimit
  limited : ∀ dg ∈ conn.sendDatagrams, frameLen dg.data ≤ conn.peerLimit
  fits : conn.HeadFits

theorem start_books {conn : Connection} (start : Start conn) : conn.Books := by
  obtain ⟨queue,bytes,sent,accepted,carried,reported⟩ := start
  refine ⟨?_,?_,?_,?_,?_,?_,?_,?_⟩
  · rw [carried]
    exact nofun
  · rw [accepted,carried,queue]
    exact rfl
  · rw [accepted]
    exact List.nodup_nil
  · rw [accepted]
    exact nofun
  · rw [bytes,queue]
    exact rfl
  · rw [queue]
    exact nofun
  · unfold openIds reportedIds
    rw [sent,reported]
    exact List.nodup_nil
  · unfold openIds reportedIds
    rw [sent,reported]
    exact nofun

theorem start_sound {conn : Connection} (start : Start conn) : conn.Sound := by
  have books := start_books start
  obtain ⟨queue,-,-,-,carried,-⟩ := start
  refine ⟨books,?_,?_,?_⟩
  · rw [carried]
    exact nofun
  · rw [queue]
    exact nofun
  · unfold HeadFits
    rw [queue]
    exact nofun

/-! ### The frame of a datagram -/

theorem frame_written {data : List Byte} (bounded : data.length ≤ maxRecvPlaintext) {room : Nat}
    (fits : frameLen data ≤ room) :
    ∃ frame, Frame.encode (frameOf data) room = .ok frame ∧ frame.length = frameLen data ∧
      Frame.decode frame = .ok {frame := frameOf data,bytesConsumed := frame.length} := by
  have wf : Frame.WellFormed (frameOf data) := fun _ => bounded.trans (by decide)
  obtain ⟨frame,length,writes,reads⟩ := Frame.encode_decode (frameOf data) wf
  have read := reads [] (Frame.follows_nil _)
  rw [List.append_nil,← length] at read
  refine ⟨frame,?_,length,read⟩
  rw [writes room,if_pos (length.le.trans fits)]

theorem chosen_some {conn : Connection} {build : Build} {dg : PendingSendDatagram} (chosen : conn.chosen build = some dg) :
    ∃ rest, conn.sendDatagrams = dg::rest ∧
      build.plPos+frameLen dg.data ≤ conn.maxPayload build.level build.pathId build.room := by
  unfold Connection.chosen at chosen
  split at chosen
  · cases chosen
  · split at chosen
    · cases chosen
    · rename_i head rest queue
      split at chosen
      · rename_i fits
        cases chosen
        exact ⟨rest,queue,fits⟩
      · cases chosen

theorem poll_cases (conn : Connection) (build : Build)
    (bounded : ∀ dg ∈ conn.sendDatagrams, dg.data.length ≤ maxRecvPlaintext) :
    conn.pollLevelOnPath build = conn ∨ conn.pollLevelOnPath build = conn.commit build none ∨
      ∃ dg rest frame, conn.sendDatagrams = dg::rest ∧ conn.chosen build = some dg ∧ frame.length = frameLen dg.data ∧
        Frame.decode frame = .ok {frame := frameOf dg.data,bytesConsumed := frame.length} ∧
        conn.pollLevelOnPath build = if build.sealed then conn.commit build (some (dg,frame)) else conn := by
  unfold pollLevelOnPath
  dsimp only
  split
  · exact .inl rfl
  · split
    · split
      · exact .inr (.inl rfl)
      · exact .inl rfl
    · rename_i dg chosen
      obtain ⟨rest,queue,fits⟩ := chosen_some chosen
      obtain ⟨frame,written,length,decoded⟩ := frame_written (bounded dg (queue ▸ List.mem_cons_self))
        (show frameLen dg.data ≤ conn.maxPayload build.level build.pathId build.room-build.plPos by omega)
      rw [written]
      exact .inr (.inr ⟨dg,rest,frame,queue,chosen,length,decoded,rfl⟩)

theorem Sound.unblocked {conn : Connection} (sound : conn.Sound) {dg : PendingSendDatagram} {rest : List PendingSendDatagram}
    (queue : conn.sendDatagrams = dg::rest) : (conn.pollLevelOnPath conn.emptyPacket).sendDatagrams = rest := by
  have fits : conn.Fits dg.data := sound.fits dg (queue ▸ rfl)
  have chosen : conn.chosen conn.emptyPacket = some dg := by
    unfold Connection.chosen
    rw [queue]
    rw [if_neg (show ¬conn.emptyPacket.held = true from Bool.false_ne_true)]
    exact if_pos ((Nat.zero_add _).trans_le fits)
  have room : conn.maxPayload conn.emptyPacket.level conn.emptyPacket.pathId conn.emptyPacket.room ≠ 0 := by
    intro none'
    have fits := fits.trans_eq none'
    unfold frameLen at fits
    omega
  obtain ⟨frame,written,-,-⟩ := frame_written (sound.books.bounded dg (queue ▸ List.mem_cons_self)) fits
  unfold pollLevelOnPath
  dsimp only
  rw [if_neg room,chosen]
  dsimp only
  rw [show conn.emptyPacket.plPos = 0 from rfl,Nat.sub_zero]
  rw [show Frame.encode (frameOf dg.data) (conn.maxPayload conn.emptyPacket.level conn.emptyPacket.pathId
    conn.emptyPacket.room) = .ok frame from written]
  change (conn.commit conn.emptyPacket (some (dg,frame))).sendDatagrams = rest
  dsimp only [commit]
  rw [queue]
  exact rfl

theorem Sound.delivers {conn : Connection} (sound : conn.Sound) : conn.Delivers where
  small := sound.small
  unchanged := sound.books.unchanged
  ordered := sound.books.ordered
  once := sound.books.once
  counted := sound.books.counted
  unblocked _ _ queue := sound.unblocked queue
  reportedOnce := (List.nodup_append.mp sound.books.single).2.1

/-! ### Steps -/

/-- A step that leaves the queue and what has been carried. -/
structure Leaves (conn after : Connection) : Prop where
  queue : after.sendDatagrams = conn.sendDatagrams
  bytes : after.sendDatagramBytes = conn.sendDatagramBytes
  next : conn.nextDatagramId ≤ after.nextDatagramId
  limit : after.peerLimit = conn.peerLimit
  accepted : after.accepted = conn.accepted
  carried : after.carried = conn.carried
  ids : (after.openIds ++ after.reportedIds).Subperm (conn.openIds ++ conn.reportedIds)

theorem Books.left {conn after : Connection} (books : conn.Books) (leaves : Leaves conn after) : after.Books where
  unchanged := by
    rw [leaves.carried]
    exact books.unchanged
  ordered := by
    rw [leaves.accepted,leaves.carried,leaves.queue]
    exact books.ordered
  once := leaves.accepted ▸ books.once
  fresh dg member := (books.fresh dg (leaves.accepted ▸ member)).trans_le leaves.next
  counted := by
    rw [leaves.bytes,leaves.queue]
    exact books.counted
  bounded := by
    rw [leaves.queue]
    exact books.bounded
  single := by
    obtain ⟨_,perm,sub⟩ := leaves.ids
    exact perm.nodup_iff.mp (books.single.sublist sub)
  sent id member := leaves.carried ▸ books.sent id (leaves.ids.subset member)

theorem Sound.left {conn after : Connection} (sound : conn.Sound) (leaves : Leaves conn after) (fits : after.HeadFits) :
    after.Sound where
  books := sound.books.left leaves
  small := by
    rw [leaves.carried,leaves.limit]
    exact sound.small
  limited := by
    rw [leaves.queue,leaves.limit]
    exact sound.limited
  fits := fits

theorem openIds_take (conn : Connection) {index : Nat} {packet : SentPacket} (here : conn.sent[index]? = some packet) :
    (((packet::conn.sent.eraseIdx index).filterMap (·.datagram)).map (·.id)).Perm conn.openIds := by
  obtain ⟨inside,rfl⟩ := List.getElem?_eq_some_iff.mp here
  exact ((List.getElem_cons_eraseIdx_perm inside).filterMap _).map _

theorem recordOutcome_leaves (conn : Connection) (acked : Bool) (index : Nat) : Leaves conn
    (conn.recordOutcome acked index) ∧
    (conn.HeadFits → (conn.recordOutcome acked index).HeadFits) := by
  unfold recordOutcome
  split
  · exact ⟨⟨rfl,rfl,Nat.le_refl _,rfl,rfl,rfl,List.Subperm.refl _⟩,id⟩
  · rename_i packet here
    have taken := conn.openIds_take here
    dsimp only
    split
    · rename_i absent
      refine ⟨⟨rfl,rfl,Nat.le_refl _,rfl,rfl,rfl,?_⟩,id⟩
      have none' : packet.datagram = none := Option.map_eq_none_iff.mp absent
      rw [List.filterMap_cons_none none'] at taken
      exact (taken.append_right _).subperm
    · rename_i event present
      obtain ⟨dg,held,rfl⟩ := Option.map_eq_some_iff.mp present
      rw [List.filterMap_cons_some held,List.map_cons] at taken
      refine ⟨⟨rfl,rfl,Nat.le_refl _,rfl,rfl,rfl,List.Perm.subperm ?_⟩,id⟩
      have report : StoredDatagramSendEvent.event (if acked then .acked ⟨dg.id,dg.len,dg.pathId,packet.pn⟩
          else .lost ⟨dg.id,dg.len,dg.pathId,packet.pn⟩) = ⟨dg.id,dg.len,dg.pathId,packet.pn⟩ := by
        cases acked
        · rfl
        · rfl
      unfold reportedIds openIds
      rw [List.map_append,List.map_singleton,report,← List.append_assoc]
      exact (List.perm_append_singleton _ _).trans (taken.append_right _)

theorem forget_leaves (conn : Connection) (index : Nat) : Leaves conn {conn with sent := conn.sent.eraseIdx index} := by
  refine ⟨rfl,rfl,Nat.le_refl _,rfl,rfl,rfl,List.Sublist.subperm ?_⟩
  exact (((List.eraseIdx_sublist _ _).filterMap _).map _).append_right _

theorem commit_none_leaves (conn : Connection) (build : Build) : Leaves conn (conn.commit build none) ∧
    (conn.HeadFits → (conn.commit build none).HeadFits) := by
  unfold commit
  dsimp only
  split
  · refine ⟨⟨rfl,rfl,Nat.le_refl _,rfl,rfl,rfl,?_⟩,id⟩
    unfold openIds
    rw [List.filterMap_append,List.filterMap_cons_none rfl,List.filterMap_nil,List.append_nil]
    exact List.Subperm.refl _
  · exact ⟨⟨rfl,rfl,Nat.le_refl _,rfl,rfl,rfl,List.Subperm.refl _⟩,id⟩

theorem commit_some_books {conn : Connection} (books : conn.Books) (build : Build) {dg : PendingSendDatagram}
    {rest : List PendingSendDatagram} (queue : conn.sendDatagrams = dg::rest) {frame : List Byte}
    (decoded : Frame.decode frame = .ok {frame := frameOf dg.data,bytesConsumed := frame.length}) :
    (conn.commit build (some (dg,frame))).Books := by
  have ordered : conn.accepted =
      (conn.carried ++ [Carried.mk dg frame build.pathId (conn.nextPn build.pathId)]).map Carried.datagram ++ rest := by
    rw [books.ordered,queue,List.map_append,List.append_assoc]
    exact rfl
  have apart : dg.id ∉ conn.carried.map (·.datagram.id) := by
    have once := books.once
    rw [books.ordered,queue,List.map_append,List.map_map] at once
    exact fun twice => (List.nodup_append.mp once).2.2 _ twice _ List.mem_cons_self rfl
  have fresh : dg.id ∉ conn.openIds ++ conn.reportedIds := fun earlier => apart (books.sent _ earlier)
  have opened : ((conn.commit build (some (dg,frame))).openIds ++ conn.reportedIds).Perm
      (dg.id::(conn.openIds ++ conn.reportedIds)) := by
    unfold openIds commit
    dsimp only
    rw [List.filterMap_append,List.map_append]
    exact (List.perm_append_singleton _ _).append_right _
  refine ⟨?_,?_,books.once,books.fresh,?_,?_,?_,?_⟩
  · intro c member
    rcases List.mem_append.mp member with earlier | last
    · exact books.unchanged c earlier
    · cases List.mem_singleton.mp last
      exact decoded
  · change conn.accepted = _ ++ conn.sendDatagrams.tail
    rw [queue]
    exact ordered
  · change conn.sendDatagramBytes-dg.data.length = (conn.sendDatagrams.tail.map _).sum
    rw [books.counted,queue,List.map_cons,List.sum_cons,Nat.add_sub_cancel_left]
    exact rfl
  · intro other member
    exact books.bounded other (List.mem_of_mem_tail member)
  · exact opened.nodup_iff.mpr (List.nodup_cons.mpr ⟨fresh,books.single⟩)
  · intro id member
    change id ∈ (conn.carried ++ [_]).map _
    rw [List.map_append]
    rcases List.mem_cons.mp (opened.subset member) with rfl | earlier
    · exact List.mem_append_right _ List.mem_cons_self
    · exact List.mem_append_left _ (books.sent id earlier)

theorem commit_some_sound {conn : Connection} (sound : conn.Sound) (build : Build) {dg : PendingSendDatagram}
    {rest : List PendingSendDatagram} (queue : conn.sendDatagrams = dg::rest) {frame : List Byte}
    (length : frame.length = frameLen dg.data)
    (decoded : Frame.decode frame = .ok {frame := frameOf dg.data,bytesConsumed := frame.length})
    (next : ∀ dg ∈ rest.head?, conn.Fits dg.data) : (conn.commit build (some (dg,frame))).Sound := by
  refine ⟨commit_some_books sound.books build queue decoded,?_,?_,?_⟩
  · intro c member
    rcases List.mem_append.mp member with earlier | last
    · exact sound.small c earlier
    · cases List.mem_singleton.mp last
      exact length.trans_le (sound.limited dg (queue ▸ List.mem_cons_self))
  · intro other member
    exact sound.limited other (List.mem_of_mem_tail member)
  · unfold HeadFits
    change ∀ dg ∈ conn.sendDatagrams.tail.head?, _
    rw [queue]
    exact next

theorem poll_books {conn : Connection} (books : conn.Books) (build : Build) : (conn.pollLevelOnPath build).Books := by
  rcases poll_cases conn build books.bounded with same | same | ⟨dg,rest,frame,queue,-,-,decoded,same⟩
  · rw [same]
    exact books
  · rw [same]
    exact books.left (commit_none_leaves conn build).1
  · rw [same]
    split
    · exact commit_some_books books build queue decoded
    · exact books

theorem poll_sound {conn : Connection} (sound : conn.Sound) {build : Build} (sized : conn.Sized (.poll build)) :
    (conn.pollLevelOnPath build).Sound := by
  rcases poll_cases conn build sound.books.bounded with same | same | ⟨dg,rest,frame,queue,chosen,length,decoded,same⟩
  · rw [same]
    exact sound
  · rw [same]
    exact sound.left (commit_none_leaves conn build).1 ((commit_none_leaves conn build).2 sound.fits)
  · rw [same]
    split
    · refine commit_some_sound sound build queue length decoded ?_
      have next := sized (Option.isSome_of_eq_some chosen)
      rw [queue] at next
      exact next
    · exact sound

theorem maxDatagramPayload_le {conn : Connection} {limit : Nat} (most : conn.maxDatagramPayload = .ok limit) :
    limit ≤ maxRecvPlaintext := by
  unfold maxDatagramPayload at most
  dsimp only at most
  split at most
  · cases most
    exact Nat.min_le_right _ _
  · split at most
    · cases most
    · cases most
      exact (Nat.min_le_left _ _).trans (Nat.min_le_right _ _)

def queued (conn : Connection) (payload : List Byte) : Connection :=
  {conn with
    nextDatagramId := conn.nextDatagramId+1
    sendDatagrams := conn.sendDatagrams ++ [⟨conn.nextDatagramId,payload⟩]
    sendDatagramBytes := conn.sendDatagramBytes+payload.length
    accepted := conn.accepted ++ [⟨conn.nextDatagramId,payload⟩]}

theorem send_cases (conn : Connection) (payload : List Byte) (copies appends : Bool) :
    (∃ e, ∃ next ≥ conn.nextDatagramId,
      conn.sendDatagramTracked payload copies appends = (.error e,{conn with nextDatagramId := next})) ∨
    payload.length ≤ maxRecvPlaintext ∧
      conn.sendDatagramTracked payload copies appends = (.ok conn.nextDatagramId,conn.queued payload) := by
  have refused (e : Error) : ∃ e', ∃ next ≥ conn.nextDatagramId,
      ((.error e,conn) : Except Error Nat × Connection) = (.error e',{conn with nextDatagramId := next}) :=
    ⟨e,conn.nextDatagramId,Nat.le_refl _,rfl⟩
  unfold sendDatagramTracked
  split
  · exact .inl (refused _)
  · rename_i limit most
    split
    · exact .inl (refused _)
    · rename_i small
      split
      · exact .inl (refused _)
      · split
        · exact .inl (refused _)
        · split
          · exact .inl (refused _)
          · split
            · exact .inl (refused _)
            · dsimp only
              split
              · exact .inl ⟨_,_,Nat.le_succ _,rfl⟩
              · exact .inr ⟨(Nat.le_of_not_lt small).trans (maxDatagramPayload_le most),rfl⟩

theorem refused_leaves (conn : Connection) {next : Nat} (later : next ≥ conn.nextDatagramId) :
    Leaves conn {conn with nextDatagramId := next} := ⟨rfl,rfl,later,rfl,rfl,rfl,List.Subperm.refl _⟩

theorem queued_books {conn : Connection} (books : conn.Books) {payload : List Byte}
    (bounded : payload.length ≤ maxRecvPlaintext) :
    (conn.queued payload).Books := by
  refine ⟨books.unchanged,?_,?_,?_,?_,?_,books.single,books.sent⟩
  · dsimp only [queued]
    rw [books.ordered,List.append_assoc]
  · dsimp only [queued]
    rw [List.map_append,List.map_singleton]
    refine List.nodup_append.mpr ⟨books.once,List.nodup_singleton _,fun earlier member last single => ?_⟩
    obtain ⟨dg,there,rfl⟩ := List.mem_map.mp member
    rw [List.mem_singleton.mp single]
    exact (books.fresh dg there).ne
  · intro dg member
    rcases List.mem_append.mp member with earlier | last
    · exact (books.fresh dg earlier).trans (Nat.lt_succ_self _)
    · rw [List.mem_singleton.mp last]
      exact Nat.lt_succ_self _
  · dsimp only [queued]
    rw [List.map_append,List.sum_append,← books.counted]
    exact rfl
  · intro dg member
    rcases List.mem_append.mp member with earlier | last
    · exact books.bounded dg earlier
    · rw [List.mem_singleton.mp last]
      exact bounded

theorem send_sound {conn : Connection} (sound : conn.Sound) {payload : List Byte} {copies appends : Bool}
    (sized : conn.Sized (.send payload copies appends)) : (conn.sendDatagramTracked payload copies appends).2.Sound := by
  rcases conn.send_cases payload copies appends with ⟨e,next,later,same⟩ | ⟨bounded,same⟩
  · rw [same]
    exact sound.left (refused_leaves conn later) sound.fits
  · obtain ⟨small,fits⟩ := sized ⟨_,congrArg Prod.fst same⟩
    rw [same]
    refine ⟨queued_books sound.books bounded,sound.small,?_,?_⟩
    · intro dg member
      rcases List.mem_append.mp member with earlier | last
      · exact sound.limited dg earlier
      · rw [List.mem_singleton.mp last]
        exact small
    · intro dg member
      cases queue : conn.sendDatagrams with
      | nil =>
        dsimp only [queued] at member
        rw [queue] at member
        cases member
        exact fits queue
      | cons head rest =>
        dsimp only [queued] at member
        rw [queue] at member
        exact sound.fits dg (queue ▸ member)

theorem step_books {conn : Connection} (books : conn.Books) (event : Event) : (step conn event).Books := by
  have same {after : Connection} (leaves : Leaves conn after) : after.Books := books.left leaves
  cases event with
  | send payload copies appends =>
    change (conn.sendDatagramTracked payload copies appends).2.Books
    rcases conn.send_cases payload copies appends with ⟨e,next,later,same⟩ | ⟨bounded,same⟩
    · rw [same]
      exact books.left (refused_leaves conn later)
    · rw [same]
      exact queued_books books bounded
  | poll build => exact poll_books books build
  | outcome acked index => exact books.left (recordOutcome_leaves conn acked index).1
  | forget index => exact books.left (forget_leaves conn index)
  | _ => exact same ⟨rfl,rfl,Nat.le_refl _,rfl,rfl,rfl,List.Subperm.refl _⟩

theorem step_sound {conn : Connection} (sound : conn.Sound) {event : Event} (sized : conn.Sized event) :
    (step conn event).Sound := by
  cases event with
  | send payload copies appends => exact send_sound sound sized
  | poll build => exact poll_sound sound sized
  | outcome acked index =>
    exact sound.left (recordOutcome_leaves conn acked index).1 ((recordOutcome_leaves conn acked index).2 sound.fits)
  | forget index => exact sound.left (forget_leaves conn index) sound.fits
  | pathSize pathId size => exact sound.left ⟨rfl,rfl,Nat.le_refl _,rfl,rfl,rfl,List.Subperm.refl _⟩ sized
  | switch pathId => exact sound.left ⟨rfl,rfl,Nat.le_refl _,rfl,rfl,rfl,List.Subperm.refl _⟩ sized
  | longHeaderCids dcidLen scidLen => exact sound.left ⟨rfl,rfl,Nat.le_refl _,rfl,rfl,rfl,List.Subperm.refl _⟩ sound.fits
  | peerParams => exact sound.left ⟨rfl,rfl,Nat.le_refl _,rfl,rfl,rfl,List.Subperm.refl _⟩ sound.fits

/-- In every run the payloads leave in order, unchanged and once, the bytes are counted and no id is reported twice.
In a run whose payloads fit the peer's limit with their type and length, and whose queue has a head that fits the
current PMTU after each step, no frame is too long and the head is never stuck. -/
theorem datagrams_deliver (conn : Connection) : (Reaches Start step (fun _ _ => True) conn → conn.Books ∧
    (conn.reported.map (·.event.id)).Nodup) ∧ (Reaches Start step Sized conn → conn.Delivers) := by
  constructor
  · intro reached
    have books := reached.invariant Books (fun _ start => start_books start) fun _ event books _ => step_books books event
    exact ⟨books,(List.nodup_append.mp books.single).2.1⟩
  · intro reached
    apply Sound.delivers
    exact reached.invariant Sound (fun _ start => start_sound start) fun _ _ sound sized => step_sound sound sized

/-- A peer that takes frames of `limit` bytes, over a path with an id of 8 bytes. -/
def fresh (limit : Nat) : Connection := {paths := fun _ => ⟨1200,8⟩, peerLimit := limit}

theorem fresh_start (limit : Nat) : Start (fresh limit) := ⟨rfl,rfl,rfl,rfl,rfl,rfl⟩

def full : Build := (fresh 0).emptyPacket

/-- Two payloads leave in their own packets; one is acknowledged and one is lost. -/
theorem datagrams_deliver_twice : Delivers (run step (fresh 65535)
    [.peerParams,.send [1,2,3] true true,.send [4] true true,.poll full,.poll full,.outcome true 0,.outcome false 0]) := by
  refine (datagrams_deliver _).2 (Reaches.run _ (.start (fresh_start _))
    ⟨trivial,fun _ => ⟨?_,fun _ => ?_⟩,fun _ => ⟨?_,fun _ => ?_⟩,
    fun _ next here => ?_,fun _ next here => ?_,trivial,trivial,trivial⟩)
  · decide
  · unfold Fits
    decide
  · decide
  · unfold Fits
    decide
  · cases here
    unfold Fits
    decide
  · cases here

/-- A payload of the peer's whole limit goes out in a frame that is longer, and the largest payload that is accepted
at a PMTU of 1200 fits no packet: it stays at the head. -/
theorem frame_past_limit_and_head_stuck :
    (Reaches Start step (fun _ _ => True) (run step (fresh 4) [.peerParams,.send [1,2,3,4] true true,.poll full]) ∧
      ¬Delivers (run step (fresh 4) [.peerParams,.send [1,2,3,4] true true,.poll full])) ∧
    Reaches Start step (fun _ _ => True) (run step (fresh 65535) [.peerParams,.send (List.replicate 1191 0) true true]) ∧
      ¬Delivers (run step (fresh 65535) [.peerParams,.send (List.replicate 1191 0) true true]) := by
  refine ⟨⟨Reaches.run _ (.start (fresh_start _)) ⟨trivial,trivial,trivial,trivial⟩,fun delivers => ?_⟩,
    Reaches.run _ (.start (fresh_start _)) ⟨trivial,trivial,trivial⟩,fun delivers => ?_⟩
  · have small := delivers.small ⟨⟨0,[1,2,3,4]⟩,[0x31,4,1,2,3,4],0,0⟩ (by decide)
    exact absurd small (by decide)
  · have stuck := delivers.unblocked ⟨0,List.replicate 1191 0⟩ [] (by decide +kernel)
    exact absurd stuck (by decide +kernel)

end Connection

end QuicZig.Conn.SendDatagrams
