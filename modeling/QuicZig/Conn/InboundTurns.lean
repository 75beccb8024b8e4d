import QuicZig.Conn.InboundSpec

/-! What a frame, a packet or a call does to the counts: a stream may be made first, and
then the streams that are there go on. -/
namespace QuicZig.Conn.Inbound
open Machine Paths Streams SendFlow Ledger BlockedStreams

/-- A stream that is new, with nothing in its receive half. -/
structure Made (id : Nat) (conn after : Connection) : Prop where
  opened : Opened id conn.flow after.flow
  half : ∃ h : RecvHalf, h.recv = .init RecvStream.defaultMaxBufferedSpan ∧ h.recvStopped = false ∧
    after.half = Function.update conn.half id h
  resident : after.resident = conn.resident
  crypto : after.crypto = conn.crypto
  datagrams : after.recvDatagrams = conn.recvDatagrams
  blocked : after.blocked = conn.blocked
  sent : after.peerSentStreamData = conn.peerSentStreamData
  read : after.recvStreamBytesRead = conn.recvStreamBytesRead
  limit : after.localMaxData = conn.localMaxData

section
variable {id : Nat} {conn after : Connection}

theorem Made.absent (made : Made id conn after) (housed : Housed conn) : id ∉ names conn :=
  fun there => made.opened.fresh housed.ids (housed.used id there)

theorem Made.names (made : Made id conn after) : names after = names conn ++ [id] := by
  obtain ⟨s,streams,rfl,_⟩ := made.opened.streams
  unfold Inbound.names
  rw [streams,List.map_append]
  rfl

theorem Made.used (made : Made id conn after) (housed : Housed conn) (other : Nat) :
    after.flow.ids.Used after.flow.role other ↔ conn.flow.ids.Used conn.flow.role other ∨ other = id := by
  rw [made.opened.role]
  exact made.opened.used housed.ids other

theorem Made.housed (made : Made id conn after) (housed : Housed conn) : Housed after := by
  have absent := made.absent housed
  obtain ⟨s,streams,_,_,_,maxBuffered,empty⟩ := made.opened.streams
  obtain ⟨h,fresh,running,half⟩ := made.half
  have still : ∀ other, other ≠ id → after.half other = conn.half other := by
    intro other apart
    rw [half,Function.update_of_ne apart]
  have here : after.half id = h := by
    rw [half,Function.update_self]
  refine ⟨made.opened.sound housed.ids,?_,fun other member => (made.used housed other).mpr ?_,fun t member => ?_,
    fun other => ?_,fun other unused => ?_,fun other stop => ?_⟩
  · rw [made.names]
    exact List.nodup_append.mpr ⟨housed.once,List.nodup_singleton id,fun x there y last same =>
      absent (List.mem_singleton.mp last ▸ same ▸ there)⟩
  · rw [made.names] at member
    rcases List.mem_append.mp member with old | last
    · exact .inl (housed.used other old)
    · exact .inr (List.mem_singleton.mp last)
  · rw [streams] at member
    rcases List.mem_append.mp member with old | last
    · exact housed.buffers t old
    · rw [List.mem_singleton.mp last,empty]
      exact ⟨le_rfl,.inr rfl⟩
  · by_cases same : other = id
    · rw [same,here,fresh]
      exact (RecvStream.running_init _).sound
    · rw [still other same]
      exact housed.halves other
  · rw [made.used housed] at unused
    push Not at unused
    rw [still other unused.2]
    exact housed.blank other unused.1
  · rw [made.opened.role]
    by_cases same : other = id
    · rw [same,here,running] at stop
      cases stop
    · rw [still other same] at stop
      exact housed.stopped other stop

theorem Made.still (made : Made id conn after) (keys : List Nat) {worth : RecvHalf → Nat}
    (before : worth (conn.half id) = 0) (fresh : ∀ h : RecvHalf, h.recv = .init RecvStream.defaultMaxBufferedSpan → worth h = 0) :
    total worth after.half keys = total worth conn.half keys := by
  obtain ⟨h,empty,_,half⟩ := made.half
  refine total_congr fun other _ => ?_
  rw [half]
  by_cases same : other = id
  · rw [same,Function.update_self,before,fresh h empty]
  · rw [Function.update_of_ne same]

theorem Made.balanced (made : Made id conn after) (housed : Housed conn) (balanced : Balanced conn) : Balanced after := by
  obtain ⟨s,streams,_,_,_,maxBuffered,empty⟩ := made.opened.streams
  obtain ⟨h,fresh,_,half⟩ := made.half
  refine ⟨?_,fun lvl => made.crypto ▸ balanced.counted lvl⟩
  have counter := balanced.resident
  have old : total recvBytes (Function.update conn.half id h) (Inbound.names conn) = total recvBytes conn.half (Inbound.names conn) :=
    total_update_out (made.absent housed) h
  have last : recvBytes (Function.update conn.half id h id) = 0 := by
    rw [Function.update_self]
    unfold recvBytes
    rw [fresh]
    rfl
  rw [made.resident,counter,residentBytesSum_eq,residentBytesSum_eq,made.names,half,total_append,old]
  unfold total sendBytes cryptoBytes Connection.recvDatagramBytes
  rw [streams,made.crypto,made.datagrams,List.map_append,List.sum_append,List.map_singleton,List.map_singleton,last,empty]
  rfl

end

def Begun (conn mid : Connection) : Prop := mid = conn ∨ ∃ id, Made id conn mid

theorem Begun.housed {conn mid : Connection} (begun : Begun conn mid) (housed : Housed conn) : Housed mid := by
  rcases begun with rfl | ⟨id,made⟩
  · exact housed
  · exact made.housed housed

/-- A step that is no cleanup. -/
def Onward (terms : Terms) (charged risen up back : Nat) (conn after : Connection) : Prop :=
  ∃ mid, Begun conn mid ∧ Effect terms charged risen up back mid after

section
variable {terms : Terms} {charged risen up back : Nat} {conn mid after : Connection}

theorem Effect.onward (effect : Effect terms charged risen up back conn after) : Onward terms charged risen up back conn after :=
  ⟨conn,.inl rfl,effect⟩

theorem Onward.then {charged' risen' up' back' : Nat} (first : Onward terms charged risen up back conn mid)
    (second : Effect terms charged' risen' up' back' mid after) :
    Onward terms (charged+charged') (risen+risen') (up+up') (back+back') conn after := by
  obtain ⟨start,begun,effect⟩ := first
  exact ⟨start,begun,effect.trans second⟩

theorem Onward.housed (onward : Onward terms charged risen up back conn after) (housed : Housed conn) : Housed after := by
  obtain ⟨mid,begun,effect⟩ := onward
  exact effect.housed (begun.housed housed)

theorem adopt_begun {α : Type} (housed : Housed conn) {id : Nat} {outcome : SendFlow.Outcome α}
    (grown : Grown id conn.flow outcome.2) : Begun conn (conn.adopt id outcome).2 := by
  obtain ⟨result,flow⟩ := outcome
  unfold Connection.adopt
  rcases grown with same | opened
  · left
    dsimp only at same ⊢
    rw [same]
    have idle : ((conn.flow.get id).isNone && (conn.flow.get id).isSome) = false := by
      cases conn.flow.get id <;> rfl
    rw [idle]
    rfl
  · right
    have absent : id ∉ names conn := fun there => opened.fresh housed.ids (housed.used id there)
    have none : (conn.flow.get id).isNone = true := by
      rw [mem_names,Bool.not_eq_true,Option.isSome_eq_false_iff] at absent
      exact absent
    have some : (flow.get id).isSome = true := by
      obtain ⟨s,streams,named,_⟩ := opened.streams
      unfold SendFlow.Connection.get
      rw [List.find?_isSome]
      exact ⟨s,by rw [streams]; exact List.mem_append_right _ List.mem_cons_self,by simpa using named⟩
    dsimp only at opened ⊢
    rw [none,some]
    exact ⟨id,opened,⟨_,rfl,rfl,rfl⟩,rfl,rfl,rfl,rfl,rfl,rfl,rfl⟩

end

/-- The receive half that a frame for an id meets: that of its stream, or a fresh one. -/
def peerHalf (conn : Connection) (id : Nat) : RecvHalf :=
  if (conn.flow.get id).isSome then conn.half id
  else {recvMaxData := conn.initialRecvStreamLimit id,recvWindow := {window := conn.initialRecvStreamLimit id}}

/-- What the prologue of a frame of the peer does, when it lets the frame through. -/
structure Through (id : Nat) (conn after : Connection) : Prop where
  path : ∃ mid, Begun conn mid ∧ Same mid after
  there : id ∈ names after
  half : after.half id = peerHalf conn id
  quiet : after.flow.pendingClose = conn.flow.pendingClose

theorem maybeAdvertise_quiet (conn : Connection) (bidi : Bool) :
    (conn.maybeAdvertiseStreamCredit bidi).flow.pendingClose = conn.flow.pendingClose := by
  unfold Connection.maybeAdvertiseStreamCredit
  split
  · rfl
  · unfold Connection.queueMaxStreams Connection.raiseMaxStreams
    dsimp only
    split_ifs <;> rfl

theorem Grown.quiet {id : Nat} {conn after : SendFlow.Connection} (grown : Grown id conn after) :
    after.pendingClose = conn.pendingClose := by
  rcases grown with rfl | opened
  · rfl
  · exact opened.pendingClose

theorem openPeerStream_there (grants : Allocator) (conn : SendFlow.Connection) (id : Nat)
    (ok : (conn.openPeerStream grants id).1 = .ok true) : ((conn.openPeerStream grants id).2.get id).isSome = true := by
  have spec := openPeerStream_spec grants conn id
  generalize conn.openPeerStream grants id = outcome at spec ok ⊢
  obtain ⟨result,after⟩ := outcome
  obtain rfl : result = .ok true := ok
  obtain ⟨s,streams,named,_⟩ := spec.streams
  unfold SendFlow.Connection.get
  rw [List.find?_isSome]
  exact ⟨s,by rw [streams]; exact List.mem_append_right _ List.mem_cons_self,by simpa using named⟩

theorem ensurePeerStream_there (grants : Allocator) (conn : SendFlow.Connection) (id : Nat)
    (frame : SendFlow.Connection.PeerStreamFrame) (ok : (conn.ensurePeerStream grants id frame).1 = .ok true) :
    ((conn.ensurePeerStream grants id frame).2.get id).isSome = true := by
  unfold SendFlow.Connection.ensurePeerStream at ok ⊢
  split_ifs at ok ⊢ with receiveOnly there own used
  · cases ok
  · exact there
  · cases ok
  · cases ok
  · exact openPeerStream_there grants conn id ok

theorem sendPartForPeerFrame_there (grants : Allocator) (conn : SendFlow.Connection) (id : Nat)
    (frame : SendFlow.Connection.SendPartFrame) (ok : (conn.sendPartForPeerFrame grants id frame).1 = .ok true) :
    ((conn.sendPartForPeerFrame grants id frame).2.get id).isSome = true := by
  unfold SendFlow.Connection.sendPartForPeerFrame at ok ⊢
  split_ifs at ok ⊢ with receiveOnly there own used
  · cases ok
  · exact there
  · cases ok
  · cases ok
  · exact openPeerStream_there grants conn id ok

theorem Grown.role {id : Nat} {conn after : SendFlow.Connection} (grown : Grown id conn after) : after.role = conn.role := by
  rcases grown with rfl | opened
  · rfl
  · exact opened.role

section
variable {terms : Terms} {conn : Connection} {id : Nat} {outcome : SendFlow.Outcome Bool}

theorem Through.onward {after : Connection} (through : Through id conn after) : Onward terms 0 0 0 0 conn after := by
  obtain ⟨mid,begun,same⟩ := through.path
  exact ⟨mid,begun,same.effect⟩

theorem adoptPeer_spec (housed : Housed conn) (prologue : Prologue id conn.flow outcome)
    (there : outcome.1 = .ok true → (outcome.2.get id).isSome = true) :
    match conn.adoptPeer id outcome with
    | (.ok true,after) => Through id conn after
    | (.ok false,after) | (.error _,after) => Same conn after := by
  obtain ⟨result,flow⟩ := outcome
  have idle : ∀ b : Bool, (flow.get id).isSome = (conn.flow.get id).isSome →
      ((conn.flow.get id).isNone && (flow.get id).isSome) = false := by
    intro _ same
    rw [same]
    cases conn.flow.get id <;> rfl
  unfold Connection.adoptPeer Connection.adopt
  dsimp only at there ⊢
  cases result with
  | error e =>
    obtain rfl : flow = conn.flow := prologue
    rw [idle true rfl]
    exact .refl conn
  | ok there' =>
    cases there' with
    | false =>
      have closed : Same conn {conn with flow := flow} ∧ (flow.get id).isSome = (conn.flow.get id).isSome := by
        rcases prologue with rfl | ⟨code,reason,rfl⟩
        · exact ⟨.refl conn,rfl⟩
        · refine ⟨close_same conn code reason,?_⟩
          unfold SendFlow.Connection.close
          split <;> rfl
      rw [idle true closed.2]
      exact closed.1
    | true =>
      have some := there rfl
      have begun : Begun conn (conn.adopt id (Except.ok true,flow)).2 := adopt_begun housed prologue
      unfold Connection.adopt at begun
      dsimp only at begun
      rw [some,Bool.and_true] at begun ⊢
      have role : flow.role = conn.flow.role := Grown.role prologue
      by_cases held : (conn.flow.get id).isSome = true
      · have old : (conn.flow.get id).isNone = false := by
          rw [← Option.not_isSome,held]
          rfl
        rw [old] at begun ⊢
        refine ⟨⟨_,begun,.refl _⟩,mem_names.mpr some,?_,Grown.quiet prologue⟩
        unfold peerHalf
        rw [if_pos held]
        rfl
      · have fresh : (conn.flow.get id).isNone = true := by
          rw [← Option.not_isSome,Bool.eq_false_of_not_eq_true held]
          rfl
        rw [fresh] at begun ⊢
        simp only [if_true] at begun ⊢
        have same := maybeAdvertise_same ({conn with flow := flow}.freshHalf id) (streamIsBidi id)
        refine ⟨⟨_,begun,same⟩,?_,?_,(maybeAdvertise_quiet _ _).trans (Grown.quiet prologue)⟩
        · have named : id ∈ names {conn with flow := flow} := mem_names.mpr some
          unfold names
          rw [same.streams]
          exact named
        · have limit : Connection.initialRecvStreamLimit {conn with flow := flow} id = conn.initialRecvStreamLimit id := by
            unfold Connection.initialRecvStreamLimit
            dsimp only
            rw [role]
          unfold peerHalf
          rw [same.half,if_neg held,← limit]
          exact Function.update_self _ _ _

end

end QuicZig.Conn.Inbound
