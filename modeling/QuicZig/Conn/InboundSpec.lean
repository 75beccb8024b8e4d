import QuicZig.Conn.InboundRun
import QuicZig.Conn.SendFlowTable

/-! What each part of a connection's work does to the things that are counted: the streams
of the table, how far the peer has reached, what is given back, and the budget. -/
namespace QuicZig.Conn.Inbound
open Machine Paths Streams SendFlow Ledger BlockedStreams

/-- The ids in the stream table. -/
def names (conn : Connection) : List Nat := conn.flow.streams.map (·.id)

/-- Every stream has its id to itself, and an id without a stream has an empty receive half. -/
structure Housed (conn : Connection) : Prop where
  ids : conn.flow.ids.Sound
  once : (names conn).Nodup
  used : ∀ id ∈ names conn, conn.flow.ids.Used conn.flow.role id
  buffers : ∀ s ∈ conn.flow.streams, s.send.bytes.Sound
  halves : ∀ id, (conn.half id).recv.Sound
  blank : ∀ id, ¬ conn.flow.ids.Used conn.flow.role id → (conn.half id).recv.highWater = 0 ∧ (conn.half id).recv.doneWith = 0
  stopped : ∀ id, (conn.half id).recvStopped = true → peerMaySendOnStream conn.flow.role id = true

theorem mem_names {conn : Connection} {id : Nat} : id ∈ names conn ↔ (conn.flow.get id).isSome = true := by
  unfold names SendFlow.Connection.get
  rw [List.find?_isSome]
  constructor
  · intro member
    obtain ⟨s,there,rfl⟩ := List.mem_map.mp member
    exact ⟨s,there,by simp⟩
  · rintro ⟨s,there,named⟩
    exact List.mem_map.mpr ⟨s,there,by simpa using named⟩

theorem get_named {conn : Connection} {id : Nat} {s : SendFlow.Stream} (found : conn.flow.get id = some s) :
    s.id = id ∧ s ∈ conn.flow.streams := by
  have named := @List.find?_some _ (fun s : SendFlow.Stream => decide (s.id = id)) _ _ found
  exact ⟨by simpa using named,List.mem_of_find?_eq_some found⟩

/-- What no frame of flow control changes. -/
structure Same (conn after : Connection) : Prop where
  role : after.flow.role = conn.flow.role
  ids : IdSpaces.SameIds conn.flow.ids after.flow.ids
  streams : after.flow.streams = conn.flow.streams
  half : after.half = conn.half
  resident : after.resident = conn.resident
  crypto : after.crypto = conn.crypto
  datagrams : after.recvDatagrams = conn.recvDatagrams
  blocked : after.blocked = conn.blocked
  params : after.localTransportParams = conn.localTransportParams
  sent : after.peerSentStreamData = conn.peerSentStreamData
  read : after.recvStreamBytesRead = conn.recvStreamBytesRead
  limit : after.localMaxData = conn.localMaxData

theorem Same.refl (conn : Connection) : Same conn conn := ⟨rfl,.refl _,rfl,rfl,rfl,rfl,rfl,rfl,rfl,rfl,rfl,rfl⟩

theorem close_same (conn : Connection) (errorCode : Nat) (reason : String) : Same conn (conn.close errorCode reason) := by
  unfold Connection.close SendFlow.Connection.close
  split
  · exact .refl conn
  · exact ⟨rfl,.refl _,rfl,rfl,rfl,rfl,rfl,rfl,rfl,rfl,rfl,rfl⟩

theorem queueMaxStreams_same (conn : Connection) (bidi : Bool) (maximumStreams : Nat) :
    Same conn (conn.queueMaxStreams bidi maximumStreams) := by
  unfold Connection.queueMaxStreams
  dsimp only
  split_ifs
  · exact .refl conn
  · exact .refl conn
  · exact .refl conn
  · unfold Connection.raiseMaxStreams
    cases bidi with
    | true => exact ⟨rfl,{IdSpaces.SameIds.refl _ with peerBidiIds := ⟨rfl,rfl⟩},rfl,rfl,rfl,rfl,rfl,rfl,rfl,rfl,rfl,rfl⟩
    | false => exact ⟨rfl,{IdSpaces.SameIds.refl _ with peerUniIds := ⟨rfl,rfl⟩},rfl,rfl,rfl,rfl,rfl,rfl,rfl,rfl,rfl,rfl⟩

theorem maybeAdvertise_same (conn : Connection) (bidi : Bool) : Same conn (conn.maybeAdvertiseStreamCredit bidi) := by
  unfold Connection.maybeAdvertiseStreamCredit
  split
  · exact .refl conn
  · exact queueMaxStreams_same conn _ _

/-- The budget is charged for exactly the bytes that are held. -/
structure Balanced (conn : Connection) : Prop where
  resident : conn.resident.bytesResident = conn.residentBytesSum
  counted : ∀ lvl, (conn.crypto lvl).cryptoPendingBytes = ((conn.crypto lvl).cryptoPending.map (·.data.length)).sum

def recvBytes (h : RecvHalf) : Nat := h.recv.bytes.length

def sendBytes (conn : Connection) : Nat := (conn.flow.streams.map fun s => s.send.bytes.live).sum

def cryptoBytes (conn : Connection) : Nat := (Connection.levels.map fun lvl => (conn.crypto lvl).cryptoPendingBytes).sum

theorem residentBytesSum_eq (conn : Connection) : conn.residentBytesSum =
    sendBytes conn+total recvBytes conn.half (names conn)+cryptoBytes conn+conn.recvDatagramBytes := by
  have split : ∀ streams : List SendFlow.Stream, (streams.map fun s => s.send.bytes.live+(conn.half s.id).recv.bytes.length).sum =
      (streams.map fun s => s.send.bytes.live).sum+total recvBytes conn.half (streams.map (·.id)) := by
    intro streams
    induction streams with
    | nil => rfl
    | cons s rest ih =>
      rw [List.map_cons,List.sum_cons,List.map_cons,List.sum_cons,List.map_cons,total_cons,ih]
      unfold recvBytes
      omega
  unfold Connection.residentBytesSum sendBytes cryptoBytes names
  rw [split]

theorem Same.residentBytesSum {conn after : Connection} (same : Same conn after) :
    after.residentBytesSum = conn.residentBytesSum := by
  unfold Connection.residentBytesSum Connection.recvDatagramBytes
  rw [same.streams,same.half,same.crypto,same.datagrams]

theorem Same.balanced {conn after : Connection} (same : Same conn after) (balanced : Balanced conn) : Balanced after := by
  refine ⟨?_,fun lvl => same.crypto ▸ balanced.counted lvl⟩
  rw [same.resident,same.residentBytesSum]
  exact balanced.resident

theorem stable_balanced {conn : Connection} {flow : SendFlow.Connection} (stable : Stable conn.flow flow)
    (balanced : Balanced conn) : Balanced {conn with flow := flow} := by
  refine ⟨balanced.resident.trans ?_,balanced.counted⟩
  have held := congrArg (List.map fun pair => pair.2.live+(conn.half pair.1).recv.bytes.length) stable.held
  rw [List.map_map,List.map_map] at held
  unfold Connection.residentBytesSum
  exact congrArg (fun sum => sum+_+_) (congrArg List.sum held.symm)

theorem half_sum {conn after : Connection} {id : Nat} {h : RecvHalf} (once : (names conn).Nodup) (there : id ∈ names conn)
    (flow : after.flow = conn.flow) (half : after.half = Function.update conn.half id h) (crypto : after.crypto = conn.crypto)
    (datagrams : after.recvDatagrams = conn.recvDatagrams) :
    after.residentBytesSum+(conn.half id).recv.bytes.length = conn.residentBytesSum+h.recv.bytes.length := by
  have sum : total recvBytes (Function.update conn.half id h) (names conn)+recvBytes (conn.half id) =
      total recvBytes conn.half (names conn)+recvBytes h := total_update once there h
  rw [residentBytesSum_eq,residentBytesSum_eq]
  unfold names sendBytes cryptoBytes Connection.recvDatagramBytes at *
  rw [flow,half,crypto,datagrams]
  unfold recvBytes at *
  omega

theorem length_le_sum {conn : Connection} {id : Nat} (there : id ∈ names conn) :
    (conn.half id).recv.bytes.length ≤ conn.residentBytesSum := by
  have part : recvBytes (conn.half id) ≤ total recvBytes conn.half (names conn) := worth_le_total there
  rw [residentBytesSum_eq]
  unfold recvBytes at part ⊢
  omega

/-- One receive half goes on, and the counter with the length of its buffer. -/
theorem half_balanced {conn after : Connection} {id : Nat} {h : RecvHalf} (once : (names conn).Nodup) (there : id ∈ names conn)
    (flow : after.flow = conn.flow) (half : after.half = Function.update conn.half id h) (crypto : after.crypto = conn.crypto)
    (datagrams : after.recvDatagrams = conn.recvDatagrams)
    (moved : (conn.half id).recv.bytes.length ≤ conn.resident.bytesResident →
      after.resident.bytesResident+(conn.half id).recv.bytes.length = conn.resident.bytesResident+h.recv.bytes.length)
    (balanced : Balanced conn) : Balanced after := by
  refine ⟨?_,fun lvl => crypto ▸ balanced.counted lvl⟩
  have sum := half_sum once there flow half crypto datagrams
  have counter := moved ((length_le_sum there).trans_eq balanced.resident.symm)
  have before := balanced.resident
  omega

theorem shrinkRecv_balanced {conn : Connection} {id : Nat} {t : RecvStream} (once : (names conn).Nodup) (there : id ∈ names conn)
    (shorter : t.bytes.length ≤ (conn.half id).recv.bytes.length) (balanced : Balanced conn) :
    Balanced (conn.shrinkRecv id t) := by
  have flow : (conn.shrinkRecv id t).flow = conn.flow := rfl
  have half : (conn.shrinkRecv id t).half = Function.update conn.half id {conn.half id with recv := t} := rfl
  refine half_balanced once there flow half rfl rfl (fun held => ?_) balanced
  change conn.resident.bytesResident-((conn.half id).recv.bytes.length-t.bytes.length)+_ = _+t.bytes.length
  omega

section

/-- How far the peer has reached, over the streams of the list. -/
def reached (keys : List Nat) (conn : Connection) : Nat := total (fun h : RecvHalf => h.recv.highWater) conn.half keys

/-- How much of it is done with. -/
def finished (keys : List Nat) (conn : Connection) : Nat := total (fun h : RecvHalf => h.recv.doneWith) conn.half keys

/-- What an account rests on: the streams it counts, whether the buffers fit into the address space, and whether a
stream that the peer reports blocked is a live one. -/
structure Terms where
  keys : List Nat
  fits : Prop
  listed : Prop

variable (terms : Terms)

/-- The lists of blocked streams get no name twice, and no new name but one of `live`. -/
structure Listed (live : List Nat) (before after : BlockedStreams) : Prop where
  localOnce : (BlockedStreams.ids before.localStreamDataBlocked).Nodup → (BlockedStreams.ids after.localStreamDataBlocked).Nodup
  peerOnce : (BlockedStreams.ids before.peerStreamDataBlocked).Nodup → (BlockedStreams.ids after.peerStreamDataBlocked).Nodup
  localNames : ∀ id ∈ BlockedStreams.ids after.localStreamDataBlocked,
    id ∈ BlockedStreams.ids before.localStreamDataBlocked ∨ id ∈ live
  peerNames : ∀ id ∈ BlockedStreams.ids after.peerStreamDataBlocked,
    id ∈ BlockedStreams.ids before.peerStreamDataBlocked ∨ id ∈ live

theorem Listed.refl (live : List Nat) (b : BlockedStreams) : Listed live b b := ⟨id,id,fun _ => .inl,fun _ => .inl⟩

theorem Listed.trans {live : List Nat} {a b c : BlockedStreams} (first : Listed live a b) (second : Listed live b c) :
    Listed live a c :=
  ⟨fun once => second.localOnce (first.localOnce once),fun once => second.peerOnce (first.peerOnce once),
    fun id member => (second.localNames id member).elim (first.localNames id) .inr,
    fun id member => (second.peerNames id member).elim (first.peerNames id) .inr⟩

/-- What happens between the making of a stream and the reclaim of another: the peer is charged `charged` and
reaches `risen` further, `up` bytes are done with, and the connection's window has `back` of them. The budget
stays even where the buffers fit into the address space. -/
structure Effect (charged risen up back : Nat) (conn after : Connection) : Prop where
  role : after.flow.role = conn.flow.role
  ids : IdSpaces.SameIds conn.flow.ids after.flow.ids
  named : names after = names conn
  buffers : (∀ s ∈ conn.flow.streams, s.send.bytes.Sound) → ∀ s ∈ after.flow.streams, s.send.bytes.Sound
  halves : (∀ id, (conn.half id).recv.Sound) → ∀ id, (after.half id).recv.Sound
  others : ∀ id ∉ names conn, (after.half id).recv = (conn.half id).recv
  stopped : ∀ id, (after.half id).recvStopped = true →
    (conn.half id).recvStopped = true ∨ peerMaySendOnStream conn.flow.role id = true
  sent : after.peerSentStreamData = conn.peerSentStreamData+charged
  reached : reached terms.keys after = reached terms.keys conn+risen
  finished : finished terms.keys after = finished terms.keys conn+up
  read : after.recvStreamBytesRead = conn.recvStreamBytesRead+back
  limit : conn.localMaxData ≤ after.localMaxData
  blocked : terms.listed → Listed (names conn) conn.blocked after.blocked
  even : terms.fits → Housed conn → Balanced conn → Balanced after

variable {terms} {charged risen up back : Nat} {conn mid after : Connection}

theorem Effect.used (effect : Effect terms charged risen up back conn after) (id : Nat) :
    after.flow.ids.Used after.flow.role id ↔ conn.flow.ids.Used conn.flow.role id := by
  rw [effect.role]
  exact effect.ids.used id

theorem Effect.housed (effect : Effect terms charged risen up back conn after) (housed : Housed conn) : Housed after := by
  refine ⟨effect.ids.sound housed.ids,effect.named ▸ housed.once,fun id member => ?_,effect.buffers housed.buffers,
    effect.halves housed.halves,fun id unused => ?_,fun id stop => ?_⟩
  · rw [effect.used]
    exact housed.used id (effect.named ▸ member)
  · rw [effect.used] at unused
    rw [effect.others id fun member => unused (housed.used id member)]
    exact housed.blank id unused
  · rw [effect.role]
    exact (effect.stopped id stop).elim (housed.stopped id) fun may => may

theorem Effect.trans {charged' risen' up' back' : Nat} (first : Effect terms charged risen up back conn mid)
    (second : Effect terms charged' risen' up' back' mid after) :
    Effect terms (charged+charged') (risen+risen') (up+up') (back+back') conn after := by
  refine ⟨second.role.trans first.role,first.ids.trans second.ids,second.named.trans first.named,
    fun sound => second.buffers (first.buffers sound),fun sound => second.halves (first.halves sound),
    fun id absent => ?_,fun id stop => ?_,?_,?_,?_,?_,first.limit.trans second.limit,
    fun listed => (first.blocked listed).trans (first.named ▸ second.blocked listed),
    fun fit housed balanced => second.even fit (first.housed housed) (first.even fit housed balanced)⟩
  · rw [second.others id (first.named.symm ▸ absent),first.others id absent]
  · rcases second.stopped id stop with before | may
    · exact first.stopped id before
    · exact .inr (first.role ▸ may)
  · rw [second.sent,first.sent,Nat.add_assoc]
  · rw [second.reached,first.reached,Nat.add_assoc]
  · rw [second.finished,first.finished,Nat.add_assoc]
  · rw [second.read,first.read,Nat.add_assoc]

theorem Same.effect (same : Same conn after) : Effect terms 0 0 0 0 conn after := by
  refine ⟨same.role,same.ids,?_,fun sound => same.streams ▸ sound,fun sound id => same.half ▸ sound id,
    fun _ _ => same.half ▸ rfl,fun id stop => .inl (same.half ▸ stop),same.sent,?_,?_,same.read,same.limit.ge,
    fun _ => same.blocked ▸ .refl _ _,fun _ _ => same.balanced⟩
  · unfold names
    rw [same.streams]
  · unfold Inbound.reached
    rw [same.half,Nat.add_zero]
  · unfold Inbound.finished
    rw [same.half,Nat.add_zero]

theorem Effect.refl (conn : Connection) : Effect terms 0 0 0 0 conn conn := (Same.refl conn).effect

theorem plain_effect (flow : after.flow = conn.flow) (half : after.half = conn.half) (resident : after.resident = conn.resident)
    (crypto : after.crypto = conn.crypto) (datagrams : after.recvDatagrams = conn.recvDatagrams)
    (sent : after.peerSentStreamData = conn.peerSentStreamData)
    (read : after.recvStreamBytesRead = conn.recvStreamBytesRead+back) (limit : conn.localMaxData ≤ after.localMaxData)
    (blocked : terms.listed → Listed (names conn) conn.blocked after.blocked) : Effect terms 0 0 0 back conn after := by
  refine ⟨flow ▸ rfl,flow ▸ .refl _,?_,fun sound => flow ▸ sound,fun sound id => half ▸ sound id,fun _ _ => half ▸ rfl,
    fun id stop => .inl (half ▸ stop),sent,?_,?_,read,limit,blocked,fun _ _ balanced => ?_⟩
  · unfold names
    rw [flow]
  · unfold Inbound.reached
    rw [half,Nat.add_zero]
  · unfold Inbound.finished
    rw [half,Nat.add_zero]
  · refine ⟨?_,fun lvl => crypto ▸ balanced.counted lvl⟩
    rw [resident,balanced.resident]
    unfold Connection.residentBytesSum Connection.recvDatagramBytes
    rw [flow,half,crypto,datagrams]

theorem stable_effect {flow : SendFlow.Connection} (stable : Stable conn.flow flow) :
    Effect terms 0 0 0 0 conn {conn with flow := flow} := by
  refine ⟨stable.role,stable.ids,?_,fun sound s member => ?_,id,fun _ _ => rfl,fun _ => .inl,rfl,rfl,rfl,rfl,le_rfl,fun _ => .refl _ _,
    fun _ _ => stable_balanced stable⟩
  · have held := congrArg (List.map Prod.fst) stable.held
    rw [List.map_map,List.map_map] at held
    exact held
  · have pair := List.mem_map_of_mem (f := fun s : SendFlow.Stream => (s.id,s.send.bytes)) member
    rw [stable.held] at pair
    obtain ⟨t,there,same⟩ := List.mem_map.mp pair
    have bytes : t.send.bytes = s.send.bytes := congrArg Prod.snd same
    exact bytes ▸ sound t there

section
variable {id : Nat} {h : RecvHalf} (there : id ∈ names conn) (flow : after.flow = conn.flow)
  (half : after.half = Function.update conn.half id h) (sound : (conn.half id).recv.Sound → h.recv.Sound)
  (stop : h.recvStopped = true → (conn.half id).recvStopped = true ∨ peerMaySendOnStream conn.flow.role id = true)
  (sent : after.peerSentStreamData = conn.peerSentStreamData) (read : after.recvStreamBytesRead = conn.recvStreamBytesRead)
  (limit : after.localMaxData = conn.localMaxData) (blocked : after.blocked = conn.blocked)
  (even : terms.fits → Housed conn → Balanced conn → Balanced after)
include there flow half sound stop sent read limit blocked even

theorem half_effect {reach done : Nat} (reached : Inbound.reached terms.keys after = Inbound.reached terms.keys conn+reach)
    (finished : Inbound.finished terms.keys after = Inbound.finished terms.keys conn+done) : Effect terms 0 reach done 0 conn after := by
  refine ⟨flow ▸ rfl,flow ▸ .refl _,?_,fun sound => flow ▸ sound,fun all other => ?_,fun other absent => ?_,fun other stopped => ?_,
    sent,reached,finished,read,limit.ge,fun _ => blocked ▸ .refl _ _,even⟩
  · unfold names
    rw [flow]
  · rw [half]
    by_cases same : other = id
    · rw [same,Function.update_self]
      exact sound (all id)
    · rw [Function.update_of_ne same]
      exact all other
  · have apart : other ≠ id := fun same => absent (same ▸ there)
    rw [half,Function.update_of_ne apart]
  · rw [half] at stopped
    by_cases same : other = id
    · rw [same,Function.update_self] at stopped
      exact same ▸ stop stopped
    · rw [Function.update_of_ne same] at stopped
      exact .inl stopped

theorem half_effect_counted (once : terms.keys.Nodup) (counted : id ∈ terms.keys) {reach done : Nat}
    (reached : h.recv.highWater = (conn.half id).recv.highWater+reach)
    (finished : h.recv.doneWith = (conn.half id).recv.doneWith+done) : Effect terms 0 reach done 0 conn after := by
  refine half_effect there flow half sound stop sent read limit blocked even ?_ ?_
  · have moved : total (fun h : RecvHalf => h.recv.highWater) (Function.update conn.half id h) terms.keys+(conn.half id).recv.highWater =
        total (fun h : RecvHalf => h.recv.highWater) conn.half terms.keys+h.recv.highWater := total_update once counted h
    unfold Inbound.reached
    rw [half]
    omega
  · have moved : total (fun h : RecvHalf => h.recv.doneWith) (Function.update conn.half id h) terms.keys+(conn.half id).recv.doneWith =
        total (fun h : RecvHalf => h.recv.doneWith) conn.half terms.keys+h.recv.doneWith := total_update once counted h
    unfold Inbound.finished
    rw [half]
    omega

theorem half_effect_still (reached : h.recv.highWater = (conn.half id).recv.highWater)
    (finished : h.recv.doneWith = (conn.half id).recv.doneWith) : Effect terms 0 0 0 0 conn after := by
  have still : ∀ (worth : RecvHalf → Nat), worth h = worth (conn.half id) →
      total worth after.half terms.keys = total worth conn.half terms.keys := by
    intro worth same
    refine total_congr fun other _ => ?_
    rw [half]
    by_cases here : other = id
    · rw [here,Function.update_self,same]
    · rw [Function.update_of_ne here]
  exact half_effect there flow half sound stop sent read limit blocked even (still (fun h => h.recv.highWater) reached)
    (still (fun h => h.recv.doneWith) finished)

end

theorem shrinkRecv_effect (once : terms.keys.Nodup) {id : Nat} (counted : id ∈ terms.keys) (there : id ∈ names conn) {t : RecvStream}
    (sound : t.Sound) (kept : RecvStream.Kept (conn.half id).recv t)
    (done : t.doneWith = (conn.half id).recv.doneWith+up) : Effect terms 0 0 up 0 conn (conn.shrinkRecv id t) := by
  have flow : (conn.shrinkRecv id t).flow = conn.flow := rfl
  have half : (conn.shrinkRecv id t).half = Function.update conn.half id {conn.half id with recv := t} := rfl
  refine half_effect_counted there flow half (fun _ => sound) .inl rfl rfl rfl rfl
    (fun _ housed => shrinkRecv_balanced housed.once there kept.shorter) once counted ?_ done
  unfold RecvStream.highWater
  rw [kept.reset,kept.stop,Nat.add_zero]

theorem modifyHalf_effect {id : Nat} (there : id ∈ names conn) {f : RecvHalf → RecvHalf} (kept : ∀ h, (f h).recv = h.recv)
    (stop : ∀ h, (f h).recvStopped = true → h.recvStopped = true ∨ peerMaySendOnStream conn.flow.role id = true) :
    Effect terms 0 0 0 0 conn (conn.modifyHalf id f) := by
  have flow : (conn.modifyHalf id f).flow = conn.flow := rfl
  have half : (conn.modifyHalf id f).half = Function.update conn.half id (f (conn.half id)) := rfl
  refine half_effect_still there flow half (fun sound => ?_) (stop _) rfl rfl rfl rfl (fun _ housed balanced => ?_) ?_ ?_
  · rw [kept]
    exact sound
  · refine half_balanced housed.once there flow half rfl rfl (fun _ => ?_) balanced
    rw [kept]
    rfl
  · rw [kept]
  · rw [kept]

theorem queueMaxData_effect (conn : Connection) (maximumData : Nat) : Effect terms 0 0 0 0 conn (conn.queueMaxData maximumData) :=
  plain_effect rfl rfl rfl rfl rfl rfl rfl (le_max_left _ _) fun _ => .refl _ _

theorem credit_effect (conn : Connection) (n : Nat) : Effect terms 0 0 0 n conn (conn.creditConnectionRecvWindow n) := by
  unfold Connection.creditConnectionRecvWindow
  split
  · rename_i zero
    rw [zero]
    exact .refl conn
  · dsimp only
    generalize Connection.tuneWindow conn conn.connRecvWindow (conn.recvStreamBytesRead+n) conn.connectionWindowCap = tuned
    have credited : Effect terms 0 0 0 n conn
        {conn with recvStreamBytesRead := conn.recvStreamBytesRead+n,connRecvWindow := tuned.2} :=
      plain_effect rfl rfl rfl rfl rfl rfl rfl le_rfl fun _ => .refl _ _
    split
    · exact credited.trans (queueMaxData_effect _ _)
    · exact credited

/-- The bytes of a stream that nobody reads go back to the connection's window as they leave the stream. -/
theorem discardTurns_effect (once : terms.keys.Nodup) {id : Nat} (counted : id ∈ terms.keys) (turns : Nat) (conn : Connection)
    (there : id ∈ names conn) (sound : (conn.half id).recv.Sound) :
    ∃ n, Effect terms 0 0 n n conn (conn.discardTurns id turns) := by
  induction turns generalizing conn with
  | zero => exact ⟨0,.refl conn⟩
  | succ turns ih =>
    obtain ⟨t,ok,sound',kept,done⟩ := sound.consume le_rfl
    unfold Connection.discardTurns
    dsimp only
    rw [ok]
    dsimp only
    generalize (conn.half id).recv.peek.length = n at done
    have shrunk : Effect terms 0 0 n 0 conn (conn.shrinkRecv id t) :=
      shrinkRecv_effect once counted there sound' kept done
    have turn : Effect terms 0 0 n n conn ((conn.shrinkRecv id t).creditConnectionRecvWindow n) := by
      simpa only [Nat.zero_add,Nat.add_zero] using shrunk.trans (credit_effect _ n)
    split
    · exact ⟨n,turn⟩
    · have half : ((conn.shrinkRecv id t).creditConnectionRecvWindow n).half id = {conn.half id with recv := t} := by
        unfold Connection.creditConnectionRecvWindow
        split
        · exact Function.update_self _ _ _
        · dsimp only
          split <;> exact Function.update_self _ _ _
      obtain ⟨m,rest⟩ := ih ((conn.shrinkRecv id t).creditConnectionRecvWindow n) (turn.named.symm ▸ there)
        (by rw [half]; exact sound')
      exact ⟨n+m,by simpa only [Nat.zero_add,Nat.add_zero] using turn.trans rest⟩

theorem discardStopped_effect (once : terms.keys.Nodup) {id : Nat} (counted : id ∈ terms.keys) (there : id ∈ names conn)
    (sound : (conn.half id).recv.Sound) : ∃ n, Effect terms 0 0 n n conn (conn.discardStopped id) :=
  discardTurns_effect once counted _ conn there sound

theorem compactReceivePrefixes_effect (conn : Connection) (halves : ∀ id, (conn.half id).recv.Sound) :
    Effect terms 0 0 0 0 conn conn.compactReceivePrefixes := by
  have walk : ∀ (ids : List Nat) (mid : Connection), (∀ id ∈ ids, id ∈ names mid) → (∀ id, (mid.half id).recv.Sound) → Effect terms 0 0 0 0 mid (ids.foldl (fun conn id =>
        if peerMaySendOnStream conn.flow.role id then conn.shrinkRecv id (conn.half id).recv.compactPrefix else conn) mid) := by
    intro ids
    induction ids with
    | nil => exact fun mid _ _ => .refl mid
    | cons id rest ih =>
      intro mid there halves
      rw [List.foldl_cons]
      have turn : Effect terms 0 0 0 0 mid
          (if peerMaySendOnStream mid.flow.role id then mid.shrinkRecv id (mid.half id).recv.compactPrefix else mid) := by
        split
        · obtain ⟨sound,kept,done,_⟩ := (halves id).compactPrefix
          have flow : (mid.shrinkRecv id (mid.half id).recv.compactPrefix).flow = mid.flow := rfl
          have half : (mid.shrinkRecv id (mid.half id).recv.compactPrefix).half =
              Function.update mid.half id {mid.half id with recv := (mid.half id).recv.compactPrefix} := rfl
          refine half_effect_still (there id List.mem_cons_self) flow half (fun _ => sound) .inl rfl rfl rfl rfl
            (fun _ housed => shrinkRecv_balanced housed.once (there id List.mem_cons_self) kept.shorter) ?_ done
          unfold RecvStream.highWater
          rw [kept.reset,kept.stop]
        · exact .refl mid
      exact turn.trans (ih _ (fun id member => turn.named.symm ▸ there id (List.mem_cons_of_mem _ member))
        (turn.halves halves))
  exact walk (names conn) conn (fun _ member => member) halves

theorem queueMaxStreamData_effect (granted : Bool) (conn : Connection) (id limit : Nat) :
    Effect terms 0 0 0 0 conn (conn.queueMaxStreamData granted id limit).2 := by
  unfold Connection.queueMaxStreamData
  dsimp only
  have raised : Effect terms 0 0 0 0 conn (if (conn.flow.get id).isSome then
      conn.modifyHalf id fun h => {h with recvMaxData := max h.recvMaxData limit} else conn) := by
    split
    · rename_i there
      exact modifyHalf_effect (mem_names.mpr there) (fun _ => rfl) fun _ => .inl
    · exact .refl conn
  generalize (if (conn.flow.get id).isSome then
      conn.modifyHalf id fun h => {h with recvMaxData := max h.recvMaxData limit} else conn) = mid at raised ⊢
  have fewer := clear_sublist mid.blocked.peerStreamDataBlocked id limit
  have listed : ∀ pending, Effect terms 0 0 0 0 mid {mid with
      blocked := {mid.blocked with
        peerStreamDataBlocked := BlockedStreams.clearStreamBlocked mid.blocked.peerStreamDataBlocked id limit}
      pendingFrames := pending} := fun pending =>
    plain_effect rfl rfl rfl rfl rfl rfl rfl le_rfl
      fun _ => ⟨fun once => once,fun once => fewer.nodup once,fun _ => .inl,fun id member => .inl (fewer.subset member)⟩
  split_ifs
  · exact raised.trans (listed _)
  · exact raised.trans (listed _)
  · exact raised.trans (listed _)

theorem creditStream_effect (granted : Bool) (conn : Connection) {id : Nat} (there : id ∈ names conn) : Effect terms 0 0 0 0 conn (conn.creditStream granted id).2 := by
  unfold Connection.creditStream
  dsimp only
  generalize conn.tuneWindow (conn.half id).recvWindow _ _ = tuned
  obtain ⟨grew,w⟩ := tuned
  dsimp only
  have first : Effect terms 0 0 0 0 conn (conn.modifyHalf id fun h => {h with recvWindow := w}) :=
    modifyHalf_effect there (fun _ => rfl) fun _ => .inl
  generalize conn.modifyHalf id (fun h => {h with recvWindow := w}) = mid at first ⊢
  have second : Effect terms 0 0 0 0 mid (if grew && decide (mid.connRecvWindow.window <
      min (saturatingAdd w.window (w.window/2)) conn.connectionWindowCap) then
        {mid with connRecvWindow := {mid.connRecvWindow with
          window := min (saturatingAdd w.window (w.window/2)) conn.connectionWindowCap}}
      else mid) := by
    split
    · exact plain_effect rfl rfl rfl rfl rfl rfl rfl le_rfl fun _ => .refl _ _
    · exact .refl mid
  have both := first.trans second
  generalize (if grew && decide (mid.connRecvWindow.window <
      min (saturatingAdd w.window (w.window/2)) conn.connectionWindowCap) then
        {mid with connRecvWindow := {mid.connRecvWindow with
          window := min (saturatingAdd w.window (w.window/2)) conn.connectionWindowCap}}
      else mid) = last at both ⊢
  split
  · exact both.trans (queueMaxStreamData_effect granted last id _)
  · exact both

/-- A read that fails for want of memory has taken the bytes, and the connection's window does not get them. -/
theorem afterStreamConsume_effect (once : terms.keys.Nodup) (granted : Bool) {id : Nat} (counted : id ∈ terms.keys)
    (there : id ∈ names conn) {t : RecvStream} (sound : t.Sound) (kept : RecvStream.Kept (conn.half id).recv t) {n : Nat}
    (done : t.doneWith = (conn.half id).recv.doneWith+n) :
    match conn.afterStreamConsume granted id t n with
    | (.ok _,after) => Effect terms 0 0 n n conn after
    | (.error _,after) => Effect terms 0 0 n 0 conn after := by
  have shrunk : Effect terms 0 0 n 0 conn (conn.shrinkRecv id t) :=
    shrinkRecv_effect once counted there sound kept done
  unfold Connection.afterStreamConsume
  dsimp only
  by_cases zero : n = 0
  · rw [if_pos zero]
    rw [zero] at shrunk ⊢
    exact shrunk
  · rw [if_neg zero]
    have streamed : Effect terms 0 0 0 0 (conn.shrinkRecv id t) ((conn.shrinkRecv id t).creditStream granted id).2 :=
      creditStream_effect granted _ (shrunk.named.symm ▸ there)
    generalize (conn.shrinkRecv id t).creditStream granted id = outcome at streamed ⊢
    obtain ⟨result,mid⟩ := outcome
    cases result with
    | error e => exact shrunk.trans streamed
    | ok _ =>
      have all : Effect terms 0 0 n n conn (mid.creditConnectionRecvWindow n) := by
        simpa only [Nat.zero_add,Nat.add_zero] using (shrunk.trans streamed).trans (credit_effect mid n)
      exact all

end

end QuicZig.Conn.Inbound
