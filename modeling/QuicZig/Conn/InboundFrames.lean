import QuicZig.Conn.InboundBudget

/-! What a STREAM or a RESET_STREAM frame is charged for, and when the charge is not what
the stream rises by. -/
namespace QuicZig.Conn.Inbound
open Machine Paths Streams SendFlow Ledger BlockedStreams

/-- Flow control lets a frame through that reaches above the highest offset of its stream. -/
structure Rises (grants : Allocator) (conn : Connection) (id level : Nat) (frame : SendFlow.Connection.PeerStreamFrame) : Prop where
  through : (conn.ensurePeerStream grants id frame).1 = .ok true
  above : (peerHalf conn id).recv.endOffset < level
  stream : level ≤ (peerHalf conn id).recvMaxData
  conn : conn.peerSentStreamData+(level-(peerHalf conn id).recv.endOffset) ≤ conn.localMaxData

/-- The budget has no room for what a frame adds to its buffer, not even without the consumed prefixes. -/
def Unaffordable (conn : Connection) (s : Frame.Stream) : Prop :=
  let recv := (peerHalf conn s.streamId).recv
  recv.bytes.length < recv.needs s.offset s.data ∧
    conn.resident.maxConnectionMemory+slack conn < conn.resident.bytesResident+(recv.needs s.offset s.data-recv.bytes.length)

section
variable {recvMaxData localMaxData peerSent old level delta : Nat}

theorem credit_rises (ok : RecvFlow.creditPeerStreamHighWater recvMaxData localMaxData peerSent old level = .ok delta) :
    delta = level-old ∧ (old < level → level ≤ recvMaxData ∧ peerSent+(level-old) ≤ localMaxData) := by
  unfold RecvFlow.creditPeerStreamHighWater at ok
  dsimp only at ok
  split at ok
  · cases ok
  split at ok
  · cases ok
  · cases ok
    exact ⟨by omega,fun above => ⟨by omega,by omega⟩⟩

theorem credit_refused {e : RecvFlow.Exceeded}
    (error : RecvFlow.creditPeerStreamHighWater recvMaxData localMaxData peerSent old level = .error e) (above : old < level)
    (stream : level ≤ recvMaxData) : ¬ peerSent+(level-old) ≤ localMaxData := by
  intro conn
  rw [RecvFlow.credit_within (max_le (above.le.trans stream) stream) conn] at error
  cases error

end

section
variable {terms : Terms} {conn mid : Connection} {id : Nat}

theorem Begun.balanced (begun : Begun conn mid) (housed : Housed conn) (balanced : Balanced conn) : Balanced mid := by
  rcases begun with rfl | ⟨id,made⟩
  · exact balanced
  · exact made.balanced housed balanced

theorem Begun.kept (begun : Begun conn mid) : mid.flow.role = conn.flow.role ∧ mid.resident = conn.resident ∧
    mid.localMaxData = conn.localMaxData ∧ mid.peerSentStreamData = conn.peerSentStreamData := by
  rcases begun with rfl | ⟨id,made⟩
  · exact ⟨rfl,rfl,rfl,rfl⟩
  · exact ⟨made.opened.role,made.resident,made.limit,made.sent⟩

theorem Begun.slack (begun : Begun conn mid) (housed : Housed conn) : slack mid = slack conn := by
  rcases begun with rfl | ⟨id,made⟩
  · rfl
  · obtain ⟨h,fresh,_,half⟩ := made.half
    have absent : id ∉ (names conn).filter (peerMaySendOnStream conn.flow.role) :=
      fun there => made.absent housed (List.mem_of_mem_filter there)
    unfold Inbound.slack
    rw [made.names,made.opened.role,half,List.filter_append,total_append,total_update_out absent]
    have last : ∀ keys : List Nat, (∀ k ∈ keys, k = id) →
        total (fun h : RecvHalf => h.recv.bufStart) (Function.update conn.half id h) keys = 0 := by
      intro keys all
      unfold total
      refine List.sum_eq_zero fun n member => ?_
      obtain ⟨k,there,rfl⟩ := List.mem_map.mp member
      rw [all k there,Function.update_self]
      exact congrArg RecvStream.bufStart fresh
    rw [last _ fun k member => List.mem_singleton.mp (List.mem_of_mem_filter member)]
    rfl

theorem Through.balanced (through : Through id conn mid) (housed : Housed conn) (balanced : Balanced conn) : Balanced mid := by
  obtain ⟨start,begun,same⟩ := through.path
  exact same.balanced (begun.balanced housed balanced)

theorem Through.housed (through : Through id conn mid) (housed : Housed conn) : Housed mid := by
  have onward : Onward ⟨[],False,False⟩ 0 0 0 0 conn mid := through.onward
  exact onward.housed housed

theorem Through.kept (through : Through id conn mid) (housed : Housed conn) : mid.flow.role = conn.flow.role ∧
    mid.resident = conn.resident ∧ mid.localMaxData = conn.localMaxData ∧ mid.peerSentStreamData = conn.peerSentStreamData ∧
      slack mid = slack conn := by
  obtain ⟨start,begun,same⟩ := through.path
  obtain ⟨role,resident,limit,sent⟩ := begun.kept
  have prefixes := begun.slack housed
  refine ⟨same.role.trans role,same.resident.trans resident,same.limit.trans limit,same.sent.trans sent,?_⟩
  rw [← prefixes]
  unfold slack names
  rw [same.streams,same.half,same.role]

theorem ensurePeerStream_through (housed : Housed conn) (grants : Allocator) (id : Nat)
    (frame : SendFlow.Connection.PeerStreamFrame) :
    match conn.ensurePeerStream grants id frame with
    | (.ok true,after) => Through id conn after
    | (.ok false,after) | (.error _,after) => Same conn after :=
  adoptPeer_spec housed (ensurePeerStream_spec grants conn.flow id frame) (ensurePeerStream_there grants conn.flow id frame)

theorem ensurePeerStream_may {grants : Allocator} {id : Nat} {frame : SendFlow.Connection.PeerStreamFrame}
    (ok : (conn.ensurePeerStream grants id frame).1 = .ok true) : peerMaySendOnStream conn.flow.role id = true := by
  by_contra may
  unfold Connection.ensurePeerStream SendFlow.Connection.ensurePeerStream at ok
  rw [if_pos (by simpa using may)] at ok
  cases ok

theorem sendPartForPeerFrame_through (housed : Housed conn) (grants : Allocator) (id : Nat)
    (frame : SendFlow.Connection.SendPartFrame) :
    match conn.sendPartForPeerFrame grants id frame with
    | (.ok true,after) => Through id conn after
    | (.ok false,after) | (.error _,after) => Same conn after :=
  adoptPeer_spec housed (sendPartForPeerFrame_spec grants conn.flow id frame) (sendPartForPeerFrame_there grants conn.flow id frame)

end

/-- A STREAM frame is charged for something, and its stream does not rise, or the frame is refused. -/
structure StreamMisses (grants : Nat → Allocator) (conn : Connection) (s : Frame.Stream) : Prop where
  rises : Rises (grants 0) conn s.streamId (s.offset+s.data.length) .streamData
  kept : (peerHalf conn s.streamId).recv.reset.isSome = true ∨
    (((peerHalf conn s.streamId).recv.recv (grants 1) s.offset s.data s.fin).1 = .ok () ∧ Unaffordable conn s)

/-- A charge stays within the limit, and a frame that is rejected has none. -/
structure Fair (charged : Nat) (conn : Connection) (outcome : Outcome Unit) : Prop where
  limit : conn.peerSentStreamData ≤ conn.localMaxData → conn.peerSentStreamData+charged ≤ conn.localMaxData
  taken : charged ≠ 0 → outcome.1 = .ok () ∧ outcome.2.live = conn.live

/-- What a frame is charged, and what its stream rises by, are the same but for these frames. -/
structure Billed (terms : Terms) (misses : Prop) (conn : Connection) (outcome : Outcome Unit) : Prop where
  turn : ∃ charged risen up back, Onward terms charged risen up back conn outcome.2 ∧ up = back ∧
    (terms.fits → Balanced conn → (charged = risen ↔ ¬ misses)) ∧ Fair charged conn outcome

section
variable {terms : Terms} {conn : Connection} {id : Nat}

theorem Fair.none (conn : Connection) (outcome : Outcome Unit) : Fair 0 conn outcome := ⟨fun within => within,fun some => absurd rfl some⟩

theorem Same.billed {misses : Prop} {outcome : Outcome Unit} (same : Same conn outcome.2) (hits : ¬ misses) :
    Billed terms misses conn outcome :=
  ⟨⟨0,0,0,0,same.effect.onward,rfl,fun _ _ => ⟨fun _ => hits,fun _ => rfl⟩,.none conn outcome⟩⟩

theorem Onward.billed {misses : Prop} {outcome : Outcome Unit} {n : Nat} (onward : Onward terms 0 0 n n conn outcome.2)
    (hits : ¬ misses) : Billed terms misses conn outcome :=
  ⟨⟨0,0,n,n,onward,rfl,fun _ _ => ⟨fun _ => hits,fun _ => rfl⟩,.none conn outcome⟩⟩

theorem credit_flow (conn : Connection) (n : Nat) : (conn.creditConnectionRecvWindow n).flow = conn.flow := by
  unfold Connection.creditConnectionRecvWindow
  dsimp only
  split_ifs <;> rfl

theorem discardTurns_flow (id turns : Nat) (conn : Connection) : (conn.discardTurns id turns).flow = conn.flow := by
  induction turns generalizing conn with
  | zero => rfl
  | succ turns ih =>
    unfold Connection.discardTurns
    dsimp only
    split
    · rfl
    · split
      · exact credit_flow _ _
      · exact (ih _).trans (credit_flow _ _)

theorem compact_flow (conn : Connection) : conn.compactReceivePrefixes.flow = conn.flow := by
  have walk : ∀ (ids : List Nat) (mid : Connection), (ids.foldl (fun conn id =>
      if peerMaySendOnStream conn.flow.role id then conn.shrinkRecv id (conn.half id).recv.compactPrefix else conn) mid).flow =
        mid.flow := by
    intro ids
    induction ids with
    | nil => exact fun _ => rfl
    | cons id rest ih =>
      intro mid
      rw [List.foldl_cons,ih]
      split <;> rfl
  exact walk _ conn

theorem settleRecv_flow {t : RecvStream} (went : (conn.settleRecv id t).1 = true) : (conn.settleRecv id t).2.flow = conn.flow := by
  unfold Connection.settleRecv at went ⊢
  split
  · rename_i longer
    rw [if_pos longer] at went
    unfold Connection.growRecv at went ⊢
    dsimp only at went ⊢
    split
    · rfl
    · rename_i none
      rw [none] at went
      dsimp only at went
      split
      · exact compact_flow _
      · rename_i none'
        rw [none'] at went
        cases went
  · rfl

theorem fair_charge {mid : Connection} {level delta : Nat} {outcome : Outcome Unit} (through : Through id conn mid)
    (rise : delta = level-(peerHalf conn id).recv.endOffset)
    (within : (peerHalf conn id).recv.endOffset < level →
      level ≤ (peerHalf conn id).recvMaxData ∧ conn.peerSentStreamData+(level-(peerHalf conn id).recv.endOffset) ≤ conn.localMaxData)
    (ok : outcome.1 = .ok ()) (flow : outcome.2.flow = mid.flow) : Fair delta conn outcome := by
  refine ⟨fun before => ?_,fun _ => ⟨ok,?_⟩⟩
  · by_cases above : (peerHalf conn id).recv.endOffset < level
    · rw [rise]
      exact (within above).2
    · omega
  · unfold Connection.live SendFlow.Connection.live
    rw [flow,through.quiet]

theorem charge_effect (conn : Connection) (delta : Nat) :
    Effect terms delta 0 0 0 conn {conn with peerSentStreamData := conn.peerSentStreamData+delta} :=
  ⟨rfl,.refl _,rfl,fun sound => sound,fun sound => sound,fun _ _ => rfl,fun _ => .inl,rfl,rfl,rfl,rfl,le_rfl,
    fun _ => .refl _ _,fun _ _ balanced => ⟨balanced.resident,balanced.counted⟩⟩

theorem settleRecv_still (there : id ∈ names conn) :
    (conn.settleRecv id (conn.half id).recv).1 = true ∧ Effect terms 0 0 0 0 conn (conn.settleRecv id (conn.half id).recv).2 := by
  unfold Connection.settleRecv
  rw [if_neg (lt_irrefl _)]
  have flow : (conn.shrinkRecv id (conn.half id).recv).flow = conn.flow := rfl
  have half : (conn.shrinkRecv id (conn.half id).recv).half =
      Function.update conn.half id {conn.half id with recv := (conn.half id).recv} := rfl
  exact ⟨rfl,half_effect_still there flow half (fun sound => sound) .inl rfl rfl rfl rfl
    (fun _ housed => shrinkRecv_balanced housed.once there le_rfl) rfl rfl⟩

theorem discard_onward {charged risen : Nat} {mid after : Connection} (once : terms.keys.Nodup) (counted : id ∈ terms.keys)
    (there : id ∈ names mid) (housed : Housed mid) (effect : Effect terms charged risen 0 0 mid after) :
    ∃ n, Effect terms charged risen n n mid (if (after.half id).recvStopped then after.discardStopped id else after) := by
  split
  · obtain ⟨n,last⟩ := discardStopped_effect once counted (effect.named.symm ▸ there) (effect.halves housed.halves id)
    exact ⟨n,by simpa only [Nat.zero_add,Nat.add_zero] using effect.trans last⟩
  · exact ⟨0,effect⟩

/-- What a frame that is taken leaves: its charge, and a stopped stream drained. -/
def Connection.charged (conn : Connection) (id delta : Nat) : Connection :=
  if (conn.half id).recvStopped then Connection.discardStopped {conn with peerSentStreamData := conn.peerSentStreamData+delta} id
  else {conn with peerSentStreamData := conn.peerSentStreamData+delta}

section
variable {grants : Nat → Allocator} {s : Frame.Stream} {mid : Connection} {delta : Nat} (housed : Housed conn)
variable (once : terms.keys.Nodup) (counted : s.streamId ∈ terms.keys)
variable (opened : conn.ensurePeerStream (grants 0) s.streamId .streamData = (.ok true,mid)) (through : Through s.streamId conn mid)
variable (rise : delta = s.offset+s.data.length-(peerHalf conn s.streamId).recv.endOffset)
variable (within : (peerHalf conn s.streamId).recv.endOffset < s.offset+s.data.length →
  s.offset+s.data.length ≤ (peerHalf conn s.streamId).recvMaxData ∧
    conn.peerSentStreamData+(s.offset+s.data.length-(peerHalf conn s.streamId).recv.endOffset) ≤ conn.localMaxData)

include housed once counted through rise within in
theorem charged_billed {after : Connection} {risen : Nat} (effect : Effect terms 0 risen 0 0 mid after)
    (flow : after.flow = mid.flow)
    (exact' : terms.fits → Balanced conn → (delta = risen ↔ ¬ StreamMisses grants conn s)) :
    Billed terms (StreamMisses grants conn s) conn (.ok (),after.charged s.streamId delta) := by
  obtain ⟨n,all⟩ := discard_onward once counted through.there (through.housed housed) (effect.trans (charge_effect after delta))
  refine ⟨⟨_,_,_,_,through.onward.then all,rfl,fun fits balanced => ?_,?_⟩⟩
  · rw [Nat.zero_add,Nat.zero_add,Nat.zero_add,Nat.add_zero]
    exact exact' fits balanced
  · rw [Nat.zero_add,Nat.zero_add]
    refine fair_charge through rise within rfl ?_
    unfold Connection.charged
    split
    · exact (discardTurns_flow _ _ _).trans flow
    · exact flow

include opened within in
theorem stream_rises (above : (peerHalf conn s.streamId).recv.endOffset < s.offset+s.data.length) :
    Rises (grants 0) conn s.streamId (s.offset+s.data.length) .streamData :=
  ⟨by rw [opened],above,(within above).1,(within above).2⟩

include housed once counted opened through rise within

theorem stream_reset_billed {r : RecvStream.ResetInfo} (reset : (peerHalf conn s.streamId).recv.reset = some r) :
    (mid.settleRecv s.streamId (mid.half s.streamId).recv).1 = true ∧ Billed terms (StreamMisses grants conn s) conn
      (.ok (),(mid.settleRecv s.streamId (mid.half s.streamId).recv).2.charged s.streamId delta) := by
  obtain ⟨went,settled⟩ := @settleRecv_still terms mid s.streamId through.there
  refine ⟨went,charged_billed housed once counted through rise within settled (settleRecv_flow went) fun _ _ => ⟨?_,?_⟩⟩
  · intro none misses
    have above := misses.rises.above
    omega
  · intro hits
    by_contra some
    exact hits ⟨stream_rises opened within (by omega),.inl (by rw [reset]; rfl)⟩

/-- A running stream rises by what it is charged, unless its buffer is refused. -/
theorem stream_running_billed (reset : (peerHalf conn s.streamId).recv.reset = none) {t : RecvStream}
    (taken : (peerHalf conn s.streamId).recv.recv (grants 1) s.offset s.data s.fin = (.ok (),t))
    (fits : (mid.settleRecv s.streamId t).1 = false → terms.fits → (mid.settleRecv s.streamId t).2.residentBytesSum ≤ maxU64) :
    Billed terms (StreamMisses grants conn s) conn (.ok (),
      if (mid.settleRecv s.streamId t).1 then (mid.settleRecv s.streamId t).2.charged s.streamId delta
      else (mid.settleRecv s.streamId t).2) := by
  have housed' := through.housed housed
  have half := through.half
  obtain ⟨role,resident,limit,sent,prefixes⟩ := through.kept housed
  have running : (peerHalf conn s.streamId).recv.Running := by
    have sound := housed'.halves s.streamId
    rw [half] at sound
    unfold RecvStream.Sound at sound
    rw [reset] at sound
    exact sound
  obtain ⟨running',took⟩ := running.recv taken
  rw [← half] at took
  have settled : _ → Effect terms 0 _ 0 0 mid (mid.settleRecv s.streamId t).2 :=
    settleRecv_effect housed' once counted through.there running'.sound took (half ▸ reset) running'.open'
  have short : ∀ balanced : Balanced conn, (mid.settleRecv s.streamId t).1 = false ↔ Unaffordable conn s := by
    intro balanced
    rw [settleRecv_refused housed' (through.balanced housed balanced) through.there running'.sound took,half,resident,prefixes,
      took.length,half]
    unfold Unaffordable
    dsimp only
    constructor <;> exact fun ⟨longer,past⟩ => ⟨by omega,by omega⟩
  have effect := settled fits
  cases went : (mid.settleRecv s.streamId t).1 with
  | false =>
    refine ⟨⟨_,_,_,_,through.onward.then effect,rfl,fun _ balanced => ?_,.none conn _⟩⟩
    rw [half,Nat.zero_add,Nat.zero_add]
    have past := (short balanced).mp went
    constructor
    · intro none misses
      have above := misses.rises.above
      omega
    · intro hits
      by_contra some
      exact hits ⟨stream_rises opened within (by omega),.inr ⟨by rw [taken],past⟩⟩
  | true =>
    rw [if_pos rfl]
    refine charged_billed housed once counted through rise within effect (settleRecv_flow went) fun _ balanced => ?_
    rw [half]
    constructor
    · intro _ misses
      rcases misses.kept with again | ⟨_,past⟩
      · rw [reset] at again
        cases again
      · exact absurd ((short balanced).mpr past) (by simp [went])
    · intro _
      omega

end

theorem handleStream_billed (housed : Housed conn) (once : terms.keys.Nodup) (grants : Nat → Allocator) (s : Frame.Stream)
    (may : peerMaySendOnStream conn.flow.role s.streamId = true → s.streamId ∈ terms.keys) (whole : s.offset+s.data.length ≤ maxU64)
    (fits : terms.fits → (conn.handleStream grants s).2.residentBytesSum ≤ maxU64) :
    Billed terms (StreamMisses grants conn s) conn (conn.handleStream grants s) := by
  have sum : checkedAdd s.offset s.data.length = some (s.offset+s.data.length) := if_pos whole
  have spec := ensurePeerStream_through housed (grants 0) s.streamId .streamData
  unfold Connection.handleStream at fits ⊢
  rw [sum] at fits ⊢
  dsimp only at fits ⊢
  generalize through : conn.ensurePeerStream (grants 0) s.streamId .streamData = outcome at spec fits ⊢
  obtain ⟨result,mid⟩ := outcome
  cases result with
  | error e =>
    refine Same.billed spec fun misses => ?_
    have ok := misses.rises.through
    rw [through] at ok
    cases ok
  | ok there =>
  cases there with
  | false =>
    refine Same.billed spec fun misses => ?_
    have ok := misses.rises.through
    rw [through] at ok
    cases ok
  | true =>
  have counted := may (ensurePeerStream_may (by rw [through]))
  obtain ⟨role,resident,limit,sent,prefixes⟩ := spec.kept housed
  have half := spec.half
  have gone : Onward terms 0 0 0 0 conn mid := spec.onward
  unfold Connection.creditPeerStreamHighWater at fits ⊢
  dsimp only at fits ⊢
  rw [half,limit,sent] at fits ⊢
  cases credit : RecvFlow.creditPeerStreamHighWater (peerHalf conn s.streamId).recvMaxData conn.localMaxData
      conn.peerSentStreamData (peerHalf conn s.streamId).recv.endOffset (s.offset+s.data.length) with
  | error e =>
    have hits : ¬ StreamMisses grants conn s := fun misses =>
      credit_refused credit misses.rises.above misses.rises.stream misses.rises.conn
    cases e with
    | stream => exact Onward.billed (gone.then (close_same mid _ _).effect) hits
    | conn => exact Onward.billed (gone.then (close_same mid _ _).effect) hits
  | ok delta =>
  obtain ⟨rise,within⟩ := credit_rises credit
  rw [credit] at fits
  dsimp only at fits ⊢
  rw [half] at fits ⊢
  cases taken : (peerHalf conn s.streamId).recv.recv (grants 1) s.offset s.data s.fin with
  | mk result t =>
  rw [taken] at fits
  cases result with
  | error e =>
    have hits : ¬ StreamMisses grants conn s := by
      intro misses
      rcases misses.kept with reset | ⟨ok,_⟩
      · obtain ⟨r,known⟩ := Option.isSome_iff_exists.mp reset
        rw [RecvStream.recv_reset known] at taken
        cases taken
      · rw [taken] at ok
        cases ok
    have same : mid.reconcileRecvResidentBytes s.streamId t = mid := by
      rw [RecvStream.recv_error taken,← half]
      exact reconcile_same mid s.streamId
    dsimp only
    rw [same]
    cases e with
    | bufferLimitExceeded | beyondFinalSize | finalSizeChanged =>
      exact Onward.billed (gone.then (close_same mid _ _).effect) hits
    | outOfMemory => exact Onward.billed gone hits
  | ok _ =>
  dsimp only at fits ⊢
  cases reset : (peerHalf conn s.streamId).recv.reset with
  | some r =>
    rw [RecvStream.recv_reset reset] at taken
    obtain rfl : (peerHalf conn s.streamId).recv = t := congrArg Prod.snd taken
    obtain ⟨went,billed⟩ := stream_reset_billed housed once counted through spec rise within reset
    rw [half] at went billed
    generalize mid.settleRecv s.streamId (peerHalf conn s.streamId).recv = outcome at went billed ⊢
    obtain ⟨done,after⟩ := outcome
    obtain rfl : done = true := went
    exact billed
  | none =>
    have billed := stream_running_billed housed once counted through spec rise within reset taken fun refused => by
      rcases settled : mid.settleRecv s.streamId t with ⟨done,after⟩
      rw [settled] at refused fits
      obtain rfl : done = false := refused
      exact fits
    generalize mid.settleRecv s.streamId t = outcome at billed ⊢
    obtain ⟨done,after⟩ := outcome
    cases done with
    | false => exact billed
    | true => exact billed

structure ResetMisses (grants : Allocator) (conn : Connection) (rs : Frame.ResetStream) : Prop where
  rises : Rises grants conn rs.streamId rs.finalSize .resetStream
  kept : (peerHalf conn rs.streamId).recv.reset.isSome = true

theorem reset_effect (once : terms.keys.Nodup) (counted : id ∈ terms.keys) (there : id ∈ names conn) {t : RecvStream}
    {finalSize : Nat} (running : (conn.half id).recv.Running) (sound : t.Sound)
    (shorter : t.bytes.length ≤ (conn.half id).recv.bytes.length) (above : (conn.half id).recv.endOffset ≤ finalSize)
    (reach : t.highWater = finalSize) (done : t.doneWith = finalSize) :
    Effect terms 0 (finalSize-(conn.half id).recv.endOffset) (finalSize-(conn.half id).recv.readOffset) 0 conn
      (conn.shrinkRecv id t) := by
  have flow : (conn.shrinkRecv id t).flow = conn.flow := rfl
  have half : (conn.shrinkRecv id t).half = Function.update conn.half id {conn.half id with recv := t} := rfl
  have read := running.read_le
  have open' := running.open'
  refine half_effect_counted there flow half (fun _ => sound) .inl rfl rfl rfl rfl
    (fun _ housed => shrinkRecv_balanced housed.once there shorter) once counted ?_ ?_
  · dsimp only
    rw [reach]
    unfold RecvStream.highWater
    rw [open']
    dsimp only
    omega
  · dsimp only
    rw [done]
    unfold RecvStream.doneWith
    rw [open']
    dsimp only
    omega

theorem handleResetStream_billed (housed : Housed conn) (once : terms.keys.Nodup) (grants : Allocator) (rs : Frame.ResetStream)
    (may : peerMaySendOnStream conn.flow.role rs.streamId = true → rs.streamId ∈ terms.keys) :
    Billed terms (ResetMisses grants conn rs) conn (conn.handleResetStream grants rs) := by
  have spec := ensurePeerStream_through housed grants rs.streamId .resetStream
  unfold Connection.handleResetStream
  generalize through : conn.ensurePeerStream grants rs.streamId .resetStream = outcome at spec ⊢
  obtain ⟨result,mid⟩ := outcome
  cases result with
  | error e =>
    refine Same.billed spec fun misses => ?_
    have ok := misses.rises.through
    rw [through] at ok
    cases ok
  | ok there =>
  cases there with
  | false =>
    refine Same.billed spec fun misses => ?_
    have ok := misses.rises.through
    rw [through] at ok
    cases ok
  | true =>
  have counted := may (ensurePeerStream_may (by rw [through]))
  obtain ⟨role,resident,limit,sent,prefixes⟩ := spec.kept housed
  have housed' := spec.housed housed
  have half := spec.half
  have gone : Onward terms 0 0 0 0 conn mid := spec.onward
  unfold Connection.creditPeerStreamHighWater
  dsimp only
  rw [half,limit,sent]
  cases credit : RecvFlow.creditPeerStreamHighWater (peerHalf conn rs.streamId).recvMaxData conn.localMaxData
      conn.peerSentStreamData (peerHalf conn rs.streamId).recv.endOffset rs.finalSize with
  | error e =>
    have hits : ¬ ResetMisses grants conn rs := fun misses =>
      credit_refused credit misses.rises.above misses.rises.stream misses.rises.conn
    cases e with
    | stream => exact Onward.billed (gone.then (close_same mid _ _).effect) hits
    | conn => exact Onward.billed (gone.then (close_same mid _ _).effect) hits
  | ok delta =>
  obtain ⟨rise,within⟩ := credit_rises credit
  have rises : (peerHalf conn rs.streamId).recv.endOffset < rs.finalSize →
      Rises grants conn rs.streamId rs.finalSize .resetStream :=
    fun above => ⟨by rw [through],above,(within above).1,(within above).2⟩
  dsimp only
  rw [half]
  have sound := housed'.halves rs.streamId
  rw [half] at sound
  cases taken : (peerHalf conn rs.streamId).recv.resetStream rs.applicationErrorCode rs.finalSize with
  | mk result t =>
  cases result with
  | error e =>
    have hits : ¬ ResetMisses grants conn rs := by
      intro misses
      unfold RecvStream.resetStream at taken
      rw [if_pos misses.kept] at taken
      cases taken
    exact Onward.billed (gone.then (close_same mid _ _).effect) hits
  | ok _ =>
  obtain ⟨sound',shorter,read,moved⟩ := sound.resetStream taken
  dsimp only
  cases reset : (peerHalf conn rs.streamId).recv.reset with
  | some r =>
    rw [reset] at moved
    dsimp only at moved
    have still : Effect terms 0 0 0 0 mid (mid.shrinkRecv rs.streamId t) := by
      refine shrinkRecv_effect once counted spec.there sound' ?_ (by rw [half,moved]; rfl)
      rw [half,moved]
      exact ⟨rfl,rfl,le_rfl⟩
    refine ⟨⟨_,_,_,_,gone.then (still.trans (charge_effect _ delta)),rfl,fun _ _ => ?_,?_⟩⟩
    · constructor
      · intro none misses
        have above := misses.rises.above
        omega
      · intro hits
        by_contra some
        exact hits ⟨rises (by omega),by rw [reset]; rfl⟩
    · rw [Nat.zero_add,Nat.zero_add]
      exact fair_charge spec rise within rfl rfl
  | none =>
    rw [reset] at moved
    obtain ⟨above,reach,done⟩ := moved
    have running : (mid.half rs.streamId).recv.Running := by
      rw [half]
      unfold RecvStream.Sound at sound
      rw [reset] at sound
      exact sound
    have moved := reset_effect once counted spec.there running sound' (half.symm ▸ shorter) (half.symm ▸ above) reach done
    have all := (moved.trans (charge_effect _ delta)).trans (credit_effect _ (rs.finalSize-t.readOffset))
    refine ⟨⟨_,_,_,_,gone.then all,?_,fun _ _ => ?_,?_⟩⟩
    · rw [half,read]
      omega
    · rw [half]
      constructor
      · intro _ misses
        have again := misses.kept
        rw [reset] at again
        cases again
      · intro _
        omega
    · rw [Nat.zero_add,Nat.zero_add,Nat.add_zero]
      exact fair_charge spec rise within rfl (credit_flow _ _)

end

end QuicZig.Conn.Inbound
