import QuicZig.Conn.SendFlowSpec

/-! Stream data within the peer's credit: packets plan the chunks of several streams before
any of them counts, and the highest offsets sent add up to what the connection counts. -/
namespace QuicZig.Conn.SendFlow
open Machine Paths Streams HighWater Relation

section
variable {mayReset : Stream → Prop}

theorem emitted_varint {params : Tls.TransportParams.Params} (fits : Tls.TransportParams.VarintsFit params)
    {k : Tls.TransportParams.Known} {v : Nat}
    (here : params.shape k = Tls.TransportParams.emitIf (v ≠ 0) (.varintParam v)) : v ≤ Wire.Varint.maxValue := by
  by_cases zero : v = 0
  · omega
  · exact fits k v (by rw [here]; simp [Tls.TransportParams.emitIf,zero])

theorem decode_fits {blob : List Byte} {params : Tls.TransportParams.Params}
    (ok : Tls.TransportParams.decode blob = .ok params) : Tls.TransportParams.VarintsFit params := by
  obtain ⟨triples,_,_,_,_,rfl⟩ := (Tls.TransportParams.decode_iff blob params).mp ok
  exact Tls.TransportParams.assemble_fits _

/-- The parameters leave room for what was sent before they came: the connection's limit, and the limits of the
streams that had none. -/
def Affords (conn : Connection) (params : Tls.TransportParams.Params) : Prop :=
  conn.weSentStreamData ≤ params.initialMaxData ∧ ∀ s ∈ conn.streams, s.sendMaxData = maxU64 →
    s.sendFlowHighest ≤ {conn with cachedPeerTransportParams := some params}.initialSendStreamLimit s.id

instance (conn : Connection) (params : Tls.TransportParams.Params) : Decidable (Affords conn params) :=
  inferInstanceAs (Decidable (_ ∧ _))

theorem apply_calm {conn : Connection} {params : Tls.TransportParams.Params} (affords : Affords conn params)
    (bound : params.initialMaxData ≤ maxU64) :
    Calm mayReset conn ({conn with cachedPeerTransportParams := some params}.applyPeerFlowTransportParams params) := by
  refine ids_calm rfl {IdSpaces.SameIds.refl conn.ids with localBidiIds := ⟨rfl,rfl⟩,localUniIds := ⟨rfl,rfl⟩} rfl
    (fun _ _ => ⟨affords.1,bound⟩) ?_ (fun t member => ?_)
  · unfold Connection.applyPeerFlowTransportParams
    rw [List.map_map]
    exact .refl _
  · obtain ⟨s,there,rfl⟩ := List.mem_map.mp member
    refine ⟨s,there,.single (.limit _ fun within => ?_)⟩
    by_cases none : s.sendMaxData = maxU64
    · rw [if_pos none]
      exact (affords.2 s there none).trans (le_max_right _ _)
    · rw [if_neg none]
      exact within.trans (le_max_left _ _)

theorem validate_calm {conn : Connection} {params : Tls.TransportParams.Params} (fits : Tls.TransportParams.VarintsFit params)
    (affords : Connection.limitsError params = none → Affords conn params) :
    Calm mayReset conn {conn with cachedPeerTransportParams := some params}.validatePeerTransportLimits := by
  have cached : Calm mayReset conn {conn with cachedPeerTransportParams := some params} := .same rfl rfl rfl rfl rfl
  unfold Connection.validatePeerTransportLimits
  dsimp only
  cases refused : Connection.limitsError params with
  | some reason => exact cached.trans (close_calm _ _ _ _)
  | none =>
    refine apply_calm (affords refused) ?_
    have small := emitted_varint fits (k := .initialMaxData) rfl
    exact small.trans (by decide)

/-- The condition of a step: whenever the peer's parameters are applied, or remembered ones bound the limits,
they leave room for what was sent before. -/
def Affordable (h : History) (e : Event) : Prop :=
  match e.call with
  | .peerTransportParams _ => ∀ params ∈ h.conn.applicable, Affords h.conn params
  | .cachePeerTransportParams _ =>
    h.conn.cachedPeerTransportParams = none → ∀ params ∈ h.conn.applicable, Affords h.conn params
  | .setRememberedPeerTransportParams params =>
    h.conn.cachedPeerTransportParams = none → h.conn.weSentStreamData ≤ params.initialMaxData
  | _ => True

theorem applicable_spec {conn : Connection} {params : Tls.TransportParams.Params} (here : conn.applicable = some params) :
    ∃ blob, conn.peerQuicTransportParams = some blob ∧ Tls.TransportParams.decode blob = .ok params ∧
      Connection.limitsError params = none := by
  unfold Connection.applicable at here
  cases blob : conn.peerQuicTransportParams with
  | none => simp [blob] at here
  | some bytes =>
    rw [blob] at here
    dsimp only at here
    cases decoded : Tls.TransportParams.decode bytes with
    | error e => simp [decoded] at here
    | ok p =>
      rw [decoded] at here
      dsimp only at here
      split at here
      · rename_i none
        cases here
        exact ⟨bytes,rfl,decoded,none⟩
      · cases here

theorem applicable_intro {conn : Connection} {params : Tls.TransportParams.Params} {blob : List Byte}
    (there : conn.peerQuicTransportParams = some blob) (ok : Tls.TransportParams.decode blob = .ok params)
    (fine : Connection.limitsError params = none) : conn.applicable = some params := by
  unfold Connection.applicable
  simp only [there,ok,if_pos fine]

theorem peerTransportParams_calm (conn : Connection) (refused : Option ConnectionClose)
    (affords : ∀ params ∈ conn.applicable, Affords conn params) : Calm mayReset conn (conn.peerTransportParams refused).2 := by
  unfold Connection.peerTransportParams
  split
  · exact .refl conn
  rename_i blob there
  cases decoded : Tls.TransportParams.decode blob with
  | error e => exact .refl conn
  | ok params =>
    exact (validate_calm (decode_fits decoded) fun fine => affords params (applicable_intro there decoded fine)).trans
      (checkRest_calm _ refused)

theorem reduction_calm (conn : Connection) : Calm mayReset conn conn.validateEarlyDataParamReduction := by
  unfold Connection.validateEarlyDataParamReduction
  split
  · split
    · exact close_calm _ _ _ _
    · exact .refl conn
  · exact .refl conn

theorem cachePeerTransportParams_calm (conn : Connection) (refused : Option ConnectionClose)
    (affords : conn.cachedPeerTransportParams = none → ∀ params ∈ conn.applicable, Affords conn params) :
    Calm mayReset conn (conn.cachePeerTransportParams refused).2 := by
  unfold Connection.cachePeerTransportParams
  split
  · exact .refl conn
  rename_i uncached
  split
  · exact .refl conn
  rename_i blob there
  cases decoded : Tls.TransportParams.decode blob with
  | error e => exact .refl conn
  | ok params =>
    have none : conn.cachedPeerTransportParams = none := by simpa using uncached
    exact ((validate_calm (decode_fits decoded) fun fine => affords none params (applicable_intro there decoded fine)).trans
      (checkRest_calm _ refused)).trans (reduction_calm _)

theorem remember_calm (conn : Connection) (params : Tls.TransportParams.Params)
    (affords : conn.cachedPeerTransportParams = none → conn.weSentStreamData ≤ params.initialMaxData) :
    Calm mayReset conn (conn.setRememberedPeerTransportParams params) := by
  unfold Connection.setRememberedPeerTransportParams
  dsimp only
  split
  · rename_i none
    refine ids_calm rfl {IdSpaces.SameIds.refl conn.ids with localBidiIds := ⟨rfl,rfl⟩,localUniIds := ⟨rfl,rfl⟩} rfl
      (fun within bound => ⟨?_,?_⟩) (.refl _) (fun t member => ⟨t,member,.refl⟩)
    · exact le_min within (affords none)
    · exact (min_le_left _ _).trans bound
  · exact .same rfl rfl rfl rfl rfl

/-- A step that builds no packet: a stream may be opened, and streams move. -/
structure Packetless (mayReset : Stream → Prop) (h after : History) : Prop where
  moves : Moves mayReset h.conn after.conn
  built : after.built = h.built
  sent : after.sent = h.sent
  resets : after.resets = h.resets

theorem Packetless.of_calm {h after : History} (calm : Calm mayReset h.conn after.conn) (built : after.built = h.built)
    (sent : after.sent = h.sent) (resets : after.resets = h.resets) : Packetless mayReset h after :=
  ⟨calm.moves,built,sent,resets⟩

theorem Packetless.note {h after : History} (less : Packetless mayReset h after) (credit : Credit) (value : Nat) :
    Packetless mayReset h (after.note credit value) := by
  unfold History.note
  split
  · exact ⟨less.moves,less.built,less.sent,less.resets⟩
  · exact less

def StepMayReset (mayReset : Stream → Prop) (h : History) (e : Event) : Prop :=
  match e.call with
  | .streamReset id _ => MayReset mayReset h.conn id
  | .stopSending ss => MayReset mayReset h.conn ss.streamId
  | _ => True

theorem callStep_packetless (h : History) (e : Event) (affordable : Affordable h e) (may : StepMayReset mayReset h e) :
    Packetless mayReset h (callStep h e.grants e.call) := by
  obtain ⟨call,grants⟩ := e
  have same {after : History} (role : after.conn.role = h.conn.role) (ids : after.conn.ids = h.conn.ids)
      (weSent : after.conn.weSentStreamData = h.conn.weSentStreamData) (peerMaxData : after.conn.peerMaxData = h.conn.peerMaxData)
      (streams : after.conn.streams = h.conn.streams) (built : after.built = h.built) (sent : after.sent = h.sent)
      (resets : after.resets = h.resets) : Packetless mayReset h after :=
    .of_calm (.same role ids weSent peerMaxData streams) built sent resets
  cases call with
  | openBidi id => exact ⟨(openBidi_grown grants h.conn id).moves,rfl,rfl,rfl⟩
  | openUni id => exact ⟨(openUni_grown grants h.conn id).moves,rfl,rfl,rfl⟩
  | streamWrite id budgetLeft data => exact .of_calm (streamWrite_calm grants budgetLeft h.conn id data) rfl rfl rfl
  | streamFinish id => exact .of_calm (streamFinish_calm h.conn id) rfl rfl rfl
  | streamReset id code => exact .of_calm (streamReset_calm h.conn id code may) rfl rfl rfl
  | streamStopSending id => exact ⟨(streamStopSending_grown grants h.conn id).moves,rfl,rfl,rfl⟩
  | setRememberedPeerTransportParams params => exact .of_calm (remember_calm h.conn params affordable) rfl rfl rfl
  | peerTransportParams refused => exact .of_calm (peerTransportParams_calm h.conn refused affordable) rfl rfl rfl
  | cachePeerTransportParams refused => exact .of_calm (cachePeerTransportParams_calm h.conn refused affordable) rfl rfl rfl
  | close error => exact .of_calm (close_calm h.conn _ _ _) rfl rfl rfl
  | raisePeerLimit bidi limit =>
    refine .of_calm (ids_calm rfl ?_ rfl (fun within bound => ⟨within,bound⟩) (.refl _) (fun t member => ⟨t,member,.refl⟩))
      rfl rfl rfl
    cases bidi
    · exact {IdSpaces.SameIds.refl h.conn.ids with peerUniIds := ⟨rfl,rfl⟩}
    · exact {IdSpaces.SameIds.refl h.conn.ids with peerBidiIds := ⟨rfl,rfl⟩}
  | reclaim id recvDone => exact .of_calm (reclaim_calm recvDone h.conn id) rfl rfl rfl
  | _ => exact same rfl rfl rfl rfl rfl rfl rfl rfl

theorem frameStep_packetless (h : History) (e : Event) (noPoll : ∀ p, e.call ≠ .poll p)
    (fresh : ∀ s : Stream, s.sendFlowHighest = 0 → s.send.writeOffset = 0 → mayReset s) (may : StepMayReset mayReset h e) :
    Packetless mayReset h (frameStep h e.grants e.call) := by
  obtain ⟨call,grants⟩ := e
  cases call with
  | maxData md varint =>
    have less : Packetless mayReset h {h with conn := h.conn.handleMaxData md} :=
      .of_calm (handleMaxData_calm h.conn md varint) rfl rfl rfl
    exact less.note _ _
  | maxStreamData msd varint =>
    have less : Packetless mayReset h {h with conn := (h.conn.handleMaxStreamData grants msd).2} :=
      ⟨handleMaxStreamData_moves grants h.conn msd,rfl,rfl,rfl⟩
    dsimp only [frameStep]
    cases outcome : h.conn.handleMaxStreamData grants msd with
    | mk result conn =>
    rw [outcome] at less
    cases result with
    | error e => exact less
    | ok _ =>
      dsimp only
      split
      · exact less.note _ _
      · exact less
  | maxStreams ms =>
    have less : Packetless mayReset h {h with conn := h.conn.handleMaxStreams ms} :=
      .of_calm (handleMaxStreams_calm h.conn ms) rfl rfl rfl
    dsimp only [frameStep]
    split
    · exact less.note _ _
    · exact less
  | stopSending ss => exact ⟨handleStopSending_moves grants h.conn ss fresh may,rfl,rfl,rfl⟩
  | peerFrame id frame => exact ⟨(ensurePeerStream_spec grants h.conn id frame).moves,rfl,rfl,rfl⟩
  | acked id key => exact .of_calm (dispatchAcked_calm grants h.conn id key) rfl rfl rfl
  | lost id key => exact .of_calm (dispatchLost_calm grants h.conn id key) rfl rfl rfl
  | probeRequeued id key => exact .of_calm (dispatchProbe_calm grants h.conn id key) rfl rfl rfl
  | resetAcked rs => exact .of_calm (dispatchReset_calm h.conn rs SendStream.onResetAcked onResetAcked_move) rfl rfl rfl
  | resetLost rs => exact .of_calm (dispatchReset_calm h.conn rs SendStream.onResetLost onResetLost_move) rfl rfl rfl
  | poll p => exact absurd rfl (noPoll p)
  | _ => exact .of_calm (.refl _) rfl rfl rfl

theorem step_packetless (h : History) (e : Event) (affordable : Affordable h e) (noPoll : ∀ p, e.call ≠ .poll p)
    (fresh : ∀ s : Stream, s.sendFlowHighest = 0 → s.send.writeOffset = 0 → mayReset s) (may : StepMayReset mayReset h e) :
    Packetless mayReset h (step h e) := by
  unfold step
  split
  · exact frameStep_packetless h e noPoll fresh may
  · exact callStep_packetless h e affordable may

/-- The connection counts each stream up to the highest offset it sent, and stays within the peer's limit. -/
structure Accounted (offsets : List (Nat × Nat)) (conn : Connection) : Prop where
  ids : conn.ids.Sound
  names : (conn.streams.map (·.id)).Nodup
  live : ∀ s ∈ conn.streams, conn.ids.Used conn.role s.id
  logged : ∀ entry ∈ offsets, conn.ids.Used conn.role entry.1
  metered : ∀ s ∈ conn.streams, Metered s
  marks : ∀ s ∈ conn.streams, mark offsets s.id = s.sendFlowHighest
  total : total offsets = conn.weSentStreamData
  within : conn.weSentStreamData ≤ conn.peerMaxData
  bound : conn.peerMaxData ≤ maxU64

variable {offsets : List (Nat × Nat)}

theorem Accounted.calm {conn after : Connection} (accounted : Accounted offsets conn) (calm : Calm mayReset conn after) :
    Accounted offsets after := by
  obtain ⟨within,bound⟩ := calm.ceiling accounted.within accounted.bound
  refine ⟨calm.sound accounted.ids,calm.names.nodup accounted.names,fun t member => ?_,fun entry noted => ?_,fun t member => ?_,
    fun t member => ?_,accounted.total.trans calm.weSent.symm,calm.weSent.symm ▸ within,bound⟩
  · obtain ⟨s,there,moves⟩ := calm.streams t member
    rw [calm.role,(StreamMove.all_same moves).1]
    exact calm.used s.id (accounted.live s there)
  · rw [calm.role]
    exact calm.used entry.1 (accounted.logged entry noted)
  · obtain ⟨s,there,moves⟩ := calm.streams t member
    exact (accounted.metered s there).moves moves
  · obtain ⟨s,there,moves⟩ := calm.streams t member
    rw [(StreamMove.all_same moves).1,(StreamMove.all_same moves).2]
    exact accounted.marks s there

theorem metered_fresh {s : Stream} {maxBuffered : Nat} (send : s.send = SendStream.init maxBuffered)
    (none : s.sendFlowHighest = 0) : Metered s := by
  have fresh : SendRun.Fresh {stream := SendStream.init maxBuffered} := ⟨maxBuffered,rfl⟩
  refine ⟨fun _ => ⟨[],[],?_⟩,by rw [none]; exact Nat.zero_le _,by rw [none]; exact Nat.zero_le _⟩
  rw [send,none]
  exact ⟨SendRun.fresh_coherent _ fresh,SendRun.below_fresh _ fresh⟩

theorem Accounted.opened {id : Nat} {conn after : Connection} (accounted : Accounted offsets conn)
    (opened : Opened id conn after) : Accounted offsets after := by
  obtain ⟨new,streams,named,none,_,maxBuffered,send⟩ := opened.streams
  have fresh := opened.fresh accounted.ids
  have used := opened.used accounted.ids
  have unmarked : mark offsets id = 0 := by
    refine mark_absent fun member => ?_
    obtain ⟨entry,noted,rfl⟩ := List.mem_map.mp (List.mem_toFinset.mp member)
    exact fresh (accounted.logged entry noted)
  refine ⟨opened.sound accounted.ids,?_,?_,?_,?_,?_,accounted.total.trans opened.weSent.symm,?_,?_⟩
  · rw [streams,List.map_append,List.nodup_append]
    refine ⟨accounted.names,by simp,?_⟩
    intro a old b last equal
    obtain ⟨s,there,rfl⟩ := List.mem_map.mp old
    have last' : b = id := by simpa [named] using last
    exact fresh (last' ▸ equal ▸ accounted.live s there)
  · intro t member
    rw [opened.role,used]
    rw [streams] at member
    rcases List.mem_append.mp member with old | last
    · exact .inl (accounted.live t old)
    · rw [List.mem_singleton.mp last]
      exact .inr named
  · intro entry noted
    rw [opened.role,used]
    exact .inl (accounted.logged entry noted)
  · intro t member
    rw [streams] at member
    rcases List.mem_append.mp member with old | last
    · exact accounted.metered t old
    · rw [List.mem_singleton.mp last]
      exact metered_fresh send none
  · intro t member
    rw [streams] at member
    rcases List.mem_append.mp member with old | last
    · exact accounted.marks t old
    · rw [List.mem_singleton.mp last,named,unmarked,none]
  · rw [opened.weSent,opened.peerMaxData]
    exact accounted.within
  · rw [opened.peerMaxData]
    exact accounted.bound

theorem Accounted.moves {conn after : Connection} (accounted : Accounted offsets conn) (moves : Moves mayReset conn after) :
    Accounted offsets after := by
  obtain ⟨id,mid,grown,calm⟩ := moves
  rcases grown with rfl | opened
  · exact accounted.calm calm
  · exact (accounted.opened opened).calm calm

/-- A chunk of a stream that may go out: it is the next one of its size, and ends within the stream's limit. -/
structure Planned (s : Stream) (chunk : Chunk) : Prop where
  peeked : s.send.peekChunk chunk.length = some chunk
  within : chunk.offset+chunk.length ≤ s.sendMaxData
  written : chunk.offset+chunk.length ≤ s.send.writeOffset
  /-- A chunk with new bytes ends where a 64-bit offset reaches. -/
  counted : s.sendFlowHighest < chunk.offset+chunk.length → chunk.offset+chunk.length ≤ maxU64

theorem peeked_running {s : SendStream} {n : Nat} {chunk : Chunk} (peeked : s.peekChunk n = some chunk) : s.reset = none := by
  unfold SendStream.peekChunk at peeked
  split at peeked
  · cases peeked
  · rename_i idle
    simpa using idle

theorem streamFlowNewBytes_eq {s : Stream} {chunk : Chunk} (planned : Planned s chunk) :
    Connection.streamFlowNewBytes s chunk = chunk.offset+chunk.length-s.sendFlowHighest := by
  have counted := planned.counted
  unfold Connection.streamFlowNewBytes checkedAdd
  split
  · rename_i overflow
    have : ¬ chunk.offset+chunk.length ≤ maxU64 := by
      intro fits
      simp [fits] at overflow
    omega
  · rename_i stop sum
    have exact' : stop = chunk.offset+chunk.length := by grind
    subst exact'
    split <;> omega

theorem end_within {stop highest streamNew connNew cap sendEnd : Nat}
    (limited : min stop (min (min stop highest + min streamNew connNew) cap) = sendEnd) :
    sendEnd ≤ stop ∧ sendEnd ≤ highest+streamNew ∧ sendEnd-highest ≤ connNew := by
  omega

theorem limitChunk_planned {conn : Connection} {s : Stream} {raw chunk : Chunk} {noted : Bool} {budget planned : Nat}
    (metered : Metered s) (bound : conn.peerMaxData ≤ maxU64) (within : conn.weSentStreamData+planned ≤ conn.peerMaxData)
    (room : 0 < budget) (peeked : s.send.peekChunk budget = some raw)
    (limited : conn.limitChunkToSendFlowAfterPlanned noted s raw planned = .ok (some chunk)) :
    Planned s chunk ∧ conn.weSentStreamData+planned+(chunk.offset+chunk.length-s.sendFlowHighest) ≤ conn.peerMaxData := by
  obtain ⟨written,acked,coherent,below⟩ := metered.running (peeked_running peeked)
  have limit := metered.limit
  have reach := metered.reach
  obtain ⟨_,_,shape⟩ := SendStream.peekChunk_spec coherent.pending peeked
  unfold Connection.limitChunkToSendFlowAfterPlanned at limited
  split at limited
  · simp at limited
  split at limited
  · rename_i none
    cases limited
    rcases shape with ⟨r,rest,pending,offset,stop,_⟩ | ⟨empty,due,offset,length,fin⟩
    · -- A range is not empty and neither is the budget, so a chunk without bytes comes from no range.
      have proper := coherent.pending.proper r (by change r ∈ s.send.pending; rw [pending]; exact List.mem_cons_self)
      have whole := peeked
      unfold SendStream.peekChunk at whole
      rw [peeked_running peeked] at whole
      rw [pending] at whole
      simp only [Option.isSome_none,Bool.false_eq_true,if_false,Option.some.injEq] at whole
      rw [← whole] at none
      dsimp only at none
      omega
    · have marked : s.send.finMarked = true := by
        simp only [SendStream.finDue,Bool.and_eq_true] at due
        exact due.1.1
      have size : s.send.finalSize = some s.send.writeOffset := coherent.sized marked
      have atEnd : raw.offset+raw.length = s.send.writeOffset := by
        rw [offset,length,size]
        rfl
      have caught : s.sendFlowHighest = s.send.writeOffset := by
        by_contra behind
        have covered := below.unsent s.sendFlowHighest le_rfl (by change s.sendFlowHighest < s.send.writeOffset; omega)
        change RangeList.Covered s.send.pending _ at covered
        rw [empty] at covered
        exact Spans.covers_nil _ covered
      refine ⟨⟨?_,by omega,by omega,by omega⟩,by omega⟩
      unfold SendStream.peekChunk at peeked ⊢
      rw [empty] at peeked ⊢
      exact peeked
  rename_i long
  split at limited
  · simp at limited
  rename_i chunkEnd sum
  have exact' : chunkEnd = raw.offset+raw.length ∧ raw.offset+raw.length ≤ maxU64 := by
    unfold checkedAdd at sum
    grind
  obtain ⟨rfl,fits⟩ := exact'
  rcases shape with ⟨r,rest,pending,offset,stop,fin⟩ | ⟨_,_,_,length,_⟩
  swap
  · exact absurd length long
  have start : raw.offset ≤ s.sendFlowHighest := by
    by_contra above
    have inside := coherent.pendingEnd raw.offset (by
      change RangeList.Covered s.send.pending _
      rw [pending,RangeList.covered_cons]
      exact .inl ⟨offset.ge,by omega⟩)
    have covered := below.unsent s.sendFlowHighest le_rfl (by change s.sendFlowHighest < s.send.writeOffset; change raw.offset < s.send.writeOffset at inside; omega)
    change RangeList.Covered s.send.pending _ at covered
    have sorted := coherent.pending
    change RangeList.Sorted s.send.pending at sorted
    rw [pending] at covered sorted
    rcases (RangeList.covered_cons _ _ _).mp covered with ⟨low,_⟩ | later
    · omega
    · have := sorted.beyond later
      omega
  have last : raw.offset+raw.length ≤ s.send.writeOffset := by
    have inside := coherent.pendingEnd (raw.offset+raw.length-1) (by
      change RangeList.Covered s.send.pending _
      rw [pending,RangeList.covered_cons]
      exact .inl ⟨by omega,by omega⟩)
    change raw.offset+raw.length-1 < s.send.writeOffset at inside
    omega
  have sent : saturatingAdd conn.weSentStreamData planned = conn.weSentStreamData+planned := min_eq_left (within.trans bound)
  have retransmit : (if raw.offset < s.sendFlowHighest then min (raw.offset+raw.length) s.sendFlowHighest else raw.offset) =
      min (raw.offset+raw.length) s.sendFlowHighest := by
    split <;> omega
  dsimp only at limited
  rw [sent,retransmit] at limited
  split at limited
  · cases limited
  unfold saturatingAdd at limited
  generalize sendEnd : min (raw.offset+raw.length) (min (min (raw.offset+raw.length) s.sendFlowHighest +
    min (s.sendMaxData-s.sendFlowHighest) (conn.peerMaxData-(conn.weSentStreamData+planned))) maxU64) = stop' at limited
  obtain ⟨inside,streamEnd,connEnd⟩ := end_within sendEnd
  clear sendEnd retransmit sent
  split at limited
  · simp at limited
  rename_i more
  simp only [Except.ok.injEq,Option.some.injEq] at limited
  have ends : chunk.offset+chunk.length = stop' := by
    rw [← limited]
    dsimp only
    omega
  have start' : chunk.offset = raw.offset := by rw [← limited]
  have shorter : chunk.length ≤ r.stop-r.offset := by omega
  refine ⟨⟨?_,by omega,by omega,by omega⟩,by omega⟩
  -- The shorter chunk carries the FIN just in case it reaches the final size.
  have carries : (s.send.finDue && (s.send.finalSize == some stop')) = (raw.fin && decide (stop' = raw.offset+raw.length)) := by
    change raw.fin = (s.send.finDue && (s.send.finalSize == some (raw.offset+raw.length))) at fin
    rw [fin]
    by_cases due : s.send.finDue = true
    · have marked : s.send.finMarked = true := by
        simp only [SendStream.finDue,Bool.and_eq_true] at due
        exact due.1.1
      have size : s.send.finalSize = some s.send.writeOffset := coherent.sized marked
      rw [due,size,Bool.true_and,Bool.true_and,Bool.eq_iff_iff]
      simp only [Bool.and_eq_true,beq_iff_eq,Option.some.injEq,decide_eq_true_eq]
      omega
    · simp [due]
  have shape' := peeked
  unfold SendStream.peekChunk at shape' ⊢
  change s.send.pending = r::rest at pending
  rw [peeked_running peeked,pending] at shape' ⊢
  simp only [Option.isSome_none,Bool.false_eq_true,if_false,Option.some.injEq] at shape' ⊢
  have place : r.offset+chunk.length = stop' := by rw [← offset,← start',ends]
  rw [min_eq_left shorter,place,carries,← limited,← shape']

theorem metered_sent {s : Stream} {chunk : Chunk} (metered : Metered s) (planned : Planned s chunk) (key : Nat) :
    Metered {s with
      send := (s.send.recordSent false key chunk).2,sendFlowHighest := max s.sendFlowHighest (chunk.offset+chunk.length)} := by
  obtain ⟨peeked,within,written',_⟩ := planned
  have limit := metered.limit
  have reach := metered.reach
  obtain ⟨written,acked,coherent,below⟩ := metered.running (peeked_running peeked)
  have coherent' := SendRun.coherent_step _ ⟨.send key chunk.length,fun _ => false⟩ coherent
  have step : SendRun.step ⟨s.send,written,acked⟩ ⟨.send key chunk.length,fun _ => false⟩ =
      ⟨(s.send.recordSent false key chunk).2,written,acked⟩ := by
    unfold SendRun.step
    simp only [peeked]
  rw [step] at coherent'
  obtain ⟨_,_,result⟩ := SendStream.recordSent_peeked coherent.pending coherent.inFlight coherent.pendingEnd coherent.sized
    false key chunk.length chunk peeked
  have up : s.sendFlowHighest ≤ max s.sendFlowHighest (chunk.offset+chunk.length) := le_max_left _ _
  have fits : max s.sendFlowHighest (chunk.offset+chunk.length) ≤ s.send.writeOffset := max_le reach written'
  have moved : SendRun.Below (max s.sendFlowHighest (chunk.offset+chunk.length))
        ⟨(s.send.recordSent false key chunk).2,written,acked⟩ ∧
      (s.send.recordSent false key chunk).2.writeOffset = s.send.writeOffset := by
    rcases result with ⟨_,effect⟩ | ⟨_,⟨⟨inFlight,frame⟩,alive⟩⟩
    · refine ⟨SendRun.below_sent below effect up (le_max_right _ _) fits,?_⟩
      obtain ⟨_,_,_,frame⟩ := effect.frame
      change (s.send.recordSent false key chunk).2 = _ at frame
      rw [frame]
    · change (s.send.recordSent false key chunk).2 = _ at frame
      change (s.send.recordSent false key chunk).2.inFlight.alive = _ at alive
      have raised := below.raise up fits
      refine ⟨⟨?_,fun pn c held => raised.inFlight pn c ?_,?_,?_⟩,by rw [frame]⟩
      · rw [frame]
        exact raised.unsent
      · unfold InFlightMap.Holds at held ⊢
        rwa [alive] at held
      · rw [frame]
        exact raised.acked
      · rw [frame]
        exact raised.reach
  exact ⟨fun _ => ⟨written,acked,coherent',moved.1⟩,by rw [moved.2]; exact fits,max_le limit within⟩

def sentOne (sc : SentStreamChunk) (s : Stream) : Stream :=
  {s with
    send := (s.send.recordSent false sc.streamKey sc.chunk).2
    sendFlowHighest := max s.sendFlowHighest (sc.chunk.offset+sc.chunk.length)}

theorem commitChunk_eq {conn : Connection} {sc : SentStreamChunk} {s : Stream} (found : conn.get sc.streamId = some s)
    (planned : Planned s sc.chunk) : conn.commitChunk sc = {conn.modify sc.streamId (sentOne sc) with
      weSentStreamData := conn.weSentStreamData+(sc.chunk.offset+sc.chunk.length-s.sendFlowHighest)} := by
  have counted := planned.counted
  let record (t : Stream) : Stream := {t with send := (t.send.recordSent false sc.streamKey sc.chunk).2}
  have named : ∀ t, (record t).id = t.id := fun _ => rfl
  have recorded : (conn.modify sc.streamId record).get sc.streamId = some (record s) := by
    rw [get_modify named,found]
    rfl
  change (conn.modify sc.streamId record).recordStreamFlowSent sc.streamId sc.chunk = _
  unfold Connection.recordStreamFlowSent
  rw [recorded]
  dsimp only
  by_cases more : s.sendFlowHighest < sc.chunk.offset+sc.chunk.length
  · have sum : checkedAdd sc.chunk.offset sc.chunk.length = some (sc.chunk.offset+sc.chunk.length) := if_pos (counted more)
    rw [sum]
    dsimp only
    rw [if_neg (show ¬ sc.chunk.offset+sc.chunk.length ≤ (record s).sendFlowHighest from not_le.mpr more),
      modify_modify named]
    have same : conn.modify sc.streamId ((fun t => {t with sendFlowHighest := sc.chunk.offset+sc.chunk.length}) ∘ record) =
        conn.modify sc.streamId (sentOne sc) := by
      refine modify_congr found ?_
      simp only [Function.comp_apply,sentOne,record]
      rw [max_eq_right (Nat.le_of_lt more)]
    rw [same]
    rfl
  · have none : sc.chunk.offset+sc.chunk.length-s.sendFlowHighest = 0 := by omega
    have same : conn.modify sc.streamId record = conn.modify sc.streamId (sentOne sc) := by
      refine modify_congr found ?_
      unfold sentOne
      rw [max_eq_left (by omega)]
    rw [none,Nat.add_zero,← same]
    split
    · rfl
    · rename_i stop sum
      have exact' : stop = sc.chunk.offset+sc.chunk.length := by
        unfold checkedAdd at sum
        grind
      rw [if_pos (by rw [exact']; exact not_lt.mp more)]
      rfl

/-- The stream that a search by id finds, and the rest of the table, which has other ids. -/
theorem get_split {conn : Connection} (names : (conn.streams.map (·.id)).Nodup) {id : Nat} {s : Stream}
    (found : conn.get id = some s) : s.id = id ∧ s ∈ conn.streams ∧ ∀ f : Stream → Stream,
      ∀ t ∈ (conn.modify id f).streams, t = f s ∨ (t ∈ conn.streams ∧ t.id ≠ id) := by
  have named : s.id = id := by simpa using List.find?_some found
  obtain ⟨before,after,whole,changed⟩ := FirstMatch.update_split found
  refine ⟨named,List.mem_of_find?_eq_some found,fun f t member => ?_⟩
  change t ∈ FirstMatch.update _ f conn.streams at member
  rw [changed f] at member
  rw [whole,List.map_append,List.map_cons,List.nodup_append] at names
  obtain ⟨_,later,cross⟩ := names
  rw [whole]
  rcases List.mem_append.mp member with early | rest
  · refine .inr ⟨List.mem_append_left _ early,fun same => ?_⟩
    exact cross t.id (List.mem_map_of_mem early) s.id List.mem_cons_self (same.trans named.symm)
  · rcases List.mem_cons.mp rest with here | late
    · exact .inl here
    · refine .inr ⟨List.mem_append_right _ (List.mem_cons_of_mem _ late),fun same => ?_⟩
      exact (List.nodup_cons.mp later).1 (named ▸ same ▸ List.mem_map_of_mem late)

theorem Accounted.commit {conn : Connection} (accounted : Accounted offsets conn) {sc : SentStreamChunk} {s : Stream}
    (found : conn.get sc.streamId = some s) (planned : Planned s sc.chunk)
    (room : conn.weSentStreamData+(sc.chunk.offset+sc.chunk.length-mark offsets sc.streamId) ≤ conn.peerMaxData) :
    Accounted ((sc.streamId,sc.chunk.offset+sc.chunk.length)::offsets) (conn.commitChunk sc) := by
  obtain ⟨named,there,others⟩ := get_split accounted.names found
  have marked : mark offsets sc.streamId = s.sendFlowHighest := named ▸ accounted.marks s there
  rw [commitChunk_eq found planned]
  refine ⟨accounted.ids,?_,fun t member => ?_,fun entry noted => ?_,fun t member => ?_,fun t member => ?_,?_,?_,accounted.bound⟩
  · change ((FirstMatch.update _ _ conn.streams).map (·.id)).Nodup
    rw [FirstMatch.map_update (f := sentOne sc) fun _ => rfl]
    exact accounted.names
  · rcases others _ t member with rfl | ⟨old,_⟩
    · exact accounted.live s there
    · exact accounted.live t old
  · rcases List.mem_cons.mp noted with rfl | old
    · dsimp only
      rw [← named]
      exact accounted.live s there
    · exact accounted.logged entry old
  · rcases others _ t member with rfl | ⟨old,_⟩
    · exact metered_sent (accounted.metered s there) planned sc.streamKey
    · exact accounted.metered t old
  · rcases others _ t member with rfl | ⟨old,other⟩
    · change mark _ s.id = max s.sendFlowHighest _
      rw [named,mark_same,marked,max_comm]
    · rw [mark_other (Ne.symm other)]
      exact accounted.marks t old
  · rw [total_cons,marked,accounted.total]
  · rw [marked] at room
    exact room

def charge (offsets : List (Nat × Nat)) (sc : SentStreamChunk) : Nat :=
  sc.chunk.offset+sc.chunk.length-mark offsets sc.streamId

structure Ready (offsets : List (Nat × Nat)) (conn : Connection) (sent : List SentStreamChunk) : Prop where
  accounted : Accounted offsets conn
  chunks : ∀ sc ∈ sent, ∃ s, conn.get sc.streamId = some s ∧ Planned s sc.chunk
  distinct : (sent.map (·.streamId)).Nodup
  room : conn.weSentStreamData+(sent.map (charge offsets)).sum ≤ conn.peerMaxData

theorem commitChunk_get {conn : Connection} {sc : SentStreamChunk} {s : Stream} (found : conn.get sc.streamId = some s)
    (planned : Planned s sc.chunk) {id : Nat} (other : id ≠ sc.streamId) : (conn.commitChunk sc).get id = conn.get id := by
  rw [commitChunk_eq found planned]
  exact get_modify_other (f := sentOne sc) (fun _ => rfl) conn other

/-- The chunks of a packet are committed one by one, each against the credit that all of them had together. -/
theorem Ready.commit {conn : Connection} {sent : List SentStreamChunk} (ready : Ready offsets conn sent) :
    Accounted ((sent.map fun sc => (sc.streamId,sc.chunk.offset+sc.chunk.length)).reverse ++ offsets)
      (conn.commitChunks sent) := by
  induction sent generalizing conn offsets with
  | nil => exact ready.accounted
  | cons sc rest ih =>
    obtain ⟨accounted,chunks,distinct,room⟩ := ready
    obtain ⟨s,found,planned⟩ := chunks sc List.mem_cons_self
    obtain ⟨named,there,_⟩ := get_split accounted.names found
    obtain ⟨apart,distinct⟩ := List.nodup_cons.mp distinct
    have others : ∀ next ∈ rest, next.streamId ≠ sc.streamId :=
      fun next member same => apart (List.mem_map.mpr ⟨next,member,same⟩)
    have charges : rest.map (charge ((sc.streamId,sc.chunk.offset+sc.chunk.length)::offsets)) = rest.map (charge offsets) := by
      refine List.map_congr_left fun next member => ?_
      unfold charge
      rw [mark_other (others next member).symm]
    have marked : charge offsets sc = sc.chunk.offset+sc.chunk.length-s.sendFlowHighest := by
      unfold charge
      rw [← named,accounted.marks s there]
    rw [List.map_cons,List.sum_cons] at room
    have once : conn.weSentStreamData+charge offsets sc ≤ conn.peerMaxData := by omega
    have next : Ready ((sc.streamId,sc.chunk.offset+sc.chunk.length)::offsets) (conn.commitChunk sc) rest := by
      refine ⟨accounted.commit found planned once,fun later member => ?_,distinct,?_⟩
      · obtain ⟨t,here,fine⟩ := chunks later (List.mem_cons_of_mem _ member)
        exact ⟨t,(commitChunk_get found planned (others later member)).trans here,fine⟩
      · rw [charges,commitChunk_eq found planned]
        change conn.weSentStreamData+(sc.chunk.offset+sc.chunk.length-s.sendFlowHighest)+_ ≤ conn.peerMaxData
        rw [← marked]
        omega
    have whole := ih next
    rw [List.map_cons,List.reverse_cons,List.append_assoc]
    exact whole

/-- A stream with room for one more packet in flight. -/
def reserveOne (granted : Bool) (s : Stream) : Stream :=
  {s with send := {s.send with inFlight := (s.send.inFlight.ensureUnusedCapacity granted 1).2}}

theorem add_conn (grants : Allocator) (maxPayload : Nat) {p : Packet} {s : Stream} (chunk : Chunk)
    (found : p.conn.get s.id = some s) : ∃ key, (p.add grants maxPayload s chunk).2.conn =
      {p.conn.modify s.id (reserveOne (grants 1)) with nextStreamPacketKey := key} := by
  have same : (p.conn.modify s.id fun t => {t with send := {t.send with
      inFlight := (s.send.inFlight.ensureUnusedCapacity (grants 1) 1).2}}) = p.conn.modify s.id (reserveOne (grants 1)) :=
    modify_congr found rfl
  unfold Packet.add
  cases reserve : s.send.inFlight.ensureUnusedCapacity (grants 1) 1 with
  | mk result inFlight =>
  rw [reserve] at same
  dsimp only at same ⊢
  rw [same]
  cases result with
  | error e => exact ⟨_,rfl⟩
  | ok _ =>
    dsimp only
    split
    · exact ⟨_,rfl⟩
    split
    · exact ⟨_,rfl⟩
    split
    · exact ⟨_,rfl⟩
    · exact ⟨_,rfl⟩

theorem add_chunks (grants : Allocator) (maxPayload : Nat) (p : Packet) (s : Stream) (chunk : Chunk) :
    ((p.add grants maxPayload s chunk).2.sentChunks = p.sentChunks ∧
        (p.add grants maxPayload s chunk).2.plannedConnNewBytes = p.plannedConnNewBytes) ∨
      ∃ key, (p.add grants maxPayload s chunk).2.sentChunks = p.sentChunks ++ [⟨s.id,chunk,key⟩] ∧
        (p.add grants maxPayload s chunk).2.plannedConnNewBytes =
          saturatingAdd p.plannedConnNewBytes (Connection.streamFlowNewBytes s chunk) := by
  unfold Packet.add
  cases s.send.inFlight.ensureUnusedCapacity (grants 1) 1 with
  | mk result inFlight =>
  cases result with
  | error e => exact .inl ⟨rfl,rfl⟩
  | ok _ =>
    dsimp only
    split
    · exact .inl ⟨rfl,rfl⟩
    split
    · exact .inl ⟨rfl,rfl⟩
    split
    · exact .inl ⟨rfl,rfl⟩
    · exact .inr ⟨_,rfl,rfl⟩

theorem add_calm (grants : Allocator) (maxPayload : Nat) {p : Packet} {s : Stream} (chunk : Chunk)
    (found : p.conn.get s.id = some s) : Calm mayReset p.conn (p.add grants maxPayload s chunk).2.conn := by
  obtain ⟨key,conn⟩ := add_conn grants maxPayload chunk found
  have reserved : Calm mayReset p.conn (p.conn.modify s.id (reserveOne (grants 1))) :=
    modify_calm _ _ _ (fun _ => rfl) (fun _ _ => .single (.reserve _ 1))
  rw [conn]
  exact reserved.trans (.same rfl rfl rfl rfl rfl)

/-- A packet whose chunks all have room, and that takes no more from the streams behind. -/
structure Packed (offsets : List (Nat × Nat)) (rest : List Nat) (p : Packet) : Prop where
  accounted : Accounted offsets p.conn
  chunks : ∀ sc ∈ p.sentChunks, ∃ s, p.conn.get sc.streamId = some s ∧ Planned s sc.chunk
  distinct : (p.sentChunks.map (·.streamId)).Nodup
  apart : ∀ sc ∈ p.sentChunks, sc.streamId ∉ rest
  planned : p.plannedConnNewBytes = (p.sentChunks.map (charge offsets)).sum
  room : p.conn.weSentStreamData+p.plannedConnNewBytes ≤ p.conn.peerMaxData

theorem Packed.ready {rest : List Nat} {p : Packet} (packed : Packed offsets rest p) : Ready offsets p.conn p.sentChunks :=
  ⟨packed.accounted,packed.chunks,packed.distinct,packed.planned ▸ packed.room⟩

theorem Packed.skip {id : Nat} {rest : List Nat} {p : Packet} (packed : Packed offsets (id::rest) p) :
    Packed offsets rest p :=
  {packed with apart := fun sc member inside => packed.apart sc member (List.mem_cons_of_mem _ inside)}

theorem Packed.add {rest : List Nat} {p : Packet} {s : Stream} {raw chunk : Chunk} {noted : Bool} {budget : Nat}
    (packed : Packed offsets (s.id::rest) p) (fresh : s.id ∉ rest) (found : p.conn.get s.id = some s) (room : 0 < budget)
    (peeked : s.send.peekChunk budget = some raw)
    (limited : p.conn.limitChunkToSendFlowAfterPlanned noted s raw p.plannedConnNewBytes = .ok (some chunk))
    (grants : Allocator) (maxPayload : Nat) : Packed offsets rest (p.add grants maxPayload s chunk).2 := by
  have there := List.mem_of_find?_eq_some found
  obtain ⟨planned,fits⟩ := limitChunk_planned (packed.accounted.metered s there) packed.accounted.bound packed.room room peeked
    limited
  have marked := packed.accounted.marks s there
  have calm : Calm (fun _ => True) p.conn (p.add grants maxPayload s chunk).2.conn := add_calm grants maxPayload chunk found
  have accounted := packed.accounted.calm calm
  obtain ⟨key,conn⟩ := add_conn grants maxPayload chunk found
  have weSent : (p.add grants maxPayload s chunk).2.conn.weSentStreamData = p.conn.weSentStreamData := calm.weSent
  have peerMaxData : (p.add grants maxPayload s chunk).2.conn.peerMaxData = p.conn.peerMaxData := by rw [conn]; rfl
  have own : (p.add grants maxPayload s chunk).2.conn.get s.id = some (reserveOne (grants 1) s) := by
    rw [conn]
    exact (get_modify (f := reserveOne (grants 1)) (fun _ => rfl) p.conn s.id).trans (by rw [found]; rfl)
  have others : ∀ sc ∈ p.sentChunks, ∃ t, (p.add grants maxPayload s chunk).2.conn.get sc.streamId = some t ∧
      Planned t sc.chunk := by
    intro sc member
    obtain ⟨t,here,fine⟩ := packed.chunks sc member
    have other : sc.streamId ≠ s.id := fun same => packed.apart sc member (same ▸ List.mem_cons_self)
    refine ⟨t,?_,fine⟩
    rw [conn]
    exact (get_modify_other (f := reserveOne (grants 1)) (fun _ => rfl) p.conn other).trans here
  rcases add_chunks grants maxPayload p s chunk with ⟨same,still⟩ | ⟨key',more,charged⟩
  · refine ⟨accounted,?_,?_,?_,?_,?_⟩
    · rw [same]
      exact others
    · rw [same]
      exact packed.distinct
    · rw [same]
      exact packed.skip.apart
    · rw [same,still]
      exact packed.planned
    · rw [weSent,peerMaxData,still]
      exact packed.room
  · have cost : Connection.streamFlowNewBytes s chunk = charge offsets ⟨s.id,chunk,key'⟩ := by
      rw [streamFlowNewBytes_eq planned]
      unfold charge
      rw [marked]
    have bound := packed.accounted.bound
    have added : (p.add grants maxPayload s chunk).2.plannedConnNewBytes =
        p.plannedConnNewBytes+(chunk.offset+chunk.length-s.sendFlowHighest) := by
      rw [charged,streamFlowNewBytes_eq planned]
      unfold saturatingAdd
      omega
    refine ⟨accounted,?_,?_,?_,?_,?_⟩
    · intro sc member
      rw [more] at member
      rcases List.mem_append.mp member with old | last
      · exact others sc old
      · rw [List.mem_singleton.mp last]
        exact ⟨reserveOne (grants 1) s,own,planned.peeked,planned.within,planned.written,planned.counted⟩
    · rw [more,List.map_append,List.nodup_append]
      refine ⟨packed.distinct,by simp,?_⟩
      intro a old b last equal
      obtain ⟨sc,member,rfl⟩ := List.mem_map.mp old
      have last' : b = s.id := by simpa using last
      exact packed.apart sc member (by rw [equal,last']; exact List.mem_cons_self)
    · intro sc member
      rw [more] at member
      rcases List.mem_append.mp member with old | last
      · exact packed.skip.apart sc old
      · rw [List.mem_singleton.mp last]
        exact fresh
    · rw [more,List.map_append,List.sum_append,← packed.planned,added,List.map_singleton,List.sum_singleton]
      unfold charge
      rw [marked]
    · rw [weSent,peerMaxData,added]
      omega

/-- The loop keeps the chunks of the packet in the room that they had together. -/
theorem pack_packed (grants : Nat → Allocator) (maxPayload n : Nat) (ready : List Nat) (p : Packet) (distinct : ready.Nodup)
    (packed : Packed offsets ready p) : Packed offsets [] (Packet.pack grants maxPayload n ready p).2 := by
  have done {rest : List Nat} {p : Packet} (packed : Packed offsets rest p) : Packed offsets [] p :=
    {packed with apart := fun _ _ inside => by cases inside}
  induction ready generalizing n p with
  | nil => exact packed
  | cons id rest ih =>
    obtain ⟨fresh,later⟩ := List.nodup_cons.mp distinct
    unfold Packet.pack
    split
    · exact done packed
    split
    · exact done packed
    rename_i space
    dsimp only
    split
    · exact ih _ _ later packed.skip
    rename_i s found
    split
    · exact ih _ _ later packed.skip
    rename_i raw peeked
    split
    · exact done packed
    · exact ih _ _ later packed.skip
    rename_i chunk limited
    have named : s.id = id := by simpa using List.find?_some found
    subst named
    have added := packed.add fresh found (by omega) peeked limited (grants n) maxPayload
    split
    · rename_i outcome
      rw [outcome] at added
      exact done added
    · rename_i outcome
      rw [outcome] at added
      exact ih _ _ later added

theorem pack_calm (grants : Nat → Allocator) (maxPayload n : Nat) (ready : List Nat) (p : Packet) :
    Calm mayReset p.conn (Packet.pack grants maxPayload n ready p).2.conn := by
  induction ready generalizing n p with
  | nil => exact .refl _
  | cons id rest ih =>
    unfold Packet.pack
    split
    · exact .refl _
    split
    · exact .refl _
    dsimp only
    split
    · exact ih _ _
    rename_i s found
    split
    · exact ih _ _
    split
    · exact .refl _
    · exact ih _ _
    rename_i chunk _
    have named : s.id = id := by simpa using List.find?_some found
    subst named
    have added : Calm mayReset p.conn (p.add (grants n) maxPayload s chunk).2.conn := add_calm (grants n) maxPayload chunk found
    split
    · rename_i outcome
      rw [outcome] at added
      exact added
    · rename_i outcome
      rw [outcome] at added
      exact added.trans (ih _ _)

end

end QuicZig.Conn.SendFlow
