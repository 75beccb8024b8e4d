import QuicZig.Conn.InboundCalls

/-! What one step does to the counts, the cleanup of streams included. -/
namespace QuicZig.Conn.Inbound
open Machine Paths Streams SendFlow Ledger BlockedStreams

/-- Streams leave the table, and nothing else changes. -/
structure Shrunk (conn after : Connection) : Prop where
  role : after.flow.role = conn.flow.role
  ids : IdSpaces.SameIds conn.flow.ids after.flow.ids
  streams : after.flow.streams.Sublist conn.flow.streams
  half : after.half = conn.half
  sent : after.peerSentStreamData = conn.peerSentStreamData
  read : after.recvStreamBytesRead = conn.recvStreamBytesRead
  limit : after.localMaxData = conn.localMaxData
  blocked : after.blocked = conn.blocked
  even : Housed conn → Balanced conn → Balanced after

section
variable {conn mid after : Connection}

theorem Shrunk.names (shrunk : Shrunk conn after) : (names after).Sublist (names conn) := shrunk.streams.map _

theorem Shrunk.housed (shrunk : Shrunk conn after) (housed : Housed conn) : Housed after := by
  have used : ∀ id, after.flow.ids.Used after.flow.role id ↔ conn.flow.ids.Used conn.flow.role id := by
    intro id
    rw [shrunk.role]
    exact shrunk.ids.used id
  refine ⟨shrunk.ids.sound housed.ids,shrunk.names.nodup housed.once,fun id member => ?_,
    fun s member => housed.buffers s (shrunk.streams.subset member),fun id => shrunk.half ▸ housed.halves id,
    fun id unused => ?_,fun id stop => ?_⟩
  · rw [used]
    exact housed.used id (shrunk.names.subset member)
  · rw [used] at unused
    rw [shrunk.half]
    exact housed.blank id unused
  · rw [shrunk.half] at stop
    rw [shrunk.role]
    exact housed.stopped id stop

theorem Same.shrunk (same : Same conn after) : Shrunk conn after :=
  ⟨same.role,same.ids,same.streams ▸ .refl _,same.half,same.sent,same.read,same.limit,same.blocked,fun _ => same.balanced⟩

theorem Shrunk.trans (first : Shrunk conn mid) (second : Shrunk mid after) : Shrunk conn after :=
  ⟨second.role.trans first.role,first.ids.trans second.ids,second.streams.trans first.streams,second.half.trans first.half,
    second.sent.trans first.sent,second.read.trans first.read,second.limit.trans first.limit,second.blocked.trans first.blocked,
    fun housed balanced => second.even (first.housed housed) (first.even housed balanced)⟩

theorem retire_shrunk (conn : Connection) (id : Nat) : Shrunk conn (conn.retire id) := by
  unfold Connection.retire
  split
  · exact (Same.refl conn).shrunk
  rename_i s found
  obtain ⟨named,there⟩ := get_named found
  -- The bytes leave the budget last; until then it is ahead of the table.
  have advertised : ∀ c : Connection, Same {conn with flow := {conn.flow with streams := conn.flow.streams.filter (·.id ≠ id)}} c →
      Shrunk conn {c with resident := c.resident.releaseResidentBytes (s.send.bytes.live+(c.half id).recv.bytes.length)} := by
    intro c same
    refine ⟨same.role,same.ids,?_,same.half,same.sent,same.read,same.limit,same.blocked,fun housed balanced => ⟨?_,fun lvl => ?_⟩⟩
    · change c.flow.streams.Sublist _
      rw [same.streams]
      exact List.filter_sublist
    · have before := balanced.resident
      have sum : ((conn.flow.streams.filter fun t => t.id ≠ s.id).map fun t =>
          t.send.bytes.live+(conn.half t.id).recv.bytes.length).sum+(s.send.bytes.live+(conn.half s.id).recv.bytes.length) =
          (conn.flow.streams.map fun t => t.send.bytes.live+(conn.half t.id).recv.bytes.length).sum :=
        sum_filter housed.once there
      have streams : c.flow.streams = conn.flow.streams.filter fun t => t.id ≠ s.id := by
        rw [same.streams,named]
      have half : c.half = conn.half := same.half
      have crypto : c.crypto = conn.crypto := same.crypto
      have datagrams : c.recvDatagrams = conn.recvDatagrams := same.datagrams
      have resident : c.resident = conn.resident := same.resident
      unfold Connection.residentBytesSum Connection.recvDatagramBytes Resident.releaseResidentBytes at *
      dsimp only
      rw [streams,half,crypto,datagrams,resident,← named]
      omega
    · change (c.crypto lvl).cryptoPendingBytes = _
      have crypto : c.crypto = conn.crypto := same.crypto
      rw [crypto]
      exact balanced.counted lvl
  refine advertised _ ?_
  dsimp only
  split
  · have noted : ∀ c : Connection, Same c {c with
        flow := {c.flow with ids := c.flow.ids.modify c.flow.role id (·.noteClosed)}} := fun c =>
      ⟨rfl,IdSpaces.sameIds_modify _ _ _ fun _ => ⟨rfl,rfl⟩,rfl,rfl,rfl,rfl,rfl,rfl,rfl,rfl,rfl,rfl⟩
    split
    · exact noted _
    · exact (noted _).trans (maybeAdvertise_same _ _)
  · exact .refl _

theorem retireAll_shrunk (batch : List Nat) (conn : Connection) : Shrunk conn (batch.foldl Connection.retire conn) := by
  induction batch generalizing conn with
  | nil => exact (Same.refl conn).shrunk
  | cons id rest ih => exact (retire_shrunk conn id).trans (ih _)

end

section
variable {terms : Terms} {conn mid after : Connection}

theorem collectGc_effect (candidates : List Nat) (room : Nat) (conn : Connection) (once : terms.keys.Nodup) (housed : Housed conn)
    (counted : ∀ id ∈ names conn, peerMaySendOnStream conn.flow.role id = true → id ∈ terms.keys) :
    ∃ n, Effect terms 0 0 n n conn (Connection.collectGc room candidates conn).2 := by
  induction candidates generalizing conn room with
  | nil => exact ⟨0,.refl conn⟩
  | cons id rest ih =>
    unfold Connection.collectGc
    split
    · exact ih room conn housed counted
    rename_i s found
    have there : id ∈ names conn := mem_names.mpr (by rw [found]; rfl)
    have read : ∃ n, Effect terms 0 0 n n conn (if (conn.half id).recvStopped then conn.discardStopped id else conn) := by
      split
      · rename_i stopped
        exact discardStopped_effect once (counted id there (housed.stopped id stopped)) there (housed.halves id)
      · exact ⟨0,.refl conn⟩
    dsimp only
    generalize (if (conn.half id).recvStopped then conn.discardStopped id else conn) = mid at read ⊢
    obtain ⟨n,effect⟩ := read
    have later : ∀ room, ∃ m, Effect terms 0 0 m m conn (Connection.collectGc room rest mid).2 := by
      intro room
      obtain ⟨m,last⟩ := ih room mid (effect.housed housed) (fun x member => by
        rw [effect.role]
        exact counted x (effect.named ▸ member))
      exact ⟨n+m,by simpa only [Nat.zero_add] using effect.trans last⟩
    split
    · exact later room
    split
    · exact ⟨n,effect⟩
    · exact later (room-1)

/-- The account of one step: what is new is a stream that no id had before. -/
structure Turn (terms : Terms) (charged risen up back : Nat) (conn after : Connection) : Prop where
  housed : Housed after
  role : after.flow.role = conn.flow.role
  used : ∀ id, after.flow.ids.Used after.flow.role id ↔ conn.flow.ids.Used conn.flow.role id ∨ id ∈ made conn after
  fresh : ∀ id ∈ made conn after, ¬ conn.flow.ids.Used conn.flow.role id
  sent : after.peerSentStreamData = conn.peerSentStreamData+charged
  reached : reached terms.keys after = reached terms.keys conn+risen
  finished : finished terms.keys after = finished terms.keys conn+up
  read : after.recvStreamBytesRead = conn.recvStreamBytesRead+back
  limit : conn.localMaxData ≤ after.localMaxData
  even : terms.fits → Balanced conn → Balanced after

theorem mem_made {id : Nat} : id ∈ made conn after ↔ id ∈ names after ∧ id ∉ names conn := by
  unfold made
  rw [List.mem_filter,@mem_names conn,Bool.not_eq_true,Option.isSome_eq_false_iff]
  rfl

theorem Effect.turn {charged risen up back : Nat} (effect : Effect terms charged risen up back conn after) (housed : Housed conn) :
    Turn terms charged risen up back conn after := by
  have none : ∀ id, id ∉ made conn after := by
    intro id member
    obtain ⟨there,absent⟩ := mem_made.mp member
    exact absent (effect.named ▸ there)
  refine ⟨effect.housed housed,effect.role,fun id => ?_,fun id member => absurd member (none id),effect.sent,effect.reached,
    effect.finished,effect.read,effect.limit,fun fit => effect.even fit housed⟩
  rw [effect.used]
  exact ⟨.inl,fun either => either.resolve_right (none id)⟩

theorem Onward.turn {charged risen up back : Nat} (onward : Onward terms charged risen up back conn after) (housed : Housed conn) :
    Turn terms charged risen up back conn after := by
  obtain ⟨mid,begun,effect⟩ := onward
  rcases begun with rfl | ⟨id,begun⟩
  · exact effect.turn housed
  have housed' := begun.housed housed
  have absent := begun.absent housed
  have unused := begun.opened.fresh housed.ids
  obtain ⟨reach,done⟩ := housed.blank id unused
  have member : ∀ other, other ∈ made conn after ↔ other = id := by
    intro other
    rw [mem_made,effect.named,begun.names,List.mem_append,List.mem_singleton]
    constructor
    · rintro ⟨old | same,gone⟩
      · exact absurd old gone
      · exact same
    · rintro rfl
      exact ⟨.inr rfl,absent⟩
  refine ⟨effect.housed housed',effect.role.trans begun.opened.role,fun other => ?_,fun other there => ?_,?_,?_,?_,?_,?_,
    fun fit balanced => effect.even fit housed' (begun.balanced housed balanced)⟩
  · rw [effect.used,begun.used housed,member]
  · rw [(member other).mp there]
    exact unused
  · rw [effect.sent,begun.sent]
  · rw [effect.reached]
    exact congrArg (·+risen) (begun.still terms.keys reach fun h fresh => by rw [fresh]; rfl)
  · rw [effect.finished]
    exact congrArg (·+up) (begun.still terms.keys done fun h fresh => by rw [fresh]; rfl)
  · rw [effect.read,begun.read]
  · exact begun.limit.symm.trans_le effect.limit

theorem Shrunk.turn {n : Nat} (effect : Effect terms 0 0 n n conn mid) (shrunk : Shrunk mid after) (housed : Housed conn) :
    Turn terms 0 0 n n conn after := by
  have housed' := effect.housed housed
  have none : ∀ id, id ∉ made conn after := by
    intro id member
    obtain ⟨there,absent⟩ := mem_made.mp member
    exact absent (effect.named ▸ shrunk.names.subset there)
  refine ⟨shrunk.housed housed',shrunk.role.trans effect.role,fun id => ?_,fun id member => absurd member (none id),
    shrunk.sent.trans effect.sent,?_,?_,shrunk.read.trans effect.read,effect.limit.trans_eq shrunk.limit.symm,
    fun fit balanced => shrunk.even housed' (effect.even fit housed balanced)⟩
  · rw [shrunk.role,shrunk.ids.used,effect.role,effect.ids.used]
    exact ⟨.inl,fun either => either.resolve_right (none id)⟩
  · rw [← effect.reached]
    unfold Inbound.reached
    rw [shrunk.half]
  · rw [← effect.finished]
    unfold Inbound.finished
    rw [shrunk.half]

theorem gcClosedStreams_turn (housed : Housed conn) (once : terms.keys.Nodup)
    (counted : ∀ id ∈ names conn, peerMaySendOnStream conn.flow.role id = true → id ∈ terms.keys) (candidates : List Nat) :
    ∃ n, Turn terms 0 0 n n conn (conn.gcClosedStreams candidates) := by
  obtain ⟨n,effect⟩ := collectGc_effect candidates gcBatch conn once housed counted
  refine ⟨n,?_⟩
  unfold Connection.gcClosedStreams
  generalize Connection.collectGc gcBatch candidates conn = outcome at effect ⊢
  obtain ⟨batch,mid⟩ := outcome
  exact Shrunk.turn effect (retireAll_shrunk batch mid) housed

/-- The id that a frame of the peer brings bytes or a final size for. -/
def Call.subject : Call → Option Nat
  | .stream s _ _ => some s.streamId
  | .resetStream rs => some rs.streamId
  | _ => none

/-- The frame of a step is charged for one thing, and its stream rises by another. -/
def Misses (conn : Connection) (e : Event) : Prop :=
  match e.call with
  | .stream s _ _ => conn.takes e = true ∧ StreamMisses e.grants conn s
  | .resetStream rs => conn.takes e = true ∧ ResetMisses (e.grants 0) conn rs
  | _ => False

structure Accounts (terms : Terms) (conn : Connection) (e : Event) (outcome : Outcome Unit) : Prop where
  turn : ∃ charged risen up back, Onward terms charged risen up back conn outcome.2 ∧
    up = back+forfeit conn outcome.2 e.call outcome.1 ∧ (terms.fits → Balanced conn → (charged = risen ↔ ¬ Misses conn e)) ∧
    Fair charged conn outcome

theorem Plain.accounts {e : Event} {outcome : Outcome Unit} (plain : Plain terms conn outcome.2) (hits : ¬ Misses conn e)
    (kept : forfeit conn outcome.2 e.call outcome.1 = 0) : Accounts terms conn e outcome := by
  obtain ⟨n,onward⟩ := plain
  exact ⟨⟨0,0,n,n,onward,by rw [kept,Nat.add_zero],fun _ _ => ⟨fun _ => hits,fun _ => rfl⟩,.none conn outcome⟩⟩

theorem Billed.accounts {e : Event} {outcome : Outcome Unit} (billed : Billed terms (Misses conn e) conn outcome)
    (kept : forfeit conn outcome.2 e.call outcome.1 = 0) : Accounts terms conn e outcome := by
  obtain ⟨charged,risen,up,back,onward,same,exact',fair⟩ := billed.turn
  exact ⟨⟨charged,risen,up,back,onward,by rw [kept,Nat.add_zero,same],exact',fair⟩⟩

theorem Billed.congr {first second : Prop} {outcome : Outcome Unit} (same : first ↔ second)
    (billed : Billed terms first conn outcome) : Billed terms second conn outcome := by
  obtain ⟨charged,risen,up,back,onward,equal,exact',fair⟩ := billed.turn
  exact ⟨⟨charged,risen,up,back,onward,equal,fun fit balanced => (exact' fit balanced).trans (not_congr same),fair⟩⟩

theorem pending_same (conn : Connection) (pending : PendingFrames) : Same conn {conn with pendingFrames := pending} :=
  ⟨rfl,.refl _,rfl,rfl,rfl,rfl,rfl,rfl,rfl,rfl,rfl,rfl⟩

theorem Reads.accounts {e : Event} {id : Nat} {outcome : Outcome Unit} (reads : Reads terms id conn outcome)
    (hits : ¬ Misses conn e) (kept : ∀ result, forfeit conn outcome.2 e.call result = match result with
      | .ok _ => 0
      | .error _ => (outcome.2.half id).recv.doneWith-(conn.half id).recv.doneWith) : Accounts terms conn e outcome := by
  obtain ⟨result,after⟩ := outcome
  cases result with
  | ok _ => exact Plain.accounts reads hits (kept _)
  | error e' =>
    refine ⟨⟨_,_,_,_,reads,?_,fun _ _ => ⟨fun _ => hits,fun _ => rfl⟩,.none conn _⟩⟩
    rw [kept,Nat.zero_add]

theorem pending_listed (conn : Connection) (pending : BlockedStreams.Entries) :
    Plain terms conn {conn with blocked := {conn.blocked with pendingStreamDataBlocked := pending}} := by
  have listed : Listed (names conn) conn.blocked {conn.blocked with pendingStreamDataBlocked := pending} :=
    ⟨fun once => once,fun once => once,fun _ => .inl,fun _ => .inl⟩
  exact (blocked_effect _ fun _ => listed).plain

theorem requeueStreamDataBlocked_plain (granted : Bool) (conn : Connection) (item : Frame.StreamDataBlocked) :
    Plain terms conn (conn.requeueStreamDataBlocked granted item).2 := by
  have kept : ∃ pending, (conn.blocked.requeueStreamDataBlocked granted item).2 =
      {conn.blocked with pendingStreamDataBlocked := pending} := by
    unfold BlockedStreams.requeueStreamDataBlocked
    split
    · exact ⟨_,rfl⟩
    · split
      · exact ⟨_,rfl⟩
      · exact ⟨_,rfl⟩
  obtain ⟨pending,same⟩ := kept
  unfold Connection.requeueStreamDataBlocked
  dsimp only
  rw [same]
  exact pending_listed conn pending

theorem Begun.plain (begun : Begun conn after) : Plain terms conn after := ⟨0,after,begun,.refl after⟩

theorem apply_accounts (housed : Housed conn) (once : terms.keys.Nodup) (e : Event)
    (counted : ∀ id, peerMaySendOnStream conn.flow.role id = true → id ∈ names conn ∨ e.call.subject = some id → id ∈ terms.keys)
    (fits : terms.fits → (conn.apply e).2.residentBytesSum ≤ maxU64) (cleans : ∀ candidates, e.call ≠ .gcClosedStreams candidates)
    (known : terms.listed → ∀ sdb, e.call = .streamDataBlocked sdb → sdb.streamId ∈ names conn)
    (taken : conn.takes e = true) : Accounts terms conn e (conn.apply e) := by
  obtain ⟨call,grants,notes,behind⟩ := e
  cases call with
  | stream s varint packet =>
    have whole : s.offset+s.data.length ≤ maxU64 := by
      have largest : Wire.Varint.maxValue+maxSupportedUdpPayloadSize ≤ maxU64 := by decide
      omega
    have billed := handleStream_billed housed once grants s (fun may => counted _ may (.inr rfl)) whole fits
    exact (billed.congr ⟨fun misses => ⟨taken,misses⟩,And.right⟩).accounts rfl
  | resetStream rs =>
    have billed := handleResetStream_billed housed once (grants 0) rs (fun may => counted _ may (.inr rfl))
    exact (billed.congr ⟨fun misses => ⟨taken,misses⟩,And.right⟩).accounts rfl
  | stopSending ss => exact (handleStopSending_plain housed (grants 0) ss).accounts id rfl
  | maxStreamData msd => exact (handleMaxStreamData_plain housed (grants 0) msd).accounts id rfl
  | streamDataBlocked sdb =>
    exact (handleStreamDataBlocked_plain (grants 0 0) sdb fun listed => known listed sdb rfl).accounts id rfl
  | streamsBlocked sb => exact (handleStreamsBlocked_same conn sb).plain.accounts id rfl
  | crypto lvl cr => exact (handleCrypto_plain (grants 0) conn lvl cr).accounts id rfl
  | datagram dg => exact (handleDatagram_plain housed (grants 0) dg).accounts id rfl
  | acked refs => exact (dispatchAcked_effect grants refs 0 conn).plain.accounts id rfl
  | dataBlocked maximumData =>
    have same : Same conn {conn with peerDataBlockedAt := some maximumData} :=
      ⟨rfl,.refl _,rfl,rfl,rfl,rfl,rfl,rfl,rfl,rfl,rfl,rfl⟩
    exact same.plain.accounts id rfl
  | lostMaxData maximumData => exact (queueMaxData_effect conn maximumData).plain.accounts id rfl
  | lostMaxStreamData id' limit => exact (queueMaxStreamData_effect (grants 0 0) conn id' limit).plain.accounts id rfl
  | lostStopSending item => exact (queueStopSending_same (grants 0 0) conn item).plain.accounts id rfl
  | lostStreamDataBlocked item => exact (requeueStreamDataBlocked_plain (grants 0 0) conn item).accounts id rfl
  | poll p => exact (poll_plain notes conn p).accounts id rfl
  | sentMaxData | sentMaxStreamData | sentMaxStreams _ | sentStopSending => exact (pending_same conn _).plain.accounts id rfl
  | sentStreamDataBlocked => exact (pending_listed conn _).accounts id rfl
  | streamRead id' dstLen =>
    refine Reads.accounts (streamRead_reads housed once (grants 0 0) id' dstLen fun may there => counted id' may (.inl there)) id
      fun result => ?_
    cases result <;> rfl
  | streamConsume id' n =>
    refine Reads.accounts (streamConsume_reads housed once (grants 0 0) id' n fun may there => counted id' may (.inl there)) id
      fun result => ?_
    cases result <;> rfl
  | streamStopSending id' code => exact (streamStopSending_plain housed grants id' code).accounts id rfl
  | streamWrite id' data =>
    have plain : Plain terms conn (Connection.done (conn.streamWrite (grants 0) id' data)).2 :=
      streamWrite_plain housed (grants 0) id' data
    exact plain.accounts id rfl
  | openBidi id' => exact (adopt_begun housed (openBidi_grown (grants 0) conn.flow id')).plain.accounts id rfl
  | openUni id' => exact (adopt_begun housed (openUni_grown (grants 0) conn.flow id')).plain.accounts id rfl
  | receiveDatagram => exact (receiveDatagramInfo_plain conn).accounts id rfl
  | queueMaxStreams bidi limit => exact (queueMaxStreams_same conn bidi limit).plain.accounts id rfl
  | drainInbox lvl => exact (drainInbox_plain conn lvl).accounts id rfl
  | gcClosedStreams candidates => exact absurd rfl (cleans candidates)
  | clock nowUs rtt =>
    have same : Same conn {conn with clockUs := nowUs,smoothedRttUs := rtt} :=
      ⟨rfl,.refl _,rfl,rfl,rfl,rfl,rfl,rfl,rfl,rfl,rfl,rfl⟩
    exact same.plain.accounts id rfl
  | send call alone => exact (stable_effect (alone_stable conn.flow call alone (grants 0))).plain.accounts id rfl

theorem act_turn (housed : Housed conn) (once : terms.keys.Nodup) (e : Event)
    (counted : ∀ id, peerMaySendOnStream conn.flow.role id = true → id ∈ names conn ∨ e.call.subject = some id → id ∈ terms.keys)
    (fits : terms.fits → (conn.act e).2.residentBytesSum ≤ maxU64) (unlisted : ¬ terms.listed) :
    ∃ charged risen up back, Turn terms charged risen up back conn (conn.act e).2 ∧
      up = back+forfeit conn (conn.act e).2 e.call (conn.act e).1 ∧
      (terms.fits → Balanced conn → (charged = risen ↔ ¬ Misses conn e)) ∧ Fair charged conn (conn.act e) := by
  by_cases takes : conn.takes e = true
  swap
  · have still : conn.act e = (.ok (),conn) := if_neg takes
    rw [still]
    have hits : ¬ Misses conn e := by
      intro misses
      unfold Misses at misses
      split at misses
      · exact takes misses.1
      · exact takes misses.1
      · exact misses
    have kept : forfeit conn conn e.call (.ok ()) = 0 := by
      unfold forfeit
      split
      · exact Nat.sub_self _
      · exact Nat.sub_self _
      · rfl
    exact ⟨0,0,0,0,(Effect.refl conn).turn housed,by rw [kept],fun _ _ => ⟨fun _ => hits,fun _ => rfl⟩,.none conn _⟩
  have taken : conn.act e = conn.apply e := if_pos takes
  rw [taken] at fits ⊢
  by_cases cleans : ∃ candidates, e.call = .gcClosedStreams candidates
  · obtain ⟨candidates,cleaning⟩ := cleans
    have gone : conn.apply e = (.ok (),conn.gcClosedStreams candidates) := by
      unfold Connection.apply
      rw [cleaning]
    obtain ⟨n,turn⟩ := gcClosedStreams_turn housed once (fun id there may => counted id may (.inl there)) candidates
    have hits : ¬ Misses conn e := by
      unfold Misses
      rw [cleaning]
      exact id
    rw [gone,cleaning]
    exact ⟨0,0,n,n,turn,rfl,fun _ _ => ⟨fun _ => hits,fun _ => rfl⟩,.none conn _⟩
  · have accounts := apply_accounts housed once e counted fits (fun candidates same => cleans ⟨candidates,same⟩)
      (fun listed => absurd listed unlisted) takes
    obtain ⟨charged,risen,up,back,onward,same,exact',fair⟩ := accounts.turn
    exact ⟨charged,risen,up,back,onward.turn housed,same,exact',fair⟩

end

end QuicZig.Conn.Inbound
