import QuicZig.Conn.CryptoRecvRun
import QuicZig.Conn.InboundFrames

/-! The frames, calls and packet fates that charge nothing. -/
namespace QuicZig.Conn

namespace CryptoRecv
open Machine

/-- `base` bytes are charged for all that is not at this level. -/
structure Funded (base : Nat) (s : CryptoRecv) : Prop where
  counted : s.cryptoPendingBytes = (s.cryptoPending.map (·.data.length)).sum
  resident : s.resident.bytesResident = base+s.cryptoPendingBytes

section
variable {base : Nat} {s : CryptoRecv}

theorem Funded.close (funded : Funded base s) (errorCode : Nat) (reason : String) : Funded base (s.close errorCode reason) := by
  unfold CryptoRecv.close
  split
  · exact funded
  · exact ⟨funded.counted,funded.resident⟩

theorem Funded.discard (funded : Funded base s) {c : CryptoChunk} {others : List CryptoChunk}
    (split : s.cryptoPending.Perm (c::others)) : Funded base (s.discard c others) := by
  have total := (split.map fun d => d.data.length).sum_nat
  rw [List.map_cons,List.sum_cons,← funded.counted] at total
  have resident := funded.resident
  refine ⟨?_,?_⟩
  · change s.cryptoPendingBytes-c.data.length = _
    change _ = (others.map fun d => d.data.length).sum
    omega
  · change s.resident.bytesResident-c.data.length = base+(s.cryptoPendingBytes-c.data.length)
    omega

theorem Funded.drain (funded : Funded base s) (grants : Allocator) (turns n : Nat) : Funded base (s.drainTurns grants turns n).2 := by
  induction turns generalizing s n with
  | zero => exact funded
  | succ turns ih =>
    unfold drainTurns
    have reached := firstReached_spec s.cryptoRecvOffset s.cryptoPending
    split
    · exact funded
    · rename_i chunk others found
      rw [found] at reached
      split
      · exact funded.close _ _
      · split
        · exact ih (funded.discard reached.1) _
        · dsimp only
          split
          · exact ⟨funded.counted,funded.resident⟩
          · have advanced : ∀ inbox n, Funded base (s.advance inbox n) := fun _ _ => ⟨funded.counted,funded.resident⟩
            exact ih ((advanced _ _).discard reached.1) _

theorem Funded.buffer (funded : Funded base s) (grants : Allocator) (offset : Nat) (data : List Byte) :
    Funded base (s.bufferCrypto grants offset data).2 := by
  unfold bufferCrypto
  split
  · exact funded.close _ _
  split
  · exact funded.close _ _
  split
  · exact funded.close _ _
  split
  · exact funded.close _ _
  rename_i resident ok
  split
  · refine ⟨funded.counted,?_⟩
    dsimp only
    rw [Resident.release_reserved ok]
    exact funded.resident
  · refine ⟨?_,?_⟩
    · dsimp only
      rw [List.map_append,List.sum_append,funded.counted]
      rfl
    · dsimp only
      rw [Resident.reserved ok]
      have held := funded.resident
      dsimp only
      omega

theorem Funded.handle (funded : Funded base s) (grants : Allocator) (cr : Frame.Crypto) :
    Funded base (s.handleCrypto grants cr).2 := by
  unfold handleCrypto
  split
  · exact funded
  split
  · exact funded.close _ _
  · dsimp only
    split
    · exact funded
    split
    · split
      · exact ⟨funded.counted,funded.resident⟩
      · have advanced : ∀ inbox n, Funded base (s.advance inbox n) := fun _ _ => ⟨funded.counted,funded.resident⟩
        exact (advanced _ _).drain _ _ _
    · exact funded.buffer _ _ _

end

end CryptoRecv

namespace Inbound
open Machine Paths Streams SendFlow Ledger BlockedStreams

section
variable {terms : Terms} {conn : Connection} {id : Nat}

/-- The streams and their bytes stay, and the budget is for something else. -/
theorem other_effect {after : Connection} (flow : Stable conn.flow after.flow) (half : after.half = conn.half)
    (sent : after.peerSentStreamData = conn.peerSentStreamData) (read : after.recvStreamBytesRead = conn.recvStreamBytesRead)
    (limit : after.localMaxData = conn.localMaxData) (blocked : after.blocked = conn.blocked)
    (even : terms.fits → Housed conn → Balanced conn → Balanced after) : Effect terms 0 0 0 0 conn after := by
  have moved : Effect terms.unfunded 0 0 0 0 conn {conn with flow := after.flow} := stable_effect flow
  refine ⟨moved.role,moved.ids,moved.named,moved.buffers,fun sound id => half ▸ sound id,fun _ _ => half ▸ rfl,
    fun id stop => .inl (half ▸ stop),sent,?_,?_,read,limit.ge,fun _ => blocked ▸ .refl _ _,even⟩
  · unfold reached
    rw [half,Nat.add_zero]
  · unfold finished
    rw [half,Nat.add_zero]

theorem send_effect {s : SendFlow.Stream} {send : SendStream} (found : conn.flow.get id = some s)
    (sound : s.send.bytes.Sound → send.bytes.Sound) {resident : Resident}
    (moved : s.send.bytes.live ≤ conn.resident.bytesResident →
      resident.bytesResident+s.send.bytes.live = conn.resident.bytesResident+send.bytes.live) :
    Effect terms 0 0 0 0 conn {conn with flow := conn.flow.modify id fun s => {s with send := send},resident := resident} := by
  have named : names {conn with flow := conn.flow.modify id fun s => {s with send := send},resident := resident} = names conn := by
    refine FirstMatch.map_update ?_ conn.flow.streams
    exact fun _ => rfl
  refine ⟨rfl,.refl _,named,fun all t member => ?_,fun sound => sound,fun _ _ => rfl,fun _ => .inl,rfl,rfl,rfl,rfl,le_rfl,
    fun _ => .refl _ _,fun _ _ balanced => ⟨?_,balanced.counted⟩⟩
  · obtain ⟨before,after,whole,changed⟩ := FirstMatch.update_split found
    have member' : t ∈ before ++ {s with send := send}::after := by
      rw [← changed fun s => {s with send := send}]
      exact member
    rcases List.mem_append.mp member' with early | later
    · exact all t (whole ▸ List.mem_append_left _ early)
    · rcases List.mem_cons.mp later with rfl | late
      · exact sound (all s (get_named found).2)
      · exact all t (whole ▸ List.mem_append_right _ (List.mem_cons_of_mem _ late))
  · have sum : ((FirstMatch.update (fun s : SendFlow.Stream => decide (s.id = id)) (fun s => {s with send := send})
        conn.flow.streams).map fun s => s.send.bytes.live).sum+s.send.bytes.live =
        (conn.flow.streams.map fun s => s.send.bytes.live).sum+send.bytes.live := sum_update found _
    have held : s.send.bytes.live ≤ (conn.flow.streams.map fun s => s.send.bytes.live).sum :=
      List.single_le_sum (fun _ _ => Nat.zero_le _) _ (List.mem_map_of_mem (get_named found).2)
    have before := balanced.resident
    rw [residentBytesSum_eq] at before ⊢
    rw [named]
    unfold sendBytes at before ⊢
    change _ = (List.map _ (FirstMatch.update _ _ conn.flow.streams)).sum+_+cryptoBytes conn+conn.recvDatagramBytes
    have counter := moved (by omega)
    dsimp only
    omega

end

/-- A step that charges nothing: all that is done with goes back to the connection's window. -/
def Plain (terms : Terms) (conn after : Connection) : Prop := ∃ n, Onward terms 0 0 n n conn after

theorem Same.trans {conn mid after : Connection} (first : Same conn mid) (second : Same mid after) : Same conn after :=
  ⟨second.role.trans first.role,first.ids.trans second.ids,second.streams.trans first.streams,second.half.trans first.half,
    second.resident.trans first.resident,second.crypto.trans first.crypto,second.datagrams.trans first.datagrams,
    second.blocked.trans first.blocked,second.params.trans first.params,second.sent.trans first.sent,
    second.read.trans first.read,second.limit.trans first.limit⟩

section
variable {terms : Terms} {conn mid after : Connection} {id : Nat}

theorem Effect.plain (effect : Effect terms 0 0 0 0 conn after) : Plain terms conn after := ⟨0,effect.onward⟩

theorem Same.plain (same : Same conn after) : Plain terms conn after := same.effect.plain

theorem Through.plain (through : Through id conn mid) (effect : Effect terms 0 0 0 0 mid after) : Plain terms conn after :=
  ⟨0,through.onward.then effect⟩

theorem blocked_effect (blocked : BlockedStreams) (listed : terms.listed → Listed (names conn) conn.blocked blocked) :
    Effect terms 0 0 0 0 conn {conn with blocked := blocked} := plain_effect rfl rfl rfl rfl rfl rfl rfl le_rfl listed

theorem handleStopSending_plain (housed : Housed conn) (grants : Allocator) (ss : Frame.StopSending) :
    Plain terms conn (conn.handleStopSending grants ss).2 := by
  have spec := sendPartForPeerFrame_through housed grants ss.streamId .stopSending
  unfold Connection.handleStopSending
  generalize conn.sendPartForPeerFrame grants ss.streamId .stopSending = outcome at spec ⊢
  obtain ⟨result,mid⟩ := outcome
  cases result with
  | error e => exact Same.plain spec
  | ok there =>
    cases there with
    | false => exact Same.plain spec
    | true => exact spec.plain (stable_effect (resetOne_stable mid.flow ss.streamId ss.applicationErrorCode))

theorem handleMaxStreamData_plain (housed : Housed conn) (grants : Allocator) (msd : Frame.MaxStreamData) :
    Plain terms conn (conn.handleMaxStreamData grants msd).2 := by
  have spec := sendPartForPeerFrame_through housed grants msd.streamId .maxStreamData
  unfold Connection.handleMaxStreamData
  generalize conn.sendPartForPeerFrame grants msd.streamId .maxStreamData = outcome at spec ⊢
  obtain ⟨result,mid⟩ := outcome
  cases result with
  | error e => exact Same.plain spec
  | ok there =>
    cases there with
    | false => exact Same.plain spec
    | true =>
      dsimp only
      split
      · have raised : Stable mid.flow (mid.flow.modify msd.streamId fun s => {s with sendMaxData := msd.maximumStreamData}) :=
          modify_stable _ _ _ fun _ => ⟨rfl,rfl⟩
        have first : Effect terms 0 0 0 0 mid {mid with
            flow := mid.flow.modify msd.streamId fun s => {s with sendMaxData := msd.maximumStreamData}} := stable_effect raised
        have fewer := clear_sublist mid.blocked.localStreamDataBlocked msd.streamId msd.maximumStreamData
        refine spec.plain (first.trans (blocked_effect _ fun _ => ?_))
        exact ⟨fun once => fewer.nodup once,fun once => once,fun id member => .inl (fewer.subset member),fun _ => .inl⟩
      · exact spec.plain (.refl mid)

theorem handleStreamDataBlocked_plain (granted : Bool) (sdb : Frame.StreamDataBlocked)
    (known : terms.listed → sdb.streamId ∈ names conn) : Plain terms conn (conn.handleStreamDataBlocked granted sdb).2 := by
  unfold Connection.handleStreamDataBlocked
  split
  · exact (close_same conn _ _).plain
  split
  · exact (close_same conn _ _).plain
  dsimp only
  split
  · exact (Same.refl conn).plain
  split
  · exact (close_same conn _ _).plain
  rcases outcome : upsertStreamBlocked granted conn.blocked.peerStreamDataBlocked sdb with ⟨result,list⟩
  cases result with
  | error e =>
    cases e with
    | streamLimitExceeded => exact (close_same conn _ _).plain
    | outOfMemory => exact (Same.refl conn).plain
  | ok changed =>
    refine Effect.plain (blocked_effect _ fun listed => ?_)
    refine ⟨fun once => once,fun once => upsert_nodup outcome once,fun _ => .inl,fun id member => ?_⟩
    rcases upsert_mem outcome member with old | rfl
    · exact .inl old
    · exact .inr (known listed)

theorem handleStreamsBlocked_same (conn : Connection) (sb : Frame.StreamsBlocked) : Same conn (conn.handleStreamsBlocked sb) := by
  unfold Connection.handleStreamsBlocked
  split
  · exact close_same conn _ _
  · have noted : ∀ bidi uni, Same conn {conn with peerStreamsBlockedBidi := bidi,peerStreamsBlockedUni := uni} :=
      fun _ _ => ⟨rfl,.refl _,rfl,rfl,rfl,rfl,rfl,rfl,rfl,rfl,rfl,rfl⟩
    dsimp only
    split
    · exact (noted _ _).trans (maybeAdvertise_same _ _)
    · exact (noted _ _).trans (maybeAdvertise_same _ _)

theorem handleCrypto_plain (grants : Allocator) (conn : Connection) (lvl : EncryptionLevel) (cr : Frame.Crypto) :
    Plain terms conn (conn.handleCrypto grants lvl cr).2 := by
  unfold Connection.handleCrypto
  dsimp only
  have handled : ∀ base, CryptoRecv.Funded base {conn.crypto lvl with resident := conn.resident,pendingClose := conn.flow.pendingClose} →
      CryptoRecv.Funded base (CryptoRecv.handleCrypto grants
        {conn.crypto lvl with resident := conn.resident,pendingClose := conn.flow.pendingClose} cr).2 :=
    fun _ funded => funded.handle grants cr
  generalize CryptoRecv.handleCrypto grants
    {conn.crypto lvl with resident := conn.resident,pendingClose := conn.flow.pendingClose} cr = outcome at handled ⊢
  obtain ⟨result,t⟩ := outcome
  refine Effect.plain (other_effect (.same rfl rfl rfl) rfl rfl rfl rfl rfl fun _ _ balanced => ?_)
  have held : (conn.crypto lvl).cryptoPendingBytes ≤ cryptoBytes conn := by
    refine List.single_le_sum (fun _ _ => Nat.zero_le _) _ (List.mem_map_of_mem ?_)
    cases lvl <;> decide
  have before := balanced.resident
  rw [residentBytesSum_eq] at before
  have funded := handled (conn.resident.bytesResident-(conn.crypto lvl).cryptoPendingBytes)
    ⟨balanced.counted lvl,by dsimp only; omega⟩
  have resident := funded.resident
  have counted := funded.counted
  have moved : total CryptoRecv.cryptoPendingBytes (Function.update conn.crypto lvl t) Connection.levels+
      (conn.crypto lvl).cryptoPendingBytes =
        total CryptoRecv.cryptoPendingBytes conn.crypto Connection.levels+t.cryptoPendingBytes := by
    refine total_update (by decide) ?_ t
    cases lvl <;> decide
  refine ⟨?_,fun other => ?_⟩
  · rw [residentBytesSum_eq]
    change t.resident.bytesResident = sendBytes conn+total recvBytes conn.half (names conn)+
      total CryptoRecv.cryptoPendingBytes (Function.update conn.crypto lvl t) Connection.levels+conn.recvDatagramBytes
    change _ = _+total CryptoRecv.cryptoPendingBytes conn.crypto Connection.levels+_ at before
    change _ ≤ total CryptoRecv.cryptoPendingBytes conn.crypto Connection.levels at held
    dsimp only at resident
    omega
  · change (Function.update conn.crypto lvl t other).cryptoPendingBytes =
      ((Function.update conn.crypto lvl t other).cryptoPending.map (·.data.length)).sum
    by_cases same : other = lvl
    · rw [same,Function.update_self]
      exact counted
    · rw [Function.update_of_ne same]
      exact balanced.counted other

theorem drainInbox_plain (conn : Connection) (lvl : EncryptionLevel) : Plain terms conn (conn.drainInbox lvl) := by
  have still : ∀ other, ((conn.drainInbox lvl).crypto other).cryptoPendingBytes = (conn.crypto other).cryptoPendingBytes ∧
      ((conn.drainInbox lvl).crypto other).cryptoPending = (conn.crypto other).cryptoPending := by
    intro other
    unfold Connection.drainInbox
    by_cases same : other = lvl
    · rw [same]
      dsimp only
      rw [Function.update_self]
      exact ⟨rfl,rfl⟩
    · dsimp only
      rw [Function.update_of_ne same]
      exact ⟨rfl,rfl⟩
  refine Effect.plain (other_effect (.same rfl rfl rfl) rfl rfl rfl rfl rfl fun _ _ balanced => ?_)
  refine ⟨?_,fun other => ?_⟩
  · have levels : (Connection.levels.map fun lvl' => ((conn.drainInbox lvl).crypto lvl').cryptoPendingBytes) =
        Connection.levels.map fun lvl' => (conn.crypto lvl').cryptoPendingBytes :=
      List.map_congr_left fun other _ => (still other).1
    refine balanced.resident.trans ?_
    unfold Connection.residentBytesSum
    rw [levels]
    rfl
  · rw [(still other).1,(still other).2]
    exact balanced.counted other

theorem queueDatagram_effect (grants : Allocator) (conn : Connection) {resident : Resident} (data : List Byte)
    (ok : conn.resident.tryReserveResidentBytes data.length = some resident) :
    Effect terms 0 0 0 0 conn (conn.queueDatagram grants resident data).2 := by
  unfold Connection.queueDatagram
  split
  · refine other_effect (.same rfl rfl rfl) rfl rfl rfl rfl rfl fun _ _ balanced => ⟨?_,balanced.counted⟩
    dsimp only
    rw [Resident.release_reserved ok]
    exact balanced.resident
  · refine other_effect (.same rfl rfl rfl) rfl rfl rfl rfl rfl fun _ _ balanced => ⟨?_,balanced.counted⟩
    have before := balanced.resident
    unfold Connection.residentBytesSum Connection.recvDatagramBytes at before ⊢
    dsimp only
    rw [Resident.reserved ok,List.map_append,List.sum_append,List.map_singleton,List.sum_singleton]
    dsimp only
    omega

theorem handleDatagram_plain (housed : Housed conn) (grants : Allocator) (dg : Frame.Datagram) :
    Plain terms conn (conn.handleDatagram grants dg).2 := by
  unfold Connection.handleDatagram
  dsimp only
  split
  · exact (close_same conn _ _).plain
  split
  · exact (Same.refl conn).plain
  split
  · rename_i resident ok
    exact (queueDatagram_effect grants conn dg.data ok).plain
  · have compacted : Effect terms 0 0 0 0 conn conn.compactReceivePrefixes := compactReceivePrefixes_effect conn housed.halves
    split
    · rename_i resident ok
      exact (compacted.trans (queueDatagram_effect grants _ dg.data ok)).plain
    · exact compacted.plain

theorem receiveDatagramInfo_plain (conn : Connection) : Plain terms conn conn.receiveDatagramInfo := by
  unfold Connection.receiveDatagramInfo
  split
  · exact (Same.refl conn).plain
  · rename_i item rest queue
    refine Effect.plain (other_effect (.same rfl rfl rfl) rfl rfl rfl rfl rfl fun _ _ balanced => ⟨?_,balanced.counted⟩)
    have before := balanced.resident
    unfold Connection.residentBytesSum Connection.recvDatagramBytes at before ⊢
    rw [queue,List.map_cons,List.sum_cons] at before
    unfold Resident.releaseResidentBytes
    dsimp only
    omega

theorem dispatchAcked_effect (grants : Nat → Allocator) (refs : List (Nat × Nat)) (n : Nat) (conn : Connection) :
    Effect terms 0 0 0 0 conn (conn.dispatchAckedPacketToStreams grants n refs).2 := by
  induction refs generalizing n conn with
  | nil => exact .refl conn
  | cons first rest ih =>
    obtain ⟨id,key⟩ := first
    unfold Connection.dispatchAckedPacketToStreams
    split
    · exact ih _ _
    · rename_i s found
      have acked := SendStream.onPacketAcked_drained (grants n) s.send key
      generalize s.send.onPacketAcked (grants n) key = outcome at acked ⊢
      obtain ⟨result,send⟩ := outcome
      cases result with
      | error e =>
        have kept : send.bytes = s.send.bytes := acked
        have same : Effect terms 0 0 0 0 conn {conn with flow := conn.flow.modify id fun s => {s with send := send}} :=
          send_effect found (fun sound => kept.symm ▸ sound) fun _ => by rw [kept]
        cases e with
        | unknownPacket => exact ih _ _
        | _ => exact same
      | ok _ =>
        have drained : SendStream.Drained s.send send := acked
        have moved : Effect terms 0 0 0 0 conn {conn with
            flow := conn.flow.modify id fun s => {s with send := send}
            resident := conn.resident.releaseResidentBytes (s.send.bytes.live-send.bytes.live)} := by
          refine send_effect found drained.sound fun held => ?_
          have fewer := drained.fewer
          unfold Resident.releaseResidentBytes
          dsimp only
          omega
        exact moved.trans (ih _ _)

theorem streamWrite_plain (housed : Housed conn) (grants : Allocator) (id : Nat) (data : List Byte) :
    Plain terms conn (conn.streamWrite grants id data).2 := by
  unfold Connection.streamWrite
  split
  · exact (Same.refl conn).plain
  split
  · exact (Same.refl conn).plain
  rename_i s found
  dsimp only
  have bytes : (conn.flow.followCredit s).bytes = s.send.bytes := by
    unfold SendFlow.Connection.followCredit
    split
    · dsimp only
      split <;> rfl
    · rfl
  generalize min data.length (min _ _) = want
  split
  · refine Effect.plain (send_effect found (fun sound => bytes.symm ▸ sound) fun _ => ?_)
    rw [bytes]
  · rename_i resident ok
    have sound := housed.buffers s (get_named found).2
    have written := SendStream.write_filled (bytes.symm ▸ sound : (conn.flow.followCredit s).bytes.Sound) grants (data.take want)
    have short : (data.take want).length ≤ want := List.length_take_le _ _
    generalize (conn.flow.followCredit s).write grants (data.take want) = outcome at written ⊢
    obtain ⟨result,send⟩ := outcome
    rw [bytes] at written
    cases result with
    | error e =>
      refine Effect.plain (send_effect found (fun _ => written.1) fun _ => ?_)
      rw [Resident.release_reserved ok,written.2]
    | ok accepted =>
      refine Effect.plain (send_effect found (fun _ => written.1) fun _ => ?_)
      obtain ⟨_,live,fits⟩ := written
      rw [Resident.reserved ok,live]
      unfold Resident.releaseResidentBytes
      dsimp only
      omega

theorem pack_spec (notes grants : Nat → Allocator) (maxPayload : Nat) (ready : List Nat) (n : Nat) (blocked : BlockedStreams)
    (p : Packet) :
    Stable p.conn (Connection.pack notes grants maxPayload n ready blocked p).2.2.conn ∧
      Listed (p.conn.streams.map (·.id)) blocked (Connection.pack notes grants maxPayload n ready blocked p).2.1 := by
  induction ready generalizing n blocked p with
  | nil => exact ⟨.refl _,.refl _ _⟩
  | cons id rest ih =>
    unfold Connection.pack
    split
    · exact ⟨.refl _,.refl _ _⟩
    split
    · exact ⟨.refl _,.refl _ _⟩
    dsimp only
    split
    · exact ih _ _ _
    rename_i s found
    split
    · exact ih _ _ _
    rename_i rawChunk _
    have live : s.id ∈ p.conn.streams.map (·.id) := List.mem_map_of_mem (List.mem_of_find?_eq_some found)
    have noted : Listed (p.conn.streams.map (·.id)) blocked
        (Connection.limitChunkToSendFlowAfterPlanned (notes n) p.conn blocked s rawChunk p.plannedConnNewBytes).2 := by
      unfold Connection.limitChunkToSendFlowAfterPlanned
      dsimp only
      split
      · have spec := note_spec (notes n) blocked ⟨s.id,s.sendMaxData⟩
        generalize blocked.noteStreamDataBlocked (notes n) ⟨s.id,s.sendMaxData⟩ = outcome at spec ⊢
        obtain ⟨result,after⟩ := outcome
        obtain ⟨peer,fresh,once,_⟩ := spec
        have listed : Listed (p.conn.streams.map (·.id)) blocked after := by
          refine ⟨once,fun once => peer.symm ▸ once,fun id member => ?_,fun id member => .inl (peer ▸ member)⟩
          rcases fresh id member with old | rfl
          · exact .inl old
          · exact .inr live
        cases result with
        | error e => exact listed
        | ok _ => exact listed
      · exact .refl _ _
    generalize Connection.limitChunkToSendFlowAfterPlanned (notes n) p.conn blocked s rawChunk p.plannedConnNewBytes =
      outcome at noted ⊢
    obtain ⟨result,blocked'⟩ := outcome
    cases result with
    | error e => exact ⟨.refl _,noted⟩
    | ok chunk? =>
    cases chunk? with
    | none => exact ⟨(ih _ _ _).1,noted.trans (ih _ _ _).2⟩
    | some chunk =>
      have added := add_stable (grants n) maxPayload p s chunk
      dsimp only at noted ⊢
      generalize p.add (grants n) maxPayload s chunk = outcome at added ⊢
      obtain ⟨result,p'⟩ := outcome
      have same : p'.conn.streams.map (·.id) = p.conn.streams.map (·.id) := by
        have held := congrArg (List.map Prod.fst) added.held
        rw [List.map_map,List.map_map] at held
        exact held
      cases result with
      | error e => exact ⟨added,noted⟩
      | ok _ =>
        obtain ⟨stable,listed⟩ := ih (n+1) blocked' p'
        exact ⟨added.trans stable,noted.trans (same ▸ listed)⟩

theorem poll_plain (notes : Nat → Allocator) (conn : Connection) (p : SendFlow.Poll) : Plain terms conn (conn.poll notes p).2 := by
  unfold Connection.poll
  split
  · exact (Same.refl conn).plain
  rename_i reset pos _
  have spec := pack_spec notes (fun n => p.grants (n+1)) p.maxPayload p.ready 0 conn.blocked
    {conn := conn.flow,plPos := pos+p.datagramLen}
  generalize Connection.pack notes (fun n => p.grants (n+1)) p.maxPayload 0 p.ready conn.blocked
    {conn := conn.flow,plPos := pos+p.datagramLen} = outcome at spec ⊢
  obtain ⟨result,blocked,packet⟩ := outcome
  obtain ⟨stable,listed⟩ := spec
  have sent : ∀ flow, Stable conn.flow flow → Plain terms conn {conn with flow := flow,blocked := blocked} := by
    intro flow stable
    have first : Effect terms 0 0 0 0 conn {conn with flow := flow} := stable_effect stable
    have same : names {conn with flow := flow} = names conn := first.named
    exact (first.trans (blocked_effect blocked fun _ => same.symm ▸ listed)).plain
  cases result with
  | error e => exact sent _ stable
  | ok _ =>
    dsimp only
    refine sent _ ?_
    split
    · refine stable.trans (Stable.trans ?_ (commit_stable _ _))
      split
      · exact .refl _
      · exact queued_stable _ _
    · exact stable

theorem streamStopSending_there (grants : Allocator) (conn : SendFlow.Connection) (id : Nat)
    (ok : (conn.streamStopSending grants id).1 = .ok ()) : ((conn.streamStopSending grants id).2.get id).isSome = true := by
  unfold SendFlow.Connection.streamStopSending at ok ⊢
  split_ifs at ok ⊢ with may there own hole
  · exact there
  · have spec := materializeStream_spec grants conn id none
    generalize conn.materializeStream grants id none = outcome at spec ok ⊢
    obtain ⟨result,after⟩ := outcome
    obtain rfl : result = .ok () := ok
    obtain ⟨s,streams,named,_⟩ := spec.streams
    unfold SendFlow.Connection.get
    rw [List.find?_isSome]
    exact ⟨s,by rw [streams]; exact List.mem_append_right _ List.mem_cons_self,by simpa using named⟩

theorem queueStopSending_same (granted : Bool) (conn : Connection) (item : Nat × Nat) :
    Same conn (conn.queueStopSending granted item).2 := by
  unfold Connection.queueStopSending
  split_ifs
  · exact .refl conn
  · exact .refl conn
  · exact ⟨rfl,.refl _,rfl,rfl,rfl,rfl,rfl,rfl,rfl,rfl,rfl,rfl⟩

theorem adopt_streams {α : Type} (conn : Connection) (id : Nat) (outcome : SendFlow.Outcome α) :
    (conn.adopt id outcome).2.flow = outcome.2 := by
  unfold Connection.adopt
  dsimp only
  split <;> rfl

theorem streamStopSending_plain (housed : Housed conn) (grants : Nat → Allocator) (id applicationErrorCode : Nat) :
    Plain terms conn (conn.streamStopSending grants id applicationErrorCode).2 := by
  unfold Connection.streamStopSending
  split
  · exact (Same.refl conn).plain
  rename_i may
  have may' : peerMaySendOnStream conn.flow.role id = true := by simpa using may
  have begun : Begun conn (conn.adopt id (conn.flow.streamStopSending (grants 0) id)).2 :=
    adopt_begun housed (streamStopSending_grown (grants 0) conn.flow id)
  have there : (conn.adopt id (conn.flow.streamStopSending (grants 0) id)).1 = .ok () →
      id ∈ names (conn.adopt id (conn.flow.streamStopSending (grants 0) id)).2 := by
    intro ok
    rw [mem_names,adopt_streams]
    refine streamStopSending_there (grants 0) conn.flow id ?_
    unfold Connection.adopt at ok
    cases result : (conn.flow.streamStopSending (grants 0) id).1 with
    | ok _ => rfl
    | error e =>
      rw [result] at ok
      cases ok
  generalize conn.adopt id (conn.flow.streamStopSending (grants 0) id) = outcome at begun there ⊢
  obtain ⟨result,mid⟩ := outcome
  have onward : Onward terms 0 0 0 0 conn mid := ⟨mid,begun,.refl mid⟩
  cases result with
  | error e => exact ⟨0,onward⟩
  | ok _ =>
    dsimp only
    split
    · exact ⟨0,onward⟩
    have queued := queueStopSending_same (grants 1 0) mid (id,applicationErrorCode)
    generalize mid.queueStopSending (grants 1 0) (id,applicationErrorCode) = outcome at queued ⊢
    obtain ⟨result,after⟩ := outcome
    cases result with
    | error e => exact ⟨0,onward.then queued.effect⟩
    | ok _ =>
      have last : id ∈ names after := by
        unfold names
        rw [queued.streams]
        exact there rfl
      have stopped : Effect terms 0 0 0 0 after (after.modifyHalf id fun h => {h with recvStopped := true}) :=
        modifyHalf_effect last (fun _ => rfl) fun _ _ => .inr (queued.role.trans begun.kept.1 ▸ may')
      exact ⟨0,(onward.then queued.effect).then stopped⟩

theorem credit_recv (conn : Connection) (n : Nat) (id : Nat) :
    ((conn.creditConnectionRecvWindow n).half id).recv = (conn.half id).recv := by
  unfold Connection.creditConnectionRecvWindow
  dsimp only
  split_ifs <;> rfl

theorem modifyHalf_recv (conn : Connection) (id other : Nat) {f : RecvHalf → RecvHalf} (kept : ∀ h, (f h).recv = h.recv) :
    ((conn.modifyHalf id f).half other).recv = (conn.half other).recv := by
  change (Function.update conn.half id (f (conn.half id)) other).recv = _
  by_cases same : other = id
  · rw [same,Function.update_self,kept]
  · rw [Function.update_of_ne same]

theorem queueMaxStreamData_recv (granted : Bool) (conn : Connection) (streamId limit id : Nat) :
    ((conn.queueMaxStreamData granted streamId limit).2.half id).recv = (conn.half id).recv := by
  have raised := modifyHalf_recv conn streamId id (f := fun h => {h with recvMaxData := max h.recvMaxData limit}) fun _ => rfl
  unfold Connection.queueMaxStreamData
  dsimp only
  split_ifs
  · exact raised
  · exact raised
  · exact raised
  · rfl
  · rfl
  · rfl

theorem creditStream_recv (granted : Bool) (conn : Connection) (id other : Nat) :
    ((conn.creditStream granted id).2.half other).recv = (conn.half other).recv := by
  unfold Connection.creditStream
  dsimp only
  generalize conn.tuneWindow (conn.half id).recvWindow _ _ = tuned
  have tuned' := modifyHalf_recv conn id other (f := fun h => {h with recvWindow := tuned.2}) fun _ => rfl
  split_ifs
  · exact (queueMaxStreamData_recv _ _ _ _ _).trans tuned'
  · exact (queueMaxStreamData_recv _ _ _ _ _).trans tuned'
  · exact tuned'
  · exact tuned'

theorem afterStreamConsume_recv (granted : Bool) (conn : Connection) (id : Nat) (t : RecvStream) (n : Nat) :
    ((conn.afterStreamConsume granted id t n).2.half id).recv = t := by
  have shrunk : ((conn.shrinkRecv id t).half id).recv = t := by
    change (Function.update conn.half id {conn.half id with recv := t} id).recv = t
    rw [Function.update_self]
  unfold Connection.afterStreamConsume
  dsimp only
  split
  · exact shrunk
  have credited := creditStream_recv granted (conn.shrinkRecv id t) id id
  generalize (conn.shrinkRecv id t).creditStream granted id = outcome at credited ⊢
  obtain ⟨result,mid⟩ := outcome
  cases result with
  | error e => exact credited.trans shrunk
  | ok _ => exact (credit_recv mid n id).trans (credited.trans shrunk)

/-- What a read takes goes back to the connection's window, unless the call fails. -/
def Reads (terms : Terms) (id : Nat) (conn : Connection) (outcome : Outcome Unit) : Prop :=
  match outcome with
  | (.ok _,after) => Plain terms conn after
  | (.error _,after) => Onward terms 0 0 ((after.half id).recv.doneWith-(conn.half id).recv.doneWith) 0 conn after

theorem reads_refused (conn : Connection) (e : Error) : Reads terms id conn (.error e,conn) := by
  unfold Reads
  dsimp only
  rw [Nat.sub_self]
  exact (Effect.refl conn).onward

theorem afterStreamConsume_reads (once : terms.keys.Nodup) (granted : Bool) (counted : id ∈ terms.keys) (there : id ∈ names conn)
    {t : RecvStream} (sound : t.Sound) (kept : RecvStream.Kept (conn.half id).recv t) {n : Nat}
    (done : t.doneWith = (conn.half id).recv.doneWith+n) : Reads terms id conn (conn.afterStreamConsume granted id t n) := by
  have effect : match conn.afterStreamConsume granted id t n with
    | (.ok _,after) => Effect terms 0 0 n n conn after
    | (.error _,after) => Effect terms 0 0 n 0 conn after :=
    afterStreamConsume_effect once granted counted there sound kept done
  have last := afterStreamConsume_recv granted conn id t n
  generalize conn.afterStreamConsume granted id t n = outcome at effect last ⊢
  obtain ⟨result,after⟩ := outcome
  cases result with
  | ok _ => exact ⟨n,Effect.onward effect⟩
  | error e =>
    unfold Reads
    dsimp only at last ⊢
    rw [last,done,Nat.add_sub_cancel_left]
    exact Effect.onward effect

theorem streamConsume_reads (housed : Housed conn) (once : terms.keys.Nodup) (granted : Bool) (id n : Nat)
    (counted : peerMaySendOnStream conn.flow.role id = true → id ∈ names conn → id ∈ terms.keys) :
    Reads terms id conn (conn.streamConsume granted id n) := by
  unfold Connection.streamConsume
  split
  · exact reads_refused conn _
  rename_i may
  split
  · exact reads_refused conn _
  rename_i held
  split
  · exact reads_refused conn _
  rename_i within
  have there : id ∈ names conn := mem_names.mpr (by simpa [Option.isSome_iff_ne_none] using held)
  obtain ⟨t,ok,sound,kept,done⟩ := (housed.halves id).consume (not_lt.mp within)
  rw [ok]
  exact afterStreamConsume_reads once granted (counted (by simpa using may) there) there sound kept done

theorem streamRead_reads (housed : Housed conn) (once : terms.keys.Nodup) (granted : Bool) (id dstLen : Nat)
    (counted : peerMaySendOnStream conn.flow.role id = true → id ∈ names conn → id ∈ terms.keys) :
    Reads terms id conn (Connection.done (conn.streamRead granted id dstLen)) := by
  unfold Connection.streamRead
  split
  · exact reads_refused conn _
  rename_i may
  split
  · exact reads_refused conn _
  rename_i held
  have there : id ∈ names conn := mem_names.mpr (by simpa [Option.isSome_iff_ne_none] using held)
  obtain ⟨bytes,t,ok,sound,kept,done⟩ := (housed.halves id).read dstLen
  rw [ok]
  have reads := afterStreamConsume_reads once granted (counted (by simpa using may) there) there sound kept done
  unfold Connection.done
  dsimp only
  generalize conn.afterStreamConsume granted id t bytes.length = outcome at reads ⊢
  obtain ⟨result,after⟩ := outcome
  cases result with
  | ok _ => exact reads
  | error e => exact reads

theorem frame_stable {flow : SendFlow.Connection} {call : SendFlow.Call} {grants : Allocator} (packets : call.ofPackets = true)
    (kept : Stable flow (SendFlow.frameStep {conn := flow} grants call).conn) :
    Stable flow (SendFlow.step {conn := flow} {call := call,grants := grants}).conn := by
  unfold SendFlow.step
  rw [if_pos packets]
  exact kept

theorem alone_stable (flow : SendFlow.Connection) (call : SendFlow.Call) (alone : call.alone = true) (grants : Allocator) :
    Stable flow (SendFlow.step {conn := flow} {call := call,grants := grants}).conn := by
  cases call with
  | streamFinish id => exact streamFinish_stable flow id
  | streamReset id code => exact streamReset_stable flow id code
  | setRememberedPeerTransportParams params => exact remember_stable flow params
  | peerTransportParams refused => exact peerTransportParams_stable flow refused
  | cachePeerTransportParams refused => exact cachePeerTransportParams_stable flow refused
  | close error => exact close_stable _ _ _ _
  | beginGracefulShutdown | tlsTransportParams _ | tlsEarlyDataSecret | tlsEarlyDataAccepted => exact .same rfl rfl rfl
  | maxData md varint => exact frame_stable rfl (handleMaxData_stable flow md)
  | maxStreams ms =>
    refine frame_stable rfl ?_
    unfold SendFlow.frameStep
    dsimp only
    split <;> exact handleMaxStreams_stable flow ms
  | lost id key => exact frame_stable rfl (dispatchLost_stable grants flow id key)
  | probeRequeued id key => exact frame_stable rfl (dispatchProbe_stable grants flow id key)
  | resetAcked rs => exact frame_stable rfl (dispatchReset_stable flow rs _ fun s => s.onResetAcked_bytes)
  | resetLost rs => exact frame_stable rfl (dispatchReset_stable flow rs _ fun s => s.onResetLost_bytes)
  | _ => cases alone

end

end Inbound
end QuicZig.Conn
