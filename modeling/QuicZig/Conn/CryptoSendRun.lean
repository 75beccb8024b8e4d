import QuicZig.Conn.CryptoSend
import QuicZig.Library.Pieces
import QuicZig.Library.System

/-! Where the CRYPTO bytes of a level are until they are acknowledged. A chunk of a
sent packet is known by the packet's number alone, and two paths may use one number. -/
namespace QuicZig.Conn.CryptoSend
open Machine Pieces

/-- A level at some point of a run: `produced` bytes came from TLS, `carried` says which packet had which chunk,
`acked` are the packets that were acknowledged. -/
structure History where
  send : CryptoSend := {}
  produced : Nat := 0
  carried : List (TrackedPacket × CryptoChunk) := []
  acked : List TrackedPacket := []

inductive Event where
  /-- TLS writes `n` bytes. -/
  | produce (granted : Bool) (n : Nat)
  /-- A packet is sealed and sent. One that is not leaves everything as it was. -/
  | poll (pathId : Nat) (cryptoAllowed : Bool) (room : Nat) (eliciting : Bool)
  | acked (p : TrackedPacket)
  | lost (streams : Bool) (grants : Allocator) (p : TrackedPacket)
  | pto (streams : Bool) (grants copies : Allocator) (firstSampleTaken : Bool) (p : TrackedPacket)
  | probe (grants : Allocator) (p : TrackedPacket)
  | early (grants : TrackedPacket → Allocator)
  | pathFailed (streams : TrackedPacket → Bool) (grants : TrackedPacket → Allocator) (pathId : Nat)
  | retry (granted : Bool)

/-- What a poll puts in its packet. -/
def staged (s : CryptoSend) (cryptoAllowed : Bool) (room : Nat) : Option (CryptoChunk × CryptoSend) :=
  if cryptoAllowed then s.stageCrypto room else none

def step (stream : Nat → Byte) (h : History) : Event → History
  | .produce granted n =>
    match h.send.outbox.append granted (piece stream h.produced n) with
    | (.error _,_) => h
    | (.ok _,outbox) => {h with send := {h.send with outbox := outbox},produced := h.produced+n}
  | .poll pathId cryptoAllowed room eliciting =>
    {h with
      send := h.send.pollLevelOnPath pathId cryptoAllowed room eliciting
      carried := ((h.send.staged cryptoAllowed room).map fun put => (⟨pathId,h.send.nextPn pathId⟩,put.1)).toList ++ h.carried}
  | .acked p => {h with send := h.send.handleAckedPacket p,acked := if p ∈ h.send.sent then p::h.acked else h.acked}
  | .lost streams grants p => {h with send := (h.send.handleLostPacket streams grants p).2}
  | .pto streams grants copies firstSampleTaken p => {h with send := h.send.firePto streams grants copies firstSampleTaken p}
  | .probe grants p => if p ∈ h.send.sent then {h with send := (h.send.requeueSentCryptoForProbe grants p.pn).2} else h
  | .early grants => {h with send := h.send.retransmitHandshakeCryptoEarly grants}
  | .pathFailed streams grants pathId => {h with send := h.send.failPath streams grants pathId}
  | .retry granted => {h with send := h.send.resetInitialRecoveryForRetry granted}

def Has (c : CryptoChunk) (i : Nat) : Prop := c.offset ≤ i ∧ i < c.offset+c.data.length

/-- The chunk is a piece of the stream at its own offset. -/
def Genuine (stream : Nat → Byte) (c : CryptoChunk) : Prop := c.data = piece stream c.offset c.data.length

def Acknowledged (h : History) (i : Nat) : Prop := ∃ entry ∈ h.carried, entry.1 ∈ h.acked ∧ Has entry.2 i

/-- A tracked packet that had the chunk. -/
def Recorded (h : History) (c : SentCryptoChunk) : Prop := ∃ p ∈ h.send.sent, p.pn = c.pn ∧ (p,c.chunk) ∈ h.carried

/-- No byte of the level is dropped or moved. -/
structure Held (stream : Nat → Byte) (h : History) : Prop where
  outbox : h.send.outbox.bytes = piece stream h.send.cryptoSendOffset (h.produced-h.send.cryptoSendOffset)
  retx : ∀ c ∈ h.send.cryptoRetx, Genuine stream c
  sent : ∀ c ∈ h.send.sentCrypto, Genuine stream c.chunk
  held : ∀ i < h.produced, Acknowledged h i ∨ h.send.cryptoSendOffset ≤ i ∨ (∃ c ∈ h.send.cryptoRetx, Has c i) ∨
    ∃ c ∈ h.send.sentCrypto, Has c.chunk i ∧ Recorded h c

/-- The chunks that a loss of the packet puts back in the queue. -/
def owned (s : CryptoSend) (pn : Nat) : List SentCryptoChunk := s.sentCrypto.filter fun c => c.pn = pn && !c.probeRequeued

def Room (s : CryptoSend) (pn : Nat) (streams : Bool) (grants : Allocator) : Prop :=
  s.owned pn = [] ∨ (streams = true ∧ ∀ k < (s.owned pn).length, grants k = true)

/-- No chunk that an ACK discards went out on another path, and what a lost packet owned gets the memory it needs. -/
def Kept (h : History) : Event → Prop
  | .acked p => p ∈ h.send.sent → ∀ c ∈ h.send.sentCrypto, c.pn = p.pn → (p,c.chunk) ∈ h.carried
  | .lost streams grants p => p ∈ h.send.sent → Room h.send p.pn streams grants
  | .pto streams grants _ _ p => p ∈ h.send.sent → Room h.send p.pn streams grants
  | .early grants => ∀ p ∈ h.send.sent, Room h.send p.pn true (grants p)
  | .pathFailed streams grants pathId => ∀ p ∈ h.send.sent, p.pathId = pathId → Room h.send p.pn (streams p) (grants p)
  | _ => True

/-- What putting sent data back into the queue may do: no piece of an unacknowledged chunk is lost on the way. -/
structure Requeues (s after : CryptoSend) : Prop where
  outbox : after.outbox = s.outbox
  offset : after.cryptoSendOffset = s.cryptoSendOffset
  kept : ∀ r ∈ s.cryptoRetx, r ∈ after.cryptoRetx
  copied : ∀ r ∈ after.cryptoRetx, r ∈ s.cryptoRetx ∨ ∃ c ∈ s.sentCrypto, r = c.chunk
  stays : ∀ c ∈ after.sentCrypto, ∃ d ∈ s.sentCrypto, c.pn = d.pn ∧ c.chunk = d.chunk ∧
    (c.probeRequeued = false → d.probeRequeued = false)
  moved : ∀ c ∈ s.sentCrypto, c.probeRequeued = false → c ∈ after.sentCrypto ∨ c.chunk ∈ after.cryptoRetx
  tracked : ∀ c ∈ after.sentCrypto, c.probeRequeued = false → ∀ p ∈ s.sent, p.pn = c.pn → p ∈ after.sent
  fewer : ∀ pn, (after.owned pn).length ≤ (s.owned pn).length
  less : after.sent ⊆ s.sent

theorem Requeues.refl (s : CryptoSend) : Requeues s s :=
  ⟨rfl,rfl,fun _ there => there,fun _ there => .inl there,fun c there => ⟨c,there,rfl,rfl,id⟩,fun _ there _ => .inl there,
    fun _ _ _ _ there _ => there,fun _ => Nat.le_refl _,List.Subset.refl _⟩

theorem Requeues.trans {s mid after : CryptoSend} (first : Requeues s mid) (second : Requeues mid after) :
    Requeues s after := by
  refine ⟨second.outbox.trans first.outbox,second.offset.trans first.offset,fun r there => second.kept r (first.kept r there),
    fun r there => ?_,fun c there => ?_,fun c there fresh => ?_,fun c there fresh p sent same => ?_,
    fun pn => (second.fewer pn).trans (first.fewer pn),fun p there => first.less (second.less there)⟩
  · rcases second.copied r there with old | ⟨c,member,same⟩
    · exact first.copied r old
    · obtain ⟨d,earlier,_,chunk,_⟩ := first.stays c member
      exact .inr ⟨d,earlier,same.trans chunk⟩
  · obtain ⟨d,member,pn,chunk,fresh⟩ := second.stays c there
    obtain ⟨e,earlier,pn',chunk',fresh'⟩ := first.stays d member
    exact ⟨e,earlier,pn.trans pn',chunk.trans chunk',fun flag => fresh' (fresh flag)⟩
  · rcases first.moved c there fresh with stays | moved
    · exact second.moved c stays fresh
    · exact .inr (second.kept _ moved)
  · obtain ⟨d,member,pn,_,unflagged⟩ := second.stays c there
    exact second.tracked c there fresh p (first.tracked d member (unflagged fresh) p sent (same.trans pn)) same

theorem requeueLoop_ok (grants : Allocator) (pn n : Nat) (list : List SentCryptoChunk) (retx : List CryptoChunk)
    (room : ∀ k < (list.filter fun c => c.pn = pn && !c.probeRequeued).length, grants (n+k) = true) :
    requeueLoop grants pn n list retx =
      (.ok (),list.filter fun c => c.pn ≠ pn,
        retx ++ (list.filter fun c => c.pn = pn && !c.probeRequeued).map SentCryptoChunk.chunk) := by
  induction list generalizing n retx with
  | nil => simp [requeueLoop]
  | cons c rest ih =>
    unfold requeueLoop
    by_cases here : c.pn = pn
    · rw [if_pos here]
      by_cases flag : c.probeRequeued = true
      · simp only [List.filter_cons,here,flag,decide_true,Bool.not_true,Bool.and_false,Bool.false_eq_true,if_false] at room
        rw [if_pos flag,ih n retx room]
        simp [here,flag]
      · have flag : c.probeRequeued = false := by simpa using flag
        simp only [List.filter_cons,here,flag,decide_true,Bool.not_false,Bool.and_true,if_true,List.length_cons] at room
        have first : grants n = true := room 0 (Nat.succ_pos _)
        have later := ih (n+1) (retx ++ [c.chunk]) fun k below => by
          have next := room (k+1) (Nat.succ_lt_succ below)
          rwa [Nat.add_assoc,Nat.add_comm 1 k]
        rw [if_neg (by simp [flag]),if_neg (by simp [first]),later]
        simp [here,flag,List.append_assoc]
    · simp only [List.filter_cons,here,decide_false,Bool.false_and,Bool.false_eq_true,if_false] at room
      rw [if_neg here,ih n retx room]
      simp [here]

/-- A lost packet whose data finds room: nothing under its number waits for an ACK any more. -/
theorem requeueLostPacketOnPath_requeues {s : CryptoSend} {pn : Nat} {streams : Bool} {grants : Allocator}
    (room : Room s pn streams grants) :
    Requeues s (s.requeueLostPacketOnPath streams grants pn).2 ∧ (s.requeueLostPacketOnPath streams grants pn).2.sent = s.sent ∧
      ∀ c ∈ (s.requeueLostPacketOnPath streams grants pn).2.sentCrypto, c.probeRequeued = false → c.pn ≠ pn := by
  unfold requeueLostPacketOnPath
  split
  · rename_i failed
    refine ⟨.refl s,rfl,fun c there fresh same => ?_⟩
    have none : s.owned pn = [] := room.resolve_right fun both => by simp [both.1] at failed
    have member : c ∈ s.owned pn := List.mem_filter.mpr ⟨there,by simp [same,fresh]⟩
    rw [none] at member
    cases member
  · have granted : ∀ k < (s.owned pn).length, grants (0+k) = true := by
      intro k below
      rw [Nat.zero_add]
      rcases room with none | ⟨_,all⟩
      · rw [none] at below
        exact absurd below (Nat.not_lt_zero k)
      · exact all k below
    unfold requeueSentCryptoForPacket
    rw [requeueLoop_ok grants pn 0 s.sentCrypto s.cryptoRetx granted]
    dsimp only
    refine ⟨⟨rfl,rfl,fun r there => List.mem_append_left _ there,fun r there => ?_,fun c there => ?_,fun c there fresh => ?_,
      fun _ _ _ _ there _ => there,fun other => ?_,List.Subset.refl _⟩,rfl,fun c there _ => by simpa using (List.mem_filter.mp there).2⟩
    · rcases List.mem_append.mp there with old | new
      · exact .inl old
      · obtain ⟨c,member,same⟩ := List.mem_map.mp new
        exact .inr ⟨c,(List.mem_filter.mp member).1,same.symm⟩
    · exact ⟨c,(List.mem_filter.mp there).1,rfl,rfl,id⟩
    · by_cases same : c.pn = pn
      · exact .inr (List.mem_append_right _ (List.mem_map_of_mem (List.mem_filter.mpr ⟨there,by simp [same,fresh]⟩)))
      · exact .inl (List.mem_filter.mpr ⟨there,by simpa using same⟩)
    · exact (List.Sublist.filter _ List.filter_sublist).length_le

theorem Room.shrinks {s after : CryptoSend} {pn : Nat} {streams : Bool} {grants : Allocator} (room : Room s pn streams grants)
    (requeues : Requeues s after) : Room after pn streams grants := by
  rcases room with none | ⟨fine,granted⟩
  · refine .inl (List.eq_nil_of_length_eq_zero (Nat.le_zero.mp ?_))
    have fewer := requeues.fewer pn
    rwa [none] at fewer
  · exact .inr ⟨fine,fun k below => granted k (lt_of_lt_of_le below (requeues.fewer pn))⟩

theorem handleLostPacket_requeues {s : CryptoSend} {p : TrackedPacket} {streams : Bool} {grants : Allocator}
    (room : p ∈ s.sent → Room s p.pn streams grants) : Requeues s (s.handleLostPacket streams grants p).2 := by
  unfold handleLostPacket
  split
  · rename_i there
    obtain ⟨requeues,sent,gone⟩ := requeueLostPacketOnPath_requeues (s := {s with sent := s.sent.erase p}) (room there)
    refine ⟨requeues.outbox,requeues.offset,requeues.kept,requeues.copied,requeues.stays,requeues.moved,
      fun c stays fresh q tracked same => ?_,requeues.fewer,
      fun q there => List.erase_subset ((congrArg (q ∈ ·) sent).mp there)⟩
    rw [sent]
    have other : q ≠ p := fun equal => gone c stays fresh (by rw [← same,equal])
    exact (List.mem_erase_of_ne other).mpr tracked
  · exact .refl s

theorem copyLoop_subset (grants : Allocator) (n : Nat) (list : List CryptoChunk) : copyLoop grants n list ⊆ list := by
  induction list generalizing n with
  | nil => exact List.Subset.refl _
  | cons c rest ih =>
    unfold copyLoop
    split
    · exact List.cons_subset_cons c (ih (n+1))
    · exact List.nil_subset _

/-- A second copy of chunks that are in the queue changes nothing that matters. -/
theorem firePto_requeues {s : CryptoSend} {p : TrackedPacket} {streams : Bool} {grants : Allocator} (copies : Allocator)
    (firstSampleTaken : Bool) (room : p ∈ s.sent → Room s p.pn streams grants) :
    Requeues s (s.firePto streams grants copies firstSampleTaken p) := by
  have lost := handleLostPacket_requeues room
  unfold firePto
  generalize s.handleLostPacket streams grants p = outcome at lost ⊢
  obtain ⟨result,after⟩ := outcome
  cases result with
  | error e => exact lost
  | ok _ =>
    refine lost.trans ?_
    unfold queueHandshakeProbeCopy
    dsimp only
    split
    · exact .refl after
    · refine ⟨rfl,rfl,fun r there => List.mem_append_left _ there,fun r there => .inl ?_,fun c there => ⟨c,there,rfl,rfl,id⟩,
        fun c there _ => .inl there,fun _ _ _ _ there _ => there,fun _ => Nat.le_refl _,List.Subset.refl _⟩
      rcases List.mem_append.mp there with old | copy
      · exact old
      · exact List.mem_of_mem_drop (copyLoop_subset _ _ _ copy)

theorem probeLoop_spec (grants : Allocator) (pn n : Nat) (list : List SentCryptoChunk) (retx : List CryptoChunk) :
    let (_,kept,queued) := probeLoop grants pn n list retx
    (∀ r ∈ retx, r ∈ queued) ∧ (∀ r ∈ queued, r ∈ retx ∨ ∃ c ∈ list, r = c.chunk) ∧
      (∀ c ∈ kept, ∃ d ∈ list, c.pn = d.pn ∧ c.chunk = d.chunk ∧ (c.probeRequeued = false → d.probeRequeued = false)) ∧
      (∀ c ∈ list, c.probeRequeued = false → c ∈ kept ∨ c.chunk ∈ queued) ∧
      ∀ other, (kept.filter fun c => c.pn = other && !c.probeRequeued).length ≤
        (list.filter fun c => c.pn = other && !c.probeRequeued).length := by
  induction list generalizing n retx with
  | nil => exact ⟨fun _ there => there,fun _ there => .inl there,fun _ there => (nomatch there),fun _ there => (nomatch there),
      fun _ => Nat.le_refl _⟩
  | cons c rest ih =>
    unfold probeLoop
    by_cases takes : c.pn = pn ∧ c.probeRequeued = false
    · rw [if_pos takes]
      by_cases refused : (!grants n || !grants (n+1)) = true
      · rw [if_pos refused]
        exact ⟨fun _ there => there,fun _ there => .inl there,fun d there => ⟨d,there,rfl,rfl,id⟩,fun _ there _ => .inl there,
          fun _ => Nat.le_refl _⟩
      · rw [if_neg refused]
        obtain ⟨kept,copied,stays,moved,fewer⟩ := ih (n+2) (retx ++ [c.chunk])
        dsimp only
        refine ⟨fun r there => kept r (List.mem_append_left _ there),fun r there => ?_,fun d there => ?_,fun d there fresh => ?_,
          fun other => ?_⟩
        · rcases copied r there with old | ⟨d,member,same⟩
          · rcases List.mem_append.mp old with old | new
            · exact .inl old
            · exact .inr ⟨c,List.mem_cons_self,List.mem_singleton.mp new⟩
          · exact .inr ⟨d,List.mem_cons_of_mem _ member,same⟩
        · rcases List.mem_cons.mp there with rfl | later
          · exact ⟨c,List.mem_cons_self,rfl,rfl,fun flag => nomatch flag⟩
          · obtain ⟨e,member,same⟩ := stays d later
            exact ⟨e,List.mem_cons_of_mem _ member,same⟩
        · rcases List.mem_cons.mp there with rfl | later
          · exact .inr (kept _ (List.mem_append_right _ List.mem_cons_self))
          · exact (moved d later fresh).imp (List.mem_cons_of_mem _) id
        · rw [List.filter_cons_of_neg (by simp)]
          exact (fewer other).trans ((List.sublist_cons_self c rest).filter _).length_le
    · rw [if_neg takes]
      obtain ⟨kept,copied,stays,moved,fewer⟩ := ih n retx
      dsimp only
      refine ⟨kept,fun r there => ?_,fun d there => ?_,fun d there fresh => ?_,fun other => ?_⟩
      · exact (copied r there).imp id fun ⟨d,member,same⟩ => ⟨d,List.mem_cons_of_mem _ member,same⟩
      · rcases List.mem_cons.mp there with rfl | later
        · exact ⟨d,List.mem_cons_self,rfl,rfl,id⟩
        · obtain ⟨e,member,same⟩ := stays d later
          exact ⟨e,List.mem_cons_of_mem _ member,same⟩
      · rcases List.mem_cons.mp there with rfl | later
        · exact .inl List.mem_cons_self
        · exact (moved d later fresh).imp (List.mem_cons_of_mem _) id
      · rw [List.filter_cons,List.filter_cons]
        split
        · exact Nat.succ_le_succ (fewer other)
        · exact fewer other

theorem requeueSentCryptoForProbe_requeues (grants : Allocator) (s : CryptoSend) (pn : Nat) :
    Requeues s (s.requeueSentCryptoForProbe grants pn).2 := by
  obtain ⟨kept,copied,stays,moved,fewer⟩ := probeLoop_spec grants pn 0 s.sentCrypto s.cryptoRetx
  exact ⟨rfl,rfl,kept,copied,stays,moved,fun _ _ _ _ there _ => there,fewer,List.Subset.refl _⟩

theorem earlyLoop_requeues (grants : TrackedPacket → Allocator) (list : List TrackedPacket) {s : CryptoSend}
    (room : ∀ p ∈ list, Room s p.pn true (grants p)) : Requeues s (s.earlyLoop grants list) := by
  induction list generalizing s with
  | nil => exact .refl s
  | cons p rest ih =>
    unfold earlyLoop
    split
    · have lost := handleLostPacket_requeues fun _ => room p List.mem_cons_self
      generalize s.handleLostPacket true (grants p) p = outcome at lost ⊢
      obtain ⟨result,after⟩ := outcome
      cases result with
      | error e => exact lost
      | ok _ => exact lost.trans (ih fun q member => (room q (List.mem_cons_of_mem _ member)).shrinks lost)
    · exact ih fun q member => room q (List.mem_cons_of_mem _ member)

theorem failPath_requeues {streams : TrackedPacket → Bool} {grants : TrackedPacket → Allocator} {s : CryptoSend} {pathId : Nat}
    (room : ∀ p ∈ s.sent, p.pathId = pathId → Room s p.pn (streams p) (grants p)) :
    Requeues s (s.failPath streams grants pathId) := by
  have walk : ∀ (list : List TrackedPacket) (s : CryptoSend), (∀ p ∈ list, Room s p.pn (streams p) (grants p)) →
      let after := list.foldl (fun s p => (s.requeueLostPacketOnPath (streams p) (grants p) p.pn).2) s
      Requeues s after ∧ after.sent = s.sent ∧
        ∀ p ∈ list, ∀ c ∈ after.sentCrypto, c.probeRequeued = false → c.pn ≠ p.pn := by
    intro list
    induction list with
    | nil => exact fun s _ => ⟨.refl s,rfl,fun p member => nomatch member⟩
    | cons p rest ih =>
      intro s room
      obtain ⟨first,same,gone⟩ := requeueLostPacketOnPath_requeues (room p List.mem_cons_self)
      obtain ⟨later,same',gone'⟩ := ih _ fun q member => (room q (List.mem_cons_of_mem _ member)).shrinks first
      refine ⟨first.trans later,same'.trans same,fun q member c there fresh => ?_⟩
      rcases List.mem_cons.mp member with rfl | member
      · obtain ⟨d,earlier,pn,_,unflagged⟩ := later.stays c there
        exact fun equal => gone d earlier (unflagged fresh) (pn.symm.trans equal)
      · exact gone' q member c there fresh
  unfold failPath
  obtain ⟨requeues,same,gone⟩ := walk (s.sent.filter (·.pathId = pathId)) s fun p member =>
    room p (List.mem_filter.mp member).1 (by simpa using (List.mem_filter.mp member).2)
  refine ⟨requeues.outbox,requeues.offset,requeues.kept,requeues.copied,requeues.stays,requeues.moved,
    fun c there fresh p tracked equal => ?_,requeues.fewer,fun p there => same ▸ (List.mem_filter.mp there).1⟩
  dsimp only
  rw [same]
  refine List.mem_filter.mpr ⟨tracked,?_⟩
  by_contra onPath
  exact gone p (List.mem_filter.mpr ⟨tracked,by simpa using onPath⟩) c there fresh equal.symm

theorem resetInitialRecoveryForRetry_requeues (granted : Bool) (s : CryptoSend) :
    Requeues s (s.resetInitialRecoveryForRetry granted) := by
  unfold resetInitialRecoveryForRetry
  split
  · refine ⟨rfl,rfl,fun r there => List.mem_append_left _ there,fun r there => ?_,fun _ there => (nomatch there),
      fun c there _ => .inr (List.mem_append_right _ (List.mem_map_of_mem there)),fun _ there => (nomatch there),
      fun _ => Nat.zero_le _,List.nil_subset _⟩
    rcases List.mem_append.mp there with old | new
    · exact .inl old
    · obtain ⟨c,member,same⟩ := List.mem_map.mp new
      exact .inr ⟨c,member,same.symm⟩
  · exact .refl s

/-- The invariant: what is not acknowledged is in the queue or in a chunk that waits for its packet. -/
structure Tracks (stream : Nat → Byte) (h : History) : Prop where
  order : h.send.cryptoSendOffset ≤ h.produced
  outbox : h.send.outbox.bytes = piece stream h.send.cryptoSendOffset (h.produced-h.send.cryptoSendOffset)
  retx : ∀ c ∈ h.send.cryptoRetx, Genuine stream c
  sent : ∀ c ∈ h.send.sentCrypto, Genuine stream c.chunk
  recorded : ∀ c ∈ h.send.sentCrypto, c.probeRequeued = false → Recorded h c
  covered : ∀ i < h.send.cryptoSendOffset, Acknowledged h i ∨ (∃ c ∈ h.send.cryptoRetx, Has c i) ∨
    ∃ c ∈ h.send.sentCrypto, c.probeRequeued = false ∧ Has c.chunk i

variable {stream : Nat → Byte}

theorem Tracks.held {h : History} (tracks : Tracks stream h) : Held stream h := by
  refine ⟨tracks.outbox,tracks.retx,tracks.sent,fun i _ => ?_⟩
  by_cases below : i < h.send.cryptoSendOffset
  · rcases tracks.covered i below with acked | queued | ⟨c,member,fresh,has⟩
    · exact .inl acked
    · exact .inr (.inr (.inl queued))
    · exact .inr (.inr (.inr ⟨c,member,has,tracks.recorded c member fresh⟩))
  · exact .inr (.inl (not_lt.mp below))

theorem Tracks.requeue {h : History} {after : CryptoSend} (tracks : Tracks stream h) (requeues : Requeues h.send after) :
    Tracks stream {h with send := after} := by
  refine ⟨?_,?_,fun r there => ?_,fun c there => ?_,fun c there fresh => ?_,fun i below => ?_⟩
  · dsimp only
    rw [requeues.offset]
    exact tracks.order
  · dsimp only
    rw [requeues.offset,requeues.outbox]
    exact tracks.outbox
  · rcases requeues.copied r there with old | ⟨c,member,same⟩
    · exact tracks.retx r old
    · exact same ▸ tracks.sent c member
  · obtain ⟨d,member,_,same,_⟩ := requeues.stays c there
    exact same ▸ tracks.sent d member
  · obtain ⟨d,member,pn,same,unflagged⟩ := requeues.stays c there
    obtain ⟨p,tracked,number,carried⟩ := tracks.recorded d member (unflagged fresh)
    have number : p.pn = c.pn := number.trans pn.symm
    exact ⟨p,requeues.tracked c there fresh p tracked number,number,same ▸ carried⟩
  · rw [show ({h with send := after} : History).send.cryptoSendOffset = h.send.cryptoSendOffset from requeues.offset] at below
    rcases tracks.covered i below with acked | ⟨r,member,has⟩ | ⟨c,member,fresh,has⟩
    · exact .inl acked
    · exact .inr (.inl ⟨r,requeues.kept r member,has⟩)
    · rcases requeues.moved c member fresh with stays | moved
      · exact .inr (.inr ⟨c,stays,fresh,has⟩)
      · exact .inr (.inl ⟨_,moved,has⟩)

theorem discardLoop_spec (pn : Nat) (list : List SentCryptoChunk) (retx : List CryptoChunk) :
    (discardLoop pn list retx).1 = list.filter (fun c => c.pn ≠ pn) ∧ (∀ r ∈ (discardLoop pn list retx).2, r ∈ retx) ∧
      ∀ r ∈ retx, r ∈ (discardLoop pn list retx).2 ∨
        ∃ c ∈ list, c.pn = pn ∧ r.offset = c.offset ∧ r.data.length = c.data.length := by
  induction list generalizing retx with
  | nil => exact ⟨rfl,fun _ there => there,fun _ there => .inl there⟩
  | cons c rest ih =>
    unfold discardLoop
    by_cases here : c.pn = pn
    · rw [if_pos here,List.filter_cons_of_neg (by simpa using here)]
      obtain ⟨kept,subset,removed⟩ := ih
        (if c.probeRequeued then retx.filter fun r => !(r.offset = c.offset && r.data.length = c.data.length) else retx)
      refine ⟨kept,fun r there => ?_,fun r there => ?_⟩
      · have earlier := subset r there
        split at earlier
        · exact (List.mem_filter.mp earlier).1
        · exact earlier
      · by_cases stays : r ∈ if c.probeRequeued then
            retx.filter fun r => !(r.offset = c.offset && r.data.length = c.data.length) else retx
        · exact (removed r stays).imp id fun ⟨d,member,same⟩ => ⟨d,List.mem_cons_of_mem _ member,same⟩
        · refine .inr ⟨c,List.mem_cons_self,here,?_⟩
          split at stays
          · by_contra differs
            exact stays (List.mem_filter.mpr ⟨there,by simp only [← Bool.decide_and,differs,decide_false,Bool.not_false]⟩)
          · exact absurd there stays
    · rw [if_neg here,List.filter_cons_of_pos (by simpa using here)]
      obtain ⟨kept,subset,removed⟩ := ih retx
      dsimp only
      exact ⟨congrArg (c::·) kept,subset,
        fun r there => (removed r there).imp id fun ⟨d,member,same⟩ => ⟨d,List.mem_cons_of_mem _ member,same⟩⟩

theorem tracks_acked {h : History} (tracks : Tracks stream h) {p : TrackedPacket} (kept : Kept h (.acked p)) :
    Tracks stream (step stream h (.acked p)) := by
  dsimp only [step]
  unfold handleAckedPacket
  by_cases there : p ∈ h.send.sent
  · rw [if_pos there,if_pos there]
    have own := kept there
    obtain ⟨stays,subset,removed⟩ := discardLoop_spec p.pn h.send.sentCrypto h.send.cryptoRetx
    have known (c : SentCryptoChunk) (member : c ∈ h.send.sentCrypto) (number : c.pn = p.pn) (i : Nat)
        (has : Has c.chunk i) : ∃ entry ∈ h.carried, entry.1 ∈ p::h.acked ∧ Has entry.2 i :=
      ⟨(p,c.chunk),own c member number,List.mem_cons_self,has⟩
    unfold discardSentCryptoForPacket
    dsimp only
    generalize discardLoop p.pn h.send.sentCrypto h.send.cryptoRetx = outcome at stays subset removed ⊢
    obtain ⟨sentCrypto,cryptoRetx⟩ := outcome
    dsimp only at stays subset removed ⊢
    have earlier (c : SentCryptoChunk) (member : c ∈ sentCrypto) : c ∈ h.send.sentCrypto ∧ c.pn ≠ p.pn := by
      rw [stays] at member
      exact ⟨(List.mem_filter.mp member).1,by simpa using (List.mem_filter.mp member).2⟩
    refine ⟨tracks.order,tracks.outbox,fun r member => tracks.retx r (subset r member),
      fun c member => tracks.sent c (earlier c member).1,fun c member fresh => ?_,fun i below => ?_⟩
    · obtain ⟨member,other⟩ := earlier c member
      obtain ⟨q,tracked,number,carried⟩ := tracks.recorded c member fresh
      have apart : q ≠ p := fun equal => other (by rw [← number,equal])
      exact ⟨q,(List.mem_erase_of_ne apart).mpr tracked,number,carried⟩
    · rcases tracks.covered i below with ⟨entry,carried,acked,has⟩ | ⟨r,member,has⟩ | ⟨c,member,fresh,has⟩
      · exact .inl ⟨entry,carried,List.mem_cons_of_mem _ acked,has⟩
      · rcases removed r member with stays | ⟨c,member,number,offset,length⟩
        · exact .inr (.inl ⟨r,stays,has⟩)
        · exact .inl (known c member number i (by unfold Has at has; rwa [offset,length] at has))
      · by_cases number : c.pn = p.pn
        · exact .inl (known c member number i has)
        · refine .inr (.inr ⟨c,?_,fresh,has⟩)
          rw [stays]
          exact List.mem_filter.mpr ⟨member,by simpa using number⟩
  · rw [if_neg there,if_neg there]
    exact tracks

theorem tracks_produce {h : History} (tracks : Tracks stream h) (granted : Bool) (n : Nat) :
    Tracks stream (step stream h (.produce granted n)) := by
  dsimp only [step]
  have appended := CryptoBuffer.append_spec granted h.send.outbox (piece stream h.produced n)
  generalize h.send.outbox.append granted (piece stream h.produced n) = outcome at appended ⊢
  obtain ⟨result,outbox⟩ := outcome
  cases result with
  | error e => exact tracks
  | ok _ =>
    refine ⟨tracks.order.trans (Nat.le_add_right _ _),?_,tracks.retx,tracks.sent,tracks.recorded,tracks.covered⟩
    dsimp only at appended ⊢
    have joined := @piece_append _ stream h.send.cryptoSendOffset (h.produced-h.send.cryptoSendOffset) n
    rw [Nat.add_sub_cancel' tracks.order] at joined
    rw [appended,tracks.outbox,joined,Nat.sub_add_comm tracks.order]

/-- What a poll takes is a piece of the stream, and all the rest stays where it was. -/
structure Takes (stream : Nat → Byte) (produced : Nat) (s : CryptoSend) (chunk : CryptoChunk) (after : CryptoSend) : Prop where
  genuine : Genuine stream chunk
  order : after.cryptoSendOffset ≤ produced
  outbox : after.outbox.bytes = piece stream after.cryptoSendOffset (produced-after.cryptoSendOffset)
  retx : ∀ c ∈ after.cryptoRetx, Genuine stream c
  fresh : ∀ i < after.cryptoSendOffset, i < s.cryptoSendOffset ∨ Has chunk i
  queued : ∀ i, (∃ c ∈ s.cryptoRetx, Has c i) → Has chunk i ∨ ∃ c ∈ after.cryptoRetx, Has c i

theorem stageCrypto_rest {s : CryptoSend} {room : Nat} {chunk : CryptoChunk} {after : CryptoSend}
    (staged : s.stageCrypto room = some (chunk,after)) : after.sentCrypto = s.sentCrypto ∧ after.sent = s.sent := by
  unfold stageCrypto at staged
  split at staged
  · cases staged
  split at staged
  · dsimp only at staged
    split at staged
    · cases staged
      exact ⟨rfl,rfl⟩
    · cases staged
      exact ⟨rfl,rfl⟩
  · split at staged
    · cases staged
      exact ⟨rfl,rfl⟩
    · cases staged

theorem stageCrypto_takes {h : History} (tracks : Tracks stream h) {room : Nat} {chunk : CryptoChunk} {after : CryptoSend}
    (staged : h.send.stageCrypto room = some (chunk,after)) : Takes stream h.produced h.send chunk after := by
  unfold stageCrypto at staged
  split at staged
  · cases staged
  split at staged
  · rename_i c rest queue
    have genuine := tracks.retx c (by rw [queue]; exact List.mem_cons_self)
    have others (d : CryptoChunk) (member : d ∈ rest) : Genuine stream d :=
      tracks.retx d (by rw [queue]; exact List.mem_cons_of_mem _ member)
    dsimp only at staged
    split at staged
    · cases staged
      refine ⟨genuine,tracks.order,tracks.outbox,others,fun i below => .inl below,fun i ⟨d,member,has⟩ => ?_⟩
      rw [queue] at member
      rcases List.mem_cons.mp member with rfl | later
      · exact .inl has
      · exact .inr ⟨d,later,has⟩
    · rename_i cut
      cases staged
      have short : min c.data.length room ≤ c.data.length := Nat.min_le_left _ _
      generalize min c.data.length room = sendLen at cut short ⊢
      refine ⟨?_,tracks.order,tracks.outbox,fun d member => ?_,fun i below => .inl below,fun i ⟨d,member,has⟩ => ?_⟩
      · unfold Genuine at *
        dsimp only
        rw [List.length_take,Nat.min_eq_left short,genuine,piece_take _ _ _ short]
      · rcases List.mem_cons.mp member with rfl | later
        · unfold Genuine at *
          dsimp only
          rw [List.length_drop,genuine,piece_drop,length_piece]
        · exact others d later
      · rw [queue] at member
        rcases List.mem_cons.mp member with rfl | later
        · obtain ⟨low,high⟩ := has
          by_cases front : i < d.offset+sendLen
          · exact .inl ⟨low,by dsimp only; rw [List.length_take,Nat.min_eq_left short]; exact front⟩
          · refine .inr ⟨_,List.mem_cons_self,not_lt.mp front,?_⟩
            dsimp only
            rw [List.length_drop]
            omega
        · exact .inr ⟨d,List.mem_cons_of_mem _ later,has⟩
  · rename_i queue
    split at staged
    · rename_i waiting
      cases staged
      have size : h.send.outbox.bytes.length = h.produced-h.send.cryptoSendOffset := by rw [tracks.outbox,length_piece]
      have short : min h.send.outbox.bytes.length room ≤ h.send.outbox.bytes.length := Nat.min_le_left _ _
      generalize min h.send.outbox.bytes.length room = drainLen at short ⊢
      have order := tracks.order
      refine ⟨?_,?_,?_,?_,fun i below => ?_,fun i ⟨d,member,_⟩ => ?_⟩
      · unfold Genuine
        dsimp only
        rw [List.length_take,Nat.min_eq_left short,tracks.outbox,piece_take _ _ _ (size ▸ short)]
      · dsimp only
        omega
      · dsimp only
        rw [tracks.outbox,piece_drop,Nat.sub_sub]
      · dsimp only
        rw [queue]
        exact fun c member => nomatch member
      · by_cases old : i < h.send.cryptoSendOffset
        · exact .inl old
        · refine .inr ⟨not_lt.mp old,?_⟩
          dsimp only at below ⊢
          rwa [List.length_take,Nat.min_eq_left short]
      · rw [queue] at member
        cases member
    · cases staged

theorem tracks_poll {h : History} (tracks : Tracks stream h) (pathId : Nat) (cryptoAllowed : Bool) (room : Nat)
    (eliciting : Bool) : Tracks stream (step stream h (.poll pathId cryptoAllowed room eliciting)) := by
  dsimp only [step]
  unfold pollLevelOnPath staged
  dsimp only
  cases taken : if cryptoAllowed then h.send.stageCrypto room else none with
  | none =>
    refine ⟨tracks.order,tracks.outbox,tracks.retx,tracks.sent,fun c member fresh => ?_,tracks.covered⟩
    obtain ⟨p,tracked,number,carried⟩ := tracks.recorded c member fresh
    refine ⟨p,?_,number,carried⟩
    dsimp only
    split
    · exact List.mem_append_left _ tracked
    · exact tracked
  | some put =>
    obtain ⟨chunk,after⟩ := put
    have picked : h.send.stageCrypto room = some (chunk,after) := by
      split at taken
      · exact taken
      · cases taken
    have takes := stageCrypto_takes tracks picked
    obtain ⟨sentCrypto,sent⟩ := stageCrypto_rest picked
    refine ⟨takes.order,takes.outbox,takes.retx,fun c member => ?_,fun c member fresh => ?_,fun i below => ?_⟩
    · rcases List.mem_append.mp member with old | new
      · exact tracks.sent c (sentCrypto ▸ old)
      · rw [List.mem_singleton.mp new]
        exact takes.genuine
    · rcases List.mem_append.mp member with old | new
      · obtain ⟨p,tracked,number,carried⟩ := tracks.recorded c (sentCrypto ▸ old) fresh
        exact ⟨p,List.mem_append_left _ (sent.symm ▸ tracked),number,List.mem_cons_of_mem _ carried⟩
      · rw [List.mem_singleton.mp new]
        exact ⟨⟨pathId,h.send.nextPn pathId⟩,List.mem_append_right _ List.mem_cons_self,rfl,List.mem_cons_self⟩
    · let last : SentCryptoChunk := {pn := h.send.nextPn pathId,offset := chunk.offset,data := chunk.data}
      have carried (has : Has chunk i) : ∃ c ∈ after.sentCrypto ++ [last], c.probeRequeued = false ∧ Has c.chunk i :=
        ⟨last,List.mem_append_right _ List.mem_cons_self,rfl,has⟩
      rcases takes.fresh i below with below | has
      · rcases tracks.covered i below with ⟨entry,there,acked,has⟩ | queued | ⟨c,member,fresh,has⟩
        · exact .inl ⟨entry,List.mem_cons_of_mem _ there,acked,has⟩
        · exact (takes.queued i queued).elim (fun has => .inr (.inr (carried has))) fun stays => .inr (.inl stays)
        · exact .inr (.inr ⟨c,List.mem_append_left _ (sentCrypto.symm ▸ member),fresh,has⟩)
      · exact .inr (.inr (carried has))

theorem tracks_step {h : History} {e : Event} (tracks : Tracks stream h) (kept : Kept h e) : Tracks stream (step stream h e) := by
  cases e with
  | produce granted n => exact tracks_produce tracks granted n
  | poll pathId cryptoAllowed room eliciting => exact tracks_poll tracks pathId cryptoAllowed room eliciting
  | acked p => exact tracks_acked tracks kept
  | lost streams grants p => exact tracks.requeue (handleLostPacket_requeues kept)
  | pto streams grants copies firstSampleTaken p => exact tracks.requeue (firePto_requeues copies firstSampleTaken kept)
  | probe grants p =>
    dsimp only [step]
    split
    · exact tracks.requeue (requeueSentCryptoForProbe_requeues grants h.send p.pn)
    · exact tracks
  | early grants => exact tracks.requeue (earlyLoop_requeues grants h.send.sent kept)
  | pathFailed streams grants pathId => exact tracks.requeue (failPath_requeues kept)
  | retry granted => exact tracks.requeue (resetInitialRecoveryForRetry_requeues granted h.send)

theorem tracks_fresh : Tracks stream {} :=
  ⟨Nat.le_refl _,rfl,fun _ there => (nomatch there),fun _ there => (nomatch there),fun _ there => (nomatch there),
    fun i below => absurd below (Nat.not_lt_zero i)⟩

/-- All packets are on one path, as those of the Initial and the Handshake level are. -/
structure OnePath (h : History) : Prop where
  sent : ∀ p ∈ h.send.sent, p.pathId = 0
  own : ∀ c ∈ h.send.sentCrypto, (⟨0,c.pn⟩,c.chunk) ∈ h.carried

theorem OnePath.kept {h : History} (one : OnePath h) (p : TrackedPacket) : Kept h (.acked p) := by
  intro there c member number
  have same : p = ⟨0,c.pn⟩ := by
    rw [number,← one.sent p there]
  exact same ▸ one.own c member

theorem OnePath.requeue {h : History} {after : CryptoSend} (one : OnePath h) (requeues : Requeues h.send after) :
    OnePath {h with send := after} := by
  refine ⟨fun p there => one.sent p (requeues.less there),fun c there => ?_⟩
  obtain ⟨d,member,number,same,_⟩ := requeues.stays c there
  dsimp only
  rw [number,same]
  exact one.own d member

/-- The condition of a run on one path: ACKs are free of it. -/
def KeptOnePath (h : History) (e : Event) : Prop :=
  match e with
  | .acked _ => True
  | .poll pathId _ _ _ => pathId = 0
  | e => Kept h e

theorem onePath_step {h : History} {e : Event} (one : OnePath h) (kept : KeptOnePath h e) : OnePath (step stream h e) := by
  cases e with
  | produce granted n =>
    dsimp only [step]
    split
    · exact one
    · exact ⟨one.sent,one.own⟩
  | poll pathId cryptoAllowed room eliciting =>
    obtain rfl : pathId = 0 := kept
    dsimp only [step]
    unfold pollLevelOnPath staged
    dsimp only
    cases taken : if cryptoAllowed then h.send.stageCrypto room else none with
    | none =>
      refine ⟨fun p there => ?_,one.own⟩
      dsimp only at there
      split at there
      · rcases List.mem_append.mp there with old | new
        · exact one.sent p old
        · rw [List.mem_singleton.mp new]
      · exact one.sent p there
    | some put =>
      obtain ⟨chunk,after⟩ := put
      have rest : after.sentCrypto = h.send.sentCrypto ∧ after.sent = h.send.sent := by
        split at taken
        · exact stageCrypto_rest taken
        · cases taken
      refine ⟨fun p there => ?_,fun c there => ?_⟩
      · rcases List.mem_append.mp there with old | new
        · exact one.sent p (rest.2 ▸ old)
        · rw [List.mem_singleton.mp new]
      · rcases List.mem_append.mp there with old | new
        · exact List.mem_cons_of_mem _ (one.own c (rest.1 ▸ old))
        · rw [List.mem_singleton.mp new]
          exact List.mem_cons_self
  | acked p =>
    dsimp only [step]
    unfold handleAckedPacket
    split
    · obtain ⟨stays,_,_⟩ := discardLoop_spec p.pn h.send.sentCrypto h.send.cryptoRetx
      refine ⟨fun q there => one.sent q (List.erase_subset there),fun c there => one.own c ?_⟩
      exact (List.mem_filter.mp ((congrArg (c ∈ ·) stays).mp there)).1
    · exact ⟨one.sent,one.own⟩
  | lost streams grants p => exact one.requeue (handleLostPacket_requeues kept)
  | pto streams grants copies firstSampleTaken p => exact one.requeue (firePto_requeues copies firstSampleTaken kept)
  | probe grants p =>
    dsimp only [step]
    split
    · exact one.requeue (requeueSentCryptoForProbe_requeues grants h.send p.pn)
    · exact one
  | early grants => exact one.requeue (earlyLoop_requeues grants h.send.sent kept)
  | pathFailed streams grants pathId => exact one.requeue (failPath_requeues kept)
  | retry granted => exact one.requeue (resetInitialRecoveryForRetry_requeues granted h.send)

theorem KeptOnePath.kept {h : History} {e : Event} (one : OnePath h) (kept : KeptOnePath h e) : Kept h e := by
  cases e with
  | acked p => exact one.kept p
  | poll => trivial
  | _ => exact kept

theorem one_path_held (stream : Nat → Byte) (events : List Event)
    (kept : System.Admits (step stream) KeptOnePath {} events) : System.Throughout (Held stream) (step stream) {} events := by
  have known : ∀ h, System.Reaches (· = {}) (step stream) KeptOnePath h → Tracks stream h ∧ OnePath h := by
    intro h reached
    refine reached.invariant (fun h => Tracks stream h ∧ OnePath h) ?_ fun h e ⟨tracks,one⟩ kept =>
      ⟨tracks_step tracks (kept.kept one),onePath_step one kept⟩
    rintro h rfl
    exact ⟨tracks_fresh,fun _ there => (nomatch there),fun _ there => (nomatch there)⟩
  exact System.Throughout.of_reaches (fun h reached => (known h reached).1.held) (.start rfl) kept

/-- In every run whose ACKs and losses meet the condition, every CRYPTO byte that is not acknowledged waits in the outbox,
in the queue or in a tracked packet, at its own offset. -/
theorem crypto_bytes_held (stream : Nat → Byte) (events : List Event) (kept : System.Admits (step stream) Kept {} events) :
    System.Throughout (Held stream) (step stream) {} events := by
  have known : ∀ h, System.Reaches (· = {}) (step stream) Kept h → Tracks stream h := by
    intro h reached
    refine reached.invariant (Tracks stream) ?_ fun h e tracks kept => tracks_step tracks kept
    rintro h rfl
    exact tracks_fresh
  exact System.Throughout.of_reaches (fun h reached => (known h reached).held) (.start rfl) kept

/-- A chunk is lost, found again by the queue, cut in two, and acknowledged. -/
theorem crypto_bytes_held_cut : System.Throughout (Held fun i => UInt8.ofNat i) (step fun i => UInt8.ofNat i) {}
    [.produce true 3,.poll 0 true 10 false,.lost true granting ⟨0,0⟩,.poll 0 true 2 false,.acked ⟨0,1⟩] :=
  crypto_bytes_held (fun i => UInt8.ofNat i) _ ⟨trivial,trivial,fun _ => .inr ⟨rfl,fun _ _ => rfl⟩,trivial,
    fun _ c member _ => by
      rw [List.mem_singleton.mp (show c ∈ [_] from member)]
      exact List.mem_cons_self,trivial⟩

/-- A path's packet takes the number of another path's: its ACK takes the CRYPTO byte of that packet with it. -/
theorem other_path_discards : ¬ ∀ (stream : Nat → Byte) (events : List Event),
    System.Throughout (Held stream) (step stream) {} events := by
  intro all
  have last := (all (fun _ => 7) [.produce true 1,.poll 0 true 10 false,.poll 1 false 10 true,.acked ⟨1,0⟩]).last
  rcases last.held 0 (by decide) with ⟨entry,carried,acked,_⟩ | ahead | ⟨c,queued,_⟩ | ⟨c,recorded,_⟩
  · obtain rfl : entry = (⟨0,0⟩,⟨0,[7]⟩) := List.mem_singleton.mp carried
    exact absurd acked (by decide)
  · exact absurd ahead (by decide)
  · exact nomatch queued
  · exact nomatch recorded

end QuicZig.Conn.CryptoSend
