import QuicZig.Conn.CryptoRecv
import QuicZig.Library.Pieces
import QuicZig.Library.Spans
import QuicZig.Library.System

/-! What TLS gets of a CRYPTO stream: for frames of one stream in any order, with any
overlap, the part of it that is there without a gap, and every byte of that once. -/
namespace QuicZig.Conn.CryptoRecv
open Machine Paths Pieces

def Received (frames : List Frame.Crypto) (i : Nat) : Prop :=
  Spans.Covers Frame.Crypto.offset (fun f => f.offset+f.data.length) frames i

/-- The point lies in one of the fragments. -/
def Stored (chunks : List CryptoChunk) (i : Nat) : Prop :=
  Spans.Covers CryptoChunk.offset (fun c => c.offset+c.data.length) chunks i

theorem stored_perm {first second : List CryptoChunk} (same : first.Perm second) (i : Nat) :
    Stored first i ↔ Stored second i := by
  unfold Stored Spans.Covers
  simp only [same.mem_iff]

theorem firstReached_spec (floor : Nat) (list : List CryptoChunk) :
    match firstReached floor list with
    | none => ∀ c ∈ list, floor < c.offset
    | some (c,others) =>
      list.Perm (c::others) ∧ (checkedAdd c.offset c.data.length = none ∨ c.offset ≤ floor) := by
  induction list with
  | nil => exact fun c member => nomatch member
  | cons c rest ih =>
    unfold firstReached
    by_cases reached : checkedAdd c.offset c.data.length = none ∨ c.offset ≤ floor
    · rw [if_pos reached]
      exact ⟨.refl _,reached⟩
    · rw [if_neg reached]
      cases outcome : firstReached floor rest with
      | none =>
        rw [outcome] at ih
        exact List.forall_mem_cons.mpr ⟨not_le.mp fun low => reached (.inr low),ih⟩
      | some found =>
        rw [outcome] at ih
        exact ⟨(ih.1.cons c).trans (.swap _ _ _),ih.2⟩

/-- Every fragment is a piece of the stream, and the counter is their total. -/
structure Sound (stream : Nat → Byte) (s : CryptoRecv) : Prop where
  whole : ∀ c ∈ s.cryptoPending, c.offset+c.data.length ≤ maxU64
  genuine : ∀ c ∈ s.cryptoPending, c.data = piece stream c.offset c.data.length
  counted : s.cryptoPendingBytes = (s.cryptoPending.map (·.data.length)).sum

/-- The fragments are above all that was delivered. -/
def Above (s : CryptoRecv) : Prop := ∀ c ∈ s.cryptoPending, s.cryptoRecvOffset < c.offset

/-- The points that were delivered or wait. -/
def Has (s : CryptoRecv) (i : Nat) : Prop := i < s.cryptoRecvOffset ∨ Stored s.cryptoPending i

/-- `handed` and the inbox make up the stream as far as the floor. -/
def InOrder (stream : Nat → Byte) (handed : List Byte) (s : CryptoRecv) : Prop :=
  handed ++ s.inbox.bytes = piece stream 0 s.cryptoRecvOffset

/-- What a move of bytes from the fragments to the inbox keeps. -/
structure Moves (stream : Nat → Byte) (handed : List Byte) (s after : CryptoRecv) : Prop where
  sound : Sound stream after
  inOrder : InOrder stream handed after
  has : ∀ i, Has after i ↔ Has s i
  still : after.pendingClose = s.pendingClose

variable {stream : Nat → Byte} {handed : List Byte}

theorem Moves.trans {s mid after : CryptoRecv} (first : Moves stream handed s mid) (second : Moves stream handed mid after) :
    Moves stream handed s after :=
  ⟨second.sound,second.inOrder,fun i => (second.has i).trans (first.has i),second.still.trans first.still⟩

theorem Sound.discard {s : CryptoRecv} {c : CryptoChunk} {others : List CryptoChunk} (sound : Sound stream s)
    (split : s.cryptoPending.Perm (c::others)) : Sound stream (s.discard c others) := by
  refine ⟨fun d member => sound.whole d (split.mem_iff.mpr (List.mem_cons_of_mem _ member)),
    fun d member => sound.genuine d (split.mem_iff.mpr (List.mem_cons_of_mem _ member)),?_⟩
  have total := (split.map fun d => d.data.length).sum_nat
  rw [List.map_cons,List.sum_cons,← sound.counted] at total
  unfold CryptoRecv.discard
  dsimp only
  rw [total,Nat.add_sub_cancel_left]

theorem Sound.advance {s : CryptoRecv} (sound : Sound stream s) (inbox : CryptoBuffer) (n : Nat) :
    Sound stream (s.advance inbox n) :=
  ⟨sound.whole,sound.genuine,sound.counted⟩

theorem discard_moves {s : CryptoRecv} {c : CryptoChunk} {others : List CryptoChunk} (sound : Sound stream s)
    (inOrder : InOrder stream handed s) (split : s.cryptoPending.Perm (c::others))
    (stale : c.offset+c.data.length ≤ s.cryptoRecvOffset) : Moves stream handed s (s.discard c others) := by
  refine ⟨sound.discard split,inOrder,fun i => ?_,rfl⟩
  unfold Has
  rw [stored_perm split]
  unfold Stored CryptoRecv.discard
  dsimp only
  rw [Spans.covers_cons]
  constructor
  · rintro (below | there)
    · exact .inl below
    · exact .inr (.inr there)
  · rintro (below | here | there)
    · exact .inl below
    · exact .inl (by omega)
    · exact .inr there

theorem piece_advances {s : CryptoRecv} {offset : Nat} {data : List Byte} {inbox : CryptoBuffer}
    (inOrder : InOrder stream handed s) (genuine : data = piece stream offset data.length)
    (low : offset ≤ s.cryptoRecvOffset) (high : s.cryptoRecvOffset < offset+data.length)
    (grown : inbox.bytes = s.inbox.bytes ++ data.drop (s.cryptoRecvOffset-offset)) :
    InOrder stream handed (s.advance inbox (data.drop (s.cryptoRecvOffset-offset)).length) ∧
      (s.advance inbox (data.drop (s.cryptoRecvOffset-offset)).length).cryptoRecvOffset = offset+data.length := by
  have tail : data.drop (s.cryptoRecvOffset-offset) =
      piece stream s.cryptoRecvOffset (offset+data.length-s.cryptoRecvOffset) := by
    rw [genuine,piece_drop,length_piece,Nat.add_sub_cancel' low]
    congr 1
    omega
  have size : (data.drop (s.cryptoRecvOffset-offset)).length = offset+data.length-s.cryptoRecvOffset := by
    rw [tail,length_piece]
  unfold InOrder advance at *
  dsimp only
  rw [grown,← List.append_assoc,inOrder,size,tail]
  exact ⟨piece_append_zero _ _,by omega⟩

theorem deliver_moves {s : CryptoRecv} {c : CryptoChunk} {others : List CryptoChunk} {inbox : CryptoBuffer}
    (sound : Sound stream s) (inOrder : InOrder stream handed s) (split : s.cryptoPending.Perm (c::others))
    (low : c.offset ≤ s.cryptoRecvOffset) (high : s.cryptoRecvOffset < c.offset+c.data.length)
    (grown : inbox.bytes = s.inbox.bytes ++ c.data.drop (s.cryptoRecvOffset-c.offset)) :
    Moves stream handed s ((s.advance inbox (c.data.drop (s.cryptoRecvOffset-c.offset)).length).discard c others) := by
  have genuine := sound.genuine c (split.mem_iff.mpr List.mem_cons_self)
  obtain ⟨later,floor⟩ := piece_advances inOrder genuine low high grown
  refine ⟨(sound.advance inbox _).discard split,later,fun i => ?_,rfl⟩
  change (i < (s.advance inbox _).cryptoRecvOffset ∨ Stored others i) ↔ _
  unfold Has
  rw [stored_perm split,floor]
  unfold Stored
  rw [Spans.covers_cons]
  constructor
  · rintro (below | there)
    · by_cases old : i < s.cryptoRecvOffset
      · exact .inl old
      · exact .inr (.inl ⟨by omega,below⟩)
    · exact .inr (.inr there)
  · rintro (below | ⟨_,inside⟩ | there)
    · exact .inl (by omega)
    · exact .inl inside
    · exact .inr there

theorem drainTurns_moves (grants : Allocator) (turns n : Nat) {s : CryptoRecv} (sound : Sound stream s)
    (inOrder : InOrder stream handed s) : Moves stream handed s (s.drainTurns grants turns n).2 := by
  induction turns generalizing s n with
  | zero => exact ⟨sound,inOrder,fun _ => .rfl,rfl⟩
  | succ turns ih =>
    unfold drainTurns
    have reached := firstReached_spec s.cryptoRecvOffset s.cryptoPending
    cases outcome : firstReached s.cryptoRecvOffset s.cryptoPending with
    | none => exact ⟨sound,inOrder,fun _ => .rfl,rfl⟩
    | some found =>
      obtain ⟨c,others⟩ := found
      rw [outcome] at reached
      obtain ⟨split,low⟩ := reached
      have whole : checkedAdd c.offset c.data.length = some (c.offset+c.data.length) :=
        if_pos (sound.whole c (split.mem_iff.mpr List.mem_cons_self))
      have low : c.offset ≤ s.cryptoRecvOffset := low.resolve_left fun past => by rw [whole] at past; cases past
      dsimp only
      rw [whole]
      dsimp only
      split
      · rename_i stale
        have first := discard_moves sound inOrder split stale
        exact first.trans (ih (n+1) first.sound first.inOrder)
      · rename_i high
        have appended := CryptoBuffer.append_spec (grants n) s.inbox (c.data.drop (s.cryptoRecvOffset-c.offset))
        split
        · rename_i inbox refused
          rw [refused] at appended
          cases appended
          exact ⟨sound,inOrder,fun _ => .rfl,rfl⟩
        · rename_i inbox taken
          rw [taken] at appended
          have first := deliver_moves sound inOrder split low (not_le.mp high) appended
          exact first.trans (ih (n+1) first.sound first.inOrder)

theorem drainTurns_above (grants : Allocator) (turns n : Nat) {s : CryptoRecv} (sound : Sound stream s)
    (enough : s.cryptoPending.length ≤ turns) (ok : (s.drainTurns grants turns n).1 = .ok ()) :
    Above (s.drainTurns grants turns n).2 := by
  induction turns generalizing s n with
  | zero =>
    intro c member
    have none : s.cryptoPending = [] := List.eq_nil_of_length_eq_zero (Nat.le_zero.mp enough)
    unfold drainTurns at member
    rw [none] at member
    cases member
  | succ turns ih =>
    unfold drainTurns at ok ⊢
    have reached := firstReached_spec s.cryptoRecvOffset s.cryptoPending
    cases outcome : firstReached s.cryptoRecvOffset s.cryptoPending with
    | none =>
      rw [outcome] at reached
      exact reached
    | some found =>
      obtain ⟨c,others⟩ := found
      rw [outcome] at reached ok
      obtain ⟨split,low⟩ := reached
      have whole : checkedAdd c.offset c.data.length = some (c.offset+c.data.length) :=
        if_pos (sound.whole c (split.mem_iff.mpr List.mem_cons_self))
      have fewer : others.length ≤ turns := by
        have size := split.length_eq
        rw [List.length_cons] at size
        omega
      dsimp only at ok ⊢
      rw [whole] at ok ⊢
      dsimp only at ok ⊢
      split at ok
      · rename_i stale
        rw [if_pos stale]
        exact ih (n+1) (sound.discard split) fewer ok
      · rename_i high
        rw [if_neg high]
        split at ok
        · cases ok
        · exact ih (n+1) ((sound.advance _ _).discard split) fewer ok

theorem drainPendingCrypto_moves (grants : Allocator) {s : CryptoRecv} (sound : Sound stream s)
    (inOrder : InOrder stream handed s) : Moves stream handed s (s.drainPendingCrypto grants).2 :=
  drainTurns_moves grants _ 1 sound inOrder

theorem drainPendingCrypto_above (grants : Allocator) {s : CryptoRecv} (sound : Sound stream s)
    (ok : (s.drainPendingCrypto grants).1 = .ok ()) : Above (s.drainPendingCrypto grants).2 :=
  drainTurns_above grants _ 1 sound (Nat.le_refl _) ok

/-- What a frame may do: nothing, close the connection, fail, move the floor, or wait. -/
inductive Outcome (s : CryptoRecv) (cr : Frame.Crypto) : Except CryptoBuffer.Error Unit → CryptoRecv → Prop where
  | stale (old : cr.data = [] ∨ cr.offset+cr.data.length ≤ s.cryptoRecvOffset) : Outcome s cr (.ok ()) s
  | refused (errorCode : Nat) (reason : String) : Outcome s cr (.ok ()) (s.close errorCode reason)
  | failed (e : CryptoBuffer.Error) : Outcome s cr (.error e) s
  | moved (grants : Allocator) (inbox : CryptoBuffer) (low : cr.offset ≤ s.cryptoRecvOffset)
      (high : s.cryptoRecvOffset < cr.offset+cr.data.length)
      (grown : inbox.bytes = s.inbox.bytes ++ cr.data.drop (s.cryptoRecvOffset-cr.offset)) :
      Outcome s cr
        ((s.advance inbox (cr.data.drop (s.cryptoRecvOffset-cr.offset)).length).drainPendingCrypto grants).1
        ((s.advance inbox (cr.data.drop (s.cryptoRecvOffset-cr.offset)).length).drainPendingCrypto grants).2
  | waits (resident : Resident) (ahead : s.cryptoRecvOffset < cr.offset) (whole : cr.offset+cr.data.length ≤ maxU64)
      (reserved : s.resident.tryReserveResidentBytes cr.data.length = some resident) :
      Outcome s cr (.ok ()) {s with
        resident := resident
        cryptoPending := s.cryptoPending ++ [⟨cr.offset,cr.data⟩]
        cryptoPendingBytes := s.cryptoPendingBytes+cr.data.length}

theorem bufferCrypto_cases (grants : Allocator) (s : CryptoRecv) (cr : Frame.Crypto) (ahead : s.cryptoRecvOffset < cr.offset)
    (whole : cr.offset+cr.data.length ≤ maxU64) :
    Outcome s cr (s.bufferCrypto grants cr.offset cr.data).1 (s.bufferCrypto grants cr.offset cr.data).2 := by
  unfold bufferCrypto
  split
  · exact .refused _ _
  split
  · exact .refused _ _
  split
  · exact .refused _ _
  split
  · exact .refused _ _
  rename_i resident reserved
  split
  · rw [Resident.release_reserved reserved]
    exact .failed _
  · exact .waits resident ahead whole reserved

theorem handleCrypto_cases (grants : Allocator) (s : CryptoRecv) (cr : Frame.Crypto) :
    Outcome s cr (s.handleCrypto grants cr).1 (s.handleCrypto grants cr).2 := by
  unfold handleCrypto
  split
  · rename_i none
    exact .stale (.inl (List.eq_nil_of_length_eq_zero none))
  unfold checkedAdd
  split_ifs with whole
  · dsimp only
    split_ifs with old here
    · exact .stale (.inr old)
    · have low : cr.offset ≤ s.cryptoRecvOffset := by omega
      have appended := CryptoBuffer.append_spec (grants 0) s.inbox (cr.data.drop (s.cryptoRecvOffset-cr.offset))
      split
      · rename_i inbox refused
        rw [refused] at appended
        cases appended
        exact .failed _
      · rename_i inbox taken
        rw [taken] at appended
        exact .moved grants inbox low (not_le.mp old) appended
    · have ahead : s.cryptoRecvOffset < cr.offset := by omega
      rw [Nat.sub_eq_zero_of_le ahead.le,max_eq_left ahead.le]
      exact bufferCrypto_cases grants s cr ahead whole
  · exact .refused _ _

/-- A level at some point of a run: `handed` is what TLS took, `received` the frames, the latest first, and
`failed` tells whether a call came back with an error. -/
structure History where
  recv : CryptoRecv := {}
  handed : List Byte := []
  received : List Frame.Crypto := []
  failed : Bool := false

inductive Event where
  | crypto (grants : Allocator) (cr : Frame.Crypto)
  /-- `pumpTlsInbox` comes to this level. -/
  | pump
  /-- The rest of the connection uses the shared budget, or closes. -/
  | elsewhere (resident : Resident) (closing : Option ConnectionClose)

def step (h : History) : Event → History
  | .crypto grants cr =>
    let (result,recv) := h.recv.handleCrypto grants cr
    {h with recv := recv,received := cr::h.received,failed := h.failed || !result.isOk}
  | .pump =>
    let (bytes,inbox) := h.recv.inbox.drain
    {h with recv := {h.recv with inbox := inbox},handed := h.handed ++ bytes}
  | .elsewhere resident closing =>
    {h with recv := {h.recv with resident := resident,pendingClose := h.recv.pendingClose <|> closing}}

def Consistent (stream : Nat → Byte) : Event → Prop
  | .crypto _ cr => cr.data = piece stream cr.offset cr.data.length
  | _ => True

/-- TLS has the stream as far as the floor; unless a call failed or the connection closes, the floor is the first point
that no frame covered. -/
structure Delivered (stream : Nat → Byte) (h : History) : Prop where
  inOrder : InOrder stream h.handed h.recv
  counted : h.recv.cryptoPendingBytes = (h.recv.cryptoPending.map (·.data.length)).sum
  above : h.failed = false → Above h.recv
  contiguous : h.failed = false → h.recv.pendingClose = none →
    (∀ i < h.recv.cryptoRecvOffset, Received h.received i) ∧ ¬ Received h.received h.recv.cryptoRecvOffset
  discarded : ∀ grants, (h.recv.drainPendingCrypto grants).1 = .ok () → Above (h.recv.drainPendingCrypto grants).2

/-- The invariant: the points of the frames are the ones delivered or stored. -/
structure Tracked (stream : Nat → Byte) (h : History) : Prop where
  sound : Sound stream h.recv
  inOrder : InOrder stream h.handed h.recv
  above : h.failed = false → Above h.recv
  points : h.failed = false → h.recv.pendingClose = none → ∀ i, Received h.received i ↔ Has h.recv i

theorem Tracked.delivered {h : History} (tracked : Tracked stream h) : Delivered stream h := by
  refine ⟨tracked.inOrder,tracked.sound.counted,tracked.above,fun fine opened => ⟨fun i below => ?_,fun there => ?_⟩,
    fun grants ok => drainPendingCrypto_above grants tracked.sound ok⟩
  · exact (tracked.points fine opened i).mpr (.inl below)
  · rcases (tracked.points fine opened _).mp there with below | ⟨c,member,low,_⟩
    · exact lt_irrefl _ below
    · exact absurd (tracked.above fine c member) (not_lt.mpr low)

theorem close_closed (s : CryptoRecv) (errorCode : Nat) (reason : String) : (s.close errorCode reason).pendingClose ≠ none := by
  unfold close
  split
  · rename_i closed
    exact fun none => by rw [none] at closed; cases closed
  · exact Option.some_ne_none _

theorem close_eq (s : CryptoRecv) (errorCode : Nat) (reason : String) :
    ∃ closing, s.close errorCode reason = {s with pendingClose := closing} := by
  unfold close
  split
  · exact ⟨s.pendingClose,rfl⟩
  · exact ⟨_,rfl⟩

theorem tracked_crypto {h : History} (tracked : Tracked stream h) (grants : Allocator) {cr : Frame.Crypto}
    (genuine : cr.data = piece stream cr.offset cr.data.length) : Tracked stream (step h (.crypto grants cr)) := by
  obtain ⟨sound,inOrder,above,points⟩ := tracked
  have cases := handleCrypto_cases grants h.recv cr
  dsimp only [step]
  generalize h.recv.handleCrypto grants cr = outcome at cases ⊢
  obtain ⟨result,after⟩ := outcome
  dsimp only at cases ⊢
  have covers (i : Nat) : Received (cr::h.received) i ↔
      (cr.offset ≤ i ∧ i < cr.offset+cr.data.length) ∨ Received h.received i := Spans.covers_cons _ _ _
  cases cases with
  | stale old =>
    rw [show (!(Except.ok () : Except CryptoBuffer.Error Unit).isOk) = false from rfl,Bool.or_false]
    refine ⟨sound,inOrder,above,fun fine opened i => ?_⟩
    rw [covers,points fine opened]
    refine ⟨fun either => either.elim (fun inside => ?_) id,.inr⟩
    rcases old with none | below
    · rw [none] at inside
      exact absurd inside.2 (not_lt.mpr inside.1)
    · exact .inl (lt_of_lt_of_le inside.2 below)
  | refused errorCode reason =>
    have closed := close_closed h.recv errorCode reason
    obtain ⟨closing,same⟩ := close_eq h.recv errorCode reason
    rw [same] at closed ⊢
    rw [show (!(Except.ok () : Except CryptoBuffer.Error Unit).isOk) = false from rfl,Bool.or_false]
    exact ⟨⟨sound.whole,sound.genuine,sound.counted⟩,inOrder,above,fun _ opened => absurd opened closed⟩
  | failed e =>
    have failed : (h.failed || !(Except.error e : Except CryptoBuffer.Error Unit).isOk) = true := Bool.or_true _
    rw [failed]
    exact ⟨sound,inOrder,Bool.noConfusion,Bool.noConfusion⟩
  | moved grants' inbox low high grown =>
    obtain ⟨inOrder',floor⟩ := piece_advances inOrder genuine low high grown
    have moves := drainPendingCrypto_moves grants' (sound.advance inbox _) inOrder'
    refine ⟨moves.sound,moves.inOrder,fun fine => ?_,fun fine opened i => ?_⟩
    · have ok := (Bool.or_eq_false_iff.mp fine).2
      refine drainPendingCrypto_above grants' (sound.advance inbox _) ?_
      generalize (drainPendingCrypto grants' _).1 = outcome at ok ⊢
      cases outcome with
      | error e => cases ok
      | ok _ => rfl
    · have was := points (Bool.or_eq_false_iff.mp fine).1 (moves.still.symm.trans opened) i
      rw [covers,was]
      refine Iff.trans ?_ (moves.has i).symm
      unfold Has
      rw [floor]
      constructor
      · rintro (⟨_,inside⟩ | below | there)
        · exact .inl inside
        · exact .inl (by omega)
        · exact .inr there
      · rintro (below | there)
        · by_cases old : i < h.recv.cryptoRecvOffset
          · exact .inr (.inl old)
          · exact .inl ⟨by omega,below⟩
        · exact .inr (.inr there)
  | waits resident ahead whole reserved =>
    have last (i : Nat) : Stored (h.recv.cryptoPending ++ [⟨cr.offset,cr.data⟩]) i ↔
        Stored h.recv.cryptoPending i ∨ (cr.offset ≤ i ∧ i < cr.offset+cr.data.length) := by
      unfold Stored
      rw [Spans.covers_append,Spans.covers_cons]
      simp only [Spans.covers_nil,or_false]
    refine ⟨⟨fun c member => ?_,fun c member => ?_,?_⟩,inOrder,fun fine c member => ?_,fun fine opened i => ?_⟩
    · rcases List.mem_append.mp member with old | new
      · exact sound.whole c old
      · rw [List.mem_singleton.mp new]
        exact whole
    · rcases List.mem_append.mp member with old | new
      · exact sound.genuine c old
      · rw [List.mem_singleton.mp new]
        exact genuine
    · dsimp only
      rw [List.map_append,List.sum_append,sound.counted]
      rfl
    · rcases List.mem_append.mp member with old | new
      · exact above (Bool.or_eq_false_iff.mp fine).1 c old
      · rw [List.mem_singleton.mp new]
        exact ahead
    · rw [covers,points (Bool.or_eq_false_iff.mp fine).1 opened]
      unfold Has
      dsimp only
      rw [last]
      tauto

theorem tracked_step {h : History} (tracked : Tracked stream h) {e : Event} (consistent : Consistent stream e) :
    Tracked stream (step h e) := by
  cases e with
  | crypto grants cr => exact tracked_crypto tracked grants consistent
  | pump =>
    refine ⟨⟨tracked.sound.whole,tracked.sound.genuine,tracked.sound.counted⟩,?_,tracked.above,tracked.points⟩
    unfold InOrder step CryptoBuffer.drain
    dsimp only
    rw [List.append_nil]
    exact tracked.inOrder
  | elsewhere resident closing =>
    refine ⟨⟨tracked.sound.whole,tracked.sound.genuine,tracked.sound.counted⟩,tracked.inOrder,tracked.above,
      fun fine opened => tracked.points fine ?_⟩
    unfold step at opened
    dsimp only at opened
    cases was : h.recv.pendingClose with
    | none => rfl
    | some c =>
      rw [was] at opened
      cases opened

/-- Whatever the order of the frames and their overlaps, TLS gets the part of the stream without a gap, each byte once. -/
theorem contiguous_prefix_delivered (resident : Resident) (stream : Nat → Byte) (events : List Event)
    (consistent : ∀ e ∈ events, Consistent stream e) :
    System.Throughout (Delivered stream) step {recv := {resident := resident}} events := by
  have known : ∀ h, System.Reaches (· = {recv := {resident := resident}}) step (fun _ e => Consistent stream e) h →
      Tracked stream h := by
    intro h reached
    refine reached.invariant (Tracked stream) ?_ fun h e tracked consistent => tracked_step tracked consistent
    rintro h rfl
    refine ⟨⟨fun c member => (nomatch member),fun c member => (nomatch member),rfl⟩,rfl,fun _ c member => (nomatch member),
      fun _ _ i => ⟨fun there => ?_,fun there => ?_⟩⟩
    · exact absurd there (Spans.covers_nil i)
    · exact there.elim (fun below => absurd below (Nat.not_lt_zero i)) fun there => absurd there (Spans.covers_nil i)
  exact System.Throughout.of_reaches (fun h reached => (known h reached).delivered) (.start rfl)
    (System.Admits.of_forall consistent _)

/-- Four bytes in two overlapping frames, the second one first. -/
theorem contiguous_prefix_delivered_overlap :
    System.Throughout (Delivered fun i => UInt8.ofNat i) step {recv := {resident := {}}}
      [.crypto granting ⟨1,[1,2,3]⟩,.crypto granting ⟨0,[0,1]⟩,.pump] :=
  contiguous_prefix_delivered {} (fun i => UInt8.ofNat i) _ (by
    intro e member
    fin_cases member
    · rfl
    · rfl
    · trivial)

end QuicZig.Conn.CryptoRecv
