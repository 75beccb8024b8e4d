import QuicZig.Conn.SendRun

/-! How far a send stream has sent. A mark splits the written bytes: above it all of them
are still pending, and nothing above it is in flight or acknowledged. Every call keeps the
mark where it is, and a chunk that is sent moves it to its end. -/
namespace QuicZig.Conn.SendRun
open Machine RangeList Spans SendStream

structure Below (highest : Nat) (h : History) : Prop where
  unsent : ∀ x, highest ≤ x → x < h.stream.writeOffset → Covered h.stream.pending x
  inFlight : ∀ pn c, h.stream.inFlight.Holds pn c → c.offset+c.length ≤ highest
  acked : ∀ x, h.stream.Acked x → x < highest
  reach : highest ≤ h.stream.writeOffset

variable {highest : Nat} {h h' : History} {e : Event}

theorem below_fresh (h : History) (fresh : Fresh h) : Below 0 h := by
  obtain ⟨maxBuffered,rfl⟩ := fresh
  refine ⟨by simp [SendStream.init],?_,by simp [SendStream.init,Acked],Nat.zero_le _⟩
  simp [SendStream.init,InFlightMap.Holds,InFlightMap.alive,InFlightMap.entries]

theorem Below.raise (below : Below highest h) {higher : Nat} (up : highest ≤ higher) (within : higher ≤ h.stream.writeOffset) :
    Below higher h :=
  ⟨fun x above => below.unsent x (up.trans above),fun pn c held => (below.inFlight pn c held).trans up,
    fun x acked => (below.acked x acked).trans_le up,within⟩

theorem below_effect (coherent : Coherent h) (below : Below highest h) (effect : Effect h e h')
    (still : ∀ pn maxBytes, e.call ≠ .send pn maxBytes) : Below highest h' := by
  obtain ⟨unsent,inFlight,acked,reach⟩ := below
  have fresh : ∀ x, highest ≤ x → ¬ h.stream.Acked x := fun x above done => absurd (acked x done) (by omega)
  have outside {pn : Nat} {c : Chunk} (held : h.stream.inFlight.Holds pn c) :
      ∀ x, highest ≤ x → ¬ ((range c).offset ≤ x ∧ x < (range c).stop) := by
    rintro x above ⟨_,stop⟩
    have bound := inFlight pn c held
    change x < c.offset+c.length at stop
    omega
  cases effect with
  | quiet idle quiet =>
    obtain ⟨⟨bytes,map,rfl⟩,_,_,_,alive⟩ := quiet
    refine ⟨unsent,fun pn c held => inFlight pn c ?_,acked,reach⟩
    unfold InFlightMap.Holds at held ⊢
    rwa [← alive]
  | wrote call wrote =>
    obtain ⟨⟨bytes,ranges,state,rfl⟩,_,_,_,_,_,covers,_⟩ := wrote
    refine ⟨fun x above within => (covers x).mpr ?_,inFlight,acked,reach.trans (Nat.le_add_right _ _)⟩
    by_cases old : x < h.stream.writeOffset
    · exact .inl (unsent x above old)
    · exact .inr ⟨by omega,within⟩
  | finished call unmarked moved => exact ⟨unsent,inFlight,acked,reach⟩
  | sent call => exact absurd call (still _ _)
  | acked call removed buffered effect =>
    rename_i pn c map s
    obtain ⟨state,advanced,_,_⟩ := maybeAdvanceState_spec s (by
      obtain ⟨_,_,_,_,_,rfl⟩ := effect.frame
      exact coherent.running)
    rw [advanced]
    have marked := effect.acked rfl
    obtain ⟨⟨left,base,above,ranges,flag,rfl⟩,_,_,_,keeps,_,_,_,_,_⟩ := effect
    refine ⟨fun x past within => keeps x (unsent x past within) (outside removed.held x past),
      fun pn c held => inFlight pn c ((removed.members _).mp held).1,fun x done => ?_,reach⟩
    by_contra past
    rcases (marked x).mp done with old | inside
    · exact fresh x (by omega) old
    · exact outside removed.held x (by omega) inside
  | ackFailed call removed buffered refused effect =>
    have marked := effect.failed (by simp)
    obtain ⟨⟨left,base,above,ranges,flag,rfl⟩,_,_,_,keeps,_,_,_,_,_⟩ := effect
    exact ⟨fun x past within => keeps x (unsent x past within) (outside removed.held x past),
      fun pn c held => inFlight pn c ((removed.members _).mp held).1,fun x done => acked x ((marked x).mp done),reach⟩
  | dropped call removed requeued =>
    exact ⟨unsent,fun pn c held => inFlight pn c ((removed.members _).mp held).1,acked,reach⟩
  | lost call removed plain effect =>
    have retains := effect.retains
    obtain ⟨⟨ranges,rfl⟩,_,_,_,_,_⟩ := effect
    exact ⟨fun x past within => retains x (unsent x past within) (fresh x past),
      fun pn c held => inFlight pn c ((removed.members _).mp held).1,acked,reach⟩
  | lossFailed call removed plain refused early effect =>
    have retains := effect.retains
    obtain ⟨⟨ranges,rfl⟩,_,_,_,_,_⟩ := effect
    exact ⟨fun x past within => retains x (unsent x past within) (fresh x past),
      fun pn c held => inFlight pn c ((removed.members _).mp held).1,acked,reach⟩
  | probed call held plain sound members effect =>
    have retains := effect.retains
    obtain ⟨⟨ranges,rfl⟩,_,_,_,_,_⟩ := effect
    refine ⟨fun x past within => retains x (unsent x past within) (fresh x past),?_,acked,reach⟩
    intro pn c held'
    rcases (members _).mp held' with equal | ⟨old,_⟩
    · obtain ⟨_,rfl⟩ := Entry.mk.inj equal
      have bound := inFlight _ _ held
      exact bound
    · exact inFlight pn c old
  | probeFailed call held plain refused early effect =>
    have retains := effect.retains
    obtain ⟨⟨ranges,rfl⟩,_,_,_,_,_⟩ := effect
    exact ⟨fun x past within => retains x (unsent x past within) (fresh x past),inFlight,acked,reach⟩

/-- A chunk that is sent moves the mark to its end, when it ends above it. -/
theorem below_sent (below : Below highest h) {pn higher : Nat} {c : Chunk} {s : SendStream} (effect : SendEffect h.stream pn c s)
    (up : highest ≤ higher) (stop : c.offset+c.length ≤ higher) (within : higher ≤ h.stream.writeOffset) :
    Below higher {h with stream := s} := by
  obtain ⟨unsent,inFlight,acked,_⟩ := below
  obtain ⟨⟨map,ranges,flag,rfl⟩,_,members,covers,_,_,_⟩ := effect
  refine ⟨fun x past written => (covers x).mpr ⟨unsent x (up.trans past) written,fun carried => ?_⟩,?_,
    fun x done => (acked x done).trans_le up,within⟩
  · have := carried.2
    omega
  · intro qn d held
    rcases (members _).mp held with equal | old
    · obtain ⟨_,rfl⟩ := Entry.mk.inj equal
      exact stop
    · exact (inFlight qn d old).trans up

end QuicZig.Conn.SendRun

namespace QuicZig.Conn

namespace SendStream
open RangeList

/-- A part of the stream that the acknowledgements leave alone. -/
structure SameEnd (s after : SendStream) : Prop where
  reset : after.reset = s.reset
  writeOffset : after.writeOffset = s.writeOffset

theorem SameEnd.refl (s : SendStream) : SameEnd s s := ⟨rfl,rfl⟩

theorem SameEnd.trans {s t u : SendStream} (first : SameEnd s t) (second : SameEnd t u) : SameEnd s u :=
  ⟨second.reset.trans first.reset,second.writeOffset.trans first.writeOffset⟩

theorem advanceFloor_sameEnd (s : SendStream) (newFloor : Nat) : SameEnd s (s.advanceFloor newFloor) := by
  unfold advanceFloor
  dsimp only
  split
  · exact .refl s
  · exact ⟨rfl,rfl⟩

theorem absorb_sameEnd (ranges : List Range) (s : SendStream) : SameEnd s (s.absorb ranges) := by
  induction ranges generalizing s with
  | nil => exact ⟨rfl,rfl⟩
  | cons first rest ih =>
    unfold absorb
    split
    · split
      · exact (advanceFloor_sameEnd s first.stop).trans (ih _)
      · exact ih s
    · exact ⟨rfl,rfl⟩

theorem recordAcked_sameEnd (granted : Bool) (s : SendStream) (r : Range) : SameEnd s (s.recordAcked granted r).2 := by
  unfold recordAcked
  dsimp only
  split
  · exact .refl s
  split
  · exact ⟨rfl,rfl⟩
  · exact (advanceFloor_sameEnd s r.stop).trans (absorb_sameEnd _ _)

theorem markAcked_sameEnd (grants : Machine.Allocator) (s : SendStream) (r : Range) : SameEnd s (s.markAcked grants r).2 := by
  unfold markAcked
  split
  · cases removeRange (grants 0) s.pending r with
    | mk result pending =>
    cases result with
    | error e => exact ⟨rfl,rfl⟩
    | ok _ =>
      have scrubbed : SameEnd s {s with pending := pending,probeRequeuedPending := !pending.isEmpty} := ⟨rfl,rfl⟩
      exact scrubbed.trans (recordAcked_sameEnd _ _ r)
  · exact recordAcked_sameEnd _ s r

theorem maybeAdvanceState_sameEnd (s : SendStream) : SameEnd s s.maybeAdvanceState := by
  unfold maybeAdvanceState
  grind [SameEnd]

theorem onPacketAcked_sameEnd (grants : Machine.Allocator) (s : SendStream) (pn : Nat) :
    SameEnd s (s.onPacketAcked grants pn).2 := by
  unfold onPacketAcked
  cases s.inFlight.fetchRemove pn with
  | none => exact .refl s
  | some removed =>
    obtain ⟨c,inFlight⟩ := removed
    have taken : SameEnd s {s with inFlight := inFlight,finAcked := s.finAcked || c.fin} := ⟨rfl,rfl⟩
    dsimp only
    split
    · have marked := taken.trans (markAcked_sameEnd grants _ ⟨c.offset,c.offset+c.length⟩)
      cases outcome : markAcked grants {s with inFlight := inFlight,finAcked := s.finAcked || c.fin} ⟨c.offset,c.offset+c.length⟩ with
      | mk result after =>
      rw [outcome] at marked
      cases result with
      | error e => exact marked
      | ok _ => exact marked.trans (maybeAdvanceState_sameEnd after)
    · exact taken.trans (maybeAdvanceState_sameEnd _)

theorem step_reset {h : SendRun.History} (e : SendRun.Event) (reset : h.stream.reset.isSome = true) :
    SameEnd h.stream (SendRun.step h e).stream := by
  unfold SendRun.step
  cases e.call with
  | write data =>
    simp only [write,reset,Bool.or_true,if_true]
    exact .refl _
  | finish =>
    simp only [finish,reset,if_true]
    exact .refl _
  | send pn maxBytes =>
    have none : h.stream.peekChunk maxBytes = none := by
      unfold peekChunk
      rw [if_pos reset]
    simp only [none]
    exact .refl _
  | acked pn =>
    have acked := onPacketAcked_sameEnd e.grants h.stream pn
    dsimp only
    split <;> simp_all
  | lost pn =>
    dsimp only
    unfold onPacketLost
    cases h.stream.inFlight.fetchRemove pn with
    | none => exact .refl _
    | some removed =>
      obtain ⟨c,inFlight⟩ := removed
      dsimp only
      rw [reset,Bool.true_or,if_pos rfl]
      exact ⟨rfl,rfl⟩
  | probeRequeued pn =>
    dsimp only
    unfold onPacketProbeRequeued
    cases h.stream.inFlight.getPtr pn with
    | none => exact .refl _
    | some c =>
      dsimp only
      split
      · exact .refl _
      · exact ⟨rfl,rfl⟩

theorem addUnackedPending_reset (grants : Machine.Allocator) (s : SendStream) (r : Range) :
    (s.addUnackedPending grants r).2.reset = s.reset := by
  unfold addUnackedPending addPending
  dsimp only
  split
  · rfl
  · cases insertMerge (grants 0) s.pending ⟨max r.offset s.baseOffset,r.stop⟩ with
    | mk result pending => cases result <;> rfl

theorem requeue_reset (grants : Machine.Allocator) (s : SendStream) (c : Chunk) : (s.requeue grants c).2.reset = s.reset := by
  unfold requeue
  split
  · exact addUnackedPending_reset _ _ _
  · rfl

theorem write_reset (grants : Machine.Allocator) (s : SendStream) (data : List Machine.Byte) :
    (s.write grants data).2.reset = s.reset := by
  unfold write addPending
  split
  · rfl
  split
  · rfl
  dsimp only
  split
  · rfl
  split
  · rfl
  · cases insertMerge (grants 1) s.pending ⟨s.writeOffset,s.writeOffset+min data.length (s.maxBuffered-s.bytes.live)⟩ with
    | mk result pending => cases result <;> rfl

theorem finish_reset (s : SendStream) : (s.finish).2.reset = s.reset := by
  unfold finish
  grind

theorem onPacketLost_reset (grants : Machine.Allocator) (s : SendStream) (pn : Nat) :
    (s.onPacketLost grants pn).2.reset = s.reset := by
  unfold onPacketLost
  cases s.inFlight.fetchRemove pn with
  | none => rfl
  | some removed =>
    obtain ⟨c,inFlight⟩ := removed
    have queued := requeue_reset grants {s with inFlight := inFlight} c
    dsimp only
    split
    · rfl
    · cases outcome : requeue grants {s with inFlight := inFlight} c with
      | mk result after =>
      rw [outcome] at queued
      cases result <;> exact queued

theorem onPacketProbeRequeued_reset (grants : Machine.Allocator) (s : SendStream) (pn : Nat) :
    (s.onPacketProbeRequeued grants pn).2.reset = s.reset := by
  unfold onPacketProbeRequeued
  cases s.inFlight.getPtr pn with
  | none => rfl
  | some c =>
    have queued := requeue_reset grants s c
    dsimp only
    split
    · rfl
    split
    · rfl
    · cases outcome : s.requeue grants c with
      | mk result after =>
      rw [outcome] at queued
      cases result <;> exact queued

theorem recordSent_reset (granted : Bool) (s : SendStream) (pn : Nat) (c : Chunk) :
    (s.recordSent granted pn c).2.reset = s.reset := by
  unfold recordSent
  split
  · rfl
  cases s.inFlight.ensureUnusedCapacity granted 1 with
  | mk result inFlight =>
  cases result with
  | error e => rfl
  | ok _ =>
    have taken : ({s with inFlight := inFlight}.takePending c).2.reset = s.reset := by
      unfold takePending
      grind
    dsimp only
    cases outcome : takePending {s with inFlight := inFlight} c with
    | mk result after =>
    rw [outcome] at taken
    cases result with
    | error e => exact taken
    | ok _ =>
      have stored : (after.storeSent pn c).2.reset = after.reset := by
        unfold storeSent
        grind
      exact stored.trans taken

theorem step_keepsReset (h : SendRun.History) (e : SendRun.Event) : (SendRun.step h e).stream.reset = h.stream.reset := by
  unfold SendRun.step
  cases e.call with
  | write data =>
    have kept := write_reset e.grants h.stream data
    dsimp only
    split <;> simp_all
  | finish => exact finish_reset h.stream
  | send pn maxBytes =>
    dsimp only
    split
    · exact recordSent_reset _ _ _ _
    · rfl
  | acked pn =>
    have acked := (onPacketAcked_sameEnd e.grants h.stream pn).reset
    dsimp only
    split <;> simp_all
  | lost pn => exact onPacketLost_reset e.grants h.stream pn
  | probeRequeued pn => exact onPacketProbeRequeued_reset e.grants h.stream pn

end SendStream
end QuicZig.Conn
