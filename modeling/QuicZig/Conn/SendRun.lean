import QuicZig.Conn.SendStreamSpec
import QuicZig.Library.System

/-! Runs of a send stream. A history pairs the stream with what the outside has
seen: the bytes it accepted and the chunks whose packets were acknowledged. The
effect of each call is stated once; the invariants of a run are derived from it. -/
namespace QuicZig.Conn
open Machine RangeList Spans SendStream

namespace SendRun

/-- The calls of the application and of the connection; `send` is `peekChunk` and `recordSent`. -/
inductive Call where
  | write (data : List Byte)
  | finish
  | send (pn maxBytes : Nat)
  | acked (pn : Nat)
  | lost (pn : Nat)
  | probeRequeued (pn : Nat)

structure Event where
  call : Call
  grants : Allocator

structure History where
  stream : SendStream
  written : List Byte := []
  ackedChunks : List Chunk := []

def step (h : History) (e : Event) : History :=
  match e.call with
  | .write data =>
    match h.stream.write e.grants data with
    | (.ok n,s) => {h with stream := s,written := h.written ++ data.take n}
    | (.error _,s) => {h with stream := s}
  | .finish => {h with stream := h.stream.finish.2}
  | .send pn maxBytes =>
    match h.stream.peekChunk maxBytes with
    | some c => {h with stream := (h.stream.recordSent (e.grants 0) pn c).2}
    | none => h
  | .acked pn =>
    match h.stream.inFlight.getPtr pn,h.stream.onPacketAcked e.grants pn with
    | some c,(.ok _,s) => {h with stream := s,ackedChunks := c::h.ackedChunks}
    | _,(_,s) => {h with stream := s}
  | .lost pn => {h with stream := (h.stream.onPacketLost e.grants pn).2}
  | .probeRequeued pn => {h with stream := (h.stream.onPacketProbeRequeued e.grants pn).2}

/-- A stream as `init` builds it. -/
def Fresh (h : History) : Prop := ∃ maxBuffered, h = {stream := SendStream.init maxBuffered}

/-- What holds in every run: the parts of the stream fit together. -/
structure Coherent (h : History) : Prop where
  buffered : Buffered h.written h.stream
  inFlight : h.stream.inFlight.Sound
  pending : Sorted h.stream.pending
  pendingEnd : ∀ x, Covered h.stream.pending x → x < h.stream.writeOffset
  chunkEnd : ∀ pn c, h.stream.inFlight.Holds pn c → c.offset+c.length ≤ h.stream.writeOffset
  sized : h.stream.finMarked = true → h.stream.finalSize = some h.stream.writeOffset
  open' : h.stream.reset = none
  running : h.stream.state ≠ .resetSent

def range (c : Chunk) : Range := ⟨c.offset,c.offset+c.length⟩

/-- Nothing changed but spare room. -/
structure Quiet (s after : SendStream) : Prop where
  frame : ∃ bytes inFlight, after = {s with bytes := bytes,inFlight := inFlight}
  bytes : after.bytes.Sound
  contents : after.bytes.contents = s.bytes.contents
  inFlight : after.inFlight.Sound
  alive : after.inFlight.alive = s.inFlight.alive

structure Wrote (s : SendStream) (data : List Byte) (n : Nat) (after : SendStream) : Prop where
  frame : ∃ bytes pending state,
    after = {s with bytes := bytes,pending := pending,writeOffset := s.writeOffset+n,state := state}
  count : n ≤ data.length
  unmarked : s.finMarked = false
  bytes : after.bytes.Sound
  contents : after.bytes.contents = s.bytes.contents ++ data.take n
  sorted : Sorted after.pending
  pending : ∀ x, Covered after.pending x ↔ Covered s.pending x ∨ (s.writeOffset ≤ x ∧ x < s.writeOffset+n)
  state : after.state = s.state ∨ (s.state = .ready ∧ after.state = .send)

structure Removed (s : SendStream) (pn : Nat) (c : Chunk) (inFlight : InFlightMap) : Prop where
  held : s.inFlight.Holds pn c
  sound : inFlight.Sound
  members : ∀ e, e ∈ inFlight.alive ↔ e ∈ s.inFlight.alive ∧ e.pn ≠ pn

inductive Effect (h : History) (e : Event) : History → Prop where
  | quiet {s : SendStream} (idle : ∀ pn c, e.call = .acked pn → ¬ h.stream.inFlight.Holds pn c)
      (quiet : Quiet h.stream s) : Effect h e {h with stream := s}
  | wrote {data : List Byte} {n : Nat} {s : SendStream} (call : e.call = .write data) (wrote : Wrote h.stream data n s) :
      Effect h e {h with stream := s,written := h.written ++ data.take n}
  | finished (call : e.call = .finish) (unmarked : h.stream.finMarked = false) {state : State}
      (moved : state = h.stream.state ∨ ((h.stream.state = .send ∨ h.stream.state = .ready) ∧ state = .dataSent)) :
      Effect h e {h with stream := {h.stream with
        finMarked := true,finalSize := some h.stream.writeOffset,state := state}}
  | sent {pn maxBytes : Nat} {c : Chunk} {s : SendStream} (call : e.call = .send pn maxBytes)
      (plain : c.requeuedForProbe = false) (sound : s.inFlight.Sound) (sorted : Sorted s.pending)
      (effect : SendEffect h.stream pn c s) : Effect h e {h with stream := s}
  | acked {pn : Nat} {c : Chunk} {inFlight : InFlightMap} {s : SendStream} (call : e.call = .acked pn)
      (removed : Removed h.stream pn c inFlight) (buffered : Buffered h.written s)
      (effect : AckEffect {h.stream with inFlight := inFlight,finAcked := h.stream.finAcked || c.fin} (range c) (.ok ()) s) :
      Effect h e {h with stream := s.maybeAdvanceState,ackedChunks := c::h.ackedChunks}
  | ackFailed {pn : Nat} {c : Chunk} {inFlight : InFlightMap} {s : SendStream} (call : e.call = .acked pn)
      (removed : Removed h.stream pn c inFlight) (buffered : Buffered h.written s)
      (refused : e.grants 0 = true → e.grants 1 = false)
      (effect : AckEffect {h.stream with inFlight := inFlight,finAcked := h.stream.finAcked || c.fin} (range c)
        (.error .outOfMemory) s) : Effect h e {h with stream := s}
  | dropped {pn : Nat} {c : Chunk} {inFlight : InFlightMap} (call : e.call = .lost pn)
      (removed : Removed h.stream pn c inFlight) (requeued : c.requeuedForProbe = true) :
      Effect h e {h with stream := {h.stream with inFlight := inFlight}}
  | lost {pn : Nat} {c : Chunk} {inFlight : InFlightMap} {s : SendStream} (call : e.call = .lost pn)
      (removed : Removed h.stream pn c inFlight) (plain : c.requeuedForProbe = false)
      (effect : RequeueEffect {h.stream with inFlight := inFlight} (range c) (.ok ()) s) :
      Effect h e {h with stream := {s with finInFlight := if c.fin && !s.finAcked then false else s.finInFlight}}
  | lossFailed {pn : Nat} {c : Chunk} {inFlight : InFlightMap} {s : SendStream} (call : e.call = .lost pn)
      (removed : Removed h.stream pn c inFlight) (plain : c.requeuedForProbe = false)
      (refused : ∃ k, e.grants k = false)
      (early : (∀ k, 1 ≤ k → e.grants k = true) → s = {h.stream with inFlight := inFlight})
      (effect : RequeueEffect {h.stream with inFlight := inFlight} (range c) (.error .outOfMemory) s) :
      Effect h e {h with stream := s}
  | probed {pn : Nat} {c : Chunk} {inFlight : InFlightMap} {s : SendStream} {flag : Bool}
      (call : e.call = .probeRequeued pn) (held : h.stream.inFlight.Holds pn c) (plain : c.requeuedForProbe = false)
      (sound : inFlight.Sound)
      (members : ∀ f, f ∈ inFlight.alive ↔ f = ⟨pn,{c with requeuedForProbe := true}⟩ ∨ (f ∈ h.stream.inFlight.alive ∧ f.pn ≠ pn))
      (effect : RequeueEffect h.stream (range c) (.ok ()) s) :
      Effect h e {h with stream := {s with
        finInFlight := if c.fin && !s.finAcked then false else s.finInFlight
        inFlight := inFlight
        probeRequeuedPending := flag}}
  | probeFailed {pn : Nat} {c : Chunk} {s : SendStream} (call : e.call = .probeRequeued pn)
      (held : h.stream.inFlight.Holds pn c) (plain : c.requeuedForProbe = false) (refused : ∃ k, e.grants k = false)
      (early : (∀ k, 1 ≤ k → e.grants k = true) → s = h.stream)
      (effect : RequeueEffect h.stream (range c) (.error .outOfMemory) s) : Effect h e {h with stream := s}

theorem Quiet.refl {h : History} (coherent : Coherent h) : Quiet h.stream h.stream :=
  ⟨⟨_,_,rfl⟩,coherent.buffered.bytes,rfl,coherent.inFlight,rfl⟩

theorem write_effect {h : History} (coherent : Coherent h) (grants : Allocator) (data : List Byte) :
    (∃ n, (h.stream.write grants data).1 = .ok n ∧ Wrote h.stream data n (h.stream.write grants data).2) ∨
      ((∀ n, (h.stream.write grants data).1 = .ok n → n = 0) ∧ Quiet h.stream (h.stream.write grants data).2) := by
  have still := Quiet.refl coherent
  unfold write
  split
  · exact .inr ⟨by simp,still⟩
  rename_i opened
  split
  · exact .inr ⟨by simp,still⟩
  dsimp only
  split
  · exact .inr ⟨by simp,still⟩
  rename_i some
  generalize accept : min data.length (h.stream.maxBuffered-h.stream.bytes.live) = n at *
  obtain ⟨sound,same,room⟩ := h.stream.bytes.ensureUnusedCapacity_spec (grants 0) n coherent.buffered.bytes
  have live := h.stream.bytes.ensureUnusedCapacity_live (grants 0) n
  cases reserve : h.stream.bytes.ensureUnusedCapacity (grants 0) n with
  | mk result bytes =>
  rw [reserve] at sound same room live
  cases result with
  | error e => exact .inr ⟨by simp,⟨bytes,_,rfl⟩,sound,same,coherent.inFlight,rfl⟩
  | ok _ =>
    obtain ⟨room,address⟩ := room rfl
    change bytes.live = h.stream.bytes.live at live
    change h.stream.bytes.live + n ≤ bytes.cap at room
    dsimp only
    unfold addPending
    have inserted := insertMerge_spec (grants 1) h.stream.pending ⟨h.stream.writeOffset,h.stream.writeOffset+n⟩ coherent.pending
    have refused := insertMerge_error (grants 1) h.stream.pending ⟨h.stream.writeOffset,h.stream.writeOffset+n⟩
    dsimp only
    cases outcome : insertMerge (grants 1) h.stream.pending ⟨h.stream.writeOffset,h.stream.writeOffset+n⟩ with
    | mk result pending =>
    rw [outcome] at inserted refused
    cases result with
    | error e =>
      obtain rfl : pending = h.stream.pending := (refused e rfl).2
      cases e
      exact .inr ⟨by simp [ofAlloc],⟨bytes,_,rfl⟩,sound,same,coherent.inFlight,rfl⟩
    | ok _ =>
      obtain ⟨sorted,covers⟩ := inserted rfl
      have taken : (data.take n).length = n := by
        rw [List.length_take]
        omega
      obtain ⟨_,sound',contents⟩ := SendByteBuffer.appendSlice_spec false bytes (data.take n) sound
        (by rw [taken]; omega) (by rw [taken]; omega)
      refine .inl ⟨n,rfl,⟨_,_,_,rfl⟩,by omega,by simp_all,sound',contents.trans (by rw [same]),sorted,covers,?_⟩
      simp only [ofAlloc]
      split
      · rename_i ready
        exact .inr ⟨ready,rfl⟩
      · exact .inl rfl

theorem step_effect {h : History} (coherent : Coherent h) (e : Event) : Effect h e (step h e) := by
  obtain ⟨call,grants⟩ := e
  have still (idle : ∀ pn c, call = .acked pn → ¬ h.stream.inFlight.Holds pn c) : Effect h ⟨call,grants⟩ h :=
    .quiet idle (Quiet.refl coherent)
  have running : h.stream.reset.isSome = false := by simp [coherent.open']
  unfold step
  cases call with
  | write data =>
    dsimp only
    rcases write_effect coherent grants data with ⟨n,ok,wrote⟩ | ⟨zero,quiet⟩
    · cases outcome : h.stream.write grants data with
      | mk result s =>
      rw [outcome] at ok wrote
      obtain rfl : result = .ok n := ok
      exact .wrote rfl wrote
    · cases outcome : h.stream.write grants data with
      | mk result s =>
      rw [outcome] at zero quiet
      cases result with
      | error e => exact .quiet (by simp) quiet
      | ok n =>
        obtain rfl := zero n rfl
        simpa using Effect.quiet (e := ⟨.write data,grants⟩) (by simp) quiet
  | finish =>
    dsimp only
    unfold finish
    rw [running]
    simp only [Bool.false_eq_true,ite_false]
    split
    · exact still (by simp)
    · rename_i unmarked
      refine Effect.finished (e := ⟨.finish,grants⟩) rfl (by simpa using unmarked) ?_
      split
      · rename_i early
        exact .inr ⟨early,rfl⟩
      · exact .inl rfl
  | send pn maxBytes =>
    dsimp only
    cases peeked : h.stream.peekChunk maxBytes with
    | none => exact still (by simp)
    | some c =>
      obtain ⟨plain,_,_⟩ := peekChunk_spec coherent.pending peeked
      obtain ⟨sound,sorted,result⟩ := recordSent_peeked coherent.pending coherent.inFlight coherent.pendingEnd
        coherent.sized (grants 0) pn maxBytes c peeked
      rcases result with ⟨_,effect⟩ | ⟨_,⟨⟨inFlight,frame⟩,alive⟩⟩
      · exact .sent rfl plain sound sorted effect
      · refine .quiet (by simp) ⟨⟨_,inFlight,frame⟩,?_,?_,sound,alive⟩
        · rw [frame]
          exact coherent.buffered.bytes
        · rw [frame]
  | acked pn =>
    dsimp only
    unfold onPacketAcked
    cases removal : h.stream.inFlight.fetchRemove pn with
    | none =>
      have absent := (InFlightMap.fetchRemove_none coherent.inFlight).mp removal
      rw [(InFlightMap.getPtr_none coherent.inFlight pn).mpr absent]
      exact still (fun qn c equal => Call.acked.inj equal ▸ absent c)
    | some removed =>
    obtain ⟨c,inFlight⟩ := removed
    obtain ⟨held,sound,members⟩ := InFlightMap.fetchRemove_some coherent.inFlight removal
    rw [(InFlightMap.getPtr_iff coherent.inFlight pn c).mpr held]
    have removed : Removed h.stream pn c inFlight := ⟨held,sound,members⟩
    have buffered : Buffered h.written {h.stream with inFlight := inFlight,finAcked := h.stream.finAcked || c.fin} := coherent.buffered.transfer rfl rfl rfl rfl
    by_cases long : c.length > 0
    · simp only [long,ite_true]
      obtain ⟨effect,buffered',granted⟩ := markAcked_spec buffered coherent.pending grants (range c) (coherent.chunkEnd pn c held)
      unfold range at effect buffered' granted
      cases outcome : markAcked grants {h.stream with inFlight := inFlight,finAcked := h.stream.finAcked || c.fin}
        ⟨c.offset,c.offset+c.length⟩ with
      | mk result s =>
      rw [outcome] at effect buffered' granted
      cases result with
      | ok _ => exact .acked (e := ⟨.acked pn,grants⟩) rfl removed buffered' effect
      | error e =>
        obtain rfl := effect.memory e rfl
        exact .ackFailed (e := ⟨.acked pn,grants⟩) rfl removed buffered' (by simpa using granted) effect
    · simp only [long,ite_false]
      refine .acked (e := ⟨.acked pn,grants⟩) rfl removed buffered ?_
      have empty : ∀ x, ¬ ((range c).offset ≤ x ∧ x < (range c).stop) := by
        rintro x ⟨low,high⟩
        unfold range at low high
        dsimp only at low high
        omega
      exact ⟨⟨_,_,_,_,_,rfl⟩,le_rfl,coherent.pending,fun x => id,fun x covered _ => covered,
        fun _ _ x _ => empty x,fun _ => rfl,fun _ x => ⟨.inl,fun either => either.resolve_right (empty x)⟩,by simp,by simp⟩
  | lost pn =>
    dsimp only
    unfold onPacketLost
    cases removal : h.stream.inFlight.fetchRemove pn with
    | none => exact still (by simp)
    | some removed =>
    obtain ⟨c,inFlight⟩ := removed
    obtain ⟨held,sound,members⟩ := InFlightMap.fetchRemove_some coherent.inFlight removal
    have removed : Removed h.stream pn c inFlight := ⟨held,sound,members⟩
    have buffered : Buffered h.written {h.stream with inFlight := inFlight} := coherent.buffered.transfer rfl rfl rfl rfl
    dsimp only
    rw [running,Bool.false_or]
    split
    · rename_i requeued
      exact .dropped (e := ⟨.lost pn,grants⟩) rfl removed requeued
    · rename_i plain
      obtain ⟨effect,early,granted⟩ := requeue_spec buffered coherent.pending grants c
      cases outcome : requeue grants {h.stream with inFlight := inFlight} c with
      | mk result s =>
      rw [outcome] at effect early granted
      cases result with
      | ok _ => exact .lost (e := ⟨.lost pn,grants⟩) rfl removed (by simpa using plain) effect
      | error e =>
        obtain rfl := effect.memory e rfl
        exact .lossFailed (e := ⟨.lost pn,grants⟩) rfl removed (by simpa using plain) (by simpa using granted)
          (by simpa using early) effect
  | probeRequeued pn =>
    dsimp only
    unfold onPacketProbeRequeued
    cases read : h.stream.inFlight.getPtr pn with
    | none => exact still (by simp)
    | some c =>
    have held := (InFlightMap.getPtr_iff coherent.inFlight pn c).mp read
    dsimp only
    split
    · exact still (by simp)
    rename_i plain
    rw [running]
    simp only [Bool.false_eq_true,ite_false]
    obtain ⟨effect,early,granted⟩ := requeue_spec coherent.buffered coherent.pending grants c
    cases outcome : requeue grants h.stream c with
    | mk result s =>
    rw [outcome] at effect early granted
    cases result with
    | ok _ =>
      have inFlight : s.inFlight = h.stream.inFlight := by
        obtain ⟨pending,frame⟩ := effect.frame
        change s = _ at frame
        rw [frame]
      have living : c.dead = false := InFlightMap.Holds.not_dead held
      obtain ⟨sound,members⟩ := InFlightMap.update_spec coherent.inFlight held
        (c := {c with requeuedForProbe := true}) living
      rw [← inFlight] at sound members
      exact .probed (e := ⟨.probeRequeued pn,grants⟩) rfl held (by simpa using plain) sound (inFlight ▸ members) effect
    | error e =>
      obtain rfl := effect.memory e rfl
      exact .probeFailed (e := ⟨.probeRequeued pn,grants⟩) rfl held (by simpa using plain) (by simpa using granted)
        (by simpa using early) effect

theorem maybeAdvanceState_spec (s : SendStream) (running : s.state ≠ .resetSent) :
    ∃ state, s.maybeAdvanceState = {s with state := state} ∧ state ≠ .resetSent ∧
      (state = .dataRecvd ↔ s.state = .dataRecvd ∨
        (s.finAcked = true ∧ s.finMarked = true ∧ s.finalSize = some s.baseOffset)) := by
  unfold maybeAdvanceState
  rw [if_neg running]
  split
  · rename_i final
    have done : s.finAcked = true ∧ s.finMarked = true ∧ s.finalSize = some s.baseOffset := by
      simpa [and_assoc] using final
    exact ⟨.dataRecvd,rfl,by simp,by simp [done]⟩
  · rename_i final
    refine ⟨s.state,rfl,running,.inl,?_⟩
    rintro (state | done)
    · exact state
    · exact absurd (by simpa [and_assoc] using done) final

/-- A stream whose pending bytes change stays coherent while they end in time. -/
theorem coherent_effect {h h' : History} {e : Event} (coherent : Coherent h) (effect : Effect h e h') : Coherent h' := by
  obtain ⟨buffered,inFlight,pending,pendingEnd,chunkEnd,sized,open',running⟩ := coherent
  have requeued {c : Chunk} {pn : Nat} (held : h.stream.inFlight.Holds pn c) {x : Nat}
      (either : Covered h.stream.pending x ∨
        ((range c).offset ≤ x ∧ x < (range c).stop ∧ h.stream.baseOffset ≤ x)) : x < h.stream.writeOffset := by
    rcases either with old | ⟨_,stop,_⟩
    · exact pendingEnd x old
    · exact lt_of_lt_of_le stop (chunkEnd pn c held)
  cases effect with
  | quiet idle quiet =>
    obtain ⟨⟨bytes,map,rfl⟩,sound,contents,sound',alive⟩ := quiet
    refine ⟨⟨sound,buffered.size,buffered.floor,contents.trans buffered.contents,buffered.sorted,buffered.above⟩,
      sound',pending,pendingEnd,?_,sized,open',running⟩
    intro pn c held
    unfold InFlightMap.Holds at held
    rw [alive] at held
    exact chunkEnd pn c held
  | wrote call wrote =>
    obtain ⟨⟨bytes,ranges,state,rfl⟩,count,unmarked,sound,contents,sorted,covers,moved⟩ := wrote
    refine ⟨⟨sound,?_,?_,?_,buffered.sorted,?_⟩,inFlight,sorted,?_,?_,?_,open',?_⟩
    · rw [List.length_append,buffered.size,List.length_take,Nat.min_eq_left count]
    · exact buffered.floor.trans (Nat.le_add_right _ _)
    · refine contents.trans ?_
      rw [buffered.contents]
      exact (List.drop_append_of_le_length (by rw [buffered.size]; exact buffered.floor)).symm
    · exact fun x covered => ⟨(buffered.above x covered).1,(buffered.above x covered).2.trans_le (Nat.le_add_right _ _)⟩
    · intro x covered
      rcases (covers x).mp covered with old | ⟨_,new⟩
      · exact (pendingEnd x old).trans_le (Nat.le_add_right _ _)
      · exact new
    · exact fun pn c held => (chunkEnd pn c held).trans (Nat.le_add_right _ _)
    · intro marked
      change h.stream.finMarked = true at marked
      simp [unmarked] at marked
    · rcases moved with same | ⟨_,sending⟩
      · exact same ▸ running
      · simp_all
  | finished call unmarked moved =>
    refine ⟨buffered.transfer rfl rfl rfl rfl,inFlight,pending,pendingEnd,chunkEnd,fun _ => rfl,open',?_⟩
    rcases moved with same | ⟨_,sent⟩
    · exact same ▸ running
    · simp [sent]
  | sent call plain sound sorted effect =>
    obtain ⟨⟨map,ranges,flag,rfl⟩,fresh,members,covers,carried,bare,fin⟩ := effect
    refine ⟨buffered.transfer rfl rfl rfl rfl,sound,sorted,fun x covered => pendingEnd x ((covers x).mp covered).1,?_,
      sized,open',running⟩
    intro pn c held
    rcases (members _).mp held with equal | old
    · obtain ⟨rfl,rfl⟩ := Entry.mk.inj equal
      change c.offset+c.length ≤ h.stream.writeOffset
      by_cases long : 0 < c.length
      · have last := pendingEnd _ (carried (c.offset+c.length-1) ⟨by omega,by omega⟩)
        omega
      · obtain ⟨due,size⟩ := fin (bare.resolve_left long)
        have marked : h.stream.finMarked = true := by
          simp only [finDue,Bool.and_eq_true] at due
          exact due.1.1
        rw [sized marked] at size
        exact (Option.some.inj size).ge
    · exact chunkEnd pn c old
  | acked call removed buffered' effect =>
    rename_i pn c map s
    obtain ⟨state,advanced,running',_⟩ := maybeAdvanceState_spec s (by
      obtain ⟨_,_,_,_,_,rfl⟩ := effect.frame
      exact running)
    rw [advanced]
    obtain ⟨⟨left,base,above,ranges,flag,rfl⟩,_,sorted,shrinks,_,_,_,_,_,_⟩ := effect
    exact ⟨buffered'.transfer rfl rfl rfl rfl,removed.sound,sorted,fun x covered => pendingEnd x (shrinks x covered),
      fun pn c held => chunkEnd pn c ((removed.members _).mp held).1,sized,open',running'⟩
  | ackFailed call removed buffered' refused effect =>
    obtain ⟨⟨left,base,above,ranges,flag,rfl⟩,_,sorted,shrinks,_,_,_,_,_,_⟩ := effect
    exact ⟨buffered',removed.sound,sorted,fun x covered => pendingEnd x (shrinks x covered),
      fun pn c held => chunkEnd pn c ((removed.members _).mp held).1,sized,open',running⟩
  | dropped call removed flagged =>
    exact ⟨buffered.transfer rfl rfl rfl rfl,removed.sound,pending,pendingEnd,
      fun pn c held => chunkEnd pn c ((removed.members _).mp held).1,sized,open',running⟩
  | lost call removed plain effect =>
    obtain ⟨⟨ranges,rfl⟩,sorted,grows,_,_,_⟩ := effect
    exact ⟨buffered.transfer rfl rfl rfl rfl,removed.sound,sorted,fun x covered => requeued removed.held (grows x covered),
      fun pn c held => chunkEnd pn c ((removed.members _).mp held).1,sized,open',running⟩
  | lossFailed call removed plain refused early effect =>
    obtain ⟨⟨ranges,rfl⟩,sorted,grows,_,_,_⟩ := effect
    exact ⟨buffered.transfer rfl rfl rfl rfl,removed.sound,sorted,fun x covered => requeued removed.held (grows x covered),
      fun pn c held => chunkEnd pn c ((removed.members _).mp held).1,sized,open',running⟩
  | probed call held plain sound members effect =>
    obtain ⟨⟨ranges,rfl⟩,sorted,grows,_,_,_⟩ := effect
    refine ⟨buffered.transfer rfl rfl rfl rfl,sound,sorted,fun x covered => requeued held (grows x covered),?_,
      sized,open',running⟩
    intro pn c held'
    rcases (members _).mp held' with equal | ⟨old,_⟩
    · obtain ⟨_,rfl⟩ := Entry.mk.inj equal
      have bound := chunkEnd _ _ held
      exact bound
    · exact chunkEnd pn c old
  | probeFailed call held plain refused early effect =>
    obtain ⟨⟨ranges,rfl⟩,sorted,grows,_,_,_⟩ := effect
    exact ⟨buffered.transfer rfl rfl rfl rfl,inFlight,sorted,fun x covered => requeued held (grows x covered),chunkEnd,
      sized,open',running⟩

theorem fresh_coherent (h : History) (fresh : Fresh h) : Coherent h := by
  obtain ⟨maxBuffered,rfl⟩ := fresh
  have sound : ({} : InFlightMap).Sound := ⟨.inl rfl,le_rfl,.nil,rfl⟩
  exact ⟨⟨⟨le_rfl,.inr rfl⟩,rfl,le_rfl,rfl,separated_nil,by simp [SendStream.init]⟩,sound,separated_nil,
    by simp [SendStream.init],by simp [SendStream.init,InFlightMap.Holds,InFlightMap.alive,InFlightMap.entries],
    by simp [SendStream.init],rfl,by simp [SendStream.init]⟩

theorem coherent_step (h : History) (e : Event) (coherent : Coherent h) : Coherent (step h e) :=
  coherent_effect coherent (step_effect coherent e)

theorem coherent_run {guard : History → Event → Prop} (h : History) (reached : System.Reaches Fresh step guard h) :
    Coherent h :=
  reached.invariant Coherent fresh_coherent (fun h e coherent _ => coherent_step h e coherent)

end SendRun
end QuicZig.Conn
