import QuicZig.Conn.RecvStream
import QuicZig.Library.System
import Mathlib.Logic.Relation
import Mathlib.Tactic.SplitIfs

/-! The final size of a receive stream, and the states that FIN, RESET_STREAM and the reader
take it through. -/
namespace QuicZig.Conn.RecvFinal
open Machine RecvStream

inductive Frame where
  | stream (offset : Nat) (data : List Byte) (fin : Bool)
  | resetStream (errorCode finalSize : Nat)
  deriving DecidableEq

inductive Event where
  | frame (grants : Allocator) (frame : Frame)
  | read (dstLen : Nat)
  | consume (take : Nat)
  | compactPrefix
  | markRead

def receive (grants : Allocator) (s : RecvStream) : Frame → Except Error Unit × RecvStream
  | .stream offset data fin => s.recv grants offset data fin
  | .resetStream errorCode finalSize => s.resetStream errorCode finalSize

/-- A failed assertion of `consume` leaves the stream. -/
def step (s : RecvStream) : Event → RecvStream
  | .frame grants frame => (receive grants s frame).2
  | .read dstLen => (s.read dstLen).elim s Prod.snd
  | .consume take => (s.consume take).getD s
  | .compactPrefix => s.compactPrefix
  | .markRead => s.markRead

def Fresh (s : RecvStream) : Prop := ∃ maxBufferedSpan, s = RecvStream.init maxBufferedSpan

def Always (_ : RecvStream) (_ : Event) : Prop := True

abbrev Reached (s : RecvStream) : Prop := System.Reaches Fresh step Always s

/-- What the state, the flags and the final size have to do with one another. -/
structure Locked (s : RecvStream) : Prop where
  reset : s.reset.isSome = true ↔ s.state = .resetRecvd ∨ s.state = .resetRead
  ended : s.state = .dataRecvd ∨ s.state = .dataRead → s.finSeen = true
  known : s.finSeen = true → s.state ≠ .recv
  final : s.finalSize.isSome = true ↔ s.finSeen = true ∨ s.reset.isSome = true
  ceiling : ∀ fs, s.finalSize = some fs → s.endOffset ≤ fs

theorem locked_init (maxBufferedSpan : Nat) : Locked (RecvStream.init maxBufferedSpan) := by
  constructor <;> simp [RecvStream.init]

/-- The steps of the diagram. -/
inductive Edge : State → State → Prop where
  | fin : Edge .recv .sizeKnown
  | all : Edge .sizeKnown .dataRecvd
  | read : Edge .dataRecvd .dataRead
  | resetEarly : Edge .recv .resetRecvd
  | resetKnown : Edge .sizeKnown .resetRecvd
  | resetAll : Edge .dataRecvd .resetRecvd
  | resetRead : Edge .resetRecvd .resetRead

abbrev Along : State → State → Prop := Relation.ReflTransGen Edge

/-- A step that keeps the final size and moves along the diagram. -/
structure Turn (s after : RecvStream) : Prop where
  locked : Locked after
  along : Along s.state after.state

theorem Turn.refl {s : RecvStream} (locked : Locked s) : Turn s s := ⟨locked,.refl⟩

theorem Locked.same {s after : RecvStream} (locked : Locked s) (reset : after.reset = s.reset) (state : after.state = s.state)
    (fin : after.finSeen = s.finSeen) (final : after.finalSize = s.finalSize) (stop : after.endOffset = s.endOffset) :
    Locked after := by
  obtain ⟨r,e,k,f,c⟩ := locked
  constructor <;> (simp only [reset,state,fin,final,stop]) <;> assumption

theorem Turn.advance {s t : RecvStream} (turn : Turn s t) : Turn s t.maybeAdvanceState := by
  obtain ⟨locked,along⟩ := turn
  unfold maybeAdvanceState
  by_cases reset : t.reset.isSome = true
  · rw [if_pos reset]
    exact ⟨locked,along⟩
  rw [if_neg reset]
  by_cases fin : t.finSeen = true
  · rw [if_neg (show ¬(!t.finSeen) = true by rw [fin]; nofun)]
    have open' : ¬(t.state = .resetRecvd ∨ t.state = .resetRead) := fun ended => reset (locked.reset.mpr ended)
    by_cases done : t.finalSize = some t.readOffset ∧ t.ranges = []
    · rw [if_pos done]
      by_cases read : t.state ≠ .dataRead
      · rw [if_pos read]
        refine ⟨⟨?_,fun _ => fin,nofun,locked.final,locked.ceiling⟩,?_⟩
        · dsimp only
          exact ⟨fun some => absurd some reset,nofun⟩
        · refine along.trans ?_
          cases state : t.state with
          | recv => exact absurd state (locked.known fin)
          | sizeKnown => exact .single .all
          | dataRecvd => exact .refl
          | dataRead => exact absurd state read
          | resetRecvd => exact absurd (.inl state) open'
          | resetRead => exact absurd (.inr state) open'
      · rw [if_neg read]
        exact ⟨locked,along⟩
    · rw [if_neg done]
      cases t.ranges with
      | nil => exact ⟨locked,along⟩
      | cons r rest =>
        cases rest with
        | cons => exact ⟨locked,along⟩
        | nil =>
          dsimp only
          split
          · rename_i whole
            have state : t.state = .sizeKnown := whole.2.2.resolve_left (locked.known fin)
            refine ⟨locked.same rfl state.symm rfl rfl rfl,?_⟩
            rw [state] at along
            exact along
          · exact ⟨locked,along⟩
  · rw [Bool.eq_false_iff.mpr fin,Bool.not_false,if_pos rfl]
    exact ⟨locked,along⟩

theorem lock_spec {s after : RecvStream} (locked : Locked s) (running : s.reset.isSome = false) {newEnd : Nat} {fin : Bool}
    (lock : s.lockFinalSize newEnd fin = .ok after) (within : s.pastFinalSize newEnd = false) :
    Turn s after ∧ after.readOffset = s.readOffset ∧ after.reset = s.reset ∧ ∀ fs, after.finalSize = some fs → newEnd ≤ fs := by
  unfold lockFinalSize at lock
  have below : ∀ fs, s.finalSize = some fs → newEnd ≤ fs := fun fs known => by
    unfold pastFinalSize at within
    rw [known] at within
    simpa using within
  cases fin with
  | false =>
    rw [Bool.not_false,if_pos rfl] at lock
    cases lock
    exact ⟨.refl locked,rfl,rfl,below⟩
  | true =>
    rw [Bool.not_true,if_neg Bool.false_ne_true] at lock
    have open' : ¬(s.state = .resetRecvd ∨ s.state = .resetRead) := fun ended =>
      Bool.false_ne_true (running.symm.trans (locked.reset.mpr ended))
    have flags : ∀ final : Option Nat, (final.isSome = true) → (∀ fs, final = some fs → s.endOffset ≤ fs) →
        Turn s {s with finalSize := final,finSeen := true,state := if s.state = .recv then .sizeKnown else s.state} := by
      intro final some ceiling
      refine ⟨⟨?_,fun _ => rfl,fun _ => ?_,⟨fun _ => .inl rfl,fun _ => some⟩,ceiling⟩,?_⟩
      · dsimp only
        rw [running]
        refine ⟨nofun,fun ended => absurd ?_ open'⟩
        split at ended
        · rcases ended with ended | ended <;> nomatch ended
        · exact ended
      · dsimp only
        split
        · exact nofun
        · assumption
      · dsimp only
        split
        · rename_i state
          rw [state]
          exact .single .fin
        · exact .refl
    cases known : s.finalSize with
    | some fs =>
      rw [known] at lock
      dsimp only at lock
      split at lock
      · nomatch lock
      · rename_i same
        cases lock
        exact ⟨flags (some fs) rfl fun x eq => locked.ceiling x (known.trans eq),rfl,rfl,fun x eq => below x (known.trans eq)⟩
    | none =>
      rw [known] at lock
      dsimp only at lock
      split at lock
      · nomatch lock
      · rename_i fits
        cases lock
        refine ⟨flags (some newEnd) rfl fun x eq => ?_,rfl,rfl,fun x eq => ?_⟩
        · cases eq
          exact Nat.le_of_not_lt fits
        · cases eq
          exact Nat.le_refl _

theorem Turn.extend {s t after : RecvStream} (turn : Turn s t) {newEnd : Nat} (below : ∀ fs, t.finalSize = some fs → newEnd ≤ fs)
    (reset : after.reset = t.reset) (state : after.state = t.state) (fin : after.finSeen = t.finSeen)
    (final : after.finalSize = t.finalSize)
    (stop : after.endOffset = if newEnd > t.endOffset then newEnd else t.endOffset) : Turn s after := by
  obtain ⟨⟨r,e,k,f,c⟩,along⟩ := turn
  refine ⟨⟨?_,?_,?_,?_,fun fs known => ?_⟩,state ▸ along⟩
  · rw [reset,state]
    exact r
  · rw [state,fin]
    exact e
  · rw [state,fin]
    exact k
  · rw [final,fin,reset]
    exact f
  · rw [final] at known
    rw [stop]
    split
    · exact below fs known
    · exact c fs known

theorem recv_turn {s : RecvStream} (locked : Locked s) (grants : Allocator) (offset : Nat) (data : List Byte) (fin : Bool) :
    Turn s (s.recv grants offset data fin).2 := by
  unfold RecvStream.recv
  cases running : s.reset.isSome with
  | true => exact .refl locked
  | false =>
    rw [if_neg Bool.false_ne_true]
    cases checkedAdd offset data.length with
    | none => exact .refl locked
    | some newEnd =>
      dsimp only
      cases past : s.pastFinalSize newEnd with
      | true => exact .refl locked
      | false =>
        rw [if_neg Bool.false_ne_true]
        split
        · exact .refl locked
        cases lock : s.lockFinalSize newEnd fin with
        | error => exact .refl locked
        | ok t =>
          obtain ⟨turn,_,_,below⟩ := lock_spec locked running lock past
          dsimp only
          split
          · exact turn.advance
          split
          · exact Turn.advance (turn.extend below rfl rfl rfl rfl rfl)
          · cases filled : t.buffer grants newEnd (max offset t.readOffset) (data.drop (t.readOffset-offset)) with
            | error => exact .refl locked
            | ok after =>
              refine Turn.advance ?_
              unfold RecvStream.buffer at filled
              dsimp only at filled
              split at filled
              · nomatch filled
              split at filled
              · nomatch filled
              split at filled
              · nomatch filled
              split at filled
              · nomatch filled
              · cases filled
                exact turn.extend below rfl rfl rfl rfl rfl

/-- A RESET_STREAM that comes after the reader took the end. -/
def Late (s : RecvStream) : Event → Prop
  | .frame _ (.resetStream _ finalSize) => s.state = .dataRead ∧ s.finalSize = some finalSize
  | _ => False

theorem resetStream_cases {s : RecvStream} (running : s.reset.isSome = false) (errorCode finalSize : Nat) :
    (((s.finSeen = true ∧ ∃ fs, s.finalSize = some fs ∧ fs ≠ finalSize) ∨ finalSize < s.endOffset) ∧
      s.resetStream errorCode finalSize = (.error .finalSizeChanged,s)) ∨
    (((s.finSeen = true → ∀ fs, s.finalSize = some fs → fs = finalSize) ∧ s.endOffset ≤ finalSize) ∧
      s.resetStream errorCode finalSize = (.ok (),{s with
        reset := some {errorCode := errorCode,finalSize := finalSize}
        finalSize := some finalSize
        state := .resetRecvd}.compact)) := by
  unfold RecvStream.resetStream
  rw [running,if_neg Bool.false_ne_true]
  split_ifs with differs short
  · obtain ⟨fin,differs⟩ := differs
    refine .inl ⟨.inl ⟨fin,?_⟩,rfl⟩
    cases known : s.finalSize with
    | none =>
      rw [known] at differs
      nomatch differs
    | some fs =>
      rw [known] at differs
      exact ⟨fs,rfl,of_decide_eq_true differs⟩
  · exact .inl ⟨.inr short,rfl⟩
  · refine .inr ⟨⟨fun fin fs known => ?_,Nat.le_of_not_lt short⟩,rfl⟩
    rw [known] at differs
    exact of_not_not fun apart => differs ⟨fin,decide_eq_true apart⟩

theorem resetStream_locked {s : RecvStream} (locked : Locked s) (errorCode finalSize : Nat) :
    Locked (s.resetStream errorCode finalSize).2 := by
  cases running : s.reset.isSome with
  | true =>
    unfold RecvStream.resetStream
    rw [if_pos running]
    exact locked
  | false =>
    rcases resetStream_cases running errorCode finalSize with ⟨_,same⟩ | ⟨⟨_,fits⟩,same⟩
    · rw [same]
      exact locked
    · rw [same]
      refine ⟨⟨fun _ => .inl rfl,fun _ => rfl⟩,fun ended => ?_,fun _ => nofun,⟨fun _ => .inr rfl,fun _ => rfl⟩,fun fs known => ?_⟩
      · rcases ended with ended | ended <;> nomatch ended
      · cases known
        exact fits

theorem resetStream_turn {s : RecvStream} (locked : Locked s) (errorCode finalSize : Nat)
    (timely : ¬(s.state = .dataRead ∧ s.finalSize = some finalSize)) : Turn s (s.resetStream errorCode finalSize).2 := by
  refine ⟨resetStream_locked locked errorCode finalSize,?_⟩
  cases running : s.reset.isSome with
  | true =>
    unfold RecvStream.resetStream
    rw [if_pos running]
  | false =>
    rcases resetStream_cases running errorCode finalSize with ⟨_,same⟩ | ⟨⟨agrees,_⟩,same⟩
    · rw [same]
    rw [same]
    have open' : ¬(s.state = .resetRecvd ∨ s.state = .resetRead) := fun ended =>
      Bool.false_ne_true (running.symm.trans (locked.reset.mpr ended))
    change Along s.state .resetRecvd
    cases state : s.state with
    | recv => exact .single .resetEarly
    | sizeKnown => exact .single .resetKnown
    | dataRecvd => exact .single .resetAll
    | dataRead =>
      have fin := locked.ended (.inr state)
      obtain ⟨fs,known⟩ := Option.isSome_iff_exists.mp (locked.final.mpr (.inl fin))
      exact absurd ⟨state,known.trans (congrArg some (agrees fin fs known))⟩ timely
    | resetRecvd => exact absurd (.inl state) open'
    | resetRead => exact absurd (.inr state) open'

theorem Turn.compact {s t : RecvStream} (turn : Turn s t) :
    Turn s (if t.state = .dataRecvd ∧ t.liveBytes = 0 then t.compact else t) := by
  split
  · exact ⟨turn.locked.same rfl rfl rfl rfl rfl,turn.along⟩
  · exact turn

theorem consume_turn {s after : RecvStream} (locked : Locked s) {take : Nat} (done : s.consume take = some after) : Turn s after := by
  unfold RecvStream.consume at done
  split at done
  · cases done
    exact (Turn.refl locked).advance
  cases ranges : s.ranges with
  | nil =>
    rw [ranges] at done
    nomatch done
  | cons r rest =>
    rw [ranges] at done
    dsimp only at done
    split at done
    · nomatch done
    · rw [← Option.some.inj done]
      refine Turn.compact (Turn.advance ⟨?_,.refl⟩)
      exact locked.same rfl rfl rfl rfl rfl

theorem turn_step {s : RecvStream} {event : Event} (locked : Locked s) (timely : ¬Late s event) : Turn s (step s event) := by
  cases event with
  | frame grants frame =>
    cases frame with
    | stream offset data fin => exact recv_turn locked grants offset data fin
    | resetStream errorCode finalSize => exact resetStream_turn locked errorCode finalSize timely
  | read dstLen =>
    change Turn s ((s.read dstLen).elim s Prod.snd)
    unfold RecvStream.read
    dsimp only
    split
    · exact (Turn.refl locked).advance
    · cases done : s.consume (min dstLen s.peek.length) with
      | none => exact .refl locked
      | some after => exact consume_turn locked done
  | consume take =>
    change Turn s ((s.consume take).getD s)
    cases done : s.consume take with
    | none => exact .refl locked
    | some after => exact consume_turn locked done
  | compactPrefix =>
    change Turn s s.compactPrefix
    unfold RecvStream.compactPrefix
    split
    · exact .refl locked
    · exact ⟨locked.same rfl rfl rfl rfl rfl,.refl⟩
  | markRead =>
    change Turn s s.markRead
    unfold RecvStream.markRead
    split
    · rename_i state
      have fin := locked.ended (.inl state)
      have running : ¬s.reset.isSome = true := fun some => by
        rcases locked.reset.mp some with other | other <;> exact absurd (state.symm.trans other) nofun
      refine ⟨⟨⟨fun some => absurd some running,nofun⟩,fun _ => fin,fun _ => nofun,locked.final,locked.ceiling⟩,?_⟩
      rw [state]
      exact .single .read
    split
    · rename_i state
      have some := locked.reset.mpr (.inl state)
      refine ⟨⟨⟨fun _ => .inr rfl,fun _ => some⟩,nofun,fun _ => nofun,locked.final,locked.ceiling⟩,?_⟩
      rw [state]
      exact .single .resetRead
    · exact .refl locked

theorem locked_step {s : RecvStream} (locked : Locked s) (event : Event) : Locked (step s event) := by
  cases event with
  | frame grants frame =>
    cases frame with
    | stream offset data fin => exact (recv_turn locked grants offset data fin).locked
    | resetStream errorCode finalSize => exact resetStream_locked locked errorCode finalSize
  | read | consume | compactPrefix | markRead => exact (turn_step locked id).locked

theorem locked_reached {s : RecvStream} (reached : Reached s) : Locked s := by
  refine reached.invariant Locked (fun s fresh => ?_) fun _ event locked _ => locked_step locked event
  obtain ⟨maxBufferedSpan,rfl⟩ := fresh
  exact locked_init maxBufferedSpan

theorem along_closed {s after : RecvStream} (along : Along s.state after.state) (closed : s.isClosed = true) : after.isClosed = true := by
  have state : s.state = .dataRead ∨ s.state = .resetRead := by simpa [isClosed] using closed
  have same : after.state = s.state := by
    refine along.cases_head.elim Eq.symm fun ⟨next,edge,_⟩ => ?_
    rcases state with state | state
    · rw [state] at edge
      nomatch edge
    · rw [state] at edge
      nomatch edge
  unfold isClosed
  rw [same]
  exact closed

/-- Every step moves along the diagram, and a stream that is closed stays closed. -/
structure Forward (start : RecvStream) (events : List Event) : Prop where
  along : System.Admits step (fun s event => Along s.state (step s event).state) start events
  closed : ∀ first second, events = first ++ second → (System.run step start first).isClosed = true →
    System.Throughout (·.isClosed = true) step (System.run step start first) second

theorem stays_closed {s : RecvStream} {events : List Event} (closed : s.isClosed = true)
    (along : System.Admits step (fun s event => Along s.state (step s event).state) s events) :
    System.Throughout (·.isClosed = true) step s events := by
  induction events generalizing s with
  | nil => exact closed
  | cons event rest ih => exact ⟨closed,ih (along_closed along.1 closed) along.2⟩

/-- The states go forward as long as no RESET_STREAM with the final size reaches a stream that was read to its end. -/
theorem states_go_forward (start : RecvStream) (events : List Event) (fresh : Fresh start)
    (timely : System.Admits step (fun s event => ¬Late s event) start events) : Forward start events := by
  obtain ⟨maxBufferedSpan,rfl⟩ := fresh
  have along := @System.Admits.under _ _ step (fun s event => ¬Late s event) Locked _ (fun _ _ locked timely => (turn_step locked timely).locked)
    (fun _ _ locked timely => (turn_step locked timely).along) _ _ (locked_init maxBufferedSpan) timely
  refine ⟨along,fun first second whole closed => stays_closed closed ?_⟩
  rw [whole] at along
  exact (System.Admits.append.mp along).2

theorem states_go_forward_once : Forward (.init 100) [.frame granting (.stream 0 [1,2] true),.read 2,.markRead,
    .frame granting (.resetStream 7 3),.frame granting (.stream 0 [1,2] true)] :=
  states_go_forward (.init 100) _ ⟨100,rfl⟩ ⟨id,id,id,fun late => absurd late.2 (by decide),id,trivial⟩

/-- A RESET_STREAM takes back the end that was read. -/
theorem reset_reopens : ¬Forward (.init 100) [.frame granting (.stream 0 [1,2] true),.read 2,.markRead,
    .frame granting (.resetStream 7 2)] := by
  intro forward
  have closed := (forward.closed [.frame granting (.stream 0 [1,2] true),.read 2,.markRead] [.frame granting (.resetStream 7 2)]
    rfl (by decide)).last
  exact absurd closed (by decide)

def Frame.Contradicts (fs : Nat) : Frame → Prop
  | .stream offset data fin => fs < offset+data.length ∨ (fin = true ∧ offset+data.length ≠ fs)
  | .resetStream _ finalSize => finalSize ≠ fs

def FinalSizeError (answer : Except Error Unit) : Prop := answer = .error .beyondFinalSize ∨ answer = .error .finalSizeChanged

/-- The bytes above the read offset fit the limit, and the allocator serves them. -/
def Room (grants : Allocator) (s : RecvStream) : Frame → Prop
  | .stream offset data _ => offset+data.length ≤ maxU64 ∧ offset+data.length-s.readOffset ≤ s.maxBufferedSpan ∧
      grants 0 = true ∧ grants 1 = true
  | .resetStream _ _ => True

structure Answered (grants : Allocator) (s : RecvStream) (fs : Nat) (frame : Frame) : Prop where
  /-- After RESET_STREAM, neither data nor the same frame again counts. -/
  ignored : s.reset.isSome = true → (∀ errorCode finalSize, frame = .resetStream errorCode finalSize → finalSize = fs) →
    receive grants s frame = (.ok (),s)
  /-- Data behind the final size. -/
  beyond : s.reset.isSome = false → ∀ offset data fin, frame = .stream offset data fin → fs < offset+data.length →
    receive grants s frame = (.error (if offset+data.length ≤ maxU64 then .beyondFinalSize else .bufferLimitExceeded),s)
  /-- A FIN elsewhere, while data is missing or unread. -/
  moved : s.state = .recv ∨ s.state = .sizeKnown → ∀ offset data, frame = .stream offset data true → offset+data.length < fs →
    offset+data.length ≤ maxU64 → receive grants s frame = (.error .finalSizeChanged,s)
  reset : s.reset.isSome = false → ∀ errorCode finalSize, frame = .resetStream errorCode finalSize → finalSize ≠ fs →
    receive grants s frame = (.error .finalSizeChanged,s)
  agrees : ¬frame.Contradicts fs → ¬FinalSizeError (receive grants s frame).1 ∧
    (Room grants s frame → (receive grants s frame).1 = .ok ())

section
variable {s : RecvStream} {fs : Nat} {grants : Allocator}

theorem checkedAdd_eq (a b : Nat) : checkedAdd a b = if a+b ≤ maxU64 then some (a+b) else none := rfl

theorem past_eq (known : s.finalSize = some fs) (newEnd : Nat) : s.pastFinalSize newEnd = decide (fs < newEnd) := by
  unfold pastFinalSize
  rw [known]

theorem buffer_answer {newEnd clipOffset : Nat} {clipData : List Byte} {e : Error}
    (refused : s.buffer grants newEnd clipOffset clipData = .error e) :
    (e = .bufferLimitExceeded ∨ e = .outOfMemory) ∧ (maxU64 < clipOffset+clipData.length ∨
      s.maxBufferedSpan < clipOffset+clipData.length-s.readOffset ∨ grants 0 = false ∨ grants 1 = false) := by
  unfold RecvStream.buffer at refused
  dsimp only at refused
  split_ifs at refused with wide far first second
  · cases refused
    exact ⟨.inl rfl,.inl wide⟩
  · cases refused
    exact ⟨.inl rfl,.inr (.inl far)⟩
  · cases refused
    exact ⟨.inr rfl,.inr (.inr (.inl first.2))⟩
  · cases refused
    exact ⟨.inr rfl,.inr (.inr (.inr second))⟩

theorem stream_agrees (known : s.finalSize = some fs) {offset : Nat} {data : List Byte} {fin : Bool}
    (below : offset+data.length ≤ fs) (last : fin = true → offset+data.length = fs) :
    ¬FinalSizeError (s.recv grants offset data fin).1 ∧
      (Room grants s (.stream offset data fin) → (s.recv grants offset data fin).1 = .ok ()) := by
  have fine : ¬FinalSizeError (.ok ()) := by
    rintro (other | other) <;> nomatch other
  have ok : ∀ t : RecvStream, ¬FinalSizeError ((Except.ok () : Except Error Unit),t).1 ∧
      (Room grants s (.stream offset data fin) → ((Except.ok () : Except Error Unit),t).1 = .ok ()) := fun _ => ⟨fine,fun _ => rfl⟩
  unfold RecvStream.recv
  by_cases reset : s.reset.isSome = true
  · rw [if_pos reset]
    exact ok s
  rw [if_neg reset,checkedAdd_eq]
  by_cases small : offset+data.length ≤ maxU64
  · rw [if_pos small]
    dsimp only
    rw [past_eq known,decide_eq_false (Nat.not_lt.mpr below),if_neg Bool.false_ne_true]
    by_cases ended : s.state = .dataRecvd ∨ s.state = .dataRead
    · rw [if_pos ended]
      exact ok s
    rw [if_neg ended]
    have lock : ∃ locked, s.lockFinalSize (offset+data.length) fin = .ok locked ∧ locked.readOffset = s.readOffset ∧
        locked.maxBufferedSpan = s.maxBufferedSpan := by
      unfold lockFinalSize
      cases fin with
      | false => exact ⟨s,rfl,rfl,rfl⟩
      | true =>
        rw [known]
        simp only [Bool.not_true,Bool.false_eq_true,if_false,ne_eq,last rfl,not_true_eq_false]
        exact ⟨_,rfl,rfl,rfl⟩
    obtain ⟨locked,done,read,span⟩ := lock
    rw [done]
    dsimp only
    by_cases duplicate : offset < locked.readOffset ∧ locked.readOffset-offset ≥ data.length
    · rw [if_pos duplicate]
      exact ok _
    rw [if_neg duplicate]
    by_cases empty : data.drop (locked.readOffset-offset) = []
    · rw [if_pos empty]
      exact ok _
    · rw [if_neg empty]
      cases filled : locked.buffer grants (offset+data.length) (max offset locked.readOffset)
        (data.drop (locked.readOffset-offset)) with
      | ok after => exact ok _
      | error e =>
        obtain ⟨kind,why⟩ := buffer_answer filled
        dsimp only
        refine ⟨?_,fun room => ?_⟩
        · rcases kind with rfl | rfl <;> rintro (other | other) <;> nomatch other
        · obtain ⟨_,near,first,second⟩ := room
          have stop : max offset locked.readOffset+(data.drop (locked.readOffset-offset)).length = offset+data.length := by
            rw [List.length_drop]
            rcases Nat.lt_or_ge offset locked.readOffset with low | high
            · have some : ¬locked.readOffset-offset ≥ data.length := fun all => duplicate ⟨low,all⟩
              omega
            · omega
          rw [stop,read,span] at why
          have wide : ¬maxU64 < offset+data.length := Nat.not_lt.mpr small
          have far : ¬s.maxBufferedSpan < offset+data.length-s.readOffset := Nat.not_lt.mpr near
          rcases (why.resolve_left wide).resolve_left far with refused | refused
          · exact absurd (first.symm.trans refused) nofun
          · exact absurd (second.symm.trans refused) nofun
  · rw [if_neg small]
    dsimp only
    refine ⟨?_,fun room => absurd room.1 small⟩
    rintro (other | other) <;> nomatch other

end

/-- Once the final size of a stream is fixed, a frame that contradicts it is turned away and one that agrees is taken. -/
theorem final_size_kept {s : RecvStream} (reached : Reached s) {fs : Nat} (known : s.finalSize = some fs) (grants : Allocator)
    (frame : Frame) : Answered grants s fs frame := by
  have locked := locked_reached reached
  refine ⟨fun reset _ => ?_,?_,?_,?_,fun agrees => ?_⟩
  · cases frame with
    | stream offset data fin =>
      change s.recv grants offset data fin = _
      unfold RecvStream.recv
      rw [if_pos reset]
    | resetStream errorCode finalSize =>
      change s.resetStream errorCode finalSize = _
      unfold RecvStream.resetStream
      rw [if_pos reset]
  · rintro running offset data fin rfl beyond
    change s.recv grants offset data fin = _
    unfold RecvStream.recv
    rw [running,if_neg Bool.false_ne_true,checkedAdd_eq]
    by_cases small : offset+data.length ≤ maxU64
    · rw [if_pos small,if_pos small]
      dsimp only
      rw [past_eq known,decide_eq_true beyond,if_pos rfl]
    · rw [if_neg small,if_neg small]
  · rintro state offset data rfl short small
    have running : ¬s.reset.isSome = true := fun reset => by
      rcases locked.reset.mp reset with other | other <;> rcases state with state | state <;>
        exact absurd (state.symm.trans other) nofun
    have going : ¬(s.state = .dataRecvd ∨ s.state = .dataRead) := by
      rcases state with state | state <;> rw [state] <;> decide
    change s.recv grants offset data true = _
    unfold RecvStream.recv
    rw [if_neg running,checkedAdd_eq,if_pos small]
    dsimp only
    rw [past_eq known,decide_eq_false (Nat.not_lt.mpr (Nat.le_of_lt short)),if_neg Bool.false_ne_true,if_neg going]
    unfold lockFinalSize
    rw [known]
    simp only [Bool.not_true,Bool.false_eq_true,if_false,if_pos (Nat.ne_of_gt short)]
  · rintro running errorCode finalSize rfl other
    change s.resetStream errorCode finalSize = _
    rcases resetStream_cases running errorCode finalSize with ⟨_,same⟩ | ⟨⟨agrees,_⟩,_⟩
    · exact same
    · have fin := (locked.final.mp (by rw [known]; rfl)).resolve_right (by rw [running]; nofun)
      exact absurd (agrees fin fs known).symm other
  · cases frame with
    | stream offset data fin =>
      have below : ¬fs < offset+data.length := fun beyond => agrees (.inl beyond)
      refine stream_agrees known (Nat.le_of_not_lt below) fun last => ?_
      exact of_not_not fun other => agrees (.inr ⟨last,other⟩)
    | resetStream errorCode finalSize =>
      have same : finalSize = fs := of_not_not agrees
      subst same
      have ok : (receive grants s (.resetStream errorCode finalSize)).1 = .ok () := by
        change (s.resetStream errorCode finalSize).1 = _
        cases running : s.reset.isSome with
        | true =>
          unfold RecvStream.resetStream
          rw [if_pos running]
        | false =>
          rcases resetStream_cases running errorCode finalSize with ⟨⟨_,_,other,apart⟩ | short,_⟩ | ⟨_,same⟩
          · exact absurd (Option.some.inj (other.symm.trans known)) apart
          · exact absurd (locked.ceiling finalSize known) (Nat.not_le.mpr short)
          · rw [same]
      rw [ok]
      refine ⟨?_,fun _ => rfl⟩
      rintro (other | other) <;> nomatch other

def threeBytes : RecvStream := System.run step (.init 100) [.frame granting (.stream 0 [1,2,3] true),.read 2]

theorem threeBytes_reached : Reached threeBytes :=
  (System.Reaches.start ⟨100,rfl⟩).run _ ⟨trivial,trivial,trivial⟩

theorem final_size_kept_three : Answered granting threeBytes 3 (.stream 0 [1,2] true) :=
  final_size_kept threeBytes_reached (by decide) granting _

/-- Data behind the final size of a stream that was reset. -/
theorem reset_hides_contradiction : ¬∀ s, Reached s → ∀ fs, s.finalSize = some fs → ∀ (grants : Allocator) (frame : Frame),
    (frame.Contradicts fs → FinalSizeError (receive grants s frame).1) ∧
      (¬frame.Contradicts fs → (receive grants s frame).1 = .ok ()) := by
  intro claimed
  have reached : Reached (System.run step (.init 100) [.frame granting (.stream 0 [1,2,3] false),.frame granting (.resetStream 7 3)]) :=
    (System.Reaches.start ⟨100,rfl⟩).run _ ⟨trivial,trivial,trivial⟩
  rcases (claimed _ reached 3 (by decide) granting (.stream 3 [4] false)).1 (.inl (by decide)) with error | error <;> nomatch error

end QuicZig.Conn.RecvFinal
