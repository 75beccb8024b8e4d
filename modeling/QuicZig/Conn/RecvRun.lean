import QuicZig.Conn.RecvStream
import QuicZig.Library.System

/-! Runs of a receive stream. A history keeps the accepted frames in order and the
bytes handed to the reader. The byte of an offset is the one of the first accepted
frame that covers it; the buffer holds those bytes and the reader gets them. -/
namespace QuicZig.Conn
open Machine RangeList Spans RecvStream

namespace RecvRun

structure Frame where
  offset : Nat
  data : List Byte
  deriving DecidableEq, Repr

def Frame.byte? (f : Frame) (i : Nat) : Option Byte := if f.offset ≤ i then f.data[i-f.offset]? else none

def firstByte (accepted : List Frame) (i : Nat) : Option Byte := accepted.findSome? (·.byte? i)

inductive Call where
  | recv (offset : Nat) (data : List Byte) (fin : Bool)
  | read (dstLen : Nat)
  | consume (take : Nat)
  | compactPrefix

structure Event where
  call : Call
  grants : Allocator

structure History where
  stream : RecvStream
  accepted : List Frame := []
  delivered : List Byte := []

def step (h : History) (e : Event) : History :=
  match e.call with
  | .recv offset data fin =>
    match h.stream.recv e.grants offset data fin with
    | (.ok _,s) => {h with stream := s,accepted := h.accepted ++ [⟨offset,data⟩]}
    | (.error _,s) => {h with stream := s}
  | .read dstLen =>
    match h.stream.read dstLen with
    | some (bytes,s) => {h with stream := s,delivered := h.delivered ++ bytes}
    | none => h
  | .consume take =>
    match h.stream.consume take with
    | some s => {h with stream := s,delivered := h.delivered ++ h.stream.peek.take take}
    | none => h
  | .compactPrefix => {h with stream := h.stream.compactPrefix}

def Fresh (h : History) : Prop := ∃ maxBufferedSpan, h = {stream := RecvStream.init maxBufferedSpan}

/-- The live part of the buffer; its first byte has the read offset. -/
def live (s : RecvStream) : List Byte := s.bytes.drop s.bufStart

/-- The buffer and the ranges hold what the accepted frames carry above the read offset. -/
structure Assembled (accepted : List Frame) (delivered : List Byte) (s : RecvStream) : Prop where
  sorted : Sorted s.ranges
  start : s.bufStart ≤ s.bytes.length
  inside : ∀ i, Covered s.ranges i → s.readOffset ≤ i ∧ i-s.readOffset < (live s).length
  received : ∀ i, (firstByte accepted i).isSome = true ↔ i < s.readOffset ∨ Covered s.ranges i
  content : ∀ i, Covered s.ranges i → (live s)[i-s.readOffset]? = firstByte accepted i
  length : delivered.length = s.readOffset
  handed : ∀ i, i < s.readOffset → delivered[i]? = firstByte accepted i

/-- A stream that has ended was read to its final size. -/
structure Ended (s : RecvStream) : Prop where
  open' : s.reset = none
  final : s.state = .dataRecvd ∨ s.state = .dataRead → s.finalSize = some s.readOffset ∧ s.ranges = []

theorem byte?_isSome (f : Frame) (i : Nat) :
    (f.byte? i).isSome = true ↔ f.offset ≤ i ∧ i < f.offset+f.data.length := by
  unfold Frame.byte?
  split
  · simp
    omega
  · simp
    omega

theorem firstByte_append (accepted : List Frame) (f : Frame) (i : Nat) :
    firstByte (accepted ++ [f]) i = (firstByte accepted i).or (f.byte? i) := by
  simp [firstByte,List.findSome?_append]

theorem firstByte_stable (accepted : List Frame) (f : Frame) (i : Nat) (known : (firstByte accepted i).isSome = true) :
    firstByte (accepted ++ [f]) i = firstByte accepted i := by
  rw [firstByte_append,Option.or_of_isSome known]

theorem length_live (s : RecvStream) : (live s).length = s.bytes.length-s.bufStart := List.length_drop

theorem Assembled.transfer {accepted : List Frame} {delivered : List Byte} {s after : RecvStream}
    (assembled : Assembled accepted delivered s) (bytes : live after = live s) (start : after.bufStart ≤ after.bytes.length)
    (read : after.readOffset = s.readOffset) (ranges : after.ranges = s.ranges) : Assembled accepted delivered after := by
  obtain ⟨sorted,fits,inside,received,content,length,handed⟩ := assembled
  constructor <;> (try simp only [bytes,read,ranges]) <;> assumption

theorem Assembled.duplicate {accepted : List Frame} {delivered : List Byte} {s : RecvStream}
    (assembled : Assembled accepted delivered s) (f : Frame)
    (known : ∀ i, f.offset ≤ i → i < f.offset+f.data.length → i < s.readOffset ∨ Covered s.ranges i) :
    Assembled (accepted ++ [f]) delivered s := by
  have same : ∀ i, firstByte (accepted ++ [f]) i = firstByte accepted i := by
    intro i
    cases old : (firstByte accepted i).isSome with
    | true => exact firstByte_stable accepted f i old
    | false =>
      have fresh : f.byte? i = none := by
        rw [← Option.not_isSome_iff_eq_none,byte?_isSome]
        intro covers
        have := (assembled.received i).mpr (known i covers.1 covers.2)
        simp [old] at this
      rw [firstByte_append,fresh,Option.or_none]
  refine ⟨assembled.sorted,assembled.start,assembled.inside,?_,?_,assembled.length,?_⟩
  · intro i
    rw [same]
    exact assembled.received i
  · intro i covered
    rw [same]
    exact assembled.content i covered
  · intro i below
    rw [same]
    exact assembled.handed i below

theorem fillGaps_spec (base bufStart : Nat) (ranges : List Range) (sorted : Sorted ranges) (pos : Nat)
    (above : ∀ r ∈ ranges, pos < r.stop) (floor : base ≤ pos) (data bytes : List Byte)
    (fits : (pos-base)+bufStart+data.length ≤ bytes.length) :
    (fillGaps base bufStart ranges pos data bytes).length = bytes.length ∧
      ∀ i, base ≤ i → (fillGaps base bufStart ranges pos data bytes)[bufStart+(i-base)]? =
        if pos ≤ i ∧ i < pos+data.length ∧ ¬ Covered ranges i then data[i-pos]? else bytes[bufStart+(i-base)]? := by
  induction ranges generalizing pos data bytes with
  | nil =>
    refine ⟨Ring.length_store _ _ _ fits,?_⟩
    intro i low
    rw [fillGaps,Ring.getElem?_store _ _ _ _ fits]
    by_cases within : pos ≤ i ∧ i < pos+data.length
    · rw [if_pos (by omega),if_pos (by simp [within])]
      congr 1
      omega
    · rw [if_neg (by omega),if_neg (by intro all; exact within ⟨all.1,all.2.1⟩)]
  | cons r rest ih =>
    obtain ⟨proper,gap,tail⟩ := (separated_cons r rest).mp sorted
    have first := above r (by simp)
    have beyond : ∀ i, Covered rest i → r.stop < i := fun i covered => sorted.beyond covered
    unfold fillGaps
    split
    · rename_i empty
      refine ⟨rfl,?_⟩
      intro i low
      rw [if_neg]
      simp [empty]
      omega
    rename_i some
    have long : 0 < data.length := List.length_pos_iff.mpr some
    dsimp only
    split
    · rename_i meets
      have start : pos ≤ max r.offset pos := le_max_right _ _
      have grows : max r.offset pos < min r.stop (pos+data.length) := by omega
      have stop : min r.stop (pos+data.length) ≤ pos+data.length := min_le_right _ _
      have bound : min r.stop (pos+data.length) ≤ r.stop := min_le_left _ _
      generalize low : max r.offset pos = coveredStart at *
      generalize high : min r.stop (pos+data.length) = coveredEnd at *
      rw [if_pos grows]
      have taken : (data.take (coveredStart-pos)).length = coveredStart-pos := by
        rw [List.length_take]
        omega
      have left : (data.drop (coveredEnd-pos)).length = data.length-(coveredEnd-pos) := List.length_drop
      have stored : (Ring.store bytes (pos-base+bufStart) (data.take (coveredStart-pos))).length = bytes.length :=
        Ring.length_store _ _ _ (by omega)
      have next : ∀ q ∈ rest, coveredEnd < q.stop := by
        intro q member
        have := gap q member
        have := tail.proper q member
        omega
      obtain ⟨size,cells⟩ := ih tail coveredEnd next (by omega) (data.drop (coveredEnd-pos)) _ (by rw [stored,left]; omega)
      refine ⟨size.trans stored,?_⟩
      intro i floor'
      rw [cells i floor',left,Ring.getElem?_store _ _ _ _ (by omega),taken,List.getElem?_drop,List.getElem?_take]
      have apart : ¬ Covered (r::rest) i ↔ ¬ (r.offset ≤ i ∧ i < r.stop) ∧ ¬ Covered rest i := by
        rw [covered_cons,not_or]
      by_cases later : coveredEnd ≤ i ∧ i < coveredEnd+(data.length-(coveredEnd-pos)) ∧ ¬ Covered rest i
      · rw [if_pos later,if_pos ⟨by omega,by omega,apart.mpr ⟨by omega,later.2.2⟩⟩]
        congr 1
        omega
      · rw [if_neg later]
        by_cases before : pos ≤ i ∧ i < coveredStart
        · have early : i < r.offset := by omega
          have outside : ¬ Covered rest i := fun covered => by have := beyond i covered; omega
          have within : i < pos+data.length := by omega
          clear low high later
          rw [if_pos (by omega),if_pos (by omega),if_pos ⟨before.1,within,apart.mpr ⟨fun here => by omega,outside⟩⟩]
          congr 1
          omega
        · rw [if_neg (by clear low high later; omega),if_neg]
          intro all
          obtain ⟨from',until',uncovered⟩ := all
          have clear := apart.mp uncovered
          exact later ⟨by omega,by omega,clear.2⟩
    · rename_i apart
      refine ⟨Ring.length_store _ _ _ fits,?_⟩
      intro i floor'
      have outside : i < pos+data.length → ¬ Covered (r::rest) i := by
        intro until' covered
        rcases (covered_cons r rest i).mp covered with here | later
        · omega
        · have := beyond i later
          omega
      rw [Ring.getElem?_store _ _ _ _ fits]
      by_cases within : pos ≤ i ∧ i < pos+data.length
      · rw [if_pos (by omega),if_pos ⟨within.1,within.2,outside within.2⟩]
        congr 1
        omega
      · rw [if_neg (by omega),if_neg (fun all => within ⟨all.1,all.2.1⟩)]

theorem buffer_spec {accepted : List Frame} {delivered : List Byte} {s filled : RecvStream}
    (assembled : Assembled accepted delivered s) (f : Frame) (grants : Allocator) (newEnd clipOffset : Nat)
    (clipData : List Byte) (some : clipData ≠ []) (floor : s.readOffset ≤ clipOffset)
    (clipped : ∀ i, s.readOffset ≤ i → f.byte? i = if clipOffset ≤ i then clipData[i-clipOffset]? else none)
    (ok : s.buffer grants newEnd clipOffset clipData = .ok filled) :
    Assembled (accepted ++ [f]) delivered filled ∧ filled.readOffset = s.readOffset ∧ filled.state = s.state ∧
      filled.reset = s.reset := by
  have long : 0 < clipData.length := List.length_pos_iff.mpr some
  unfold buffer at ok
  dsimp only at ok
  split at ok
  · simp at ok
  split at ok
  · simp at ok
  split at ok
  · simp at ok
  split at ok
  · simp at ok
  have equal := Except.ok.inj ok
  generalize grown : s.bytes ++ List.replicate (s.bufStart+(clipOffset+clipData.length-s.readOffset)-s.bytes.length) (0 : Byte) = bytes at equal
  have size : s.bytes.length ≤ bytes.length ∧ s.bufStart+(clipOffset+clipData.length-s.readOffset) ≤ bytes.length := by
    rw [← grown,List.length_append,List.length_replicate]
    omega
  have old : ∀ k, k < s.bytes.length → bytes[k]? = s.bytes[k]? := by
    intro k inside
    rw [← grown,List.getElem?_append_left inside]
  obtain ⟨sorted',above,same⟩ := dropWhile_spec s.ranges clipOffset assembled.sorted
  obtain ⟨length,cells⟩ := fillGaps_spec s.readOffset s.bufStart _ sorted' clipOffset above floor clipData bytes (by omega)
  obtain ⟨sorted,covers⟩ := insertMerge_spec true s.ranges ⟨clipOffset,clipOffset+clipData.length⟩ assembled.sorted
    (insertMerge_granted _ _)
  generalize fillGaps s.readOffset s.bufStart (s.ranges.dropWhile (·.stop ≤ clipOffset)) clipOffset clipData bytes = written at *
  have carried : ∀ i, s.readOffset ≤ i → ((f.byte? i).isSome = true ↔ clipOffset ≤ i ∧ i < clipOffset+clipData.length) := by
    intro i high
    rw [clipped i high]
    split
    · simp
      omega
    · simp
      omega
  rw [← equal]
  refine ⟨⟨sorted,?_,?_,?_,?_,assembled.length,?_⟩,rfl,rfl,rfl⟩
  · have fits := assembled.start
    change s.bufStart ≤ written.length
    omega
  · intro i covered
    have fits := assembled.start
    have room : (written.drop s.bufStart).length = written.length-s.bufStart := List.length_drop
    change s.readOffset ≤ i ∧ i-s.readOffset < (written.drop s.bufStart).length
    rcases (covers i).mp covered with before | inside
    · have inside := assembled.inside i before
      rw [length_live] at inside
      omega
    · change clipOffset ≤ i ∧ i < clipOffset+clipData.length at inside
      omega
  · intro i
    change _ ↔ i < s.readOffset ∨ Covered _ i
    rw [firstByte_append,covers,Option.isSome_or,Bool.or_eq_true,assembled.received]
    by_cases low : i < s.readOffset
    · simp [low]
    · rw [carried i (by omega)]
      exact or_assoc
  · intro i covered
    change (written.drop s.bufStart)[i-s.readOffset]? = _
    rw [List.getElem?_drop]
    by_cases known : Covered s.ranges i
    · have inside := assembled.inside i known
      have held := assembled.content i known
      rw [length_live] at inside
      rw [live,List.getElem?_drop] at held
      rw [firstByte_stable _ _ _ ((assembled.received i).mpr (.inr known)),cells i inside.1,if_neg,old _ (by omega),held]
      intro fresh
      exact fresh.2.2 ((same i fresh.1).mpr known)
    · have inside : clipOffset ≤ i ∧ i < clipOffset+clipData.length := ((covers i).mp covered).resolve_left known
      have high : s.readOffset ≤ i := floor.trans inside.1
      have absent : firstByte accepted i = none := by
        rw [← Option.not_isSome_iff_eq_none,assembled.received]
        exact fun either => either.elim (by omega) known
      rw [cells i high,if_pos ⟨inside.1,inside.2,fun covered' => known ((same i inside.1).mp covered')⟩,firstByte_append,
        absent,Option.none_or,clipped i high,if_pos inside.1]
  · intro i below
    rw [firstByte_stable _ _ _ ((assembled.received i).mpr (.inl below))]
    exact assembled.handed i below

theorem maybeAdvanceState_spec (s : RecvStream) :
    ∃ state, s.maybeAdvanceState = {s with state := state} ∧
      (state = .dataRecvd ∨ state = .dataRead →
        (s.state = .dataRecvd ∨ s.state = .dataRead) ∨ (s.finalSize = some s.readOffset ∧ s.ranges = [])) := by
  unfold maybeAdvanceState
  split
  · exact ⟨s.state,rfl,.inl⟩
  split
  · exact ⟨s.state,rfl,.inl⟩
  split
  · rename_i drained
    split
    · exact ⟨.dataRecvd,rfl,fun _ => .inr drained⟩
    · exact ⟨s.state,rfl,.inl⟩
  · split
    · split
      · exact ⟨.sizeKnown,rfl,by simp⟩
      · exact ⟨s.state,rfl,.inl⟩
    · exact ⟨s.state,rfl,.inl⟩

theorem lockFinalSize_spec {s locked : RecvStream} {newEnd : Nat} {fin : Bool} (ok : s.lockFinalSize newEnd fin = .ok locked) :
    ∃ finalSize finSeen state, locked = {s with finalSize := finalSize,finSeen := finSeen,state := state} ∧
      (state = .dataRecvd ∨ state = .dataRead → s.state = .dataRecvd ∨ s.state = .dataRead) := by
  have kept : (if s.state = .recv then State.sizeKnown else s.state) = .dataRecvd ∨
      (if s.state = .recv then State.sizeKnown else s.state) = .dataRead → s.state = .dataRecvd ∨ s.state = .dataRead := by
    split <;> simp
  unfold lockFinalSize at ok
  split at ok
  · exact ⟨_,_,_,(Except.ok.inj ok).symm,id⟩
  split at ok
  · split at ok
    · simp at ok
    · exact ⟨_,_,_,(Except.ok.inj ok).symm,kept⟩
  · split at ok
    · simp at ok
    · exact ⟨_,_,_,(Except.ok.inj ok).symm,kept⟩

structure Coherent (h : History) : Prop where
  assembled : Assembled h.accepted h.delivered h.stream
  ended : Ended h.stream

theorem Ended.advance {s : RecvStream} (ended : Ended s) : Ended s.maybeAdvanceState := by
  obtain ⟨state,advanced,final⟩ := maybeAdvanceState_spec s
  rw [advanced]
  exact ⟨ended.open',fun terminal => (final terminal).elim ended.final id⟩

theorem Assembled.advance {accepted : List Frame} {delivered : List Byte} {s : RecvStream}
    (assembled : Assembled accepted delivered s) : Assembled accepted delivered s.maybeAdvanceState := by
  obtain ⟨state,advanced,_⟩ := maybeAdvanceState_spec s
  rw [advanced]
  exact assembled.transfer rfl assembled.start rfl rfl

theorem checkedAdd_some {a b sum : Nat} (ok : checkedAdd a b = some sum) : sum = a+b := by
  unfold checkedAdd at ok
  split at ok
  · exact (Option.some.inj ok).symm
  · simp at ok

theorem recv_spec {h : History} (coherent : Coherent h) (grants : Allocator) (offset : Nat) (data : List Byte) (fin : Bool) :
    ((h.stream.recv grants offset data fin).1 = .ok () →
      Assembled (h.accepted ++ [⟨offset,data⟩]) h.delivered (h.stream.recv grants offset data fin).2 ∧
        Ended (h.stream.recv grants offset data fin).2) ∧
    ((h.stream.recv grants offset data fin).1 ≠ .ok () → (h.stream.recv grants offset data fin).2 = h.stream) := by
  obtain ⟨assembled,ended⟩ := coherent
  unfold recv
  rw [ended.open']
  simp only [Option.isSome_none,Bool.false_eq_true,ite_false]
  split
  · simp
  rename_i newEnd sum
  have stop := checkedAdd_some sum
  split
  · simp
  rename_i within
  split
  · rename_i terminal
    obtain ⟨final,_⟩ := ended.final terminal
    refine ⟨fun _ => ⟨assembled.duplicate _ ?_,ended⟩,by simp⟩
    intro i low high
    change i < offset+data.length at high
    simp [pastFinalSize,final] at within
    exact .inl (by omega)
  rename_i running
  cases lock : h.stream.lockFinalSize newEnd fin with
  | error e => simp
  | ok locked =>
  obtain ⟨finalSize,finSeen,state,rfl,kept⟩ := lockFinalSize_spec lock
  have running' : ¬ (state = .dataRecvd ∨ state = .dataRead) := fun terminal => running (kept terminal)
  have ended' : Ended {h.stream with finalSize := finalSize,finSeen := finSeen,state := state} :=
    ⟨ended.open',fun terminal => absurd terminal running'⟩
  have assembled' : Assembled h.accepted h.delivered {h.stream with finalSize := finalSize,finSeen := finSeen,state := state} :=
    assembled.transfer rfl assembled.start rfl rfl
  dsimp only
  split
  · rename_i below
    refine ⟨fun _ => ⟨(assembled'.duplicate _ ?_).advance,ended'.advance⟩,by simp⟩
    intro i low high
    change i < offset+data.length at high
    exact .inl (by change i < h.stream.readOffset; omega)
  rename_i above
  split
  · rename_i none
    refine ⟨fun _ => ⟨Assembled.advance (Assembled.transfer (assembled'.duplicate _ ?_) rfl assembled.start rfl rfl),
      Ended.advance ⟨ended.open',fun terminal => absurd terminal running'⟩⟩,by simp⟩
    intro i low high
    change offset ≤ i at low
    change i < offset+data.length at high
    have short := List.drop_eq_nil_iff.mp none
    exact .inl (by change i < h.stream.readOffset; omega)
  rename_i some
  cases filling : buffer grants {h.stream with finalSize := finalSize,finSeen := finSeen,state := state} newEnd
      (max offset h.stream.readOffset) (data.drop (h.stream.readOffset-offset)) with
  | error e => simp
  | ok filled =>
    have clipped : ∀ i, h.stream.readOffset ≤ i → (Frame.mk offset data).byte? i =
        if max offset h.stream.readOffset ≤ i then
          (data.drop (h.stream.readOffset-offset))[i-max offset h.stream.readOffset]? else none := by
      intro i high
      simp only [Frame.byte?,List.getElem?_drop]
      by_cases inside : offset ≤ i
      · rw [if_pos inside,if_pos (by omega)]
        congr 1
        omega
      · rw [if_neg inside,if_neg (by omega)]
    obtain ⟨assembled'',read,state',reset⟩ := buffer_spec assembled' ⟨offset,data⟩ grants newEnd _ _ some (le_max_right _ _)
      clipped filling
    refine ⟨fun _ => ⟨assembled''.advance,Ended.advance ⟨reset.trans ended.open',?_⟩⟩,by simp⟩
    intro terminal
    rw [state'] at terminal
    exact absurd terminal running'

theorem peek_spec {h : History} (assembled : Assembled h.accepted h.delivered h.stream) :
    h.stream.peek.length = h.stream.readableBytes ∧
      ∀ i, i < h.stream.readableBytes → h.stream.peek[i]? = firstByte h.accepted (h.stream.readOffset+i) := by
  unfold peek readableBytes
  cases ranges : h.stream.ranges with
  | nil => simp
  | cons r rest =>
    dsimp only
    split
    · simp
    · rename_i starts
      have starts : r.offset = h.stream.readOffset := by simpa using starts
      have proper := assembled.sorted.proper r (by simp [ranges])
      have covered : ∀ i, r.offset ≤ i → i < r.stop → Covered h.stream.ranges i := by
        intro i low high
        rw [ranges,covered_cons]
        exact .inl ⟨low,high⟩
      have last := assembled.inside (r.stop-1) (covered _ (by omega) (by omega))
      have length : ((live h.stream).take (r.stop-r.offset)).length = r.stop-r.offset := by
        rw [List.length_take]
        omega
      refine ⟨length,?_⟩
      intro i bound
      have held := assembled.content (h.stream.readOffset+i) (covered _ (by omega) (by omega))
      rw [Nat.add_sub_cancel_left] at held
      rw [← held,← live,List.getElem?_take,if_pos bound]

theorem slide_spec (bytes : List Byte) (bufStart : Nat) (within : bufStart ≤ bytes.length) :
    (slide bytes bufStart).2 ≤ (slide bytes bufStart).1.length ∧
      (slide bytes bufStart).1.drop (slide bytes bufStart).2 = bytes.drop bufStart := by
  unfold slide
  split
  · rename_i drained
    simp [drained]
  split
  · simp
  · exact ⟨within,rfl⟩

theorem Assembled.compact {accepted : List Frame} {delivered : List Byte} {s : RecvStream}
    (assembled : Assembled accepted delivered s) (none : s.ranges = []) (drained : s.liveBytes = 0) :
    Assembled accepted delivered s.compact := by
  have start := assembled.start
  apply assembled.transfer
  · have empty : (live s).length = 0 := (length_live s).trans drained
    rw [List.length_eq_zero_iff.mp empty]
    simp [live,RecvStream.compact]
  · unfold RecvStream.compact
    dsimp only
    split
    · exact le_rfl
    · simp only [List.length_nil]
      omega
  · rfl
  · exact none.symm

theorem consume_spec {h : History} (coherent : Coherent h) {take : Nat} {s : RecvStream}
    (ok : h.stream.consume take = some s) : Coherent ⟨s,h.accepted,h.delivered ++ h.stream.peek.take take⟩ := by
  obtain ⟨assembled,ended⟩ := coherent
  obtain ⟨shown,bytes⟩ := peek_spec assembled
  unfold consume at ok
  split at ok
  · rename_i zero
    obtain rfl := Option.some.inj ok
    refine ⟨?_,ended.advance⟩
    simpa [zero] using assembled.advance
  rename_i some
  cases ranges : h.stream.ranges with
  | nil => simp [ranges] at ok
  | cons r rest =>
  simp only [ranges] at ok
  split at ok
  · simp at ok
  rename_i legal
  rw [not_or] at legal
  have starts : r.offset = h.stream.readOffset := by simpa using legal.1
  have short : take ≤ r.stop-r.offset := by omega
  have readable : h.stream.readableBytes = r.stop-r.offset := by simp [readableBytes,ranges,starts]
  obtain ⟨proper,gap,tail⟩ := (separated_cons r rest).mp (ranges ▸ assembled.sorted)
  have beyond : ∀ i, Covered rest i → r.stop < i := fun i covered => Separated.beyond (ranges ▸ assembled.sorted) covered
  have here : ∀ i, r.offset ≤ i → i < r.stop → Covered h.stream.ranges i := by
    intro i low high
    rw [ranges,covered_cons]
    exact .inl ⟨low,high⟩
  have last := assembled.inside (r.stop-1) (here _ (by omega) (by omega))
  rw [length_live] at last
  obtain ⟨fits,slid⟩ := slide_spec h.stream.bytes (h.stream.bufStart+take) (by omega)
  generalize slide h.stream.bytes (h.stream.bufStart+take) = window at ok fits slid
  obtain ⟨left,bufStart⟩ := window
  generalize kept : (if take = r.stop-r.offset then rest else {r with offset := r.offset+take}::rest) = ranges' at ok
  have covers : ∀ i, Covered ranges' i ↔ Covered h.stream.ranges i ∧ h.stream.readOffset+take ≤ i := by
    intro i
    have := beyond i
    rw [← kept,ranges,covered_cons]
    split
    · constructor
      · exact fun covered => ⟨.inr covered,by have := beyond i covered; omega⟩
      · exact fun both => both.1.resolve_left (by omega)
    · rw [covered_cons]
      dsimp only
      grind
  have sorted : Sorted ranges' := by
    rw [← kept]
    split
    · exact tail
    · exact (separated_cons _ _).mpr ⟨by change r.offset+take < r.stop; omega,gap,tail⟩
  have moved : Assembled h.accepted (h.delivered ++ h.stream.peek.take take)
      {h.stream with bytes := left,bufStart := bufStart,readOffset := h.stream.readOffset+take,ranges := ranges'} := by
    have live' : live {h.stream with bytes := left,bufStart := bufStart,readOffset := h.stream.readOffset+take,ranges := ranges'} =
        (live h.stream).drop take := by
      rw [live,live,List.drop_drop]
      exact slid
    have taken : (h.stream.peek.take take).length = take := by
      rw [List.length_take]
      omega
    refine ⟨sorted,fits,?_,?_,?_,?_,?_⟩
    · intro i covered
      obtain ⟨old,high⟩ := (covers i).mp covered
      have inside := assembled.inside i old
      rw [live',List.length_drop]
      change h.stream.readOffset+take ≤ i ∧ i-(h.stream.readOffset+take) < _
      omega
    · intro i
      rw [assembled.received]
      change _ ↔ i < h.stream.readOffset+take ∨ Covered ranges' i
      rw [covers]
      constructor
      · intro either
        by_cases passed : i < h.stream.readOffset+take
        · exact .inl passed
        · exact .inr ⟨either.resolve_left (by omega),by omega⟩
      · intro either
        rcases either with passed | covered
        · by_cases low : i < h.stream.readOffset
          · exact .inl low
          · exact .inr (here i (by omega) (by omega))
        · exact .inr covered.1
    · intro i covered
      obtain ⟨old,high⟩ := (covers i).mp covered
      rw [live',List.getElem?_drop,← assembled.content i old]
      change (live h.stream)[take+(i-(h.stream.readOffset+take))]? = _
      congr 1
      omega
    · rw [List.length_append,assembled.length,taken]
    · intro i below
      change i < h.stream.readOffset+take at below
      by_cases old : i < h.stream.readOffset
      · rw [List.getElem?_append_left (by rw [assembled.length]; exact old)]
        exact assembled.handed i old
      · rw [List.getElem?_append_right (by rw [assembled.length]; omega),assembled.length,List.getElem?_take,
          if_pos (by omega),bytes _ (by omega)]
        congr 1
        omega
  have ended' : Ended {h.stream with bytes := left,bufStart := bufStart,readOffset := h.stream.readOffset+take,ranges := ranges'} := by
    refine ⟨ended.open',?_⟩
    intro terminal
    have none := (ended.final terminal).2
    simp [ranges] at none
  have advanced := moved.advance
  have ended'' := ended'.advance
  have equal := Option.some.inj ok
  rw [← equal]
  split
  · rename_i drained
    have none := (ended''.final (.inl drained.1)).2
    exact ⟨advanced.compact none drained.2,⟨ended''.open',fun terminal => ⟨(ended''.final terminal).1,rfl⟩⟩⟩
  · exact ⟨advanced,ended''⟩

theorem consume_isSome {h : History} (coherent : Coherent h) {take : Nat} (within : take ≤ h.stream.peek.length) :
    (h.stream.consume take).isSome = true := by
  rw [(peek_spec coherent.assembled).1] at within
  unfold consume
  split
  · rfl
  rename_i some
  unfold readableBytes at within
  split at within
  · omega
  rename_i r rest ranges
  split at within
  · omega
  rename_i starts
  simp only
  rw [if_neg (by rw [not_or]; exact ⟨starts,by omega⟩)]
  rfl

theorem read_isSome {h : History} (coherent : Coherent h) (dstLen : Nat) : (h.stream.read dstLen).isSome = true := by
  unfold RecvStream.read
  dsimp only
  split
  · rfl
  · rw [Option.isSome_map]
    exact consume_isSome coherent (min_le_right _ _)

theorem compactPrefix_spec {h : History} (coherent : Coherent h) :
    Coherent {h with stream := h.stream.compactPrefix} := by
  obtain ⟨assembled,ended⟩ := coherent
  unfold compactPrefix
  split
  · exact ⟨assembled,ended⟩
  · refine ⟨assembled.transfer ?_ (Nat.zero_le _) rfl rfl,⟨ended.open',ended.final⟩⟩
    change List.drop 0 _ = _
    rw [List.drop_zero]
    split
    · rename_i drained
      exact (List.drop_of_length_le drained).symm
    · rfl

theorem coherent_step (h : History) (e : Event) (coherent : Coherent h) : Coherent (step h e) := by
  obtain ⟨call,grants⟩ := e
  unfold step
  cases call with
  | recv offset data fin =>
    obtain ⟨accept,refuse⟩ := recv_spec coherent grants offset data fin
    dsimp only
    cases outcome : h.stream.recv grants offset data fin with
    | mk result s =>
    rw [outcome] at accept refuse
    cases result with
    | ok _ => exact ⟨(accept rfl).1,(accept rfl).2⟩
    | error e =>
      obtain rfl : s = h.stream := refuse (by simp)
      exact coherent
  | read dstLen =>
    dsimp only
    unfold RecvStream.read
    dsimp only
    split
    · rename_i bytes s ok
      split at ok
      · obtain ⟨rfl,rfl⟩ := Prod.mk.inj (Option.some.inj ok)
        rw [List.append_nil]
        exact ⟨coherent.assembled.advance,coherent.ended.advance⟩
      · obtain ⟨after,consumed,equal⟩ := Option.map_eq_some_iff.mp ok
        obtain ⟨rfl,rfl⟩ := Prod.mk.inj equal
        exact consume_spec coherent consumed
    · exact coherent
  | consume take =>
    dsimp only
    split
    · rename_i s consumed
      exact consume_spec coherent consumed
    · exact coherent
  | compactPrefix => exact compactPrefix_spec coherent

theorem fresh_coherent (h : History) (fresh : Fresh h) : Coherent h := by
  obtain ⟨maxBufferedSpan,rfl⟩ := fresh
  exact ⟨⟨separated_nil,le_rfl,by simp [RecvStream.init],by simp [RecvStream.init,firstByte],by simp [RecvStream.init],rfl,
    by simp [RecvStream.init]⟩,⟨rfl,by simp [RecvStream.init]⟩⟩

theorem coherent_run (h : History) (reached : System.Reaches Fresh step (fun _ _ => True) h) : Coherent h :=
  reached.invariant Coherent fresh_coherent (fun h e coherent _ => coherent_step h e coherent)

/-- The reader gets the bytes of the stream in order and once each, the byte of an offset being the
one of the first accepted frame that covered it; and what can be read at any moment is the longest
run of received bytes from the read offset. -/
theorem delivered_in_order (h : History) (reached : System.Reaches Fresh step (fun _ _ => True) h) :
    h.delivered.length = h.stream.readOffset ∧
    (∀ i, i < h.stream.readOffset → h.delivered[i]? = firstByte h.accepted i ∧ (firstByte h.accepted i).isSome = true) ∧
    (∀ i, i < h.stream.readableBytes → (firstByte h.accepted (h.stream.readOffset+i)).isSome = true ∧
      h.stream.peek[i]? = firstByte h.accepted (h.stream.readOffset+i)) ∧
    firstByte h.accepted (h.stream.readOffset+h.stream.readableBytes) = none ∧
    h.stream.peek.length = h.stream.readableBytes ∧
    (∀ take, take ≤ h.stream.peek.length → (h.stream.consume take).isSome = true) ∧
    ∀ dstLen, (h.stream.read dstLen).isSome = true := by
  have coherent := coherent_run h reached
  obtain ⟨assembled,ended⟩ := coherent
  obtain ⟨length,bytes⟩ := peek_spec assembled
  have known : ∀ i, i < h.stream.readOffset → (firstByte h.accepted i).isSome = true :=
    fun i below => (assembled.received i).mpr (.inl below)
  refine ⟨assembled.length,fun i below => ⟨assembled.handed i below,known i below⟩,?_,?_,length,
    fun take within => consume_isSome ⟨assembled,ended⟩ within,read_isSome ⟨assembled,ended⟩⟩
  · intro i bound
    refine ⟨?_,bytes i bound⟩
    rw [← bytes i bound,List.getElem?_eq_getElem (by omega)]
    rfl
  · rw [← Option.not_isSome_iff_eq_none,assembled.received]
    intro either
    have covered := either.resolve_left (by omega)
    unfold readableBytes at covered
    -- The first range is the whole run, so the byte behind it is in no range.
    split at covered
    · rename_i none
      simp [none] at covered
    · rename_i r rest ranges
      have proper := assembled.sorted.proper r (by simp [ranges])
      have first := (assembled.inside r.offset (assembled.sorted.covered_of_mem (by simp [ranges]))).1
      split at covered
      · rename_i gap
        rw [ranges,covered_cons] at covered
        rcases covered with here | later
        · omega
        · have := Separated.beyond (ranges ▸ assembled.sorted) later
          omega
      · rename_i starts
        have stop : h.stream.readOffset+(r.stop-r.offset) = r.stop := by omega
        rw [stop] at covered
        exact assembled.sorted.gap_after (by simp [ranges]) covered

/-- A tail before its head, an overlap that disagrees, and reads in between. -/
def reordered : List Event :=
  [.recv 3 [4,5] true,.recv 0 [1,2] false,.read 1,.recv 1 [9,3,9] false,.consume 2,.compactPrefix,.read 10].map
    (fun call => ⟨call,granting⟩)

theorem delivered_in_order_reordered :
    (System.run step {stream := RecvStream.init 16} reordered).delivered = [1,2,3,4,5] ∧
      ∀ i, i < 5 → [1,2,3,4,5][i]? = firstByte (System.run step {stream := RecvStream.init 16} reordered).accepted i := by
  have reached : System.Reaches Fresh step (fun _ _ => True) (System.run step {stream := RecvStream.init 16} reordered) :=
    System.Reaches.run reordered (.start ⟨16,rfl⟩) ⟨trivial,trivial,trivial,trivial,trivial,trivial,trivial,trivial⟩
  have all : (System.run step {stream := RecvStream.init 16} reordered).delivered = [1,2,3,4,5] := by decide +kernel
  have drained : (System.run step {stream := RecvStream.init 16} reordered).stream.readOffset = 5 := by decide +kernel
  obtain ⟨_,handed,_⟩ := delivered_in_order _ reached
  refine ⟨all,?_⟩
  intro i bound
  rw [← all]
  exact (handed i (drained ▸ bound)).1

end RecvRun
end QuicZig.Conn
