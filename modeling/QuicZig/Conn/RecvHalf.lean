import QuicZig.Conn.RecvRun

/-! What a connection counts of a receive stream: how far the peer has reached, how much
is done with, and the bytes its buffer holds. -/
namespace QuicZig.Conn
open Machine RangeList Spans

namespace RecvStream

/-- How far the peer has reached: the highest offset, or the final size once the stream is reset. -/
def highWater (s : RecvStream) : Nat :=
  match s.reset with
  | none => s.endOffset
  | some r => r.finalSize

/-- How much is done with: read, or discarded by a reset. -/
def doneWith (s : RecvStream) : Nat :=
  match s.reset with
  | none => s.readOffset
  | some r => r.finalSize

/-- Frames may still bring bytes. -/
structure Running (s : RecvStream) : Prop where
  assembled : ∃ accepted delivered, RecvRun.Coherent ⟨s,accepted,delivered⟩ ∧
    ∀ f ∈ accepted, f.offset+f.data.length ≤ s.endOffset
  final : ∀ fs, s.finalSize = some fs → s.endOffset ≤ fs

structure Emptied (s : RecvStream) (r : ResetInfo) : Prop where
  bytes : s.bytes = []
  start : s.bufStart = 0
  ranges : s.ranges = []
  read : s.readOffset ≤ r.finalSize
  stop : s.endOffset ≤ r.finalSize

def Sound (s : RecvStream) : Prop :=
  match s.reset with
  | none => s.Running
  | some r => s.Emptied r

theorem Running.open' {s : RecvStream} (running : s.Running) : s.reset = none := by
  obtain ⟨_,_,coherent,_⟩ := running.assembled
  exact coherent.ended.open'

theorem Running.sound {s : RecvStream} (running : s.Running) : s.Sound := by
  unfold Sound
  rw [running.open']
  exact running

theorem Emptied.sound {s : RecvStream} {r : ResetInfo} (emptied : s.Emptied r) (reset : s.reset = some r) : s.Sound := by
  unfold Sound
  rw [reset]
  exact emptied

theorem Running.start {s : RecvStream} (running : s.Running) : s.bufStart ≤ s.bytes.length := by
  obtain ⟨_,_,coherent,_⟩ := running.assembled
  exact coherent.assembled.start

theorem Running.read_le {s : RecvStream} (running : s.Running) : s.readOffset ≤ s.endOffset := by
  obtain ⟨accepted,delivered,coherent,within⟩ := running.assembled
  rcases Nat.eq_zero_or_pos s.readOffset with zero | some
  · omega
  · have known := (coherent.assembled.received (s.readOffset-1)).mpr (.inl (by change _ < s.readOffset; omega))
    unfold RecvRun.firstByte at known
    obtain ⟨f,member,byte⟩ := List.findSome?_isSome_iff.mp known
    have covers := (RecvRun.byte?_isSome f (s.readOffset-1)).mp byte
    have := within f member
    omega

theorem Sound.start {s : RecvStream} (sound : s.Sound) : s.bufStart ≤ s.bytes.length := by
  unfold Sound at sound
  split at sound
  · exact sound.start
  · rw [sound.start]
    exact Nat.zero_le _

theorem Sound.done_le {s : RecvStream} (sound : s.Sound) : s.doneWith ≤ s.highWater := by
  unfold Sound at sound
  unfold doneWith highWater
  split at sound
  · exact sound.read_le
  · exact le_rfl

theorem running_init (maxBufferedSpan : Nat) : (RecvStream.init maxBufferedSpan).Running :=
  ⟨⟨[],[],RecvRun.fresh_coherent _ ⟨maxBufferedSpan,rfl⟩,fun _ absent => nomatch absent⟩,fun _ none => nomatch none⟩

theorem length_fillGaps (readOffset bufStart : Nat) (ranges : List Range) (pos : Nat) (data bytes : List Byte)
    (floor : readOffset ≤ pos) (fits : (pos-readOffset)+bufStart+data.length ≤ bytes.length) :
    (fillGaps readOffset bufStart ranges pos data bytes).length = bytes.length := by
  induction ranges generalizing pos data bytes with
  | nil => exact Ring.length_store _ _ _ fits
  | cons r rest ih =>
    unfold fillGaps
    dsimp only
    split_ifs with none inside grows
    · rfl
    · have stored : (Ring.store bytes ((pos-readOffset)+bufStart) (data.take (max r.offset pos-pos))).length = bytes.length := by
        refine Ring.length_store _ _ _ ?_
        rw [List.length_take]
        omega
      rw [ih _ _ _ (by omega) ?_,stored]
      rw [stored,List.length_drop]
      omega
    · refine Ring.length_store _ _ _ ?_
      rw [List.length_take]
      omega
    · exact Ring.length_store _ _ _ fits

theorem advance_fields (s : RecvStream) : ∃ state, s.maybeAdvanceState = {s with state := state} := by
  obtain ⟨state,advanced,_⟩ := RecvRun.maybeAdvanceState_spec s
  exact ⟨state,advanced⟩

/-- How long the buffer is to be for a frame. -/
def needs (s : RecvStream) (offset : Nat) (data : List Byte) : Nat :=
  if data = [] then 0 else s.bufStart+(offset+data.length-s.readOffset)

/-- What a frame changes of the fields that are counted, when it is taken. -/
structure Took (offset : Nat) (data : List Byte) (s t : RecvStream) : Prop where
  read : t.readOffset = s.readOffset
  reach : t.endOffset = max s.endOffset (offset+data.length)
  bufStart : t.bufStart = s.bufStart
  length : t.bytes.length = max s.bytes.length (s.needs offset data)
  final : ∀ fs, t.finalSize = some fs → t.endOffset ≤ fs

section
variable {offset : Nat} {data : List Byte} {s t : RecvStream}

theorem Took.grown (took : Took offset data s t) : s.bytes.length ≤ t.bytes.length :=
  (le_max_left _ _).trans_eq took.length.symm

theorem Took.advance (took : Took offset data s t) : Took offset data s t.maybeAdvanceState := by
  obtain ⟨state,advanced⟩ := advance_fields t
  rw [advanced]
  exact ⟨took.read,took.reach,took.bufStart,took.length,took.final⟩

theorem needs_below (start : s.bufStart ≤ s.bytes.length) (below : offset+data.length ≤ s.readOffset) :
    s.bytes.length = max s.bytes.length (s.needs offset data) := by
  unfold needs
  split <;> omega

theorem buffer_took {grants : Allocator} {clipOffset : Nat} {clipData : List Byte}
    (final : ∀ fs, s.finalSize = some fs → max s.endOffset (offset+data.length) ≤ fs) (some : data ≠ [])
    (floor : s.readOffset ≤ clipOffset) (clipped : clipOffset+clipData.length = offset+data.length)
    (ok : s.buffer grants (offset+data.length) clipOffset clipData = .ok t) : Took offset data s t := by
  unfold buffer at ok
  dsimp only at ok
  split at ok
  · cases ok
  split at ok
  · cases ok
  split at ok
  · cases ok
  split at ok
  · cases ok
  cases ok
  have reach : (if offset+data.length > s.endOffset then offset+data.length else s.endOffset) =
      max s.endOffset (offset+data.length) := by
    split <;> omega
  refine ⟨rfl,reach,rfl,?_,fun fs known => ?_⟩
  · rw [length_fillGaps _ _ _ _ _ _ floor (by rw [List.length_append,List.length_replicate]; omega),List.length_append,
      List.length_replicate]
    unfold needs
    rw [if_neg some]
    omega
  · dsimp only at known ⊢
    rw [reach]
    exact final fs known

end

theorem lock_final {s locked : RecvStream} {newEnd : Nat} {fin : Bool} (within : s.pastFinalSize newEnd = false)
    (bound : ∀ fs, s.finalSize = some fs → s.endOffset ≤ fs) (ok : s.lockFinalSize newEnd fin = .ok locked) :
    (∃ finalSize finSeen state, locked = {s with finalSize := finalSize,finSeen := finSeen,state := state}) ∧
      ∀ fs, locked.finalSize = some fs → max s.endOffset newEnd ≤ fs := by
  obtain ⟨finalSize,finSeen,state,rfl,_⟩ := RecvRun.lockFinalSize_spec ok
  refine ⟨⟨_,_,_,rfl⟩,fun fs known => ?_⟩
  have old : ∀ fs, s.finalSize = some fs → newEnd ≤ fs := by
    intro fs here
    simpa [pastFinalSize,here] using within
  unfold lockFinalSize at ok
  split at ok
  · have same : s.finalSize = finalSize := congrArg RecvStream.finalSize (Except.ok.inj ok)
    exact max_le (bound fs (same.trans known)) (old fs (same.trans known))
  split at ok
  · rename_i fs' here
    split at ok
    · cases ok
    · have same : s.finalSize = finalSize := congrArg RecvStream.finalSize (Except.ok.inj ok)
      exact max_le (bound fs (same.trans known)) (old fs (same.trans known))
  · split at ok
    · cases ok
    · have same : some newEnd = finalSize := congrArg RecvStream.finalSize (Except.ok.inj ok)
      cases same.trans known
      omega

theorem recv_took {s t : RecvStream} (running : s.Running) {grants : Allocator} {offset : Nat} {data : List Byte} {fin : Bool}
    (ok : s.recv grants offset data fin = (.ok (),t)) : Took offset data s t := by
  obtain ⟨accepted,delivered,coherent,_⟩ := running.assembled
  have read := running.read_le
  have start := running.start
  unfold recv at ok
  rw [running.open'] at ok
  simp only [Option.isSome_none,Bool.false_eq_true,ite_false] at ok
  split at ok
  · cases ok
  rename_i newEnd sum
  obtain rfl := RecvRun.checkedAdd_some sum
  split at ok
  · cases ok
  rename_i within
  have within' : s.pastFinalSize (offset+data.length) = false := by simpa using within
  split at ok
  · rename_i terminal
    obtain ⟨final,_⟩ := coherent.ended.final terminal
    cases ok
    have final' : s.finalSize = some s.readOffset := final
    have short : offset+data.length ≤ s.readOffset := by simpa [pastFinalSize,final'] using within'
    exact ⟨rfl,by omega,rfl,needs_below start short,running.final⟩
  cases lock : s.lockFinalSize (offset+data.length) fin with
  | error e => simp [lock] at ok
  | ok locked =>
  obtain ⟨⟨finalSize,finSeen,state,rfl⟩,bound⟩ := lock_final within' running.final lock
  rw [lock] at ok
  dsimp only at ok bound
  split at ok
  · rename_i below
    cases ok
    have reach : s.endOffset = max s.endOffset (offset+data.length) := by omega
    have short : offset+data.length ≤ s.readOffset := by omega
    exact Took.advance ⟨rfl,reach,rfl,needs_below start short,fun fs known => (le_max_left _ _).trans (bound fs known)⟩
  rename_i above
  split at ok
  · rename_i empty
    cases ok
    have reach : (if offset+data.length > s.endOffset then offset+data.length else s.endOffset) =
        max s.endOffset (offset+data.length) := by
      split <;> omega
    have none : data = [] := by
      rw [List.drop_eq_nil_iff] at empty
      refine List.eq_nil_of_length_eq_zero ?_
      omega
    have length : s.bytes.length = max s.bytes.length (s.needs offset data) := by
      unfold needs
      rw [if_pos none]
      omega
    exact Took.advance ⟨rfl,reach,rfl,length,fun fs known => reach.trans_le (bound fs known)⟩
  rename_i some
  split at ok
  · cases ok
  rename_i filled filling
  cases ok
  have taken : s.readOffset-offset < data.length := by
    rw [List.drop_eq_nil_iff] at some
    omega
  have took := buffer_took bound (List.ne_nil_of_length_pos (by omega)) (le_max_right _ _)
    (by rw [List.length_drop]; dsimp only; omega) filling
  exact Took.advance ⟨took.read,took.reach,took.bufStart,took.length,took.final⟩

/-- A frame that is taken raises the end offset to its end, and moves nothing else that is counted. -/
theorem Running.recv {s t : RecvStream} (running : s.Running) {grants : Allocator} {offset : Nat} {data : List Byte} {fin : Bool}
    (ok : s.recv grants offset data fin = (.ok (),t)) : t.Running ∧ Took offset data s t := by
  have took := recv_took running ok
  obtain ⟨accepted,delivered,coherent,within⟩ := running.assembled
  have spec := (RecvRun.recv_spec coherent grants offset data fin).1
  rw [ok] at spec
  obtain ⟨assembled,ended⟩ := spec rfl
  refine ⟨⟨⟨accepted ++ [⟨offset,data⟩],delivered,⟨assembled,ended⟩,fun f member => ?_⟩,took.final⟩,took⟩
  rw [took.reach]
  rcases List.mem_append.mp member with old | last
  · exact (within f old).trans (le_max_left _ _)
  · rw [List.mem_singleton.mp last]
    exact le_max_right _ _

theorem recv_error {s t : RecvStream} {grants : Allocator} {offset : Nat} {data : List Byte} {fin : Bool} {e : Error}
    (refused : s.recv grants offset data fin = (.error e,t)) : t = s := by
  unfold RecvStream.recv at refused
  dsimp only at refused
  split at refused
  · cases refused
  split at refused
  · cases refused
    rfl
  split at refused
  · cases refused
    rfl
  split at refused
  · cases refused
  split at refused
  · cases refused
    rfl
  split at refused
  · cases refused
  split at refused
  · cases refused
  split at refused
  · cases refused
    rfl
  · cases refused

theorem recv_reset {s : RecvStream} {r : ResetInfo} (reset : s.reset = some r) (grants : Allocator) (offset : Nat)
    (data : List Byte) (fin : Bool) : s.recv grants offset data fin = (.ok (),s) := by
  unfold RecvStream.recv
  rw [reset]
  rfl

/-- What the reader leaves as it was. -/
structure Kept (s t : RecvStream) : Prop where
  reset : t.reset = s.reset
  stop : t.endOffset = s.endOffset
  shorter : t.bytes.length ≤ s.bytes.length

theorem length_slide (bytes : List Byte) (bufStart : Nat) : (slide bytes bufStart).1.length ≤ bytes.length := by
  unfold slide
  split_ifs
  · exact Nat.zero_le _
  · rw [List.length_drop]
    exact Nat.sub_le _ _
  · exact le_rfl

theorem consume_kept {s t : RecvStream} {take : Nat} (ok : s.consume take = some t) :
    Kept s t ∧ t.readOffset = s.readOffset+take ∧ t.finalSize = s.finalSize := by
  unfold consume at ok
  split at ok
  · rename_i zero
    cases ok
    obtain ⟨state,advanced⟩ := advance_fields s
    rw [advanced,zero]
    exact ⟨⟨rfl,rfl,le_rfl⟩,rfl,rfl⟩
  split at ok
  · cases ok
  dsimp only at ok
  split at ok
  · cases ok
  have shorter := length_slide s.bytes (s.bufStart+take)
  generalize slide s.bytes (s.bufStart+take) = slid at ok shorter
  obtain ⟨bytes,bufStart⟩ := slid
  dsimp only at ok shorter
  generalize (if take = _ then _ else _) = ranges at ok
  obtain ⟨state,advanced⟩ := advance_fields {s with
    bytes := bytes,readOffset := s.readOffset+take,bufStart := bufStart,ranges := ranges}
  rw [advanced] at ok
  cases ok
  split
  · exact ⟨⟨rfl,rfl,Nat.zero_le _⟩,rfl,rfl⟩
  · exact ⟨⟨rfl,rfl,shorter⟩,rfl,rfl⟩

theorem Running.consume {s t : RecvStream} (running : s.Running) {take : Nat} (ok : s.consume take = some t) : t.Running := by
  obtain ⟨kept,_,final⟩ := consume_kept ok
  obtain ⟨accepted,delivered,coherent,within⟩ := running.assembled
  refine ⟨⟨accepted,_,RecvRun.consume_spec coherent ok,fun f member => kept.stop.symm ▸ within f member⟩,fun fs known => ?_⟩
  rw [kept.stop]
  exact running.final fs (final.symm.trans known)

theorem Emptied.peek {s : RecvStream} {r : ResetInfo} (emptied : s.Emptied r) : s.peek = [] := by
  unfold RecvStream.peek
  rw [emptied.ranges]

theorem advance_reset {s : RecvStream} {r : ResetInfo} (reset : s.reset = some r) : s.maybeAdvanceState = s := by
  unfold maybeAdvanceState
  rw [reset]
  rfl

theorem Sound.consume {s : RecvStream} (sound : s.Sound) {take : Nat} (within : take ≤ s.peek.length) :
    ∃ t, s.consume take = some t ∧ t.Sound ∧ Kept s t ∧ t.doneWith = s.doneWith+take := by
  unfold Sound at sound
  split at sound
  · rename_i open'
    obtain ⟨accepted,delivered,coherent,_⟩ := sound.assembled
    obtain ⟨t,ok⟩ := Option.isSome_iff_exists.mp (RecvRun.consume_isSome coherent within)
    obtain ⟨kept,read,_⟩ := consume_kept ok
    refine ⟨t,ok,(sound.consume ok).sound,kept,?_⟩
    unfold doneWith
    rw [kept.reset,open']
    exact read
  · rename_i r reset
    rw [sound.peek] at within
    obtain rfl : take = 0 := Nat.le_zero.mp within
    refine ⟨s,?_,sound.sound reset,⟨rfl,rfl,le_rfl⟩,rfl⟩
    unfold RecvStream.consume
    rw [if_pos rfl,advance_reset reset]

theorem Sound.read {s : RecvStream} (sound : s.Sound) (dstLen : Nat) :
    ∃ bytes t, s.read dstLen = some (bytes,t) ∧ t.Sound ∧ Kept s t ∧ t.doneWith = s.doneWith+bytes.length := by
  unfold RecvStream.read
  dsimp only
  split
  · obtain ⟨t,ok,sound',kept,done⟩ := sound.consume (Nat.zero_le _)
    have same : t = s.maybeAdvanceState := by
      unfold RecvStream.consume at ok
      rw [if_pos rfl] at ok
      exact (Option.some.inj ok).symm
    exact ⟨[],s.maybeAdvanceState,rfl,same ▸ sound',same ▸ kept,same ▸ done⟩
  · obtain ⟨t,ok,sound',kept,done⟩ := sound.consume (min_le_right dstLen s.peek.length)
    refine ⟨_,t,by rw [ok]; rfl,sound',kept,?_⟩
    rw [done,List.length_take]
    omega

theorem compactPrefix_fields (s : RecvStream) : ∃ bytes, s.compactPrefix = {s with bytes := bytes,bufStart := 0} ∧
    (s.bufStart ≤ s.bytes.length → bytes.length = s.bytes.length-s.bufStart) := by
  unfold compactPrefix
  split
  · rename_i zero
    refine ⟨s.bytes,?_,fun _ => by rw [zero,Nat.sub_zero]⟩
    rw [← zero]
  · refine ⟨_,rfl,fun start => ?_⟩
    split
    · rw [List.length_nil]
      omega
    · exact List.length_drop

theorem Sound.compactPrefix {s : RecvStream} (sound : s.Sound) :
    s.compactPrefix.Sound ∧ Kept s s.compactPrefix ∧ s.compactPrefix.doneWith = s.doneWith ∧
      s.compactPrefix.bytes.length = s.bytes.length-s.bufStart := by
  obtain ⟨bytes,compacted,length⟩ := compactPrefix_fields s
  have length' := length sound.start
  have kept : Kept s s.compactPrefix := by
    rw [compacted]
    exact ⟨rfl,rfl,length'.trans_le (Nat.sub_le _ _)⟩
  refine ⟨?_,kept,by rw [compacted]; rfl,by rw [compacted]; exact length'⟩
  unfold Sound at sound
  split at sound
  · rename_i open'
    obtain ⟨accepted,delivered,coherent,within⟩ := sound.assembled
    have coherent' := RecvRun.compactPrefix_spec coherent
    refine Running.sound ⟨⟨accepted,delivered,coherent',fun f member => kept.stop.symm ▸ within f member⟩,fun fs known => ?_⟩
    rw [kept.stop]
    exact sound.final fs (by rw [compacted] at known; exact known)
  · rename_i r reset
    have same : s.compactPrefix = s := by
      unfold RecvStream.compactPrefix
      rw [if_pos sound.start]
    rw [same]
    exact sound.sound reset

/-- The first reset empties the buffer, and all up to the final size is done with; another one changes nothing. -/
theorem Sound.resetStream {s t : RecvStream} (sound : s.Sound) {errorCode finalSize : Nat}
    (ok : s.resetStream errorCode finalSize = (.ok (),t)) : t.Sound ∧ t.bytes.length ≤ s.bytes.length ∧
      t.readOffset = s.readOffset ∧
      match s.reset with
      | none => s.endOffset ≤ finalSize ∧ t.highWater = finalSize ∧ t.doneWith = finalSize
      | some _ => t = s := by
  unfold Sound at sound
  unfold RecvStream.resetStream at ok
  split at sound
  · rename_i open'
    rw [open'] at ok
    simp only [Option.isSome_none,Bool.false_eq_true,ite_false] at ok
    split_ifs at ok with changed above
    · cases ok
    · cases ok
    · cases ok
      have start := sound.start
      have read := sound.read_le
      refine ⟨Emptied.sound ⟨rfl,?_,rfl,?_,?_⟩ rfl,Nat.zero_le _,rfl,by omega,rfl,rfl⟩
      · unfold RecvStream.compact
        dsimp only
        split <;> omega
      · change s.readOffset ≤ finalSize
        omega
      · change s.endOffset ≤ finalSize
        omega
  · rename_i r reset
    rw [reset] at ok
    cases ok
    exact ⟨sound.sound reset,le_rfl,rfl,rfl⟩

end RecvStream
end QuicZig.Conn
