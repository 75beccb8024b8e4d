import QuicZig.Conn.RecvFinal
import QuicZig.Conn.RecvHalf

/-! What a refused frame leaves of a receive stream. `recv` is written here as it changes the
stream in place, each failure at its own point and each `errdefer` over what follows it. -/
namespace QuicZig.Conn.RecvRollback
open Machine RangeList RecvStream Spans

abbrev Outcome := Except Error Unit × RecvStream

/-- An `errdefer` over the rest of a function. -/
def errdefer (undo : RecvStream → RecvStream) : Outcome → Outcome
  | (.ok (),s) => (.ok (),s)
  | (.error e,s) => (.error e,undo s)

/-- The first `errdefer` of `recv`. -/
def restore (prev s : RecvStream) : RecvStream :=
  {s with finalSize := prev.finalSize,finSeen := prev.finSeen,state := prev.state,endOffset := prev.endOffset}

/-- The second one. -/
def shrink (prevLength : Nat) (s : RecvStream) : RecvStream := {s with bytes := s.bytes.take prevLength}

def insert (grants : Allocator) (s : RecvStream) (newEnd clipOffset : Nat) (clipData : List Byte) : Outcome :=
  let reserved := grants 1
  if reserved = false then (.error .outOfMemory,s) else
  let s := {s with endOffset := if newEnd > s.endOffset then newEnd else s.endOffset}
  let s := {s with
    bytes := fillGaps s.readOffset s.bufStart (s.ranges.dropWhile (·.stop ≤ clipOffset)) clipOffset clipData s.bytes}
  -- The payload is written by now: a refusal here could not be undone.
  match insertMerge (reserved || grants 2) s.ranges ⟨clipOffset,clipOffset+clipData.length⟩ with
  | (.error _,ranges) => (.error .outOfMemory,{s with ranges := ranges})
  | (.ok (),ranges) => (.ok (),{s with ranges := ranges}.maybeAdvanceState)

/-- `recv` from the limits of the buffer on. -/
def grow (grants : Allocator) (s : RecvStream) (newEnd clipOffset : Nat) (clipData : List Byte) : Outcome :=
  let clipEnd := clipOffset+clipData.length
  if clipEnd > maxU64 then (.error .bufferLimitExceeded,s) else
  let span := clipEnd-s.readOffset
  if span > s.maxBufferedSpan then (.error .bufferLimitExceeded,s) else
  let prevLength := s.bytes.length
  if s.liveBytes < span then
    if grants 0 = false then (.error .outOfMemory,s)
    else
      let growBy := (s.bufStart+span)-prevLength
      errdefer (shrink prevLength) (insert grants {s with bytes := s.bytes ++ List.replicate growBy 0} newEnd clipOffset clipData)
  else errdefer (shrink prevLength) (insert grants s newEnd clipOffset clipData)

/-- `recv` from the FIN bit on. -/
def take (grants : Allocator) (s : RecvStream) (offset : Nat) (data : List Byte) (newEnd : Nat) : Outcome :=
  let skip := s.readOffset-offset
  if offset < s.readOffset ∧ skip ≥ data.length then (.ok (),s.maybeAdvanceState)
  else
    let clipOffset := max offset s.readOffset
    let clipData := data.drop skip
    if clipData = [] then
      (.ok (),{s with endOffset := if newEnd > s.endOffset then newEnd else s.endOffset}.maybeAdvanceState)
    else grow grants s newEnd clipOffset clipData

/-- The FIN bit, the final size being set before the flag and the state. -/
def lock (s : RecvStream) (newEnd : Nat) (fin : Bool) : Outcome :=
  if !fin then (.ok (),s) else
  match s.finalSize with
  | some fs =>
    if fs ≠ newEnd then (.error .finalSizeChanged,s)
    else (.ok (),{s with finSeen := true,state := if s.state = .recv then .sizeKnown else s.state})
  | none =>
    if s.endOffset > newEnd then (.error .finalSizeChanged,s)
    else
      let s := {s with finalSize := some newEnd}
      (.ok (),{s with finSeen := true,state := if s.state = .recv then .sizeKnown else s.state})

def recv (grants : Allocator) (s : RecvStream) (offset : Nat) (data : List Byte) (fin : Bool) : Outcome :=
  if s.reset.isSome then (.ok (),s) else
  match checkedAdd offset data.length with
  | none => (.error .bufferLimitExceeded,s)
  | some newEnd =>
    if s.pastFinalSize newEnd then (.error .beyondFinalSize,s)
    else if s.state = .dataRecvd ∨ s.state = .dataRead then (.ok (),s)
    else errdefer (restore s) (match lock s newEnd fin with
      | (.error e,locked) => (.error e,locked)
      | (.ok (),locked) => take grants locked offset data newEnd)

/-! The two accounts of `recv` agree. -/

theorem errdefer_ok (undo : RecvStream → RecvStream) (s : RecvStream) : errdefer undo (.ok (),s) = (.ok (),s) := rfl

theorem errdefer_error (undo : RecvStream → RecvStream) (e : Error) (s : RecvStream) :
    errdefer undo (.error e,s) = (.error e,undo s) := rfl

theorem insertMerge_eq (list : List Range) (new : Range) :
    insertMerge true list new = (.ok (),(insertMerge true list new).2) :=
  Prod.ext (insertMerge_granted list new) rfl

/-- With the slot reserved the range list never asks for memory, so a refusal comes before any payload is written. -/
theorem insert_eq (grants : Allocator) (s : RecvStream) (newEnd clipOffset : Nat) (clipData : List Byte) :
    insert grants s newEnd clipOffset clipData = if grants 1 = false then (.error .outOfMemory,s) else
      (.ok (),{s with
        bytes := fillGaps s.readOffset s.bufStart (s.ranges.dropWhile (·.stop ≤ clipOffset)) clipOffset clipData s.bytes
        endOffset := if newEnd > s.endOffset then newEnd else s.endOffset
        ranges := (insertMerge true s.ranges ⟨clipOffset,clipOffset+clipData.length⟩).2}.maybeAdvanceState) := by
  unfold insert
  cases grants 1 with
  | false => rfl
  | true =>
    dsimp only
    rw [Bool.true_or,insertMerge_eq]

theorem shrink_grown (s : RecvStream) (cells : List Byte) : shrink s.bytes.length {s with bytes := s.bytes ++ cells} = s := by
  unfold shrink
  dsimp only
  rw [List.take_left]

theorem shrink_same (s : RecvStream) : shrink s.bytes.length s = s := by
  unfold shrink
  rw [List.take_length]

theorem grow_eq (grants : Allocator) (s : RecvStream) (newEnd clipOffset : Nat) {clipData : List Byte} (some : clipData ≠ [])
    (floor : s.readOffset ≤ clipOffset) :
    grow grants s newEnd clipOffset clipData = match s.buffer grants newEnd clipOffset clipData with
      | .error e => (.error e,s)
      | .ok filled => (.ok (),filled.maybeAdvanceState) := by
  have long : 0 < clipData.length := List.length_pos_iff.mpr some
  unfold grow buffer
  dsimp only
  split
  · rfl
  split
  · rfl
  by_cases short : s.liveBytes < clipOffset+clipData.length-s.readOffset
  · have asks : s.bufStart+(clipOffset+clipData.length-s.readOffset)-s.bytes.length > 0 := by
      unfold liveBytes at short
      omega
    rw [if_pos short,insert_eq]
    cases grants 0 with
    | false => simp [asks]
    | true =>
      cases grants 1 with
      | false => simp [errdefer_error,shrink_grown]
      | true => simp [errdefer_ok]
  · have enough : s.bufStart+(clipOffset+clipData.length-s.readOffset)-s.bytes.length = 0 := by
      unfold liveBytes at short
      omega
    rw [if_neg short,insert_eq,enough]
    cases grants 1 with
    | false => simp [errdefer_error,shrink_same]
    | true => simp [errdefer_ok]

theorem lock_eq (s : RecvStream) (newEnd : Nat) (fin : Bool) :
    lock s newEnd fin = match s.lockFinalSize newEnd fin with
      | .error e => (.error e,s)
      | .ok locked => (.ok (),locked) := by
  unfold lock lockFinalSize
  cases fin with
  | false => rfl
  | true =>
    cases s.finalSize with
    | none =>
      by_cases reached : s.endOffset > newEnd
      · simp [reached]
      · simp [reached]
    | some fs =>
      by_cases other : fs = newEnd
      · simp [other]
      · simp [other]

theorem restore_locked {s locked : RecvStream} {newEnd : Nat} {fin : Bool} (ok : s.lockFinalSize newEnd fin = .ok locked) :
    restore s locked = s := by
  obtain ⟨finalSize,finSeen,state,rfl,_⟩ := RecvRun.lockFinalSize_spec ok
  rfl

/-- Taken in place and undone where it fails, a frame does to a stream what the model of the receive half says. -/
theorem recv_eq (grants : Allocator) (s : RecvStream) (offset : Nat) (data : List Byte) (fin : Bool) :
    recv grants s offset data fin = s.recv grants offset data fin := by
  unfold recv RecvStream.recv
  split
  · rfl
  cases checkedAdd offset data.length with
  | none => rfl
  | some newEnd =>
  dsimp only
  split
  · rfl
  split
  · rfl
  rw [lock_eq]
  cases locking : s.lockFinalSize newEnd fin with
  | error e =>
    rfl
  | ok locked =>
  dsimp only
  unfold take
  dsimp only
  split
  · rfl
  split
  · rfl
  rename_i some
  rw [grow_eq grants locked newEnd _ some (le_max_right _ _)]
  cases locked.buffer grants newEnd (max offset locked.readOffset) (data.drop (locked.readOffset-offset)) with
  | error e =>
    change (_,restore s locked) = _
    rw [restore_locked locking]
  | ok filled => rfl

theorem recv_undone {grants : Allocator} {s : RecvStream} {offset : Nat} {data : List Byte} {fin : Bool} {e : Error}
    (refused : (recv grants s offset data fin).1 = .error e) : (recv grants s offset data fin).2 = s := by
  rw [recv_eq] at refused ⊢
  exact recv_error (Prod.ext refused rfl)

/-! The representation of the buffer. -/

/-- Sorted ranges apart from one another, between the read offset and the end offset, the final size above them
all, and live bytes for each. -/
structure Represented (s : RecvStream) : Prop where
  sorted : Sorted s.ranges
  read : s.readOffset ≤ s.endOffset
  inside : ∀ r ∈ s.ranges, s.readOffset ≤ r.offset ∧ r.stop ≤ s.endOffset
  final : ∀ fs, s.finalSize = some fs → s.endOffset ≤ fs
  start : s.bufStart ≤ s.bytes.length
  live : ∀ r ∈ s.ranges, r.stop ≤ s.readOffset+s.liveBytes

inductive Operation where
  | recv (grants : Allocator) (offset : Nat) (data : List Byte) (fin : Bool)
  | resetStream (errorCode finalSize : Nat)
  | read (dstLen : Nat)
  | consume (take : Nat)
  | compact
  | compactPrefix
  | markRead

/-- A failed assertion of `consume` leaves the stream. -/
def step (s : RecvStream) : Operation → RecvStream
  | .recv grants offset data fin => (recv grants s offset data fin).2
  | .resetStream errorCode finalSize => (s.resetStream errorCode finalSize).2
  | .read dstLen => (s.read dstLen).elim s Prod.snd
  | .consume take => (s.consume take).getD s
  | .compact => s.compact
  | .compactPrefix => s.compactPrefix
  | .markRead => s.markRead

theorem represented_init (maxBufferedSpan : Nat) : Represented (.init maxBufferedSpan) :=
  ⟨separated_nil,le_rfl,(fun _ absent => nomatch absent),(fun _ absent => nomatch absent),le_rfl,
    (fun _ absent => nomatch absent)⟩

section
variable {s : RecvStream}

theorem Represented.states (represented : Represented s) (state : State) : Represented {s with state := state} :=
  ⟨represented.sorted,represented.read,represented.inside,represented.final,represented.start,represented.live⟩

theorem Represented.advance (represented : Represented s) : Represented s.maybeAdvanceState := by
  obtain ⟨state,advanced⟩ := advance_fields s
  rw [advanced]
  exact represented.states state

/-- What the frame covers joins the ranges, and the buffer reaches to its end. -/
theorem Represented.buffer {filled : RecvStream} (represented : Represented s) {grants : Allocator} {offset newEnd : Nat}
    {data : List Byte} (floor : s.readOffset ≤ offset) (end' : offset+data.length ≤ newEnd)
    (final : ∀ fs, s.finalSize = some fs → newEnd ≤ fs) (ok : s.buffer grants newEnd offset data = .ok filled) :
    Represented filled := by
  unfold RecvStream.buffer at ok
  dsimp only at ok
  split at ok
  · cases ok
  split at ok
  · cases ok
  split at ok
  · cases ok
  split at ok
  · cases ok
  have start := represented.start
  have read := represented.read
  have length := length_fillGaps s.readOffset s.bufStart (s.ranges.dropWhile (·.stop ≤ offset)) offset data
    (s.bytes ++ List.replicate (s.bufStart+(offset+data.length-s.readOffset)-s.bytes.length) 0) floor
    (by rw [List.length_append,List.length_replicate]; omega)
  rw [List.length_append,List.length_replicate] at length
  obtain ⟨sorted,covers⟩ := insertMerge_spec true s.ranges ⟨offset,offset+data.length⟩ represented.sorted
    (insertMerge_granted _ _)
  have reach : (if newEnd > s.endOffset then newEnd else s.endOffset) = max s.endOffset newEnd := by
    split <;> omega
  have within : ∀ r ∈ (insertMerge true s.ranges ⟨offset,offset+data.length⟩).2,
      s.readOffset ≤ r.offset ∧ r.offset < r.stop ∧
        r.stop ≤ min (max s.endOffset newEnd) (s.readOffset+(max s.bytes.length
          (s.bufStart+(offset+data.length-s.readOffset))-s.bufStart)) := by
    refine within_of_covered _ sorted _ _ fun x covered => ?_
    rcases (covers x).mp covered with ⟨r,member,low,high⟩ | new
    · have inside := represented.inside r member
      have live := represented.live r member
      unfold liveBytes at live
      omega
    · dsimp only at new
      omega
  cases ok
  refine ⟨sorted,?_,fun r member => ?_,fun fs known => ?_,?_,fun r member => ?_⟩
  · dsimp only
    omega
  · obtain ⟨low,_,high⟩ := within r member
    dsimp only
    omega
  · dsimp only at known ⊢
    rw [reach]
    exact max_le (represented.final fs known) (final fs known)
  · dsimp only
    omega
  · obtain ⟨_,_,high⟩ := within r member
    unfold liveBytes
    dsimp only
    omega

theorem recv_represented (represented : Represented s) (grants : Allocator) (offset : Nat) (data : List Byte) (fin : Bool) :
    Represented (s.recv grants offset data fin).2 := by
  unfold RecvStream.recv
  split
  · exact represented
  cases sum : checkedAdd offset data.length with
  | none => exact represented
  | some newEnd =>
  obtain rfl := RecvRun.checkedAdd_some sum
  dsimp only
  split
  · exact represented
  rename_i within
  split
  · exact represented
  cases locking : s.lockFinalSize (offset+data.length) fin with
  | error e => exact represented
  | ok locked =>
  obtain ⟨⟨finalSize,finSeen,state,rfl⟩,bound⟩ := lock_final (by simpa using within) represented.final locking
  have ceiling : ∀ fs, finalSize = some fs → s.endOffset ≤ fs ∧ offset+data.length ≤ fs := by
    intro fs known
    have both := bound fs known
    omega
  have locked : Represented {s with finalSize := finalSize,finSeen := finSeen,state := state} :=
    ⟨represented.sorted,represented.read,represented.inside,fun fs known => (ceiling fs known).1,represented.start,
      represented.live⟩
  dsimp only
  split
  · exact locked.advance
  rename_i above
  split
  · refine Represented.advance ⟨locked.sorted,?_,fun r member => ?_,fun fs known => ?_,locked.start,locked.live⟩
    · have := locked.read
      dsimp only at this ⊢
      split <;> omega
    · have := locked.inside r member
      dsimp only at this ⊢
      split <;> omega
    · have := ceiling fs known
      dsimp only
      split <;> omega
  split
  · exact represented
  rename_i filled filling
  refine (locked.buffer (le_max_right _ _) ?_ (fun fs known => (ceiling fs known).2) filling).advance
  rw [List.length_drop]
  dsimp only at above ⊢
  omega

theorem Represented.compact (represented : Represented s) : Represented s.compact := by
  refine ⟨separated_nil,represented.read,(fun _ absent => nomatch absent),represented.final,?_,
    (fun _ absent => nomatch absent)⟩
  have start := represented.start
  unfold RecvStream.compact
  dsimp only
  split
  · exact le_rfl
  · rw [List.length_nil]
    omega

theorem Represented.released (represented : Represented s) :
    Represented (if s.state = .dataRecvd ∧ s.liveBytes = 0 then s.compact else s) := by
  split
  · exact represented.compact
  · exact represented

theorem resetStream_represented (represented : Represented s) (errorCode finalSize : Nat) :
    Represented (s.resetStream errorCode finalSize).2 := by
  cases running : s.reset.isSome with
  | true =>
    unfold RecvStream.resetStream
    rw [running]
    exact represented
  | false =>
    obtain ⟨_,refused⟩ | ⟨⟨_,fits⟩,taken⟩ := RecvFinal.resetStream_cases running errorCode finalSize
    · rw [refused]
      exact represented
    · rw [taken]
      refine Represented.compact ⟨represented.sorted,represented.read,represented.inside,fun fs known => ?_,represented.start,
        represented.live⟩
      cases known
      exact fits

theorem consume_represented (represented : Represented s) {take : Nat} {after : RecvStream} (done : s.consume take = some after) :
    Represented after := by
  unfold RecvStream.consume at done
  split at done
  · cases done
    exact represented.advance
  cases ranges : s.ranges with
  | nil => simp [ranges] at done
  | cons r rest =>
  rw [ranges] at done
  dsimp only at done
  split at done
  · cases done
  rename_i asserted
  have first : r.offset = s.readOffset ∧ take ≤ r.stop-r.offset := by
    simpa [not_or] using asserted
  have sorted := represented.sorted
  have here := represented.live r (by simp [ranges])
  have top := (represented.inside r (by simp [ranges])).2
  have start := represented.start
  rw [ranges] at sorted
  obtain ⟨proper,gap,tail⟩ := (separated_cons r rest).mp sorted
  unfold liveBytes at here
  obtain ⟨startSlid,liveSlid⟩ := RecvRun.slide_spec s.bytes (s.bufStart+take) (by omega)
  have length := congrArg List.length liveSlid
  rw [List.length_drop,List.length_drop] at length
  generalize slide s.bytes (s.bufStart+take) = slid at done startSlid length
  obtain ⟨bytes,bufStart⟩ := slid
  dsimp only at done startSlid length
  have left : ∀ q ∈ (if take = r.stop-r.offset then rest else {r with offset := r.offset+take}::rest),
      s.readOffset+take ≤ q.offset ∧ q.stop ≤ s.endOffset ∧ q.stop ≤ s.readOffset+take+(bytes.length-bufStart) := by
    have later : ∀ q ∈ rest, s.readOffset+take ≤ q.offset ∧ q.stop ≤ s.endOffset ∧
        q.stop ≤ s.readOffset+take+(bytes.length-bufStart) := by
      intro q member
      have apart := gap q member
      have inside := represented.inside q (by simp [ranges,member])
      have live := represented.live q (by simp [ranges,member])
      unfold liveBytes at live
      omega
    intro q member
    split at member
    · exact later q member
    · rcases List.mem_cons.mp member with rfl | old
      · dsimp only
        omega
      · exact later q old
  have sorted' : Sorted (if take = r.stop-r.offset then rest else {r with offset := r.offset+take}::rest) := by
    split
    · exact tail
    · exact (separated_cons _ _).mpr ⟨by dsimp only; omega,gap,tail⟩
  have moved : Represented {s with
      bytes := bytes,bufStart := bufStart,readOffset := s.readOffset+take
      ranges := (if take = r.stop-r.offset then rest else {r with offset := r.offset+take}::rest)} :=
    ⟨sorted',by dsimp only; omega,fun q member => ⟨(left q member).1,(left q member).2.1⟩,represented.final,startSlid,
      fun q member => (left q member).2.2⟩
  cases done
  exact moved.advance.released

theorem Represented.compactPrefix (represented : Represented s) : Represented s.compactPrefix := by
  obtain ⟨bytes,compacted,length⟩ := compactPrefix_fields s
  have length' := length represented.start
  rw [compacted]
  refine ⟨represented.sorted,represented.read,represented.inside,represented.final,Nat.zero_le _,fun r member => ?_⟩
  have live := represented.live r member
  unfold liveBytes at live ⊢
  dsimp only
  omega

theorem Represented.markRead (represented : Represented s) : Represented s.markRead := by
  unfold RecvStream.markRead
  split
  · exact represented.states _
  split
  · exact represented.states _
  · exact represented

theorem represented_step (represented : Represented s) (operation : Operation) : Represented (step s operation) := by
  cases operation with
  | recv grants offset data fin =>
    change Represented (recv grants s offset data fin).2
    rw [recv_eq]
    exact recv_represented represented grants offset data fin
  | resetStream errorCode finalSize => exact resetStream_represented represented errorCode finalSize
  | read dstLen =>
    change Represented ((s.read dstLen).elim s Prod.snd)
    unfold RecvStream.read
    dsimp only
    split
    · exact represented.advance
    · cases done : s.consume (min dstLen s.peek.length) with
      | none => exact represented
      | some after => exact consume_represented represented done
  | consume take =>
    change Represented ((s.consume take).getD s)
    cases done : s.consume take with
    | none => exact represented
    | some after => exact consume_represented represented done
  | compact => exact represented.compact
  | compactPrefix => exact represented.compactPrefix
  | markRead => exact represented.markRead

end

/-- A frame that is refused, at whichever point, leaves the stream exactly as it was; and the representation holds at
the start and through every operation. -/
theorem refused_frame_undone :
    (∀ (grants : Allocator) (s : RecvStream) (offset : Nat) (data : List Byte) (fin : Bool) (e : Error),
      (recv grants s offset data fin).1 = .error e → (recv grants s offset data fin).2 = s) ∧
    (∀ maxBufferedSpan, Represented (.init maxBufferedSpan)) ∧
    ∀ s, Represented s → ∀ operation, Represented (step s operation) :=
  ⟨fun _ _ _ _ _ _ => recv_undone,represented_init,fun _ represented operation => represented_step represented operation⟩

/-- Memory for the bytes, none for one more range. -/
def onlyBytes : Allocator := fun request => request ≠ 1

/-- A FIN with a gap before it, refused after the buffer has grown and the final size is set. -/
theorem refused_frame_undone_fin :
    (recv onlyBytes (.init 100) 2 [7,8] true).1 = .error .outOfMemory ∧ (recv onlyBytes (.init 100) 2 [7,8] true).2 = .init 100 ∧
      Represented (step (.init 100) (.recv onlyBytes 2 [7,8] true)) :=
  ⟨by decide,refused_frame_undone.1 onlyBytes (.init 100) 2 [7,8] true .outOfMemory (by decide),
    refused_frame_undone.2.2 (.init 100) (refused_frame_undone.2.1 100) (.recv onlyBytes 2 [7,8] true)⟩

end QuicZig.Conn.RecvRollback
