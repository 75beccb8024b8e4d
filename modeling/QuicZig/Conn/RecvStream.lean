import QuicZig.Conn.RangeList
import QuicZig.Library.Ring

/-! The receive half of a stream: a contiguous buffer behind the read offset, the
ranges of it that have arrived, and the state that FIN and RESET_STREAM drive. -/
namespace QuicZig.Conn
open Machine RangeList

namespace RecvStream

inductive Error where
  | beyondFinalSize | finalSizeChanged | bufferLimitExceeded | outOfMemory
  deriving DecidableEq, Repr

def defaultMaxBufferedSpan : Nat := 16*1024*1024

inductive State where
  | recv | sizeKnown | dataRecvd | dataRead | resetRecvd | resetRead
  deriving DecidableEq, Repr

structure ResetInfo where
  errorCode : Nat
  finalSize : Nat
  deriving DecidableEq, Repr

end RecvStream

open RecvStream in
structure RecvStream where
  bytes : List Byte := []
  readOffset : Nat := 0
  bufStart : Nat := 0
  endOffset : Nat := 0
  ranges : List Range := []
  finalSize : Option Nat := none
  finSeen : Bool := false
  reset : Option ResetInfo := none
  maxBufferedSpan : Nat := defaultMaxBufferedSpan
  state : State := .recv
  deriving DecidableEq, Repr

namespace RecvStream

def init (maxBufferedSpan : Nat) : RecvStream := {maxBufferedSpan := maxBufferedSpan}

def bufferedBytes (s : RecvStream) : Nat := (s.ranges.map Range.len).sum

def readableBytes (s : RecvStream) : Nat :=
  match s.ranges with
  | [] => 0
  | r::_ => if r.offset ≠ s.readOffset then 0 else r.stop-r.offset

def liveBytes (s : RecvStream) : Nat := s.bytes.length-s.bufStart

def isClosed (s : RecvStream) : Bool := s.state = .dataRead ∨ s.state = .resetRead

def maybeAdvanceState (s : RecvStream) : RecvStream :=
  if s.reset.isSome then s
  else if !s.finSeen then s
  else if s.finalSize = some s.readOffset ∧ s.ranges = [] then
    if s.state ≠ .dataRead then {s with state := .dataRecvd} else s
  else
    match s.ranges with
    | [r] =>
      if r.offset = s.readOffset ∧ s.finalSize = some r.stop ∧ (s.state = .recv ∨ s.state = .sizeKnown) then
        {s with state := .sizeKnown}
      else s
    | _ => s

/-- The copy loop of `recv`, from the range at the current index on: bytes of `data` that lie in a gap
are written, bytes that a range already covers are skipped. In a sorted list every range ends above
`pos`; one that does not would keep the loop in place. -/
def fillGaps (readOffset bufStart : Nat) : List Range → Nat → List Byte → List Byte → List Byte
  | [],pos,data,bytes => Ring.store bytes ((pos-readOffset)+bufStart) data
  | r::rest,pos,data,bytes =>
    if data = [] then bytes else
    let segEnd := pos+data.length
    if r.offset < segEnd then
      let coveredStart := max r.offset pos
      let coveredEnd := min r.stop segEnd
      let bytes := Ring.store bytes ((pos-readOffset)+bufStart) (data.take (coveredStart-pos))
      if coveredEnd > coveredStart then
        fillGaps readOffset bufStart rest coveredEnd (data.drop (coveredEnd-pos)) bytes
      else bytes
    else Ring.store bytes ((pos-readOffset)+bufStart) data

/-- The part of `recv` that locks the final size. -/
def lockFinalSize (s : RecvStream) (newEnd : Nat) (fin : Bool) : Except Error RecvStream :=
  if !fin then .ok s else
  match s.finalSize with
  | some fs =>
    if fs ≠ newEnd then .error .finalSizeChanged
    else .ok {s with finSeen := true,state := if s.state = .recv then .sizeKnown else s.state}
  | none =>
    if s.endOffset > newEnd then .error .finalSizeChanged
    else .ok {s with finalSize := some newEnd,finSeen := true,state := if s.state = .recv then .sizeKnown else s.state}

/-- The part of `recv` that buffers the bytes at and above the read offset. -/
def buffer (grants : Allocator) (s : RecvStream) (newEnd clipOffset : Nat) (clipData : List Byte) :
    Except Error RecvStream :=
  let clipEnd := clipOffset+clipData.length
  if clipEnd > maxU64 then .error .bufferLimitExceeded else
  let span := clipEnd-s.readOffset
  if span > s.maxBufferedSpan then .error .bufferLimitExceeded else
  let growBy := (s.bufStart+span)-s.bytes.length
  if growBy > 0 ∧ grants 0 = false then .error .outOfMemory
  else if grants 1 = false then .error .outOfMemory
  else
    -- New cells below the frame are zeroed; those the frame covers are written next.
    let bytes := s.bytes ++ List.replicate growBy 0
    let bytes := fillGaps s.readOffset s.bufStart (s.ranges.dropWhile (·.stop ≤ clipOffset)) clipOffset clipData bytes
    .ok {s with
      bytes := bytes
      endOffset := if newEnd > s.endOffset then newEnd else s.endOffset
      ranges := (insertMerge true s.ranges ⟨clipOffset,clipEnd⟩).2}

def pastFinalSize (s : RecvStream) (newEnd : Nat) : Bool :=
  match s.finalSize with
  | some fs => decide (newEnd > fs)
  | none => false

/-- A STREAM frame. Every error leaves the stream as it was: the source restores what it had changed. -/
def recv (grants : Allocator) (s : RecvStream) (offset : Nat) (data : List Byte) (fin : Bool) :
    Except Error Unit × RecvStream :=
  if s.reset.isSome then (.ok (),s) else
  match checkedAdd offset data.length with
  | none => (.error .bufferLimitExceeded,s)
  | some newEnd =>
    if s.pastFinalSize newEnd then (.error .beyondFinalSize,s)
    else if s.state = .dataRecvd ∨ s.state = .dataRead then (.ok (),s)
    else match s.lockFinalSize newEnd fin with
      | .error e => (.error e,s)
      | .ok locked =>
        let skip := locked.readOffset-offset
        if offset < locked.readOffset ∧ skip ≥ data.length then (.ok (),locked.maybeAdvanceState)
        else
          let clipOffset := max offset locked.readOffset
          let clipData := data.drop skip
          if clipData = [] then
            (.ok (),{locked with
              endOffset := if newEnd > locked.endOffset then newEnd else locked.endOffset}.maybeAdvanceState)
          else match locked.buffer grants newEnd clipOffset clipData with
            | .error e => (.error e,s)
            | .ok filled => (.ok (),filled.maybeAdvanceState)

def peek (s : RecvStream) : List Byte :=
  match s.ranges with
  | [] => []
  | r::_ => if r.offset ≠ s.readOffset then [] else (s.bytes.drop s.bufStart).take (r.stop-r.offset)

def compact (s : RecvStream) : RecvStream :=
  {s with bytes := [],bufStart := if s.bytes.length > 0 then 0 else s.bufStart,ranges := []}

/-- The sliding window of `consume`: the consumed prefix goes once it reaches half the buffer. -/
def slide (bytes : List Byte) (bufStart : Nat) : List Byte × Nat :=
  if bufStart = bytes.length then ([],0)
  else if bufStart ≥ bytes.length/2 then (bytes.drop bufStart,0)
  else (bytes,bufStart)

/-- `none` is a failed assertion. -/
def consume (s : RecvStream) (take : Nat) : Option RecvStream :=
  if take = 0 then some s.maybeAdvanceState else
  match s.ranges with
  | [] => none
  | r::rest =>
    let avail := r.stop-r.offset
    if r.offset ≠ s.readOffset ∨ take > avail then none else
    let (bytes,bufStart) := slide s.bytes (s.bufStart+take)
    let ranges := if take = avail then rest else {r with offset := r.offset+take}::rest
    let s := {s with bytes := bytes,bufStart := bufStart,readOffset := s.readOffset+take,ranges := ranges}.maybeAdvanceState
    some (if s.state = .dataRecvd ∧ s.liveBytes = 0 then s.compact else s)

/-- The bytes copied out and the stream after it; `none` is a failed assertion of `consume`. -/
def read (s : RecvStream) (dstLen : Nat) : Option (List Byte × RecvStream) :=
  let src := s.peek
  if src.length = 0 then some ([],s.maybeAdvanceState)
  else
    let take := min dstLen src.length
    (s.consume take).map fun after => (src.take take,after)

def compactPrefix (s : RecvStream) : RecvStream :=
  if s.bufStart = 0 then s
  else {s with bytes := if s.bufStart ≥ s.bytes.length then [] else s.bytes.drop s.bufStart,bufStart := 0}

def resetStream (s : RecvStream) (errorCode finalSizeIn : Nat) : Except Error Unit × RecvStream :=
  if s.reset.isSome then (.ok (),s)
  else if s.finSeen = true ∧ (match s.finalSize with | some fs => decide (fs ≠ finalSizeIn) | none => false) = true then
    (.error .finalSizeChanged,s)
  else if s.endOffset > finalSizeIn then (.error .finalSizeChanged,s)
  else (.ok (),{s with
    reset := some {errorCode := errorCode,finalSize := finalSizeIn}
    finalSize := some finalSizeIn
    state := .resetRecvd}.compact)

def markRead (s : RecvStream) : RecvStream :=
  if s.state = .dataRecvd then {s with state := .dataRead}
  else if s.state = .resetRecvd then {s with state := .resetRead}
  else s

end RecvStream
end QuicZig.Conn
