import QuicZig.Conn.InFlightMap
import QuicZig.Conn.RangeList
import QuicZig.Conn.SendByteBuffer

/-! The send half of a stream: the bytes the application wrote, the ranges still to
send, the chunks in flight and the acknowledged ranges above the floor. An
operation returns its result and the stream as it leaves it, also when it fails. -/
namespace QuicZig.Conn
open Machine RangeList

namespace SendStream

inductive Error where
  | streamClosed | invalidChunk | unknownPacket | outOfMemory
  deriving DecidableEq, Repr

inductive State where
  | ready | send | dataSent | dataRecvd | resetSent | resetRecvd
  deriving DecidableEq, Repr

structure ResetInfo where
  errorCode : Nat
  finalSize : Nat
  queued : Bool := false
  acked : Bool := false
  deriving DecidableEq, Repr

def defaultMaxBufferedSend : Nat := 1*1024*1024

end SendStream

open SendStream in
structure SendStream where
  bytes : SendByteBuffer := {}
  maxBuffered : Nat := defaultMaxBufferedSend
  baseOffset : Nat := 0
  writeOffset : Nat := 0
  pending : List Range := []
  inFlight : InFlightMap := {}
  ackedAbove : List Range := []
  finMarked : Bool := false
  finInFlight : Bool := false
  finAcked : Bool := false
  probeRequeuedPending : Bool := false
  finalSize : Option Nat := none
  reset : Option ResetInfo := none
  state : State := .ready
  deriving DecidableEq, Repr

namespace SendStream

abbrev Outcome (α : Type) := Except Error α × SendStream

def ofAlloc : Except AllocError Unit → Except Error Unit
  | .ok _ => .ok ()
  | .error .outOfMemory => .error .outOfMemory

def addPending (granted : Bool) (s : SendStream) (r : Range) : Outcome Unit :=
  let (result,pending) := insertMerge granted s.pending r
  (ofAlloc result,{s with pending := pending})

/-- The scrub loop of `addUnackedPending`. Request `n` is the one for the acknowledged range `n`. -/
def removeAcked (grants : Allocator) (low high : Nat) (pending : List Range) : Nat → List Range → RangeList.Outcome
  | _,[] => (.ok (),pending)
  | n,acked::rest =>
    if acked.stop ≤ low then removeAcked grants low high pending (n+1) rest
    else if acked.offset ≥ high then (.ok (),pending)
    else match removeRange (grants n) pending acked with
      | (.error e,pending) => (.error e,pending)
      | (.ok _,pending) => removeAcked grants low high pending (n+1) rest

def addUnackedPending (grants : Allocator) (s : SendStream) (r : Range) : Outcome Unit :=
  let start := max r.offset s.baseOffset
  if start ≥ r.stop then (.ok (),s) else
  match s.addPending (grants 0) ⟨start,r.stop⟩ with
  | (.error e,s) => (.error e,s)
  | (.ok _,s) =>
    let (result,pending) := removeAcked grants start r.stop s.pending 1 s.ackedAbove
    (ofAlloc result,{s with pending := pending})

def advanceFloor (s : SendStream) (newFloor : Nat) : SendStream :=
  let dropN := newFloor-s.baseOffset
  if dropN = 0 then s else {s with bytes := s.bytes.discardPrefix dropN,baseOffset := newFloor}

/-- The loop that folds acknowledged ranges into the floor. -/
def absorb (s : SendStream) : List Range → SendStream
  | [] => {s with ackedAbove := []}
  | first::rest =>
    if first.offset ≤ s.baseOffset then
      absorb (if first.stop > s.baseOffset then s.advanceFloor first.stop else s) rest
    else {s with ackedAbove := first::rest}

/-- The part of `markAcked` that records the range as acknowledged. -/
def recordAcked (granted : Bool) (s : SendStream) (r : Range) : Outcome Unit :=
  let start := max r.offset s.baseOffset
  if start ≥ r.stop then (.ok (),s)
  else if start > s.baseOffset then
    let (result,ackedAbove) := insertMerge granted s.ackedAbove ⟨start,r.stop⟩
    (ofAlloc result,{s with ackedAbove := ackedAbove})
  else (.ok (),(s.advanceFloor r.stop).absorb s.ackedAbove)

def markAcked (grants : Allocator) (s : SendStream) (r : Range) : Outcome Unit :=
  if s.probeRequeuedPending && !s.pending.isEmpty then
    match removeRange (grants 0) s.pending r with
    | (.error _,pending) => (.error .outOfMemory,{s with pending := pending})
    | (.ok _,pending) =>
      {s with pending := pending,probeRequeuedPending := !pending.isEmpty}.recordAcked (grants 1) r
  else s.recordAcked (grants 1) r

def maybeAdvanceState (s : SendStream) : SendStream :=
  if s.state = .resetSent then
    match s.reset with
    | some r => if r.acked then {s with state := .resetRecvd} else s
    | none => s
  else if s.finAcked && s.finMarked && (s.finalSize == some s.baseOffset) then {s with state := .dataRecvd}
  else s

/-- `init` with the queue cap of the connection. -/
def init (maxBuffered : Nat) : SendStream := {maxBuffered := maxBuffered}

def write (grants : Allocator) (s : SendStream) (data : List Byte) : Outcome Nat :=
  if s.finMarked || s.reset.isSome then (.error .streamClosed,s)
  else if data = [] then (.ok 0,s)
  else
    let headroom := s.maxBuffered-s.bytes.live
    let accept := min data.length headroom
    if accept = 0 then (.ok 0,s) else
    match s.bytes.ensureUnusedCapacity (grants 0) accept with
    | (.error _,bytes) => (.error .outOfMemory,{s with bytes := bytes})
    | (.ok _,bytes) =>
      let start := s.writeOffset
      match {s with bytes := bytes}.addPending (grants 1) ⟨start,start+accept⟩ with
      | (.error e,s) => (.error e,s)
      | (.ok _,s) =>
        -- The room is reserved, so the append makes no request.
        let bytes := (s.bytes.appendSlice false (data.take accept)).2
        (.ok accept,{s with
          bytes := bytes
          writeOffset := start+accept
          state := if s.state = .ready then .send else s.state})

def finish (s : SendStream) : Outcome Unit :=
  if s.reset.isSome then (.error .streamClosed,s)
  else if s.finMarked then (.ok (),s)
  else (.ok (),{s with
    finMarked := true
    finalSize := some s.writeOffset
    state := if s.state = .send ∨ s.state = .ready then .dataSent else s.state})

def resetStream (s : SendStream) (errorCode : Nat) : SendStream :=
  if s.reset.isSome then s
  else if s.state = .dataRecvd then s
  else {s with
    reset := some {errorCode := errorCode,finalSize := s.writeOffset}
    state := .resetSent
    pending := []
    probeRequeuedPending := false}

def isTerminal (s : SendStream) : Bool := s.state = .dataRecvd ∨ s.state = .resetRecvd

/-- The FIN still has to be sent, or sent again. -/
def finDue (s : SendStream) : Bool := s.finMarked && !s.finInFlight && !s.finAcked

def hasPendingChunk (s : SendStream) : Bool :=
  match s.reset with
  | some r => !r.queued && !r.acked
  | none => !s.pending.isEmpty || s.finDue

def peekChunk (s : SendStream) (maxBytes : Nat) : Option Chunk :=
  if s.reset.isSome then none else
  match s.pending with
  | [] => if s.finDue then some {offset := s.finalSize.getD 0,length := 0,fin := true} else none
  | r::_ =>
    let take := min maxBytes (r.stop-r.offset)
    some {offset := r.offset,length := take,fin := s.finDue && (s.finalSize == some (r.offset+take))}

/-- `none` is a trap: the offset subtraction underflows or an assertion fails. -/
def chunkBytesContiguous (s : SendStream) (c : Chunk) : Option (List Byte) :=
  if c.length = 0 then some []
  else if c.offset < s.baseOffset then none
  else
    let start := c.offset-s.baseOffset
    match s.bytes.slice start c.length with
    | none => none
    | some first =>
      if first.length = c.length then some first
      else match s.bytes.slice (start+first.length) (c.length-first.length) with
        | none => none
        | some rest => if rest.length = c.length-first.length then some (first ++ rest) else none

/-- The part of `recordSent` that takes the chunk out of `pending`. -/
def takePending (s : SendStream) (c : Chunk) : Outcome Unit :=
  if c.length > 0 then
    match s.pending with
    | [] => (.error .invalidChunk,s)
    | r::rest =>
      if c.offset ≠ r.offset then (.error .invalidChunk,s)
      else if c.offset+c.length > r.stop then (.error .invalidChunk,s)
      else if c.offset+c.length = r.stop then
        (.ok (),{s with
          pending := rest
          probeRequeuedPending := if rest.isEmpty then false else s.probeRequeuedPending})
      else (.ok (),{s with pending := {r with offset := c.offset+c.length}::rest})
  else if !c.fin then (.error .invalidChunk,s)
  else (.ok (),s)

/-- The part of `recordSent` that checks the FIN and stores the chunk. -/
def storeSent (s : SendStream) (pn : Nat) (c : Chunk) : Outcome Unit :=
  if c.fin then
    if s.finInFlight || s.finAcked then (.error .invalidChunk,s)
    else if s.finalSize ≠ some (c.offset+c.length) then (.error .invalidChunk,s)
    else (.ok (),{s with finInFlight := true,inFlight := s.inFlight.putAssumeCapacityNoClobber pn c})
  else (.ok (),{s with inFlight := s.inFlight.putAssumeCapacityNoClobber pn c})

def recordSent (granted : Bool) (s : SendStream) (pn : Nat) (c : Chunk) : Outcome Unit :=
  if s.inFlight.contains pn then (.error .invalidChunk,s) else
  match s.inFlight.ensureUnusedCapacity granted 1 with
  | (.error _,inFlight) => (.error .outOfMemory,{s with inFlight := inFlight})
  | (.ok _,inFlight) =>
    match {s with inFlight := inFlight}.takePending c with
    | (.error e,s) => (.error e,s)
    | (.ok _,s) => s.storeSent pn c

def onPacketAcked (grants : Allocator) (s : SendStream) (pn : Nat) : Outcome Unit :=
  match s.inFlight.fetchRemove pn with
  | none => (.error .unknownPacket,s)
  | some (c,inFlight) =>
    let s := {s with inFlight := inFlight,finAcked := s.finAcked || c.fin}
    if c.length > 0 then
      match s.markAcked grants ⟨c.offset,c.offset+c.length⟩ with
      | (.error e,s) => (.error e,s)
      | (.ok _,s) => (.ok (),s.maybeAdvanceState)
    else (.ok (),s.maybeAdvanceState)

/-- The requeue that a loss and a probe share; a bare FIN has no bytes to queue. -/
def requeue (grants : Allocator) (s : SendStream) (c : Chunk) : Outcome Unit :=
  if c.length > 0 then s.addUnackedPending grants ⟨c.offset,c.offset+c.length⟩ else (.ok (),s)

def onPacketProbeRequeued (grants : Allocator) (s : SendStream) (pn : Nat) : Outcome Bool :=
  match s.inFlight.getPtr pn with
  | none => (.error .unknownPacket,s)
  | some c =>
    if c.requeuedForProbe then (.ok false,s) else
    let requeued := {c with requeuedForProbe := true}
    if s.reset.isSome then (.ok false,{s with inFlight := s.inFlight.update pn requeued}) else
    match s.requeue grants c with
    | (.error e,s) => (.error e,s)
    | (.ok _,s) =>
      (.ok true,{s with
        finInFlight := if c.fin && !s.finAcked then false else s.finInFlight
        inFlight := s.inFlight.update pn requeued
        probeRequeuedPending := s.probeRequeuedPending || (decide (c.length > 0) && !s.pending.isEmpty)})

def onPacketLost (grants : Allocator) (s : SendStream) (pn : Nat) : Outcome Unit :=
  match s.inFlight.fetchRemove pn with
  | none => (.error .unknownPacket,s)
  | some (c,inFlight) =>
    let s := {s with inFlight := inFlight}
    if s.reset.isSome || c.requeuedForProbe then (.ok (),s) else
    match s.requeue grants c with
    | (.error e,s) => (.error e,s)
    | (.ok _,s) => (.ok (),{s with finInFlight := if c.fin && !s.finAcked then false else s.finInFlight})

def onResetAcked (s : SendStream) : SendStream :=
  match s.reset with
  | some r => {s with reset := some {r with queued := true,acked := true}}.maybeAdvanceState
  | none => s

def onResetLost (s : SendStream) : SendStream :=
  match s.reset with
  | some r => if r.acked then s else {s with reset := some {r with queued := false}}
  | none => s

end SendStream
end QuicZig.Conn
