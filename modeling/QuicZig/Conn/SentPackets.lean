import Mathlib.Tactic
import QuicZig.Library.Search
import QuicZig.Library.Sweep

/-! The packets that were sent and not settled, of one packet number space: an array in
packet-number order, in which a removed packet stays as a tombstone until the next sweep.
`none` is a failed assertion or an integer that goes below zero. -/
namespace QuicZig.Conn.SentPackets

structure SentDatagram where
  id : Nat
  len : Nat
  pathId : Nat := 0
  deriving DecidableEq, Repr

structure StreamRef where
  streamId : Nat
  streamKey : Nat
  deriving DecidableEq, Repr

def StreamRef.empty : StreamRef := ⟨2^64-1,0⟩

/-- `Frame` is what a lost packet queues again. -/
structure SentPacket (Frame : Type) where
  pn : Nat
  sentTimeUs : Nat
  bytes : Nat
  delivered : Nat := 0
  deliveredTimeUs : Nat := 0
  firstSentTimeUs : Nat := 0
  txInFlight : Nat := 0
  lostAtSend : Nat := 0
  ackEliciting : Bool
  inFlight : Bool
  retransmitFrames : List Frame := []
  datagram : Option SentDatagram := none
  streamRef : StreamRef := .empty
  extraStreamRefs : List StreamRef := []
  isEarlyData : Bool := false
  keyEpoch : Option Nat := none
  keyPhase : Option Bool := none
  isAppLimited : Bool := false
  dead : Bool := false
  probeRequeued : Bool := false
  deriving DecidableEq, Repr

def SentPacket.alive {Frame : Type} (p : SentPacket Frame) : Bool := !p.dead

def SentPacket.lengthen {Frame : Type} (p : SentPacket Frame) (extra : Nat) : SentPacket Frame := {p with bytes := p.bytes+extra}

inductive Error where
  | tooManyInFlight | outOfMemory
  deriving DecidableEq, Repr

def initialSlots : Nat := 16

def shrinkAbove : Nat := initialSlots*4

/-- `packets` is the whole storage; the slots from `count` on hold anything. -/
structure SentPacketTracker (Frame : Type) where
  packets : List (SentPacket Frame)
  maxCapacity : Nat := 0
  count : Nat := 0
  deadCount : Nat := 0
  bytesInFlight : Nat := 0
  ackElicitingInFlight : Nat := 0
  deriving DecidableEq, Repr

/-- What a slot holds that was never written. -/
def undefined {Frame : Type} : SentPacket Frame :=
  {pn := 0,sentTimeUs := 0,bytes := 0,ackEliciting := false,inFlight := false}

/-- The dead slot that keeps the place of a removed packet. -/
def tombstone {Frame : Type} (pn : Nat) : SentPacket Frame :=
  {pn := pn,sentTimeUs := 0,bytes := 0,ackEliciting := false,inFlight := false,dead := true}

def checkedSub (a b : Nat) : Option Nat := if b ≤ a then some (a-b) else none

namespace SentPacketTracker
variable {Frame : Type}

def capacity (t : SentPacketTracker Frame) : Nat := if t.maxCapacity = 0 then t.packets.length else t.maxCapacity

def compactThreshold (t : SentPacketTracker Frame) : Nat := t.packets.length/4

def liveCount (t : SentPacketTracker Frame) : Nat := t.count-t.deadCount

def isFull (t : SentPacketTracker Frame) : Bool := t.liveCount ≥ t.capacity

/-- `realloc` moves the slots to a storage of another size. -/
def realloc (t : SentPacketTracker Frame) (size : Nat) : SentPacketTracker Frame :=
  {t with packets := t.packets.take size ++ List.replicate (size-t.packets.length) undefined}

def init (cap : Nat) : SentPacketTracker Frame :=
  {packets := List.replicate (min cap initialSlots) undefined,maxCapacity := cap}

def resetRetainingCapacity (t : SentPacketTracker Frame) : SentPacketTracker Frame :=
  {t with
    count := 0
    deadCount := 0
    bytesInFlight := 0
    ackElicitingInFlight := 0}

def clear (t : SentPacketTracker Frame) : SentPacketTracker Frame := t.resetRetainingCapacity

def shrinkIdle (granted : Bool) (t : SentPacketTracker Frame) : SentPacketTracker Frame :=
  if t.maxCapacity = 0 then t
  else if t.liveCount ≠ 0 ∨ t.packets.length ≤ shrinkAbove then t
  else if granted then t.resetRetainingCapacity.realloc initialSlots else t.resetRetainingCapacity

def shrinkToMinimum (granted : Bool) (t : SentPacketTracker Frame) : Option (SentPacketTracker Frame) :=
  if t.liveCount ≠ 0 then none
  else if t.packets.length ≤ 4 then some t.resetRetainingCapacity
  else if granted then some (t.resetRetainingCapacity.realloc 4) else some t.resetRetainingCapacity

def grow (granted : Bool) (t : SentPacketTracker Frame) : Option (Except Error Unit × SentPacketTracker Frame) :=
  if t.packets.length < t.capacity then
    if granted then some (.ok (),t.realloc (min (t.packets.length*2) t.capacity)) else some (.error .outOfMemory,t)
  else none

def compact (t : SentPacketTracker Frame) : SentPacketTracker Frame :=
  if t.deadCount = 0 then t
  else
    let (packets,w) := Sweep.sweep SentPacket.alive t.packets t.count 0 0
    {t with
      packets := packets
      count := w
      deadCount := 0}

def prepareRecord (granted : Bool) (t : SentPacketTracker Frame) : Option (Except Error Unit × SentPacketTracker Frame) :=
  if t.isFull then some (.error .tooManyInFlight,t)
  else
    let t := if t.count ≥ t.packets.length ∨ t.deadCount ≥ t.compactThreshold then t.compact else t
    if t.count ≥ t.packets.length then t.grow granted else some (.ok (),t)

def addInFlight (t : SentPacketTracker Frame) (p : SentPacket Frame) : SentPacketTracker Frame :=
  if !p.inFlight then t
  else {t with
    bytesInFlight := t.bytesInFlight+p.bytes
    ackElicitingInFlight := if p.ackEliciting then t.ackElicitingInFlight+p.bytes else t.ackElicitingInFlight}

def subInFlight (t : SentPacketTracker Frame) (p : SentPacket Frame) : Option (SentPacketTracker Frame) :=
  if !p.inFlight then some t
  else do
    let bytesInFlight ← checkedSub t.bytesInFlight p.bytes
    let ackElicitingInFlight ← if p.ackEliciting then checkedSub t.ackElicitingInFlight p.bytes else some t.ackElicitingInFlight
    return {t with
      bytesInFlight := bytesInFlight
      ackElicitingInFlight := ackElicitingInFlight}

def setSlot (t : SentPacketTracker Frame) (idx : Nat) (p : SentPacket Frame) : SentPacketTracker Frame :=
  {t with packets := t.packets.set idx p}

def record (granted : Bool) (t : SentPacketTracker Frame) (p : SentPacket Frame) :
    Option (Except Error Unit × SentPacketTracker Frame) := do
  match ← t.prepareRecord granted with
  | (.error e,t) => return (.error e,t)
  | (.ok (),t) =>
    if t.count > 0 then
      let last ← t.packets[t.count-1]?
      if p.pn ≤ last.pn then none
    if t.count ≥ t.packets.length then none
    else return (.ok (),{t.setSlot t.count p with count := t.count+1}.addInFlight p)

def removeAt (t : SentPacketTracker Frame) (idx : Nat) : Option (SentPacket Frame × SentPacketTracker Frame) := do
  if idx ≥ t.count then none
  let p ← t.packets[idx]?
  if p.dead then none
  let t ← {t.setSlot idx (tombstone p.pn) with deadCount := t.deadCount+1}.subInFlight p
  return (p,t)

/-- `left` slots from `i` on are still to be walked. What the callback does to its packet stays in the slot only until
the tombstone is written over it. -/
def removeLoop {γ ε : Type} (onRemove : γ → SentPacket Frame → Except ε Unit × γ) :
    Nat → Nat → γ → SentPacketTracker Frame → Option (Except ε Unit × γ × SentPacketTracker Frame)
  | 0,_,context,t => some (.ok (),context,t)
  | left+1,i,context,t => do
    let packet ← t.packets[i]?
    if packet.dead then removeLoop onRemove left (i+1) context t
    else
      let t ← t.subInFlight packet
      let (result,context) := onRemove context packet
      let t := {t.setSlot i (tombstone packet.pn) with deadCount := t.deadCount+1}
      match result with
      | .error e => return (.error e,context,t)
      | .ok () => removeLoop onRemove left (i+1) context t

def removeRangeWithError {γ ε : Type} (onRemove : γ → SentPacket Frame → Except ε Unit × γ) (context : γ)
    (t : SentPacketTracker Frame) (start stop : Nat) : Option (Except ε Unit × γ × SentPacketTracker Frame) :=
  if start ≤ stop ∧ stop ≤ t.count then removeLoop onRemove (stop-start) start context t else none

/-- The number in a slot. -/
def pnAt (t : SentPacketTracker Frame) (i : Nat) : Nat := ((t.packets[i]?).map (·.pn)).getD 0

def indexOf (t : SentPacketTracker Frame) (pn : Nat) : Option Nat :=
  Search.find (fun i => compare (t.pnAt i) pn) t.count 0 t.count

def lowerBound (t : SentPacketTracker Frame) (pn : Nat) : Option Nat :=
  let lo := Search.lowerBound (fun i => decide (t.pnAt i < pn)) t.count 0 t.count
  if lo ≥ t.count then none else some lo

def growPacket (t : SentPacketTracker Frame) (pn extra : Nat) : Option (Bool × SentPacketTracker Frame) := do
  match t.indexOf pn with
  | none => return (false,t)
  | some idx =>
    let p ← t.packets[idx]?
    if p.dead then return (false,t)
    let t ← t.subInFlight p
    return (true,(t.setSlot idx (p.lengthen extra)).addInFlight (p.lengthen extra))

end SentPacketTracker
end QuicZig.Conn.SentPackets
