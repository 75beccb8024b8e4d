import QuicZig.Conn.Deadline
import QuicZig.Library.MinHeap
import QuicZig.Library.System

/-! The ready list and the timer heap of the server: a loop that uses them touches only the
slots that have work. -/
namespace QuicZig.Server
open Conn MinHeap

/-- The pointer of a slot. -/
abbrev Key := Nat

def maxU64 : Nat := 2^64-1

structure TimerEntry where
  deadline : TimerDeadline
  slot : Key
  generation : Nat
  deriving DecidableEq, Repr

def TimerEntry.atUs (e : TimerEntry) : Nat := e.deadline.atUs

structure Slot where
  key : Key
  /-- It is in the ready list. -/
  ready : Bool := false
  timerGeneration : Nat := 0
  /-- The deadline of the entry that is current. -/
  timerAtUs : Option Nat := none
  deriving DecidableEq, Repr

structure Timers where
  slots : Array Slot := #[]
  ready : Array Key := #[]
  readyTaken : Array Key := #[]
  timers : Array TimerEntry := #[]
  readyDegraded : Bool := false
  timersDegraded : Bool := false
  /-- The slots that were woken since the last `takeReady`. -/
  touched : List Key := []
  deriving DecidableEq, Repr

/-- What a slot's connection does when it is ticked and asked for its deadline, and the appends that succeed there. -/
structure Reaction where
  /-- `closeState() == .closed` -/
  closed : Bool := false
  /-- Each touch of the tick, with the outcome of its append. -/
  touches : List Bool := []
  /-- The tick returns an error. -/
  fails : Bool := false
  wakeGranted : Bool := true
  deadline : Option TimerDeadline := none
  armGranted : Bool := true
  deriving DecidableEq, Repr

/-- A slot whose entry came up, and if its connection was ticked. -/
structure Visit where
  key : Key
  ticked : Bool
  deriving DecidableEq, Repr

structure Ticked where
  after : Timers
  /-- No tick returned an error. -/
  succeeded : Bool
  visits : List Visit
  deriving DecidableEq, Repr

namespace Timers

def slot? (s : Timers) (key : Key) : Option Slot := s.slots.find? (·.key == key)

def modify (s : Timers) (key : Key) (f : Slot → Slot) : Timers :=
  {s with slots := s.slots.map fun slot => if slot.key = key then f slot else slot}

/-- `ready.append` succeeds when it is granted. -/
def wakeSlot (s : Timers) (key : Key) (granted : Bool) : Timers :=
  match s.slot? key with
  | none => s
  | some slot =>
    let s := {s with touched := key::s.touched}
    if slot.ready then s
    else if granted then {s.modify key fun slot => {slot with ready := true} with ready := s.ready.push key}
    else {s with readyDegraded := true}

def touch (s : Timers) (key : Key) (touches : List Bool) : Timers := touches.foldl (fun s granted => s.wakeSlot key granted) s

def takeReady (s : Timers) : Timers × Array Key :=
  if s.readyDegraded then
    ({s with
      readyDegraded := false
      slots := s.slots.map fun slot => if slot.key ∈ s.ready then {slot with ready := false} else slot
      ready := #[]
      touched := []},s.slots.map Slot.key)
  else
    ({s with
      ready := #[]
      readyTaken := s.ready
      slots := s.slots.map fun slot => if slot.key ∈ s.ready then {slot with ready := false} else slot
      touched := []},s.ready)

def nextGeneration (generation : Nat) : Nat := (generation+1)%2^32

/-- The connection reported `maybe`; the heap's append succeeds when it is granted. -/
def armTimerAfter (s : Timers) (key : Key) (maybe : Option TimerDeadline) (floorUs : Nat) (granted : Bool) : Timers :=
  match s.slot? key with
  | none => s
  | some slot =>
    match maybe with
    | none =>
      s.modify key fun slot =>
        {slot with
          timerGeneration := if slot.timerAtUs.isSome then nextGeneration slot.timerGeneration else slot.timerGeneration
          timerAtUs := none}
    | some reported =>
      let deadline := {reported with atUs := max reported.atUs floorUs}
      if slot.timerAtUs = some deadline.atUs then s
      else if granted then
        {s.modify key fun slot =>
            {slot with timerGeneration := nextGeneration slot.timerGeneration,timerAtUs := some deadline.atUs} with
          timers := push TimerEntry.atUs s.timers ⟨deadline,key,nextGeneration slot.timerGeneration⟩}
      else
        {s.modify key fun slot => {slot with timerGeneration := nextGeneration slot.timerGeneration,timerAtUs := none} with
          timersDegraded := true}

def armTimer (s : Timers) (key : Key) (maybe : Option TimerDeadline) (granted : Bool) : Timers := s.armTimerAfter key maybe 0 granted

def slotDrained (s : Timers) (key : Key) (maybe : Option TimerDeadline) (granted : Bool) : Timers := s.armTimer key maybe granted

def openSlot (s : Timers) (key : Key) (wakeGranted : Bool) (maybe : Option TimerDeadline) (armGranted : Bool) : Timers :=
  (({s with slots := s.slots.push {key := key}}).wakeSlot key wakeGranted).armTimer key maybe armGranted

/-- The sweep over the slots from one on; it stops at the first error. -/
def tickFrom (react : Key → Reaction) (s : Timers) : List Key → Timers × Bool
  | [] => (s,true)
  | key::rest =>
    if (react key).closed then tickFrom react s rest
    else if (react key).fails then (s.touch key (react key).touches,false)
    else tickFrom react (s.touch key (react key).touches) rest

def keys (s : Timers) : List Key := s.slots.toList.map Slot.key

def tick (s : Timers) (react : Key → Reaction) : Timers × Bool := s.tickFrom react s.keys

/-- The loop over the entries that are due. -/
def tickEntries (react : Key → Reaction) (nowUs : Nat) : Nat → Timers → List Visit → Ticked
  | 0,s,visits => ⟨s,true,visits⟩
  | fuel+1,s,visits =>
    match s.timers[0]? with
    | none => ⟨s,true,visits⟩
    | some top =>
      if nowUs < top.atUs then ⟨s,true,visits⟩
      else
        let s := {s with timers := pop TimerEntry.atUs s.timers}
        match s.slot? top.slot with
        | none => tickEntries react nowUs fuel s visits
        | some slot =>
          if top.generation ≠ slot.timerGeneration then tickEntries react nowUs fuel s visits
          else
            let r := react slot.key
            let s := if r.closed then s else s.touch slot.key r.touches
            let visits := ⟨slot.key,!r.closed⟩::visits
            if !r.closed && r.fails then ⟨s,false,visits⟩
            else
              let s := (s.wakeSlot slot.key r.wakeGranted).armTimerAfter slot.key r.deadline (min (nowUs+1) maxU64) r.armGranted
              if nowUs = maxU64 then ⟨s,true,visits⟩ else tickEntries react nowUs fuel s visits

def armAll (react : Key → Reaction) (s : Timers) (keys : List Key) : Timers :=
  keys.foldl (fun s key => s.armTimer key (react key).deadline (react key).armGranted) s

def tickDue (s : Timers) (react : Key → Reaction) (nowUs : Nat) : Ticked :=
  if s.timersDegraded then
    match s.tick react with
    | (s,false) => ⟨s,false,[]⟩
    | (s,true) =>
      ⟨armAll react {s with timers := #[],timersDegraded := false,readyDegraded := true} s.keys,true,
        s.keys.map fun key => ⟨key,!(react key).closed⟩⟩
  else tickEntries react nowUs s.timers.size s []

def nextTimerDeadline (s : Timers) (reported : Key → Option TimerDeadline) : Option TimerDeadline :=
  s.keys.foldl (fun best key => (reported key).elim best (considerDeadline best)) none

/-- Stale entries are taken off the top. -/
def nextEntry : Nat → Timers → Timers × Option TimerDeadline
  | 0,s => (s,none)
  | fuel+1,s =>
    match s.timers[0]? with
    | none => (s,none)
    | some top =>
      if (s.slot? top.slot).any (·.timerGeneration == top.generation) then (s,some top.deadline)
      else nextEntry fuel {s with timers := pop TimerEntry.atUs s.timers}

def nextDeadline (s : Timers) (reported : Key → Option TimerDeadline) : Timers × Option TimerDeadline :=
  if s.timersDegraded then (s,s.nextTimerDeadline reported) else nextEntry s.timers.size s

/-- A slot leaves: its entries go out of the heap and the ready lists. -/
def forgetSlot (s : Timers) (key : Key) : Timers :=
  let timers := purge (fun e => e.slot == key) s.timers.size s.timers 0
  {s.modify key fun slot => {slot with timerAtUs := none,ready := false} with
    timers := if timers.size ≠ s.timers.size ∧ 1 < timers.size then heapify TimerEntry.atUs timers (timers.size/2) else timers
    ready := purge (· == key) s.ready.size s.ready 0
    readyTaken := purge (· == key) s.readyTaken.size s.readyTaken 0
    touched := s.touched.filter (· != key)}

/-- From the last slot to the first; `willClose` gives the touches of the callback for a slot. -/
def reapFrom (closed : Key → Bool) (willClose : Key → List (Key × Bool)) : Nat → Timers → Timers
  | 0,s => s
  | i+1,s =>
    match s.slots[i]? with
    | none => reapFrom closed willClose i s
    | some slot =>
      if closed slot.key then
        let s := (willClose slot.key).foldl (fun s (key,granted) => s.wakeSlot key granted) s
        let s := s.forgetSlot slot.key
        reapFrom closed willClose i {s with slots := swapRemove s.slots i}
      else reapFrom closed willClose i s

def reap (s : Timers) (closed : Key → Bool) (willClose : Key → List (Key × Bool)) : Timers :=
  s.reapFrom closed willClose s.slots.size

/-- The slot that was opened last is taken down. -/
def discardStillbornSlot (s : Timers) : Timers :=
  match s.slots.back? with
  | none => s
  | some slot =>
    let s := s.forgetSlot slot.key
    {s with slots := s.slots.pop}

end Timers

inductive Event where
  | openSlot (key : Key) (wakeGranted : Bool) (deadline : Option TimerDeadline) (armGranted : Bool)
  | wakeSlot (key : Key) (granted : Bool)
  | takeReady
  | slotDrained (key : Key) (deadline : Option TimerDeadline) (granted : Bool)
  | tick (react : Key → Reaction)
  | tickDue (react : Key → Reaction) (nowUs : Nat)
  | nextDeadline (reported : Key → Option TimerDeadline)
  | reap (closed : Key → Bool) (willClose : Key → List (Key × Bool))
  | discardStillbornSlot

def step (s : Timers) : Event → Timers
  | .openSlot key wakeGranted deadline armGranted => s.openSlot key wakeGranted deadline armGranted
  | .wakeSlot key granted => s.wakeSlot key granted
  | .takeReady => s.takeReady.1
  | .slotDrained key deadline granted => s.slotDrained key deadline granted
  | .tick react => (s.tick react).1
  | .tickDue react nowUs => (s.tickDue react nowUs).after
  | .nextDeadline reported => (s.nextDeadline reported).1
  | .reap closed willClose => s.reap closed willClose
  | .discardStillbornSlot => s.discardStillbornSlot

end QuicZig.Server
