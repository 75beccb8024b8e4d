import QuicZig.Conn.LocalCids
import QuicZig.Server.RetryGate

/-! How a server finds the connection of a datagram: a table of connection IDs that follows what each
connection has issued, at the points of `feed` and of a rotation where it is brought up to date. -/
namespace QuicZig.Server.Routing
open Machine Codec Wire RetryGate
open Conn.LocalIds (LocalCids ConnectionIdProvision)

def maxTrackedCidsPerSlot : Nat := 32

def minResetTriggerBytes : Nat := 22

structure Slot where
  key : Nat
  conn : LocalCids
  initialDcid : ConnId
  trackedCids : List ConnId := []
  cidsReplenished : Bool := false
  handshakeDone : Bool := false
  closed : Bool := false
  /-- The sequence numbers that the peer has sent in RETIRE_CONNECTION_ID frames. -/
  retired : List Nat := []

/-- The frames of a datagram, and the transport parameters of the peer, that concern local IDs. -/
inductive Frame where
  | retireConnectionId (sequenceNumber : Nat)
  | peerParams (activeConnectionIdLimit : Nat)
  deriving DecidableEq, Repr

/-- What a connection makes of a datagram. -/
structure Handled where
  frames : List Frame := []
  handshakeDone : Bool := false
  closes : Bool := false
  outOfMemory : Bool := false
  stillborn : Bool := false

/-- A datagram, with the outcome of what is decided elsewhere: whether the gates before the lookup let it through,
whether it may open a slot, whether a Stateless Reset can be sent, how many new entries the table can take. The IDs
are the ones that are minted for it; `scid` comes from the Retry when one was echoed. -/
structure Datagram where
  bytes : List Byte
  passes : Bool := true
  admitted : Bool := true
  resets : Bool := true
  scid : Option ConnId := none
  preferred : Option ConnId := none
  minted : List (Option ConnId) := []
  initialGrows : Bool := true
  grows : Nat := maxTrackedCidsPerSlot
  handled : Handled := {}

inductive FeedOutcome where
  | outOfMemory
  | dropped
  | routed
  | accepted
  | statelessResetSent
  deriving DecidableEq, Repr

/-- A stateless reset key is what it derives a token with. -/
structure Router where
  slots : List Slot := []
  cidTable : Finmap fun _ : ConnId => Nat := ∅
  nextSlotKey : Nat := 0
  localCidLen : Nat
  statelessResetKey : Option (ConnId → Option (Fixed 16)) := none
  autoReplenishConnectionIds : Bool := true
  maxAutoReplenishCids : Nat := 8
  lbFactory : Bool := false

def peekDcidForServer (bytes : List Byte) (localCidLen : Nat) : Option (List Byte) :=
  match bytes with
  | [] => none
  | first::rest =>
    if first &&& (0x80 : Byte) ≠ 0 then (peekLongHeaderIds bytes).map LongHeaderIds.dcid
    else if bytes.length < 1+localCidLen then none
    else some (rest.take localCidLen)

namespace Slot

def take (slot : Slot) : Frame → Slot
  | .retireConnectionId sequenceNumber => {slot with
      conn := slot.conn.handleRetireConnectionId sequenceNumber
      retired := sequenceNumber::slot.retired
    }
  | .peerParams limit => {slot with conn := {slot.conn with peerActiveConnectionIdLimit := some limit}}

def incoming (slot : Slot) (cid : Option Conn.Paths.IssuedCid) : Slot :=
  {slot with conn := {slot.conn with incomingRetireCidCount := 0,incomingLocalCid := cid}}

def dispatch (slot : Slot) (dcid : Option (List Byte)) (handled : Handled) : Slot :=
  let taken := handled.frames.foldl take (slot.incoming (dcid.bind slot.conn.findLocalCid))
  {taken with
    conn := {taken.conn with incomingLocalCid := none}
    handshakeDone := taken.handshakeDone || handled.handshakeDone
    closed := taken.closed || handled.closes
  }

/-- `localScids` into the buffer of the router. -/
def snapshot (slot : Slot) : List ConnId := (slot.conn.localCids.take maxTrackedCidsPerSlot).map (·.cid)

end Slot

abbrev Table := Finmap fun _ : ConnId => Nat

/-- The first half of `resyncSlotCids`; the tracked IDs that stay may change their order there. -/
def untrack (snapshot tracked : List ConnId) (table : Table) : Table :=
  (tracked.filter (· ∉ snapshot)).foldl (fun table cid => table.erase cid) table

/-- The second half: an ID that another slot routes is left to it. -/
def track (key : Nat) : List ConnId → Nat → List ConnId → Table → List ConnId × Table × Bool
  | [],_,tracked,table => (tracked,table,true)
  | cid::rest,grows,tracked,table =>
    if cid ∈ tracked then track key rest grows tracked table
    else
      match table.lookup cid with
      | some owner =>
        if owner = key then track key rest grows (tracked ++ [cid]) table else track key rest grows tracked table
      | none =>
        match grows with
        | 0 => (tracked,table,false)
        | grows+1 => track key rest grows (tracked ++ [cid]) (table.insert cid key)

/-- Whether the table had room for every ID. -/
def resyncSlotCids (grows : Nat) (table : Table) (slot : Slot) : Slot × Table × Bool :=
  let kept := slot.trackedCids.filter (· ∈ slot.snapshot)
  let (tracked,table,whole) := track slot.key slot.snapshot grows kept (untrack slot.snapshot slot.trackedCids table)
  ({slot with trackedCids := tracked},table,whole)

def removeCidIfOwnedBy (key : Nat) (table : Table) (cid : ConnId) : Table :=
  if table.lookup cid = some key then table.erase cid else table

def dropAllCidsFromTable (slot : Slot) (table : Table) : Table :=
  (slot.initialDcid::slot.trackedCids).foldl (removeCidIfOwnedBy slot.key) table

/-- The IDs for a top-up; it needs all of them. -/
def provisions (derive : ConnId → Option (Fixed 16)) : Nat → List (Option ConnId) → Option (List ConnectionIdProvision)
  | 0,_ => some []
  | budget+1,some cid::rest =>
    match derive cid,provisions derive budget rest with
    | some token,some later => some ({connectionId := cid.bytes,statelessResetToken := token}::later)
    | _,_ => none
  | _+1,_ => none

namespace Router

/-- At most eight IDs, as many as the connection may issue. -/
def topUpBudget (s : Router) (slot : Slot) : Nat :=
  min (min (slot.conn.localConnectionIdIssueBudget 0) s.maxAutoReplenishCids) 8

/-- The top-up is due: it has not been done, and the handshake is. -/
def topUpDue (s : Router) (slot : Slot) : Bool :=
  s.autoReplenishConnectionIds && !slot.cidsReplenished && s.statelessResetKey.isSome && slot.handshakeDone

def topUpProvisions (s : Router) (slot : Slot) (minted : List (Option ConnId)) : List ConnectionIdProvision :=
  match s.statelessResetKey with
  | none => []
  | some derive => (provisions derive (s.topUpBudget slot) minted).getD []

def maybeReplenishConnectionIds (s : Router) (slot : Slot) (minted : List (Option ConnId)) : Slot :=
  if s.topUpDue slot then {slot with
    cidsReplenished := true
    conn :=
      if s.topUpBudget slot = 0 then slot.conn
      else
        match s.topUpProvisions slot minted with
        | [] => slot.conn
        | given => (slot.conn.replenishConnectionIds given).2
  }
  else slot

def find (s : Router) (key : Nat) : Option Slot := s.slots.find? (·.key = key)

def commit (s : Router) (slot : Slot) (table : Table) : Router := {s with
  slots := s.slots.map fun other => if other.key = slot.key then slot else other
  cidTable := table
}

def findSlotForDatagram (s : Router) (bytes : List Byte) : Option Slot :=
  (peekDcidForServer bytes s.localCidLen).bind fun dcid => (s.cidTable.lookup (clamped dcid)).bind s.find

/-- The branch of `feedWithEcn` for a datagram of a known slot. -/
def feedRouted (s : Router) (slot : Slot) (d : Datagram) : Router × FeedOutcome :=
  let slot := slot.dispatch (peekDcidForServer d.bytes s.localCidLen) d.handled
  if d.handled.outOfMemory then (s.commit slot s.cidTable,.outOfMemory)
  else
    match resyncSlotCids d.grows s.cidTable slot with
    | (slot,table,false) => (s.commit slot table,.outOfMemory)
    | (slot,table,true) => (s.commit (s.maybeReplenishConnectionIds slot d.minted) table,.routed)

/-- The connection of a new slot: the ID of its handshake, and the one for the preferred address if there is one. -/
def openConn (s : Router) (scid : ConnId) (preferred : Option ConnId) : Option LocalCids :=
  match LocalCids.setLocalScid {} scid.bytes with
  | (.error _,_) => none
  | (.ok _,conn) =>
    match s.statelessResetKey,preferred with
    | some derive,some alt => (derive alt).map fun token =>
        (conn.replenishConnectionIds [{connectionId := alt.bytes,statelessResetToken := token}]).2
    | _,_ => some conn

def newSlot (s : Router) (conn : LocalCids) (initialDcid : ConnId) : Slot where
  key := s.nextSlotKey
  conn := conn
  initialDcid := initialDcid

/-- The branch for an Initial that opens a slot. -/
def feedOpening (s : Router) (d : Datagram) : Router × FeedOutcome :=
  match peekLongHeaderIds d.bytes,d.scid.bind fun scid => s.openConn scid d.preferred with
  | some ids,some conn =>
    if d.initialGrows then
      let slot := s.newSlot conn (clamped ids.dcid)
      let table := s.cidTable.insert slot.initialDcid slot.key
      let s := {s with nextSlotKey := s.nextSlotKey+1}
      let slot := slot.dispatch (some ids.dcid) d.handled
      if d.handled.outOfMemory then ({s with slots := s.slots ++ [slot],cidTable := table},.outOfMemory)
      else if d.handled.stillborn then ({s with cidTable := dropAllCidsFromTable slot table},.dropped)
      else
        match resyncSlotCids d.grows table slot with
        | (slot,table,false) => ({s with slots := s.slots ++ [slot],cidTable := table},.outOfMemory)
        | (slot,table,true) => ({s with
            slots := s.slots ++ [s.maybeReplenishConnectionIds slot d.minted]
            cidTable := table
          },.accepted)
    else (s,.outOfMemory)
  | _,_ => (s,.dropped)

def answerUnroutableShortHeader (s : Router) (d : Datagram) : FeedOutcome :=
  if d.bytes.length ≥ 1+s.localCidLen ∧ d.bytes.length ≥ minResetTriggerBytes ∧ s.statelessResetKey.isSome ∧ d.resets then
    .statelessResetSent
  else .dropped

def feed (s : Router) (d : Datagram) : Router × FeedOutcome :=
  match d.bytes with
  | [] => (s,.dropped)
  | first::_ =>
    if !d.passes then (s,.dropped)
    else
      match s.findSlotForDatagram d.bytes with
      | some slot => s.feedRouted slot d
      | none =>
        if first &&& (0x80 : Byte) = 0 then
          (s,if first &&& (0x40 : Byte) ≠ 0 then s.answerUnroutableShortHeader d else .dropped)
        else if d.admitted then s.feedOpening d
        else (s,.dropped)

/-- One slot of `rotateLiveSlotCids`, with the ID that the factory mints for it. -/
def rotateSlot (derive : ConnId → Option (Fixed 16)) (minted : Nat → Option ConnId) (grows : Nat → Nat) (s : Router)
    (key : Nat) : Router :=
  match s.find key,minted key with
  | some slot,some cid =>
    if slot.closed || slot.conn.localConnectionIdIssueBudget 0 = 0 then s
    else
      match derive cid with
      | none => s
      | some token =>
        match slot.conn.replenishConnectionIds [{
            connectionId := cid.bytes
            statelessResetToken := token
            retirePriorTo := slot.conn.nextLocalCidSequence 0
          }] with
        | (.error _,conn) => s.commit {slot with conn := conn} s.cidTable
        | (.ok _,conn) =>
          let (slot,table,_) := resyncSlotCids (grows key) s.cidTable {slot with conn := conn}
          s.commit slot table
  | _,_ => s

def rotateLiveSlotCids (minted : Nat → Option ConnId) (grows : Nat → Nat) (s : Router) : Router :=
  match s.lbFactory,s.statelessResetKey with
  | true,some derive => (s.slots.map Slot.key).foldl (rotateSlot derive minted grows) s
  | _,_ => s

/-- `reap`, one slot after the other from the back. -/
def reap (s : Router) : Router := {s with
  slots := s.slots.filter (!·.closed)
  cidTable := (s.slots.filter (·.closed)).foldr dropAllCidsFromTable s.cidTable
}

/-- A connection comes to the end of its closing or draining state. -/
def close (s : Router) (key : Nat) : Router :=
  {s with slots := s.slots.map fun slot => if slot.key = key then {slot with closed := true} else slot}

end Router

end QuicZig.Server.Routing
