import QuicZig.Conn.CryptoSend
import QuicZig.Wire.PacketNumber
import Mathlib.Logic.Function.Iterate

/-! The keys of the 1-RTT packets: one write epoch, up to three read epochs, and the updates
that either endpoint may start. -/
namespace QuicZig.Conn.Keys
open Machine
open Paths (ConnectionClose)

/-- The cryptography below this code. A secret stands for the packet keys that are expanded from it. -/
structure Crypto (Secret : Type) where
  deriveNextTrafficSecret : Secret → Secret
  /-- A packet sealed under the first secret opens under the second one. -/
  opens : Secret → Secret → Bool

/-- A secret is a number and the next secret is the next number. -/
def counting : Crypto Nat := ⟨(· + 1),(· == ·)⟩

variable {Secret : Type}

/-- `epoch` is a `u64` that counts one update a round trip; the model counts without its end. -/
structure ApplicationKeyEpoch (Secret : Type) where
  secret : Secret
  keyPhase : Bool := false
  epoch : Nat := 0
  installedAtUs : Nat := 0
  packetsProtected : Nat := 0
  discardDeadlineUs : Option Nat := none
  acked : Bool := false
  deriving DecidableEq, Repr

structure ApplicationKeyUpdateLimits where
  confidentialityLimit : Nat
  proactiveUpdateThreshold : Nat
  integrityLimit : Nat
  deriving DecidableEq, Repr

inductive ApplicationReadKeySlot where
  | current
  | previous
  | next
  deriving DecidableEq, Repr

inductive KeyError where
  | keyUpdateUnavailable
  | keyUpdateBlocked
  deriving DecidableEq, Repr

/-- A 1-RTT packet on the network, which carries the last `pnLen` bytes of its number. The receiver does not see
`sealedUnder` and `keyEpoch`: they say with which key the packet was made. -/
structure Packet (Secret : Type) where
  id : TrackedPacket
  pnLen : Nat
  keyPhase : Bool
  sealedUnder : Secret
  keyEpoch : Nat
  acks : List TrackedPacket
  deriving DecidableEq, Repr

/-- The number that the receiver reconstructs is the one that the packet was sealed with. -/
def Packet.recovered (packet : Packet Secret) (largestReceived : Nat) : Bool :=
  match Wire.PacketNumber.decode (Wire.PacketNumber.truncate packet.id.pn packet.pnLen) packet.pnLen largestReceived with
  | .ok (some fullPn) => fullPn = packet.id.pn
  | _ => false

/-- `keyEpoch` is missing for packets that no application key protects. -/
structure SentPacket where
  id : TrackedPacket
  keyEpoch : Option Nat
  keyPhase : Bool
  deriving DecidableEq, Repr

/-- `acknowledged` is the history of the packets that acknowledgements took out of `sent`; the code does not keep it. -/
structure Endpoint (Secret : Type) where
  appReadPrevious : Option (ApplicationKeyEpoch Secret) := none
  appReadCurrent : Option (ApplicationKeyEpoch Secret) := none
  appReadNext : Option (ApplicationKeyEpoch Secret) := none
  appWriteCurrent : Option (ApplicationKeyEpoch Secret) := none
  appWriteUpdatePendingAck : Bool := false
  appNextLocalUpdateAfterUs : Option Nat := none
  handshakeKeysDiscarded : Bool := false
  appFailedAuthPackets : Nat := 0
  limits : ApplicationKeyUpdateLimits
  pendingClose : Option ConnectionClose := none
  closingAttributionOnly : Bool := false
  nextPn : Nat → Nat := fun _ => 0
  largestAckedSent : Nat → Option Nat := fun _ => none
  received : List TrackedPacket := []
  sent : List SentPacket := []
  acknowledged : List SentPacket := []

def transportErrorAeadLimitReached : Nat := 0x0f

def nextApplicationKeyEpoch (crypto : Crypto Secret) (current : ApplicationKeyEpoch Secret) (installedAtUs : Nat) :
    ApplicationKeyEpoch Secret :=
  {secret := crypto.deriveNextTrafficSecret current.secret,keyPhase := !current.keyPhase,epoch := current.epoch+1,installedAtUs}

namespace Endpoint

def close (conn : Endpoint Secret) (errorCode : Nat) (reason : String) : Endpoint Secret :=
  {conn with pendingClose := conn.pendingClose <|> some ⟨true,errorCode,reason⟩}

/-- The epochs that `keyUpdateStatus` reports. -/
def readEpoch (conn : Endpoint Secret) : Nat := (conn.appReadCurrent.map (·.epoch)).getD 0

def writeEpoch (conn : Endpoint Secret) : Nat := (conn.appWriteCurrent.map (·.epoch)).getD 0

/-- `installApplicationSecret` for the direction `read`. -/
def installReadSecret (crypto : Crypto Secret) (conn : Endpoint Secret) (secret : Secret) : Endpoint Secret :=
  {conn with
    appReadPrevious := none
    appReadCurrent := some {secret}
    appReadNext := some (nextApplicationKeyEpoch crypto {secret} 0)
    appFailedAuthPackets := 0}

/-- `installApplicationSecret` for the direction `write`. -/
def installWriteSecret (conn : Endpoint Secret) (secret : Secret) : Endpoint Secret :=
  {conn with
    appWriteCurrent := some {secret}
    appWriteUpdatePendingAck := false
    appNextLocalUpdateAfterUs := none}

def refreshNextApplicationReadKey (crypto : Crypto Secret) (conn : Endpoint Secret) : Endpoint Secret :=
  match conn.appReadCurrent with
  | none => {conn with appReadNext := none}
  | some current => {conn with appReadNext := some (nextApplicationKeyEpoch crypto current current.installedAtUs)}

/-- `retention` is what `retiredPathRetentionUs` returns. -/
def promoteApplicationReadKeys (crypto : Crypto Secret) (conn : Endpoint Secret) (nowUs retention : Nat) :
    Except KeyError (Endpoint Secret) :=
  match conn.appReadCurrent with
  | none => .error .keyUpdateUnavailable
  | some current =>
    let previous := {current with discardDeadlineUs := some (saturatingAdd nowUs retention)}
    let promoted := conn.appReadNext.getD (nextApplicationKeyEpoch crypto current nowUs)
    let promoted := {promoted with installedAtUs := nowUs,discardDeadlineUs := none}
    .ok {conn with
      appReadPrevious := some previous
      appReadCurrent := some promoted
      appReadNext := some (nextApplicationKeyEpoch crypto promoted promoted.installedAtUs)}

def installNextApplicationWriteKeys (crypto : Crypto Secret) (conn : Endpoint Secret) (nowUs : Nat) (pendingAck : Bool) :
    Except KeyError (Endpoint Secret) :=
  match conn.appWriteCurrent with
  | none => .error .keyUpdateUnavailable
  | some current =>
    .ok {conn with
      appWriteCurrent := some (nextApplicationKeyEpoch crypto current nowUs)
      appWriteUpdatePendingAck := pendingAck}

def maybeRespondToPeerKeyUpdate (crypto : Crypto Secret) (conn : Endpoint Secret) (nowUs : Nat) :
    Except KeyError (Endpoint Secret) :=
  match conn.appReadCurrent,conn.appWriteCurrent with
  | some read,some write =>
    if write.keyPhase = read.keyPhase then .ok conn else conn.installNextApplicationWriteKeys crypto nowUs true
  | _,_ => .ok conn

def canInitiateKeyUpdateAt (conn : Endpoint Secret) (nowUs : Nat) : Bool :=
  if conn.appWriteCurrent.isNone then false
  else if !conn.handshakeKeysDiscarded then false
  else if conn.appWriteUpdatePendingAck then false
  else match conn.appNextLocalUpdateAfterUs with
    | some deadline => !decide (nowUs < deadline)
    | none => true

def requestKeyUpdate (crypto : Crypto Secret) (conn : Endpoint Secret) (nowUs : Nat) : Except KeyError (Endpoint Secret) :=
  if conn.canInitiateKeyUpdateAt nowUs then conn.installNextApplicationWriteKeys crypto nowUs true else .error .keyUpdateBlocked

def prepareApplicationWriteKeys (crypto : Crypto Secret) (conn : Endpoint Secret) (nowUs : Nat) :
    Except KeyError (Endpoint Secret) :=
  match conn.appWriteCurrent with
  | none => .ok conn
  | some current =>
    if current.packetsProtected ≥ conn.limits.proactiveUpdateThreshold ∧ conn.canInitiateKeyUpdateAt nowUs then
      conn.requestKeyUpdate crypto nowUs
    else if current.packetsProtected ≥ conn.limits.confidentialityLimit then
      .ok (conn.close transportErrorAeadLimitReached "AEAD confidentiality limit reached")
    else .ok conn

def onApplicationPacketAckedForKeys (conn : Endpoint Secret) (packet : SentPacket) (nowUs retention : Nat) : Endpoint Secret :=
  match packet.keyEpoch,conn.appWriteCurrent with
  | some epochId,some current =>
    if current.epoch = epochId then
      let conn := {conn with appWriteCurrent := some {current with acked := true}}
      if conn.appWriteUpdatePendingAck then
        {conn with
          appWriteUpdatePendingAck := false
          appNextLocalUpdateAfterUs := some (saturatingAdd nowUs retention)}
      else conn
    else conn
  | _,_ => conn

def noteApplicationAuthFailure (conn : Endpoint Secret) : Endpoint Secret :=
  let conn := {conn with appFailedAuthPackets := saturatingAdd conn.appFailedAuthPackets 1}
  if conn.appFailedAuthPackets ≥ conn.limits.integrityLimit then
    conn.close transportErrorAeadLimitReached "AEAD integrity limit reached"
  else conn

def discardExpiredApplicationReadKeys (conn : Endpoint Secret) (nowUs : Nat) : Endpoint Secret :=
  match conn.appReadPrevious with
  | none => conn
  | some epoch =>
    match epoch.discardDeadlineUs with
    | none => conn
    | some deadline => if nowUs ≥ deadline then {conn with appReadPrevious := none} else conn

/-- The highest number that arrived on the path. -/
def largestReceived (conn : Endpoint Secret) (pathId : Nat) : Nat :=
  ((conn.received.filter (·.pathId = pathId)).map (·.pn)).foldl max 0

/-- The packet opens under the epoch and names its phase. The number that is read out of its bytes goes into the nonce. -/
def tryOpenApplicationPacketWithEpoch (crypto : Crypto Secret) (packet : Packet Secret) (largestReceived : Nat)
    (maybeEpoch : Option (ApplicationKeyEpoch Secret)) (slot : ApplicationReadKeySlot) :
    Option (ApplicationReadKeySlot × ApplicationKeyEpoch Secret) :=
  match maybeEpoch with
  | none => none
  | some epoch =>
    if !packet.recovered largestReceived || !crypto.opens packet.sealedUnder epoch.secret then none
    else if packet.keyPhase ≠ epoch.keyPhase then none
    else some (slot,epoch)

def openApplicationPacket (crypto : Crypto Secret) (conn : Endpoint Secret) (packet : Packet Secret) (largestReceived : Nat) :
    Option (ApplicationReadKeySlot × ApplicationKeyEpoch Secret) × Endpoint Secret :=
  match tryOpenApplicationPacketWithEpoch crypto packet largestReceived conn.appReadCurrent .current with
  | some result => (some result,conn)
  | none =>
    match tryOpenApplicationPacketWithEpoch crypto packet largestReceived conn.appReadPrevious .previous with
    | some result => (some result,conn)
    | none =>
      let conn := if conn.appReadNext.isNone then conn.refreshNextApplicationReadKey crypto else conn
      (tryOpenApplicationPacketWithEpoch crypto packet largestReceived conn.appReadNext .next,conn)

def onAckReceived (conn : Endpoint Secret) (id : TrackedPacket) : Endpoint Secret :=
  {conn with largestAckedSent :=
    Function.update conn.largestAckedSent id.pathId (some (((conn.largestAckedSent id.pathId).map (max id.pn)).getD id.pn))}

/-- A number that is not tracked changes nothing. -/
def removeAcked (nowUs retention : Nat) (conn : Endpoint Secret) (id : TrackedPacket) : Endpoint Secret :=
  match conn.sent.find? (·.id == id) with
  | none => conn
  | some acked =>
    let conn := {conn with sent := conn.sent.filter (·.id != id),acknowledged := acked::conn.acknowledged}
    conn.onApplicationPacketAckedForKeys acked nowUs retention

def ackPacket (nowUs retention : Nat) (conn : Endpoint Secret) (id : TrackedPacket) : Endpoint Secret :=
  (conn.onAckReceived id).removeAcked nowUs retention id

/-- `finishOpenedPacket`, as far as the keys go: of the frames only the ACKs matter. -/
def finishOpenedPacket (conn : Endpoint Secret) (packet : Packet Secret) (nowUs retention : Nat) : Endpoint Secret :=
  if conn.closingAttributionOnly then conn else
  let duplicatePn := decide (packet.id ∈ conn.received)
  let conn := {conn with received := packet.id::conn.received}
  if duplicatePn then conn else packet.acks.foldl (ackPacket nowUs retention) conn

def handleShort (crypto : Crypto Secret) (conn : Endpoint Secret) (packet : Packet Secret) (nowUs retention : Nat) :
    Except KeyError (Endpoint Secret) :=
  if conn.appReadCurrent.isNone then .ok conn else
  match conn.openApplicationPacket crypto packet (conn.largestReceived packet.id.pathId) with
  | (none,conn) => .ok conn.noteApplicationAuthFailure
  | (some (.next,_),conn) => do
    let conn ← conn.promoteApplicationReadKeys crypto nowUs retention
    let conn ← conn.maybeRespondToPeerKeyUpdate crypto nowUs
    return conn.finishOpenedPacket packet nowUs retention
  | (some _,conn) => .ok (conn.finishOpenedPacket packet nowUs retention)

/-- The commit of `pollLevelOnPath` for a 1-RTT packet with these acknowledgements, `eliciting` when it asks for one
itself: the packet, if there are keys to seal it. -/
def sealPacket (conn : Endpoint Secret) (pathId : Nat) (eliciting : Bool) (acks : List TrackedPacket) :
    Option (Packet Secret) × Endpoint Secret :=
  match conn.appWriteCurrent with
  | none => (none,conn)
  | some current =>
    let id : TrackedPacket := ⟨pathId,conn.nextPn pathId⟩
    let pnLen := Wire.PacketNumber.chooseLength id.pn (conn.largestAckedSent pathId)
    let packet : Packet Secret := ⟨id,pnLen,current.keyPhase,current.secret,current.epoch,acks⟩
    let recorded : SentPacket := ⟨id,some current.epoch,current.keyPhase⟩
    (some packet,
      {conn with
        nextPn := Function.update conn.nextPn pathId (conn.nextPn pathId+1)
        appWriteCurrent := some {current with packetsProtected := saturatingAdd current.packetsProtected 1}
        sent := if eliciting then recorded::conn.sent else conn.sent})

end Endpoint

end QuicZig.Conn.Keys
