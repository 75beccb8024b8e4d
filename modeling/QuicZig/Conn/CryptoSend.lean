import QuicZig.Conn.CryptoRecv
import Mathlib.Data.List.Basic

/-! CRYPTO data on its way out at one encryption level: the bytes that TLS wrote, the
ones that have to go again, and the ones in packets that nobody has answered yet. -/
namespace QuicZig.Conn
open Machine

structure SentCryptoChunk where
  pn : Nat
  offset : Nat
  data : List Byte
  probeRequeued : Bool := false
  deriving DecidableEq, Repr

/-- A packet in a tracker of the level. The application level has one tracker for each path, with numbers of its own. -/
structure TrackedPacket where
  pathId : Nat
  pn : Nat
  deriving DecidableEq, Repr

/-- The fields of the connection that belong to one level. `sent` are the live packets of its trackers. -/
structure CryptoSend where
  outbox : CryptoBuffer := {}
  cryptoSendOffset : Nat := 0
  cryptoRetx : List CryptoChunk := []
  sentCrypto : List SentCryptoChunk := []
  sent : List TrackedPacket := []
  nextPn : Nat → Nat := fun _ => 0

def SentCryptoChunk.chunk (c : SentCryptoChunk) : CryptoChunk := ⟨c.offset,c.data⟩

namespace CryptoSend

/-- The part of `pollLevelOnPath` that picks the data of the CRYPTO frame, `room` bytes at most, with what the commit
does to the queue it comes from. -/
def stageCrypto (s : CryptoSend) (room : Nat) : Option (CryptoChunk × CryptoSend) :=
  if room = 0 then none else
  match s.cryptoRetx with
  | chunk::rest =>
    let sendLen := min chunk.data.length room
    if sendLen = chunk.data.length then some (chunk,{s with cryptoRetx := rest})
    else
      some (⟨chunk.offset,chunk.data.take sendLen⟩,
        {s with cryptoRetx := ⟨chunk.offset+sendLen,chunk.data.drop sendLen⟩::rest})
  | [] =>
    if s.outbox.bytes.length > 0 then
      let drainLen := min s.outbox.bytes.length room
      some (⟨s.cryptoSendOffset,s.outbox.bytes.take drainLen⟩,
        {s with
          outbox := {s.outbox with bytes := s.outbox.bytes.drop drainLen}
          cryptoSendOffset := s.cryptoSendOffset+drainLen})
    else none

/-- `eliciting` is whether the packet has another frame that asks for an ACK; only then is it tracked. -/
def pollLevelOnPath (s : CryptoSend) (pathId : Nat) (cryptoAllowed : Bool) (room : Nat) (eliciting : Bool) : CryptoSend :=
  let pn := s.nextPn pathId
  let nextPn := Function.update s.nextPn pathId (pn+1)
  match if cryptoAllowed then s.stageCrypto room else none with
  | some (chunk,s) =>
    {s with
      nextPn := nextPn
      sent := s.sent ++ [⟨pathId,pn⟩]
      sentCrypto := s.sentCrypto ++ [{pn := pn,offset := chunk.offset,data := chunk.data}]}
  | none => {s with nextPn := nextPn,sent := if eliciting then s.sent ++ [⟨pathId,pn⟩] else s.sent}

/-- The walk over the chunks, and over the queue for each that a probe has copied there. -/
def discardLoop (pn : Nat) : List SentCryptoChunk → List CryptoChunk → List SentCryptoChunk × List CryptoChunk
  | [],retx => ([],retx)
  | c::rest,retx =>
    if c.pn = pn then
      discardLoop pn rest
        (if c.probeRequeued then retx.filter fun r => !(r.offset = c.offset && r.data.length = c.data.length) else retx)
    else
      let (kept,retx) := discardLoop pn rest retx
      (c::kept,retx)

def discardSentCryptoForPacket (s : CryptoSend) (pn : Nat) : CryptoSend :=
  let (sentCrypto,cryptoRetx) := discardLoop pn s.sentCrypto s.cryptoRetx
  {s with sentCrypto := sentCrypto,cryptoRetx := cryptoRetx}

/-- Request `n` is for the place in the queue of chunk `n`. -/
def requeueLoop (grants : Allocator) (pn : Nat) :
    Nat → List SentCryptoChunk → List CryptoChunk → Except AllocError Unit × List SentCryptoChunk × List CryptoChunk
  | _,[],retx => (.ok (),[],retx)
  | n,c::rest,retx =>
    if c.pn = pn then
      if c.probeRequeued then requeueLoop grants pn n rest retx
      else if !grants n then (.error .outOfMemory,c::rest,retx)
      else requeueLoop grants pn (n+1) rest (retx ++ [c.chunk])
    else
      let (result,kept,retx) := requeueLoop grants pn n rest retx
      (result,c::kept,retx)

def requeueSentCryptoForPacket (grants : Allocator) (s : CryptoSend) (pn : Nat) : Except AllocError Unit × CryptoSend :=
  let (result,sentCrypto,cryptoRetx) := requeueLoop grants pn 0 s.sentCrypto s.cryptoRetx
  (result,{s with sentCrypto := sentCrypto,cryptoRetx := cryptoRetx})

/-- `streams` is whether the stream data of the packet found its way back into the streams; it goes first. -/
def requeueLostPacketOnPath (streams : Bool) (grants : Allocator) (s : CryptoSend) (pn : Nat) :
    Except AllocError Unit × CryptoSend :=
  if !streams then (.error .outOfMemory,s) else s.requeueSentCryptoForPacket grants pn

/-- Two requests for each chunk: the place in the queue and the copy. -/
def probeLoop (grants : Allocator) (pn : Nat) :
    Nat → List SentCryptoChunk → List CryptoChunk → Except AllocError Unit × List SentCryptoChunk × List CryptoChunk
  | _,[],retx => (.ok (),[],retx)
  | n,c::rest,retx =>
    if c.pn = pn ∧ c.probeRequeued = false then
      if !grants n || !grants (n+1) then (.error .outOfMemory,c::rest,retx)
      else
        let (result,kept,retx) := probeLoop grants pn (n+2) rest (retx ++ [c.chunk])
        (result,{c with probeRequeued := true}::kept,retx)
    else
      let (result,kept,retx) := probeLoop grants pn n rest retx
      (result,c::kept,retx)

def requeueSentCryptoForProbe (grants : Allocator) (s : CryptoSend) (pn : Nat) : Except AllocError Unit × CryptoSend :=
  let (result,sentCrypto,cryptoRetx) := probeLoop grants pn 0 s.sentCrypto s.cryptoRetx
  (result,{s with sentCrypto := sentCrypto,cryptoRetx := cryptoRetx})

/-- The copies up to the first request that is refused. -/
def copyLoop (grants : Allocator) : Nat → List CryptoChunk → List CryptoChunk
  | _,[] => []
  | n,c::rest => if grants n then c::copyLoop grants (n+1) rest else []

/-- What came into the queue behind the first `queuedBefore` goes there twice. Request 0 is for all the places. -/
def queueHandshakeProbeCopy (grants : Allocator) (s : CryptoSend) (firstSampleTaken : Bool) (queuedBefore : Nat) : CryptoSend :=
  if firstSampleTaken || !grants 0 then s
  else {s with cryptoRetx := s.cryptoRetx ++ copyLoop grants 1 (s.cryptoRetx.drop queuedBefore)}

def packetOwnsSentCrypto (s : CryptoSend) (pn : Nat) : Bool := s.sentCrypto.any fun c => c.pn = pn && !c.probeRequeued

def handleAckedPacket (s : CryptoSend) (p : TrackedPacket) : CryptoSend :=
  if p ∈ s.sent then {s with sent := s.sent.erase p}.discardSentCryptoForPacket p.pn else s

def handleLostPacket (streams : Bool) (grants : Allocator) (s : CryptoSend) (p : TrackedPacket) :
    Except AllocError Unit × CryptoSend :=
  if p ∈ s.sent then {s with sent := s.sent.erase p}.requeueLostPacketOnPath streams grants p.pn else (.ok (),s)

/-- The packet that the probe timer of the Initial or the Handshake level expires; `copies` answers for the second copy. -/
def firePto (streams : Bool) (grants copies : Allocator) (firstSampleTaken : Bool) (s : CryptoSend) (p : TrackedPacket) : CryptoSend :=
  match s.handleLostPacket streams grants p with
  | (.error _,s) => s
  | (.ok _,after) => after.queueHandshakeProbeCopy copies firstSampleTaken s.cryptoRetx.length

/-- The walk over the tracker. Each packet has requests of its own. -/
def earlyLoop (grants : TrackedPacket → Allocator) : List TrackedPacket → CryptoSend → CryptoSend
  | [],s => s
  | p::rest,s =>
    if s.packetOwnsSentCrypto p.pn then
      match s.handleLostPacket true (grants p) p with
      | (.error _,s) => s
      | (.ok _,s) => earlyLoop grants rest s
    else earlyLoop grants rest s

def retransmitHandshakeCryptoEarly (grants : TrackedPacket → Allocator) (s : CryptoSend) : CryptoSend :=
  s.earlyLoop grants s.sent

/-- The packets of a path that failed go back, whatever each of them answers, and leave the tracker. -/
def failPath (streams : TrackedPacket → Bool) (grants : TrackedPacket → Allocator) (s : CryptoSend) (pathId : Nat) : CryptoSend :=
  let onPath := s.sent.filter (·.pathId = pathId)
  let s := onPath.foldl (fun s p => (s.requeueLostPacketOnPath (streams p) (grants p) p.pn).2) s
  {s with sent := s.sent.filter (·.pathId ≠ pathId)}

/-- A Retry: all that the Initial packets had goes again. -/
def resetInitialRecoveryForRetry (granted : Bool) (s : CryptoSend) : CryptoSend :=
  if granted then {s with cryptoRetx := s.cryptoRetx ++ s.sentCrypto.map (·.chunk),sentCrypto := [],sent := []} else s

end CryptoSend
end QuicZig.Conn
