import QuicZig.Conn.PeerCids

/-! CRYPTO data as it arrives at one encryption level. Bytes in order go to the inbox
that TLS reads; the rest waits in fragments until the gap below them closes. -/
namespace QuicZig.Conn
open Machine Paths

/-- The budget for all that a peer can make a connection hold. -/
structure Resident where
  bytesResident : Nat := 0
  maxConnectionMemory : Nat := 32*1024*1024
  deriving DecidableEq, Repr

namespace Resident

/-- `none` is `ExcessiveLoad`. -/
def tryReserveResidentBytes (m : Resident) (n : Nat) : Option Resident :=
  if n = 0 then some m
  else if m.bytesResident > m.maxConnectionMemory ∨ n > m.maxConnectionMemory-m.bytesResident then none
  else some {m with bytesResident := m.bytesResident+n}

def releaseResidentBytes (m : Resident) (n : Nat) : Resident := {m with bytesResident := m.bytesResident-n}

/-- The bytes that an error path concedes to the total. -/
def concedeResidentBytes (m : Resident) (n : Nat) : Resident := {m with bytesResident := saturatingAdd m.bytesResident n}

theorem reserved {m after : Resident} {n : Nat} (ok : m.tryReserveResidentBytes n = some after) :
    after = {m with bytesResident := m.bytesResident+n} := by
  unfold tryReserveResidentBytes at ok
  split at ok
  · rename_i none
    cases ok
    rw [none]
    rfl
  split at ok
  · cases ok
  · exact (Option.some.inj ok).symm

theorem release_reserved {m after : Resident} {n : Nat} (ok : m.tryReserveResidentBytes n = some after) :
    after.releaseResidentBytes n = m := by
  rw [reserved ok]
  unfold releaseResidentBytes
  dsimp only
  rw [Nat.add_sub_cancel]

end Resident

def transportErrorExcessiveLoad : Nat := 0x01

def cryptoBufferMaxLen : Nat := 256*1024

def maxPendingCryptoBytesPerLevel : Nat := 64*1024

def maxPendingCryptoFragmentsPerLevel : Nat := 128

def maxCryptoReassemblyGap : Nat := 64*1024

/-- `capacity` is `buf.len`, `bytes` the part of it in use. -/
structure CryptoBuffer where
  capacity : Nat := 0
  bytes : List Byte := []
  deriving DecidableEq, Repr

namespace CryptoBuffer

inductive Error where
  | inboxOverflow | outOfMemory
  deriving DecidableEq, Repr

def append (granted : Bool) (b : CryptoBuffer) (data : List Byte) : Except Error Unit × CryptoBuffer :=
  if data.length > cryptoBufferMaxLen-b.bytes.length then (.error .inboxOverflow,b) else
  let needed := b.bytes.length+data.length
  if needed > b.capacity then
    let want := min cryptoBufferMaxLen (max needed (max (b.capacity*2) 2048))
    if granted then (.ok (),{capacity := want,bytes := b.bytes ++ data}) else (.error .outOfMemory,b)
  else (.ok (),{b with bytes := b.bytes ++ data})

def drain (b : CryptoBuffer) : List Byte × CryptoBuffer := (b.bytes,{b with bytes := []})

theorem append_spec (granted : Bool) (b : CryptoBuffer) (data : List Byte) :
    match b.append granted data with
    | (.ok _,after) => after.bytes = b.bytes ++ data
    | (.error _,after) => after = b := by
  unfold append
  dsimp only
  split_ifs <;> rfl

end CryptoBuffer

structure CryptoChunk where
  offset : Nat
  data : List Byte
  deriving DecidableEq, Repr

/-- What the connection keeps for one level, with the fields that all levels share. -/
structure CryptoRecv where
  inbox : CryptoBuffer := {}
  cryptoRecvOffset : Nat := 0
  cryptoPending : List CryptoChunk := []
  cryptoPendingBytes : Nat := 0
  resident : Resident := {}
  pendingClose : Option ConnectionClose := none
  deriving DecidableEq, Repr

namespace CryptoRecv

def close (s : CryptoRecv) (errorCode : Nat) (reason : String) : CryptoRecv :=
  if s.pendingClose.isSome then s else {s with pendingClose := some ⟨true,errorCode,reason⟩}

/-- The scan of `drainPendingCrypto`: the first fragment that starts at or below the floor, or whose end is no offset,
and the list without it. A fragment that ends below the floor starts there too. -/
def firstReached (floor : Nat) : List CryptoChunk → Option (CryptoChunk × List CryptoChunk)
  | [] => none
  | c::rest =>
    if checkedAdd c.offset c.data.length = none ∨ c.offset ≤ floor then some (c,rest)
    else (firstReached floor rest).map fun (reached,others) => (reached,c::others)

/-- The fragment leaves the list, and its bytes leave the counters. -/
def discard (s : CryptoRecv) (chunk : CryptoChunk) (others : List CryptoChunk) : CryptoRecv :=
  {s with
    cryptoPending := others
    cryptoPendingBytes := s.cryptoPendingBytes-chunk.data.length
    resident := s.resident.releaseResidentBytes chunk.data.length}

def advance (s : CryptoRecv) (inbox : CryptoBuffer) (n : Nat) : CryptoRecv :=
  {s with inbox := inbox,cryptoRecvOffset := s.cryptoRecvOffset+n}

/-- The outer loop. Each turn takes a fragment out, so as many turns as there are fragments are enough. -/
def drainTurns (grants : Allocator) : Nat → Nat → CryptoRecv → Except CryptoBuffer.Error Unit × CryptoRecv
  | 0,_,s => (.ok (),s)
  | turns+1,n,s =>
    match firstReached s.cryptoRecvOffset s.cryptoPending with
    | none => (.ok (),s)
    | some (chunk,others) =>
      match checkedAdd chunk.offset chunk.data.length with
      | none => (.ok (),s.close transportErrorProtocolViolation "crypto pending offset overflow")
      | some stop =>
        if stop ≤ s.cryptoRecvOffset then drainTurns grants turns (n+1) (s.discard chunk others)
        else
          let tail := chunk.data.drop (s.cryptoRecvOffset-chunk.offset)
          match s.inbox.append (grants n) tail with
          | (.error e,inbox) => (.error e,{s with inbox := inbox})
          | (.ok _,inbox) => drainTurns grants turns (n+1) ((s.advance inbox tail.length).discard chunk others)

/-- Request 0 belongs to the frame that came before. -/
def drainPendingCrypto (grants : Allocator) (s : CryptoRecv) : Except CryptoBuffer.Error Unit × CryptoRecv :=
  s.drainTurns grants s.cryptoPending.length 1

/-- Out-of-order data. Request 0 is for the copy, 1 for the list. -/
def bufferCrypto (grants : Allocator) (s : CryptoRecv) (offset : Nat) (data : List Byte) :
    Except CryptoBuffer.Error Unit × CryptoRecv :=
  if offset-s.cryptoRecvOffset > maxCryptoReassemblyGap then
    (.ok (),s.close transportErrorProtocolViolation "crypto reassembly gap exceeds limit")
  else if data.length > maxPendingCryptoBytesPerLevel ∨
      s.cryptoPendingBytes > maxPendingCryptoBytesPerLevel-data.length then
    (.ok (),s.close transportErrorProtocolViolation "crypto reassembly exceeds limit")
  else if s.cryptoPending.length ≥ maxPendingCryptoFragmentsPerLevel then
    (.ok (),s.close transportErrorProtocolViolation "crypto reassembly fragment count exceeds limit")
  else match s.resident.tryReserveResidentBytes data.length with
    | none => (.ok (),s.close transportErrorExcessiveLoad "excessive resource use")
    | some resident =>
      if !grants 0 || !grants 1 then
        (.error .outOfMemory,{s with resident := resident.releaseResidentBytes data.length})
      else
        (.ok (),{s with
          resident := resident
          cryptoPending := s.cryptoPending ++ [⟨offset,data⟩]
          cryptoPendingBytes := s.cryptoPendingBytes+data.length})

def handleCrypto (grants : Allocator) (s : CryptoRecv) (cr : Frame.Crypto) : Except CryptoBuffer.Error Unit × CryptoRecv :=
  if cr.data.length = 0 then (.ok (),s) else
  match checkedAdd cr.offset cr.data.length with
  | none => (.ok (),s.close transportErrorProtocolViolation "crypto offset overflow")
  | some stop =>
    let floor := s.cryptoRecvOffset
    if stop ≤ floor then (.ok (),s) else
    let effOffset := max cr.offset floor
    let effData := cr.data.drop (floor-cr.offset)
    if effOffset = floor then
      match s.inbox.append (grants 0) effData with
      | (.error e,inbox) => (.error e,{s with inbox := inbox})
      | (.ok _,inbox) => (s.advance inbox effData.length).drainPendingCrypto grants
    else s.bufferCrypto grants effOffset effData

end CryptoRecv
end QuicZig.Conn
