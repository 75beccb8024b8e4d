import QuicZig.Wire.Header
import QuicZig.Library.Keystream

/-! What protects a packet: an AEAD over the payload with the header as associated
data, and a mask over the first byte and the packet number. -/
namespace QuicZig.Wire
open Machine BigEndian Codec Keystream

inductive PacketError where
  | outputTooSmall
  | notInitialPacket
  | notZeroRttPacket
  | notHandshakePacket
  | notShortHeader
  | dcidTooLong
  | scidTooLong
  | unsupportedSuite
  | declaredLengthExceedsInput
  | payloadTooShort
  | insufficientCiphertext
  | invalidPnLength
  | invalidPnOffset
  | authenticationFailed
  | header (e : Error)
  deriving DecidableEq, Repr

/-- The AEAD of a key. `tryOpen` has a buffer of some room for the plaintext; one as long as the ciphertext is enough. -/
structure Aead where
  sealing : Fixed 12 → List Byte → List Byte → List Byte
  tryOpen : Nat → Fixed 12 → List Byte → List Byte → Option (List Byte)
  tagged : ∀ nonce aad plain, (sealing nonce aad plain).length = plain.length+16
  opens : ∀ room nonce aad plain, plain.length+16 ≤ room → tryOpen room nonce aad (sealing nonce aad plain) = some plain

inductive Suite where
  | aes128GcmSha256
  | aes256GcmSha384
  | chacha20Poly1305Sha256
  deriving DecidableEq, Repr

structure PacketKeys where
  suite : Suite
  iv : Fixed 12
  aead : Aead
  headerProtectionMask : Fixed 16 → Fixed 5

namespace Protection

def sampleLen : Nat := 16

inductive HeaderForm where
  | long
  | short
  deriving DecidableEq, Repr

def HeaderForm.firstByteMask : HeaderForm → Byte
  | .long => 0x0f
  | .short => 0x1f

/-- `a ^= b`, byte by byte. -/
def xorAt : Nat → List Byte → List Byte → List Byte := maskAt fun a b : Byte => a ^^^ b

def aeadNonce (iv : Fixed 12) (pn : Nat) : Fixed 12 :=
  ⟨xorAt 4 (bigEndian 8 pn) iv.bytes,by simp [xorAt,iv.exact]⟩

def aeadNonceForPath (iv : Fixed 12) (pathId pn : Nat) : Fixed 12 :=
  ⟨xorAt 0 (bigEndian 4 pathId++bigEndian 8 (pn &&& ((1 <<< 62)-1))) iv.bytes,by simp [xorAt,iv.exact]⟩

def nonceFor (iv : Fixed 12) (multipathPathId : Option Nat) (pn : Nat) : Fixed 12 :=
  match multipathPathId with
  | some pathId => aeadNonceForPath iv pathId pn
  | none => aeadNonce iv pn

/-- `room` is the part of the buffer behind the header. -/
def sealPayloadWithKeys (keys : PacketKeys) (multipathPathId : Option Nat) (pn : Nat) (header plain : List Byte)
    (room : Nat) : Except PacketError (List Byte) :=
  if room < plain.length+16 then .error .outputTooSmall
  else .ok (keys.aead.sealing (nonceFor keys.iv multipathPathId pn) header plain)

def openPayloadWithKeys (keys : PacketKeys) (multipathPathId : Option Nat) (pn : Nat) (header ciphertext : List Byte)
    (room : Nat) : Except PacketError (List Byte) :=
  match keys.aead.tryOpen room (nonceFor keys.iv multipathPathId pn) header ciphertext with
  | none => .error .authenticationFailed
  | some plain => .ok plain

/-- The 16 bytes behind the longest packet number there can be. -/
def sampleAt (packet : List Byte) (pnOffset : Nat) : Except PacketError (Fixed 16) :=
  if long : (packet.drop (pnOffset+4)).length ≥ sampleLen then
    .ok ⟨(packet.drop (pnOffset+4)).take sampleLen,List.length_take_of_le long⟩
  else .error .insufficientCiphertext

def firstKey (form : HeaderForm) (mask : Fixed 5) : List Byte := (mask.bytes.take 1).map (· &&& form.firstByteMask)

def pnKey (mask : Fixed 5) (pnLength : Nat) : List Byte := (mask.bytes.drop 1).take pnLength

def applyHpMask (packet : List Byte) (form : HeaderForm) (pnOffset pnLength : Nat) (mask : Fixed 5) :
    Except PacketError (List Byte) :=
  if pnLength < 1 ∨ pnLength > 4 then .error .invalidPnLength
  else if packet.length < pnOffset+pnLength then .error .invalidPnOffset
  else .ok (xorAt pnOffset (pnKey mask pnLength) (xorAt 0 (firstKey form mask) packet))

/-- The common part of `sealLongStaged` and `sealStaged`, behind the header that is written already. -/
def sealBehind (form : HeaderForm) (keys : PacketKeys) (multipathPathId : Option Nat) (pn : Nat) (header : List Byte)
    (pnLength : Nat) (plain : List Byte) (room : Nat) : Except PacketError (List Byte) :=
  match sealPayloadWithKeys keys multipathPathId pn header plain (room-header.length) with
  | .error e => .error e
  | .ok ciphertext =>
    let packet := header++ciphertext
    let pnOffset := header.length-pnLength
    match sampleAt packet pnOffset with
    | .error e => .error e
    | .ok sample => applyHpMask packet form pnOffset pnLength (keys.headerProtectionMask sample)

/-- A plaintext with PADDING frames up to a length. -/
def padded (payload : List Byte) (ptLen : Nat) : List Byte := payload++List.replicate (ptLen-payload.length) 0

end Protection

def Header.PnLength.fromBytes : Nat → Header.PnLength
  | 1 => .one
  | 2 => .two
  | 3 => .three
  | _ => .four

end QuicZig.Wire
