import QuicZig.Wire.PacketNumber

/-! Packet headers in their unprotected form: four long types whose bits depend
on the version, the version negotiation packet and the short header. -/
namespace QuicZig.Wire
open Machine BigEndian Codec

def maxCidLen : Nat := 20

theorem noBytes_short : ([] : List Byte).length ≤ maxCidLen := Nat.zero_le _

-- The widths of the fields of the first byte.
instance oneBit : NeZero 2 := ⟨by decide⟩
instance twoBits : NeZero 4 := ⟨by decide⟩
instance fourBits : NeZero 16 := ⟨by decide⟩

structure ConnId where
  bytes : List Byte := []
  short : bytes.length ≤ maxCidLen := by first | exact QuicZig.Wire.noBytes_short | decide
  deriving DecidableEq, Repr

namespace ConnId

def len (c : ConnId) : Nat := c.bytes.length

def fromSlice (src : List Byte) : Except Error ConnId :=
  if short : src.length ≤ maxCidLen then .ok ⟨src,short⟩ else .error .connIdTooLong

end ConnId

namespace Header

def quicVersion2 : Nat := 0x6b3343cf

inductive LongType where
  | initial
  | zeroRtt
  | handshake
  | retry
  deriving DecidableEq, Repr

def longTypeFromBits (version : Nat) (bits : Fin 4) : LongType :=
  if version = quicVersion2 then
    match bits with
    | 0b00 => .retry
    | 0b01 => .initial
    | 0b10 => .zeroRtt
    | 0b11 => .handshake
  else
    match bits with
    | 0b00 => .initial
    | 0b01 => .zeroRtt
    | 0b10 => .handshake
    | 0b11 => .retry

def longTypeToBits (version : Nat) (t : LongType) : Fin 4 :=
  if version = quicVersion2 then
    match t with
    | .retry => 0b00
    | .initial => 0b01
    | .zeroRtt => 0b10
    | .handshake => 0b11
  else
    match t with
    | .initial => 0b00
    | .zeroRtt => 0b01
    | .handshake => 0b10
    | .retry => 0b11

inductive PnLength where
  | one
  | two
  | three
  | four
  deriving DecidableEq, Repr

namespace PnLength

def fromTwoBits : Fin 4 → PnLength
  | 0 => .one
  | 1 => .two
  | 2 => .three
  | 3 => .four

def toTwoBits : PnLength → Fin 4
  | .one => 0
  | .two => 1
  | .three => 2
  | .four => 3

def bytes : PnLength → Nat
  | .one => 1
  | .two => 2
  | .three => 3
  | .four => 4

end PnLength

structure Initial where
  version : Nat
  dcid : ConnId
  scid : ConnId
  token : List Byte
  pnLength : PnLength
  pnTruncated : Nat
  payloadLength : Nat
  /-- Encode only: the width of the Length field, 0 for the shortest. -/
  payloadLengthBytes : Nat := 0
  reservedBits : Fin 4 := 0
  quicBit : Fin 2 := 1
  deriving DecidableEq, Repr

/-- The fields of `ZeroRtt` and `Handshake`, which are the same. -/
structure LongPn where
  version : Nat
  dcid : ConnId
  scid : ConnId
  pnLength : PnLength
  pnTruncated : Nat
  payloadLength : Nat
  reservedBits : Fin 4 := 0
  quicBit : Fin 2 := 1
  deriving DecidableEq, Repr

structure Retry where
  version : Nat
  dcid : ConnId
  scid : ConnId
  retryToken : List Byte
  integrityTag : Fixed 16
  unusedBits : Fin 16 := 0
  quicBit : Fin 2 := 1
  deriving DecidableEq, Repr

structure OneRtt where
  dcid : ConnId
  spinBit : Bool := false
  reservedBits : Fin 4 := 0
  keyPhase : Bool := false
  pnLength : PnLength
  pnTruncated : Nat
  quicBit : Fin 2 := 1
  deriving DecidableEq, Repr

structure VersionNegotiation where
  unusedBits : Fin 128 := 0
  dcid : ConnId
  scid : ConnId
  versionsBytes : List Byte
  deriving DecidableEq, Repr

end Header

open Header in
inductive Header where
  | initial (h : Initial)
  | zeroRtt (h : LongPn)
  | handshake (h : LongPn)
  | retry (h : Retry)
  | oneRtt (h : OneRtt)
  | versionNegotiation (h : VersionNegotiation)
  deriving DecidableEq, Repr

namespace Header

structure Parsed where
  header : Header
  pnOffset : Nat
  deriving DecidableEq, Repr

/-- `@intCast((b >> shift) & (n-1))`, for `n` a power of two. -/
def bitsAt (n : Nat) [NeZero n] (b : Byte) (shift : Nat) : Fin n := Fin.ofNat n ((b.toNat >>> shift) &&& (n-1))

def parseShort (total : Nat) (first : Byte) (dcidLen : Nat) : Parser Error Parsed :=
  if dcidLen > maxCidLen then .fail .connIdTooLong
  else do
    let pnLength := PnLength.fromTwoBits (bitsAt 4 first 0)
    let dcid ← Parser.take .insufficientBytes dcidLen
    let dcid ← Parser.lift (ConnId.fromSlice dcid)
    let left ← Parser.remaining
    let pnTruncated ← PacketNumber.read pnLength.bytes
    pure {
      header := .oneRtt {
        dcid := dcid
        spinBit := first &&& (0x20 : Byte) ≠ 0
        reservedBits := bitsAt 4 first 3
        keyPhase := first &&& (0x04 : Byte) ≠ 0
        pnLength := pnLength
        pnTruncated := pnTruncated
        quicBit := bitsAt 2 first 6
      }
      pnOffset := total-left
    }

def lengthPrefixedCid : Parser Error (List Byte) := do
  let len ← Parser.byte .insufficientBytes
  if len.toNat > maxCidLen then Parser.fail .connIdTooLong
  else Parser.take .insufficientBytes len.toNat

structure LongCommonSlices where
  version : Nat
  dcid : List Byte
  scid : List Byte
  endPos : Nat
  deriving DecidableEq, Repr

/-- The walk of `peekLongCommon`, behind the first byte. -/
def longCommonSlices (total : Nat) : Parser Error LongCommonSlices := do
  let version ← Parser.take .insufficientBytes 4
  let dcid ← lengthPrefixedCid
  let scid ← lengthPrefixedCid
  let left ← Parser.remaining
  pure {version := ofBigEndian 0 version,dcid := dcid,scid := scid,endPos := total-left}

def peekLongCommon (src : List Byte) : Except Error LongCommonSlices :=
  (longCommonSlices src.length).run (src.drop 1)

structure LongCommon where
  version : Nat
  dcid : ConnId
  scid : ConnId
  deriving DecidableEq, Repr

def parseLongCommon (total : Nat) : Parser Error LongCommon := do
  let common ← longCommonSlices total
  let dcid ← Parser.lift (ConnId.fromSlice common.dcid)
  let scid ← Parser.lift (ConnId.fromSlice common.scid)
  pure {version := common.version,dcid := dcid,scid := scid}

def parseInitialTail (total : Nat) (common : LongCommon) (reservedBits : Fin 4) (pnLength : PnLength)
    (quicBit : Fin 2) : Parser Error Parsed := do
  let tokLen ← Varint.read
  let token ← Parser.take .insufficientBytes tokLen
  let length ← Varint.read
  let left ← Parser.remaining
  let pnTruncated ← PacketNumber.read pnLength.bytes
  pure {
    header := .initial {
      version := common.version
      dcid := common.dcid
      scid := common.scid
      token := token
      pnLength := pnLength
      pnTruncated := pnTruncated
      payloadLength := length
      reservedBits := reservedBits
      quicBit := quicBit
    }
    pnOffset := total-left
  }

inductive PnTailKind where
  | zeroRtt
  | handshake
  deriving DecidableEq, Repr

def PnTailKind.header : PnTailKind → LongPn → Header
  | .zeroRtt => .zeroRtt
  | .handshake => .handshake

def parseLongPnTail (total : Nat) (common : LongCommon) (reservedBits : Fin 4) (pnLength : PnLength)
    (quicBit : Fin 2) (kind : PnTailKind) : Parser Error Parsed := do
  let length ← Varint.read
  let left ← Parser.remaining
  let pnTruncated ← PacketNumber.read pnLength.bytes
  pure {
    header := kind.header {
      version := common.version
      dcid := common.dcid
      scid := common.scid
      pnLength := pnLength
      pnTruncated := pnTruncated
      payloadLength := length
      reservedBits := reservedBits
      quicBit := quicBit
    }
    pnOffset := total-left
  }

/-- The token ends where the tag, the last 16 bytes of the packet, begins. -/
def parseRetryTail (common : LongCommon) (unusedBits : Fin 16) (quicBit : Fin 2) : Parser Error Parsed := do
  let left ← Parser.remaining
  if left < 16 then Parser.fail .insufficientBytes
  else
    let retryToken ← Parser.take .insufficientBytes (left-16)
    let integrityTag ← Parser.fixed .insufficientBytes 16
    pure {
      header := .retry {
        version := common.version
        dcid := common.dcid
        scid := common.scid
        retryToken := retryToken
        integrityTag := integrityTag
        unusedBits := unusedBits
        quicBit := quicBit
      }
      pnOffset := 0
    }

/-- The part of `parseLong` behind the common fields. -/
def parseLongTail (total : Nat) (first : Byte) (common : LongCommon) : Parser Error Parsed :=
  if common.version = 0 then do
    let versionsBytes ← Parser.takeRest
    if versionsBytes.length = 0 ∨ versionsBytes.length % 4 ≠ 0 then Parser.fail .invalidVersionNegotiation
    else pure {
      header := .versionNegotiation {
        unusedBits := bitsAt 128 first 0
        dcid := common.dcid
        scid := common.scid
        versionsBytes := versionsBytes
      }
      pnOffset := 0
    }
  else
    let quicBit := bitsAt 2 first 6
    let reservedBits := bitsAt 4 first 2
    let pnLength := PnLength.fromTwoBits (bitsAt 4 first 0)
    match longTypeFromBits common.version (bitsAt 4 first 4) with
    | .initial => parseInitialTail total common reservedBits pnLength quicBit
    | .zeroRtt => parseLongPnTail total common reservedBits pnLength quicBit .zeroRtt
    | .handshake => parseLongPnTail total common reservedBits pnLength quicBit .handshake
    | .retry => parseRetryTail common (bitsAt 16 first 0) quicBit

def parseLong (total : Nat) (first : Byte) : Parser Error Parsed := do
  let common ← parseLongCommon total
  parseLongTail total first common

def parse (src : List Byte) (dcidLenForShort : Nat) : Except Error Parsed :=
  match src with
  | [] => .error .insufficientBytes
  | first::rest =>
    if first &&& (0x80 : Byte) = 0 then (parseShort src.length first dcidLenForShort).run rest
    else (parseLong src.length first).run rest

def longHeaderFirstByte (version : Nat) (longType : LongType) (quicBit : Fin 2) (reservedBits : Fin 4) : Byte :=
  (0x80 : Byte) ||| (UInt8.ofNat quicBit <<< 6) ||| (UInt8.ofNat (longTypeToBits version longType) <<< 4) |||
    (UInt8.ofNat reservedBits <<< 2)

def longHeaderCommon (firstByte : Byte) (version : Nat) (dcid scid : ConnId) : List Byte :=
  firstByte::(bigEndian 4 version ++ (UInt8.ofNat dcid.len::dcid.bytes) ++ (UInt8.ofNat scid.len::scid.bytes))

def writeLongHeaderCommon (firstByte : Byte) (version : Nat) (dcid scid : ConnId) : Writer Error :=
  .put .bufferTooSmall (longHeaderCommon firstByte version dcid scid)

def encodeInitial (h : Initial) : Writer Error :=
  .all [
    writeLongHeaderCommon (longHeaderFirstByte h.version .initial h.quicBit h.reservedBits |||
      UInt8.ofNat h.pnLength.toTwoBits) h.version h.dcid h.scid,
    Varint.encode h.token.length,
    .put .bufferTooSmall h.token,
    if h.payloadLengthBytes = 0 then Varint.encode h.payloadLength
    else Varint.encodeFixed h.payloadLength h.payloadLengthBytes,
    PacketNumber.encode h.pnTruncated h.pnLength.bytes]

def PnTailKind.longType : PnTailKind → LongType
  | .zeroRtt => .zeroRtt
  | .handshake => .handshake

def encodeLongPn (h : LongPn) (kind : PnTailKind) : Writer Error :=
  .all [
    writeLongHeaderCommon (longHeaderFirstByte h.version kind.longType h.quicBit h.reservedBits |||
      UInt8.ofNat h.pnLength.toTwoBits) h.version h.dcid h.scid,
    Varint.encode h.payloadLength,
    PacketNumber.encode h.pnTruncated h.pnLength.bytes]

def encodeRetry (h : Retry) : Writer Error :=
  .all [
    writeLongHeaderCommon ((longHeaderFirstByte h.version .retry h.quicBit 0 &&& (0xf0 : Byte)) |||
      UInt8.ofNat h.unusedBits) h.version h.dcid h.scid,
    .put .bufferTooSmall (h.retryToken ++ h.integrityTag.bytes)]

def oneRttFirstByte (h : OneRtt) : Byte :=
  (UInt8.ofNat h.quicBit <<< 6) ||| (if h.spinBit then (0x20 : Byte) else 0) ||| (UInt8.ofNat h.reservedBits <<< 3) |||
    (if h.keyPhase then (0x04 : Byte) else 0) ||| UInt8.ofNat h.pnLength.toTwoBits

/-- The room is checked for the whole header before the first byte is written. -/
def encodeOneRtt (h : OneRtt) : Writer Error := fun room =>
  if room < 1+h.dcid.len+h.pnLength.bytes then .error .bufferTooSmall
  else Writer.all [
    .put .bufferTooSmall (oneRttFirstByte h::h.dcid.bytes),
    PacketNumber.encode h.pnTruncated h.pnLength.bytes] room

def encodeVersionNegotiation (h : VersionNegotiation) : Writer Error :=
  if h.versionsBytes.length = 0 ∨ h.versionsBytes.length % 4 ≠ 0 then .fail .invalidVersionNegotiation
  else .all [
    writeLongHeaderCommon ((0x80 : Byte) ||| UInt8.ofNat h.unusedBits) 0 h.dcid h.scid,
    .put .bufferTooSmall h.versionsBytes]

def encode : Header → Writer Error
  | .initial h => encodeInitial h
  | .zeroRtt h => encodeLongPn h .zeroRtt
  | .handshake h => encodeLongPn h .handshake
  | .retry h => encodeRetry h
  | .oneRtt h => encodeOneRtt h
  | .versionNegotiation h => encodeVersionNegotiation h

end Header

end QuicZig.Wire
