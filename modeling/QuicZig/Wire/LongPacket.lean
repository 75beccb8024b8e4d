import QuicZig.Wire.Protection

/-! Packets with a long header: how Initial, 0-RTT and Handshake packets are sealed and
opened, and how far one reaches for a receiver without its keys. -/
namespace QuicZig.Wire.LongPacket
open Machine BigEndian Codec Keystream Protection Header

/-- The size of the staging buffer, the longest plaintext that is sealed with a long header. -/
def stagingLen : Nat := 2048

/-- The staging buffer, which only holds the padded plaintext, is not modelled. -/
structure InitialSealOptions where
  version : UInt32 := 1
  dcid : List Byte
  scid : List Byte
  token : List Byte := []
  pn : Nat
  largestAcked : Option Nat := none
  payload : List Byte
  keys : PacketKeys
  padTo : Nat := 0
  pnLengthOverride : Option Nat := none
  reservedBits : Fin 4 := 0
  quicBit : Fin 2 := 1

structure LongPnSealOptions where
  version : UInt32 := 1
  dcid : List Byte
  scid : List Byte
  pn : Nat
  largestAcked : Option Nat := none
  payload : List Byte
  keys : PacketKeys
  pnLengthOverride : Option Nat := none
  quicBit : Fin 2 := 1

/-- The least plaintext that leaves room for the sample. -/
def minPtForSample (pnLen : Nat) : Nat := if pnLen < 4 then 4-pnLen else 0

def sealLongStaged (keys : PacketKeys) (pn : Nat) (header : List Byte) (pnLen : Nat) (plain : List Byte) (room : Nat) :
    Except PacketError (List Byte) :=
  sealBehind .long keys none pn header pnLen plain room

/-- The lengths of the plaintext and of the Length field. -/
structure Sizes where
  ptLen : Nat
  lengthVarintSize : Nat
  deriving DecidableEq, Repr

namespace InitialSealOptions

def pnLen (opts : InitialSealOptions) : Nat := opts.pnLengthOverride.getD (PacketNumber.chooseLength opts.pn opts.largestAcked)

/-- Everything but the Length field and the plaintext. -/
def fixedLen (opts : InitialSealOptions) : Nat :=
  1+4+(1+opts.dcid.length)+(1+opts.scid.length)+Varint.encodedLen opts.token.length+opts.token.length+opts.pnLen+16

def plainSizes (opts : InitialSealOptions) : Sizes :=
  let ptLen := max opts.payload.length (minPtForSample opts.pnLen)
  ⟨ptLen,Varint.encodedLen (ptLen+16+opts.pnLen)⟩

def totalSize (opts : InitialSealOptions) (sizes : Sizes) : Nat := opts.fixedLen+sizes.lengthVarintSize+sizes.ptLen

/-- The Length field grows first; the padding is what is left. -/
def sizes (opts : InitialSealOptions) : Sizes :=
  let plain := opts.plainSizes
  if opts.totalSize plain < opts.padTo then
    let paddedPt := opts.padTo-opts.fixedLen-plain.lengthVarintSize
    let needed := Varint.encodedLen (paddedPt+16+opts.pnLen)
    if needed > plain.lengthVarintSize then ⟨opts.padTo-opts.fixedLen-needed,needed⟩
    else ⟨paddedPt,plain.lengthVarintSize⟩
  else plain

end InitialSealOptions

def sealInitial (opts : InitialSealOptions) (room : Nat) : Except PacketError (List Byte) :=
  if opts.dcid.length > maxCidLen then .error .dcidTooLong
  else if opts.scid.length > maxCidLen then .error .scidTooLong
  else if opts.keys.suite ≠ .aes128GcmSha256 then .error .unsupportedSuite
  else if opts.pnLen < 1 ∨ opts.pnLen > 4 then .error .invalidPnLength
  else if room < opts.totalSize opts.sizes ∨ opts.sizes.ptLen > stagingLen then .error .outputTooSmall
  else
    match ConnId.fromSlice opts.dcid,ConnId.fromSlice opts.scid with
    | .ok dcid,.ok scid =>
      let header : Initial := {
        version := opts.version.toNat
        dcid := dcid
        scid := scid
        token := opts.token
        pnLength := PnLength.fromBytes opts.pnLen
        pnTruncated := PacketNumber.truncate opts.pn opts.pnLen
        payloadLength := opts.sizes.ptLen+16+opts.pnLen
        payloadLengthBytes := opts.sizes.lengthVarintSize
        reservedBits := opts.reservedBits
        quicBit := opts.quicBit
      }
      match encode (.initial header) room with
      | .error e => .error (.header e)
      | .ok header =>
        sealLongStaged opts.keys opts.pn header opts.pnLen (padded opts.payload opts.sizes.ptLen) room
    | .error e,_ => .error (.header e)
    | _,.error e => .error (.header e)

namespace LongPnSealOptions

def pnLen (opts : LongPnSealOptions) : Nat := opts.pnLengthOverride.getD (PacketNumber.chooseLength opts.pn opts.largestAcked)

def ptLen (opts : LongPnSealOptions) : Nat := max opts.payload.length (minPtForSample opts.pnLen)

def totalSize (opts : LongPnSealOptions) : Nat :=
  1+4+1+opts.dcid.length+1+opts.scid.length+Varint.encodedLen (opts.ptLen+16+opts.pnLen)+opts.pnLen+opts.ptLen+16

end LongPnSealOptions

def sealLongPn (opts : LongPnSealOptions) (kind : PnTailKind) (room : Nat) : Except PacketError (List Byte) :=
  if opts.dcid.length > maxCidLen then .error .dcidTooLong
  else if opts.scid.length > maxCidLen then .error .scidTooLong
  else if opts.pnLen < 1 ∨ opts.pnLen > 4 then .error .invalidPnLength
  else if room < opts.totalSize ∨ opts.ptLen > stagingLen then .error .outputTooSmall
  else
    match ConnId.fromSlice opts.dcid,ConnId.fromSlice opts.scid with
    | .ok dcid,.ok scid =>
      let header : LongPn := {
        version := opts.version.toNat
        dcid := dcid
        scid := scid
        pnLength := PnLength.fromBytes opts.pnLen
        pnTruncated := PacketNumber.truncate opts.pn opts.pnLen
        payloadLength := opts.ptLen+16+opts.pnLen
        reservedBits := 0
        quicBit := opts.quicBit
      }
      match encode (kind.header header) room with
      | .error e => .error (.header e)
      | .ok header => sealLongStaged opts.keys opts.pn header opts.pnLen (padded opts.payload opts.ptLen) room
    | .error e,_ => .error (.header e)
    | _,.error e => .error (.header e)

def sealZeroRtt (opts : LongPnSealOptions) (room : Nat) : Except PacketError (List Byte) := sealLongPn opts .zeroRtt room

def sealHandshake (opts : LongPnSealOptions) (room : Nat) : Except PacketError (List Byte) := sealLongPn opts .handshake room

/-- The token behind its length, which only an Initial packet has. -/
def tokenField (longType : LongType) : Parser Error (List Byte) :=
  if longType = .initial then do Parser.take .insufficientBytes (← Varint.read) else pure []

/-- The walk of `peekPacketLen` behind the first byte: where the packet ends. -/
def peekEnd (total : Nat) (longType : LongType) : Parser Error Nat := do
  let _ ← longCommonSlices total
  let _ ← tokenField longType
  let length ← Varint.read
  let left ← Parser.remaining
  if length > left then Parser.fail .insufficientBytes else pure (total-left+length)

def peekPacketLen (src : List Byte) : Option Nat :=
  match src with
  | [] => none
  | first::rest =>
    if src.length < 5 ∨ first &&& (0x80 : Byte) = 0 then none
    else
      let version := ofBigEndian 0 (rest.take 4)
      let longType := longTypeFromBits version (bitsAt 4 first 4)
      if version = 0 ∨ longType = .retry then none
      else
        match (peekEnd src.length longType).run rest with
        | .error _ => none
        | .ok len => some len

structure LongOpenResult where
  pn : Nat
  payload : List Byte
  bytesConsumed : Nat
  scid : ConnId
  dcid : ConnId
  token : List Byte
  reservedBits : Fin 4
  deriving DecidableEq, Repr

def unexpectedPacketType : LongType → PacketError
  | .initial => .notInitialPacket
  | .zeroRtt => .notZeroRttPacket
  | .handshake => .notHandshakePacket
  | .retry => .notInitialPacket

/-- What stands in front of the packet number. -/
structure Prefix where
  dcid : ConnId
  scid : ConnId
  token : List Byte
  lengthValue : Nat
  pnOffset : Nat
  deriving DecidableEq, Repr

/-- The walk of `openLongHeader` behind the first byte, up to the packet number. -/
def readPrefix (total : Nat) (expectedType : LongType) : Parser Error Prefix := do
  let common ← longCommonSlices total
  let dcid ← Parser.lift (ConnId.fromSlice common.dcid)
  let scid ← Parser.lift (ConnId.fromSlice common.scid)
  let token ← tokenField expectedType
  let lengthValue ← Varint.read
  let left ← Parser.remaining
  pure {dcid := dcid,scid := scid,token := token,lengthValue := lengthValue,pnOffset := total-left}

/-- The checks of `openLongHeader` that leave the input alone. -/
def checkPrefix (src : List Byte) (keys : PacketKeys) (expectedType : LongType) : Except PacketError Prefix :=
  match src with
  | [] => .error (.header .insufficientBytes)
  | first::rest =>
    if src.length < 5 then .error (.header .insufficientBytes)
    else if first &&& (0x80 : Byte) = 0 then .error (unexpectedPacketType expectedType)
    else if longTypeFromBits (ofBigEndian 0 (rest.take 4)) (bitsAt 4 first 4) ≠ expectedType then
      .error (unexpectedPacketType expectedType)
    else if expectedType = .initial ∧ keys.suite ≠ .aes128GcmSha256 then .error .unsupportedSuite
    else
      match (readPrefix src.length expectedType).run rest with
      | .error e => .error (.header e)
      | .ok fields =>
        if fields.lengthValue > src.length-fields.pnOffset then .error .declaredLengthExceedsInput
        else if fields.lengthValue < 4+16 then .error .payloadTooShort
        else if src.length < fields.pnOffset+4+sampleLen then .error .insufficientCiphertext
        else .ok fields

def unmask (src : List Byte) (pnOffset : Nat) (mask : Fixed 5) : Byte × Nat × List Byte :=
  let src := xorAt 0 (firstKey .long mask) src
  let first := src.headD 0
  let pnLen := (first &&& (0x03 : Byte)).toNat+1
  (first,pnLen,xorAt pnOffset (pnKey mask pnLen) src)

/-- The part of `openLongHeader` that works on the unmasked input. -/
def openUnmasked (room : Nat) (src : List Byte) (keys : PacketKeys) (largestReceived : Nat) (expectedType : LongType)
    (fields : Prefix) (first : Byte) (pnLen : Nat) : Except PacketError LongOpenResult :=
  if longTypeFromBits (ofBigEndian 0 ((src.drop 1).take 4)) (bitsAt 4 first 4) ≠ expectedType then
    .error (unexpectedPacketType expectedType)
  else
    match PacketNumber.readTruncated (src.drop fields.pnOffset) pnLen with
    | .error e => .error (.header e)
    | .ok truncated =>
      match PacketNumber.decode truncated pnLen largestReceived with
      | .error e => .error (.header e)
      | .ok none => .error .invalidPnLength
      | .ok (some pn) =>
        let aadLen := fields.pnOffset+pnLen
        match openPayloadWithKeys keys none pn (src.take aadLen)
          ((src.drop aadLen).take (fields.lengthValue-pnLen)) room with
        | .error e => .error e
        | .ok payload => .ok {
            pn := pn
            payload := payload
            bytesConsumed := fields.pnOffset+fields.lengthValue
            scid := fields.scid
            dcid := fields.dcid
            token := fields.token
            reservedBits := bitsAt 4 first 2
          }

/-- The result, and what the call leaves of the input, which it unmasks in place and restores when it fails. -/
def openLongHeader (room : Nat) (src : List Byte) (keys : PacketKeys) (largestReceived : Nat) (expectedType : LongType) :
    Except PacketError LongOpenResult × List Byte :=
  match checkPrefix src keys expectedType with
  | .error e => (.error e,src)
  | .ok fields =>
    match sampleAt src fields.pnOffset with
    | .error e => (.error e,src)
    | .ok sample =>
      let savedByte0 := src.take 1
      let savedPn := (src.drop fields.pnOffset).take 4
      let (first,pnLen,src) := unmask src fields.pnOffset (keys.headerProtectionMask sample)
      match openUnmasked room src keys largestReceived expectedType fields first pnLen with
      | .error e => (.error e,putAt fields.pnOffset savedPn (putAt 0 savedByte0 src))
      | .ok result => (.ok result,src)

def openInitial (room : Nat) (src : List Byte) (keys : PacketKeys) (largestReceived : Nat) :
    Except PacketError LongOpenResult × List Byte :=
  openLongHeader room src keys largestReceived .initial

def openZeroRtt (room : Nat) (src : List Byte) (keys : PacketKeys) (largestReceived : Nat) :
    Except PacketError LongOpenResult × List Byte :=
  openLongHeader room src keys largestReceived .zeroRtt

def openHandshake (room : Nat) (src : List Byte) (keys : PacketKeys) (largestReceived : Nat) :
    Except PacketError LongOpenResult × List Byte :=
  openLongHeader room src keys largestReceived .handshake

end QuicZig.Wire.LongPacket
