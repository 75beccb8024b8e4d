import QuicZig.Wire.Protection

/-! 1-RTT packets: a short header, no length, and a receiver that leaves its input alone. -/
namespace QuicZig.Wire.ShortPacket
open Machine BigEndian Codec Keystream Protection Header

/-- The size of the buffer that a padded plaintext is staged in. -/
def stagingLen : Nat := 2048

structure SealOptions where
  dcid : List Byte
  pn : Nat
  largestAcked : Option Nat := none
  payload : List Byte
  keys : PacketKeys
  pnLengthOverride : Option Nat := none
  spinBit : Bool := false
  keyPhase : Bool := false
  reservedBits : Fin 4 := 0
  quicBit : Fin 2 := 1
  multipathPathId : Option Nat := none
  padTo : Nat := 0

namespace SealOptions

def pnLen (opts : SealOptions) : Nat := opts.pnLengthOverride.getD (PacketNumber.chooseLength opts.pn opts.largestAcked)

def fixedOverhead (opts : SealOptions) : Nat := 1+opts.dcid.length+opts.pnLen+16

/-- The length of the plaintext without padding. -/
def plainLen (opts : SealOptions) : Nat := max opts.payload.length (if opts.pnLen < 4 then 4-opts.pnLen else 0)

def ptLen (opts : SealOptions) : Nat :=
  if opts.padTo > opts.fixedOverhead then max opts.plainLen (opts.padTo-opts.fixedOverhead) else opts.plainLen

end SealOptions

/-- `none` is the assertion that a padded plaintext fits the staging buffer. -/
def stagePadded (payload : List Byte) (ptLen : Nat) : Option (List Byte) :=
  if ptLen ≤ stagingLen then some (padded payload ptLen) else none

def sealStaged (opts : SealOptions) (header plain : List Byte) (room : Nat) : Except PacketError (List Byte) :=
  sealBehind .short opts.keys opts.multipathPathId opts.pn header opts.pnLen plain room

/-- `ok none` is a failed assertion, which traps. -/
def seal1Rtt (opts : SealOptions) (room : Nat) : Except PacketError (Option (List Byte)) :=
  if opts.dcid.length > maxCidLen then .error .dcidTooLong
  else if opts.pnLen < 1 ∨ opts.pnLen > 4 then .error .invalidPnLength
  else if room < 1+opts.dcid.length+opts.pnLen+opts.ptLen+16 then .error .outputTooSmall
  else
    match ConnId.fromSlice opts.dcid with
    | .error e => .error (.header e)
    | .ok dcid =>
      let header : OneRtt := {
        dcid := dcid
        spinBit := opts.spinBit
        reservedBits := opts.reservedBits
        keyPhase := opts.keyPhase
        pnLength := PnLength.fromBytes opts.pnLen
        pnTruncated := PacketNumber.truncate opts.pn opts.pnLen
        quicBit := opts.quicBit
      }
      match encode (.oneRtt header) room with
      | .error e => .error (.header e)
      | .ok header =>
        if opts.ptLen = opts.payload.length then (sealStaged opts header opts.payload room).map some
        else
          match stagePadded opts.payload opts.ptLen with
          | none => .ok none
          | some plain => (sealStaged opts header plain room).map some

structure OpenOptions where
  dcidLen : Nat
  keys : PacketKeys
  largestReceived : Nat := 0
  multipathPathId : Option Nat := none
  mask : Option (Fixed 5) := none

structure Open1RttResult where
  pn : Nat
  keyPhase : Bool
  payload : List Byte
  reservedBits : Fin 4
  deriving DecidableEq, Repr

def unmaskCopies (src : List Byte) (pnOffset : Nat) (mask : Fixed 5) : Byte × Nat × List Byte :=
  let first := (xorAt 0 (firstKey .short mask) (src.take 1)).headD 0
  let pnLen := (first &&& (0x03 : Byte)).toNat+1
  (first,pnLen,xorAt 0 (pnKey mask pnLen) ((src.drop pnOffset).take pnLen))

/-- The source is read and never written. -/
def open1Rtt (room : Nat) (src : List Byte) (opts : OpenOptions) : Except PacketError Open1RttResult :=
  match src with
  | [] => .error .notShortHeader
  | byte0::_ =>
    if byte0 &&& (0x80 : Byte) ≠ 0 then .error .notShortHeader
    else if opts.dcidLen > maxCidLen then .error .dcidTooLong
    else
      let pnOffset := 1+opts.dcidLen
      if src.length < pnOffset+4+sampleLen then .error .insufficientCiphertext
      else
        match sampleAt src pnOffset with
        | .error e => .error e
        | .ok sample =>
          let mask := opts.mask.getD (opts.keys.headerProtectionMask sample)
          let (first,pnLen,pnBytes) := unmaskCopies src pnOffset mask
          match PacketNumber.readTruncated pnBytes pnLen with
          | .error e => .error (.header e)
          | .ok truncated =>
            match PacketNumber.decode truncated pnLen opts.largestReceived with
            | .error e => .error (.header e)
            | .ok none => .error .invalidPnLength
            | .ok (some pn) =>
              let aad := first::((src.drop 1).take opts.dcidLen++pnBytes)
              match openPayloadWithKeys opts.keys opts.multipathPathId pn aad (src.drop (pnOffset+pnLen)) room with
              | .error e => .error e
              | .ok payload => .ok {
                  pn := pn
                  keyPhase := first &&& (0x04 : Byte) ≠ 0
                  payload := payload
                  reservedBits := bitsAt 4 first 3
                }

end QuicZig.Wire.ShortPacket
