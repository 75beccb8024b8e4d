import QuicZig.Conn.RangeList
import QuicZig.Frame.Payload
import QuicZig.Library.Ring

/-! The bytes of a ClientHello that comes in pieces: the CRYPTO frames of Initial payloads go to
their place in a buffer, and a table of segments says which bytes are there. -/
namespace QuicZig.Wire.ChReassembler
open Machine QuicZig.Frame

def tlsMsgTypeClientHello : Byte := 0x01

def maxClientHelloBytes : Nat := 4096

def maxSegments : Nat := 16

/-- From `offset` to `stop`, which is the field `end`. -/
abbrev Segment := RangeList.Range

inductive Error where
  | overflow | invalid
  deriving DecidableEq, Repr

structure Reassembler where
  dst : List Byte
  contigEnd : Nat := 0
  declaredLen : Option Nat := none
  segs : List Segment := []

namespace Reassembler

def init (dst : List Byte) : Reassembler := {dst := dst}

def reset (r : Reassembler) : Reassembler := {r with contigEnd := 0,declaredLen := none,segs := []}

def isComplete (r : Reassembler) : Bool :=
  match r.declaredLen with
  | none => false
  | some want => r.contigEnd ≥ want

def overlapsAndDiffers (dst : List Byte) (off : Nat) (data : List Byte) : List Segment → Option Bool
  | [] => some false
  | s::segs =>
    if s.offset ≥ off+data.length ∨ s.stop ≤ off then overlapsAndDiffers dst off data segs
    else
      let ovStart := max s.offset off
      let ovEnd := min s.stop (off+data.length)
      match slice? dst ovStart ovEnd,slice? data (ovStart-off) (ovEnd-off) with
      | some stored,some new => if stored ≠ new then some true else overlapsAndDiffers dst off data segs
      | _,_ => none

def absorb (merged : Segment) : List Segment → Segment × List Segment
  | [] => (merged,[])
  | s::segs => if s.offset ≤ merged.stop then absorb ⟨min s.offset merged.offset,max s.stop merged.stop⟩ segs else (merged,s::segs)

def insertSegment (segs : List Segment) (off stop : Nat) : Except Error (List Segment) :=
  let before := segs.takeWhile (·.stop < off)
  let after := segs.dropWhile (·.stop < off)
  let (merged,rest) := absorb ⟨off,stop⟩ after
  if rest.length = after.length then
    if segs.length ≥ maxSegments then .error .invalid else .ok (before ++ merged::rest)
  else .ok (before ++ merged::rest)

def advanceContig (r : Reassembler) : Reassembler :=
  match r.segs with
  | [] => r
  | s::_ =>
    if s.offset ≠ 0 then r
    else if s.stop > r.contigEnd then {r with contigEnd := s.stop}
    else r

/-- The length that the first bytes of a handshake message declare, with that of its header. -/
def declaredLength (b1 b2 b3 : Byte) : Nat := ((b1.toNat <<< 16) ||| (b2.toNat <<< 8) ||| b3.toNat)+4

def lockDeclared (r : Reassembler) : Option (Except Error Unit × Reassembler) :=
  if r.declaredLen = none ∧ r.contigEnd ≥ 4 then
    match r.dst with
    | b0::b1::b2::b3::_ =>
      if b0 ≠ tlsMsgTypeClientHello then some (.error .invalid,r)
      else if declaredLength b1 b2 b3 > r.dst.length then some (.error .overflow,r)
      else some (.ok (),{r with declaredLen := some (declaredLength b1 b2 b3)})
    | _ => none
  else some (.ok (),r)

/-- The `.crypto` arm of the loop of `feed`. -/
def acceptCrypto (r : Reassembler) (cr : Crypto) : Option (Except Error Unit × Reassembler) :=
  if cr.data.length = 0 then some (.ok (),r)
  else if cr.offset+cr.data.length > maxU64 then some (.error .overflow,r)
  else if cr.offset+cr.data.length > r.dst.length then some (.error .overflow,r)
  else
    match overlapsAndDiffers r.dst cr.offset cr.data r.segs with
    | none => none
    | some true => some (.error .invalid,r)
    | some false =>
      let r := {r with dst := Ring.store r.dst cr.offset cr.data}
      match insertSegment r.segs cr.offset (cr.offset+cr.data.length) with
      | .error e => some (.error e,r)
      | .ok segs => ({r with segs := segs} : Reassembler).advanceContig.lockDeclared

def acceptFrame (r : Reassembler) (f : QuicZig.Frame) : Option (Except Error Unit × Reassembler) :=
  match f with
  | .crypto cr => r.acceptCrypto cr
  | .padding _ | .ping | .ack _ | .pathAck _ => some (.ok (),r)
  | _ => some (.error .invalid,r)

/-- The loop of `feed`; a frame has one byte at least. -/
def walk : Nat → List Byte → Reassembler → Option (Except Error Unit × Reassembler)
  | 0,_,r => some (.ok (),r)
  | fuel+1,payload,r =>
    if payload = [] then some (.ok (),r)
    else
      match decode payload with
      | .error _ => some (.error .invalid,r)
      | .ok decoded =>
        match r.acceptFrame decoded.frame with
        | none => none
        | some (.error e,r) => some (.error e,r)
        | some (.ok (),r) => walk fuel (payload.drop decoded.bytesConsumed) r

def feed (r : Reassembler) (payload : List Byte) : Option (Except Error (Option (List Byte)) × Reassembler) :=
  if r.dst.length < maxClientHelloBytes then some (.error .overflow,r)
  else
    match walk payload.length payload r with
    | none => none
    | some (.error e,r) => some (.error e,r)
    | some (.ok (),r) =>
      if r.isComplete then
        match r.declaredLen with
        | none => none
        | some want =>
          match slice? r.dst 0 want with
          | none => none
          | some clientHello => some (.ok (some clientHello),r)
      else some (.ok none,r)

end Reassembler
end QuicZig.Wire.ChReassembler
