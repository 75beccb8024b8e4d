import QuicZig.Frame.RoundTrip

/-! A packet payload is read as one frame after the other. -/
namespace QuicZig.Frame
open Machine Wire

/-- `Iterator.next` until the payload ends or a frame cannot be read. -/
def framesWithin : Nat → List Byte → List QuicZig.Frame × Option Error
  | 0,_ => ([],none)
  | fuel+1,payload =>
    if payload = [] then ([],none)
    else
      match decode payload with
      | .error e => ([],some e)
      | .ok d =>
        let (frames,failed) := framesWithin fuel (payload.drop d.bytesConsumed)
        (d.frame::frames,failed)

def framesOf (payload : List Byte) : List QuicZig.Frame × Option Error := framesWithin payload.length payload

theorem framesWithin_enough {fuel : Nat} {payload : List Byte} (enough : payload.length ≤ fuel) :
    framesWithin fuel payload = framesOf payload := by
  unfold framesOf
  induction fuel using Nat.strong_induction_on generalizing payload with
  | _ fuel ih =>
    cases fuel with
    | zero =>
      rw [List.eq_nil_of_length_eq_zero (Nat.le_zero.mp enough)]
      rfl
    | succ fuel =>
      cases payload with
      | nil => rfl
      | cons first tail =>
        rw [List.length_cons,framesWithin,framesWithin,if_neg (List.cons_ne_nil _ _),if_neg (List.cons_ne_nil _ _)]
        cases read : decode (first::tail) with
        | error e => rfl
        | ok d =>
          obtain ⟨_,_,_,some⟩ := decode_accepts read
          have shorter : ((first::tail).drop d.bytesConsumed).length ≤ tail.length := by
            rw [List.length_drop,List.length_cons]
            omega
          rw [List.length_cons] at enough
          dsimp only
          rw [ih fuel (Nat.lt_succ_self _) (shorter.trans (Nat.le_of_succ_le_succ enough))]
          rcases Nat.eq_or_lt_of_le (Nat.le_of_succ_le_succ enough) with same | less
          · rw [same,ih fuel (Nat.lt_succ_self _) (by omega)]
          · rw [ih tail.length (by omega) shorter]

theorem framesOf_cons {payload : List Byte} {d : Decoded} (read : decode payload = .ok d) :
    framesOf payload = (d.frame::(framesOf (payload.drop d.bytesConsumed)).1,(framesOf (payload.drop d.bytesConsumed)).2) := by
  obtain ⟨_,_,_,some⟩ := decode_accepts read
  cases payload with
  | nil => cases read
  | cons first tail =>
    have shorter : ((first::tail).drop d.bytesConsumed).length ≤ tail.length := by
      rw [List.length_drop,List.length_cons]
      omega
    rw [framesOf,List.length_cons,framesWithin,if_neg (List.cons_ne_nil _ _),read]
    dsimp only
    rw [framesWithin_enough shorter]

def ackEliciting : QuicZig.Frame → Bool
  | .padding _ | .ack _ | .pathAck _ | .connectionClose _ => false
  | _ => true

def isImmediateAckFrame : QuicZig.Frame → Bool
  | .stream f => f.fin
  | .resetStream _ | .stopSending _ | .immediateAck => true
  | _ => false

structure PayloadClassification where
  ackEliciting : Bool := false
  needsImmediateAck : Bool := false
  frameCount : Nat := 0
  deriving DecidableEq, Repr

def classifyFrame (cls : PayloadClassification) (f : QuicZig.Frame) : PayloadClassification :=
  let cls := {cls with frameCount := cls.frameCount+1}
  if ackEliciting f then
    {cls with ackEliciting := true,needsImmediateAck := cls.needsImmediateAck || isImmediateAckFrame f} else cls

/-- A payload that cannot be read to its end counts as one that wants an ACK at once. -/
def classifyPayload (payload : List Byte) : PayloadClassification :=
  let (frames,failed) := framesOf payload
  let cls := frames.foldl classifyFrame {}
  if failed.isSome then {cls with ackEliciting := true,needsImmediateAck := true} else cls

/-- The first CONNECTION_CLOSE that `scanForPeerCloseFrame` finds. -/
def peerCloseFrame (payload : List Byte) : Option ConnectionClose :=
  (framesOf payload).1.findSome? fun
    | .connectionClose cc => some cc
    | _ => none

end QuicZig.Frame
