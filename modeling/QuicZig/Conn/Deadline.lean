import QuicZig.Conn.RecvPacket

/-! The deadlines that a connection reports. -/
namespace QuicZig.Conn

inductive TimerKind where
  | ackDelay
  | lossDetection
  | pto
  | idle
  | handshakeTimeout
  | pacing
  | streamGc
  | closing
  | draining
  | pathRetirement
  | keyDiscard
  deriving DecidableEq, Repr

structure TimerDeadline where
  kind : TimerKind
  atUs : Nat
  level : Option EncryptionLevel := none
  pathId : Nat := 0
  deriving DecidableEq, Repr

/-- The earlier of the two; the first that came stays on a tie. -/
def considerDeadline (best : Option TimerDeadline) (candidate : TimerDeadline) : Option TimerDeadline :=
  match best with
  | none => some candidate
  | some b => if candidate.atUs < b.atUs then some candidate else some b

end QuicZig.Conn
