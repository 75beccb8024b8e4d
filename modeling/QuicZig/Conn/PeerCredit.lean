import QuicZig.Library.HighWater

/-! What a receiver charges a frame of its peer for: the rise above what the stream had
reached, within the limit of the stream and that of the connection. -/
namespace QuicZig.Conn.RecvFlow
open HighWater

inductive Exceeded where
  | stream | conn
  deriving DecidableEq, Repr

def creditPeerStreamHighWater (recvMaxData localMaxData peerSentStreamData oldHighest newEnd : Nat) : Except Exceeded Nat :=
  let newHighest := max oldHighest newEnd
  if newHighest > recvMaxData then .error .stream
  else
    let delta := newHighest-oldHighest
    if delta > 0 ∧ (delta > localMaxData ∨ peerSentStreamData > localMaxData-delta) then .error .conn
    else .ok delta

theorem credit_within {recvMaxData localMaxData peerSent oldHighest newEnd : Nat} (stream : max oldHighest newEnd ≤ recvMaxData)
    (conn : peerSent+(newEnd-oldHighest) ≤ localMaxData) :
    creditPeerStreamHighWater recvMaxData localMaxData peerSent oldHighest newEnd = .ok (newEnd-oldHighest) := by
  have rise : max oldHighest newEnd-oldHighest = newEnd-oldHighest := by omega
  unfold creditPeerStreamHighWater
  dsimp only
  rw [rise,if_neg (not_lt.mpr stream),if_neg (by omega)]

/-- A frame that reaches the receiver: data up to an offset, or a reset with its final size. -/
inductive Arrival where
  | stream (id stop : Nat)
  | reset (id finalSize : Nat)
  deriving DecidableEq, Repr

namespace Arrival

def id : Arrival → Nat
  | .stream id _ | .reset id _ => id

def level : Arrival → Nat
  | .stream _ stop => stop
  | .reset _ finalSize => finalSize

def entry (a : Arrival) : Nat × Nat := (a.id,a.level)

end Arrival

/-- The account of a receiver. A reset is charged, and moves no end offset. -/
structure Account where
  peerSentStreamData : Nat := 0
  ends : List (Nat × Nat) := []
  deriving DecidableEq, Repr

namespace Account

def take (recvMaxData : Nat → Nat) (localMaxData : Nat) (account : Account) (a : Arrival) : Except Exceeded Account :=
  match creditPeerStreamHighWater (recvMaxData a.id) localMaxData account.peerSentStreamData (mark account.ends a.id) a.level with
  | .error e => .error e
  | .ok delta =>
    .ok {
      peerSentStreamData := account.peerSentStreamData+delta
      ends := match a with
        | .stream id stop => (id,stop)::account.ends
        | .reset _ _ => account.ends}

def takeAll (recvMaxData : Nat → Nat) (localMaxData : Nat) (account : Account) : List Arrival → Except Exceeded Account
  | [] => .ok account
  | a::rest =>
    match account.take recvMaxData localMaxData a with
    | .error e => .error e
    | .ok account => account.takeAll recvMaxData localMaxData rest

/-- Nothing of a stream arrives after its reset. -/
def Tidy (arrivals : List Arrival) : Prop :=
  arrivals.Pairwise fun a b => match a with
    | .stream _ _ => True
    | .reset id _ => b.id ≠ id

/-- A receiver takes every frame of a sender whose levels are all within the limits, as long as nothing comes
after a reset. -/
theorem takeAll_within {recvMaxData : Nat → Nat} {localMaxData : Nat} (log : List (Nat × Nat)) (sent : List (Nat × Nat))
    (account : Account) (arrivals : List Arrival) (noted : ∀ entry ∈ log, entry ∈ sent)
    (arrived : ∀ a ∈ arrivals, a.entry ∈ sent) (counted : account.peerSentStreamData = total log)
    (ends : ∀ a ∈ arrivals, mark account.ends a.id = mark log a.id) (tidy : Tidy arrivals)
    (stream : ∀ entry ∈ sent, entry.2 ≤ recvMaxData entry.1) (conn : total sent ≤ localMaxData) :
    ∃ after, account.takeAll recvMaxData localMaxData arrivals = .ok after := by
  induction arrivals generalizing log account with
  | nil => exact ⟨account,rfl⟩
  | cons a rest ih =>
    have here := arrived a List.mem_cons_self
    have known := ends a List.mem_cons_self
    obtain ⟨after,later⟩ := List.pairwise_cons.mp tidy
    have both : ∀ entry ∈ a.entry::log, entry ∈ sent := by
      intro entry member
      rcases List.mem_cons.mp member with rfl | old
      · exact here
      · exact noted entry old
    have whole : total (a.entry::log) ≤ localMaxData := (total_mono both).trans conn
    have rise : total (a.entry::log) = total log+(a.level-mark log a.id) := total_cons a.id a.level log
    have marked : max (mark log a.id) a.level ≤ recvMaxData a.id :=
      max_le (mark_le_iff.mpr fun level noted' => stream _ (noted _ noted')) (stream _ here)
    have inStream : max (mark account.ends a.id) a.level ≤ recvMaxData a.id := known ▸ marked
    have inConn : account.peerSentStreamData+(a.level-mark account.ends a.id) ≤ localMaxData := by
      rw [known,counted]
      omega
    have ok := credit_within inStream inConn
    unfold takeAll take
    rw [ok]
    dsimp only
    refine ih (a.entry::log) _ both (fun next member => arrived next (List.mem_cons_of_mem _ member)) ?_
      (fun next member => ?_) later
    · dsimp only
      rw [known,counted,rise]
    · have before := ends next (List.mem_cons_of_mem _ member)
      have apart := after next member
      cases a with
      | stream id stop =>
        change mark ((id,stop)::account.ends) next.id = mark ((id,stop)::log) next.id
        by_cases same : id = next.id
        · rw [same,mark_same,mark_same,before]
        · rw [mark_other same,mark_other same,before]
      | reset id finalSize =>
        change mark account.ends next.id = mark ((id,finalSize)::log) next.id
        rw [mark_other (Ne.symm apart),before]

end Account
end QuicZig.Conn.RecvFlow
