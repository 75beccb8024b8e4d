import QuicZig.Conn.Clock
import QuicZig.Library.Ring

/-! The memory of the packets that were declared lost, and the loss thresholds that it widens.
The records lie in a ring of fixed size; a record whose packet arrived after all becomes a
tombstone, and a full ring overwrites its oldest record. -/
namespace QuicZig.Conn.Reorder
open Machine
open Clock (RttEstimator granularityUs)
open Clock.Space (widestThresholdUs)

def initialPacketThreshold : Nat := 3
def maxPacketThreshold : Nat := 4096
def initialTimeShift : Nat := 3
def ringSlots : Nat := 256
def decayAfterRounds : Nat := 16

def tombstonePn : Nat := maxU64

structure LostRecord where
  pn : Nat
  sentTimeUs : Nat
  episode : Nat := 0
  settled : Bool := false
  deriving DecidableEq, Inhabited

/-- The fields of the window that are not the ring. -/
structure Thresholds where
  packetThreshold : Nat := initialPacketThreshold
  timeShift : Nat := initialTimeShift
  spuriousCount : Nat := 0
  cleanRounds : Nat := 0
  lastCountedSentUs : Option Nat := none
  lastSpuriousSentUs : Option Nat := none
  decays : Nat := 0
  deriving DecidableEq

def referenceRtt (rtt : RttEstimator) : Nat := max rtt.latestRttUs rtt.smoothedRttUs

namespace Thresholds

def timeThresholdUs (t : Thresholds) (rtt : RttEstimator) : Nat :=
  if t.timeShift = 0 then max (widestThresholdUs rtt) granularityUs
  else max (saturatingAdd (referenceRtt rtt) (referenceRtt rtt/2^t.timeShift)) granularityUs

/-- The loop of `widen`: the first width, from `shift` on, that covers `needed`. -/
def widenShift (reference needed : Nat) : Nat → Nat
  | 0 => 0
  | shift+1 => if saturatingAdd reference (reference/2^(shift+1)) < needed then widenShift reference needed shift else shift+1

/-- The largest acknowledged number before the ACK is passed and not looked at. -/
def widen (t : Thresholds) (rec : LostRecord) (_previousLargestAcked : Option Nat) (nowUs : Nat) (rtt : RttEstimator) : Thresholds :=
  let t := {t with
    spuriousCount := t.spuriousCount+1
    cleanRounds := 0
    lastSpuriousSentUs := some rec.sentTimeUs}
  let needed := nowUs-rec.sentTimeUs
  if needed > widestThresholdUs rtt then t
  else {t with
    packetThreshold := maxPacketThreshold
    timeShift := widenShift (referenceRtt rtt) needed t.timeShift}

/-- A settled loss counts as a round of its own: no spurious hit is within a round trip of it, and
the last loss that counted is a round trip back. -/
def counts (t : Thresholds) (sentTimeUs reference : Nat) : Bool :=
  let reordered := match t.lastSpuriousSentUs with
    | some sp => decide (sentTimeUs ≤ saturatingAdd sp reference ∧ sp ≤ saturatingAdd sentTimeUs reference)
    | none => false
  let sameRound := match t.lastCountedSentUs with
    | some lc => decide (sentTimeUs < saturatingAdd lc reference)
    | none => false
  !reordered && !sameRound

/-- The round completes the required number while the thresholds are wider than at the start. -/
def decaysNow (t : Thresholds) : Bool :=
  decide (t.cleanRounds+1 ≥ decayAfterRounds ∧
    ¬ (t.packetThreshold = initialPacketThreshold ∧ t.timeShift = initialTimeShift))

def countRound (t : Thresholds) (sentTimeUs : Nat) : Thresholds :=
  let t := {t with
    lastCountedSentUs := some sentTimeUs
    cleanRounds := t.cleanRounds+1}
  if t.cleanRounds ≥ decayAfterRounds then
    let t := {t with cleanRounds := 0}
    if t.packetThreshold = initialPacketThreshold ∧ t.timeShift = initialTimeShift then t
    else {t with
      packetThreshold := initialPacketThreshold
      timeShift := initialTimeShift
      decays := t.decays+1}
  else t

/-- What `settle` does once a record is settled. -/
def count (t : Thresholds) (sentTimeUs reference : Nat) : Thresholds :=
  if t.counts sentTimeUs reference then t.countRound sentTimeUs else t

end Thresholds

/-- `records` is empty until the ring is allocated; `head` is the oldest of `len` records. -/
structure ReorderWindow extends Thresholds where
  records : List LostRecord := []
  head : Nat := 0
  len : Nat := 0
  live : Nat := 0

/-- What the allocator hands out: a block whose cells are not initialised. -/
abbrev Block := {cells : List LostRecord // cells.length = ringSlots}

namespace ReorderWindow

def «at» (w : ReorderWindow) (i : Nat) : LostRecord := Ring.peek w.records w.head i

def update (w : ReorderWindow) (i : Nat) (change : LostRecord → LostRecord) : ReorderWindow :=
  {w with records := w.records.set (Ring.slot w.records.length w.head i) (change (w.at i))}

def alloc (block : Option Block) (w : ReorderWindow) : Option ReorderWindow :=
  if w.records.length = 0 then block.map fun cells => {w with records := cells.val} else some w

/-- A full ring gives up its oldest record. -/
def makeRoom (w : ReorderWindow) : ReorderWindow :=
  if w.len = w.records.length then
    {w with
      live := if (w.at 0).pn ≠ tombstonePn then w.live-1 else w.live
      head := (w.head+1)%w.records.length
      len := w.len-1}
  else w

def push (w : ReorderWindow) (pn sentTimeUs : Nat) : ReorderWindow :=
  {w with
    records := w.records.set (Ring.slot w.records.length w.head w.len) {pn := pn,sentTimeUs := sentTimeUs}
    len := w.len+1
    live := w.live+1}

def remember (block : Option Block) (w : ReorderWindow) (pn sentTimeUs : Nat) : ReorderWindow :=
  match w.alloc block with
  | none => w
  | some w => w.makeRoom.push pn sentTimeUs

/-- The loop of `stampLast`, with `i` records to go. -/
def stampLoop (episode : Nat) : Nat → ReorderWindow → ReorderWindow
  | 0,w => w
  | i+1,w => stampLoop episode i (w.update (w.len-(i+1)) fun rec => {rec with episode := episode})

def stampLast (w : ReorderWindow) (n episode : Nat) : ReorderWindow :=
  if w.records.length = 0 then w else stampLoop episode (min n w.len) w

/-- A record becomes a tombstone, and the callback has its say. -/
def bury (w : ReorderWindow) (i : Nat) (thresholds : Thresholds) : ReorderWindow :=
  {w.update i fun rec => {rec with pn := tombstonePn} with
    live := w.live-1
    toThresholds := thresholds}

/-- The loop of `takeCovered`, at index `i` with `todo` records to go: the records that the callback is
told, in order, and the window. The callback moves thresholds, not the ring. -/
def takeLoop (callback : Thresholds → LostRecord → Thresholds) (smallest largest : Nat) :
    Nat → Nat → ReorderWindow → List LostRecord × ReorderWindow
  | 0,_,w => ([],w)
  | todo+1,i,w =>
    let lost := w.at i
    if lost.pn = tombstonePn then takeLoop callback smallest largest todo (i+1) w
    else if lost.pn < smallest ∨ lost.pn > largest then takeLoop callback smallest largest todo (i+1) w
    else
      let (found,w) := takeLoop callback smallest largest todo (i+1) (w.bury i (callback w.toThresholds lost))
      (lost::found,w)

def takeCovered (callback : Thresholds → LostRecord → Thresholds) (w : ReorderWindow) (smallest largest : Nat) :
    List LostRecord × ReorderWindow :=
  if w.live = 0 then ([],w)
  else
    let (found,w) := takeLoop callback smallest largest w.len 0 w
    (found,if w.live = 0 then {w with head := 0,len := 0} else w)

/-- A record is settled, and may count as a round. -/
def mark (w : ReorderWindow) (i : Nat) (thresholds : Thresholds) : ReorderWindow :=
  {w.update i fun rec => {rec with settled := true} with toThresholds := thresholds}

/-- The loop of `settle`, at index `i` with `todo` records to go. -/
def settleLoop (nowUs reach reference : Nat) : Nat → Nat → ReorderWindow → ReorderWindow
  | 0,_,w => w
  | todo+1,i,w =>
    let lost := w.at i
    if lost.pn = tombstonePn ∨ lost.settled = true then settleLoop nowUs reach reference todo (i+1) w
    else if nowUs-lost.sentTimeUs ≤ reach then w
    else settleLoop nowUs reach reference todo (i+1) (w.mark i (w.toThresholds.count lost.sentTimeUs reference))

def settle (w : ReorderWindow) (nowUs : Nat) (rtt : RttEstimator) : ReorderWindow :=
  if w.live = 0 then w else settleLoop nowUs (widestThresholdUs rtt) (referenceRtt rtt) w.len 0 w

def release (w : ReorderWindow) : ReorderWindow :=
  {w with
    records := []
    head := 0
    len := 0
    live := 0}

def contents (w : ReorderWindow) : List LostRecord := Ring.window w.records w.head w.len

/-- The ring is allocated and holds `list`. -/
structure Shows (w : ReorderWindow) (list : List LostRecord) : Prop where
  contents : w.contents = list
  size : w.records.length = ringSlots
  head : w.head < ringSlots
  len : w.len ≤ ringSlots

variable {w : ReorderWindow} {list : List LostRecord}

theorem Shows.length (shows : Shows w list) : list.length = w.len := by
  rw [← shows.contents]
  exact Ring.length_window _ _ _

theorem Shows.at_eq {first rest : List LostRecord} {rec : LostRecord} (shows : Shows w (first ++ rec::rest)) :
    w.at first.length = rec := by
  have bound : first.length < w.len := by
    rw [← shows.length]
    simp
  have here : w.contents[first.length]? = some (w.at first.length) := Ring.getElem?_window _ _ _ _ bound
  rw [shows.contents,List.getElem?_append_right (Nat.le_refl _),Nat.sub_self] at here
  exact (Option.some.inj here).symm

theorem Shows.update {first rest : List LostRecord} {rec : LostRecord} (shows : Shows w (first ++ rec::rest))
    (change : LostRecord → LostRecord) : Shows (w.update first.length change) (first ++ change rec::rest) := by
  have bound : first.length < w.len := by
    rw [← shows.length]
    simp
  refine ⟨?_,?_,shows.head,shows.len⟩
  · have written : (w.update first.length change).contents = w.contents.set first.length (change (w.at first.length)) :=
      Ring.window_set _ _ _ _ _ (by rw [shows.size]; exact Nat.lt_of_lt_of_le bound shows.len)
        (by rw [shows.size]; exact shows.len)
    rw [written,shows.contents,shows.at_eq,List.set_append_right _ _ (Nat.le_refl _),Nat.sub_self,List.set_cons_zero]
  · unfold ReorderWindow.update
    rw [List.length_set]
    exact shows.size

theorem Shows.bury {first rest : List LostRecord} {rec : LostRecord} (shows : Shows w (first ++ rec::rest))
    (thresholds : Thresholds) : Shows (w.bury first.length thresholds) (first ++ {rec with pn := tombstonePn}::rest) :=
  have ring := shows.update fun rec => {rec with pn := tombstonePn}
  ⟨ring.contents,ring.size,ring.head,ring.len⟩

theorem Shows.mark {first rest : List LostRecord} {rec : LostRecord} (shows : Shows w (first ++ rec::rest))
    (thresholds : Thresholds) : Shows (w.mark first.length thresholds) (first ++ {rec with settled := true}::rest) :=
  have ring := shows.update fun rec => {rec with settled := true}
  ⟨ring.contents,ring.size,ring.head,ring.len⟩

theorem Shows.makeRoom (shows : Shows w list) : Shows w.makeRoom (list.drop (list.length+1-ringSlots)) ∧ w.makeRoom.len < ringSlots := by
  have length := shows.length
  have size := shows.size
  have len := shows.len
  unfold ReorderWindow.makeRoom
  split
  · rename_i full
    have one : list.length+1-ringSlots = 1 := by omega
    refine ⟨⟨?_,size,?_,by dsimp only; omega⟩,by dsimp only; unfold ringSlots at *; omega⟩
    · rw [one,← shows.contents]
      exact (Ring.drop_window _ _ _ _).symm
    · change (w.head+1)%w.records.length < ringSlots
      rw [size]
      exact Nat.mod_lt _ (by decide)
  · have none : list.length+1-ringSlots = 0 := by omega
    rw [none,List.drop_zero]
    exact ⟨shows,by omega⟩

theorem Shows.push (shows : Shows w list) (room : w.len < ringSlots) (pn sentTimeUs : Nat) :
    Shows (w.push pn sentTimeUs) (list ++ [{pn := pn,sentTimeUs := sentTimeUs}]) := by
  refine ⟨?_,?_,shows.head,room⟩
  · rw [← shows.contents]
    exact Ring.window_push _ _ _ _ (by rw [shows.size]; exact room)
  · unfold ReorderWindow.push
    dsimp only
    rw [List.length_set]
    exact shows.size

theorem stampLoop_shows (episode : Nat) {first todo : List LostRecord} (shows : Shows w (first ++ todo)) :
    Shows (stampLoop episode todo.length w) (first ++ todo.map fun rec => {rec with episode := episode}) ∧
      (stampLoop episode todo.length w).toThresholds = w.toThresholds ∧ (stampLoop episode todo.length w).live = w.live := by
  induction todo generalizing w first with
  | nil => exact ⟨shows,rfl,rfl⟩
  | cons rec rest ih =>
    have index : w.len-(rest.length+1) = first.length := by
      have length := shows.length
      rw [List.length_append,List.length_cons] at length
      omega
    have next := shows.update fun rec => {rec with episode := episode}
    rw [List.append_cons] at next
    obtain ⟨all,thresholds,live⟩ := ih next
    rw [List.length_cons,stampLoop,index]
    rw [List.append_assoc] at all
    exact ⟨all,thresholds,live⟩

end ReorderWindow
end QuicZig.Conn.Reorder
