import QuicZig.Frame.Types
import Mathlib.Data.List.Chain

/-! The ranges of an ACK frame: a first interval below the largest packet
number, then one pair of a gap and a length for each step down. -/
namespace QuicZig.Frame
open Machine Codec Wire

/-- Acknowledged packet numbers, both ends included. -/
structure Interval where
  smallest : Nat
  largest : Nat
  deriving DecidableEq, Repr

/-- A walk down the intervals of an ACK frame. -/
structure Iterator where
  largestAcked : Nat
  firstRange : Nat
  rangeCount : Nat
  rangesBytes : List Byte
  pos : Nat := 0
  nextRangeIndex : Nat := 0
  /-- The lower end of the interval that `next` returned last. -/
  lastSmallest : Nat := 0
  firstEmitted : Bool := false
  deriving DecidableEq, Repr

def iter (ack : Ack) : Iterator := {
  largestAcked := ack.largestAcked
  firstRange := ack.firstRange
  rangeCount := ack.rangeCount
  rangesBytes := ack.rangesBytes
}

namespace Iterator

def nextFirst (self : Iterator) : Except Error (Option Interval) × Iterator :=
  if self.firstRange > self.largestAcked then (.error .invalidLength,{self with firstEmitted := true})
  else
    let interval : Interval := {smallest := self.largestAcked-self.firstRange,largest := self.largestAcked}
    (.ok (some interval),{self with firstEmitted := true,lastSmallest := interval.smallest})

/-- The iterator has moved over what it read, also when `next` fails. -/
def next (self : Iterator) : Except Error (Option Interval) × Iterator :=
  if self.firstEmitted = false then self.nextFirst
  else if self.nextRangeIndex ≥ self.rangeCount then (.ok none,self)
  else
    match Varint.decode (self.rangesBytes.drop self.pos) with
    | .error e => (.error e,self)
    | .ok gap =>
      let afterGap := {self with pos := self.pos+gap.bytesRead}
      match Varint.decode (self.rangesBytes.drop afterGap.pos) with
      | .error e => (.error e,afterGap)
      | .ok length =>
        let moved := {self with pos := afterGap.pos+length.bytesRead}
        if self.lastSmallest < gap.value+2 then (.error .invalidLength,moved)
        else if self.lastSmallest-gap.value-2 < length.value then (.error .invalidLength,moved)
        else
          let largestInThis := self.lastSmallest-gap.value-2
          let smallestInThis := largestInThis-length.value
          (.ok (some {smallest := smallestInThis,largest := largestInThis}),
            {moved with lastSmallest := smallestInThis,nextRangeIndex := self.nextRangeIndex+1})

end Iterator

def writeRanges (ranges : List AckRange) : Writer Error :=
  .all (ranges.flatMap fun r => [Varint.encode r.gap,Varint.encode r.length])

def rangesEncodedLen (ranges : List AckRange) : Nat :=
  (ranges.map fun r => Varint.encodedLen r.gap+Varint.encodedLen r.length).sum

inductive SpellsPairs : List AckRange → List Byte → Prop
  | nil : SpellsPairs [] []
  | cons {r : AckRange} {pairs : List AckRange} {gap length bytes : List Byte} (spellsGap : Varint.Spells gap r.gap)
      (spellsLength : Varint.Spells length r.length) (spells : SpellsPairs pairs bytes) :
      SpellsPairs (r::pairs) (gap ++ (length ++ bytes))

/-- The steps down from `cursor` stay above zero. -/
def Descends : Nat → List AckRange → Prop
  | _,[] => True
  | cursor,r::pairs => r.gap+2+r.length ≤ cursor ∧ Descends (cursor-(r.gap+2+r.length)) pairs

instance decidableDescends : (cursor : Nat) → (pairs : List AckRange) → Decidable (Descends cursor pairs)
  | _,[] => .isTrue trivial
  | cursor,r::pairs =>
    have := decidableDescends (cursor-(r.gap+2+r.length)) pairs
    inferInstanceAs (Decidable (r.gap+2+r.length ≤ cursor ∧ Descends (cursor-(r.gap+2+r.length)) pairs))

def intervalsBelow : Nat → List AckRange → List Interval
  | _,[] => []
  | cursor,r::pairs => {smallest := cursor-(r.gap+2+r.length),largest := cursor-(r.gap+2)}::
      intervalsBelow (cursor-(r.gap+2+r.length)) pairs

/-- The lower interval leaves out a packet number at least. -/
def Above (upper lower : Interval) : Prop := lower.largest+2 ≤ upper.smallest

theorem intervalsBelow_down (pairs : List AckRange) (cursor : Nat) (down : Descends cursor pairs) :
    (intervalsBelow cursor pairs).IsChain Above ∧ (∀ i ∈ intervalsBelow cursor pairs, i.smallest ≤ i.largest) ∧
      ∀ i ∈ (intervalsBelow cursor pairs).head?, i.largest+2 ≤ cursor := by
  induction pairs generalizing cursor with
  | nil => simp [intervalsBelow]
  | cons r pairs ih =>
    obtain ⟨above,down⟩ := down
    obtain ⟨chain,proper,below⟩ := ih _ down
    refine ⟨chain.cons below,?_,?_⟩
    · intro i member
      cases member with
      | head =>
        dsimp only
        omega
      | tail _ member => exact proper i member
    · intro i isHead
      cases isHead
      dsimp only
      omega

namespace Iterator

/-- What a call behind the first interval has read and done. -/
structure Steps (before : Iterator) (interval : Interval) (after : Iterator) (r : AckRange) (gap length : List Byte) : Prop where
  spellsGap : Varint.Spells gap r.gap
  spellsLength : Varint.Spells length r.length
  bytes : before.rangesBytes.drop before.pos = gap ++ (length ++ before.rangesBytes.drop after.pos)
  above : r.gap+2+r.length ≤ before.lastSmallest
  yields : interval = {smallest := before.lastSmallest-(r.gap+2+r.length),largest := before.lastSmallest-(r.gap+2)}
  more : before.nextRangeIndex < before.rangeCount
  moves : after = {before with
    pos := before.pos+gap.length+length.length
    lastSmallest := interval.smallest
    nextRangeIndex := before.nextRangeIndex+1}

theorem next_steps {it later : Iterator} {interval : Interval} (emitted : it.firstEmitted = true)
    (ok : it.next = (.ok (some interval),later)) : ∃ r gap length, Steps it interval later r gap length := by
  unfold next at ok
  rw [emitted,if_neg (by decide)] at ok
  split at ok
  · cases ok
  rename_i more
  split at ok
  · cases ok
  rename_i gap here
  dsimp only at ok
  split at ok
  · cases ok
  rename_i length there
  obtain ⟨gapBytes,rest,split,gapLength,spellsGap⟩ := Varint.decode_spells here
  have afterGap : it.rangesBytes.drop (it.pos+gap.bytesRead) = rest := by
    rw [← List.drop_drop,split,List.drop_left' gapLength]
  rw [afterGap] at there
  obtain ⟨lengthBytes,others,rfl,lengthLength,spellsLength⟩ := Varint.decode_spells there
  have afterBoth : it.rangesBytes.drop (it.pos+gap.bytesRead+length.bytesRead) = others := by
    rw [← List.drop_drop,afterGap,List.drop_left' lengthLength]
  split at ok
  · cases ok
  split at ok
  · cases ok
  rename_i gapFits lengthFits
  have upper : it.lastSmallest-gap.value-2 = it.lastSmallest-(gap.value+2) := Nat.sub_sub _ _ _
  have lower : it.lastSmallest-(gap.value+2)-length.value = it.lastSmallest-(gap.value+2+length.value) :=
    Nat.sub_sub _ _ _
  rw [upper,lower] at ok
  cases ok
  refine ⟨{gap := gap.value,length := length.value},gapBytes,lengthBytes,spellsGap,spellsLength,?_,?_,rfl,by omega,?_⟩
  · rw [afterBoth,split]
  · dsimp only
    omega
  · rw [gapLength,lengthLength,emitted]

/-- How many intervals are still to come at most. -/
def left (self : Iterator) : Nat := (if self.firstEmitted then 0 else 1)+(self.rangeCount-self.nextRangeIndex)

theorem left_next {it later : Iterator} {interval : Interval} (ok : it.next = (.ok (some interval),later)) :
    later.left < it.left := by
  cases emitted : it.firstEmitted with
  | false =>
    unfold next nextFirst at ok
    rw [if_pos emitted] at ok
    split at ok
    · cases ok
    · cases ok
      simp [left,emitted]
  | true =>
    obtain ⟨r,gap,length,steps⟩ := next_steps emitted ok
    have more := steps.more
    rw [steps.moves]
    simp only [left,emitted]
    omega

/-- The intervals that repeated calls of `next` yield, and the error they end with, if any. -/
def walk (self : Iterator) : List Interval × Option Error :=
  match _step : self.next with
  | (.error e,_) => ([],some e)
  | (.ok none,_) => ([],none)
  | (.ok (some interval),later) => (interval::later.walk.1,later.walk.2)
termination_by self.left
decreasing_by exact left_next _step

theorem walk_some {self later : Iterator} {interval : Interval} (step : self.next = (.ok (some interval),later)) :
    self.walk = (interval::later.walk.1,later.walk.2) := by
  rw [walk]
  split
  · rename_i other
    rw [step] at other
    cases other
  · rename_i other
    rw [step] at other
    cases other
  · rename_i other
    rw [step] at other
    cases other
    rfl

theorem walk_error {self later : Iterator} {e : Error} (step : self.next = (.error e,later)) : self.walk = ([],some e) := by
  rw [walk]
  split
  · rename_i other
    rw [step] at other
    cases other
    rfl
  · rename_i other
    rw [step] at other
    cases other
  · rename_i other
    rw [step] at other
    cases other

theorem walk_none {self later : Iterator} (step : self.next = (.ok none,later)) : self.walk = ([],none) := by
  rw [walk]
  split
  · rename_i other
    rw [step] at other
    cases other
  · rfl
  · rename_i other
    rw [step] at other
    cases other

structure Stands (it : Iterator) (cursor : Nat) (pairs : List AckRange) (bytes : List Byte) : Prop where
  emitted : it.firstEmitted = true
  reference : it.lastSmallest = cursor
  count : it.nextRangeIndex+pairs.length = it.rangeCount
  bytes : it.rangesBytes.drop it.pos = bytes

theorem next_pair {it : Iterator} {cursor : Nat} {r : AckRange} {pairs : List AckRange} {gap length bytes : List Byte}
    (stands : Stands it cursor (r::pairs) (gap ++ (length ++ bytes))) (spellsGap : Varint.Spells gap r.gap)
    (spellsLength : Varint.Spells length r.length) (above : r.gap+2+r.length ≤ cursor) : ∃ later,
    it.next = (.ok (some {smallest := cursor-(r.gap+2+r.length),largest := cursor-(r.gap+2)}),later) ∧
      Stands later (cursor-(r.gap+2+r.length)) pairs bytes := by
  obtain ⟨emitted,rfl,count,here⟩ := stands
  rw [List.length_cons] at count
  have afterGap : it.rangesBytes.drop (it.pos+gap.length) = length ++ bytes := by
    rw [← List.drop_drop,here,List.drop_left' rfl]
  unfold next
  rw [emitted,if_neg (by decide),if_neg (by omega),here,spellsGap.decodes]
  dsimp only
  rw [afterGap,spellsLength.decodes]
  dsimp only
  rw [if_neg (by omega),if_neg (by omega)]
  have upper : it.lastSmallest-r.gap-2 = it.lastSmallest-(r.gap+2) := Nat.sub_sub _ _ _
  have lower : it.lastSmallest-(r.gap+2)-r.length = it.lastSmallest-(r.gap+2+r.length) := Nat.sub_sub _ _ _
  rw [upper,lower]
  refine ⟨_,rfl,rfl,rfl,?_,?_⟩
  · dsimp only
    omega
  · dsimp only
    rw [← List.drop_drop,afterGap,List.drop_left' rfl]

theorem walk_pairs {pairs : List AckRange} {bytes : List Byte} (spells : SpellsPairs pairs bytes) (it : Iterator) (cursor : Nat)
    (stands : Stands it cursor pairs bytes) (down : Descends cursor pairs) : it.walk = (intervalsBelow cursor pairs,none) := by
  induction spells generalizing it cursor with
  | nil =>
    obtain ⟨emitted,_,count,_⟩ := stands
    rw [List.length_nil] at count
    have step : it.next = (.ok none,it) := by
      unfold next
      rw [emitted,if_neg (by decide),if_pos (by omega)]
    exact walk_none step
  | cons spellsGap spellsLength _ ih =>
    obtain ⟨above,down⟩ := down
    obtain ⟨later,step,stands⟩ := next_pair stands spellsGap spellsLength above
    rw [walk_some step,ih later _ stands down]
    rfl

theorem next_none {it later : Iterator} (ok : it.next = (.ok none,later)) : it.rangeCount ≤ it.nextRangeIndex := by
  unfold next nextFirst at ok
  grind

/-- What the walk stands for: the pairs read before the end or the error go down from `lastSmallest`. -/
structure Reading (it : Iterator) (pairs : List AckRange) (used rest : List Byte) : Prop where
  bytes : it.rangesBytes.drop it.pos = used ++ rest
  spells : SpellsPairs pairs used
  down : Descends it.lastSmallest pairs
  few : pairs.length ≤ it.rangeCount-it.nextRangeIndex
  yields : it.walk.1 = intervalsBelow it.lastSmallest pairs
  all : it.walk.2 = none → it.rangeCount ≤ it.nextRangeIndex+pairs.length

theorem walk_reads (it : Iterator) (emitted : it.firstEmitted = true) : ∃ pairs used rest, Reading it pairs used rest := by
  fun_induction walk it with
  | case1 it e later step =>
    have stopped := walk_error step
    refine ⟨[],[],_,rfl,.nil,trivial,Nat.zero_le _,by rw [stopped]; rfl,?_⟩
    rw [stopped]
    exact nofun
  | case2 it later step =>
    have stopped := walk_none step
    exact ⟨[],[],_,rfl,.nil,trivial,Nat.zero_le _,by rw [stopped]; rfl,fun _ => next_none step⟩
  | case3 it interval later step ih =>
    obtain ⟨r,gap,length,steps⟩ := next_steps emitted step
    have moved : later.lastSmallest = it.lastSmallest-(r.gap+2+r.length) := by rw [steps.moves,steps.yields]
    have same : later.rangesBytes = it.rangesBytes ∧ later.rangeCount = it.rangeCount ∧
        later.nextRangeIndex = it.nextRangeIndex+1 := by
      rw [steps.moves]
      exact ⟨rfl,rfl,rfl⟩
    obtain ⟨pairs,used,rest,reads⟩ := ih (by rw [steps.moves]; exact emitted)
    obtain ⟨bytes,spells,down,few,yields,all⟩ := reads
    rw [same.1] at bytes
    rw [moved] at down yields
    rw [same.2.1,same.2.2] at few all
    have more := steps.more
    refine ⟨r::pairs,gap ++ (length ++ used),rest,?_,.cons steps.spellsGap steps.spellsLength spells,⟨steps.above,down⟩,?_,?_,?_⟩
    · rw [steps.bytes,bytes,List.append_assoc,List.append_assoc]
    · rw [List.length_cons]
      omega
    · rw [walk_some step,yields,steps.yields]
      rfl
    · rw [walk_some step,List.length_cons]
      intro ended
      have counted := all ended
      omega

end Iterator

section
variable {ack : Ack}

def firstInterval (ack : Ack) : Interval := {smallest := ack.largestAcked-ack.firstRange,largest := ack.largestAcked}

theorem next_iter (inside : ack.firstRange ≤ ack.largestAcked) : (iter ack).next = (.ok (some (firstInterval ack)),
    {iter ack with firstEmitted := true,lastSmallest := ack.largestAcked-ack.firstRange}) := by
  have fresh : (iter ack).firstEmitted = false := rfl
  have fits : ¬ (iter ack).firstRange > (iter ack).largestAcked := Nat.not_lt.mpr inside
  rw [Iterator.next,if_pos fresh,Iterator.nextFirst,if_neg fits]
  rfl

theorem walk_iter {pairs : List AckRange} (spells : SpellsPairs pairs ack.rangesBytes)
    (count : pairs.length = ack.rangeCount) (inside : ack.firstRange ≤ ack.largestAcked)
    (down : Descends (ack.largestAcked-ack.firstRange) pairs) :
    (iter ack).walk = (firstInterval ack::intervalsBelow (ack.largestAcked-ack.firstRange) pairs,none) := by
  rw [Iterator.walk_some (next_iter inside)]
  rw [Iterator.walk_pairs spells _ _ ⟨rfl,rfl,(Nat.zero_add _).trans count,rfl⟩ down]

/-- Whatever the bytes, the walk yields the first interval and the pairs that were read, without going
below zero; only an error keeps it from reading all of them. -/
theorem iter_reads (ack : Ack) :
    (iter ack).walk = ([],some .invalidLength) ∨
    ack.firstRange ≤ ack.largestAcked ∧ ∃ pairs used rest, ack.rangesBytes = used ++ rest ∧ SpellsPairs pairs used ∧
      Descends (ack.largestAcked-ack.firstRange) pairs ∧ pairs.length ≤ ack.rangeCount ∧
      (iter ack).walk.1 = firstInterval ack::intervalsBelow (ack.largestAcked-ack.firstRange) pairs ∧
      ((iter ack).walk.2 = none → pairs.length = ack.rangeCount) := by
  by_cases inside : ack.firstRange ≤ ack.largestAcked
  · right
    obtain ⟨pairs,used,rest,reads⟩ := Iterator.walk_reads
      {iter ack with firstEmitted := true,lastSmallest := ack.largestAcked-ack.firstRange} rfl
    rw [Iterator.walk_some (next_iter inside)]
    refine ⟨inside,pairs,used,rest,reads.bytes,reads.spells,reads.down,reads.few,?_,?_⟩
    · rw [reads.yields]
    · intro ended
      have counted := reads.all ended
      have few := reads.few
      dsimp only [iter] at counted few
      omega
  · left
    have fresh : (iter ack).firstEmitted = false := rfl
    have outside : (iter ack).firstRange > (iter ack).largestAcked := Nat.not_le.mp inside
    have step : (iter ack).next = (.error .invalidLength,{iter ack with firstEmitted := true}) := by
      rw [Iterator.next,if_pos fresh,Iterator.nextFirst,if_pos outside]
    exact Iterator.walk_error step

/-- The intervals before the end or the error go down, each apart from the one before it. -/
theorem walk_down (ack : Ack) : (iter ack).walk.1.IsChain Above ∧ ∀ i ∈ (iter ack).walk.1, i.smallest ≤ i.largest := by
  rcases iter_reads ack with failed | ⟨inside,pairs,used,rest,_,_,down,_,yields,_⟩
  · rw [failed]
    exact ⟨.nil,nofun⟩
  · obtain ⟨chain,proper,below⟩ := intervalsBelow_down pairs _ down
    rw [yields]
    refine ⟨chain.cons below,?_⟩
    intro i member
    cases member with
    | head => exact Nat.sub_le _ _
    | tail _ member => exact proper i member

end

end QuicZig.Frame
