import QuicZig.Machine
import QuicZig.Library.Spans
import Mathlib.Data.List.TakeWhile

/-! The received packet numbers of one space, as sorted disjoint inclusive ranges.
The ranges live in a small inline block, then in a heap block; a full tracker
drops its lowest range to make room for a new one. -/
namespace QuicZig.Conn
open Machine Spans

namespace AckTracker

structure Range where
  smallest : Nat
  largest : Nat
  deriving DecidableEq, Repr

def maxRanges : Nat := 255

def inlineRanges : Nat := 8

end AckTracker

open AckTracker in
/-- `slots` are the ranges in use, lowest first; `heap` tells that the heap block exists. -/
structure AckTracker where
  slots : List Range := []
  heap : Bool := false
  allocator : Bool := false
  largest : Option Nat := none
  largestAtMs : Nat := 0
  largestAtUs : Nat := 0
  pendingAck : Bool := false
  delayedAckArmed : Bool := false
  delayedAckStartMs : Nat := 0
  delayedAckStartUs : Nat := 0
  ackElicitingSinceAck : Nat := 0
  lastAckElicitingUs : Nat := 0
  deriving DecidableEq, Repr

namespace AckTracker

def rangeCount (t : AckTracker) : Nat := t.slots.length

def capacity (t : AckTracker) : Nat := if t.heap then maxRanges else inlineRanges

/-- `none` when the block exists already, or no memory for it is to be had. -/
def growToHeap (granted : Bool) (t : AckTracker) : Option AckTracker :=
  if t.heap then none
  else if !t.allocator then none
  else if !granted then none
  else some {t with heap := true}

/-- The end of `insert`: a new range between `below` and `above`. A full tracker that cannot grow
drops its lowest range, which is the first of `below`, or of `above` when `below` is empty. -/
def insertNew (granted : Bool) (t : AckTracker) (below above : List Range) (pn : Nat) : AckTracker :=
  if t.rangeCount = t.capacity then
    match t.growToHeap granted with
    | some grown => {grown with slots := below ++ ⟨pn,pn⟩::above}
    | none =>
      if below = [] then {t with slots := ⟨pn,pn⟩::above.tail}
      else {t with slots := below.tail ++ ⟨pn,pn⟩::above}
  else {t with slots := below ++ ⟨pn,pn⟩::above}

/-- `below` are the ranges before index `i` of the source, `above` those from it on, and `last` is the
range right below `pn` when `pn` extends it. -/
def insert (granted : Bool) (t : AckTracker) (pn : Nat) : Bool × AckTracker :=
  let below := t.slots.takeWhile (·.largest < pn)
  let above := t.slots.dropWhile (·.largest < pn)
  let last := below.getLast?.filter (·.largest+1 = pn)
  match above,last with
  | next::rest,last =>
    if pn ≥ next.smallest then (false,t)
    else if next.smallest = pn+1 then
      match last with
      | some prev => (true,{t with slots := below.dropLast ++ {prev with largest := next.largest}::rest})
      | none => (true,{t with slots := below ++ {next with smallest := pn}::rest})
    else
      match last with
      | some prev => (true,{t with slots := below.dropLast ++ {prev with largest := pn}::next::rest})
      | none => (true,t.insertNew granted below above pn)
  | [],some prev => (true,{t with slots := below.dropLast ++ [{prev with largest := pn}]})
  | [],none => (true,t.insertNew granted below above pn)

/-- Any later packet number than the largest so far. -/
def raisesLargest (t : AckTracker) (pn : Nat) : Bool :=
  match t.largest with
  | none => true
  | some largest => decide (pn > largest)

def addPacketUs (granted : Bool) (t : AckTracker) (pn nowUs : Nat) (ackEliciting : Bool) : AckTracker :=
  let (inserted,after) := t.insert granted pn
  if !inserted then after else
  let after := if t.raisesLargest pn then
    {after with largest := some pn,largestAtMs := nowUs/1000,largestAtUs := nowUs} else after
  if ackEliciting then {after with pendingAck := true,delayedAckArmed := false,ackElicitingSinceAck := 0} else after

def addPacket (granted : Bool) (t : AckTracker) (pn nowMs : Nat) (ackEliciting : Bool) : AckTracker :=
  let after := t.addPacketUs granted pn (min (nowMs*1000) maxU64) ackEliciting
  if after.largest = some pn then {after with largestAtMs := nowMs} else after

/-- A packet `pn` far enough below the largest received, or above it, to be acknowledged at once. -/
def reorderedOrGap (t : AckTracker) (pn reorderThreshold : Nat) : Bool :=
  match t.largest with
  | some largest => decide (reorderThreshold ≠ 0 ∧
      ((pn < largest ∧ largest-pn ≥ reorderThreshold) ∨ pn > saturatingAdd largest reorderThreshold))
  | none => false

/-- The end of `addPacketDelayed`: the schedule of an ack-eliciting packet, `previous` being the tracker before it. -/
def armDelayed (t previous : AckTracker) (pn nowMs packetThreshold nowUs effectiveUs quickGapUs reorderThreshold : Nat) : AckTracker :=
  let quiet := decide (quickGapUs ≠ 0 ∧ nowUs-t.lastAckElicitingUs ≥ quickGapUs)
  let t := {t with lastAckElicitingUs := nowUs}
  if t.pendingAck then t else
  let t := if !t.delayedAckArmed then
    {t with delayedAckArmed := true,delayedAckStartMs := nowMs,delayedAckStartUs := effectiveUs,
            ackElicitingSinceAck := 0} else t
  let t := {t with ackElicitingSinceAck := min (t.ackElicitingSinceAck+1) 255}
  let thresholdReached := decide (packetThreshold ≠ 0 ∧ t.ackElicitingSinceAck ≥ packetThreshold)
  if previous.reorderedOrGap pn reorderThreshold || thresholdReached || quiet then {t with pendingAck := true} else t

def addPacketDelayed (granted : Bool) (t : AckTracker) (pn nowMs : Nat) (ackEliciting : Bool)
    (packetThreshold nowUs quickGapUs reorderThreshold : Nat) : AckTracker :=
  let effectiveUs := if nowUs ≠ 0 then nowUs else min (nowMs*1000) maxU64
  let (inserted,after) := t.insert granted pn
  if !inserted then after else
  let after := if t.raisesLargest pn then
    {after with largest := some pn,largestAtMs := nowMs,largestAtUs := effectiveUs} else after
  if !ackEliciting then after else
  after.armDelayed t pn nowMs packetThreshold nowUs effectiveUs quickGapUs reorderThreshold

def add (granted : Bool) (t : AckTracker) (pn nowMs : Nat) : AckTracker := t.addPacket granted pn nowMs true

/-- The scan of `contains` over the ranges, lowest first. -/
def containsFrom (pn : Nat) : List Range → Bool
  | [] => false
  | r::rest => if pn < r.smallest then false else if pn ≤ r.largest then true else containsFrom pn rest

def contains (t : AckTracker) (pn : Nat) : Bool := containsFrom pn t.slots

def markAckSent (t : AckTracker) : AckTracker :=
  {t with pendingAck := false,delayedAckArmed := false,ackElicitingSinceAck := 0}

/-- An armed delayed ACK becomes due once the delay is over. -/
def promoteDelayedAck (t : AckTracker) (nowMs maxAckDelayMs : Nat) : Bool × AckTracker :=
  if t.pendingAck || !t.delayedAckArmed then (false,t)
  else if nowMs < saturatingAdd t.delayedAckStartMs maxAckDelayMs then (false,t)
  else (true,{t with pendingAck := true,delayedAckArmed := false})

def promoteDelayedAckUs (t : AckTracker) (nowUs maxAckDelayUs : Nat) : Bool × AckTracker :=
  let startUs := if t.delayedAckStartUs ≠ 0 then t.delayedAckStartUs else min (t.delayedAckStartMs*1000) maxU64
  if t.pendingAck || !t.delayedAckArmed then (false,t)
  else if nowUs < saturatingAdd startUs maxAckDelayUs then (false,t)
  else (true,{t with pendingAck := true,delayedAckArmed := false})

/-- A recovery reset: the allocator and the heap block stay. -/
def reset (t : AckTracker) : AckTracker := {allocator := t.allocator,heap := t.heap}

/-- One past the largest number of the range. -/
def Range.stop (r : Range) : Nat := r.largest+1

abbrev Covered (slots : List Range) (x : Nat) : Prop := Covers Range.smallest Range.stop slots x

abbrev Sorted (slots : List Range) : Prop := Separated Range.smallest Range.stop slots

theorem covered_cons (r : Range) (rest : List Range) (x : Nat) :
    Covered (r::rest) x ↔ (r.smallest ≤ x ∧ x < r.stop) ∨ Covered rest x := covers_cons r rest x

theorem containsFrom_iff (pn : Nat) (slots : List Range) (sorted : Sorted slots) :
    containsFrom pn slots = true ↔ Covered slots pn := by
  induction slots with
  | nil => simp [containsFrom]
  | cons r rest ih =>
    obtain ⟨_,gap,tail⟩ := (separated_cons r rest).mp sorted
    rw [containsFrom,covered_cons]
    split
    · rename_i below
      have outside : ¬ Covered rest pn := by
        intro covered
        have beyond := sorted.beyond covered
        have proper := sorted.proper r (by simp)
        omega
      simp [outside]
      omega
    split
    · rename_i low high
      simp only [true_iff]
      exact .inl ⟨by omega,by unfold Range.stop; omega⟩
    · rename_i low high
      rw [ih tail]
      constructor
      · exact .inr
      · intro either
        apply either.resolve_left
        unfold Range.stop
        omega

def opensRange (t : AckTracker) (pn : Nat) : Bool :=
  t.slots.all fun r => decide (r.largest+1 < pn ∨ pn+1 < r.smallest)

/-- Every slot is in use and the tracker cannot move to a larger block. -/
def full (granted : Bool) (t : AckTracker) : Bool :=
  decide (t.rangeCount = t.capacity) && (t.heap || !t.allocator || !granted)

def dropped (granted : Bool) (t : AckTracker) (pn : Nat) : Option Range :=
  if t.opensRange pn && t.full granted then t.slots.head? else none

structure InsertEffect (granted : Bool) (t : AckTracker) (pn : Nat) (after : AckTracker) : Prop where
  frame : ∃ slots heap, after = {t with slots := slots,heap := heap}
  sorted : Sorted after.slots
  fits : after.rangeCount ≤ after.capacity
  covers : ∀ x, Covered after.slots x ↔ x = pn ∨
    (Covered t.slots x ∧ ∀ r, t.dropped granted pn = some r → ¬ (r.smallest ≤ x ∧ x < r.stop))

theorem dropped_none {granted : Bool} {t : AckTracker} {pn : Nat} {r : Range} (member : r ∈ t.slots)
    (touches : r.smallest ≤ pn+1 ∧ pn ≤ r.largest+1) : t.dropped granted pn = none := by
  unfold dropped
  rw [if_neg]
  intro both
  simp only [Bool.and_eq_true,opensRange,List.all_eq_true,decide_eq_true_eq] at both
  have apart := both.1 r member
  omega

theorem extend_spec {granted : Bool} {t : AckTracker} {pn : Nat} (front mid back : List Range) (span near : Range)
    (sorted : Sorted t.slots) (fits : t.rangeCount ≤ t.capacity) (split : t.slots = front ++ mid ++ back)
    (proper : span.smallest ≤ span.largest) (below : ∀ s ∈ front, s.stop < span.smallest)
    (above : ∀ s ∈ back, span.stop < s.smallest)
    (covers : ∀ x, (span.smallest ≤ x ∧ x < span.stop) ↔ x = pn ∨ Covered mid x)
    (member : near ∈ mid) (touches : near.smallest ≤ pn+1 ∧ pn ≤ near.largest+1) :
    InsertEffect granted t pn {t with slots := front ++ span::back} := by
  have outer := (separated_append (front ++ mid) back).mp (split ▸ sorted)
  have inner := (separated_append front mid).mp outer.1
  refine ⟨⟨_,t.heap,rfl⟩,?_,?_,?_⟩
  · exact Separated.join inner.1 outer.2.1 (by unfold Range.stop; omega) below above
  · have some := List.length_pos_of_mem member
    have total : t.rangeCount = front.length+mid.length+back.length := by simp [rangeCount,split,Nat.add_assoc]
    change (front ++ span::back).length ≤ t.capacity
    simp only [List.length_append,List.length_cons]
    omega
  · intro x
    rw [dropped_none (r := near) (by simp [split,member]) touches]
    simp only [covers_append,covers_cons,covers,split]
    simp
    tauto

theorem growToHeap_some {granted : Bool} {t grown : AckTracker} (grow : t.growToHeap granted = some grown) :
    t.full granted = false ∧ t.heap = false ∧ grown = {t with heap := true} := by
  unfold growToHeap at grow
  unfold full
  grind

theorem growToHeap_none {granted : Bool} {t : AckTracker} (reached : t.rangeCount = t.capacity)
    (grow : t.growToHeap granted = none) : t.full granted = true := by
  unfold growToHeap at grow
  unfold full
  grind

theorem insertNew_spec {granted : Bool} {t : AckTracker} {pn : Nat} (below above : List Range) (sorted : Sorted t.slots)
    (fits : t.rangeCount ≤ t.capacity) (split : t.slots = below ++ above) (under : ∀ s ∈ below, s.stop < pn)
    (past : ∀ s ∈ above, pn+1 < s.smallest) : InsertEffect granted t pn (t.insertNew granted below above pn) := by
  have parts := (separated_append below above).mp (split ▸ sorted)
  have opens : t.opensRange pn = true := by
    simp only [opensRange,List.all_eq_true,decide_eq_true_eq,split,List.mem_append]
    intro r member
    rcases member with low | high
    · exact .inl (under r low)
    · exact .inr (past r high)
  have placed (front back : List Range) (left : Sorted front) (right : Sorted back) (under : ∀ s ∈ front, s.stop < pn)
      (past : ∀ s ∈ back, pn+1 < s.smallest) : Sorted (front ++ ⟨pn,pn⟩::back) :=
    Separated.join left right (Nat.lt_succ_self pn) under past
  have point : ∀ x, (pn ≤ x ∧ x < pn+1) ↔ x = pn := by
    intro x
    omega
  have kept (after : AckTracker) (slots : after.slots = below ++ ⟨pn,pn⟩::above) (room : t.full granted = false) (x : Nat) :
      Covered after.slots x ↔ x = pn ∨ (Covered t.slots x ∧ ∀ r, t.dropped granted pn = some r →
        ¬ (r.smallest ≤ x ∧ x < r.stop)) := by
    have none : t.dropped granted pn = none := by simp [dropped,room]
    rw [none,slots,split]
    simp only [covers_append,covers_cons,Range.stop,point]
    simp
    tauto
  have total : t.rangeCount = below.length+above.length := by simp [rangeCount,split]
  unfold insertNew
  split
  · rename_i reached
    cases grow : t.growToHeap granted with
    | some grown =>
      obtain ⟨room,inline,moved⟩ := growToHeap_some grow
      rw [moved]
      refine ⟨⟨_,_,rfl⟩,placed _ _ parts.1 parts.2.1 under past,?_,kept _ rfl room⟩
      have small : t.rangeCount = inlineRanges := by simpa [capacity,inline] using reached
      change (below ++ ⟨pn,pn⟩::above).length ≤ maxRanges
      simp only [List.length_append,List.length_cons]
      simp only [inlineRanges,maxRanges] at *
      omega
    | none =>
      have stuck : t.full granted = true := growToHeap_none reached grow
      have drops : t.dropped granted pn = t.slots.head? := by simp [dropped,opens,stuck]
      have positive : 0 < t.capacity := by
        unfold capacity
        split <;> decide
      dsimp only
      split
      · rename_i empty
        subst empty
        obtain ⟨first,rest,rfl⟩ := List.exists_cons_of_length_pos (l := above) (by simp at total; omega)
        obtain ⟨_,_,tail⟩ := (separated_cons first rest).mp parts.2.1
        refine ⟨⟨_,_,rfl⟩,placed [] rest separated_nil tail (by simp) (fun s member => past s (by simp [member])),?_,?_⟩
        · change (⟨pn,pn⟩::rest : List Range).length ≤ t.capacity
          simp only [List.length_cons,List.length_nil] at *
          omega
        · intro x
          have apart : Covered rest x → ¬ (first.smallest ≤ x ∧ x < first.stop) :=
            fun covered inside => absurd (parts.2.1.beyond covered) (Nat.not_lt.mpr inside.2.le)
          rw [drops,split]
          simp only [List.nil_append,List.tail_cons,List.head?_cons,covers_cons]
          change (pn ≤ x ∧ x < pn+1) ∨ _ ↔ _
          rw [point]
          simp only [Option.some.injEq,forall_eq']
          tauto
      · rename_i some
        obtain ⟨first,rest,rfl⟩ := List.exists_cons_of_ne_nil some
        obtain ⟨_,_,tail⟩ := (separated_cons first rest).mp parts.1
        refine ⟨⟨_,_,rfl⟩,placed rest above tail parts.2.1 (fun s member => under s (by simp [member])) past,?_,?_⟩
        · change (rest ++ ⟨pn,pn⟩::above).length ≤ t.capacity
          simp only [List.length_append,List.length_cons] at *
          omega
        · intro x
          have whole : Sorted (first::(rest ++ above)) := by
            rw [split] at sorted
            exact sorted
          have apart : Covered (rest ++ above) x → ¬ (first.smallest ≤ x ∧ x < first.stop) :=
            fun covered inside => absurd (whole.beyond covered) (Nat.not_lt.mpr inside.2.le)
          rw [drops,split]
          simp only [List.tail_cons,List.cons_append,List.head?_cons,covers_append,covers_cons] at *
          change _ ∨ (pn ≤ x ∧ x < pn+1) ∨ _ ↔ _
          rw [point]
          simp only [Option.some.injEq,forall_eq']
          tauto
  · rename_i room
    have open' : t.full granted = false := by simp [full,room]
    refine ⟨⟨_,t.heap,rfl⟩,placed _ _ parts.1 parts.2.1 under past,?_,kept _ rfl open'⟩
    change (below ++ ⟨pn,pn⟩::above).length ≤ t.capacity
    simp only [List.length_append,List.length_cons]
    omega

/-- What recording a packet number does: a number that is known changes nothing, another one is
covered from then on, at the price of the range that a full tracker drops. -/
theorem insert_spec (granted : Bool) (t : AckTracker) (pn : Nat) (sorted : Sorted t.slots) (fits : t.rangeCount ≤ t.capacity) :
    ((t.insert granted pn).1 = false ∧ Covered t.slots pn ∧ (t.insert granted pn).2 = t) ∨
      ((t.insert granted pn).1 = true ∧ ¬ Covered t.slots pn ∧ InsertEffect granted t pn (t.insert granted pn).2) := by
  have split : t.slots.takeWhile (·.largest < pn) ++ t.slots.dropWhile (·.largest < pn) = t.slots :=
    List.takeWhile_append_dropWhile
  have low : ∀ r ∈ t.slots.takeWhile (·.largest < pn), r.largest < pn := by
    intro r member
    simpa using List.mem_takeWhile_imp member
  have start : ∀ next rest, t.slots.dropWhile (·.largest < pn) = next::rest → pn ≤ next.largest := by
    intro next rest equal
    have head := List.head_dropWhile_not (fun r : Range => decide (r.largest < pn)) (l := t.slots) (by simp [equal])
    simpa [equal] using head
  unfold insert
  generalize t.slots.takeWhile (·.largest < pn) = below at *
  generalize t.slots.dropWhile (·.largest < pn) = above at *
  have parts := (separated_append below above).mp (split ▸ sorted)
  have outside (past : ∀ r ∈ above, pn < r.smallest) : ¬ Covered t.slots pn := by
    intro covered
    obtain ⟨r,member,smallest,stop⟩ := covered
    rw [← split] at member
    rcases List.mem_append.mp member with inBelow | inAbove
    · have under := low r inBelow
      unfold Range.stop at stop
      omega
    · have later := past r inAbove
      omega
  -- The last range below `pn`, if there is one, is the only one that `pn` can extend upwards.
  have before (prev : Range) (front : List Range) (equal : below = front ++ [prev]) :
      prev.smallest ≤ prev.largest ∧ ∀ s ∈ front, s.stop < prev.smallest := by
    have inner := (separated_append front [prev]).mp (equal ▸ parts.1)
    have proper := inner.2.1.proper prev (by simp)
    exact ⟨Nat.le_of_lt_succ proper,fun s member => inner.2.2 s member prev (by simp)⟩
  have under (apart : ∀ prev, below.getLast? = some prev → prev.largest+1 ≠ pn) : ∀ s ∈ below, s.stop < pn := by
    intro s member
    obtain ⟨front,prev,equal⟩ := (List.eq_nil_or_concat below).resolve_left (List.ne_nil_of_mem member)
    rw [List.concat_eq_append] at equal
    have apart := apart prev (by simp [equal])
    have under := low prev (by simp [equal])
    rw [equal] at member
    rcases List.mem_append.mp member with inFront | last
    · have gap := (before prev front equal).2 s inFront
      have proper := (before prev front equal).1
      unfold Range.stop at *
      omega
    · rw [List.mem_singleton] at last
      rw [last]
      unfold Range.stop
      omega
  have aboveNext (next : Range) (rest : List Range) (equal : above = next::rest) (fresh : pn < next.smallest) :
      ∀ s ∈ above, pn < s.smallest := by
    obtain ⟨proper,gap,_⟩ := (separated_cons next rest).mp (equal ▸ parts.2.1)
    intro s member
    rw [equal] at member
    rcases List.mem_cons.mp member with here | later
    · rw [here]
      exact fresh
    · have apart := gap s later
      omega
  have beyondNext (next : Range) (rest : List Range) (equal : above = next::rest) (fresh : pn+1 < next.smallest) :
      ∀ s ∈ above, pn+1 < s.smallest := by
    obtain ⟨proper,gap,_⟩ := (separated_cons next rest).mp (equal ▸ parts.2.1)
    intro s member
    rw [equal] at member
    rcases List.mem_cons.mp member with here | later
    · rw [here]
      exact fresh
    · have apart := gap s later
      omega
  have extendLast (prev : Range) (front : List Range) (equal : below = front ++ [prev]) (touch : prev.largest+1 = pn)
      (past : ∀ s ∈ above, pn+1 < s.smallest) :
      InsertEffect granted t pn {t with slots := front ++ {prev with largest := pn}::above} := by
    obtain ⟨proper,gap⟩ := before prev front equal
    apply extend_spec front [prev] above {prev with largest := pn} prev sorted fits (by simp [← split,equal])
      (by change prev.smallest ≤ pn; omega) gap past _ (by simp) (by omega)
    intro x
    rw [covered_cons]
    simp only [covers_nil,or_false,Range.stop]
    omega
  cases near : below.getLast?.filter (·.largest+1 = pn) with
  | none =>
    have apart : ∀ prev, below.getLast? = some prev → prev.largest+1 ≠ pn := by
      intro prev last
      simpa [last,Option.filter_eq_none_iff] using near
    have new (past : ∀ s ∈ above, pn+1 < s.smallest) : InsertEffect granted t pn (t.insertNew granted below above pn) :=
      insertNew_spec below above sorted fits split.symm (under apart) past
    dsimp only
    rw [near]
    cases above with
    | nil => exact .inr ⟨rfl,outside (by simp),new (by simp)⟩
    | cons next rest =>
      dsimp only
      split
      · rename_i known
        have top := start next rest rfl
        exact .inl ⟨rfl,⟨next,by simp [← split],known,Nat.lt_succ_of_le top⟩,rfl⟩
      · rename_i fresh
        have past := aboveNext next rest rfl (by omega)
        refine .inr ?_
        split
        · rename_i touch
          refine ⟨rfl,outside past,?_⟩
          obtain ⟨proper,gap,_⟩ := (separated_cons next rest).mp parts.2.1
          apply extend_spec below [next] rest {next with smallest := pn} next sorted fits (by simp [← split])
            (by change pn ≤ next.largest; unfold Range.stop at proper; omega) (under apart) gap _ (by simp)
            (by unfold Range.stop at proper; omega)
          intro x
          rw [covered_cons]
          simp only [covers_nil,or_false,Range.stop] at proper ⊢
          omega
        · rename_i away
          exact ⟨rfl,outside past,new (beyondNext next rest rfl (by omega))⟩
  | some prev =>
    obtain ⟨last,touch⟩ := Option.filter_eq_some_iff.mp near
    obtain ⟨front,equal⟩ := List.getLast?_eq_some_iff.mp last
    have touch : prev.largest+1 = pn := by simpa using touch
    have trimmed : below.dropLast = front := by simp [equal]
    dsimp only
    rw [near]
    cases above with
    | nil =>
      have extended := extendLast prev front equal touch (by simp)
      exact .inr ⟨rfl,outside (by simp),by simpa [trimmed] using extended⟩
    | cons next rest =>
      dsimp only
      split
      · rename_i known
        have top := start next rest rfl
        exact .inl ⟨rfl,⟨next,by simp [← split],known,Nat.lt_succ_of_le top⟩,rfl⟩
      · rename_i fresh
        have past := aboveNext next rest rfl (by omega)
        refine .inr ?_
        split
        · rename_i bridge
          refine ⟨rfl,outside past,?_⟩
          obtain ⟨lower,before⟩ := before prev front equal
          obtain ⟨upper,gap,_⟩ := (separated_cons next rest).mp parts.2.1
          rw [trimmed]
          unfold Range.stop at upper
          apply extend_spec front [prev,next] rest {prev with largest := next.largest} prev sorted fits
            (by simp [← split,equal]) (by change prev.smallest ≤ next.largest; omega) before gap _ (by simp) (by omega)
          intro x
          rw [covered_cons,covered_cons]
          simp only [covers_nil,or_false,Range.stop]
          omega
        · rename_i away
          refine ⟨rfl,outside past,?_⟩
          rw [trimmed]
          exact extendLast prev front equal touch (beyondNext next rest rfl (by omega))

end AckTracker
end QuicZig.Conn
