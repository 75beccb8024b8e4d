import QuicZig.Conn.AckRun
import QuicZig.Frame.Fields

/-! The ACK frame of a tracker: the highest range, then as many lower ones as
the budgets allow. -/
namespace QuicZig.Conn.AckTracker
open Machine Codec Wire QuicZig.Frame Spans

inductive FrameError where
  /-- No packet number is recorded. -/
  | empty
  | codec (error : Wire.Error)
  deriving DecidableEq, Repr

/-- The loop over the ranges below the highest one: `prev` is the range written last, `lower` are the ranges
below it from the highest down, and `written` are the bytes so far. -/
def packRanges (bufferLen capacity maxLower : Nat) :
    Range → List Range → List Byte → Nat → Except Wire.Error (List Byte × Nat)
  | _,[],written,included => .ok (written,included)
  | prev,this::lower,written,included =>
    if included < maxLower then
      let gap := prev.smallest-this.largest-2
      let length := this.largest-this.smallest
      let needed := Varint.encodedLen gap+Varint.encodedLen length
      if needed > capacity-written.length then .ok (written,included)
      else
        match Writer.all [Varint.encode gap,Varint.encode length] (bufferLen-written.length) with
        | .error e => .error e
        | .ok pair => packRanges bufferLen capacity maxLower this lower (written ++ pair) (included+1)
    else .ok (written,included)

def toAckFrameLimitedRangesWithEcn (t : AckTracker) (ackDelayScaled bufferLen maxRangesBytes maxLowerRanges : Nat)
    (ecnCounts : Option EcnCounts) : Except FrameError Ack :=
  match t.slots.reverse with
  | [] => .error .empty
  | top::lower =>
    match packRanges bufferLen (min bufferLen maxRangesBytes) maxLowerRanges top lower [] 0 with
    | .error e => .error (.codec e)
    | .ok (rangesBytes,includedRanges) => .ok {
      largestAcked := top.largest
      ackDelay := ackDelayScaled
      firstRange := top.largest-top.smallest
      rangeCount := includedRanges
      rangesBytes := rangesBytes
      ecnCounts := ecnCounts
    }

def toAckFrameWithEcn (t : AckTracker) (ackDelayScaled bufferLen : Nat) (ecnCounts : Option EcnCounts) :
    Except FrameError Ack :=
  match t.toAckFrameLimitedRangesWithEcn ackDelayScaled bufferLen bufferLen maxU64 ecnCounts with
  | .error e => .error e
  | .ok frame => if frame.rangeCount ≠ t.rangeCount-1 then .error (.codec .bufferTooSmall) else .ok frame

def toAckFrame (t : AckTracker) (ackDelayScaled bufferLen : Nat) : Except FrameError Ack :=
  t.toAckFrameWithEcn ackDelayScaled bufferLen none

def toAckFrameLimited (t : AckTracker) (ackDelayScaled bufferLen maxRangesBytes : Nat) : Except FrameError Ack :=
  t.toAckFrameLimitedRangesWithEcn ackDelayScaled bufferLen maxRangesBytes maxU64 none

def toAckFrameLimitedRanges (t : AckTracker) (ackDelayScaled bufferLen maxRangesBytes maxLowerRanges : Nat) :
    Except FrameError Ack :=
  t.toAckFrameLimitedRangesWithEcn ackDelayScaled bufferLen maxRangesBytes maxLowerRanges none

def Range.interval (r : Range) : Interval := {smallest := r.smallest,largest := r.largest}

/-- The gaps and lengths from one range down to the next. -/
def pairsBelow : Range → List Range → List AckRange
  | _,[] => []
  | prev,this::lower => {gap := prev.smallest-this.largest-2,length := this.largest-this.smallest}::pairsBelow this lower

/-- What the loop has added to the frame: the first `count` of the pairs. -/
structure Packs (capacity maxLower : Nat) (pairs : List AckRange) (used included count : Nat) (bytes : List Byte) : Prop where
  within : count ≤ pairs.length
  spells : SpellsPairs (pairs.take count) bytes
  size : bytes.length = rangesEncodedLen (pairs.take count)
  fits : used+bytes.length ≤ capacity
  few : included+count ≤ maxLower
  stops : count = pairs.length ∨ included+count = maxLower ∨ capacity < used+rangesEncodedLen (pairs.take (count+1))

theorem packs_none {capacity maxLower : Nat} {pairs : List AckRange} {used included : Nat} (fits : used ≤ capacity)
    (few : included ≤ maxLower)
    (stops : pairs = [] ∨ included = maxLower ∨ capacity < used+rangesEncodedLen (pairs.take 1)) :
    Packs capacity maxLower pairs used included 0 [] where
  within := Nat.zero_le _
  spells := .nil
  size := rfl
  fits := fits
  few := few
  stops := stops.imp_left (fun none => by rw [none]; rfl)

theorem rangesEncodedLen_cons (r : AckRange) (pairs : List AckRange) :
    rangesEncodedLen (r::pairs) = Varint.encodedLen r.gap+Varint.encodedLen r.length+rangesEncodedLen pairs := by
  simp [rangesEncodedLen]

theorem Packs.cons {capacity maxLower : Nat} {pairs : List AckRange} {r : AckRange} {used included count : Nat}
    {gap length bytes : List Byte} (spellsGap : Varint.Spells gap r.gap) (spellsLength : Varint.Spells length r.length)
    (size : (gap ++ length).length = Varint.encodedLen r.gap+Varint.encodedLen r.length)
    (packs : Packs capacity maxLower pairs (used+(gap ++ length).length) (included+1) count bytes) :
    Packs capacity maxLower (r::pairs) used included (count+1) (gap ++ (length ++ bytes)) := by
  obtain ⟨within,spells,rest,fits,few,stops⟩ := packs
  have whole : (gap ++ (length ++ bytes)).length = (gap ++ length).length+bytes.length := by
    rw [← List.append_assoc,List.length_append]
  refine ⟨by rw [List.length_cons]; omega,.cons spellsGap spellsLength spells,?_,by omega,by omega,?_⟩
  · rw [List.take_succ_cons,rangesEncodedLen_cons,whole,size,rest]
  · rw [List.take_succ_cons,rangesEncodedLen_cons,List.length_cons]
    rcases stops with all | most | large
    · exact .inl (by omega)
    · exact .inr (.inl (by omega))
    · exact .inr (.inr (by omega))

theorem encode_pair {gap length room : Nat} {pair : List Byte}
    (ok : Writer.all [Varint.encode gap,Varint.encode length] room = .ok pair) : ∃ gapBytes lengthBytes,
    pair = gapBytes ++ lengthBytes ∧ Varint.Spells gapBytes gap ∧ Varint.Spells lengthBytes length ∧
      (gapBytes ++ lengthBytes).length = Varint.encodedLen gap+Varint.encodedLen length := by
  simp only [Writer.all] at ok
  split at ok
  · cases ok
  rename_i gapBytes wroteGap
  split at ok
  · cases ok
  rename_i later wroteLater
  cases ok
  split at wroteLater
  · cases wroteLater
  rename_i lengthBytes wroteLength
  cases wroteLater
  obtain ⟨_,spellsGap,gapSize⟩ := Varint.encode_ok wroteGap
  obtain ⟨_,spellsLength,lengthSize⟩ := Varint.encode_ok wroteLength
  refine ⟨gapBytes,lengthBytes,by rw [List.append_nil],spellsGap,spellsLength,?_⟩
  rw [List.length_append,gapSize,lengthSize]

theorem packRanges_packs {bufferLen capacity maxLower : Nat} {lower : List Range} {prev : Range} {written out : List Byte}
    {included total : Nat} (fits : written.length ≤ capacity) (few : included ≤ maxLower)
    (ok : packRanges bufferLen capacity maxLower prev lower written included = .ok (out,total)) :
    ∃ count bytes, out = written ++ bytes ∧ total = included+count ∧
      Packs capacity maxLower (pairsBelow prev lower) written.length included count bytes := by
  induction lower generalizing prev written included with
  | nil =>
    cases ok
    exact ⟨0,[],(List.append_nil _).symm,rfl,packs_none fits few (.inl rfl)⟩
  | cons this lower ih =>
    unfold packRanges at ok
    split at ok
    · rename_i more
      dsimp only at ok
      split at ok
      · rename_i large
        cases ok
        refine ⟨0,[],(List.append_nil _).symm,rfl,packs_none fits few (.inr (.inr ?_))⟩
        rw [pairsBelow,List.take_succ_cons,rangesEncodedLen_cons]
        dsimp only
        omega
      · rename_i small
        split at ok
        · cases ok
        · rename_i pair wrote
          obtain ⟨gapBytes,lengthBytes,rfl,spellsGap,spellsLength,size⟩ := encode_pair wrote
          have longer : (written ++ (gapBytes ++ lengthBytes)).length = written.length+(gapBytes ++ lengthBytes).length :=
            List.length_append
          obtain ⟨count,bytes,rfl,rfl,packs⟩ := ih (by omega) (by omega) ok
          rw [longer] at packs
          exact ⟨count+1,gapBytes ++ (lengthBytes ++ bytes),by simp,by omega,packs.cons spellsGap spellsLength size⟩
    · rename_i most
      cases ok
      exact ⟨0,[],(List.append_nil _).symm,rfl,packs_none fits few (.inr (.inl (by omega)))⟩

/-- With room for the budget and numbers that a varint holds, the loop does not fail. -/
theorem packRanges_ok {bufferLen capacity : Nat} {lower : List Range} {prev : Range} {written : List Byte}
    (maxLower included : Nat) (fits : written.length ≤ capacity) (room : capacity ≤ bufferLen)
    (small : prev.smallest ≤ Varint.maxValue) (smaller : ∀ r ∈ lower, r.smallest ≤ r.largest ∧ r.largest ≤ Varint.maxValue) :
    ∃ result, packRanges bufferLen capacity maxLower prev lower written included = .ok result := by
  induction lower generalizing prev written included with
  | nil => exact ⟨_,rfl⟩
  | cons this lower ih =>
    obtain ⟨proper,bound⟩ := smaller this List.mem_cons_self
    unfold packRanges
    split
    · dsimp only
      split
      · exact ⟨_,rfl⟩
      · rename_i enough
        obtain ⟨gapBytes,writesGap,_,gapSize⟩ := Varint.emits (prev.smallest-this.largest-2) (by omega)
        obtain ⟨lengthBytes,writesLength,_,lengthSize⟩ := Varint.emits (this.largest-this.smallest) (by omega)
        have pair := (writesGap.cons writesLength.last) (bufferLen-written.length)
        have size : (gapBytes ++ lengthBytes).length ≤ capacity-written.length := by
          rw [List.length_append]
          omega
        rw [pair,if_pos (by omega)]
        apply ih
        · rw [List.length_append]
          omega
        · omega
        · exact fun r member => smaller r (List.mem_cons_of_mem this member)
    · exact ⟨_,rfl⟩

/-- Ranges from the highest down, none of them empty or next to another. -/
structure Falling (ranges : List Range) : Prop where
  proper : ∀ r ∈ ranges, r.smallest ≤ r.largest
  apart : ranges.Pairwise (fun upper lower => lower.largest+2 ≤ upper.smallest)

theorem Sorted.falling {slots : List Range} (sorted : Sorted slots) : Falling slots.reverse where
  proper r member := Nat.le_of_lt_succ (sorted.proper r (List.mem_reverse.mp member))
  apart := List.pairwise_reverse.mpr sorted.ordered

theorem pairsBelow_intervals {prev : Range} {lower : List Range} (falling : Falling (prev::lower)) :
    Descends prev.smallest (pairsBelow prev lower) ∧
      intervalsBelow prev.smallest (pairsBelow prev lower) = lower.map Range.interval := by
  induction lower generalizing prev with
  | nil => exact ⟨trivial,rfl⟩
  | cons this lower ih =>
    obtain ⟨proper,apart⟩ := falling
    obtain ⟨below,apart⟩ := List.pairwise_cons.mp apart
    have gap := below this List.mem_cons_self
    have length := proper this (by simp)
    obtain ⟨down,intervals⟩ := ih ⟨fun r member => proper r (List.mem_cons_of_mem prev member),apart⟩
    have upper : prev.smallest-(prev.smallest-this.largest-2+2) = this.largest := by omega
    have cursor : prev.smallest-(prev.smallest-this.largest-2+2+(this.largest-this.smallest)) = this.smallest := by omega
    simp only [pairsBelow,Descends,intervalsBelow,List.map_cons,upper,cursor,intervals]
    exact ⟨⟨by omega,down⟩,rfl⟩

theorem descends_take {pairs : List AckRange} {cursor : Nat} (down : Descends cursor pairs) (count : Nat) :
    Descends cursor (pairs.take count) := by
  induction pairs generalizing cursor count with
  | nil => simpa using down
  | cons r pairs ih =>
    cases count with
    | zero => trivial
    | succ count => exact ⟨down.1,ih down.2 count⟩

theorem intervalsBelow_take (pairs : List AckRange) (cursor count : Nat) :
    intervalsBelow cursor (pairs.take count) = (intervalsBelow cursor pairs).take count := by
  induction pairs generalizing cursor count with
  | nil => simp [intervalsBelow]
  | cons r pairs ih =>
    cases count with
    | zero => rfl
    | succ count => simp only [List.take_succ_cons,intervalsBelow,ih]

/-- The pairs of a whole tracker, its highest range being the first interval. -/
def pairsOf (t : AckTracker) : List AckRange :=
  match t.slots.reverse with
  | [] => []
  | top::lower => pairsBelow top lower

theorem length_pairsBelow (prev : Range) (lower : List Range) : (pairsBelow prev lower).length = lower.length := by
  induction lower generalizing prev with
  | nil => rfl
  | cons this lower ih => rw [pairsBelow,List.length_cons,List.length_cons,ih]

/-- A frame for the highest range and `count` ranges below it. -/
structure Acknowledges (t : AckTracker) (budget maxLower : Nat) (frame : Ack) (count : Nat) : Prop where
  packs : Packs budget maxLower t.pairsOf 0 0 count frame.rangesBytes
  rangeCount : frame.rangeCount = count
  fewer : count+1 ≤ t.rangeCount
  valid : ValidRanges frame.largestAcked frame.firstRange frame.rangeCount frame.rangesBytes
  walk : (iter frame).walk = ((t.slots.reverse.take (count+1)).map Range.interval,none)

theorem limited_counts {t : AckTracker} {ackDelayScaled bufferLen maxRangesBytes maxLowerRanges : Nat}
    {ecnCounts : Option EcnCounts} {frame : Ack}
    (ok : t.toAckFrameLimitedRangesWithEcn ackDelayScaled bufferLen maxRangesBytes maxLowerRanges ecnCounts = .ok frame) :
    frame.ecnCounts = ecnCounts := by
  unfold toAckFrameLimitedRangesWithEcn at ok
  split at ok
  · cases ok
  split at ok
  · cases ok
  · cases ok
    rfl

theorem limited_acknowledges {t : AckTracker} {ackDelayScaled bufferLen maxRangesBytes maxLowerRanges : Nat}
    {ecnCounts : Option EcnCounts} {frame : Ack} (sorted : Sorted t.slots)
    (ok : t.toAckFrameLimitedRangesWithEcn ackDelayScaled bufferLen maxRangesBytes maxLowerRanges ecnCounts = .ok frame) :
    ∃ count, Acknowledges t (min bufferLen maxRangesBytes) maxLowerRanges frame count ∧
      frame.ackDelay = ackDelayScaled ∧ frame.ecnCounts = ecnCounts := by
  unfold toAckFrameLimitedRangesWithEcn at ok
  split at ok
  · cases ok
  rename_i top lower ranges
  split at ok
  · cases ok
  rename_i rangesBytes included packed
  cases ok
  obtain ⟨count,bytes,rfl,rfl,packs⟩ := packRanges_packs (Nat.zero_le _) (Nat.zero_le _) packed
  have falling := Sorted.falling sorted
  rw [ranges] at falling
  obtain ⟨down,intervals⟩ := pairsBelow_intervals falling
  have pairs : t.pairsOf = pairsBelow top lower := by
    unfold pairsOf
    rw [ranges]
  have total : t.rangeCount = lower.length+1 := by
    unfold rangeCount
    rw [← List.length_reverse,ranges,List.length_cons]
  have within := packs.within
  rw [length_pairsBelow] at within
  have proper := falling.proper top List.mem_cons_self
  have cursor : top.largest-(top.largest-top.smallest) = top.smallest := by omega
  have taken : ((pairsBelow top lower).take count).length = count := by
    rw [List.length_take_of_le packs.within]
  have descends : Descends (top.largest-(top.largest-top.smallest)) ((pairsBelow top lower).take count) := by
    rw [cursor]
    exact descends_take down count
  refine ⟨count,⟨?_,Nat.zero_add _,by omega,?_,?_⟩,rfl,rfl⟩
  · rw [pairs]
    exact packs
  · exact ⟨Nat.sub_le _ _,_,by rw [taken,Nat.zero_add],packs.spells,descends⟩
  · rw [walk_iter packs.spells (by rw [taken]; exact (Nat.zero_add _).symm) (Nat.sub_le _ _) descends]
    dsimp only [firstInterval]
    rw [cursor,intervalsBelow_take,intervals,ranges,List.take_succ_cons,List.map_cons,List.map_take]
    rfl

theorem limited_ok {t : AckTracker} (ackDelayScaled bufferLen maxRangesBytes maxLowerRanges : Nat) (ecnCounts : Option EcnCounts)
    (sorted : Sorted t.slots) (some : t.slots ≠ []) (small : ∀ r ∈ t.slots, r.largest ≤ Varint.maxValue) :
    ∃ frame, t.toAckFrameLimitedRangesWithEcn ackDelayScaled bufferLen maxRangesBytes maxLowerRanges ecnCounts = .ok frame := by
  have falling := Sorted.falling sorted
  unfold toAckFrameLimitedRangesWithEcn
  split
  · rename_i none
    exact absurd (List.reverse_eq_nil_iff.mp none) some
  · rename_i top lower ranges
    have known : ∀ r ∈ top::lower, r.smallest ≤ r.largest ∧ r.largest ≤ Varint.maxValue := by
      intro r member
      rw [← ranges] at member
      exact ⟨falling.proper r member,small r (List.mem_reverse.mp member)⟩
    obtain ⟨proper,bound⟩ := known top List.mem_cons_self
    have empty : ([] : List Byte).length ≤ min bufferLen maxRangesBytes := Nat.zero_le _
    obtain ⟨result,packed⟩ := packRanges_ok maxLowerRanges 0 empty (Nat.min_le_left bufferLen maxRangesBytes)
      (proper.trans bound) (fun r member => known r (List.mem_cons_of_mem top member))
    rw [packed]
    exact ⟨_,rfl⟩

theorem length_pairsOf (t : AckTracker) : t.pairsOf.length = t.rangeCount-1 := by
  have total : t.slots.reverse.length = t.rangeCount := List.length_reverse
  unfold pairsOf
  split
  · rename_i none
    rw [← total,none]
    rfl
  · rename_i top lower ranges
    rw [← total,ranges,length_pairsBelow,List.length_cons]
    rfl

theorem rangesEncodedLen_take (pairs : List AckRange) (count : Nat) :
    rangesEncodedLen (pairs.take count) ≤ rangesEncodedLen pairs := by
  have split := congrArg rangesEncodedLen (List.take_append_drop count pairs)
  simp only [rangesEncodedLen,List.map_append,List.sum_append] at split ⊢
  omega

theorem withEcn_acknowledges {t : AckTracker} {ackDelayScaled bufferLen : Nat} {ecnCounts : Option EcnCounts} {frame : Ack}
    (sorted : Sorted t.slots) (ok : t.toAckFrameWithEcn ackDelayScaled bufferLen ecnCounts = .ok frame) :
    (iter frame).walk = (t.slots.reverse.map Range.interval,none) ∧ rangesEncodedLen t.pairsOf ≤ bufferLen := by
  unfold toAckFrameWithEcn at ok
  split at ok
  · cases ok
  rename_i limited limitedOk
  split at ok
  · cases ok
  rename_i complete
  cases ok
  obtain ⟨count,acknowledges,_⟩ := limited_acknowledges sorted limitedOk
  have all : count+1 = t.rangeCount := by
    have counted := acknowledges.rangeCount
    have fewer := acknowledges.fewer
    omega
  have whole : t.pairsOf.take count = t.pairsOf := List.take_of_length_le (by rw [length_pairsOf]; omega)
  have ranges : t.slots.reverse.take (count+1) = t.slots.reverse := by
    apply List.take_of_length_le
    rw [List.length_reverse,all]
    exact Nat.le_refl _
  have size := acknowledges.packs.size
  have fits := acknowledges.packs.fits
  rw [whole] at size
  refine ⟨?_,by omega⟩
  rw [acknowledges.walk,ranges]

theorem withEcn_ok {t : AckTracker} (ackDelayScaled bufferLen : Nat) (ecnCounts : Option EcnCounts) (sorted : Sorted t.slots)
    (some : t.slots ≠ []) (few : t.rangeCount ≤ maxRanges) (small : ∀ r ∈ t.slots, r.largest ≤ Varint.maxValue) :
    if rangesEncodedLen t.pairsOf ≤ bufferLen then
      ∃ frame, t.toAckFrameWithEcn ackDelayScaled bufferLen ecnCounts = .ok frame
    else t.toAckFrameWithEcn ackDelayScaled bufferLen ecnCounts = .error (.codec .bufferTooSmall) := by
  obtain ⟨limited,limitedOk⟩ := limited_ok ackDelayScaled bufferLen bufferLen maxU64 ecnCounts sorted some small
  obtain ⟨count,acknowledges,_⟩ := limited_acknowledges sorted limitedOk
  have counted := acknowledges.rangeCount
  have fewer := acknowledges.fewer
  have within := acknowledges.packs.within
  have size := acknowledges.packs.size
  have fits := acknowledges.packs.fits
  have pairs := length_pairsOf t
  rw [Nat.min_self] at fits
  split
  · rename_i room
    refine ⟨limited,?_⟩
    unfold toAckFrameWithEcn
    rw [limitedOk]
    dsimp only
    rw [if_neg]
    have part := rangesEncodedLen_take t.pairsOf (count+1)
    unfold maxRanges at few
    rcases acknowledges.packs.stops with all | most | large
    · omega
    · unfold maxU64 at most
      omega
    · omega
  · rename_i full
    unfold toAckFrameWithEcn
    rw [limitedOk]
    dsimp only
    rw [if_pos]
    intro complete
    have whole : t.pairsOf.take count = t.pairsOf := List.take_of_length_le (by omega)
    rw [whole] at size
    omega

inductive Call where
  | add (e : AckRun.Event)
  | markAckSent
  | promoteDelayedAck (nowMs maxAckDelayMs : Nat)
  | promoteDelayedAckUs (nowUs maxAckDelayUs : Nat)
  /-- The keys of the space are discarded. -/
  | dropPending
  | reset

def call (t : AckTracker) : Call → AckTracker
  | .add e => e.apply t
  | .markAckSent => t.markAckSent
  | .promoteDelayedAck nowMs maxAckDelayMs => (t.promoteDelayedAck nowMs maxAckDelayMs).2
  | .promoteDelayedAckUs nowUs maxAckDelayUs => (t.promoteDelayedAckUs nowUs maxAckDelayUs).2
  | .dropPending => {t with pendingAck := false,delayedAckArmed := false}
  | .reset => t.reset

def New (t : AckTracker) : Prop := ∃ allocator, t = {allocator := allocator}

/-- The numbers that a packet number decoder hands out. -/
def InRange (_ : AckTracker) : Call → Prop
  | .add e => e.call.pn ≤ Varint.maxValue
  | _ => True

structure Tidy (t : AckTracker) : Prop where
  sorted : Sorted t.slots
  fits : t.rangeCount ≤ t.capacity

theorem Tidy.few {t : AckTracker} (tidy : Tidy t) : t.rangeCount ≤ maxRanges := by
  apply tidy.fits.trans
  unfold capacity maxRanges inlineRanges
  split <;> omega

theorem call_frame (t : AckTracker) (c : Call) :
    (∃ e, c = .add e) ∨ (t.call c).slots = [] ∨ ((t.call c).slots = t.slots ∧ (t.call c).capacity = t.capacity) := by
  cases c with
  | add e => exact .inl ⟨e,rfl⟩
  | markAckSent => exact .inr (.inr ⟨rfl,rfl⟩)
  | promoteDelayedAck nowMs maxAckDelayMs =>
    right
    right
    change (t.promoteDelayedAck nowMs maxAckDelayMs).2.slots = t.slots ∧
      (t.promoteDelayedAck nowMs maxAckDelayMs).2.capacity = t.capacity
    unfold promoteDelayedAck
    split
    · exact ⟨rfl,rfl⟩
    · split <;> exact ⟨rfl,rfl⟩
  | promoteDelayedAckUs nowUs maxAckDelayUs =>
    right
    right
    change (t.promoteDelayedAckUs nowUs maxAckDelayUs).2.slots = t.slots ∧
      (t.promoteDelayedAckUs nowUs maxAckDelayUs).2.capacity = t.capacity
    unfold promoteDelayedAckUs
    generalize (if t.delayedAckStartUs ≠ 0 then t.delayedAckStartUs else min (t.delayedAckStartMs*1000) maxU64) = startUs
    dsimp only
    split
    · exact ⟨rfl,rfl⟩
    · split <;> exact ⟨rfl,rfl⟩
  | dropPending => exact .inr (.inr ⟨rfl,rfl⟩)
  | reset => exact .inr (.inl rfl)

theorem tidy_call (t : AckTracker) (c : Call) (tidy : Tidy t) : Tidy (t.call c) := by
  rcases call_frame t c with ⟨e,rfl⟩ | none | ⟨slots,capacity⟩
  · have records := AckRun.apply_records e t
    rcases insert_spec e.granted t e.call.pn tidy.sorted tidy.fits with ⟨_,_,same⟩ | ⟨_,_,effect⟩
    · have slots : (e.apply t).slots = t.slots := by rw [records.slots,same]
      have capacity : (e.apply t).capacity = t.capacity := by rw [records.capacity,same]
      refine ⟨slots ▸ tidy.sorted,?_⟩
      change (e.apply t).slots.length ≤ (e.apply t).capacity
      rw [slots,capacity]
      exact tidy.fits
    · refine ⟨records.slots ▸ effect.sorted,?_⟩
      change (e.apply t).slots.length ≤ (e.apply t).capacity
      rw [records.slots,records.capacity]
      exact effect.fits
  · refine ⟨none ▸ separated_nil,?_⟩
    unfold rangeCount
    rw [none]
    exact Nat.zero_le _
  · refine ⟨slots ▸ tidy.sorted,?_⟩
    unfold rangeCount
    rw [slots,capacity]
    exact tidy.fits

theorem tidy_run (t : AckTracker) {guard : AckTracker → Call → Prop} (reached : System.Reaches New call guard t) : Tidy t := by
  apply reached.invariant Tidy
  · intro t new
    obtain ⟨allocator,rfl⟩ := new
    exact ⟨separated_nil,Nat.zero_le _⟩
  · intro t c tidy _
    exact tidy_call t c tidy

theorem small_call (t : AckTracker) (c : Call) (tidy : Tidy t) (small : ∀ r ∈ t.slots, r.largest ≤ Varint.maxValue)
    (inRange : InRange t c) : ∀ r ∈ (t.call c).slots, r.largest ≤ Varint.maxValue := by
  intro r member
  rcases call_frame t c with ⟨e,rfl⟩ | none | ⟨slots,_⟩
  · change r ∈ (e.apply t).slots at member
    have records := AckRun.apply_records e t
    rw [records.slots] at member
    rcases insert_spec e.granted t e.call.pn tidy.sorted tidy.fits with ⟨_,_,same⟩ | ⟨_,_,effect⟩
    · rw [same] at member
      exact small r member
    · have proper := effect.sorted.proper r member
      have covered : Covered (t.insert e.granted e.call.pn).2.slots r.largest :=
        ⟨r,member,Nat.le_of_lt_succ proper,Nat.lt_succ_self _⟩
      rcases (effect.covers r.largest).mp covered with here | ⟨⟨other,before,_,below⟩,_⟩
      · rw [here]
        exact inRange
      · exact (Nat.le_of_lt_succ below).trans (small other before)
  · rw [none] at member
    cases member
  · rw [slots] at member
    exact small r member

theorem small_run (t : AckTracker) (reached : System.Reaches New call InRange t) :
    ∀ r ∈ t.slots, r.largest ≤ Varint.maxValue := by
  apply reached.invariant_under Tidy (fun t => ∀ r ∈ t.slots, r.largest ≤ Varint.maxValue)
  · exact fun t reached => tidy_run t reached
  · intro t new
    obtain ⟨allocator,rfl⟩ := new
    exact nofun
  · exact fun t c tidy small inRange => small_call t c tidy small inRange

/-- The frames of every tracker that calls lead to, and the walk over any frame. -/
theorem ack_frames_walk :
    (∀ t, System.Reaches New call (fun _ _ => True) t →
      ∀ ackDelayScaled bufferLen maxRangesBytes maxLowerRanges ecnCounts,
      (∀ frame, t.toAckFrameLimitedRangesWithEcn ackDelayScaled bufferLen maxRangesBytes maxLowerRanges ecnCounts = .ok frame →
        ∃ count, (iter frame).walk = ((t.slots.reverse.take (count+1)).map Range.interval,none) ∧
          count+1 ≤ t.rangeCount ∧ count ≤ maxLowerRanges ∧
          rangesEncodedLen (t.pairsOf.take count) ≤ min bufferLen maxRangesBytes ∧
          (count+1 = t.rangeCount ∨ count = maxLowerRanges ∨
            min bufferLen maxRangesBytes < rangesEncodedLen (t.pairsOf.take (count+1)))) ∧
      ∀ frame, t.toAckFrameWithEcn ackDelayScaled bufferLen ecnCounts = .ok frame →
        (iter frame).walk = (t.slots.reverse.map Range.interval,none)) ∧
    (∀ t, System.Reaches New call InRange t → t.slots ≠ [] → ∀ ackDelayScaled bufferLen ecnCounts,
      (∀ maxRangesBytes maxLowerRanges, ∃ frame,
        t.toAckFrameLimitedRangesWithEcn ackDelayScaled bufferLen maxRangesBytes maxLowerRanges ecnCounts = .ok frame) ∧
      ((∃ frame, t.toAckFrameWithEcn ackDelayScaled bufferLen ecnCounts = .ok frame) ↔
        rangesEncodedLen t.pairsOf ≤ bufferLen)) ∧
    ∀ frame : Ack, (iter frame).walk.1.IsChain Above ∧ (∀ i ∈ (iter frame).walk.1, i.smallest ≤ i.largest) ∧
      ((iter frame).walk = ([],some .invalidLength) ∨
        frame.firstRange ≤ frame.largestAcked ∧ ∃ pairs used rest, frame.rangesBytes = used ++ rest ∧
          SpellsPairs pairs used ∧ Descends (frame.largestAcked-frame.firstRange) pairs ∧
          (iter frame).walk.1 = firstInterval frame::intervalsBelow (frame.largestAcked-frame.firstRange) pairs ∧
          ((iter frame).walk.2 = none → pairs.length = frame.rangeCount)) := by
  refine ⟨?_,?_,?_⟩
  · intro t reached ackDelayScaled bufferLen maxRangesBytes maxLowerRanges ecnCounts
    have sorted := (tidy_run t reached).sorted
    constructor
    · intro frame ok
      obtain ⟨count,acknowledges,_⟩ := limited_acknowledges sorted ok
      obtain ⟨packs,_,fewer,_,walk⟩ := acknowledges
      have pairs := length_pairsOf t
      refine ⟨count,walk,fewer,?_,?_,?_⟩
      · have few := packs.few
        omega
      · rw [← packs.size]
        have fits := packs.fits
        omega
      · rcases packs.stops with all | most | large
        · exact .inl (by omega)
        · exact .inr (.inl (by omega))
        · exact .inr (.inr (by omega))
    · exact fun frame ok => (withEcn_acknowledges sorted ok).1
  · intro t reached some ackDelayScaled bufferLen ecnCounts
    have tidy := tidy_run t reached
    have small := small_run t reached
    refine ⟨fun _ _ => limited_ok _ _ _ _ _ tidy.sorted some small,?_⟩
    have exactly := withEcn_ok ackDelayScaled bufferLen ecnCounts tidy.sorted some tidy.few small
    constructor
    · intro made
      obtain ⟨frame,ok⟩ := made
      exact (withEcn_acknowledges tidy.sorted ok).2
    · intro room
      rwa [if_pos room] at exactly
  · intro frame
    obtain ⟨chain,proper⟩ := walk_down frame
    refine ⟨chain,proper,(iter_reads frame).imp_right ?_⟩
    intro reads
    obtain ⟨inside,pairs,used,rest,bytes,spells,down,_,yields,all⟩ := reads
    exact ⟨inside,pairs,used,rest,bytes,spells,down,yields,all⟩

/-- Three ranges, and room for one pair: the frame leaves out the lowest range. -/
theorem ack_frames_walk_short :
    let t := System.run call {} ([1,2,5,9].map (fun pn => .add ⟨.add pn 0,false⟩))
    ∃ frame, t.toAckFrameLimitedRangesWithEcn 0 64 3 10 none = .ok frame ∧
      (iter frame).walk = ([⟨9,9⟩,⟨5,5⟩],none) := by
  intro t
  have inRange (pn : Nat) (small : pn ≤ 9) (s : AckTracker) : InRange s (.add ⟨.add pn 0,false⟩) :=
    Nat.le_trans small (by decide)
  have reached : System.Reaches New call InRange t := System.Reaches.run _ (.start ⟨false,rfl⟩)
    ⟨inRange 1 (by decide) _,inRange 2 (by decide) _,inRange 5 (by decide) _,inRange 9 (by decide) _,trivial⟩
  obtain ⟨frame,ok⟩ := (ack_frames_walk.2.1 t reached (by decide) 0 64 none).1 3 10
  obtain ⟨count,walk,fewer,_,fits,stops⟩ :=
    (ack_frames_walk.1 t (reached.relax fun _ _ _ => trivial) 0 64 3 10 none).1 frame ok
  have ranges : t.rangeCount = 3 := rfl
  have pairs : t.pairsOf = [{gap := 2,length := 0},{gap := 1,length := 1}] := rfl
  rw [ranges] at fewer stops
  rw [pairs] at fits stops
  have one : count = 1 := by
    match count with
    | 0 => revert stops; decide
    | 1 => rfl
    | 2 => revert fits; decide
    | more+3 => omega
  rw [one] at walk
  exact ⟨frame,ok,walk⟩

end QuicZig.Conn.AckTracker
