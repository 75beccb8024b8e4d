import QuicZig.Conn.AckTracker
import QuicZig.Library.System

/-! Which packet numbers a tracker knows after any sequence of additions. -/
namespace QuicZig.Conn.AckRun
open Machine Spans AckTracker

inductive Addition where
  | addPacketUs (pn nowUs : Nat) (ackEliciting : Bool)
  | addPacket (pn nowMs : Nat) (ackEliciting : Bool)
  | addPacketDelayed (pn nowMs : Nat) (ackEliciting : Bool)
      (packetThreshold nowUs quickGapUs reorderThreshold : Nat)
  | add (pn nowMs : Nat)

def Addition.pn : Addition → Nat
  | .addPacketUs pn .. => pn
  | .addPacket pn .. => pn
  | .addPacketDelayed pn .. => pn
  | .add pn .. => pn

/-- An addition with the allocator's answer to a request for the heap block. -/
structure Event where
  call : Addition
  granted : Bool

def Event.apply (e : Event) (t : AckTracker) : AckTracker :=
  match e.call with
  | .addPacketUs pn nowUs ackEliciting => t.addPacketUs e.granted pn nowUs ackEliciting
  | .addPacket pn nowMs ackEliciting => t.addPacket e.granted pn nowMs ackEliciting
  | .addPacketDelayed pn nowMs ackEliciting threshold nowUs quickGapUs reorderThreshold =>
    t.addPacketDelayed e.granted pn nowMs ackEliciting threshold nowUs quickGapUs reorderThreshold
  | .add pn nowMs => t.add e.granted pn nowMs

/-- The tracker with the numbers it was given, latest first. A number is forgotten from the moment
its range is dropped until it is added again. -/
structure History where
  tracker : AckTracker
  added : List Nat := []
  forgotten : Nat → Bool := fun _ => false

/-- The numbers of the range that recording `pn` drops. -/
def forgets (granted : Bool) (t : AckTracker) (pn x : Nat) : Bool :=
  match t.dropped granted pn with
  | some r => decide (r.smallest ≤ x ∧ x < r.stop)
  | none => false

def step (h : History) (e : Event) : History where
  tracker := e.apply h.tracker
  added := e.call.pn::h.added
  forgotten x := decide (x ≠ e.call.pn) && (h.forgotten x || forgets e.granted h.tracker e.call.pn x)

/-- No range yet; the heap block may be left from before a reset. -/
def Fresh (h : History) : Prop := ∃ allocator heap, h = {tracker := {allocator := allocator,heap := heap}}

/-- What an addition does besides scheduling: it takes the ranges of `insert`, and a larger largest number. -/
structure Records (t : AckTracker) (pn : Nat) (inserted : Bool × AckTracker) (after : AckTracker) : Prop where
  slots : after.slots = inserted.2.slots
  capacity : after.capacity = inserted.2.capacity
  largest : after.largest = if inserted.1 && t.raisesLargest pn then some pn else inserted.2.largest

theorem addPacketUs_records (granted : Bool) (t : AckTracker) (pn nowUs : Nat) (ackEliciting : Bool) :
    Records t pn (t.insert granted pn) (t.addPacketUs granted pn nowUs ackEliciting) := by
  unfold addPacketUs
  generalize t.insert granted pn = result
  rcases result with ⟨inserted,after⟩
  cases inserted
  · exact ⟨rfl,rfl,rfl⟩
  · cases raised : t.raisesLargest pn <;> cases ackEliciting <;> exact ⟨rfl,rfl,by simp [raised]⟩

theorem addPacket_records (granted : Bool) (t : AckTracker) (pn nowMs : Nat) (ackEliciting : Bool) :
    Records t pn (t.insert granted pn) (t.addPacket granted pn nowMs ackEliciting) := by
  have records := addPacketUs_records granted t pn (min (nowMs*1000) maxU64) ackEliciting
  unfold addPacket
  dsimp only
  split
  · exact ⟨records.slots,records.capacity,records.largest⟩
  · exact records

theorem armDelayed_frame (t previous : AckTracker) (pn nowMs threshold nowUs effectiveUs quickGapUs reorderThreshold : Nat) :
    let after := t.armDelayed previous pn nowMs threshold nowUs effectiveUs quickGapUs reorderThreshold
    after.slots = t.slots ∧ after.capacity = t.capacity ∧ after.largest = t.largest := by
  unfold armDelayed
  dsimp only
  split
  · exact ⟨rfl,rfl,rfl⟩
  · split <;> split <;> exact ⟨rfl,rfl,rfl⟩

theorem addPacketDelayed_records (granted : Bool) (t : AckTracker) (pn nowMs : Nat) (ackEliciting : Bool)
    (threshold nowUs quickGapUs reorderThreshold : Nat) :
    Records t pn (t.insert granted pn)
      (t.addPacketDelayed granted pn nowMs ackEliciting threshold nowUs quickGapUs reorderThreshold) := by
  unfold addPacketDelayed
  generalize t.insert granted pn = result
  rcases result with ⟨inserted,after⟩
  cases inserted
  · exact ⟨rfl,rfl,rfl⟩
  dsimp only
  cases raised : t.raisesLargest pn <;> cases ackEliciting
  · exact ⟨rfl,rfl,by simp [raised]⟩
  · obtain ⟨slots,capacity,largest⟩ := armDelayed_frame after t pn nowMs threshold nowUs _ quickGapUs reorderThreshold
    exact ⟨slots,capacity,by simpa [raised] using largest⟩
  · exact ⟨rfl,rfl,by simp [raised]⟩
  · obtain ⟨slots,capacity,largest⟩ := armDelayed_frame _ t pn nowMs threshold nowUs _ quickGapUs reorderThreshold
    exact ⟨slots,capacity,by simpa [raised] using largest⟩

theorem apply_records (e : Event) (t : AckTracker) :
    Records t e.call.pn (t.insert e.granted e.call.pn) (e.apply t) := by
  rcases e with ⟨call,granted⟩
  cases call with
  | addPacketUs => exact addPacketUs_records ..
  | addPacket => exact addPacket_records ..
  | addPacketDelayed => exact addPacketDelayed_records ..
  | add => exact addPacket_records ..

/-- What holds of the tracker after every addition. -/
structure Faithful (h : History) : Prop where
  sorted : Sorted h.tracker.slots
  fits : h.tracker.rangeCount ≤ h.tracker.capacity
  largest : h.tracker.largest = h.added.max?
  known : ∀ x, Covered h.tracker.slots x ↔ x ∈ h.added ∧ h.forgotten x = false

theorem fresh_faithful (h : History) (fresh : Fresh h) : Faithful h := by
  obtain ⟨allocator,heap,rfl⟩ := fresh
  exact ⟨separated_nil,Nat.zero_le _,rfl,by simp⟩

theorem max_cons (t : AckTracker) (pn : Nat) (added : List Nat) (largest : t.largest = added.max?) :
    (pn::added).max? = if t.raisesLargest pn then some pn else t.largest := by
  unfold raisesLargest
  rw [List.max?_cons,largest]
  cases added.max? with
  | none => rfl
  | some m =>
    by_cases above : pn > m
    · simp [above,Nat.max_eq_left (Nat.le_of_lt above)]
    · simp [above,Nat.max_eq_right (Nat.le_of_not_lt above)]

theorem dropped_covered {granted : Bool} {t : AckTracker} {pn : Nat} {r : Range} (drops : t.dropped granted pn = some r) :
    r ∈ t.slots := by
  unfold dropped at drops
  split at drops
  · exact List.mem_of_mem_head? drops
  · cases drops

theorem forgets_iff (granted : Bool) (t : AckTracker) (pn x : Nat) :
    forgets granted t pn x = false ↔ ∀ r, t.dropped granted pn = some r → ¬ (r.smallest ≤ x ∧ x < r.stop) := by
  unfold forgets
  cases t.dropped granted pn with
  | none => simp
  | some r =>
    rw [decide_eq_false_iff_not]
    constructor
    · intro outside r' same
      rw [← Option.some.inj same]
      exact outside
    · intro outside
      exact outside r rfl

theorem forgets_known {granted : Bool} {t : AckTracker} {pn : Nat} (covered : Covered t.slots pn) (x : Nat) :
    forgets granted t pn x = false := by
  obtain ⟨r,member,low,high⟩ := covered
  unfold Range.stop at high
  have keeps : t.dropped granted pn = none := dropped_none member (by omega)
  simp [forgets,keeps]

/-- An addition keeps the normal form; `pn` is covered after it, and so is what was covered and is not dropped. -/
theorem addition_spec (e : Event) {t : AckTracker} (sorted : Sorted t.slots) (fits : t.rangeCount ≤ t.capacity) :
    Sorted (e.apply t).slots ∧ (e.apply t).rangeCount ≤ (e.apply t).capacity ∧
      ∀ x, Covered (e.apply t).slots x ↔ x = e.call.pn ∨ (Covered t.slots x ∧ forgets e.granted t e.call.pn x = false) := by
  have records := apply_records e t
  unfold rangeCount
  rw [records.slots,records.capacity]
  rcases insert_spec e.granted t e.call.pn sorted fits with ⟨old,covered,same⟩ | ⟨new,outside,effect⟩
  · rw [same]
    refine ⟨sorted,fits,?_⟩
    intro x
    rw [forgets_known covered x]
    by_cases here : x = e.call.pn
    · simp [here,covered]
    · simp [here]
  · refine ⟨effect.sorted,effect.fits,?_⟩
    intro x
    rw [effect.covers x,forgets_iff]

theorem faithful_step (h : History) (e : Event) (faithful : Faithful h) : Faithful (step h e) := by
  have records := apply_records e h.tracker
  have newest := max_cons h.tracker e.call.pn h.added faithful.largest
  rcases insert_spec e.granted h.tracker e.call.pn faithful.sorted faithful.fits with
    ⟨old,covered,same⟩ | ⟨new,outside,effect⟩
  · obtain ⟨member,kept⟩ := (faithful.known _).mp covered
    have slots : (e.apply h.tracker).slots = h.tracker.slots := by rw [records.slots,same]
    refine ⟨?_,?_,?_,?_⟩
    · exact slots ▸ faithful.sorted
    · have capacity : (e.apply h.tracker).capacity = h.tracker.capacity := by rw [records.capacity,same]
      change (e.apply h.tracker).slots.length ≤ _
      rw [slots,show (step h e).tracker.capacity = _ from capacity]
      exact faithful.fits
    · -- The largest number is at least this one, which was added before.
      change (e.apply h.tracker).largest = (e.call.pn::h.added).max?
      rw [records.largest,old,same,newest]
      have notRaised : h.tracker.raisesLargest e.call.pn = false := by
        unfold raisesLargest
        rw [faithful.largest]
        cases top : h.added.max? with
        | none =>
          rw [List.max?_eq_none_iff.mp top] at member
          cases member
        | some m =>
          have bound := (List.max?_eq_some_iff.mp top).2 _ member
          simpa using bound
      simp [notRaised]
    · intro x
      change Covered (e.apply h.tracker).slots x ↔ x ∈ e.call.pn::h.added ∧ (_ && _) = false
      rw [slots,faithful.known x,forgets_known covered x]
      by_cases here : x = e.call.pn
      · simp [here,member,kept]
      · simp [here]
  · refine ⟨?_,?_,?_,?_⟩
    · exact records.slots ▸ effect.sorted
    · change (e.apply h.tracker).slots.length ≤ (e.apply h.tracker).capacity
      rw [records.slots,records.capacity]
      exact effect.fits
    · change (e.apply h.tracker).largest = (e.call.pn::h.added).max?
      obtain ⟨slots,heap,frame⟩ := effect.frame
      have unchanged : (h.tracker.insert e.granted e.call.pn).2.largest = h.tracker.largest := by rw [frame]
      rw [records.largest,new,newest,unchanged,Bool.true_and]
    · intro x
      change Covered (e.apply h.tracker).slots x ↔ x ∈ e.call.pn::h.added ∧ (_ && _) = false
      rw [records.slots,effect.covers x,faithful.known x,← forgets_iff]
      by_cases here : x = e.call.pn
      · simp [here]
      · simp [here,and_assoc]

theorem faithful_run (h : History) (reached : System.Reaches Fresh step (fun _ _ => True) h) : Faithful h :=
  reached.invariant Faithful fresh_faithful (fun h e faithful _ => faithful_step h e faithful)

/-- After any additions the ranges are in normal form, `contains` reads them exactly, `largest` is the
largest number added, and the ranges hold the added numbers that were not forgotten since. -/
theorem covered_exactly (h : History) (reached : System.Reaches Fresh step (fun _ _ => True) h) :
    Sorted h.tracker.slots ∧
    (∀ x, h.tracker.contains x = true ↔ Covered h.tracker.slots x) ∧
    h.tracker.largest = h.added.max? ∧
    ∀ x, Covered h.tracker.slots x ↔ x ∈ h.added ∧ h.forgotten x = false := by
  have faithful := faithful_run h reached
  exact ⟨faithful.sorted,fun x => containsFrom_iff x _ faithful.sorted,faithful.largest,faithful.known⟩

/-- At some addition that opens a range in a full tracker, `x` was in the lowest range, or was the number
added and below every range. -/
def LowestWhenFull (initial : History) (events : List Event) (x : Nat) : Prop :=
  ∃ front e back, events = front ++ e::back ∧
    let t := (System.run step initial front).tracker
    t.full e.granted = true ∧ t.opensRange e.call.pn = true ∧
      ((∃ r ∈ t.slots.head?, r.smallest ≤ x ∧ x ≤ r.largest) ∨ (x = e.call.pn ∧ ∀ r ∈ t.slots, x < r.smallest))

/-- A number below every range of a full tracker is kept: the range above it is dropped instead. -/
theorem lowest_added_kept :
    ¬ ∀ (events : List Event) (x : Nat),
      let h := System.run step {tracker := {}} events
      Covered h.tracker.slots x ↔ x ∈ h.added ∧ ¬ LowestWhenFull {tracker := {}} events x := by
  intro exactly
  let additions (pns : List Nat) : List Event := pns.map (fun pn => ⟨.add pn 0,false⟩)
  have both := exactly (additions [2,4,6,8,10,12,14,16,0]) 0
  have covered : Covered (System.run step {tracker := {}} (additions [2,4,6,8,10,12,14,16,0])).tracker.slots 0 := by decide
  apply (both.mp covered).2
  exact ⟨additions [2,4,6,8,10,12,14,16],⟨.add 0 0,false⟩,[],rfl,by decide,by decide,.inr ⟨rfl,by decide⟩⟩

/-- The same nine additions: the lowest is covered, and the one that was the lowest before it is forgotten. -/
theorem covered_exactly_nine :
    let h := System.run step {tracker := {}} ([2,4,6,8,10,12,14,16,0].map (fun pn => ⟨.add pn 0,false⟩))
    (h.tracker.contains 0 = true ∧ h.forgotten 0 = false) ∧ h.tracker.contains 2 = false ∧ h.forgotten 2 = true := by
  intro h
  have reached : System.Reaches Fresh step (fun _ _ => True) h :=
    System.Reaches.run _ (.start ⟨false,false,rfl⟩) ⟨trivial,trivial,trivial,trivial,trivial,trivial,trivial,trivial,
      trivial,trivial⟩
  obtain ⟨_,contains,_,known⟩ := covered_exactly h reached
  have kept := (known 0).mp (by decide)
  exact ⟨⟨(contains 0).mpr (by decide),kept.2⟩,by decide,by decide⟩

/-! Adding a packet number that the tracker already knows. -/

/-- The range that holds a known number is the first one that does not end below it. -/
theorem containsFrom_dropWhile {pn : Nat} {slots : List Range} (known : containsFrom pn slots = true) :
    ∃ next rest, slots.dropWhile (·.largest < pn) = next::rest ∧ next.smallest ≤ pn := by
  induction slots with
  | nil => cases known
  | cons r rest ih =>
    rw [containsFrom] at known
    split at known
    · cases known
    rename_i low
    split at known
    · rename_i high
      refine ⟨r,rest,?_,Nat.le_of_not_lt low⟩
      simp [Nat.not_lt.mpr high]
    · rename_i high
      rw [List.dropWhile_cons_of_pos (by simpa using high)]
      exact ih known

/-- A known number is recognised before anything of the tracker is written. -/
theorem insert_known (granted : Bool) {t : AckTracker} {pn : Nat} (known : t.contains pn = true) :
    t.insert granted pn = (false,t) := by
  obtain ⟨next,rest,above,low⟩ := containsFrom_dropWhile known
  unfold AckTracker.insert
  simp only [above]
  exact if_pos low

theorem addPacketUs_known (granted : Bool) {t : AckTracker} {pn : Nat} (known : t.contains pn = true) (nowUs : Nat)
    (ackEliciting : Bool) : t.addPacketUs granted pn nowUs ackEliciting = t := by
  unfold addPacketUs
  rw [insert_known granted known]
  rfl

theorem addPacketDelayed_known (granted : Bool) {t : AckTracker} {pn : Nat} (known : t.contains pn = true) (nowMs : Nat)
    (ackEliciting : Bool) (threshold nowUs quickGapUs reorderThreshold : Nat) :
    t.addPacketDelayed granted pn nowMs ackEliciting threshold nowUs quickGapUs reorderThreshold = t := by
  unfold addPacketDelayed
  rw [insert_known granted known]
  rfl

/-- `addPacket` compares with the largest number after the addition, so a duplicate of it is stamped again. -/
theorem addPacket_known (granted : Bool) {t : AckTracker} {pn : Nat} (known : t.contains pn = true) (nowMs : Nat)
    (ackEliciting : Bool) : t.addPacket granted pn nowMs ackEliciting =
      if t.largest = some pn then {t with largestAtMs := nowMs} else t := by
  unfold addPacket
  rw [addPacketUs_known granted known]

/-- The addition gives the largest number a receive time other than the one it has. -/
def Event.Restamps (e : Event) (t : AckTracker) : Prop :=
  match e.call with
  | .addPacket pn nowMs _ => t.largest = some pn ∧ t.largestAtMs ≠ nowMs
  | .add pn nowMs => t.largest = some pn ∧ t.largestAtMs ≠ nowMs
  | .addPacketUs .. => False
  | .addPacketDelayed .. => False

theorem stamped_iff (t : AckTracker) (pn nowMs : Nat) :
    (if t.largest = some pn then {t with largestAtMs := nowMs} else t) = t ↔
      ¬ (t.largest = some pn ∧ t.largestAtMs ≠ nowMs) := by
  split
  · rename_i largest
    constructor
    · intro same both
      exact both.2 (congrArg AckTracker.largestAtMs same).symm
    · intro stays
      have at' : t.largestAtMs = nowMs := by
        by_contra other
        exact stays ⟨largest,other⟩
      rw [← at']
  · rename_i other
    exact iff_of_true rfl (fun both => other both.1)

/-- A duplicate leaves the tracker as it is, unless it comes through `addPacket` or `add`, is the
largest number, and arrives at another time. -/
theorem duplicate_unchanged_iff (t : AckTracker) (e : Event) (known : t.contains e.call.pn = true) :
    e.apply t = t ↔ ¬ e.Restamps t := by
  rcases e with ⟨call,granted⟩
  cases call with
  | addPacketUs pn nowUs ackEliciting =>
    exact iff_of_true (addPacketUs_known granted known nowUs ackEliciting) id
  | addPacketDelayed pn nowMs ackEliciting threshold nowUs quickGapUs reorderThreshold =>
    exact iff_of_true (addPacketDelayed_known granted known nowMs ackEliciting threshold nowUs quickGapUs
      reorderThreshold) id
  | addPacket pn nowMs ackEliciting =>
    change t.addPacket granted pn nowMs ackEliciting = t ↔ ¬ (t.largest = some pn ∧ t.largestAtMs ≠ nowMs)
    rw [addPacket_known granted (show t.contains pn = true from known)]
    exact stamped_iff t pn nowMs
  | add pn nowMs =>
    change t.addPacket granted pn nowMs true = t ↔ ¬ (t.largest = some pn ∧ t.largestAtMs ≠ nowMs)
    rw [addPacket_known granted (show t.contains pn = true from known)]
    exact stamped_iff t pn nowMs

/-- Packet 5 is known since 1000 ms. -/
def knownFive : AckTracker := ({} : AckTracker).add false 5 1000

/-- A duplicate at the same time changes nothing. -/
theorem duplicate_at_once : (Event.mk (.add 5 1000) false).apply knownFive = knownFive :=
  (duplicate_unchanged_iff knownFive ⟨.add 5 1000,false⟩ (by decide)).mpr (by
    change ¬ (knownFive.largest = some 5 ∧ knownFive.largestAtMs ≠ 1000)
    decide)

/-- A duplicate a second later moves the receive time of the largest number. -/
theorem duplicate_restamped : ¬ ∀ (t : AckTracker) (e : Event), t.contains e.call.pn = true → e.apply t = t := by
  intro unchanged
  have same := unchanged knownFive ⟨.add 5 2000,false⟩ (by decide)
  exact absurd (congrArg AckTracker.largestAtMs same) (by decide)

end QuicZig.Conn.AckRun
