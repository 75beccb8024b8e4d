import Mathlib.Data.Finmap
import QuicZig.Conn.InFlightMap
import QuicZig.Library.Refinement

/-! The in-flight ring against a finite map from packet number to chunk. Both run the
same operations; the ring answers what the map answers. -/
namespace QuicZig.Conn.InFlightRun
open Machine InFlightMap

inductive Op where
  | ensureTotalCapacity (granted : Bool) (minCap : Nat)
  | ensureUnusedCapacity (granted : Bool) (extra : Nat)
  | put (pn : Nat) (c : Chunk)
  | fetchRemove (pn : Nat)
  | getPtr (pn : Nat)
  | contains (pn : Nat)
  /-- The write through a pointer that `onPacketProbeRequeued` makes. -/
  | markRequeued (pn : Nat)
  | count
  | clearRetainingCapacity
  deriving DecidableEq

inductive Answer where
  | done
  | chunk (found : Option Chunk)
  | present (yes : Bool)
  | size (n : Nat)
  deriving DecidableEq

def step (m : InFlightMap) : Op → InFlightMap
  | .ensureTotalCapacity granted minCap => (m.ensureTotalCapacity granted minCap).2
  | .ensureUnusedCapacity granted extra => (m.ensureUnusedCapacity granted extra).2
  | .put pn c => m.putAssumeCapacityNoClobber pn c
  | .fetchRemove pn => ((m.fetchRemove pn).map Prod.snd).getD m
  | .markRequeued pn =>
    match m.getPtr pn with
    | some c => m.update pn {c with requeuedForProbe := true}
    | none => m
  | .clearRetainingCapacity => {m with head := 0,span := 0,live := 0}
  | .getPtr _ | .contains _ | .count => m

def answer (m : InFlightMap) : Op → Answer
  | .fetchRemove pn => .chunk ((m.fetchRemove pn).map Prod.fst)
  | .getPtr pn => .chunk (m.getPtr pn)
  | .contains pn => .present (m.contains pn)
  | .count => .size m.live
  | _ => .done

/-- What `putAssumeCapacityNoClobber` asserts of its caller: a free cell, once the ring
is compacted, and no chunk in flight under the number. -/
def Asserted (m : InFlightMap) : Op → Prop
  | .put pn _ => m.live < m.cap ∧ m.contains pn = false
  | _ => True

instance (m : InFlightMap) (op : Op) : Decidable (Asserted m op) := by
  cases op <;> unfold Asserted <;> infer_instance

/-- The map that the ring stands for. -/
abbrev Table := Finmap fun _ : Nat => Chunk

namespace Table

def step (t : Table) : Op → Table
  | .put pn c => t.insert pn {c with dead := false}
  | .fetchRemove pn => t.erase pn
  | .markRequeued pn =>
    match t.lookup pn with
    | some c => t.insert pn {c with requeuedForProbe := true}
    | none => t
  | .clearRetainingCapacity => ∅
  | _ => t

def answer (t : Table) : Op → Answer
  | .fetchRemove pn | .getPtr pn => .chunk (t.lookup pn)
  | .contains pn => .present (t.lookup pn).isSome
  | .count => .size t.keys.card
  | _ => .done

end Table

/-- The live entries of a sound ring are the entries of the map. -/
structure Refines (m : InFlightMap) (t : Table) : Prop where
  sound : m.Sound
  same : ∀ pn c, m.Holds pn c ↔ t.lookup pn = some c

theorem Refines.getPtr {m : InFlightMap} {t : Table} (refines : Refines m t) (pn : Nat) : m.getPtr pn = t.lookup pn := by
  apply Option.ext
  intro c
  rw [getPtr_iff refines.sound,refines.same]

theorem Refines.contains {m : InFlightMap} {t : Table} (refines : Refines m t) (pn : Nat) :
    m.contains pn = (t.lookup pn).isSome := by
  rw [← refines.getPtr]
  unfold InFlightMap.contains InFlightMap.getPtr
  rw [Option.isSome_map]

theorem Refines.fetchRemove {m : InFlightMap} {t : Table} (refines : Refines m t) (pn : Nat) :
    (m.fetchRemove pn).map Prod.fst = t.lookup pn := by
  cases removed : m.fetchRemove pn with
  | none =>
    have absent := (fetchRemove_none refines.sound).mp removed
    have missing : m.getPtr pn = none := (getPtr_none refines.sound pn).mpr absent
    exact missing.symm.trans (refines.getPtr pn)
  | some result =>
    obtain ⟨c,after⟩ := result
    obtain ⟨held,_⟩ := fetchRemove_some refines.sound removed
    exact ((refines.same pn c).mp held).symm

theorem Refines.count {m : InFlightMap} {t : Table} (refines : Refines m t) : m.live = t.keys.card := by
  have distinct : (m.alive.map Entry.pn).Nodup := by
    rw [List.Nodup,List.pairwise_map]
    exact refines.sound.alive_ascending.imp Nat.ne_of_lt
  have keys : (m.alive.map Entry.pn).toFinset = t.keys := by
    ext pn
    rw [List.mem_toFinset,List.mem_map,Finmap.mem_keys,Finmap.mem_iff]
    constructor
    · rintro ⟨e,member,rfl⟩
      exact ⟨e.chunk,(refines.same e.pn e.chunk).mp member⟩
    · rintro ⟨c,found⟩
      exact ⟨⟨pn,c⟩,(refines.same pn c).mpr found,rfl⟩
  rw [refines.sound.counted,← keys,List.toFinset_card_of_nodup distinct,List.length_map]

theorem Refines.same_alive {m after : InFlightMap} {t : Table} (refines : Refines m t) (sound : after.Sound)
    (alive : after.alive = m.alive) : Refines after t := by
  refine ⟨sound,?_⟩
  intro pn c
  rw [← refines.same]
  unfold Holds
  rw [alive]

/-- An entry that is put, or written again under its number, is the map's entry. -/
theorem Refines.write {m after : InFlightMap} {t : Table} {pn : Nat} {c : Chunk} (refines : Refines m t)
    (sound : after.Sound) (written : ∀ e, e ∈ after.alive ↔ e = ⟨pn,c⟩ ∨ (e ∈ m.alive ∧ e.pn ≠ pn)) :
    Refines after (t.insert pn c) := by
  refine ⟨sound,?_⟩
  intro other d
  unfold Holds
  rw [written,Entry.mk.injEq]
  by_cases same : other = pn
  · rw [same,Finmap.lookup_insert]
    simp [eq_comm]
  · rw [Finmap.lookup_insert_of_ne _ same,← refines.same]
    simp [same,Holds]

theorem refines_step (m : InFlightMap) (t : Table) (op : Op) (refines : Refines m t) (asserted : Asserted m op) :
    Refines (step m op) (t.step op) := by
  have sound := refines.sound
  cases op with
  | ensureTotalCapacity granted minCap =>
    obtain ⟨sound',alive,_⟩ := ensureTotalCapacity_spec granted m minCap sound
    exact refines.same_alive sound' alive
  | ensureUnusedCapacity granted extra =>
    obtain ⟨sound',alive,_⟩ := ensureUnusedCapacity_spec granted m extra sound
    exact refines.same_alive sound' alive
  | put pn c =>
    obtain ⟨room,free⟩ := asserted
    have absent : ∀ c, ¬m.Holds pn c := by
      intro c held
      have := (contains_iff sound pn).mpr ⟨c,held⟩
      rw [free] at this
      exact Bool.false_ne_true this
    obtain ⟨sound',members⟩ := put_spec sound pn c (sound.counted ▸ room) absent
    refine refines.write sound' ?_
    intro e
    refine (members e).trans (or_congr_right ⟨fun member => ⟨member,?_⟩,And.left⟩)
    intro same
    exact absent e.chunk (same ▸ member)
  | fetchRemove pn =>
    cases removed : m.fetchRemove pn with
    | none =>
      have unchanged : step m (.fetchRemove pn) = m := by simp [step,removed]
      have missing : t.lookup pn = none := by
        rw [← refines.fetchRemove,removed]
        rfl
      rw [unchanged]
      refine ⟨sound,?_⟩
      intro other c
      by_cases same : other = pn
      · rw [same,refines.same,missing]
        simp [Table.step]
      · rw [refines.same]
        simp [Table.step,Finmap.lookup_erase_ne same]
    | some result =>
      obtain ⟨c,after⟩ := result
      obtain ⟨_,sound',members⟩ := fetchRemove_some sound removed
      have moved : step m (.fetchRemove pn) = after := by simp [step,removed]
      rw [moved]
      refine ⟨sound',?_⟩
      intro other d
      refine (members ⟨other,d⟩).trans ?_
      by_cases same : other = pn
      · subst same
        simp [Table.step]
      · simp only [ne_eq,same,not_false_eq_true,and_true,Table.step,Finmap.lookup_erase_ne same]
        exact refines.same other d
  | markRequeued pn =>
    simp only [step,Table.step,refines.getPtr pn]
    cases found : t.lookup pn with
    | none => exact refines
    | some c =>
      have held := (refines.same pn c).mpr found
      obtain ⟨sound',members⟩ := update_spec sound held (c := {c with requeuedForProbe := true}) held.not_dead
      exact refines.write sound' members
  | clearRetainingCapacity =>
    refine ⟨⟨sound.power,Nat.zero_le _,List.Pairwise.nil,rfl⟩,?_⟩
    intro pn c
    simp [Holds,alive,entries,step,Table.step]
  | getPtr _ | contains _ | count => exact refines

theorem refines_empty : Refines {} ∅ := by
  refine ⟨⟨.inl rfl,Nat.zero_le _,List.Pairwise.nil,rfl⟩,?_⟩
  intro pn c
  simp [Holds,alive,entries]

theorem answers_alike (m : InFlightMap) (t : Table) (op : Op) (refines : Refines m t) (asserted : Asserted m op) :
    answer m op = t.answer op := by
  cases op with
  | fetchRemove pn => exact congrArg Answer.chunk (refines.fetchRemove pn)
  | getPtr pn => exact congrArg Answer.chunk (refines.getPtr pn)
  | contains pn => exact congrArg Answer.present (refines.contains pn)
  | count => exact congrArg Answer.size refines.count
  | ensureTotalCapacity _ _ | ensureUnusedCapacity _ _ | put _ _ | markRequeued _ | clearRetainingCapacity => rfl

/-- The ring is small enough, and its head placed so, that the sums `head + i` of the
index arithmetic stay inside 32 bits. -/
structure Placed (m : InFlightMap) : Prop where
  small : m.cap ≤ 2^31
  inside : m.head < m.cap ∨ m.head = 0

theorem Placed.sum_lt {m : InFlightMap} (placed : Placed m) (sound : m.Sound) {i : Nat} (within : i ≤ m.span) :
    m.head+i < 2^32 := by
  obtain ⟨small,inside⟩ := placed
  have := sound.within
  omega

theorem Placed.keep {m after : InFlightMap} (placed : Placed m) (cap : after.cap = m.cap)
    (head : after.head = m.head ∨ after.head < m.cap ∨ after.head = 0) : Placed after := by
  obtain ⟨small,inside⟩ := placed
  refine ⟨cap.le.trans small,?_⟩
  rw [cap]
  omega

theorem compactLoop_frame (n : Nat) (m : InFlightMap) (readI writeI : Nat) :
    (m.compactLoop n readI writeI).1.cap = m.cap ∧ (m.compactLoop n readI writeI).1.head = m.head := by
  induction n generalizing m readI writeI with
  | zero => exact ⟨rfl,rfl⟩
  | succ n ih =>
    unfold compactLoop
    dsimp only
    split
    · exact ih ..
    · obtain ⟨cap,head⟩ := ih (if writeI ≠ readI then m.setAt writeI (m.entryAt readI) else m) (readI+1) (writeI+1)
      rw [cap,head]
      split
      · exact ⟨cap_setAt ..,rfl⟩
      · exact ⟨rfl,rfl⟩

theorem compact_placed {m : InFlightMap} (placed : Placed m) : Placed m.compact := by
  obtain ⟨cap,head⟩ := compactLoop_frame m.span m 0 0
  unfold compact
  split
  · exact placed
  split
  · exact placed.keep rfl (.inr (.inr rfl))
  · exact placed.keep cap (.inl head)

theorem ensureTotalCapacity_placed (granted : Bool) {m : InFlightMap} (minCap : Nat) (sound : m.Sound) (placed : Placed m) :
    Placed (m.ensureTotalCapacity granted minCap).2 := by
  unfold ensureTotalCapacity
  dsimp only
  split
  · exact placed
  split
  · split
    · exact compact_placed placed
    · exact placed
  split
  · exact placed
  split
  · exact placed
  · rename_i larger small _
    refine ⟨?_,.inr rfl⟩
    -- A power of two below 2^32 is at most 2^31.
    obtain ⟨k,power⟩ := ceilPowerOfTwo_power (max minCap 8)
    have shorter : (m.entries.filter Entry.alive).length ≤ ceilPowerOfTwo (max minCap 8) := by
      have counted : (m.entries.filter Entry.alive).length = m.live := sound.counted.symm
      have := le_ceilPowerOfTwo (max minCap 8)
      have := sound.live_le
      have := sound.within
      omega
    have size : (m.entries.filter Entry.alive ++
        List.replicate (ceilPowerOfTwo (max minCap 8)-(m.entries.filter Entry.alive).length) default).length = 2^k := by
      rw [List.length_append,List.length_replicate,← power]
      omega
    refine size.le.trans (Nat.pow_le_pow_right (by decide) ?_)
    by_contra big
    have : 2^32 ≤ 2^k := Nat.pow_le_pow_right (by decide) (by omega)
    rw [power] at small
    unfold maxU32 at small
    omega

theorem ensureUnusedCapacity_placed (granted : Bool) {m : InFlightMap} (extra : Nat) (sound : m.Sound) (placed : Placed m) :
    Placed (m.ensureUnusedCapacity granted extra).2 := by
  unfold ensureUnusedCapacity
  split
  · exact placed
  split
  · exact placed
  split
  · exact ensureTotalCapacity_placed granted _ sound placed
  · dsimp only
    split
    · exact compact_placed placed
    · exact placed

theorem put_placed {m : InFlightMap} (pn : Nat) (c : Chunk) (placed : Placed m) :
    Placed (m.putAssumeCapacityNoClobber pn c) := by
  unfold putAssumeCapacityNoClobber
  have start : Placed (if m.cap-m.span = 0 then m.compact else m) := by
    split
    · exact compact_placed placed
    · exact placed
  generalize (if m.cap-m.span = 0 then m.compact else m) = ready at start
  dsimp only
  split
  · exact start.keep (cap_setAt ..) (.inl rfl)
  split
  · exact start.keep (cap_setAt ..) (.inl rfl)
  · refine start.keep ?_ (.inl (head_shiftUp ..))
    exact (cap_setAt _ _ _).trans (cap_shiftUp ..)

theorem trimHead_placed (n : Nat) {m : InFlightMap} (placed : Placed m) : Placed (trimHead n m) := by
  induction n generalizing m with
  | zero => exact placed
  | succ n ih =>
    unfold trimHead
    split
    · apply ih
      refine placed.keep rfl (.inr ?_)
      have masked : (m.head+1) &&& (m.cap-1) ≤ m.cap-1 := Nat.and_le_right
      change (m.head+1) &&& (m.cap-1) < m.cap ∨ (m.head+1) &&& (m.cap-1) = 0
      omega
    · exact placed

theorem trimTail_placed (n : Nat) {m : InFlightMap} (placed : Placed m) : Placed (trimTail n m) := by
  induction n generalizing m with
  | zero => exact placed
  | succ n ih =>
    unfold trimTail
    split
    · exact ih (placed.keep rfl (.inl rfl))
    · exact placed

theorem settle_placed {m : InFlightMap} (logical : Nat) (placed : Placed m) : Placed (m.settle logical) := by
  unfold settle
  split
  · exact placed.keep rfl (.inr (.inr rfl))
  split
  · exact trimHead_placed _ placed
  split
  · exact trimTail_placed _ placed
  split
  · exact compact_placed placed
  · exact placed

theorem placed_step (m : InFlightMap) (op : Op) (sound : m.Sound) (placed : Placed m) : Placed (step m op) := by
  cases op with
  | ensureTotalCapacity granted minCap => exact ensureTotalCapacity_placed granted minCap sound placed
  | ensureUnusedCapacity granted extra => exact ensureUnusedCapacity_placed granted extra sound placed
  | put pn c => exact put_placed pn c placed
  | fetchRemove pn =>
    cases found : m.findLogicalIndex pn with
    | none =>
      have unchanged : step m (.fetchRemove pn) = m := by simp [step,fetchRemove,found]
      rw [unchanged]
      exact placed
    | some i =>
      simp only [step,fetchRemove,found,Option.map_some,Option.getD_some]
      apply settle_placed
      exact placed.keep (cap_setAt ..) (.inl rfl)
  | markRequeued pn =>
    cases found : m.findLogicalIndex pn with
    | none =>
      have unchanged : step m (.markRequeued pn) = m := by simp [step,getPtr,found]
      rw [unchanged]
      exact placed
    | some i =>
      simp only [step,getPtr,update,found,Option.map_some]
      exact placed.keep (cap_setAt ..) (.inl rfl)
  | clearRetainingCapacity => exact placed.keep rfl (.inr (.inr rfl))
  | getPtr _ | contains _ | count => exact placed

structure Stands (m : InFlightMap) (t : Table) : Prop where
  refines : Refines m t
  placed : Placed m

theorem ring_simulates : Refinement.Simulates Stands Asserted answer step Table.answer Table.step where
  alike m t op stands asserted := answers_alike m t op stands.refines asserted
  kept m t op stands asserted :=
    ⟨refines_step m t op stands.refines asserted,placed_step m op stands.refines.sound stands.placed⟩

theorem reserved_asserted {m : InFlightMap} (sound : m.Sound) {granted : Bool} {pn : Nat} (c : Chunk)
    (absent : m.contains pn = false) (reserved : (m.ensureUnusedCapacity granted 1).1 = .ok ()) :
    Asserted (m.ensureUnusedCapacity granted 1).2 (.put pn c) := by
  obtain ⟨sound',alive,room⟩ := ensureUnusedCapacity_spec granted m 1 sound
  have counted := sound'.counted
  rw [alive] at counted
  refine ⟨by have := room reserved; omega,?_⟩
  rw [Bool.eq_false_iff] at absent ⊢
  intro present
  obtain ⟨d,held⟩ := (contains_iff sound' pn).mp present
  refine absent ((contains_iff sound pn).mpr ⟨d,?_⟩)
  unfold Holds at held ⊢
  rwa [alive] at held

/-- From an empty ring on, every operation answers as the map does, and the index sums do not overflow. -/
theorem ring_is_finite_map (ops : List Op) (asserted : System.Admits step Asserted {} ops) :
    Refinement.answers answer step {} ops = Refinement.answers Table.answer Table.step ∅ ops ∧
      (∀ pn, (System.run step {} ops).getPtr pn = (System.run Table.step ∅ ops).lookup pn) ∧
      ∀ i ≤ (System.run step {} ops).span, (System.run step {} ops).head+i < 2^32 := by
  have start : Stands {} ∅ := ⟨refines_empty,⟨Nat.zero_le _,.inr rfl⟩⟩
  obtain ⟨same,refines,placed⟩ := ring_simulates.run start asserted
  refine ⟨same,refines.getPtr,?_⟩
  intro i within
  exact placed.sum_lt refines.sound within

/-- Puts out of order, a tombstone, a refused growth and a lookup of a removed number. -/
def outOfOrder : List Op :=
  [.ensureUnusedCapacity true 3,.put 5 ⟨0,2,false,false,false⟩,.put 9 ⟨2,2,false,false,false⟩,.put 7 ⟨4,1,true,false,false⟩,
    .ensureUnusedCapacity false 6,.fetchRemove 7,.getPtr 7,.markRequeued 9,.fetchRemove 9,.count]

theorem ring_is_finite_map_out_of_order : System.Admits step Asserted {} outOfOrder ∧
    Refinement.answers answer step {} outOfOrder = Refinement.answers Table.answer Table.step ∅ outOfOrder := by
  have asserted : System.Admits step Asserted {} outOfOrder := by decide
  exact ⟨asserted,(ring_is_finite_map outOfOrder asserted).1⟩

end QuicZig.Conn.InFlightRun
