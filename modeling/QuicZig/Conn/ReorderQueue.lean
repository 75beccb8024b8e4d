import QuicZig.Conn.ReorderWindow
import QuicZig.Library.Refinement

/-! The ring against a queue of notes: each lost packet is a note with its serial number, the queue
keeps the latest notes up to the size of the ring, and a note is reported when its packet arrives. -/
namespace QuicZig.Conn.Reorder
open Machine QuicZig.System QuicZig.Refinement
open Clock (RttEstimator granularityUs)
open Clock.Space (widestThresholdUs)

inductive Event where
  | note (block : Option Block) (pn sentTimeUs : Nat)
  | stamp (n episode : Nat)
  | ack (smallest largest : Nat) (previousLargestAcked : Option Nat) (nowUs : Nat) (rtt : RttEstimator)
  | settle (nowUs : Nat) (rtt : RttEstimator)
  | release

/-- A packet number is below the mark of a tombstone. -/
def Event.Numbered : Event → Prop
  | .note _ pn _ => pn < tombstonePn
  | _ => True

namespace ReorderWindow

/-- The range of an ACK, with the callback that widens the thresholds for each record found. -/
def ackRange (w : ReorderWindow) (smallest largest : Nat) (previousLargestAcked : Option Nat) (nowUs : Nat)
    (rtt : RttEstimator) :
    List LostRecord × ReorderWindow :=
  w.takeCovered (fun t lost => t.widen lost previousLargestAcked nowUs rtt) smallest largest

def step (w : ReorderWindow) : Event → ReorderWindow
  | .note block pn sentTimeUs => w.remember block pn sentTimeUs
  | .stamp n episode => w.stampLast n episode
  | .ack smallest largest previous nowUs rtt => (w.ackRange smallest largest previous nowUs rtt).2
  | .settle nowUs rtt => w.settle nowUs rtt
  | .release => w.release

def reports (w : ReorderWindow) : Event → List LostRecord
  | .ack smallest largest previous nowUs rtt => (w.ackRange smallest largest previous nowUs rtt).1
  | _ => []

end ReorderWindow

/-- What moves the thresholds: a spurious loss, a round that counts, a return to the initial values. -/
inductive Mark where
  | spurious (sentTimeUs : Nat)
  | clean (sentTimeUs : Nat)
  | decayed
  deriving DecidableEq

def Mark.isClean : Mark → Bool
  | .clean _ => true
  | _ => false

structure Note where
  serial : Nat
  lost : LostRecord
  arrived : Bool := false
  deriving DecidableEq

def Note.covered (n : Note) (smallest largest : Nat) : Bool :=
  !n.arrived && decide (smallest ≤ n.lost.pn ∧ n.lost.pn ≤ largest)

def Note.stamp (episode : Nat) (n : Note) : Note := {n with lost := {n.lost with episode := episode}}

/-- The thresholds with the log of what moved them, latest first. -/
structure Logged where
  thresholds : Thresholds := {}
  log : List Mark := []

namespace Logged

def widen (l : Logged) (lost : LostRecord) (previous : Option Nat) (nowUs : Nat) (rtt : RttEstimator) : Logged where
  thresholds := l.thresholds.widen lost previous nowUs rtt
  log := .spurious lost.sentTimeUs::l.log

def count (l : Logged) (sentTimeUs reference : Nat) : Logged where
  thresholds := l.thresholds.count sentTimeUs reference
  log := if l.thresholds.counts sentTimeUs reference then
      (if l.thresholds.decaysNow then [.decayed] else []) ++ .clean sentTimeUs::l.log
    else l.log

end Logged

/-- `next` is the serial number of the next note, `reported` the notes that were reported, latest first. -/
structure Memory extends Logged where
  allocated : Bool := false
  notes : List Note := []
  next : Nat := 0
  reported : List Nat := []

namespace Memory

def newest {α : Type} (n : Nat) (list : List α) : List α := list.drop (list.length-n)

/-- The latest `n` of a list, changed. -/
def changeNewest {α : Type} (n : Nat) (change : α → α) (list : List α) : List α :=
  list.take (list.length-n) ++ (newest n list).map change

def note (m : Memory) (granted : Bool) (pn sentTimeUs : Nat) : Memory :=
  if !m.allocated && !granted then m
  else {m with
    allocated := true
    notes := newest ringSlots (m.notes ++ [{serial := m.next,lost := {pn := pn,sentTimeUs := sentTimeUs}}])
    next := m.next+1}

def found (m : Memory) (smallest largest : Nat) : List Note := m.notes.filter (·.covered smallest largest)

def take (m : Memory) (smallest largest : Nat) (previous : Option Nat) (nowUs : Nat) (rtt : RttEstimator) : Memory :=
  {m with
    notes := m.notes.map fun n => if n.covered smallest largest then {n with arrived := true} else n
    reported := ((m.found smallest largest).map (·.serial)).reverse ++ m.reported
    toLogged := (m.found smallest largest).foldl (fun l n => l.widen n.lost previous nowUs rtt) m.toLogged}

def settleNotes (nowUs reach reference : Nat) : List Note → Logged → List Note × Logged
  | [],l => ([],l)
  | n::rest,l =>
    if n.arrived || n.lost.settled then (n::(settleNotes nowUs reach reference rest l).1,
    (settleNotes nowUs reach reference rest l).2)
    else if nowUs-n.lost.sentTimeUs ≤ reach then (n::rest,l)
    else
      let rest := settleNotes nowUs reach reference rest (l.count n.lost.sentTimeUs reference)
      ({n with lost := {n.lost with settled := true}}::rest.1,rest.2)

def settle (m : Memory) (nowUs : Nat) (rtt : RttEstimator) : Memory :=
  let settled := settleNotes nowUs (widestThresholdUs rtt) (referenceRtt rtt) m.notes m.toLogged
  {m with notes := settled.1,toLogged := settled.2}

def step (m : Memory) : Event → Memory
  | .note block pn sentTimeUs => m.note block.isSome pn sentTimeUs
  | .stamp n episode => {m with notes := changeNewest n (·.stamp episode) m.notes}
  | .ack smallest largest previous nowUs rtt => m.take smallest largest previous nowUs rtt
  | .settle nowUs rtt => m.settle nowUs rtt
  | .release => {m with allocated := false,notes := []}

def reports (m : Memory) : Event → List Note
  | .ack smallest largest .. => m.found smallest largest
  | _ => []

end Memory

/-- How a note lies in the ring. -/
def Note.record (n : Note) : LostRecord := if n.arrived then {n.lost with pn := tombstonePn} else n.lost

/-- The ring shows the notes but for some of the oldest, which have all arrived. -/
structure Represents (w : ReorderWindow) (m : Memory) : Prop where
  thresholds : w.toThresholds = m.thresholds
  empty : m.allocated = false → w.records = [] ∧ w.head = 0 ∧ w.len = 0 ∧ m.notes = []
  shows : m.allocated = true → ∃ gone kept, m.notes = gone ++ kept ∧ (∀ n ∈ gone, n.arrived = true) ∧
    w.Shows (kept.map Note.record)
  bound : m.notes.length ≤ ringSlots
  live : w.live = m.notes.countP (!·.arrived)
  numbered : ∀ n ∈ m.notes, n.lost.pn ≠ tombstonePn

/-! The loops over the ring. -/

section
variable {w : ReorderWindow} {smallest largest : Nat}

theorem record_tombstone {n : Note} (numbered : n.lost.pn ≠ tombstonePn) : n.record.pn = tombstonePn ↔ n.arrived = true := by
  unfold Note.record
  cases n.arrived with
  | false => simpa using numbered
  | true => simp

theorem covered_iff (n : Note) : n.covered smallest largest = true ↔ n.arrived = false ∧ smallest ≤ n.lost.pn ∧
    n.lost.pn ≤ largest := by
  unfold Note.covered
  simp

variable (smallest largest) in
/-- The walk of an ACK's range reports the covered notes and leaves tombstones for them. -/
theorem takeLoop_shows (callback : Thresholds → LostRecord → Thresholds) {first : List LostRecord} {notes : List Note}
    (shows : w.Shows (first ++ notes.map Note.record)) (numbered : ∀ n ∈ notes, n.lost.pn ≠ tombstonePn)
    (live : notes.countP (!·.arrived) ≤ w.live) :
    let found := notes.filter (·.covered smallest largest)
    let result := ReorderWindow.takeLoop callback smallest largest notes.length first.length w
    result.1 = found.map (·.lost) ∧
      result.2.Shows (first ++ (notes.map fun n => if n.covered smallest largest then {n with arrived := true} else
        n).map Note.record) ∧
      result.2.toThresholds = (found.map (·.lost)).foldl callback w.toThresholds ∧ result.2.live = w.live-found.length := by
  induction notes generalizing w first with
  | nil => exact ⟨rfl,shows,rfl,rfl⟩
  | cons n rest ih =>
    have here : w.at first.length = n.record := shows.at_eq
    have others := fun other (member : other ∈ rest) => numbered other (List.mem_cons_of_mem _ member)
    -- The rest of the walk, whatever became of this note.
    have later (w' : ReorderWindow) (n' : Note) (shows' : w'.Shows (first ++ n'.record::rest.map Note.record))
        (live' : rest.countP (!·.arrived) ≤ w'.live) :=
      ih (w := w') (show w'.Shows ((first ++ [n'.record]) ++ _) by rw [List.append_assoc]; exact shows') others live'
    simp only [List.length_append,List.length_singleton,List.append_assoc,List.singleton_append] at later
    rw [List.length_cons,ReorderWindow.takeLoop,here]
    dsimp only
    by_cases arrived : n.arrived = true
    · have uncovered : n.covered smallest largest = false := by simp [Note.covered,arrived]
      rw [if_pos ((record_tombstone (numbered n List.mem_cons_self)).mpr arrived),List.filter_cons_of_neg
        (by simp [uncovered])]
      simp only [List.map_cons,uncovered,Bool.false_eq_true,if_false]
      refine later w n shows ?_
      rwa [List.countP_cons_of_neg (by simp [arrived])] at live
    · have arrived : n.arrived = false := by simpa using arrived
      have record : n.record = n.lost := by simp [Note.record,arrived]
      rw [List.countP_cons_of_pos (by simp [arrived])] at live
      rw [record,if_neg (numbered n List.mem_cons_self)]
      by_cases outside : n.lost.pn < smallest ∨ n.lost.pn > largest
      · have uncovered : n.covered smallest largest = false := by
          simp only [Note.covered,Bool.and_eq_false_iff,decide_eq_false_iff_not]
          exact .inr (by omega)
        rw [if_pos outside,List.filter_cons_of_neg (by simp [uncovered])]
        simp only [List.map_cons,uncovered,Bool.false_eq_true,if_false]
        exact later w n shows (Nat.le_of_succ_le live)
      · have covers : n.covered smallest largest = true := (covered_iff n).mpr ⟨arrived,by omega⟩
        rw [if_neg outside,List.filter_cons_of_pos (p := fun n : Note => n.covered smallest largest) covers]
        have shows' := shows.bury (callback w.toThresholds n.lost)
        have stone : ({n with arrived := true} : Note).record =
          {n.record with pn := tombstonePn} := by simp [Note.record,arrived]
        rw [← stone] at shows'
        obtain ⟨found,result,thresholds,left⟩ := later _ _ shows' (Nat.le_sub_one_of_lt live)
        simp only [List.map_cons,covers,if_true,List.foldl_cons,List.length_cons]
        refine ⟨congrArg (n.lost::·) found,result,thresholds,left.trans ?_⟩
        rw [Nat.add_comm,← Nat.sub_sub]
        rfl

theorem settleLoop_shows (nowUs reach reference : Nat) {first : List LostRecord} {notes : List Note} {l : Logged}
    (shows : w.Shows (first ++ notes.map Note.record)) (numbered : ∀ n ∈ notes, n.lost.pn ≠ tombstonePn)
    (same : w.toThresholds = l.thresholds) :
    let settled := Memory.settleNotes nowUs reach reference notes l
    let result := ReorderWindow.settleLoop nowUs reach reference notes.length first.length w
    result.Shows (first ++ settled.1.map Note.record) ∧ result.toThresholds = settled.2.thresholds ∧ result.live =
      w.live := by
  induction notes generalizing w first l with
  | nil => exact ⟨shows,same,rfl⟩
  | cons n rest ih =>
    have here : w.at first.length = n.record := shows.at_eq
    have others := fun other (member : other ∈ rest) => numbered other (List.mem_cons_of_mem _ member)
    have later (w' : ReorderWindow) (n' : Note) (l' : Logged) (shows' : w'.Shows (first ++ n'.record::rest.map Note.record))
        (same' : w'.toThresholds = l'.thresholds) :=
      ih (w := w') (show w'.Shows ((first ++ [n'.record]) ++ _) by rw [List.append_assoc]; exact shows') others same'
    simp only [List.length_append,List.length_singleton,List.append_assoc,List.singleton_append] at later
    rw [List.length_cons,ReorderWindow.settleLoop,here,Memory.settleNotes]
    dsimp only
    have stone := record_tombstone (numbered n List.mem_cons_self)
    have flag : n.record.settled = n.lost.settled := by
      unfold Note.record
      split <;> rfl
    by_cases skipped : (n.arrived || n.lost.settled) = true
    · have passed : n.record.pn = tombstonePn ∨ n.record.settled = true := by
        rw [stone,flag]
        exact Bool.or_eq_true_iff.mp skipped
      rw [if_pos passed,if_pos skipped]
      exact later w n l shows same
    · obtain ⟨arrived,fresh⟩ := Bool.or_eq_false_iff.mp (Bool.eq_false_iff.mpr skipped)
      have record : n.record = n.lost := by simp [Note.record,arrived]
      rw [if_neg (by rw [stone,flag,arrived,fresh]; simp),if_neg skipped,record]
      split
      · exact ⟨shows,same,rfl⟩
      · have shows' := shows.mark (w.toThresholds.count n.lost.sentTimeUs reference)
        have flagged : ({n with lost := {n.lost with settled := true}} : Note).record = {n.record with settled := true} := by
          simp [Note.record,arrived]
        rw [← flagged] at shows'
        exact later _ _ (l.count n.lost.sentTimeUs reference) shows' (by rw [same]; rfl)

end

/-! One event on both sides. -/

/-- What a note keeps when it is stamped or settled. -/
def Note.key (n : Note) : Nat × Bool × Nat := (n.serial,n.arrived,n.lost.pn)

theorem settleNotes_key (nowUs reach reference : Nat) (notes : List Note) (l : Logged) :
    (Memory.settleNotes nowUs reach reference notes l).1.map Note.key = notes.map Note.key := by
  induction notes generalizing l with
  | nil => rfl
  | cons n rest ih =>
    rw [Memory.settleNotes]
    split
    · rw [List.map_cons,List.map_cons,ih]
    split
    · rfl
    · dsimp only
      rw [List.map_cons,List.map_cons,ih]
      rfl

theorem settleNotes_gone (nowUs reach reference : Nat) {gone : List Note} (arrived : ∀ n ∈ gone, n.arrived = true)
    (kept : List Note)
    (l : Logged) : Memory.settleNotes nowUs reach reference (gone ++ kept) l =
      (gone ++ (Memory.settleNotes nowUs reach reference kept l).1,(Memory.settleNotes nowUs reach reference kept l).2) := by
  induction gone with
  | nil => rfl
  | cons n rest ih =>
    rw [List.cons_append,Memory.settleNotes,if_pos (by rw [arrived n List.mem_cons_self]; rfl),
      ih fun n member => arrived n (List.mem_cons_of_mem _ member)]
    rfl

theorem changeNewest_append {α : Type} (n : Nat) (change : α → α) (first second : List α) :
    Memory.changeNewest n change (first ++ second) =
      Memory.changeNewest (n-second.length) change first ++ Memory.changeNewest n change second := by
  unfold Memory.changeNewest Memory.newest
  have front : (first ++ second).length-n-first.length = second.length-n := by
    rw [List.length_append]
    omega
  have back : (first ++ second).length-n = first.length-(n-second.length) ∨
      first.length-(n-second.length) = first.length ∧ first.length ≤ (first ++ second).length-n := by
    rw [List.length_append]
    omega
  rw [List.take_append,List.drop_append,List.map_append,front]
  rcases back with same | ⟨all,beyond⟩
  · rw [same]
    by_cases short : n ≤ second.length
    · have none : first.length-(n-second.length) = first.length := by omega
      rw [none,List.take_length,List.drop_length]
      simp
    · have none : second.length-n = 0 := by omega
      rw [none,List.take_zero,List.drop_zero]
      simp
  · rw [all,List.take_of_length_le beyond,List.drop_eq_nil_of_le beyond,List.take_length,List.drop_length]
    simp

theorem Note.stamp_key (note : Note) (episode : Nat) : (note.stamp episode).key = note.key := rfl

theorem changeNewest_key {n : Nat} {change : Note → Note} (same : ∀ note, (change note).key = note.key) (notes : List Note) :
    (Memory.changeNewest n change notes).map Note.key = notes.map Note.key := by
  have composed : Note.key ∘ change = Note.key := funext same
  unfold Memory.changeNewest Memory.newest
  rw [List.map_append,List.map_map,composed,← List.map_append,List.take_append_drop]

section
variable {w : ReorderWindow} {m : Memory}

theorem Represents.of_key {w' : ReorderWindow} {m' : Memory} (rep : Represents w m)
    (key : m'.notes.map Note.key = m.notes.map Note.key) (live : w'.live = w.live)
    (thresholds : w'.toThresholds = m'.thresholds)
    (empty : m'.allocated = false → w'.records = [] ∧ w'.head = 0 ∧ w'.len = 0 ∧ m'.notes = [])
    (shows : m'.allocated = true → ∃ gone kept, m'.notes = gone ++ kept ∧ (∀ n ∈ gone, n.arrived = true) ∧
      w'.Shows (kept.map Note.record)) : Represents w' m' := by
  have length : m'.notes.length = m.notes.length := by
    simpa using congrArg List.length key
  have counted (notes : List Note) : notes.countP (!·.arrived) = (notes.map Note.key).countP (!·.2.1) := by
    rw [List.countP_map]
    rfl
  refine ⟨thresholds,empty,shows,length ▸ rep.bound,?_,?_⟩
  · rw [live,rep.live,counted,counted,key]
  · intro n member
    have there : n.key ∈ m.notes.map Note.key := key ▸ List.mem_map_of_mem member
    obtain ⟨other,member,same⟩ := List.mem_map.mp there
    have number : other.lost.pn = n.lost.pn := congrArg (·.2.2) same
    exact number ▸ rep.numbered other member

theorem stamp_represents (rep : Represents w m) (n episode : Nat) :
    Represents (w.stampLast n episode) (m.step (.stamp n episode)) := by
  have changed : (Memory.changeNewest n (·.stamp episode) m.notes).map Note.key = m.notes.map Note.key :=
    changeNewest_key (Note.stamp_key · episode) m.notes
  unfold ReorderWindow.stampLast
  cases allocated : m.allocated with
  | false =>
    obtain ⟨records,head,len,notes⟩ := rep.empty allocated
    rw [if_pos (by rw [records]; rfl)]
    refine rep.of_key changed rfl rep.thresholds (fun _ => ⟨records,head,len,?_⟩) (fun some => ?_)
    · change Memory.changeNewest _ _ m.notes = []
      rw [notes]
      unfold Memory.changeNewest Memory.newest
      simp
    · exact absurd (allocated.symm.trans some) Bool.false_ne_true
  | true =>
    obtain ⟨gone,kept,notes,arrived,shows⟩ := rep.shows allocated
    have length : kept.length = w.len := by simpa using shows.length
    rw [if_neg (by rw [shows.size]; decide)]
    have parts : (kept.take (kept.length-n)).map Note.record ++ (kept.drop (kept.length-n)).map Note.record =
        kept.map Note.record := by
      rw [← List.map_append,List.take_append_drop]
    have count : ((kept.drop (kept.length-n)).map Note.record).length = min n w.len := by
      simp
      omega
    rw [← parts] at shows
    obtain ⟨stamped,thresholds,live⟩ := ReorderWindow.stampLoop_shows episode shows
    rw [count] at stamped thresholds live
    refine rep.of_key changed live (thresholds.trans rep.thresholds)
      (fun none => absurd (allocated.symm.trans none) (Ne.symm Bool.false_ne_true)) fun _ =>
        ⟨Memory.changeNewest (n-kept.length) (·.stamp episode) gone,_,(congrArg _ notes).trans
          (changeNewest_append n _ gone kept),?_,?_⟩
    · intro note member
      unfold Memory.changeNewest Memory.newest at member
      rcases List.mem_append.mp member with same | changed
      · exact arrived note (List.mem_of_mem_take same)
      · obtain ⟨old,there,rfl⟩ := List.mem_map.mp changed
        exact arrived old (List.mem_of_mem_drop there)
    · have record : (fun rec : LostRecord => {rec with episode := episode}) ∘ Note.record =
          Note.record ∘ (·.stamp episode) := by
        funext note
        unfold Note.record Note.stamp Function.comp
        dsimp only
        split <;> rfl
      unfold Memory.changeNewest Memory.newest
      rw [List.map_map,record,← List.map_map,← List.map_append] at stamped
      exact stamped

theorem settle_represents (rep : Represents w m) (nowUs : Nat) (rtt : RttEstimator) :
    Represents (w.settle nowUs rtt) (m.step (.settle nowUs rtt)) := by
  have key := settleNotes_key nowUs (widestThresholdUs rtt) (referenceRtt rtt) m.notes m.toLogged
  unfold ReorderWindow.settle
  split
  · rename_i dead
    have arrived : ∀ n ∈ m.notes, n.arrived = true := by
      rw [rep.live,List.countP_eq_zero] at dead
      simpa using dead
    have same := settleNotes_gone nowUs (widestThresholdUs rtt) (referenceRtt rtt) arrived [] m.toLogged
    rw [List.append_nil] at same
    have still : m.step (.settle nowUs rtt) = m := by
      change m.settle nowUs rtt = m
      unfold Memory.settle
      rw [same]
      simp [Memory.settleNotes]
    rw [still]
    exact rep
  · rename_i some
    cases allocated : m.allocated with
    | false =>
      rw [rep.live,(rep.empty allocated).2.2.2] at some
      exact absurd rfl some
    | true =>
      obtain ⟨gone,kept,notes,arrived,shows⟩ := rep.shows allocated
      have length : kept.length = w.len := by simpa using shows.length
      have numbered : ∀ n ∈ kept, n.lost.pn ≠ tombstonePn :=
        fun n member => rep.numbered n (notes ▸ List.mem_append_right _ member)
      obtain ⟨settled,thresholds,live⟩ := settleLoop_shows nowUs (widestThresholdUs rtt) (referenceRtt rtt)
        (l := m.toLogged) (show w.Shows ([] ++ kept.map Note.record) from shows) numbered rep.thresholds
      rw [length] at settled thresholds live
      have whole := settleNotes_gone nowUs (widestThresholdUs rtt) (referenceRtt rtt) arrived kept m.toLogged
      rw [← notes] at whole
      refine rep.of_key key live (thresholds.trans ?_)
        (fun none => absurd (allocated.symm.trans none) (Ne.symm Bool.false_ne_true)) fun _ =>
          ⟨gone,_,congrArg Prod.fst whole,arrived,settled⟩
      exact (congrArg (fun result : List Note × Logged => result.2.thresholds) whole).symm

theorem makeRoom_live {kept : List Note} (shows : w.Shows (kept.map Note.record))
    (numbered : ∀ n ∈ kept, n.lost.pn ≠ tombstonePn)
    (live : w.live = kept.countP (!·.arrived)) :
    w.makeRoom.live = (kept.drop (kept.length+1-ringSlots)).countP (!·.arrived) := by
  have length : kept.length = w.len := by simpa using shows.length
  have size := shows.size
  have len := shows.len
  unfold ReorderWindow.makeRoom
  split
  · rename_i full
    have one : kept.length+1-ringSlots = 1 := by omega
    rw [one]
    cases kept with
    | nil => exact absurd (length.trans (full.trans size)) (by decide)
    | cons n rest =>
      have first : w.at 0 = n.record := ReorderWindow.Shows.at_eq (show w.Shows ([] ++ n.record::rest.map Note.record) from shows)
      dsimp only
      rw [first,List.drop_succ_cons,List.drop_zero,live]
      have stone := record_tombstone (numbered n List.mem_cons_self)
      cases arrived : n.arrived with
      | false =>
        rw [if_pos (by rw [ne_eq,stone,arrived]; exact Bool.false_ne_true),List.countP_cons_of_pos (by simp [arrived])]
        rfl
      | true => rw [if_neg (by rw [ne_eq,stone,arrived]; simp),List.countP_cons_of_neg (by simp [arrived])]
  · have none : kept.length+1-ringSlots = 0 := by omega
    rw [none,List.drop_zero]
    exact live

/-- The latest notes with a new one: the ring keeps as many of those it has as there is room for. -/
theorem newest_append (gone kept : List Note) (n : Note) :
    Memory.newest ringSlots (gone ++ kept ++ [n]) =
      gone.drop (gone.length+kept.length+1-ringSlots) ++ (kept.drop (kept.length+1-ringSlots) ++ [n]) := by
  unfold Memory.newest
  have slots : ringSlots = 256 := rfl
  have length : (gone ++ kept ++ [n]).length = gone.length+kept.length+1 := by simp [Nat.add_assoc]
  have inner : gone.length+kept.length+1-ringSlots-gone.length = kept.length+1-ringSlots := by omega
  rw [length,List.append_assoc,List.drop_append,inner,List.drop_append,
    (by omega : kept.length+1-ringSlots-kept.length = 0),List.drop_zero]

theorem push_represents {gone kept : List Note} (notes : m.notes = gone ++ kept) (arrived : ∀ n ∈ gone, n.arrived = true)
    (shows : w.Shows (kept.map Note.record)) (bound : m.notes.length ≤ ringSlots)
    (live : w.live = m.notes.countP (!·.arrived))
    (numbered : ∀ n ∈ m.notes, n.lost.pn ≠ tombstonePn) (thresholds : w.toThresholds = m.thresholds)
    {pn : Nat} (real : pn ≠ tombstonePn) (sentTimeUs : Nat) :
    Represents (w.makeRoom.push pn sentTimeUs) {m with
      allocated := true
      notes := Memory.newest ringSlots (m.notes ++ [{serial := m.next,lost := {pn := pn,sentTimeUs := sentTimeUs}}])
      next := m.next+1} := by
  have dead : ∀ some : List Note, (∀ n ∈ some, n.arrived = true) → some.countP (!·.arrived) = 0 := by
    intro some all
    rw [List.countP_eq_zero]
    simpa using all
  have kept_live : w.live = kept.countP (!·.arrived) := by
    rw [live,notes,List.countP_append,dead gone arrived,Nat.zero_add]
  obtain ⟨room,free⟩ := shows.makeRoom
  have pushed := room.push free pn sentTimeUs
  rw [List.length_map,← List.map_drop] at pushed
  have whole := newest_append gone kept {serial := m.next,lost := {pn := pn,sentTimeUs := sentTimeUs}}
  rw [← notes] at whole
  have length : (Memory.newest ringSlots
    (m.notes ++ [{serial := m.next,lost := {pn := pn,sentTimeUs := sentTimeUs}}])).length ≤
      ringSlots := by
    unfold Memory.newest
    rw [List.length_drop]
    omega
  have from' : ∀ n ∈ Memory.newest ringSlots (m.notes ++ [{serial := m.next,lost := {pn := pn,sentTimeUs := sentTimeUs}}]),
      n.lost.pn ≠ tombstonePn := by
    intro n member
    rcases List.mem_append.mp (List.mem_of_mem_drop member) with old | new
    · exact numbered n old
    · rw [List.mem_singleton.mp new]
      exact real
  generalize Memory.newest ringSlots (m.notes ++ [{serial := m.next,lost := {pn := pn,sentTimeUs := sentTimeUs}}]) =
    latest at *
  refine ⟨?_,?_,fun _ => ⟨_,_,whole,?_,?_⟩,length,?_,from'⟩
  · rw [← thresholds]
    unfold ReorderWindow.push ReorderWindow.makeRoom
    split <;> rfl
  · intro none
    cases none
  · exact fun n member => arrived n (List.mem_of_mem_drop member)
  · rw [List.map_append]
    exact pushed
  · dsimp only
    rw [whole,List.countP_append,dead _ (fun n member => arrived n (List.mem_of_mem_drop member)),List.countP_append,
      ← makeRoom_live shows (fun n member => numbered n (notes ▸ List.mem_append_right _ member)) kept_live,Nat.zero_add]
    rfl

theorem note_represents (rep : Represents w m) (block : Option Block) {pn : Nat} (real : pn ≠ tombstonePn)
    (sentTimeUs : Nat) :
    Represents (w.remember block pn sentTimeUs) (m.step (.note block pn sentTimeUs)) := by
  change Represents (w.remember block pn sentTimeUs) (m.note block.isSome pn sentTimeUs)
  unfold ReorderWindow.remember ReorderWindow.alloc Memory.note
  cases allocated : m.allocated with
  | false =>
    obtain ⟨records,head,len,notes⟩ := rep.empty allocated
    rw [if_pos (by rw [records]; rfl)]
    cases block with
    | none =>
      simp only [Option.map_none,Option.isSome_none,Bool.not_false,Bool.and_self,if_true]
      exact rep
    | some cells =>
      simp only [Option.map_some,Option.isSome_some,Bool.not_true,Bool.and_false,Bool.false_eq_true,if_false]
      refine push_represents (w := {w with records := cells.val}) (show m.notes = [] ++ [] from notes) (by simp) ?_ rep.bound rep.live
        rep.numbered rep.thresholds real sentTimeUs
      refine ⟨?_,cells.property,?_,?_⟩
      · unfold ReorderWindow.contents
        dsimp only
        rw [len]
        rfl
      · dsimp only
        rw [head]
        decide
      · dsimp only
        rw [len]
        exact Nat.zero_le _
  | true =>
    obtain ⟨gone,kept,notes,arrived,shows⟩ := rep.shows allocated
    rw [if_neg (by rw [shows.size]; decide)]
    simp only [Bool.not_true,Bool.false_and,Bool.false_eq_true,if_false]
    exact push_represents notes arrived shows rep.bound rep.live rep.numbered rep.thresholds real sentTimeUs

theorem release_represents (rep : Represents w m) : Represents w.release (m.step .release) :=
  ⟨rep.thresholds,fun _ => ⟨rfl,rfl,rfl,rfl⟩,fun some => absurd some (by simp [Memory.step]),Nat.zero_le _,rfl,
    fun _ member => absurd member List.not_mem_nil⟩

/-- What becomes of a note when an ACK's range is searched. -/
def Note.search (smallest largest : Nat) (n : Note) : Note := if n.covered smallest largest then
    {n with arrived := true} else n

theorem search_arrived (smallest largest : Nat) {notes : List Note} (arrived : ∀ n ∈ notes, n.arrived = true) :
    notes.filter (·.covered smallest largest) = [] ∧ notes.map (·.search smallest largest) = notes := by
  have uncovered : ∀ n ∈ notes, n.covered smallest largest = false := fun n member => by simp [Note.covered,arrived n member]
  constructor
  · rw [List.filter_eq_nil_iff]
    intro n member
    simp [uncovered n member]
  · have same : notes.map (·.search smallest largest) = notes.map id :=
      List.map_congr_left fun n member => by simp [Note.search,uncovered n member]
    rw [same,List.map_id]

/-- The notes that are not found are the ones that have not arrived afterwards. -/
theorem search_count (smallest largest : Nat) (notes : List Note) :
    (notes.map (·.search smallest largest)).countP (!·.arrived) + (notes.filter (·.covered smallest largest)).length =
      notes.countP (!·.arrived) := by
  induction notes with
  | nil => rfl
  | cons n rest ih =>
    have covers : n.covered smallest largest = true ↔ _ := covered_iff n
    rw [List.map_cons]
    unfold Note.search at ih ⊢
    cases covered : n.covered smallest largest with
    | true =>
      have arrived := (covers.mp covered).1
      rw [List.filter_cons_of_pos (p := fun n : Note => n.covered smallest largest) covered,if_pos rfl,
        List.countP_cons_of_neg (by simp),List.countP_cons_of_pos (p := fun n : Note => !n.arrived) (by simp [arrived]),
        List.length_cons,← ih]
      rfl
    | false =>
      rw [List.filter_cons_of_neg (p := fun n : Note => n.covered smallest largest) (by simp [covered]),
        if_neg Bool.false_ne_true,List.countP_cons,List.countP_cons,← ih]
      omega

theorem foldl_widen (found : List Note) (previous : Option Nat) (nowUs : Nat) (rtt : RttEstimator) (l : Logged) :
    (found.foldl (fun l n => l.widen n.lost previous nowUs rtt) l).thresholds =
      (found.map (·.lost)).foldl (fun t lost => t.widen lost previous nowUs rtt) l.thresholds := by
  induction found generalizing l with
  | nil => rfl
  | cons n rest ih => exact ih _

/-- The notes that an ACK's range finds, against what the walk over the ring finds. -/
theorem ack_represents (rep : Represents w m) (smallest largest : Nat) (previous : Option Nat) (nowUs : Nat)
    (rtt : RttEstimator) :
    (w.ackRange smallest largest previous nowUs rtt).1 = (m.found smallest largest).map (·.lost) ∧
      Represents (w.ackRange smallest largest previous nowUs rtt).2 (m.take smallest largest previous nowUs rtt) := by
  have count := search_count smallest largest m.notes
  unfold ReorderWindow.ackRange ReorderWindow.takeCovered
  split
  · rename_i dead
    have arrived : ∀ n ∈ m.notes, n.arrived = true := by
      rw [rep.live,List.countP_eq_zero] at dead
      simpa using dead
    obtain ⟨nothing,same⟩ := search_arrived smallest largest arrived
    have still : m.take smallest largest previous nowUs rtt = m := by
      unfold Memory.take Memory.found
      rw [nothing]
      exact congrArg (fun notes => {m with notes := notes}) same
    unfold Memory.found
    rw [nothing,still]
    exact ⟨rfl,rep⟩
  rename_i some
  cases allocated : m.allocated with
  | false =>
    rw [rep.live,(rep.empty allocated).2.2.2] at some
    exact absurd rfl some
  | true =>
    obtain ⟨gone,kept,notes,arrived,shows⟩ := rep.shows allocated
    have length : kept.length = w.len := by simpa using shows.length
    have numbered : ∀ n ∈ kept, n.lost.pn ≠ tombstonePn :=
      fun n member => rep.numbered n (notes ▸ List.mem_append_right _ member)
    obtain ⟨nothing,same⟩ := search_arrived smallest largest arrived
    have found : m.found smallest largest = kept.filter (·.covered smallest largest) := by
      unfold Memory.found
      rw [notes,List.filter_append,nothing,List.nil_append]
    have searched : m.notes.map (·.search smallest largest) = gone ++ kept.map (·.search smallest largest) := by
      rw [notes,List.map_append,same]
    have few : kept.countP (!·.arrived) ≤ w.live := by
      rw [rep.live,notes,List.countP_append]
      exact Nat.le_add_left _ _
    obtain ⟨told,result,thresholds,live⟩ :=
      takeLoop_shows smallest largest (fun t lost => t.widen lost previous nowUs rtt)
        (show w.Shows ([] ++ kept.map Note.record) from shows)
        numbered few
    rw [length] at told result thresholds live
    rw [← found] at told thresholds live
    generalize ReorderWindow.takeLoop (fun t lost => t.widen lost previous nowUs rtt) smallest largest w.len 0 w =
      walked at *
    have left : walked.2.live = (m.notes.map (·.search smallest largest)).countP (!·.arrived) := by
      rw [live,rep.live,← count]
      exact Nat.add_sub_cancel ..
    have widened : walked.2.toThresholds = (m.take smallest largest previous nowUs rtt).thresholds := by
      rw [thresholds,rep.thresholds]
      exact (foldl_widen _ previous nowUs rtt m.toLogged).symm
    have bound : (m.take smallest largest previous nowUs rtt).notes.length ≤ ringSlots := by
      refine Nat.le_trans (Nat.le_of_eq ?_) rep.bound
      exact List.length_map _
    have numbered' : ∀ n ∈ (m.take smallest largest previous nowUs rtt).notes, n.lost.pn ≠ tombstonePn := by
      intro n member
      obtain ⟨old,there,same⟩ := List.mem_map.mp member
      have real := rep.numbered old there
      rw [← same]
      split <;> exact real
    have was : (m.take smallest largest previous nowUs rtt).allocated = true := allocated
    refine ⟨told,?_⟩
    dsimp only
    split
    · rename_i last
      refine ⟨widened,fun none => absurd (was.symm.trans none) (Ne.symm Bool.false_ne_true),fun _ =>
        ⟨_,[],(List.append_nil _).symm,?_,?_⟩,bound,left,numbered'⟩
      · rw [left,List.countP_eq_zero] at last
        intro n member
        simpa using last n member
      · exact ⟨rfl,result.size,show 0 < ringSlots by decide,Nat.zero_le _⟩
    · exact ⟨widened,fun none => absurd (was.symm.trans none) (Ne.symm Bool.false_ne_true),fun _ =>
        ⟨gone,_,searched,arrived,result⟩,bound,left,numbered'⟩

/-- One event keeps the ring in step with the notes, and both report the same losses. -/
theorem step_simulates : Simulates Represents (fun _ e => e.Numbered) ReorderWindow.reports ReorderWindow.step
    (fun m e => (m.reports e).map (·.lost)) Memory.step := by
  constructor
  · intro w m e rep _
    cases e with
    | ack smallest largest previous nowUs rtt => exact (ack_represents rep smallest largest previous nowUs rtt).1
    | note => rfl
    | stamp => rfl
    | settle => rfl
    | release => rfl
  · intro w m e rep numbered
    cases e with
    | note block pn sentTimeUs => exact note_represents rep block (Nat.ne_of_lt numbered) sentTimeUs
    | stamp n episode => exact stamp_represents rep n episode
    | ack smallest largest previous nowUs rtt => exact (ack_represents rep smallest largest previous nowUs rtt).2
    | settle nowUs rtt => exact settle_represents rep nowUs rtt
    | release => exact release_represents rep

theorem fresh_represents : Represents {} {} :=
  ⟨rfl,fun _ => ⟨rfl,rfl,rfl,rfl⟩,fun some => absurd some (by simp),Nat.zero_le _,rfl,by simp⟩

end

/-! The queue itself. -/

/-- The notes are the latest ones without a gap, and none of them is reported before it has arrived. -/
structure Queue (m : Memory) : Prop where
  within : m.notes.length ≤ m.next
  latest : m.notes.map (·.serial) = List.range' (m.next-m.notes.length) m.notes.length
  once : m.reported.Nodup
  noted : ∀ serial ∈ m.reported, serial < m.next
  waiting : ∀ n ∈ m.notes, n.arrived = false → n.serial ∉ m.reported

section
variable {m : Memory}

theorem Queue.distinct (queue : Queue m) : (m.notes.map (·.serial)).Nodup := queue.latest ▸ List.nodup_range' ..

theorem Queue.of_key {m' : Memory} (queue : Queue m) (key : m'.notes.map Note.key = m.notes.map Note.key)
    (next : m'.next = m.next)
    (reported : m'.reported = m.reported) : Queue m' := by
  have length : m'.notes.length = m.notes.length := by simpa using congrArg List.length key
  have serials (notes : List Note) : notes.map (·.serial) = (notes.map Note.key).map (·.1) := by
    rw [List.map_map]
    rfl
  refine ⟨length ▸ next ▸ queue.within,?_,reported ▸ queue.once,reported ▸ next ▸ queue.noted,?_⟩
  · rw [serials,key,← serials,length,next]
    exact queue.latest
  · intro n member arrived
    have there : n.key ∈ m.notes.map Note.key := key ▸ List.mem_map_of_mem member
    obtain ⟨other,member,same⟩ := List.mem_map.mp there
    have serial : other.serial = n.serial := congrArg (·.1) same
    have waits : other.arrived = n.arrived := congrArg (·.2.1) same
    rw [reported,← serial]
    exact queue.waiting other member (waits.trans arrived)

theorem note_queue (queue : Queue m) (granted : Bool) (pn sentTimeUs : Nat) : Queue (m.note granted pn sentTimeUs) := by
  unfold Memory.note
  split
  · exact queue
  have within := queue.within
  obtain ⟨new,fresh⟩ : ∃ new : Note, new = {serial := m.next,lost := {pn := pn,sentTimeUs := sentTimeUs}} := ⟨_,rfl⟩
  have serial : new.serial = m.next := congrArg Note.serial fresh
  rw [← fresh]
  have serials : (m.notes ++ [new]).map (·.serial) = List.range' (m.next-m.notes.length) (m.notes.length+1) := by
    rw [List.map_append,queue.latest,List.range'_concat]
    simp only [List.map_cons,List.map_nil]
    congr 2
    omega
  generalize notes : m.notes ++ [new] = all at *
  have length : all.length = m.notes.length+1 := by simp [← notes]
  have kept : (Memory.newest ringSlots all).length = all.length-(all.length-ringSlots) := List.length_drop ..
  refine ⟨?_,?_,queue.once,fun serial member => Nat.lt_succ_of_lt (queue.noted serial member),?_⟩
  · dsimp only
    omega
  · dsimp only
    have start : m.next-m.notes.length+(all.length-ringSlots) = m.next+1-(all.length-(all.length-ringSlots)) := by omega
    rw [kept,← start]
    unfold Memory.newest
    rw [List.map_drop,serials,List.drop_range',length,Nat.mul_one]
  · intro n member arrived reported
    unfold Memory.newest at member
    dsimp only at member
    have member := List.mem_of_mem_drop member
    rw [← notes] at member
    rcases List.mem_append.mp member with old | new
    · exact queue.waiting n old arrived reported
    · rw [List.mem_singleton.mp new,serial] at reported
      exact absurd (queue.noted _ reported) (Nat.lt_irrefl _)

theorem take_queue (queue : Queue m) (smallest largest : Nat) (previous : Option Nat) (nowUs : Nat) (rtt : RttEstimator) :
    Queue (m.take smallest largest previous nowUs rtt) := by
  have serials : (m.notes.map (·.search smallest largest)).map (·.serial) = m.notes.map (·.serial) := by
    rw [List.map_map]
    refine List.map_congr_left fun n _ => ?_
    change (n.search smallest largest).serial = n.serial
    unfold Note.search
    split <;> rfl
  have length : (m.notes.map (·.search smallest largest)).length = m.notes.length := List.length_map _
  have found (serial : Nat) (member : serial ∈ (m.found smallest largest).map (·.serial)) :
      ∃ n ∈ m.notes, n.covered smallest largest = true ∧ n.serial = serial := by
    obtain ⟨n,there,same⟩ := List.mem_map.mp member
    obtain ⟨there,covered⟩ := List.mem_filter.mp there
    exact ⟨n,there,covered,same⟩
  refine ⟨?_,?_,?_,?_,?_⟩
  · exact Nat.le_trans (Nat.le_of_eq length) queue.within
  · change (m.notes.map (·.search smallest largest)).map (·.serial) =
      List.range' (m.next-(m.notes.map (·.search smallest largest)).length)
      (m.notes.map (·.search smallest largest)).length
    rw [serials,length]
    exact queue.latest
  · refine List.nodup_append.mpr ⟨?_,queue.once,?_⟩
    · exact (List.nodup_reverse).mpr (queue.distinct.sublist (List.filter_sublist.map _))
    · intro serial new other old same
      obtain ⟨n,there,covered,named⟩ := found serial (List.mem_reverse.mp new)
      exact queue.waiting n there ((covered_iff n).mp covered).1 (named ▸ same ▸ old)
  · intro serial member
    rcases List.mem_append.mp member with new | old
    · obtain ⟨n,there,-,named⟩ := found serial (List.mem_reverse.mp new)
      have range : serial ∈ m.notes.map (·.serial) := named ▸ List.mem_map_of_mem there
      rw [queue.latest] at range
      have high := (List.mem_range'_1.mp range).2
      have within := queue.within
      change serial < m.next
      omega
    · exact queue.noted serial old
  · intro n member arrived reported
    obtain ⟨old,there,same⟩ := List.mem_map.mp member
    by_cases covered : old.covered smallest largest = true
    · rw [if_pos covered] at same
      rw [← same] at arrived
      cases arrived
    · rw [if_neg covered] at same
      rw [← same] at arrived reported
      rcases List.mem_append.mp reported with new | before
      · obtain ⟨other,there',covered',named⟩ := found old.serial (List.mem_reverse.mp new)
        rw [List.inj_on_of_nodup_map queue.distinct there' there named] at covered'
        exact covered covered'
      · exact queue.waiting old there arrived before

theorem step_queue (m : Memory) (e : Event) (queue : Queue m) : Queue (m.step e) := by
  cases e with
  | note block pn sentTimeUs => exact note_queue queue block.isSome pn sentTimeUs
  | stamp n episode => exact queue.of_key (changeNewest_key (Note.stamp_key · episode) m.notes) rfl rfl
  | ack smallest largest previous nowUs rtt => exact take_queue queue smallest largest previous nowUs rtt
  | settle nowUs rtt => exact queue.of_key (settleNotes_key _ _ _ m.notes m.toLogged) rfl rfl
  | release => exact ⟨Nat.zero_le _,rfl,queue.once,queue.noted,fun _ member => absurd member List.not_mem_nil⟩

end

end QuicZig.Conn.Reorder
