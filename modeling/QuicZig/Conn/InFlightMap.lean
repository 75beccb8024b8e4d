import Mathlib.Data.List.Pairwise
import Mathlib.Data.List.InsertIdx
import QuicZig.Machine
import QuicZig.Library.Ring
import QuicZig.Library.Search

/-! The in-flight chunks of a stream in a power-of-two ring, in packet-number
order. A removed entry stays as a tombstone until a trim or a compaction drops
it; the live entries are what the stream sees. -/
namespace QuicZig.Conn
open Machine

structure Chunk where
  offset : Nat
  length : Nat
  fin : Bool
  requeuedForProbe : Bool := false
  dead : Bool := false
  deriving DecidableEq, Repr, Inhabited

structure Entry where
  pn : Nat
  chunk : Chunk
  deriving DecidableEq, Repr, Inhabited

def Entry.alive (e : Entry) : Bool := !e.chunk.dead

/-- `cells` is the allocation `ptr[0..cap]`. -/
structure InFlightMap where
  cells : List Entry := []
  head : Nat := 0
  span : Nat := 0
  live : Nat := 0
  deriving DecidableEq, Repr

namespace InFlightMap

def cap (m : InFlightMap) : Nat := m.cells.length

/-- The physical index `(head + i) & mask`. -/
def index (m : InFlightMap) (i : Nat) : Nat := (m.head+i) &&& (m.cap-1)

def entryAt (m : InFlightMap) (i : Nat) : Entry := m.cells.getD (m.index i) default

def setAt (m : InFlightMap) (i : Nat) (e : Entry) : InFlightMap := {m with cells := m.cells.set (m.index i) e}

/-- The compaction loop: `n` entries are left to read. -/
def compactLoop (m : InFlightMap) : Nat → Nat → Nat → InFlightMap × Nat
  | 0,_,writeI => (m,writeI)
  | n+1,readI,writeI =>
    let e := m.entryAt readI
    if e.chunk.dead then compactLoop m n (readI+1) writeI
    else compactLoop (if writeI ≠ readI then m.setAt writeI e else m) n (readI+1) (writeI+1)

def compact (m : InFlightMap) : InFlightMap :=
  if m.span = m.live then m
  else if m.live = 0 then {m with head := 0,span := 0}
  else
    let (moved,writeI) := m.compactLoop m.span 0 0
    {moved with span := writeI}

/-- `std.math.ceilPowerOfTwo`. -/
def ceilPowerOfTwo (n : Nat) : Nat := if n ≤ 1 then 1 else 2^((n-1).log2+1)

/-- The logical entries, tombstones included. -/
def entries (m : InFlightMap) : List Entry := (List.range m.span).map m.entryAt

def ensureTotalCapacity (granted : Bool) (m : InFlightMap) (minCap : Nat) : Except AllocError Unit × InFlightMap :=
  if minCap = 0 then (.ok (),m)
  else if minCap ≤ m.cap then
    (.ok (),if m.cap-m.span < minCap-m.live then m.compact else m)
  else
    let target := ceilPowerOfTwo (max minCap 8)
    if target > maxU32 then (.error .outOfMemory,m)
    else if !granted then (.error .outOfMemory,m)
    else
      let kept := m.entries.filter Entry.alive
      (.ok (),⟨kept ++ List.replicate (target-kept.length) default,0,kept.length,kept.length⟩)

def ensureUnusedCapacity (granted : Bool) (m : InFlightMap) (extra : Nat) : Except AllocError Unit × InFlightMap :=
  if extra = 0 then (.ok (),m)
  else match checkedAdd m.live extra with
    | none => (.error .outOfMemory,m)
    | some needed =>
      if needed > m.cap then m.ensureTotalCapacity granted needed
      else (.ok (),if m.cap-m.span < extra then m.compact else m)

def findLogicalIndex (m : InFlightMap) (pn : Nat) : Option Nat :=
  if m.live = 0 then none else
  let first := m.entryAt 0
  if pn ≤ first.pn then
    if pn = first.pn ∧ first.chunk.dead = false then some 0 else none
  else
    let lastLogical := m.span-1
    let last := m.entryAt lastLogical
    if pn ≥ last.pn then
      if pn = last.pn ∧ last.chunk.dead = false then some lastLogical else none
    else match Search.find (fun i => compare (m.entryAt i).pn pn) lastLogical 1 lastLogical with
      | some mid => if (m.entryAt mid).chunk.dead = false then some mid else none
      | none => none

def contains (m : InFlightMap) (pn : Nat) : Bool := (m.findLogicalIndex pn).isSome

def getPtr (m : InFlightMap) (pn : Nat) : Option Chunk :=
  (m.findLogicalIndex pn).map fun i => (m.entryAt i).chunk

/-- A write of `c` through the pointer that `getPtr` returned. -/
def update (m : InFlightMap) (pn : Nat) (c : Chunk) : InFlightMap :=
  match m.findLogicalIndex pn with
  | some i => m.setAt i ⟨(m.entryAt i).pn,c⟩
  | none => m

/-- The shift loop: entry `lo+n` and the `n-1` below it move up one place, from the top. -/
def shiftUp (m : InFlightMap) : Nat → Nat → InFlightMap
  | 0,_ => m
  | n+1,lo => shiftUp (m.setAt (lo+n+1) (m.entryAt (lo+n))) n lo

def putAssumeCapacityNoClobber (m : InFlightMap) (pn : Nat) (c : Chunk) : InFlightMap :=
  let m := if m.cap-m.span = 0 then m.compact else m
  let new : Entry := ⟨pn,{c with dead := false}⟩
  if m.span = 0 ∨ pn > (m.entryAt (m.span-1)).pn then
    {m.setAt m.span new with span := m.span+1,live := m.live+1}
  else
    let lo := Search.lowerBound (fun i => decide ((m.entryAt i).pn < pn)) m.span 0 m.span
    if lo < m.span ∧ (m.entryAt lo).pn = pn then {m.setAt lo new with live := m.live+1}
    else
      let shifted := m.shiftUp (m.span-lo) lo
      {shifted.setAt lo new with span := m.span+1,live := m.live+1}

def trimHead : Nat → InFlightMap → InFlightMap
  | 0,m => m
  | n+1,m =>
    if m.span > 0 ∧ (m.entryAt 0).chunk.dead = true then
      trimHead n {m with head := (m.head+1) &&& (m.cap-1),span := m.span-1}
    else m

def trimTail : Nat → InFlightMap → InFlightMap
  | 0,m => m
  | n+1,m =>
    if m.span > 0 ∧ (m.entryAt (m.span-1)).chunk.dead = true then trimTail n {m with span := m.span-1}
    else m

/-- The end of `fetchRemove`, once the entry at `logical` is a tombstone. -/
def settle (m : InFlightMap) (logical : Nat) : InFlightMap :=
  if m.live = 0 then {m with head := 0,span := 0}
  else if logical = 0 then trimHead m.span m
  else if logical = m.span-1 then trimTail m.span m
  else if m.span ≥ 64 ∧ m.span-m.live ≥ m.span/2 then m.compact
  else m

def fetchRemove (m : InFlightMap) (pn : Nat) : Option (Chunk × InFlightMap) :=
  match m.findLogicalIndex pn with
  | none => none
  | some logical =>
    let entry := m.entryAt logical
    let buried := m.setAt logical {entry with chunk := {entry.chunk with dead := true}}
    some (entry.chunk,{buried with live := buried.live-1}.settle logical)

/-- The entries the stream can reach. -/
def alive (m : InFlightMap) : List Entry := m.entries.filter Entry.alive

def Holds (m : InFlightMap) (pn : Nat) (c : Chunk) : Prop := ⟨pn,c⟩ ∈ m.alive

/-- What every operation keeps: the ring's shape, the order of the keys and the live count. -/
structure Sound (m : InFlightMap) : Prop where
  power : m.cap = 0 ∨ ∃ k, m.cap = 2^k
  within : m.span ≤ m.cap
  ascending : m.entries.Pairwise (fun left right => left.pn < right.pn)
  counted : m.live = m.alive.length


theorem index_eq (m : InFlightMap) (i : Nat) (power : ∃ k, m.cap = 2^k) : m.index i = Ring.slot m.cap m.head i := by
  obtain ⟨k,size⟩ := power
  simp [index,Ring.slot,size,Nat.and_two_pow_sub_one_eq_mod]

theorem entryAt_eq (m : InFlightMap) (power : ∃ k, m.cap = 2^k) (i : Nat) :
    m.entryAt i = Ring.peek m.cells m.head i := by
  rw [entryAt,index_eq m i power]
  rfl

theorem entries_eq (m : InFlightMap) (power : ∃ k, m.cap = 2^k) : m.entries = Ring.window m.cells m.head m.span := by
  unfold entries Ring.window
  exact List.map_congr_left (fun i _ => entryAt_eq m power i)

@[simp] theorem cap_setAt (m : InFlightMap) (i : Nat) (e : Entry) : (m.setAt i e).cap = m.cap := by
  simp [setAt,cap]

@[simp] theorem span_setAt (m : InFlightMap) (i : Nat) (e : Entry) : (m.setAt i e).span = m.span := rfl

@[simp] theorem head_setAt (m : InFlightMap) (i : Nat) (e : Entry) : (m.setAt i e).head = m.head := rfl

@[simp] theorem live_setAt (m : InFlightMap) (i : Nat) (e : Entry) : (m.setAt i e).live = m.live := rfl

@[simp] theorem length_entries (m : InFlightMap) : m.entries.length = m.span := by simp [entries]

@[simp] theorem getElem_entries (m : InFlightMap) (i : Nat) (bound : i < m.entries.length) :
    m.entries[i] = m.entryAt i := by simp [entries]

theorem entries_setAt (m : InFlightMap) (i : Nat) (e : Entry) (power : ∃ k, m.cap = 2^k)
    (within : m.span ≤ m.cap) (inside : i < m.span) : (m.setAt i e).entries = m.entries.set i e := by
  rw [entries_eq _ (by simpa using power),entries_eq m power]
  simp only [setAt,index_eq m i power]
  exact Ring.window_set m.cells m.head m.span i e (by unfold cap at within; omega) within

theorem compactLoop_spec (n : Nat) (m : InFlightMap) (readI writeI : Nat) (power : ∃ k, m.cap = 2^k)
    (within : m.span ≤ m.cap) (left : readI + n = m.span) (behind : writeI ≤ readI) :
    let result := m.compactLoop n readI writeI
    result.1.cap = m.cap ∧ result.1.head = m.head ∧ result.1.live = m.live ∧
      Ring.window result.1.cells m.head result.2 =
        Ring.window m.cells m.head writeI ++ ((Ring.window m.cells m.head m.span).drop readI).filter Entry.alive := by
  induction n generalizing m readI writeI with
  | zero =>
    have done : (Ring.window m.cells m.head m.span).drop readI = [] := List.drop_of_length_le (by simp; omega)
    simp [compactLoop,done]
  | succ n ih =>
    have room : m.span ≤ m.cells.length := within
    have split : (Ring.window m.cells m.head m.span).drop readI =
        m.entryAt readI::(Ring.window m.cells m.head m.span).drop (readI+1) := by
      rw [List.drop_eq_getElem_cons (by simp; omega),Ring.getElem_window,entryAt_eq m power]
    unfold compactLoop
    dsimp only
    split
    · rename_i dead
      have step := ih m (readI+1) writeI power within (by omega) (by omega)
      rw [split,List.filter_cons_of_neg (by simp [Entry.alive,dead])]
      exact step
    · rename_i living
      rw [split,List.filter_cons_of_pos (by simpa [Entry.alive] using living)]
      by_cases same : writeI = readI
      · have step := ih m (readI+1) (writeI+1) power within (by omega) (by omega)
        rw [Ring.window_succ,← entryAt_eq m power,same,List.append_assoc] at step
        simpa [same] using step
      · have step := ih (m.setAt writeI (m.entryAt readI)) (readI+1) (writeI+1) (by simpa using power)
          (by simpa using within) (by simp; omega) (by omega)
        simp only [ne_eq,same,not_false_eq_true,ite_true]
        have pushed : Ring.window (m.setAt writeI (m.entryAt readI)).cells m.head (writeI+1) =
            Ring.window m.cells m.head writeI ++ [m.entryAt readI] := by
          rw [setAt,index_eq m writeI power]
          exact Ring.window_push m.cells m.head writeI _ (by omega)
        have kept : (Ring.window (m.setAt writeI (m.entryAt readI)).cells m.head m.span).drop (readI+1) =
            (Ring.window m.cells m.head m.span).drop (readI+1) := by
          simp only [setAt,index_eq m writeI power]
          rw [show m.cap = m.cells.length from rfl,Ring.window_set _ _ _ _ _ (by omega) room,
            List.drop_set_of_lt (by omega)]
        simp only [head_setAt,span_setAt,live_setAt,cap_setAt] at step
        rw [pushed,kept,List.append_assoc] at step
        simpa using step


theorem Sound.power_of_room {m : InFlightMap} (sound : m.Sound) (room : 0 < m.cap) : ∃ k, m.cap = 2^k :=
  sound.power.resolve_left (by omega)

theorem Sound.live_le {m : InFlightMap} (sound : m.Sound) : m.live ≤ m.span := by
  rw [sound.counted,← m.length_entries]
  exact List.length_filter_le _ _

theorem Sound.alive_ascending {m : InFlightMap} (sound : m.Sound) :
    m.alive.Pairwise (fun left right => left.pn < right.pn) := sound.ascending.sublist List.filter_sublist

theorem Sound.pn_lt {m : InFlightMap} (sound : m.Sound) {i j : Nat} (before : i < j) (bound : j < m.span) :
    (m.entryAt i).pn < (m.entryAt j).pn := by
  have pair := List.pairwise_iff_getElem.mp sound.ascending i j (by simp; omega) (by simpa using bound) before
  simpa using pair

theorem Sound.pn_inj {m : InFlightMap} (sound : m.Sound) {i j : Nat} (hi : i < m.span) (hj : j < m.span)
    (same : (m.entryAt i).pn = (m.entryAt j).pn) : i = j := by
  rcases lt_trichotomy i j with less | equal | greater
  · exact absurd (sound.pn_lt less hj) (by omega)
  · exact equal
  · exact absurd (sound.pn_lt greater hi) (by omega)

theorem mem_entries (m : InFlightMap) (e : Entry) : e ∈ m.entries ↔ ∃ i < m.span, m.entryAt i = e := by
  simp [entries]

theorem mem_alive (m : InFlightMap) (e : Entry) :
    e ∈ m.alive ↔ ∃ i < m.span, m.entryAt i = e ∧ e.chunk.dead = false := by
  simp only [alive,List.mem_filter,mem_entries,Entry.alive,Bool.not_eq_eq_eq_not,Bool.not_true]
  grind

theorem Sound.unique {m : InFlightMap} (sound : m.Sound) {pn : Nat} {c d : Chunk} (hc : m.Holds pn c)
    (hd : m.Holds pn d) : c = d := by
  obtain ⟨i,hi,equal,_⟩ := (mem_alive m _).mp hc
  obtain ⟨j,hj,equal',_⟩ := (mem_alive m _).mp hd
  obtain rfl := sound.pn_inj hi hj (by rw [equal,equal'])
  exact congrArg Entry.chunk (equal.symm.trans equal')

theorem Holds.not_dead {m : InFlightMap} {pn : Nat} {c : Chunk} (held : m.Holds pn c) : c.dead = false := by
  obtain ⟨_,_,_,alive⟩ := (mem_alive m _).mp held
  exact alive

theorem compact_spec (m : InFlightMap) (sound : m.Sound) :
    m.compact.Sound ∧ m.compact.alive = m.alive ∧ m.compact.cap = m.cap ∧ m.compact.live = m.live ∧
      m.compact.span = m.live := by
  have length : m.alive.length = m.live := sound.counted.symm
  unfold compact
  split
  · rename_i full
    exact ⟨sound,rfl,rfl,rfl,full⟩
  split
  · rename_i none
    have empty : m.alive = [] := List.length_eq_zero_iff.mp (by omega)
    refine ⟨⟨sound.power,Nat.zero_le _,by simp [entries],?_⟩,?_,rfl,rfl,none.symm⟩
    · simpa [alive,entries] using none
    · rw [empty]
      simp [alive,entries]
  · rename_i gaps some
    have power := sound.power_of_room (by have := sound.within; have := sound.live_le; omega)
    obtain ⟨cap,head,live,window⟩ := compactLoop_spec m.span m 0 0 power sound.within (by omega) le_rfl
    generalize m.compactLoop m.span 0 0 = result at cap head live window
    obtain ⟨moved,writeI⟩ := result
    simp only at cap head live window ⊢
    simp only [Ring.window_zero,List.nil_append,List.drop_zero,← entries_eq m power] at window
    have entries' : ({moved with span := writeI} : InFlightMap).entries = m.alive := by
      rw [entries_eq _ (by change ∃ k, moved.cap = 2^k; rwa [cap])]
      simpa [head,alive] using window
    have span' : writeI = m.live := by
      rw [← length,← entries',length_entries]
    have alive' : ({moved with span := writeI} : InFlightMap).alive = m.alive := by
      rw [alive,entries',alive,List.filter_filter]
      simp
    refine ⟨⟨?_,?_,?_,?_⟩,alive',cap,live,span'⟩
    · exact .inr (by change ∃ k, moved.cap = 2^k; rwa [cap])
    · change writeI ≤ moved.cap
      rw [cap,span']
      exact sound.live_le.trans sound.within
    · rw [entries']
      exact sound.alive_ascending
    · rw [alive']
      exact live.trans sound.counted

theorem le_ceilPowerOfTwo (n : Nat) : n ≤ ceilPowerOfTwo n := by
  unfold ceilPowerOfTwo
  split
  · assumption
  · have := Nat.lt_log2_self (n := n-1)
    omega

theorem ceilPowerOfTwo_power (n : Nat) : ∃ k, ceilPowerOfTwo n = 2^k := by
  unfold ceilPowerOfTwo
  split
  · exact ⟨0,rfl⟩
  · exact ⟨_,rfl⟩

theorem fresh_spec (kept : List Entry) (target : Nat) (fits : kept.length ≤ target) (power : ∃ k, target = 2^k)
    (ascending : kept.Pairwise (fun left right => left.pn < right.pn)) (living : ∀ e ∈ kept, e.alive = true) :
    let m : InFlightMap := ⟨kept ++ List.replicate (target-kept.length) default,0,kept.length,kept.length⟩
    m.Sound ∧ m.alive = kept ∧ m.cap = target := by
  intro m
  have size : m.cap = target := by
    simp [m,cap]
    omega
  have power' : ∃ k, m.cap = 2^k := size.symm ▸ power
  have entries' : m.entries = kept := by
    rw [entries_eq m power']
    exact Ring.window_prefix kept _
  have alive' : m.alive = kept := by
    rw [alive,entries']
    exact List.filter_eq_self.mpr living
  refine ⟨⟨.inr power',?_,?_,?_⟩,alive',size⟩
  · rw [size]
    exact fits
  · rw [entries']
    exact ascending
  · rw [alive']

/-- Growing the ring copies the live entries, so that an unused cell is there. -/
theorem ensureTotalCapacity_spec (granted : Bool) (m : InFlightMap) (minCap : Nat) (sound : m.Sound) :
    (m.ensureTotalCapacity granted minCap).2.Sound ∧
      (m.ensureTotalCapacity granted minCap).2.alive = m.alive ∧
      ((m.ensureTotalCapacity granted minCap).1 = .ok () → minCap ≤ (m.ensureTotalCapacity granted minCap).2.cap) := by
  unfold ensureTotalCapacity
  split
  · exact ⟨sound,rfl,by omega⟩
  split
  · rename_i fits
    dsimp only
    split
    · obtain ⟨sound',alive,cap,_,_⟩ := m.compact_spec sound
      exact ⟨sound',alive,fun _ => cap ▸ fits⟩
    · exact ⟨sound,rfl,fun _ => fits⟩
  dsimp only
  split
  · exact ⟨sound,rfl,by simp⟩
  split
  · exact ⟨sound,rfl,by simp⟩
  · rename_i small _ _
    have grown : m.alive.length ≤ ceilPowerOfTwo (max minCap 8) := by
      have := le_ceilPowerOfTwo (max minCap 8)
      have := sound.live_le
      have := sound.within
      have := sound.counted
      omega
    obtain ⟨sound',alive',cap⟩ := fresh_spec m.alive _ grown (ceilPowerOfTwo_power _) sound.alive_ascending
      (fun e member => (List.mem_filter.mp member).2)
    refine ⟨sound',alive',fun _ => ?_⟩
    have := le_ceilPowerOfTwo (max minCap 8)
    exact (show minCap ≤ ceilPowerOfTwo (max minCap 8) by omega).trans cap.ge

/-- After a reservation that succeeds, there is a cell for `extra` more live entries. -/
theorem ensureUnusedCapacity_spec (granted : Bool) (m : InFlightMap) (extra : Nat) (sound : m.Sound) :
    (m.ensureUnusedCapacity granted extra).2.Sound ∧
      (m.ensureUnusedCapacity granted extra).2.alive = m.alive ∧
      ((m.ensureUnusedCapacity granted extra).1 = .ok () →
        m.alive.length + extra ≤ (m.ensureUnusedCapacity granted extra).2.cap) := by
  have counted := sound.counted
  have fits := sound.live_le.trans sound.within
  unfold ensureUnusedCapacity
  split
  · refine ⟨sound,rfl,fun _ => ?_⟩
    change m.alive.length + extra ≤ m.cap
    omega
  split
  · exact ⟨sound,rfl,by simp⟩
  · rename_i needed sum
    have exact : needed = m.live + extra := by
      unfold checkedAdd at sum
      grind
    split
    · obtain ⟨sound',alive,room⟩ := ensureTotalCapacity_spec granted m needed sound
      exact ⟨sound',alive,fun ok => by have := room ok; omega⟩
    · dsimp only
      split
      · obtain ⟨sound',alive,cap,_,_⟩ := m.compact_spec sound
        exact ⟨sound',alive,fun _ => by omega⟩
      · exact ⟨sound,rfl,fun _ => by omega⟩

theorem findLogicalIndex_some {m : InFlightMap} (sound : m.Sound) {pn i : Nat}
    (found : m.findLogicalIndex pn = some i) :
    i < m.span ∧ (m.entryAt i).pn = pn ∧ (m.entryAt i).chunk.dead = false := by
  have fits := sound.live_le
  unfold findLogicalIndex at found
  split at found
  · simp at found
  dsimp only at found
  split at found
  · split at found
    · rename_i here
      obtain rfl := Option.some.inj found
      exact ⟨by omega,here.1.symm,here.2⟩
    · simp at found
  split at found
  · split at found
    · rename_i here
      obtain rfl := Option.some.inj found
      exact ⟨by omega,here.1.symm,here.2⟩
    · simp at found
  split at found
  · rename_i mid search
    split at found
    · rename_i living
      obtain rfl := Option.some.inj found
      obtain ⟨_,bound,equal⟩ := Search.find_some _ _ _ _ _ search
      exact ⟨by omega,compare_eq_iff_eq.mp equal,living⟩
    · simp at found
  · simp at found

theorem findLogicalIndex_entry {m : InFlightMap} (sound : m.Sound) {i : Nat} (bound : i < m.span)
    (living : (m.entryAt i).chunk.dead = false) : m.findLogicalIndex (m.entryAt i).pn = some i := by
  have present : m.entryAt i ∈ m.alive := (mem_alive m _).mpr ⟨i,bound,rfl,living⟩
  have some : 0 < m.live := sound.counted ▸ List.length_pos_of_mem present
  unfold findLogicalIndex
  rw [if_neg (by omega)]
  dsimp only
  by_cases first : i = 0
  · subst first
    simp [living]
  have low := sound.pn_lt (Nat.pos_of_ne_zero first) bound
  rw [if_neg (by omega)]
  by_cases last : i = m.span-1
  · subst last
    simp [living]
  have high := sound.pn_lt (i := i) (j := m.span-1) (by omega) (by omega)
  rw [if_neg (by omega)]
  cases search : Search.find (fun j => compare (m.entryAt j).pn (m.entryAt i).pn) (m.span-1) 1 (m.span-1) with
  | none =>
    refine absurd (compare_eq_iff_eq.mpr rfl) (Search.find_none _ _ _ _ (by omega) ?_ search i (by omega) (by omega))
    intro a b before inside notLess
    have less := sound.pn_lt before (by omega : b < m.span)
    rw [compare_gt_iff_gt]
    rw [ne_eq,compare_lt_iff_lt] at notLess
    omega
  | some mid =>
    obtain ⟨_,inside,equal⟩ := Search.find_some _ _ _ _ _ search
    obtain rfl := sound.pn_inj (by omega) bound (compare_eq_iff_eq.mp equal)
    simp [living]

theorem findLogicalIndex_none {m : InFlightMap} (sound : m.Sound) {pn : Nat} :
    m.findLogicalIndex pn = none ↔ ∀ c, ¬ m.Holds pn c := by
  constructor
  · intro missed c held
    obtain ⟨i,bound,equal,living⟩ := (mem_alive m _).mp held
    have found := findLogicalIndex_entry sound bound (by rw [equal]; exact living)
    rw [equal,missed] at found
    simp at found
  · intro absent
    cases found : m.findLogicalIndex pn with
    | none => rfl
    | some i =>
      obtain ⟨bound,key,living⟩ := findLogicalIndex_some sound found
      exact absurd ((mem_alive m ⟨pn,_⟩).mpr ⟨i,bound,by rw [← key],living⟩) (absent (m.entryAt i).chunk)

theorem contains_iff {m : InFlightMap} (sound : m.Sound) (pn : Nat) :
    m.contains pn = true ↔ ∃ c, m.Holds pn c := by
  rw [contains,Option.isSome_iff_ne_none,ne_eq,findLogicalIndex_none sound]
  simp

theorem getPtr_iff {m : InFlightMap} (sound : m.Sound) (pn : Nat) (c : Chunk) :
    m.getPtr pn = some c ↔ m.Holds pn c := by
  constructor
  · intro read
    obtain ⟨i,found,equal⟩ := Option.map_eq_some_iff.mp read
    obtain ⟨bound,key,living⟩ := findLogicalIndex_some sound found
    exact (mem_alive m _).mpr ⟨i,bound,by rw [← key,← equal],by rw [← equal]; exact living⟩
  · intro held
    obtain ⟨i,bound,equal,living⟩ := (mem_alive m _).mp held
    have found := findLogicalIndex_entry sound bound (by rw [equal]; exact living)
    rw [equal] at found
    simp [getPtr,found,equal]

theorem getPtr_none {m : InFlightMap} (sound : m.Sound) (pn : Nat) :
    m.getPtr pn = none ↔ ∀ c, ¬ m.Holds pn c := by
  rw [getPtr,Option.map_eq_none_iff,findLogicalIndex_none sound]

theorem entryAt_setAt (m : InFlightMap) (power : ∃ k, m.cap = 2^k) (i j : Nat) (e : Entry) (hi : i < m.cap)
    (hj : j < m.cap) : (m.setAt i e).entryAt j = if i = j then e else m.entryAt j := by
  rw [entryAt_eq _ (by simpa using power),entryAt_eq m power,setAt,index_eq m i power]
  exact Ring.peek_set m.cells m.head i j e hi hj

theorem setAt_spec {m : InFlightMap} (sound : m.Sound) {i : Nat} (inside : i < m.span) (e : Entry)
    (same : e.pn = (m.entryAt i).pn) :
    (m.setAt i e).entries.Pairwise (fun left right => left.pn < right.pn) ∧
      (∀ f, f ∈ (m.setAt i e).alive ↔ (f = e ∧ e.alive = true) ∨ (f ∈ m.alive ∧ f.pn ≠ e.pn)) ∧
      (m.setAt i e).alive.length + (m.entryAt i).alive.toNat = m.alive.length + e.alive.toNat := by
  have within := sound.within
  have power := sound.power_of_room (by omega)
  have entries' := entries_setAt m i e power within inside
  have pn (j : Nat) (bound : j < m.span) : ((m.setAt i e).entryAt j).pn = (m.entryAt j).pn := by
    rw [entryAt_setAt m power i j e (by omega) (by omega)]
    split
    · rename_i equal
      exact equal ▸ same
    · rfl
  refine ⟨?_,?_,?_⟩
  · rw [List.pairwise_iff_getElem]
    intro a b left right before
    simp only [length_entries,span_setAt] at left right
    rw [getElem_entries,getElem_entries,pn a left,pn b right]
    exact sound.pn_lt before right
  · intro f
    simp only [mem_alive,span_setAt]
    constructor
    · rintro ⟨j,bound,equal,living⟩
      rw [entryAt_setAt m power i j e (by omega) (by omega)] at equal
      split at equal
      · exact .inl ⟨equal.symm,by simpa [Entry.alive,equal] using living⟩
      · rename_i other
        refine .inr ⟨⟨j,bound,equal,living⟩,?_⟩
        rw [same,← equal]
        exact fun key => other (sound.pn_inj inside bound key.symm)
    · rintro (⟨rfl,living⟩ | ⟨⟨j,bound,equal,living⟩,other⟩)
      · refine ⟨i,inside,?_,by simpa [Entry.alive] using living⟩
        rw [entryAt_setAt m power i i f (by omega) (by omega),if_pos rfl]
      · refine ⟨j,bound,?_,living⟩
        rw [entryAt_setAt m power i j e (by omega) (by omega),if_neg]
        · exact equal
        · rintro rfl
          exact other (equal ▸ same.symm)
  · rw [alive,entries',alive,← List.countP_eq_length_filter,← List.countP_eq_length_filter,
      List.countP_set (by simpa using inside),getElem_entries]
    have least : (m.entryAt i).alive.toNat ≤ m.entries.countP Entry.alive := by
      cases living : (m.entryAt i).alive with
      | false => simp
      | true => exact List.countP_pos_iff.mpr ⟨_,(mem_entries m _).mpr ⟨i,inside,rfl⟩,living⟩
    cases living : (m.entryAt i).alive <;> cases e.alive <;> simp_all

theorem update_spec {m : InFlightMap} (sound : m.Sound) {pn : Nat} {old c : Chunk} (held : m.Holds pn old)
    (living : c.dead = false) :
    (m.update pn c).Sound ∧ ∀ e, e ∈ (m.update pn c).alive ↔ e = ⟨pn,c⟩ ∨ (e ∈ m.alive ∧ e.pn ≠ pn) := by
  have read := (getPtr_iff sound pn old).mpr held
  obtain ⟨i,found,_⟩ := Option.map_eq_some_iff.mp read
  obtain ⟨bound,rfl,alive⟩ := findLogicalIndex_some sound found
  obtain ⟨ascending,members,count⟩ := setAt_spec sound bound ⟨(m.entryAt i).pn,c⟩ rfl
  have count' : (m.setAt i ⟨(m.entryAt i).pn,c⟩).alive.length = m.alive.length := by
    simpa [Entry.alive,alive,living] using count
  unfold update
  rw [found]
  refine ⟨⟨by simpa using sound.power,by simpa using sound.within,ascending,?_⟩,?_⟩
  · simpa [count'] using sound.counted
  · intro e
    rw [members]
    simp [Entry.alive,living]

@[simp] theorem cap_shiftUp (n : Nat) (m : InFlightMap) (lo : Nat) : (m.shiftUp n lo).cap = m.cap := by
  induction n generalizing m with
  | zero => rfl
  | succ n ih => simp [shiftUp,ih]

@[simp] theorem head_shiftUp (n : Nat) (m : InFlightMap) (lo : Nat) : (m.shiftUp n lo).head = m.head := by
  induction n generalizing m with
  | zero => rfl
  | succ n ih => simp [shiftUp,ih]

theorem entryAt_shiftUp (n : Nat) (m : InFlightMap) (lo j : Nat) (power : ∃ k, m.cap = 2^k) (room : lo+n < m.cap)
    (bound : j < m.cap) :
    (m.shiftUp n lo).entryAt j = if lo < j ∧ j ≤ lo+n then m.entryAt (j-1) else m.entryAt j := by
  induction n generalizing m with
  | zero =>
    rw [shiftUp,if_neg (by omega)]
  | succ n ih =>
    rw [shiftUp,ih _ (by simpa using power) (by rw [cap_setAt]; omega) (by simpa using bound)]
    have written (k : Nat) (inside : k < m.cap) := entryAt_setAt m power (lo+n+1) k (m.entryAt (lo+n)) (by omega) inside
    by_cases moved : lo < j ∧ j ≤ lo+n
    · rw [if_pos moved,if_pos (by omega),written _ (by omega),if_neg (by omega)]
    · rw [if_neg moved,written _ bound]
      by_cases top : lo+n+1 = j
      · rw [if_pos top,if_pos (by omega),← top]
        rfl
      · rw [if_neg top,if_neg (by omega)]

theorem insert_spec {m after : InFlightMap} (sound : m.Sound) (lo : Nat) (new : Entry)
    (placed : after.entries = m.entries.take lo ++ new::m.entries.drop lo) (cap : after.cap = m.cap)
    (room : after.span ≤ after.cap) (live : after.live = m.live+1) (living : new.alive = true)
    (below : ∀ e ∈ m.entries.take lo, e.pn < new.pn) (above : ∀ e ∈ m.entries.drop lo, new.pn < e.pn) :
    after.Sound ∧ ∀ e, e ∈ after.alive ↔ e = new ∨ e ∈ m.alive := by
  have alive' : after.alive = (m.entries.take lo).filter Entry.alive ++ new::(m.entries.drop lo).filter Entry.alive := by
    rw [alive,placed,List.filter_append,List.filter_cons_of_pos living]
  have split : m.alive = (m.entries.take lo).filter Entry.alive ++ (m.entries.drop lo).filter Entry.alive := by
    rw [alive,← List.filter_append,List.take_append_drop]
  refine ⟨⟨cap.symm ▸ sound.power,room,?_,?_⟩,?_⟩
  · have ordered := sound.ascending
    rw [← List.take_append_drop lo m.entries,List.pairwise_append] at ordered
    rw [placed,List.pairwise_append,List.pairwise_cons]
    refine ⟨ordered.1,⟨above,ordered.2.1⟩,?_⟩
    intro left inLeft right inRight
    rcases List.mem_cons.mp inRight with rfl | later
    · exact below left inLeft
    · exact ordered.2.2 left inLeft right later
  · rw [live,sound.counted,alive',split]
    simp
    omega
  · intro e
    rw [alive',split]
    simp only [List.mem_append,List.mem_cons]
    tauto

theorem put_spec {m : InFlightMap} (sound : m.Sound) (pn : Nat) (c : Chunk) (room : m.alive.length < m.cap)
    (absent : ∀ c, ¬ m.Holds pn c) :
    (m.putAssumeCapacityNoClobber pn c).Sound ∧
      ∀ e, e ∈ (m.putAssumeCapacityNoClobber pn c).alive ↔ e = ⟨pn,{c with dead := false}⟩ ∨ e ∈ m.alive := by
  unfold putAssumeCapacityNoClobber
  -- A full span holds tombstones, for the live entries leave a cell free.
  obtain ⟨m',equal,sound',alive',cap',room'⟩ : ∃ m', (if m.cap-m.span = 0 then m.compact else m) = m' ∧ m'.Sound ∧
      m'.alive = m.alive ∧ m'.cap = m.cap ∧ m'.span < m'.cap := by
    split
    · obtain ⟨sound',alive',cap',_,span'⟩ := m.compact_spec sound
      have := sound.counted
      exact ⟨_,rfl,sound',alive',cap',by omega⟩
    · have := sound.within
      exact ⟨_,rfl,sound,rfl,rfl,by omega⟩
  rw [equal]
  have power := sound'.power_of_room (by omega)
  dsimp only
  generalize fresh : (⟨pn,{c with dead := false}⟩ : Entry) = new
  have living : new.alive = true := by simp [← fresh,Entry.alive]
  have key : new.pn = pn := by simp [← fresh]
  rw [← alive']
  split
  · rename_i last
    have entries' : ({m'.setAt m'.span new with span := m'.span+1,live := m'.live+1} : InFlightMap).entries =
        m'.entries.take m'.span ++ new::m'.entries.drop m'.span := by
      rw [entries_eq _ (by simpa [setAt,InFlightMap.cap] using power),List.take_of_length_le (by simp),
        List.drop_of_length_le (by simp),entries_eq m' power,setAt,index_eq m' _ power]
      exact Ring.window_push m'.cells m'.head m'.span new room'
    refine insert_spec sound' m'.span new entries' (by simp [setAt,InFlightMap.cap]) ?_ rfl living ?_ ?_
    · simp only [InFlightMap.cap,setAt,List.length_set]
      exact room'
    · intro e member
      rw [List.take_of_length_le (by simp)] at member
      obtain ⟨i,bound,rfl⟩ := (mem_entries m' e).mp member
      rw [key]
      rcases last with none | larger
      · omega
      · rcases Nat.lt_or_eq_of_le (by omega : i ≤ m'.span-1) with before | same
        · exact (sound'.pn_lt before (by omega)).trans larger
        · exact same ▸ larger
    · intro e member
      simp [List.drop_of_length_le] at member
  · rename_i inner
    have descends : ∀ i j, i ≤ j → j < m'.span → (m'.entryAt j).pn < pn → (m'.entryAt i).pn < pn := by
      intro i j ordered bound small
      rcases Nat.lt_or_eq_of_le ordered with before | same
      · exact (sound'.pn_lt before bound).trans small
      · exact same ▸ small
    obtain ⟨_,high⟩ := Search.lowerBound_range (fun i => decide ((m'.entryAt i).pn < pn)) m'.span 0 m'.span (by omega)
    obtain ⟨lower,upper⟩ := Search.lowerBound_split (fun i => decide ((m'.entryAt i).pn < pn)) m'.span 0 m'.span
      (by omega) (fun i j ordered bound small => by
        simp only [decide_eq_true_eq] at small ⊢
        exact descends i j ordered bound small)
    generalize Search.lowerBound (fun i => decide ((m'.entryAt i).pn < pn)) m'.span 0 m'.span = lo at high lower upper ⊢
    simp only [decide_eq_true_eq,decide_eq_false_iff_not] at lower upper
    split
    · rename_i reuse
      obtain ⟨inside,same⟩ := reuse
      -- The slot of `pn` is a tombstone: a live entry would be held.
      have buried : (m'.entryAt lo).alive = false := by
        by_contra alive
        refine absent (m'.entryAt lo).chunk ?_
        change ⟨pn,_⟩ ∈ m.alive
        rw [← alive',mem_alive]
        exact ⟨lo,inside,by rw [← same],by simpa [Entry.alive] using alive⟩
      obtain ⟨ascending,members,count⟩ := setAt_spec sound' inside new (key.trans same.symm)
      refine ⟨⟨by simpa [InFlightMap.cap,setAt] using sound'.power,?_,ascending,?_⟩,?_⟩
      · simpa [InFlightMap.cap,setAt] using sound'.within
      · have counted := sound'.counted
        simp only [buried,living,Bool.toNat_false,Bool.toNat_true] at count
        change m'.live+1 = (m'.setAt lo new).alive.length
        omega
      · intro e
        change e ∈ (m'.setAt lo new).alive ↔ _
        rw [members,living]
        have other : e ∈ m'.alive → e.pn ≠ new.pn := by
          intro member key'
          refine absent e.chunk ?_
          change ⟨pn,_⟩ ∈ m.alive
          rw [← alive',← key,← key']
          exact member
        grind
    · rename_i fresh'
      have entries' : ({(m'.shiftUp (m'.span-lo) lo).setAt lo new with span := m'.span+1,live := m'.live+1} : InFlightMap).entries =
          m'.entries.take lo ++ new::m'.entries.drop lo := by
        apply List.ext_getElem
        · simp
          omega
        · intro i left right
          have bound : i < m'.span+1 := by simpa using left
          rw [getElem_entries]
          change ((m'.shiftUp (m'.span-lo) lo).setAt lo new).entryAt i = _
          rw [entryAt_setAt _ (by simpa using power) _ _ _ (by simp; omega) (by simp; omega),
            entryAt_shiftUp _ _ _ _ power (by omega) (by omega)]
          rcases lt_trichotomy i lo with before | here | after
          · rw [if_neg (by omega),if_neg (by omega),List.getElem_append_left (by simp; omega)]
            simp
          · subst here
            rw [if_pos rfl,List.getElem_append_right (by simp)]
            simp [Nat.min_eq_left high]
          · rw [if_neg (by omega),if_pos (by omega),List.getElem_append_right (by simp; omega),List.getElem_cons]
            simp only [length_entries,List.length_take,Nat.min_eq_left high]
            rw [dif_neg (by omega)]
            simp only [List.getElem_drop,getElem_entries]
            congr 1
            omega
      have cap'' : ({(m'.shiftUp (m'.span-lo) lo).setAt lo new with span := m'.span+1,live := m'.live+1} : InFlightMap).cap = m'.cap := by
        change ((m'.shiftUp (m'.span-lo) lo).setAt lo new).cap = m'.cap
        simp
      refine insert_spec sound' lo new entries' cap'' (cap''.symm ▸ room') rfl living ?_ ?_
      · intro e member
        obtain ⟨i,bound,rfl⟩ := List.mem_take_iff_getElem.mp member
        rw [getElem_entries,key]
        exact lower i (by omega) (by omega)
      · intro e member
        obtain ⟨i,bound,rfl⟩ := List.mem_drop_iff_getElem.mp member
        rw [getElem_entries,key]
        simp only [length_entries] at bound
        have := upper (lo+i) (by omega) (by omega)
        rcases Nat.eq_zero_or_pos i with rfl | later
        · have : (m'.entryAt lo).pn ≠ pn := fun same => fresh' ⟨by omega,same⟩
          simp only [Nat.add_zero] at *
          omega
        · have := sound'.pn_lt (show lo < lo+i by omega) (by omega)
          have := upper lo le_rfl (by omega)
          omega

theorem Sound.shrink {m after : InFlightMap} (sound : m.Sound) (cap : after.cap = m.cap) (span : after.span ≤ m.span)
    (live : after.live = m.live) (part : after.entries.Sublist m.entries) (same : after.alive = m.alive) :
    after.Sound :=
  ⟨cap.symm ▸ sound.power,cap.symm ▸ span.trans sound.within,sound.ascending.sublist part,by
    rw [live,same,sound.counted]⟩

theorem trimHead_spec (n : Nat) (m : InFlightMap) (sound : m.Sound) :
    (trimHead n m).Sound ∧ (trimHead n m).alive = m.alive := by
  induction n generalizing m with
  | zero => exact ⟨sound,rfl⟩
  | succ n ih =>
    unfold trimHead
    split
    · rename_i dead
      have power := sound.power_of_room (by have := sound.within; omega)
      have split : m.entries = m.entryAt 0::m.entries.drop 1 := by
        have first := List.drop_eq_getElem_cons (l := m.entries) (i := 0) (by simp; omega)
        simpa using first
      have entries' : ({m with head := (m.head+1) &&& (m.cap-1),span := m.span-1} : InFlightMap).entries = m.entries.drop 1 := by
        have moved := entries_eq {m with head := (m.head+1) &&& (m.cap-1),span := m.span-1} power
        change _ = Ring.window m.cells (m.index 1) (m.span-1) at moved
        rw [moved,entries_eq m power,Ring.drop_window,index_eq m 1 power]
        rfl
      have alive' : ({m with head := (m.head+1) &&& (m.cap-1),span := m.span-1} : InFlightMap).alive = m.alive := by
        rw [alive,entries',alive,split,List.filter_cons_of_neg (by simp [Entry.alive,dead.2])]
        rfl
      have part : ({m with head := (m.head+1) &&& (m.cap-1),span := m.span-1} : InFlightMap).entries.Sublist m.entries := by
        rw [entries']
        exact List.drop_sublist _ _
      have shrunk : ({m with head := (m.head+1) &&& (m.cap-1),span := m.span-1} : InFlightMap).Sound :=
        sound.shrink rfl (Nat.sub_le _ _) rfl part alive'
      obtain ⟨sound',same⟩ := ih _ shrunk
      exact ⟨sound',same.trans alive'⟩
    · exact ⟨sound,rfl⟩

theorem trimTail_spec (n : Nat) (m : InFlightMap) (sound : m.Sound) :
    (trimTail n m).Sound ∧ (trimTail n m).alive = m.alive := by
  induction n generalizing m with
  | zero => exact ⟨sound,rfl⟩
  | succ n ih =>
    unfold trimTail
    split
    · rename_i dead
      have split : m.entries = ({m with span := m.span-1} : InFlightMap).entries ++ [m.entryAt (m.span-1)] := by
        have count : m.span = m.span-1+1 := by omega
        change (List.range m.span).map m.entryAt = (List.range (m.span-1)).map m.entryAt ++ _
        conv_lhs => rw [count,List.range_succ,List.map_append]
        rfl
      have alive' : ({m with span := m.span-1} : InFlightMap).alive = m.alive := by
        rw [alive,alive,split,List.filter_append]
        simp [Entry.alive,dead.2]
      have part : ({m with span := m.span-1} : InFlightMap).entries.Sublist m.entries := by
        conv_rhs => rw [split]
        exact List.sublist_append_left _ _
      have shrunk : ({m with span := m.span-1} : InFlightMap).Sound :=
        sound.shrink rfl (Nat.sub_le _ _) rfl part alive'
      obtain ⟨sound',same⟩ := ih _ shrunk
      exact ⟨sound',same.trans alive'⟩
    · exact ⟨sound,rfl⟩

theorem settle_spec {m : InFlightMap} (logical : Nat) (sound : m.Sound) :
    (m.settle logical).Sound ∧ (m.settle logical).alive = m.alive := by
  unfold settle
  split
  · rename_i none
    have empty : m.alive = [] := List.length_eq_zero_iff.mp (sound.counted.symm.trans none)
    have cleared : ({m with head := 0,span := 0} : InFlightMap).alive = m.alive := by
      rw [empty]
      rfl
    exact ⟨sound.shrink rfl (Nat.zero_le _) rfl (List.nil_sublist _) cleared,cleared⟩
  split
  · exact trimHead_spec _ _ sound
  split
  · exact trimTail_spec _ _ sound
  split
  · obtain ⟨sound',same,_⟩ := m.compact_spec sound
    exact ⟨sound',same⟩
  · exact ⟨sound,rfl⟩

theorem fetchRemove_some {m after : InFlightMap} (sound : m.Sound) {pn : Nat} {c : Chunk}
    (removed : m.fetchRemove pn = some (c,after)) :
    m.Holds pn c ∧ after.Sound ∧ ∀ e, e ∈ after.alive ↔ e ∈ m.alive ∧ e.pn ≠ pn := by
  unfold fetchRemove at removed
  split at removed
  · simp at removed
  rename_i i found
  obtain ⟨bound,key,living⟩ := findLogicalIndex_some sound found
  simp only [Option.some.injEq,Prod.mk.injEq] at removed
  obtain ⟨rfl,trimmed⟩ := removed
  have held : m.Holds pn (m.entryAt i).chunk := (mem_alive m _).mpr ⟨i,bound,by rw [← key],living⟩
  obtain ⟨ascending,members,count⟩ := setAt_spec sound bound
    {m.entryAt i with chunk := {(m.entryAt i).chunk with dead := true}} rfl
  generalize entry : ({m.entryAt i with chunk := {(m.entryAt i).chunk with dead := true}} : Entry) = tomb at *
  have dead : tomb.alive = false := by simp [← entry,Entry.alive]
  have key' : tomb.pn = pn := by simp [← entry,key]
  have alive : (m.entryAt i).alive = true := by simpa [Entry.alive] using living
  have buried : ({m.setAt i tomb with live := (m.setAt i tomb).live-1} : InFlightMap).Sound := by
    refine ⟨by simpa [InFlightMap.cap,setAt] using sound.power,by simpa [InFlightMap.cap,setAt] using sound.within,
      ascending,?_⟩
    have counted := sound.counted
    simp only [dead,alive,Bool.toNat_false,Bool.toNat_true] at count
    change m.live-1 = (m.setAt i tomb).alive.length
    omega
  have members' : ∀ e, e ∈ ({m.setAt i tomb with live := (m.setAt i tomb).live-1} : InFlightMap).alive ↔ e ∈ m.alive ∧ e.pn ≠ pn := by
    intro e
    change e ∈ (m.setAt i tomb).alive ↔ _
    rw [members,dead,key']
    simp
  obtain ⟨sound',same⟩ := settle_spec i buried
  rw [← trimmed]
  exact ⟨held,sound',fun e => by rw [same,members']⟩

theorem fetchRemove_none {m : InFlightMap} (sound : m.Sound) {pn : Nat} :
    m.fetchRemove pn = none ↔ ∀ c, ¬ m.Holds pn c := by
  rw [← findLogicalIndex_none sound,fetchRemove]
  cases m.findLogicalIndex pn <;> simp

end InFlightMap
end QuicZig.Conn
