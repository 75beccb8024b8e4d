import QuicZig.Conn.SentPackets
import Mathlib.Algebra.BigOperators.Group.List.Basic
import Mathlib.Data.List.Find
import Mathlib.Tactic.Linarith

/-! What each operation does to the list of the live packets, and the invariant that keeps
every subtraction above zero. -/
namespace QuicZig.Conn.SentPackets

section
variable {Frame : Type}

def inFlightBytes (packets : List (SentPacket Frame)) : Nat :=
  (packets.map fun p => if p.inFlight then p.bytes else 0).sum

def ackElicitingBytes (packets : List (SentPacket Frame)) : Nat :=
  (packets.map fun p => if p.inFlight && p.ackEliciting then p.bytes else 0).sum

@[simp] theorem inFlightBytes_nil : inFlightBytes ([] : List (SentPacket Frame)) = 0 := rfl

@[simp] theorem inFlightBytes_cons (p : SentPacket Frame) (rest : List (SentPacket Frame)) :
    inFlightBytes (p::rest) = (if p.inFlight then p.bytes else 0)+inFlightBytes rest := by simp [inFlightBytes]

@[simp] theorem inFlightBytes_append (first second : List (SentPacket Frame)) :
    inFlightBytes (first ++ second) = inFlightBytes first+inFlightBytes second := by simp [inFlightBytes]

@[simp] theorem ackElicitingBytes_nil : ackElicitingBytes ([] : List (SentPacket Frame)) = 0 := rfl

@[simp] theorem ackElicitingBytes_cons (p : SentPacket Frame) (rest : List (SentPacket Frame)) :
    ackElicitingBytes (p::rest) = (if p.inFlight && p.ackEliciting then p.bytes else 0)+ackElicitingBytes rest := by
  simp [ackElicitingBytes]

@[simp] theorem ackElicitingBytes_append (first second : List (SentPacket Frame)) :
    ackElicitingBytes (first ++ second) = ackElicitingBytes first+ackElicitingBytes second := by simp [ackElicitingBytes]

@[simp] theorem tombstone_pn (pn : Nat) : (tombstone pn : SentPacket Frame).pn = pn := rfl

@[simp] theorem alive_tombstone (pn : Nat) : (tombstone pn : SentPacket Frame).alive = false := rfl

namespace SentPacketTracker

/-- The slots in use, tombstones included. -/
def slots (t : SentPacketTracker Frame) : List (SentPacket Frame) := t.packets.take t.count

def live (t : SentPacketTracker Frame) : List (SentPacket Frame) := t.slots.filter SentPacket.alive

def rank (t : SentPacketTracker Frame) (i : Nat) : Nat := ((t.slots.take i).filter SentPacket.alive).length

/-- What every operation keeps. -/
structure Sound (t : SentPacketTracker Frame) : Prop where
  within : t.count ≤ t.packets.length
  room : t.maxCapacity = 0 ∨ (0 < t.packets.length ∧ t.packets.length ≤ t.maxCapacity)
  ascending : (t.slots.map (·.pn)).Pairwise (· < ·)
  counted : t.deadCount+t.live.length = t.count
  bytes : t.bytesInFlight = inFlightBytes t.live
  ackEliciting : t.ackElicitingInFlight = ackElicitingBytes t.live

variable {t : SentPacketTracker Frame}

theorem Sound.length_slots (sound : t.Sound) : t.slots.length = t.count := by
  simp [slots,sound.within]

theorem Sound.liveCount (sound : t.Sound) : t.liveCount = t.live.length := by
  have counted := sound.counted
  unfold SentPacketTracker.liveCount
  omega

theorem Sound.length_le (sound : t.Sound) : t.packets.length ≤ t.capacity := by
  unfold capacity
  split
  · exact le_rfl
  · rename_i own
    exact (sound.room.resolve_left own).2

theorem getElem?_slots {i : Nat} (inside : i < t.count) : t.packets[i]? = t.slots[i]? := by
  unfold slots
  rw [List.getElem?_take_of_lt inside]

theorem Sound.split (sound : t.Sound) {i : Nat} (inside : i < t.count) :
    ∃ before p after, t.slots = before ++ p::after ∧ before.length = i ∧ t.packets[i]? = some p := by
  have bound : i < t.slots.length := sound.length_slots.symm ▸ inside
  refine ⟨t.slots.take i,t.slots[i],t.slots.drop (i+1),?_,by simp; omega,?_⟩
  · rw [← List.drop_eq_getElem_cons bound,List.take_append_drop]
  · rw [getElem?_slots inside,List.getElem?_eq_getElem bound]

theorem slots_setSlot {before after : List (SentPacket Frame)} {p : SentPacket Frame} (slots : t.slots = before ++ p::after)
    (x : SentPacket Frame) : (t.setSlot before.length x).slots = before ++ x::after := by
  change (t.packets.set before.length x).take t.count = _
  rw [List.take_set]
  change t.slots.set before.length x = _
  rw [slots]
  simp

/-- A live packet becomes a tombstone: the counters follow, and none goes below zero. -/
theorem Sound.bury (sound : t.Sound) {before after : List (SentPacket Frame)} {p : SentPacket Frame}
    (slots : t.slots = before ++ p::after) (living : p.alive = true) :
    ∃ bytes ack, (∀ u : SentPacketTracker Frame, u.bytesInFlight = t.bytesInFlight →
        u.ackElicitingInFlight = t.ackElicitingInFlight →
          u.subInFlight p = some {u with bytesInFlight := bytes,ackElicitingInFlight := ack}) ∧
      bytes+(if p.inFlight then p.bytes else 0) = t.bytesInFlight ∧
      ack+(if p.inFlight && p.ackEliciting then p.bytes else 0) = t.ackElicitingInFlight ∧
      ∀ u : SentPacketTracker Frame, u = {t.setSlot before.length (tombstone p.pn) with
        deadCount := t.deadCount+1,bytesInFlight := bytes,ackElicitingInFlight := ack} →
        u.Sound ∧ u.live = before.filter SentPacket.alive ++ after.filter SentPacket.alive := by
  have alive : t.live = before.filter SentPacket.alive ++ p::after.filter SentPacket.alive := by
    unfold live
    rw [slots,List.filter_append,List.filter_cons_of_pos living]
  have bytes := sound.bytes
  have ack := sound.ackEliciting
  rw [alive] at bytes ack
  simp only [inFlightBytes_append,inFlightBytes_cons,ackElicitingBytes_append,ackElicitingBytes_cons] at bytes ack
  refine ⟨t.bytesInFlight-(if p.inFlight then p.bytes else 0),
    t.ackElicitingInFlight-(if p.inFlight && p.ackEliciting then p.bytes else 0),?_,by omega,by omega,?_⟩
  · intro u sameBytes sameAck
    unfold subInFlight checkedSub
    rw [sameBytes,sameAck]
    cases flying : p.inFlight with
    | false =>
      have still : u = {u with bytesInFlight := t.bytesInFlight,ackElicitingInFlight := t.ackElicitingInFlight} := by
        rw [← sameBytes,← sameAck]
      exact congrArg some still
    | true =>
      rw [flying] at bytes ack
      have most : p.bytes ≤ t.bytesInFlight := by
        rw [bytes,if_pos rfl]
        omega
      cases eliciting : p.ackEliciting with
      | false => simp [most]
      | true =>
        rw [eliciting] at ack
        have most' : p.bytes ≤ t.ackElicitingInFlight := by
          rw [ack]
          simp
          omega
        simp [most,most']
  · rintro u rfl
    have slots' := slots_setSlot slots (tombstone p.pn)
    have alive' : (t.setSlot before.length (tombstone p.pn)).live =
        before.filter SentPacket.alive ++ after.filter SentPacket.alive := by
      unfold live
      rw [slots',List.filter_append,List.filter_cons_of_neg (by simp)]
    refine ⟨⟨?_,?_,?_,?_,?_,?_⟩,alive'⟩
    · change t.count ≤ (t.packets.set _ _).length
      rw [List.length_set]
      exact sound.within
    · change t.maxCapacity = 0 ∨ (0 < (t.packets.set _ _).length ∧ (t.packets.set _ _).length ≤ t.maxCapacity)
      rw [List.length_set]
      exact sound.room
    · have ascending := sound.ascending
      rw [slots] at ascending
      change ((t.setSlot before.length (tombstone p.pn)).slots.map (·.pn)).Pairwise (· < ·)
      rw [slots']
      simpa using ascending
    · have counted := sound.counted
      rw [alive] at counted
      change t.deadCount+1+(t.setSlot before.length (tombstone p.pn)).live.length = t.count
      rw [alive']
      simp only [List.length_append,List.length_cons] at counted ⊢
      omega
    · change t.bytesInFlight-_ = inFlightBytes (t.setSlot before.length (tombstone p.pn)).live
      rw [alive',inFlightBytes_append,bytes]
      omega
    · change t.ackElicitingInFlight-_ = ackElicitingBytes (t.setSlot before.length (tombstone p.pn)).live
      rw [alive',ackElicitingBytes_append,ack]
      omega

/-- The operations that leave the slots that are in use alone. -/
structure Same (t u : SentPacketTracker Frame) : Prop where
  slots : u.slots = t.slots
  count : u.count = t.count
  deadCount : u.deadCount = t.deadCount
  bytes : u.bytesInFlight = t.bytesInFlight
  ack : u.ackElicitingInFlight = t.ackElicitingInFlight

theorem Same.sound {u : SentPacketTracker Frame} (same : Same t u) (sound : t.Sound) (within : u.count ≤ u.packets.length)
    (room : u.maxCapacity = 0 ∨ (0 < u.packets.length ∧ u.packets.length ≤ u.maxCapacity)) : u.Sound := by
  have live : u.live = t.live := by
    unfold SentPacketTracker.live
    rw [same.slots]
  refine ⟨within,room,?_,?_,?_,?_⟩
  · rw [same.slots]
    exact sound.ascending
  · rw [same.deadCount,same.count,live]
    exact sound.counted
  · rw [same.bytes,live]
    exact sound.bytes
  · rw [same.ack,live]
    exact sound.ackEliciting

theorem length_realloc (t : SentPacketTracker Frame) (size : Nat) : (t.realloc size).packets.length = size := by
  change (t.packets.take size ++ List.replicate (size-t.packets.length) undefined).length = size
  rw [List.length_append,List.length_take,List.length_replicate]
  omega

theorem Sound.realloc (sound : t.Sound) {size : Nat} (fits : t.count ≤ size) : Same t (t.realloc size) := by
  refine ⟨?_,rfl,rfl,rfl,rfl⟩
  change (t.packets.take size ++ List.replicate (size-t.packets.length) undefined).take t.count = t.packets.take t.count
  have within := sound.within
  rw [List.take_append_of_le_length (by rw [List.length_take]; omega),List.take_take,min_eq_left fits]

/-- Nothing is left. -/
structure Cleared (t u : SentPacketTracker Frame) : Prop where
  sound : u.Sound
  live : u.live = []
  slots : u.slots = []
  capacity : t.maxCapacity ≠ 0 → u.capacity = t.capacity

theorem Sound.reset (sound : t.Sound) : Cleared t t.resetRetainingCapacity :=
  ⟨⟨Nat.zero_le _,sound.room,.nil,rfl,rfl,rfl⟩,rfl,rfl,fun _ => rfl⟩

theorem Sound.shrunk (sound : t.Sound) {size : Nat} (some : 0 < size) (less : size ≤ t.packets.length) :
    Cleared t (t.resetRetainingCapacity.realloc size) := by
  obtain ⟨reset,_,_,_⟩ := sound.reset
  have length := length_realloc t.resetRetainingCapacity size
  have room : t.maxCapacity = 0 ∨ (0 < (t.resetRetainingCapacity.realloc size).packets.length ∧
      (t.resetRetainingCapacity.realloc size).packets.length ≤ t.maxCapacity) := by
    rw [length]
    exact sound.room.imp id fun both => ⟨some,less.trans both.2⟩
  refine ⟨(reset.realloc (Nat.zero_le size)).sound reset (Nat.zero_le _) room,rfl,rfl,fun own => ?_⟩
  unfold SentPacketTracker.capacity
  exact (if_neg own).trans (if_neg own).symm

theorem Sound.shrinkIdle (sound : t.Sound) (granted : Bool) :
    t.shrinkIdle granted = t ∨ (t.live = [] ∧ Cleared t (t.shrinkIdle granted)) := by
  unfold SentPacketTracker.shrinkIdle
  split
  · exact .inl rfl
  split
  · exact .inl rfl
  · rename_i idle
    push Not at idle
    have sixteen : initialSlots = 16 := rfl
    have above : shrinkAbove = 64 := rfl
    refine .inr ⟨List.eq_nil_of_length_eq_zero (sound.liveCount.symm.trans idle.1),?_⟩
    cases granted with
    | false => exact sound.reset
    | true => exact sound.shrunk (by omega) (by omega)

theorem Sound.shrinkToMinimum (sound : t.Sound) (none : t.live = []) (granted : Bool) :
    ∃ u, t.shrinkToMinimum granted = some u ∧ Cleared t u := by
  have zero : t.liveCount = 0 := by
    rw [sound.liveCount,none]
    rfl
  unfold SentPacketTracker.shrinkToMinimum
  rw [if_neg (not_not.mpr zero)]
  split
  · exact ⟨_,rfl,sound.reset⟩
  · cases granted with
    | false => exact ⟨_,rfl,sound.reset⟩
    | true => exact ⟨_,rfl,sound.shrunk (by omega) (by omega)⟩

theorem Sound.compact (sound : t.Sound) : t.compact.Sound ∧ t.compact.live = t.live ∧ t.compact.count = t.live.length ∧
    t.compact.packets.length = t.packets.length ∧ t.compact.maxCapacity = t.maxCapacity ∧
    t.compact.slots.Sublist t.slots := by
  have counted := sound.counted
  unfold SentPacketTracker.compact
  split
  · exact ⟨sound,rfl,by omega,rfl,rfl,.refl _⟩
  · dsimp only
    have within := sound.within
    have length := @Sweep.length_sweep _ SentPacket.alive t.packets t.count 0 0
    have last := @Sweep.sweep_end _ SentPacket.alive t.packets t.count 0 0
    have kept := @Sweep.sweep_spec _ SentPacket.alive t.packets t.count 0 0 le_rfl (by omega)
    generalize Sweep.sweep SentPacket.alive t.packets t.count 0 0 = outcome at length last kept ⊢
    obtain ⟨packets,w⟩ := outcome
    dsimp only at length last kept ⊢
    rw [List.take_zero,List.nil_append,List.drop_zero] at kept
    have kept' : packets.take w = t.live := kept
    have size : w = t.live.length := by
      rw [← kept',List.length_take]
      omega
    have all : t.live.filter SentPacket.alive = t.live := by
      unfold SentPacketTracker.live
      rw [List.filter_filter]
      simp
    have fewer : (packets.take w).Sublist t.slots := kept'.symm ▸ List.filter_sublist
    have again : (packets.take w).filter SentPacket.alive = t.live := by rw [kept',all]
    have bytes := sound.bytes
    have ack := sound.ackEliciting
    refine ⟨⟨?_,?_,?_,?_,?_,?_⟩,again,size,length,rfl,fewer⟩
    · change w ≤ packets.length
      omega
    · change t.maxCapacity = 0 ∨ (0 < packets.length ∧ packets.length ≤ t.maxCapacity)
      rw [length]
      exact sound.room
    · exact sound.ascending.sublist (fewer.map _)
    · change 0+((packets.take w).filter SentPacket.alive).length = w
      rw [again,size,Nat.zero_add]
    · exact bytes.trans (congrArg _ again.symm)
    · exact ack.trans (congrArg _ again.symm)

theorem Sound.live_le (sound : t.Sound) : t.live.length ≤ t.count := by
  have counted := sound.counted
  omega

theorem Sound.isFull (sound : t.Sound) : t.isFull = decide (t.live.length = t.capacity) := by
  have most := sound.live_le.trans (sound.within.trans sound.length_le)
  unfold SentPacketTracker.isFull
  rw [sound.liveCount,decide_eq_decide]
  omega

/-- What an operation keeps that only makes room. -/
structure Kept (t u : SentPacketTracker Frame) : Prop where
  sound : u.Sound
  live : u.live = t.live
  capacity : u.capacity = t.capacity
  slots : u.slots.Sublist t.slots

theorem Kept.refl (sound : t.Sound) : Kept t t := ⟨sound,rfl,rfl,.refl _⟩

/-- Whether one packet more is taken: `stored` says that there is a slot for it, or memory for one. -/
def admission (capacity : Nat) (stored : Bool) (n : Nat) : Except Error Unit :=
  if n = capacity then .error .tooManyInFlight
  else if stored then .ok ()
  else .error .outOfMemory

def stored (granted : Bool) (t : SentPacketTracker Frame) : Bool := t.live.length < t.packets.length || granted

theorem Kept.compacted (sound : t.Sound) : Kept t t.compact := by
  obtain ⟨sound',live,_,length,own,slots⟩ := sound.compact
  refine ⟨sound',live,?_,slots⟩
  unfold SentPacketTracker.capacity
  rw [own,length]

theorem Sound.grow (sound : t.Sound) (short : t.packets.length < t.capacity) (full : t.count = t.packets.length) (granted : Bool) :
    ∃ u, t.grow granted = some (if granted then .ok () else .error .outOfMemory,u) ∧ Kept t u ∧
      (granted = true → u.count < u.packets.length) := by
  have own : t.maxCapacity ≠ 0 := by
    intro none
    unfold SentPacketTracker.capacity at short
    rw [if_pos none] at short
    exact lt_irrefl _ short
  obtain ⟨some,_⟩ := sound.room.resolve_left own
  have same : t.capacity = t.maxCapacity := if_neg own
  unfold SentPacketTracker.grow
  rw [if_pos short]
  cases granted with
  | false => exact ⟨t,rfl,.refl sound,fun absurd => by cases absurd⟩
  | true =>
    have length := length_realloc t (min (t.packets.length*2) t.capacity)
    have still := @Sound.realloc _ _ sound (min (t.packets.length*2) t.capacity) (by omega)
    refine ⟨_,rfl,⟨still.sound sound ?_ (.inr ?_),?_,?_,?_⟩,fun _ => ?_⟩
    · rw [length]
      change t.count ≤ _
      omega
    · rw [length]
      change 0 < _ ∧ _ ≤ t.maxCapacity
      omega
    · unfold SentPacketTracker.live
      rw [still.slots]
    · unfold SentPacketTracker.capacity
      exact (if_neg own).trans (if_neg own).symm
    · rw [still.slots]
    · rw [length]
      change t.count < _
      omega

theorem Sound.prepareRecord (sound : t.Sound) (granted : Bool) :
    ∃ u, t.prepareRecord granted = some (admission t.capacity (t.stored granted) t.live.length,u) ∧ Kept t u ∧
      (admission t.capacity (t.stored granted) t.live.length = .ok () → u.count < u.packets.length) := by
  have most := sound.live_le.trans sound.within
  have capped := sound.length_le
  unfold SentPacketTracker.prepareRecord admission
  rw [sound.isFull]
  by_cases full : t.live.length = t.capacity
  · rw [if_pos full,if_pos (by simpa using full)]
    exact ⟨t,rfl,.refl sound,fun absurd => by cases absurd⟩
  rw [if_neg full,if_neg (by simpa using full)]
  have swept : ∃ u : SentPacketTracker Frame, u = (if t.count ≥ t.packets.length ∨ t.deadCount ≥ t.compactThreshold then t.compact else t) ∧
      Kept t u ∧ u.packets.length = t.packets.length ∧ (u.count ≥ u.packets.length ↔ ¬ t.live.length < t.packets.length) := by
    refine ⟨_,rfl,?_⟩
    obtain ⟨_,_,count,length,_,_⟩ := sound.compact
    split
    · exact ⟨.compacted sound,length,by omega⟩
    · rename_i idle
      push Not at idle
      have less := sound.live_le
      exact ⟨.refl sound,rfl,by omega⟩
  obtain ⟨u,step,kept,length,short⟩ := swept
  dsimp only
  rw [← step]
  unfold stored
  by_cases room : t.live.length < t.packets.length
  · rw [if_neg (by rw [short]; exact not_not.mpr room),if_pos (by simp [room])]
    exact ⟨u,rfl,kept,fun _ => not_le.mp fun full => (short.mp full) room⟩
  · have must : u.count ≥ u.packets.length := short.mpr room
    have exact' : u.count = u.packets.length := le_antisymm kept.sound.within must
    rw [if_pos must]
    have short' : u.packets.length < u.capacity := by
      rw [kept.capacity]
      omega
    obtain ⟨w,grown,kept',slot⟩ := kept.sound.grow short' exact' granted
    rw [grown]
    have same : (decide (t.live.length < t.packets.length) || granted) = granted := by simp [room]
    rw [same]
    refine ⟨w,rfl,⟨kept'.sound,kept'.live.trans kept.live,kept'.capacity.trans kept.capacity,kept'.slots.trans kept.slots⟩,?_⟩
    intro ok
    refine slot ?_
    cases granted with
    | true => rfl
    | false => cases ok

theorem addInFlight_fields (u : SentPacketTracker Frame) (p : SentPacket Frame) : u.addInFlight p = {u with
    bytesInFlight := u.bytesInFlight+(if p.inFlight then p.bytes else 0)
    ackElicitingInFlight := u.ackElicitingInFlight+(if p.inFlight && p.ackEliciting then p.bytes else 0)} := by
  unfold addInFlight
  cases p.inFlight with
  | false => rfl
  | true => cases p.ackEliciting <;> rfl

theorem Sound.append (sound : t.Sound) {p : SentPacket Frame} (room : t.count < t.packets.length) (living : p.alive = true)
    (above : ∀ q ∈ t.slots, q.pn < p.pn) : ∃ u, u = {t.setSlot t.count p with count := t.count+1}.addInFlight p ∧
      u.Sound ∧ u.slots = t.slots ++ [p] ∧ u.live = t.live ++ [p] ∧ u.capacity = t.capacity := by
  refine ⟨_,rfl,?_⟩
  have fields := addInFlight_fields {t.setSlot t.count p with count := t.count+1} p
  generalize {t.setSlot t.count p with count := t.count+1}.addInFlight p = u at fields ⊢
  have packets : u.packets = t.packets.set t.count p := by rw [fields]; rfl
  have count : u.count = t.count+1 := by rw [fields]
  have deadCount : u.deadCount = t.deadCount := by rw [fields]; rfl
  have own : u.maxCapacity = t.maxCapacity := by rw [fields]; rfl
  have bytes : u.bytesInFlight = t.bytesInFlight+(if p.inFlight then p.bytes else 0) := by rw [fields]; rfl
  have ack : u.ackElicitingInFlight = t.ackElicitingInFlight+(if p.inFlight && p.ackEliciting then p.bytes else 0) := by
    rw [fields]
    rfl
  have length : u.packets.length = t.packets.length := by
    rw [packets]
    exact List.length_set
  have slots : u.slots = t.slots ++ [p] := by
    unfold SentPacketTracker.slots
    rw [packets,count]
    rw [List.take_succ_eq_append_getElem (by simpa using room),List.take_set_of_le le_rfl]
    simp
  have live : u.live = t.live ++ [p] := by
    unfold SentPacketTracker.live
    rw [slots,List.filter_append,List.filter_cons_of_pos living]
    rfl
  refine ⟨⟨?_,?_,?_,?_,?_,?_⟩,slots,live,?_⟩
  · rw [length,count]
    exact room
  · rw [own,length]
    exact sound.room
  · rw [slots,List.map_append]
    refine List.pairwise_append.mpr ⟨sound.ascending,List.pairwise_singleton _ _,fun a old b last => ?_⟩
    obtain ⟨q,there,rfl⟩ := List.mem_map.mp old
    rw [List.mem_singleton.mp last]
    exact above q there
  · have counted := sound.counted
    rw [deadCount,count,live,List.length_append]
    change t.deadCount+(t.live.length+1) = t.count+1
    omega
  · rw [bytes,live,inFlightBytes_append,inFlightBytes_cons,inFlightBytes_nil,Nat.add_zero]
    exact congrArg (· + _) sound.bytes
  · rw [ack,live,ackElicitingBytes_append,ackElicitingBytes_cons,ackElicitingBytes_nil,Nat.add_zero]
    exact congrArg (· + _) sound.ackEliciting
  · unfold SentPacketTracker.capacity
    rw [own,length]

theorem Sound.record (sound : t.Sound) {p : SentPacket Frame} (living : p.alive = true) (above : ∀ q ∈ t.slots, q.pn < p.pn)
    (granted : Bool) : ∃ u, t.record granted p = some (admission t.capacity (t.stored granted) t.live.length,u) ∧ u.Sound ∧
      u.capacity = t.capacity ∧
      match admission t.capacity (t.stored granted) t.live.length with
      | .ok () => u.live = t.live ++ [p] ∧ ∀ q ∈ u.slots, q.pn ≤ p.pn
      | .error _ => u.live = t.live ∧ u.slots.Sublist t.slots := by
  obtain ⟨u,prepared,kept,room⟩ := sound.prepareRecord granted
  unfold SentPacketTracker.record
  rw [prepared]
  generalize admission t.capacity (t.stored granted) t.live.length = answer at room ⊢
  cases answer with
  | error e => exact ⟨u,rfl,kept.sound,kept.capacity,kept.live,kept.slots⟩
  | ok _ =>
    have room := room rfl
    have above' : ∀ q ∈ u.slots, q.pn < p.pn := fun q there => above q (kept.slots.subset there)
    obtain ⟨w,step,sound',slots,live,capacity⟩ := kept.sound.append room living above'
    have goes : (if u.count ≥ u.packets.length then none
        else some (Except.ok (),{u.setSlot u.count p with count := u.count+1}.addInFlight p) : Option (Except Error Unit × _)) =
        some (.ok (),w) := by
      rw [if_neg (not_le.mpr room),step]
    refine ⟨w,?_,sound',capacity.trans kept.capacity,by rw [live,kept.live],fun q there => ?_⟩
    · by_cases first : u.count > 0
      · obtain ⟨before,last,after,split,_,at'⟩ := kept.sound.split (show u.count-1 < u.count by omega)
        have less := above' last (by rw [split]; simp)
        simp only [bind,Option.bind,first,if_true,at',if_neg (not_le.mpr less)]
        exact goes
      · simp only [bind,Option.bind,first,if_false]
        exact goes
    · rw [slots] at there
      rcases List.mem_append.mp there with old | last
      · exact (above' q old).le
      · rw [List.mem_singleton.mp last]

theorem rank_split {before rest : List (SentPacket Frame)} (slots : t.slots = before ++ rest) :
    t.rank before.length = (before.filter SentPacket.alive).length := by
  unfold rank
  rw [slots,List.take_left]

theorem pns_setSlot {before after : List (SentPacket Frame)} {p x : SentPacket Frame} (slots : t.slots = before ++ p::after)
    (same : x.pn = p.pn) : (t.setSlot before.length x).slots.map (·.pn) = t.slots.map (·.pn) := by
  rw [slots_setSlot slots,slots]
  simp [same]

/-- What an operation leaves of the storage that writes to slots in use. -/
structure Shape (t u : SentPacketTracker Frame) : Prop where
  length : u.packets.length = t.packets.length
  count : u.count = t.count
  own : u.maxCapacity = t.maxCapacity
  pns : u.slots.map (·.pn) = t.slots.map (·.pn)

theorem Shape.refl (t : SentPacketTracker Frame) : Shape t t := ⟨rfl,rfl,rfl,rfl⟩

theorem Shape.trans {a b c : SentPacketTracker Frame} (first : Shape a b) (second : Shape b c) : Shape a c :=
  ⟨second.length.trans first.length,second.count.trans first.count,second.own.trans first.own,second.pns.trans first.pns⟩

theorem Shape.capacity {u : SentPacketTracker Frame} (shape : Shape t u) : u.capacity = t.capacity := by
  unfold SentPacketTracker.capacity
  rw [shape.own,shape.length]

theorem Shape.kept {u : SentPacketTracker Frame} (shape : Shape t u) {p : SentPacket Frame} (there : p ∈ u.slots) :
    ∃ q ∈ t.slots, q.pn = p.pn := by
  have member : p.pn ∈ u.slots.map (·.pn) := List.mem_map_of_mem there
  rw [shape.pns] at member
  exact List.mem_map.mp member

theorem shape_setSlot {before after : List (SentPacket Frame)} {p x : SentPacket Frame} (slots : t.slots = before ++ p::after)
    (same : x.pn = p.pn) : Shape t (t.setSlot before.length x) :=
  ⟨List.length_set,rfl,rfl,pns_setSlot slots same⟩

theorem Sound.removeAt (sound : t.Sound) {idx : Nat} {p : SentPacket Frame} (slot : t.slots[idx]? = some p)
    (living : p.alive = true) : ∃ u, t.removeAt idx = some (p,u) ∧ u.Sound ∧ Shape t u ∧ t.live[t.rank idx]? = some p ∧
      u.live = t.live.eraseIdx (t.rank idx) := by
  have inside : idx < t.count := by
    have bound := (List.getElem?_eq_some_iff.mp slot).1
    rwa [sound.length_slots] at bound
  obtain ⟨before,q,after,slots,rfl,found⟩ := sound.split inside
  have same : q = p := by
    rw [getElem?_slots inside,slot] at found
    exact (Option.some.inj found).symm
  subst same
  obtain ⟨bytes,ack,less,_,_,buried⟩ := sound.bury slots living
  obtain ⟨sound',live⟩ := buried _ rfl
  have alive : t.live = before.filter SentPacket.alive ++ q::after.filter SentPacket.alive := by
    unfold SentPacketTracker.live
    rw [slots,List.filter_append,List.filter_cons_of_pos living]
  have taken := less {t.setSlot before.length (tombstone q.pn) with deadCount := t.deadCount+1} rfl rfl
  unfold SentPacketTracker.removeAt
  have undead : q.dead = false := by simpa [SentPacket.alive] using living
  refine ⟨_,?_,sound',?_,?_,?_⟩
  rotate_left
  · obtain ⟨length,count,own,pns⟩ := @shape_setSlot _ _ _ _ _ (tombstone q.pn) slots rfl
    exact ⟨length,count,own,pns⟩
  · rw [rank_split slots,alive,List.getElem?_append_right le_rfl,Nat.sub_self]
    rfl
  · rw [live,rank_split slots,alive,List.eraseIdx_append_of_length_le le_rfl,Nat.sub_self]
    rfl
  · simp only [bind,Option.bind,if_neg (not_le.mpr inside),found,undead,taken]
    rfl

/-- A list of packets is handed to a callback one by one, until it fails. What was handed over is gone. -/
def hand {γ ε : Type} (onRemove : γ → SentPacket Frame → Except ε Unit × γ) : γ → List (SentPacket Frame) →
    Except ε Unit × γ × List (SentPacket Frame)
  | context,[] => (.ok (),context,[])
  | context,p::rest =>
    match onRemove context p with
    | (.error e,context) => (.error e,context,rest)
    | (.ok (),context) => hand onRemove context rest

theorem Sound.removeLoop {γ ε : Type} (onRemove : γ → SentPacket Frame → Except ε Unit × γ) {middle : List (SentPacket Frame)}
    {before after : List (SentPacket Frame)} (context : γ) (sound : t.Sound) (slots : t.slots = before ++ middle ++ after) :
    ∃ u middle', SentPacketTracker.removeLoop onRemove middle.length before.length context t =
        some ((hand onRemove context (middle.filter SentPacket.alive)).1,
          (hand onRemove context (middle.filter SentPacket.alive)).2.1,u) ∧ u.Sound ∧ Shape t u ∧
      u.slots = before ++ middle' ++ after ∧
      middle'.filter SentPacket.alive = (hand onRemove context (middle.filter SentPacket.alive)).2.2 := by
  induction middle generalizing t before context with
  | nil => exact ⟨t,[],rfl,sound,.refl t,slots,rfl⟩
  | cons p rest ih =>
    have split : t.slots = before ++ p::(rest ++ after) := by
      rw [slots]
      simp
    have inside : before.length < t.count := by
      rw [← sound.length_slots,split]
      simp
    have found : t.packets[before.length]? = some p := by
      rw [getElem?_slots inside,split]
      simp
    unfold SentPacketTracker.removeLoop
    cases dead : p.dead with
    | true =>
      have gone : p.alive = false := by simp [SentPacket.alive,dead]
      obtain ⟨u,middle',walked,sound',shape,slots',live⟩ := @ih t (before ++ [p]) context sound (by rw [split]; simp)
      rw [List.length_append] at walked
      rw [List.filter_cons_of_neg (by simp [gone])]
      refine ⟨u,p::middle',?_,sound',shape,by rw [slots']; simp,?_⟩
      · simp only [List.length_cons,bind,Option.bind,found,dead,if_true]
        exact walked
      · rw [List.filter_cons_of_neg (by simp [gone])]
        exact live
    | false =>
      have living : p.alive = true := by simp [SentPacket.alive,dead]
      obtain ⟨bytes,ack,less,_,_,buried⟩ := sound.bury split living
      have taken := less t rfl rfl
      rw [List.filter_cons_of_pos living]
      unfold hand
      rcases called : onRemove context p with ⟨result,context'⟩
      let mid : SentPacketTracker Frame := {t.setSlot before.length (tombstone p.pn) with
        deadCount := t.deadCount+1
        bytesInFlight := bytes
        ackElicitingInFlight := ack}
      obtain ⟨sound',_⟩ := buried mid rfl
      have stone : mid.slots = before ++ tombstone p.pn::(rest ++ after) := slots_setSlot split _
      have shape : Shape t mid := by
        obtain ⟨length,count,own,pns⟩ := @shape_setSlot _ _ _ _ _ (tombstone p.pn) split rfl
        exact ⟨length,count,own,pns⟩
      cases result with
      | error e =>
        refine ⟨mid,tombstone p.pn::rest,?_,sound',shape,by rw [stone]; simp,?_⟩
        · simp only [List.length_cons,bind,Option.bind,found,dead,taken,called]
          rfl
        · rw [List.filter_cons_of_neg (by simp)]
      | ok _ =>
        obtain ⟨u,middle',walked,sound'',shape',slots',live⟩ := @ih mid (before ++ [tombstone p.pn]) context' sound'
          (by rw [stone]; simp)
        rw [List.length_append] at walked
        refine ⟨u,tombstone p.pn::middle',?_,sound'',shape.trans shape',by rw [slots']; simp,?_⟩
        · simp only [List.length_cons,bind,Option.bind,found,dead,taken,called]
          exact walked
        · rw [List.filter_cons_of_neg (by simp)]
          exact live

theorem Sound.removeRange {γ ε : Type} (onRemove : γ → SentPacket Frame → Except ε Unit × γ) (context : γ) (sound : t.Sound)
    {start stop : Nat} (ordered : start ≤ stop) (inside : stop ≤ t.count) :
    ∃ u, t.removeRangeWithError onRemove context start stop =
        some ((hand onRemove context ((t.live.take (t.rank stop)).drop (t.rank start))).1,
          (hand onRemove context ((t.live.take (t.rank stop)).drop (t.rank start))).2.1,u) ∧ u.Sound ∧ Shape t u ∧
      u.live = t.live.take (t.rank start) ++ (hand onRemove context ((t.live.take (t.rank stop)).drop (t.rank start))).2.2 ++
        t.live.drop (t.rank stop) := by
  have length := sound.length_slots
  let before := t.slots.take start
  let middle := (t.slots.drop start).take (stop-start)
  let after := t.slots.drop stop
  have slots : t.slots = before ++ middle ++ after := by
    have tail : (t.slots.drop start).drop (stop-start) = t.slots.drop stop := by
      rw [List.drop_drop]
      congr 1
      omega
    change t.slots = t.slots.take start ++ (t.slots.drop start).take (stop-start) ++ t.slots.drop stop
    rw [← tail,List.append_assoc,List.take_append_drop,List.take_append_drop]
  have size : before.length = start := by
    change (t.slots.take start).length = start
    rw [List.length_take]
    omega
  have size' : middle.length = stop-start := by
    change ((t.slots.drop start).take (stop-start)).length = _
    rw [List.length_take,List.length_drop]
    omega
  have first : t.rank start = (before.filter SentPacket.alive).length := rfl
  have last : t.rank stop = (before.filter SentPacket.alive).length+(middle.filter SentPacket.alive).length := by
    have both : t.slots.take stop = before ++ middle := by
      rw [slots,List.take_append_of_le_length (by rw [List.length_append]; omega),List.take_of_length_le]
      rw [List.length_append]
      omega
    unfold rank
    rw [both,List.filter_append,List.length_append]
  have live : t.live = before.filter SentPacket.alive ++ middle.filter SentPacket.alive ++ after.filter SentPacket.alive := by
    unfold SentPacketTracker.live
    rw [slots,List.filter_append,List.filter_append]
  have front : t.live.take (t.rank start) = before.filter SentPacket.alive := by
    rw [live,first,List.append_assoc,List.take_left]
  have cut : (t.live.take (t.rank stop)).drop (t.rank start) = middle.filter SentPacket.alive := by
    rw [live,first,last,List.take_left' (by rw [List.length_append]),List.drop_left]
  have back : t.live.drop (t.rank stop) = after.filter SentPacket.alive := by
    rw [live,last,List.drop_left' (by rw [List.length_append])]
  rw [front,cut,back]
  obtain ⟨u,middle',walked,sound',shape,slots',handed⟩ := sound.removeLoop onRemove context slots
  refine ⟨u,?_,sound',shape,?_⟩
  · unfold SentPacketTracker.removeRangeWithError
    rw [if_pos ⟨ordered,inside⟩,← size',← size]
    exact walked
  · unfold SentPacketTracker.live
    rw [slots',List.filter_append,List.filter_append,handed]

theorem Sound.pnAt (sound : t.Sound) {i : Nat} {p : SentPacket Frame} (slot : t.slots[i]? = some p) : t.pnAt i = p.pn := by
  have inside : i < t.count := by
    have bound := (List.getElem?_eq_some_iff.mp slot).1
    rwa [sound.length_slots] at bound
  unfold SentPacketTracker.pnAt
  rw [getElem?_slots inside,slot]
  rfl

theorem Sound.pn_lt (sound : t.Sound) {i j : Nat} (before : i < j) (inside : j < t.count) : t.pnAt i < t.pnAt j := by
  have length := sound.length_slots
  have ascending := List.pairwise_iff_getElem.mp sound.ascending i j (by simp; omega) (by simp; omega) before
  rw [List.getElem_map,List.getElem_map] at ascending
  rw [sound.pnAt (List.getElem?_eq_getElem (by omega)),sound.pnAt (List.getElem?_eq_getElem (by omega))]
  exact ascending

theorem Sound.unique (sound : t.Sound) {i j : Nat} (inside : i < t.count) (inside' : j < t.count) (same : t.pnAt i = t.pnAt j) :
    i = j := by
  by_contra apart
  rcases Nat.lt_or_gt_of_ne apart with before | after
  · exact absurd same (sound.pn_lt before inside').ne
  · exact absurd same (sound.pn_lt after inside).ne'

theorem Sound.indexOf_iff (sound : t.Sound) (pn i : Nat) : t.indexOf pn = some i ↔ i < t.count ∧ t.pnAt i = pn := by
  have sound' : ∀ k, t.indexOf pn = some k → k < t.count ∧ t.pnAt k = pn := by
    intro k found
    obtain ⟨_,inside,equal⟩ := Search.find_some _ _ _ _ _ found
    exact ⟨inside,compare_eq_iff_eq.mp equal⟩
  refine ⟨sound' i,fun ⟨inside,named⟩ => ?_⟩
  cases found : t.indexOf pn with
  | some k =>
    obtain ⟨inside',named'⟩ := sound' k found
    rw [sound.unique inside' inside (named'.trans named.symm)]
  | none =>
    refine absurd (compare_eq_iff_eq.mpr named) (Search.find_none _ _ _ _ (by omega) ?_ found i (Nat.zero_le i) inside)
    intro a b before bound notLess
    have less := sound.pn_lt before bound
    have reached : pn ≤ t.pnAt a := by
      by_contra short
      exact notLess (compare_lt_iff_lt.mpr (not_le.mp short))
    exact compare_gt_iff_gt.mpr (reached.trans_lt less)

theorem Sound.indexOf_live (sound : t.Sound) (pn : Nat) (p : SentPacket Frame) :
    (∃ i, t.indexOf pn = some i ∧ t.slots[i]? = some p ∧ p.alive = true) ↔ p ∈ t.live ∧ p.pn = pn := by
  constructor
  · rintro ⟨i,found,slot,living⟩
    refine ⟨List.mem_filter.mpr ⟨List.mem_of_getElem? slot,living⟩,?_⟩
    rw [← sound.pnAt slot]
    exact ((sound.indexOf_iff pn i).mp found).2
  · rintro ⟨there,named⟩
    obtain ⟨member,living⟩ := List.mem_filter.mp there
    obtain ⟨i,slot⟩ := List.getElem?_of_mem member
    have inside : i < t.count := by
      have bound := (List.getElem?_eq_some_iff.mp slot).1
      rwa [sound.length_slots] at bound
    exact ⟨i,(sound.indexOf_iff pn i).mpr ⟨inside,(sound.pnAt slot).trans named⟩,slot,living⟩

/-- The first live packet from a slot on. -/
def skipTombstones (t : SentPacketTracker Frame) (start : Nat) : Option (SentPacket Frame) :=
  (t.slots.drop start).find? SentPacket.alive

theorem Sound.lowerBound (sound : t.Sound) (pn : Nat) :
    (t.lowerBound pn).bind t.skipTombstones = t.live.find? fun p => decide (pn ≤ p.pn) := by
  let below : Nat → Bool := fun i => decide (t.pnAt i < pn)
  have length := sound.length_slots
  obtain ⟨_,within⟩ := Search.lowerBound_range below t.count 0 t.count (Nat.zero_le _)
  obtain ⟨less,notLess⟩ := Search.lowerBound_split below t.count 0 t.count (by omega) (by
    intro i j ordered bound small
    rcases Nat.lt_or_eq_of_le ordered with before | rfl
    · have up := sound.pn_lt before bound
      simp only [below,decide_eq_true_eq] at small ⊢
      omega
    · exact small)
  have found : (t.lowerBound pn).bind t.skipTombstones =
      (t.slots.drop (Search.lowerBound below t.count 0 t.count)).find? SentPacket.alive := by
    unfold SentPacketTracker.lowerBound
    dsimp only
    split
    · rename_i past
      have past' : t.count ≤ Search.lowerBound below t.count 0 t.count := past
      rw [List.drop_of_length_le (by omega)]
      rfl
    · rfl
  rw [found]
  generalize Search.lowerBound below t.count 0 t.count = lo at less notLess within ⊢
  have front : ((t.slots.take lo).filter SentPacket.alive).find? (fun p => decide (pn ≤ p.pn)) = none := by
    rw [List.find?_eq_none]
    intro p there
    obtain ⟨i,at'⟩ := List.getElem?_of_mem (List.mem_filter.mp there).1
    have bound := (List.getElem?_eq_some_iff.mp at').1
    rw [List.length_take] at bound
    rw [List.getElem?_take_of_lt (by omega)] at at'
    have small := less i (Nat.zero_le i) (by omega)
    simp only [below,decide_eq_true_eq,sound.pnAt at'] at small
    simpa using small
  have back : ((t.slots.drop lo).filter SentPacket.alive).find? (fun p => decide (pn ≤ p.pn)) =
      (t.slots.drop lo).find? SentPacket.alive := by
    rw [List.find?_filter]
    refine List.find?_congr fun p there => ?_
    obtain ⟨i,at'⟩ := List.getElem?_of_mem there
    have bound := (List.getElem?_eq_some_iff.mp at').1
    rw [List.length_drop] at bound
    rw [List.getElem?_drop] at at'
    have large := notLess (lo+i) (by omega) (by omega)
    simp only [below,decide_eq_false_iff_not,sound.pnAt at',not_lt] at large
    simp [large]
  have live : t.live = (t.slots.take lo).filter SentPacket.alive ++ (t.slots.drop lo).filter SentPacket.alive := by
    unfold SentPacketTracker.live
    rw [← List.filter_append,List.take_append_drop]
  rw [live,List.find?_append,front,back]
  rfl

theorem Sound.lengthen (sound : t.Sound) {before after : List (SentPacket Frame)} {p : SentPacket Frame} (extra : Nat)
    (slots : t.slots = before ++ p::after) (living : p.alive = true) {bytes ack : Nat}
    (rest : bytes+(if p.inFlight then p.bytes else 0) = t.bytesInFlight)
    (rest' : ack+(if p.inFlight && p.ackEliciting then p.bytes else 0) = t.ackElicitingInFlight) :
    ∃ u, u = ({t with bytesInFlight := bytes,ackElicitingInFlight := ack}.setSlot before.length
        (p.lengthen extra)).addInFlight (p.lengthen extra) ∧ u.Sound ∧ Shape t u ∧
      u.live = before.filter SentPacket.alive ++ p.lengthen extra::after.filter SentPacket.alive := by
  refine ⟨_,rfl,?_⟩
  rw [addInFlight_fields]
  have shape := @shape_setSlot _ _ _ _ _ (p.lengthen extra) slots rfl
  have slots' := slots_setSlot slots (p.lengthen extra)
  have alive : t.live = before.filter SentPacket.alive ++ p::after.filter SentPacket.alive := by
    unfold SentPacketTracker.live
    rw [slots,List.filter_append,List.filter_cons_of_pos living]
  have alive' : (t.setSlot before.length (p.lengthen extra)).live =
      before.filter SentPacket.alive ++ p.lengthen extra::after.filter SentPacket.alive := by
    unfold SentPacketTracker.live
    have living' : (p.lengthen extra).alive = true := living
    rw [slots',List.filter_append,List.filter_cons_of_pos living']
  have counted := sound.counted
  have sum := sound.bytes
  have sum' := sound.ackEliciting
  rw [alive] at counted sum sum'
  simp only [inFlightBytes_append,inFlightBytes_cons,ackElicitingBytes_append,ackElicitingBytes_cons,List.length_append,
    List.length_cons] at counted sum sum'
  refine ⟨⟨?_,?_,?_,?_,?_,?_⟩,⟨shape.length,rfl,rfl,shape.pns⟩,alive'⟩
  · change t.count ≤ (t.setSlot before.length _).packets.length
    rw [shape.length]
    exact sound.within
  · change t.maxCapacity = 0 ∨ (0 < (t.setSlot before.length _).packets.length ∧
      (t.setSlot before.length _).packets.length ≤ t.maxCapacity)
    rw [shape.length]
    exact sound.room
  · change ((t.setSlot before.length _).slots.map (·.pn)).Pairwise (· < ·)
    rw [shape.pns]
    exact sound.ascending
  · change t.deadCount+(t.setSlot before.length _).live.length = t.count
    rw [alive',List.length_append,List.length_cons]
    omega
  · change bytes+_ = inFlightBytes (t.setSlot before.length _).live
    rw [alive',inFlightBytes_append,inFlightBytes_cons]
    change bytes+(if p.inFlight then p.bytes+extra else 0) = _+((if p.inFlight then p.bytes+extra else 0)+_)
    omega
  · change ack+_ = ackElicitingBytes (t.setSlot before.length _).live
    rw [alive',ackElicitingBytes_append,ackElicitingBytes_cons]
    change ack+(if p.inFlight && p.ackEliciting then p.bytes+extra else 0) =
      _+((if p.inFlight && p.ackEliciting then p.bytes+extra else 0)+_)
    omega

theorem Sound.growPacket (sound : t.Sound) (pn extra : Nat) : ∃ u, t.growPacket pn extra = some (t.live.any (·.pn = pn),u) ∧
    u.Sound ∧ Shape t u ∧ u.live = t.live.map fun p => if p.pn = pn then p.lengthen extra else p := by
  have other : ¬ (t.live.any (·.pn = pn)) = true → t.live.map (fun p => if p.pn = pn then p.lengthen extra else p) =
      t.live := by
    intro none
    rw [List.any_eq_true] at none
    refine (List.map_congr_left fun p there => if_neg fun named => none ⟨p,there,by simpa using named⟩).trans (List.map_id _)
  have missed : (¬ ∃ i p, t.indexOf pn = some i ∧ t.slots[i]? = some p ∧ p.alive = true) → t.live.any (·.pn = pn) = false := by
    intro none
    by_contra some
    rw [Bool.not_eq_false,List.any_eq_true] at some
    obtain ⟨p,there,named⟩ := some
    obtain ⟨i,rest⟩ := (sound.indexOf_live pn p).mpr ⟨there,by simpa using named⟩
    exact none ⟨i,p,rest⟩
  unfold SentPacketTracker.growPacket
  cases found : t.indexOf pn with
  | none =>
    have absent := missed (by rintro ⟨i,p,found',_⟩; rw [found] at found'; cases found')
    rw [other (by rw [absent]; exact Bool.false_ne_true),absent]
    exact ⟨t,rfl,sound,.refl t,rfl⟩
  | some i =>
    obtain ⟨inside,named⟩ := (sound.indexOf_iff pn i).mp found
    obtain ⟨before,p,after,slots,rfl,at'⟩ := sound.split inside
    have slot : t.slots[before.length]? = some p := (getElem?_slots inside).symm.trans at'
    have named' : p.pn = pn := (sound.pnAt slot).symm.trans named
    cases dead : p.dead with
    | true =>
      have absent := missed (by
        rintro ⟨j,q,found',slot',living⟩
        rw [found] at found'
        obtain rfl := Option.some.inj found'
        rw [slot] at slot'
        obtain rfl := Option.some.inj slot'
        simp [SentPacket.alive,dead] at living)
      rw [other (by rw [absent]; exact Bool.false_ne_true),absent]
      refine ⟨t,?_,sound,.refl t,rfl⟩
      simp only [bind,Option.bind,at',dead,if_true]
      rfl
    | false =>
      have living : p.alive = true := by simp [SentPacket.alive,dead]
      obtain ⟨bytes,ack,less,rest,rest',_⟩ := sound.bury slots living
      have less := less t rfl rfl
      obtain ⟨u,step,sound',shape,live⟩ := sound.lengthen extra slots living rest rest'
      have alive : t.live = before.filter SentPacket.alive ++ p::after.filter SentPacket.alive := by
        unfold SentPacketTracker.live
        rw [slots,List.filter_append,List.filter_cons_of_pos living]
      have there : t.live.any (·.pn = pn) = true := by
        rw [alive,List.any_append,List.any_cons]
        simp [named']
      have ascending := sound.ascending
      rw [slots,List.map_append,List.map_cons] at ascending
      obtain ⟨_,later,before'⟩ := List.pairwise_append.mp ascending
      have others : ∀ part : List (SentPacket Frame), (∀ q ∈ part, q.pn ≠ pn) →
          (part.filter SentPacket.alive).map (fun q => if q.pn = pn then q.lengthen extra else q) =
            part.filter SentPacket.alive := by
        intro part differ
        exact (List.map_congr_left fun q member => if_neg (differ q (List.mem_filter.mp member).1)).trans (List.map_id _)
      have front := others before fun q member same =>
        absurd (before' q.pn (List.mem_map_of_mem member) p.pn List.mem_cons_self) (by rw [same,named']; exact lt_irrefl _)
      have back := others after fun q member same =>
        absurd ((List.pairwise_cons.mp later).1 q.pn (List.mem_map_of_mem member)) (by rw [same,named']; exact lt_irrefl _)
      refine ⟨u,?_,sound',shape,?_⟩
      · rw [there]
        simp only [bind,Option.bind,at',dead,less]
        rw [step]
        rfl
      · rw [live,alive,List.map_append,List.map_cons,front,back,if_pos named']

end SentPacketTracker
end
end QuicZig.Conn.SentPackets
