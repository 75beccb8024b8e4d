import QuicZig.Server.Timers
import Mathlib.Data.List.Nodup

/-! What the operations on the ready list and on the heap do, each apart from the other. -/
namespace QuicZig.Server
open Conn MinHeap

/-- What a slot keeps about its timer. -/
structure Arming where
  key : Key
  generation : Nat
  atUs : Option Nat
  deriving DecidableEq

def Slot.arming (slot : Slot) : Arming := ⟨slot.key,slot.timerGeneration,slot.timerAtUs⟩

/-- The entry is the slot's, and it is not stale. -/
def Arming.current (a : Arming) (e : TimerEntry) : Bool := e.slot == a.key && e.generation == a.generation

/-- The heap has the slot's deadline in one entry, and nothing else that is current. -/
def Arming.Held (timers : Array TimerEntry) (a : Arming) : Prop :=
  ((timers.toList.filter a.current).map TimerEntry.atUs).Perm a.atUs.toList

/-- No entry has the generation that the slot gets next. -/
def Arming.Clear (timers : Array TimerEntry) (a : Arming) : Prop :=
  ∀ e ∈ timers.toList, e.slot = a.key → e.generation ≠ Timers.nextGeneration a.generation

section
variable {timers timers' : Array TimerEntry} {a : Arming}

theorem Arming.current_iff {e : TimerEntry} : a.current e = true ↔ e.slot = a.key ∧ e.generation = a.generation := by
  simp [current]

theorem Arming.Held.skip {e : TimerEntry} (perm : timers'.toList.Perm (e::timers.toList)) (stale : a.current e = false) :
    a.Held timers' ↔ a.Held timers := by
  have same := (perm.filter a.current).map TimerEntry.atUs
  rw [List.filter_cons_of_neg (by rw [stale]; nofun)] at same
  exact ⟨same.symm.trans,same.trans⟩

theorem Arming.Held.none (absent : ∀ e ∈ timers.toList, a.current e = false) (idle : a.atUs = .none) : a.Held timers := by
  unfold Held
  rw [List.filter_eq_nil_iff.mpr fun e there => by rw [absent e there]; nofun,idle]
  exact .refl _

theorem Arming.Held.some {e : TimerEntry} (perm : timers'.toList.Perm (e::timers.toList)) (here : a.current e = true)
    (absent : ∀ e ∈ timers.toList, a.current e = false) (armed : a.atUs = .some e.atUs) : a.Held timers' := by
  have nothing : timers.toList.filter a.current = [] :=
    List.filter_eq_nil_iff.mpr fun e there => by rw [absent e there]; nofun
  have same := (perm.filter a.current).map TimerEntry.atUs
  rw [List.filter_cons_of_pos here,nothing] at same
  unfold Held
  rw [armed]
  exact same

theorem Arming.Held.entry (held : a.Held timers) {d : Nat} (armed : a.atUs = .some d) :
    ∃ e, timers.toList.filter a.current = [e] ∧ e.atUs = d := by
  unfold Held at held
  rw [armed] at held
  obtain ⟨e,only,deadline⟩ := List.map_eq_singleton_iff.mp (List.perm_singleton.mp held)
  exact ⟨e,only,deadline⟩

theorem Arming.Held.idle (held : a.Held timers) (idle : a.atUs = .none) : timers.toList.filter a.current = [] := by
  unfold Held at held
  rw [idle] at held
  exact List.map_eq_nil_iff.mp held.eq_nil

theorem Arming.Held.of_current {e : TimerEntry} (perm : timers'.toList.Perm (e::timers.toList)) (held : a.Held timers')
    (here : a.current e = true) : a.atUs = .some e.atUs ∧ ∀ e ∈ timers.toList, a.current e = false := by
  have same := ((perm.filter a.current).map TimerEntry.atUs).symm.trans held
  rw [List.filter_cons_of_pos here,List.map_cons] at same
  cases armed : a.atUs with
  | none =>
    rw [armed] at same
    exact absurd same.length_eq (Nat.succ_ne_zero _)
  | some d =>
    rw [armed] at same
    have one := List.perm_singleton.mp same
    obtain ⟨first,rest⟩ := List.cons_eq_cons.mp one
    refine ⟨by rw [first],fun e there => ?_⟩
    exact Bool.eq_false_iff.mpr (List.filter_eq_nil_iff.mp (List.map_eq_nil_iff.mp rest) e there)

end

namespace Timers

def armings (s : Timers) : List Arming := s.slots.toList.map Slot.arming

def flags (s : Timers) : List (Key × Bool) := s.slots.toList.map fun slot => (slot.key,slot.ready)

theorem keys_armings (s : Timers) : s.keys = s.armings.map Arming.key := by
  rw [keys,armings,List.map_map]
  rfl

theorem keys_flags (s : Timers) : s.keys = s.flags.map Prod.fst := by
  rw [keys,flags,List.map_map]
  rfl

theorem slot?_some {s : Timers} {key : Key} {slot : Slot} (found : s.slot? key = some slot) :
    slot ∈ s.slots.toList ∧ slot.key = key := by
  unfold slot? at found
  rw [← Array.find?_toList] at found
  exact ⟨List.mem_of_find?_eq_some found,by simpa using List.find?_some found⟩

theorem slot?_none {s : Timers} {key : Key} (missing : s.slot? key = none) : key ∉ s.keys := by
  unfold slot? at missing
  rw [← Array.find?_toList] at missing
  intro there
  obtain ⟨slot,member,rfl⟩ := List.mem_map.mp there
  exact List.find?_eq_none.mp missing slot member (by simp)

theorem slot_unique {s : Timers} (apart : s.keys.Nodup) {slot other : Slot} (here : slot ∈ s.slots.toList)
    (there : other ∈ s.slots.toList) (same : slot.key = other.key) : slot = other :=
  List.inj_on_of_nodup_map apart here there same

theorem arming_unique {s : Timers} (apart : s.keys.Nodup) {a b : Arming} (here : a ∈ s.armings) (there : b ∈ s.armings)
    (same : a.key = b.key) : a = b := by
  rw [keys_armings] at apart
  exact List.inj_on_of_nodup_map apart here there same

theorem mem_keys {s : Timers} {a : Arming} (there : a ∈ s.armings) : a.key ∈ s.keys := by
  rw [keys_armings]
  exact List.mem_map_of_mem there

section
variable {s : Timers} {key : Key} {f : Slot → Slot}

theorem modify_slots (s : Timers) (key : Key) (f : Slot → Slot) :
    (s.modify key f).slots.toList = s.slots.toList.map fun slot => if slot.key = key then f slot else slot := by
  rw [modify,Array.toList_map]

theorem modify_map {α : Type} (read : Slot → α) (kept : ∀ slot, read (f slot) = read slot) :
    (s.modify key f).slots.toList.map read = s.slots.toList.map read := by
  rw [modify_slots,List.map_map]
  refine List.map_congr_left fun slot _ => ?_
  rw [Function.comp_apply]
  split
  · exact kept slot
  · rfl

end

/-- Only the ready side moved. -/
structure SameTimers (s s' : Timers) : Prop where
  armings : s'.armings = s.armings
  timers : s'.timers = s.timers
  degraded : s'.timersDegraded = s.timersDegraded

structure SameReady (s s' : Timers) : Prop where
  flags : s'.flags = s.flags
  ready : s'.ready = s.ready
  taken : s'.readyTaken = s.readyTaken
  degraded : s'.readyDegraded = s.readyDegraded
  touched : s'.touched = s.touched

theorem SameTimers.refl (s : Timers) : SameTimers s s := ⟨rfl,rfl,rfl⟩

theorem SameTimers.trans {s t u : Timers} (first : SameTimers s t) (second : SameTimers t u) : SameTimers s u :=
  ⟨second.armings.trans first.armings,second.timers.trans first.timers,second.degraded.trans first.degraded⟩

theorem SameTimers.keys {s t : Timers} (same : SameTimers s t) : t.keys = s.keys := by
  rw [keys_armings,same.armings,← keys_armings]

theorem SameReady.refl (s : Timers) : SameReady s s := ⟨rfl,rfl,rfl,rfl,rfl⟩

theorem SameReady.keys {s t : Timers} (same : SameReady s t) : t.keys = s.keys := by
  rw [keys_flags,same.flags,← keys_flags]

/-- The ready list has the slots that were touched, and no other. -/
structure Listed (s : Timers) : Prop where
  marked : ∀ f ∈ s.flags, f.2 = true → f.1 ∈ s.ready
  touched : ∀ key ∈ s.touched, s.readyDegraded = true ∨ key ∈ s.ready
  ready : ∀ key ∈ s.ready, key ∈ s.keys
  taken : ∀ key ∈ s.readyTaken, key ∈ s.keys

theorem Listed.same {s t : Timers} (listed : Listed s) (same : SameReady s t) : Listed t := by
  have keys := same.keys
  obtain ⟨flags,ready,taken,degraded,touched⟩ := same
  refine ⟨?_,?_,?_,?_⟩
  · rw [flags,ready]
    exact listed.marked
  · rw [touched,degraded,ready]
    exact listed.touched
  · rw [ready,keys]
    exact listed.ready
  · rw [taken,keys]
    exact listed.taken

theorem wakeSlot_timers (s : Timers) (key : Key) (granted : Bool) : SameTimers s (s.wakeSlot key granted) := by
  unfold wakeSlot
  cases s.slot? key with
  | none => exact .refl s
  | some slot =>
    dsimp only
    split
    · exact ⟨rfl,rfl,rfl⟩
    split
    · exact ⟨modify_map Slot.arming fun _ => rfl,rfl,rfl⟩
    · exact ⟨rfl,rfl,rfl⟩

theorem wakeSlot_listed {s : Timers} (listed : Listed s) (key : Key) (granted : Bool) : Listed (s.wakeSlot key granted) := by
  unfold wakeSlot
  cases found : s.slot? key with
  | none => exact listed
  | some slot =>
    obtain ⟨there,named⟩ := slot?_some found
    have live : key ∈ s.keys := List.mem_map.mpr ⟨slot,there,named⟩
    dsimp only
    split
    · rename_i already
      have member := listed.marked (slot.key,slot.ready) (List.mem_map.mpr ⟨slot,there,rfl⟩) already
      refine ⟨listed.marked,fun k woken => ?_,listed.ready,listed.taken⟩
      rcases List.mem_cons.mp woken with rfl | woken
      · exact .inr (named ▸ member)
      · exact listed.touched k woken
    split
    · have keys : ({s with touched := key::s.touched}.modify key fun slot => {slot with ready := true}).keys = s.keys :=
        modify_map Slot.key fun _ => rfl
      refine ⟨fun f member set => ?_,fun k woken => ?_,fun k member => ?_,fun k member => ?_⟩
      · obtain ⟨other,kept,rfl⟩ := List.mem_map.mp member
        change other ∈ ({s with touched := key::s.touched}.modify key fun slot => {slot with ready := true}).slots.toList at kept
        rw [modify_slots] at kept
        obtain ⟨old,before,rfl⟩ := List.mem_map.mp kept
        by_cases same : old.key = key
        · simp only [if_pos same]
          exact Array.mem_push.mpr (.inr same)
        · simp only [if_neg same] at set ⊢
          exact Array.mem_push_of_mem _ (listed.marked (old.key,old.ready) (List.mem_map.mpr ⟨old,before,rfl⟩) set)
      · rcases List.mem_cons.mp woken with rfl | woken
        · exact .inr Array.mem_push_self
        · exact (listed.touched k woken).imp_right (Array.mem_push_of_mem _)
      · change k ∈ ({s with touched := key::s.touched}.modify key fun slot => {slot with ready := true}).keys
        rw [keys]
        rcases Array.mem_push.mp member with member | rfl
        · exact listed.ready k member
        · exact live
      · change k ∈ ({s with touched := key::s.touched}.modify key fun slot => {slot with ready := true}).keys
        rw [keys]
        exact listed.taken k member
    · exact ⟨listed.marked,fun _ _ => .inl rfl,listed.ready,listed.taken⟩

theorem foldl_wakeSlot {α : Type} (wakes : List α) (key : α → Key) (granted : α → Bool) (s : Timers) :
    SameTimers s (wakes.foldl (fun s w => s.wakeSlot (key w) (granted w)) s) ∧
      (Listed s → Listed (wakes.foldl (fun s w => s.wakeSlot (key w) (granted w)) s)) := by
  induction wakes generalizing s with
  | nil => exact ⟨.refl s,id⟩
  | cons w rest ih =>
    obtain ⟨same,listed⟩ := ih (s.wakeSlot (key w) (granted w))
    exact ⟨(wakeSlot_timers s _ _).trans same,fun now => listed (wakeSlot_listed now _ _)⟩

theorem touch_timers (s : Timers) (key : Key) (touches : List Bool) : SameTimers s (s.touch key touches) :=
  (foldl_wakeSlot touches (fun _ => key) id s).1

theorem touch_listed {s : Timers} (listed : Listed s) (key : Key) (touches : List Bool) : Listed (s.touch key touches) :=
  (foldl_wakeSlot touches (fun _ => key) id s).2 listed

theorem takeReady_timers (s : Timers) : SameTimers s s.takeReady.1 := by
  have same : (s.slots.map fun slot => if slot.key ∈ s.ready then {slot with ready := false} else slot).toList.map Slot.arming =
      s.slots.toList.map Slot.arming := by
    rw [Array.toList_map,List.map_map]
    refine List.map_congr_left fun slot _ => ?_
    rw [Function.comp_apply]
    split <;> rfl
  unfold takeReady
  split
  · exact ⟨same,rfl,rfl⟩
  · exact ⟨same,rfl,rfl⟩

theorem takeReady_spec {s : Timers} (listed : Listed s) :
    Listed s.takeReady.1 ∧ (∀ key ∈ s.touched, key ∈ s.keys → key ∈ s.takeReady.2) ∧ ∀ key ∈ s.takeReady.2, key ∈ s.keys := by
  have all : ∀ key, key ∈ s.slots.map Slot.key ↔ key ∈ s.keys := fun key => by
    rw [← Array.mem_toList_iff,Array.toList_map]
    rfl
  have keys := (takeReady_timers s).keys
  have off : ∀ f ∈ s.takeReady.1.flags, f.2 = false := by
    have off : ∀ slot ∈ s.slots.toList, (if slot.key ∈ s.ready then {slot with ready := false} else slot).ready = false := by
      intro slot there
      split
      · rfl
      · rename_i out
        exact Bool.eq_false_iff.mpr fun set => out (listed.marked (slot.key,slot.ready) (List.mem_map.mpr ⟨slot,there,rfl⟩) set)
    intro f member
    obtain ⟨slot,kept,rfl⟩ := List.mem_map.mp member
    have there : slot ∈ (s.slots.map fun slot => if slot.key ∈ s.ready then {slot with ready := false} else slot).toList := by
      unfold takeReady at kept
      split at kept <;> exact kept
    rw [Array.toList_map] at there
    obtain ⟨old,before,rfl⟩ := List.mem_map.mp there
    exact off old before
  refine ⟨⟨fun f member set => ?_,?_,?_,?_⟩,fun key woken live => ?_,fun key taken => ?_⟩
  · rw [off f member] at set
    nomatch set
  · unfold takeReady
    split <;> exact fun _ there => absurd there List.not_mem_nil
  · unfold takeReady
    split <;> exact fun _ there => absurd there (Array.not_mem_empty _)
  · rw [keys]
    unfold takeReady
    split
    · exact listed.taken
    · exact listed.ready
  · unfold takeReady
    split
    · exact (all key).mpr live
    · rename_i fine
      exact (listed.touched key woken).resolve_left fine
  · unfold takeReady at taken
    split at taken
    · exact (all key).mp taken
    · exact listed.ready key taken

/-- The heap is in order and names live slots. -/
structure Heaped (s : Timers) : Prop where
  ordered : OrderedFrom TimerEntry.atUs 0 s.timers
  named : ∀ e ∈ s.timers.toList, e.slot ∈ s.keys

/-- Every slot but those of a kind is held. -/
def HeldBut (but : Key → Prop) (s : Timers) : Prop := ∀ a ∈ s.armings, ¬but a.key → a.Held s.timers

theorem Heaped.same {s t : Timers} (heaped : Heaped s) (same : SameTimers s t) : Heaped t := by
  refine ⟨?_,?_⟩
  · rw [same.timers]
    exact heaped.ordered
  · rw [same.timers,same.keys]
    exact heaped.named

theorem HeldBut.same {but : Key → Prop} {s t : Timers} (held : HeldBut but s) (same : SameTimers s t) : HeldBut but t := by
  unfold HeldBut
  rw [same.armings,same.timers]
  exact held

theorem armTimerAfter_ready (s : Timers) (key : Key) (maybe : Option TimerDeadline) (floorUs : Nat) (granted : Bool) :
    SameReady s (s.armTimerAfter key maybe floorUs granted) := by
  unfold armTimerAfter
  cases s.slot? key with
  | none => exact .refl s
  | some slot =>
    cases maybe with
    | none => exact ⟨modify_map (fun slot => (slot.key,slot.ready)) fun _ => rfl,rfl,rfl,rfl,rfl⟩
    | some reported =>
      dsimp only
      split
      · exact .refl s
      split
      · exact ⟨modify_map (fun slot => (slot.key,slot.ready)) fun _ => rfl,rfl,rfl,rfl,rfl⟩
      · exact ⟨modify_map (fun slot => (slot.key,slot.ready)) fun _ => rfl,rfl,rfl,rfl,rfl⟩

/-- How `armTimerAfter` leaves the slot whose arming was `a`. -/
inductive Outcome (s s' : Timers) (a : Arming) (maybe : Option TimerDeadline) (floorUs : Nat) (granted : Bool) : Arming → Prop where
  | kept (same : maybe.map (max ·.atUs floorUs) = a.atUs) (timers : s'.timers = s.timers)
      (degraded : s'.timersDegraded = s.timersDegraded) : Outcome s s' a maybe floorUs granted a
  | idle (moved : a.atUs.isSome) (timers : s'.timers = s.timers) (degraded : s'.timersDegraded = s.timersDegraded)
      (unreported : maybe = none) :
      Outcome s s' a maybe floorUs granted ⟨a.key,nextGeneration a.generation,none⟩
  | lost (timers : s'.timers = s.timers) (degraded : s'.timersDegraded = true) (refused : granted = false) :
      Outcome s s' a maybe floorUs granted ⟨a.key,nextGeneration a.generation,none⟩
  | pushed (e : TimerEntry) (slot : e.slot = a.key) (generation : e.generation = nextGeneration a.generation)
      (late : floorUs ≤ e.atUs) (timers : s'.timers = push TimerEntry.atUs s.timers e)
      (degraded : s'.timersDegraded = s.timersDegraded) (given : granted = true) :
      Outcome s s' a maybe floorUs granted ⟨a.key,nextGeneration a.generation,some e.atUs⟩

structure Rearmed (s s' : Timers) (a a' : Arming) (maybe : Option TimerDeadline) (floorUs : Nat) (granted : Bool) : Prop where
  keys : s'.keys = s.keys
  others : ∀ b ∈ s'.armings, b = a' ∨ (b ∈ s.armings ∧ b.key ≠ a.key)
  stay : ∀ b ∈ s.armings, b.key ≠ a.key → b ∈ s'.armings
  outcome : Outcome s s' a maybe floorUs granted a'

theorem modify_armings {s : Timers} (apart : s.keys.Nodup) {slot : Slot} (there : slot ∈ s.slots.toList) (f : Slot → Slot) :
    (∀ b ∈ (s.modify slot.key f).armings, b = (f slot).arming ∨ (b ∈ s.armings ∧ b.key ≠ slot.key)) ∧
      ∀ b ∈ s.armings, b.key ≠ slot.key → b ∈ (s.modify slot.key f).armings := by
  refine ⟨fun b member => ?_,fun b member other => ?_⟩
  · unfold armings at member
    rw [modify_slots,List.map_map] at member
    obtain ⟨old,before,rfl⟩ := List.mem_map.mp member
    rw [Function.comp_apply]
    by_cases same : old.key = slot.key
    · rw [if_pos same,slot_unique apart before there same]
      exact .inl rfl
    · rw [if_neg same]
      exact .inr ⟨List.mem_map_of_mem before,same⟩
  · obtain ⟨old,before,rfl⟩ := List.mem_map.mp member
    unfold armings
    rw [modify_slots,List.map_map]
    refine List.mem_map.mpr ⟨old,before,?_⟩
    rw [Function.comp_apply,if_neg (show old.key ≠ slot.key from other)]

theorem armTimerAfter_spec {s : Timers} (apart : s.keys.Nodup) {a : Arming} (there : a ∈ s.armings)
    (maybe : Option TimerDeadline) (floorUs : Nat) (granted : Bool) :
    ∃ a', Rearmed s (s.armTimerAfter a.key maybe floorUs granted) a a' maybe floorUs granted := by
  obtain ⟨slot,member,rfl⟩ := List.mem_map.mp there
  have found : s.slot? slot.key = some slot := by
    cases found : s.slot? slot.key with
    | none => exact absurd (List.mem_map_of_mem member) (slot?_none found)
    | some other =>
      obtain ⟨here,same⟩ := slot?_some found
      rw [slot_unique apart here member same]
  have keep : maybe.map (max ·.atUs floorUs) = slot.timerAtUs → Rearmed s s slot.arming slot.arming maybe floorUs granted := by
    refine fun same => ⟨rfl,fun b before => ?_,fun b before _ => before,.kept same rfl rfl⟩
    by_cases same : b.key = slot.key
    · exact .inl (arming_unique apart before there same)
    · exact .inr ⟨before,same⟩
  unfold armTimerAfter
  rw [show slot.arming.key = slot.key from rfl,found]
  cases maybe with
  | none =>
    dsimp only
    obtain ⟨others,stay⟩ := modify_armings apart member (fun slot => {slot with
      timerGeneration := if slot.timerAtUs.isSome then nextGeneration slot.timerGeneration else slot.timerGeneration
      timerAtUs := none})
    refine ⟨_,modify_map Slot.key fun _ => rfl,others,stay,?_⟩
    cases armed : slot.timerAtUs with
    | none =>
      have same : slot.arming = ⟨slot.key,slot.timerGeneration,none⟩ := by
        rw [Slot.arming,armed]
      exact same ▸ .kept rfl rfl rfl
    | some d =>
      refine .idle ?_ rfl rfl rfl
      change slot.timerAtUs.isSome
      rw [armed]
      rfl
  | some reported =>
    dsimp only
    by_cases same : slot.timerAtUs = some (max reported.atUs floorUs)
    · rw [if_pos same]
      exact ⟨_,keep same.symm⟩
    rw [if_neg same]
    cases granted with
    | true =>
      obtain ⟨others,stay⟩ := modify_armings apart member (fun slot => {slot with
        timerGeneration := nextGeneration slot.timerGeneration
        timerAtUs := some (max reported.atUs floorUs)})
      exact ⟨_,modify_map Slot.key fun _ => rfl,others,stay,
        .pushed ⟨{reported with atUs := max reported.atUs floorUs},slot.key,nextGeneration slot.timerGeneration⟩ rfl rfl
          (Nat.le_max_right _ _) rfl rfl rfl⟩
    | false =>
      obtain ⟨others,stay⟩ := modify_armings apart member (fun slot => {slot with
        timerGeneration := nextGeneration slot.timerGeneration
        timerAtUs := none})
      exact ⟨_,modify_map Slot.key fun _ => rfl,others,stay,.lost rfl rfl rfl⟩

theorem Rearmed.key {s s' : Timers} {a a' : Arming} {maybe : Option TimerDeadline} {floorUs : Nat} {granted : Bool}
    (rearmed : Rearmed s s' a a' maybe floorUs granted) : a'.key = a.key := by
  cases rearmed.outcome with
  | kept | idle | lost | pushed => rfl

section
variable {s s' : Timers} {a a' : Arming} {maybe : Option TimerDeadline} {floorUs : Nat} {granted : Bool}

theorem Rearmed.heaped (rearmed : Rearmed s s' a a' maybe floorUs granted) (there : a ∈ s.armings) (heaped : Heaped s) : Heaped s' := by
  obtain ⟨keys,_,_,outcome⟩ := rearmed
  have still : s'.timers = s.timers → Heaped s' := fun timers => by
    refine ⟨?_,?_⟩
    · rw [timers]
      exact heaped.ordered
    · rw [timers,keys]
      exact heaped.named
  cases outcome with
  | kept _ timers => exact still timers
  | idle _ timers => exact still timers
  | lost timers => exact still timers
  | pushed e slot _ _ timers =>
    refine ⟨?_,fun x member => ?_⟩
    · rw [timers]
      exact push_ordered heaped.ordered e
    · rw [timers,(perm_push s.timers e).mem_iff] at member
      rw [keys]
      rcases List.mem_cons.mp member with rfl | member
      · rw [slot]
        exact mem_keys there
      · exact heaped.named x member

theorem Rearmed.held {but : Key → Prop} (rearmed : Rearmed s s' a a' maybe floorUs granted) (held : HeldBut but s)
    (clear : a.Clear s.timers) (kept : maybe.map (max ·.atUs floorUs) = a.atUs → a.Held s.timers) :
    HeldBut (fun key => but key ∧ key ≠ a.key) s' := by
  have named := rearmed.key
  obtain ⟨_,others,_,outcome⟩ := rearmed
  have gone : ∀ (at_us : Option Nat), ∀ e ∈ s.timers.toList,
      (⟨a.key,nextGeneration a.generation,at_us⟩ : Arming).current e = false := fun at_us e member =>
    Bool.eq_false_iff.mpr fun here => clear e member (Arming.current_iff.mp here).1 (Arming.current_iff.mp here).2
  intro b member spared
  rcases others b member with rfl | ⟨before,other⟩
  · cases outcome with
    | kept same timers =>
      rw [timers]
      exact kept same
    | idle _ timers =>
      rw [timers]
      exact .none (gone none) rfl
    | lost timers =>
      rw [timers]
      exact .none (gone none) rfl
    | pushed e slot generation _ timers =>
      rw [timers]
      exact .some (perm_push s.timers e) (Arming.current_iff.mpr ⟨slot,generation⟩) (gone _) rfl
  · have was := held b before fun out => spared ⟨out,other⟩
    cases outcome with
    | kept _ timers | idle _ timers | lost timers =>
      rw [timers]
      exact was
    | pushed e slot _ _ timers =>
      rw [timers]
      refine (Arming.Held.skip (perm_push s.timers e) (Bool.eq_false_iff.mpr fun here => ?_)).mpr was
      exact other ((Arming.current_iff.mp here).1.symm.trans slot)

end

end Timers
end QuicZig.Server
