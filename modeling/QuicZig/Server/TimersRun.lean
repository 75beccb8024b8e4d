import QuicZig.Server.TimersSpec

/-! The timers of the server over whole runs: no deadline is lost, none is late, and a slot that
was touched is handed out. -/
namespace QuicZig.Server
open Conn MinHeap

def Arming.due (a : Arming) (nowUs : Nat) : Bool := a.atUs.any (decide <| · ≤ nowUs)

/-- What a pass over the due entries needs: the connections that are due answer their tick, no counter comes back to
an entry that is still in the heap, and the last microsecond of the clock ends the pass with all of it done. -/
structure Steady (s : Timers) (react : Key → Reaction) (nowUs : Nat) : Prop where
  answers : ∀ a ∈ s.armings, a.due nowUs = true → (react a.key).closed = true ∨ (react a.key).fails = false
  clear : ∀ a ∈ s.armings, a.Clear s.timers
  last : nowUs = maxU64 → (∀ a ∈ s.armings, a.atUs ≠ some maxU64) ∧
    ∀ a ∈ s.armings, ∀ b ∈ s.armings, a.atUs.isSome → b.atUs.isSome → a.key = b.key

structure Settled (s : Timers) : Prop where
  apart : s.keys.Nodup
  listed : s.Listed
  heaped : s.Heaped
  held : s.HeldBut fun _ => False

/-- The pass over the due entries of `s₀` has come to `s`. -/
structure Walk (react : Key → Reaction) (nowUs : Nat) (s₀ s : Timers) (visits : List Visit) : Prop where
  settled : Settled s
  keys : s.keys = s₀.keys
  rest : ∀ a ∈ s.armings, a.key ∈ visits.map Visit.key ∨ a ∈ s₀.armings
  entries : ∀ e ∈ s.timers.toList, e.slot ∈ visits.map Visit.key ∨ e ∈ s₀.timers.toList
  later : ∀ a ∈ s.armings, a.key ∈ visits.map Visit.key → ∀ d, a.atUs = some d → nowUs < d
  ticked : ∀ v ∈ visits, v.ticked = true ∨ (react v.key).closed = true

/-- Every slot that was due had its turn: its connection was ticked, unless it is closed. -/
def Visited (react : Key → Reaction) (nowUs : Nat) (s₀ : Timers) (visits : List Visit) : Prop :=
  ∀ a ∈ s₀.armings, a.due nowUs = true → ∃ v ∈ visits, v.key = a.key ∧ (v.ticked = true ∨ (react v.key).closed = true)

section
variable {react : Key → Reaction} {nowUs : Nat} {s₀ s : Timers} {visits : List Visit}

theorem Settled.start (settled : Settled s) : Walk react nowUs s s [] :=
  ⟨settled,rfl,fun _ there => .inr there,fun _ there => .inr there,fun _ _ visited => absurd visited List.not_mem_nil,
    List.forall_mem_nil _⟩

theorem Walk.finish (walk : Walk react nowUs s₀ s visits) (apart : s₀.keys.Nodup) (early : ∀ e ∈ s.timers.toList, nowUs < e.atUs) :
    Visited react nowUs s₀ visits := by
  intro a there due
  have live := Timers.mem_keys there
  rw [← walk.keys,Timers.keys_armings] at live
  obtain ⟨b,here,same⟩ := List.mem_map.mp live
  by_cases visited : b.key ∈ visits.map Visit.key
  · obtain ⟨v,member,named⟩ := List.mem_map.mp visited
    exact ⟨v,member,named.trans same,walk.ticked v member⟩
  · rw [Timers.arming_unique apart ((walk.rest b here).resolve_left visited) there same] at here
    obtain ⟨d,armed,past⟩ : ∃ d, a.atUs = some d ∧ d ≤ nowUs := by simpa [Arming.due,Option.any_eq_true] using due
    obtain ⟨e,only,deadline⟩ := (walk.settled.held a here not_false).entry armed
    have member : e ∈ s.timers.toList := List.mem_of_mem_filter (only ▸ List.mem_singleton_self e)
    have early := early e member
    omega

theorem takenOff {top : TimerEntry} (first : s.timers[0]? = some top) :
    s.timers.toList.Perm (top::(pop TimerEntry.atUs s.timers).toList) := perm_pop first

theorem Timers.Heaped.pop {top : TimerEntry} (heaped : s.Heaped) (first : s.timers[0]? = some top) :
    Timers.Heaped {s with timers := MinHeap.pop TimerEntry.atUs s.timers} :=
  ⟨pop_ordered heaped.ordered,fun e member => heaped.named e ((takenOff first).mem_iff.mpr (List.mem_cons_of_mem _ member))⟩

theorem Walk.skip {top : TimerEntry} (walk : Walk react nowUs s₀ s visits) (first : s.timers[0]? = some top)
    (stale : ∀ a ∈ s.armings, a.current top = false) :
    Walk react nowUs s₀ {s with timers := pop TimerEntry.atUs s.timers} visits := by
  obtain ⟨⟨apart,listed,heaped,held⟩,keys,rest,entries,later,ticked⟩ := walk
  refine ⟨⟨apart,?_,heaped.pop first,fun a there spared => ?_⟩,keys,rest,fun e member => ?_,later,ticked⟩
  · exact listed.same ⟨rfl,rfl,rfl,rfl,rfl⟩
  · exact (Arming.Held.skip (takenOff first) (stale a there)).mp (held a there spared)
  · exact entries e ((takenOff first).mem_iff.mpr (List.mem_cons_of_mem _ member))

theorem Walk.rearm {top : TimerEntry} {a : Arming} {t : Timers} (walk : Walk react nowUs s₀ s visits) (steady : Steady s₀ react nowUs)
    (small : nowUs ≤ maxU64) (first : s.timers[0]? = some top) (past : top.atUs ≤ nowUs) (there : a ∈ s.armings)
    (here : a.current top = true) (same : Timers.SameTimers {s with timers := pop TimerEntry.atUs s.timers} t) (listed : t.Listed)
    (maybe : Option TimerDeadline) (granted : Bool) :
    a ∈ s₀.armings ∧ a.due nowUs = true ∧
      Settled (t.armTimerAfter a.key maybe (min (nowUs+1) maxU64) granted) ∧
      (nowUs ≠ maxU64 → ∀ v : Visit, v.key = a.key → (v.ticked = true ∨ (react v.key).closed = true) →
        Walk react nowUs s₀ (t.armTimerAfter a.key maybe (min (nowUs+1) maxU64) granted) (v::visits) ∧
        (t.armTimerAfter a.key maybe (min (nowUs+1) maxU64) granted).timers.toList.countP (decide <| ·.atUs ≤ nowUs) <
          s.timers.toList.countP (decide <| ·.atUs ≤ nowUs)) := by
  obtain ⟨⟨apart,_,heaped,held⟩,keys,rest,entries,later,ticked⟩ := walk
  obtain ⟨armed,alone⟩ := Arming.Held.of_current (takenOff first) (held a there not_false) here
  have unvisited : a.key ∉ visits.map Visit.key := fun visited => by
    have late := later a there visited top.atUs armed
    omega
  have before := (rest a there).resolve_left unvisited
  have due : a.due nowUs = true := by simp [Arming.due,armed,past]
  have early : top.atUs < min (nowUs+1) maxU64 := by
    by_cases last : nowUs = maxU64
    · have other : top.atUs ≠ maxU64 := fun same => (steady.last last).1 a before (same ▸ armed)
      omega
    · omega
  have apart' : t.keys.Nodup := by
    rw [same.keys]
    exact apart
  have there' : a ∈ t.armings := same.armings ▸ there
  obtain ⟨a',rearmed⟩ := Timers.armTimerAfter_spec apart' there' maybe (min (nowUs+1) maxU64) granted
  have ready := t.armTimerAfter_ready a.key maybe (min (nowUs+1) maxU64) granted
  generalize t.armTimerAfter a.key maybe (min (nowUs+1) maxU64) granted = s' at rearmed ready ⊢
  have heaped' : s'.Heaped := rearmed.heaped there' ((heaped.pop first).same same)
  have popped : Timers.HeldBut (· = a.key) t := by
    refine Timers.HeldBut.same (fun b member other => ?_) same
    refine (Arming.Held.skip (takenOff first) (Bool.eq_false_iff.mpr fun also => other ?_)).mp (held b member not_false)
    exact (Arming.current_iff.mp also).1.symm.trans (Arming.current_iff.mp here).1
  have clear : a.Clear t.timers := by
    rw [same.timers]
    intro e member named
    have old := (takenOff first).mem_iff.mpr (List.mem_cons_of_mem _ member)
    exact steady.clear a before e ((entries e old).resolve_left fun visited => unvisited (named ▸ visited)) named
  have held' : s'.HeldBut fun _ => False := by
    have held' := rearmed.held popped clear fun same => by
      rw [armed] at same
      cases maybe with
      | none => nomatch same
      | some reported =>
        have same : max reported.atUs (min (nowUs+1) maxU64) = top.atUs := Option.some.inj same
        omega
    exact fun b member _ => held' b member fun out => out.2 out.1
  have keys' : s'.keys = s.keys := rearmed.keys.trans same.keys
  refine ⟨before,due,⟨keys' ▸ apart,listed.same ready,heaped',held'⟩,fun more v named turn => ⟨?_,?_⟩⟩
  · refine ⟨⟨keys' ▸ apart,listed.same ready,heaped',held'⟩,keys'.trans keys,fun b member => ?_,fun e member => ?_,
      fun b member visited d deadline => ?_,List.forall_mem_cons.mpr ⟨turn,ticked⟩⟩
    · rw [List.map_cons,named]
      rcases rearmed.others b member with rfl | ⟨member,_⟩
      · exact .inl (rearmed.key ▸ List.mem_cons_self)
      · rw [same.armings] at member
        exact (rest b member).imp_left (List.mem_cons_of_mem _)
    · rw [List.map_cons,named]
      have old : e ∈ t.timers.toList → e.slot ∈ a.key::visits.map Visit.key ∨ e ∈ s₀.timers.toList := fun member => by
        rw [same.timers] at member
        exact (entries e ((takenOff first).mem_iff.mpr (List.mem_cons_of_mem _ member))).imp_left (List.mem_cons_of_mem _)
      cases rearmed.outcome with
      | kept _ timers | idle _ timers | lost timers => exact old (timers ▸ member)
      | pushed entry slot _ _ timers =>
        rw [timers,(perm_push t.timers entry).mem_iff] at member
        rcases List.mem_cons.mp member with rfl | member
        · exact .inl (slot ▸ List.mem_cons_self)
        · exact old member
    · rcases rearmed.others b member with rfl | ⟨member,other⟩
      · cases rearmed.outcome with
        | kept same =>
          rw [armed] at same
          cases maybe with
          | none => nomatch same
          | some reported =>
            have same : max reported.atUs (min (nowUs+1) maxU64) = top.atUs := Option.some.inj same
            omega
        | idle | lost => nomatch deadline
        | pushed entry _ _ late =>
          have same : entry.atUs = d := Option.some.inj deadline
          omega
      · rw [List.map_cons,named] at visited
        rw [same.armings] at member
        exact later b member ((List.mem_cons.mp visited).resolve_left other) d deadline
  · have fewer := (takenOff first).countP_eq (decide <| ·.atUs ≤ nowUs)
    rw [List.countP_cons_of_pos (by simpa using past)] at fewer
    have left : t.timers.toList.countP (decide <| ·.atUs ≤ nowUs) < s.timers.toList.countP (decide <| ·.atUs ≤ nowUs) := by
      rw [same.timers]
      exact Nat.lt_of_lt_of_eq (Nat.lt_succ_self _) fewer.symm
    cases rearmed.outcome with
    | kept _ timers | idle _ timers | lost timers =>
      rw [timers]
      exact left
    | pushed entry _ _ late timers =>
      rw [timers,(perm_push t.timers entry).countP_eq,List.countP_cons_of_neg (by simp; omega)]
      exact left

/-- What a pass comes to. -/
structure Passed (react : Key → Reaction) (nowUs : Nat) (s₀ : Timers) (t : Ticked) : Prop where
  succeeded : t.succeeded = true
  settled : Settled t.after
  visited : Visited react nowUs s₀ t.visits

theorem tickEntries_passed (steady : Steady s₀ react nowUs) (small : nowUs ≤ maxU64) (apart : s₀.keys.Nodup) (fuel : Nat)
    (walk : Walk react nowUs s₀ s visits) (enough : s.timers.toList.countP (decide <| ·.atUs ≤ nowUs) ≤ fuel) :
    Passed react nowUs s₀ (Timers.tickEntries react nowUs fuel s visits) := by
  induction fuel generalizing s visits with
  | zero =>
    refine ⟨rfl,walk.settled,walk.finish apart fun e member => ?_⟩
    have none := List.countP_eq_zero.mp (Nat.le_zero.mp enough) e member
    simpa using none
  | succ fuel ih =>
    unfold Timers.tickEntries
    cases first : s.timers[0]? with
    | none =>
      refine ⟨rfl,walk.settled,walk.finish apart fun e member => ?_⟩
      obtain ⟨i,within,_⟩ := List.mem_iff_getElem.mp member
      have empty := Array.getElem?_eq_none_iff.mp first
      rw [Array.length_toList] at within
      omega
    | some top =>
      dsimp only
      by_cases early : nowUs < top.atUs
      · rw [if_pos early]
        exact ⟨rfl,walk.settled,walk.finish apart fun e member =>
          Nat.lt_of_lt_of_le early (top_le walk.settled.heaped.ordered first member)⟩
      rw [if_neg early]
      have past : top.atUs ≤ nowUs := Nat.le_of_not_lt early
      have fewer := (takenOff first).countP_eq (decide <| ·.atUs ≤ nowUs)
      rw [List.countP_cons_of_pos (by simpa using past)] at fewer
      have there : top ∈ s.timers.toList := (takenOff first).mem_iff.mpr List.mem_cons_self
      cases found : ({s with timers := pop TimerEntry.atUs s.timers} : Timers).slot? top.slot with
      | none => exact absurd (walk.settled.heaped.named top there) (Timers.slot?_none found)
      | some slot =>
        obtain ⟨member,named⟩ := Timers.slot?_some found
        have arming : slot.arming ∈ s.armings := List.mem_map_of_mem member
        dsimp only
        by_cases stale : top.generation ≠ slot.timerGeneration
        · rw [if_pos stale]
          refine ih (walk.skip first fun a here => Bool.eq_false_iff.mpr fun current => ?_) (by dsimp only; omega)
          obtain ⟨same,generation⟩ := Arming.current_iff.mp current
          rw [Timers.arming_unique walk.settled.apart here arming (same.symm.trans named.symm)] at generation
          exact stale generation
        rw [if_neg stale]
        have current : slot.arming.current top = true := Arming.current_iff.mpr ⟨named.symm,not_not.mp stale⟩
        have touches : ∀ b : Bool, Timers.SameTimers {s with timers := pop TimerEntry.atUs s.timers}
            (if b then {s with timers := pop TimerEntry.atUs s.timers}
              else Timers.touch {s with timers := pop TimerEntry.atUs s.timers} slot.key (react slot.key).touches) ∧
            Timers.Listed (if b then {s with timers := pop TimerEntry.atUs s.timers}
              else Timers.touch {s with timers := pop TimerEntry.atUs s.timers} slot.key (react slot.key).touches) := fun b => by
          have listed : Timers.Listed {s with timers := pop TimerEntry.atUs s.timers} :=
            walk.settled.listed.same ⟨rfl,rfl,rfl,rfl,rfl⟩
          cases b with
          | true => exact ⟨.refl _,listed⟩
          | false => exact ⟨Timers.touch_timers _ _ _,Timers.touch_listed listed _ _⟩
        obtain ⟨same,listed⟩ := touches (react slot.key).closed
        obtain ⟨before,due,settled,go⟩ := walk.rearm steady small first past arming current
          (same.trans (Timers.wakeSlot_timers _ slot.key (react slot.key).wakeGranted))
          (Timers.wakeSlot_listed listed slot.key (react slot.key).wakeGranted) (react slot.key).deadline (react slot.key).armGranted
        have answers : (!(react slot.key).closed && (react slot.key).fails) = false := by
          rcases steady.answers slot.arming before due with closed | fine
          · rw [show (react slot.key).closed = true from closed]
            rfl
          · rw [show (react slot.key).fails = false from fine,Bool.and_false]
        have turn : (!(react slot.key).closed) = true ∨ (react slot.key).closed = true := by
          cases (react slot.key).closed <;> decide
        rw [answers,if_neg Bool.false_ne_true]
        by_cases last : nowUs = maxU64
        · rw [if_pos last]
          refine ⟨rfl,settled,fun a here due' => ⟨_,List.mem_cons_self,?_,turn⟩⟩
          have armed : ∀ {a : Arming}, a.due nowUs = true → a.atUs.isSome := fun {a} due => by
            unfold Arming.due at due
            cases deadline : a.atUs with
            | none => rw [deadline] at due; nomatch due
            | some d => rfl
          exact (steady.last last).2 _ before _ here (armed due) (armed due')
        · rw [if_neg last]
          obtain ⟨walk',fewer'⟩ := go last ⟨slot.key,!(react slot.key).closed⟩ rfl turn
          exact ih walk' (by simp only [Slot.arming] at fewer'; omega)

end

namespace Timers

theorem tickFrom_spec (react : Key → Reaction) (s : Timers) (rest : List Key) :
    SameTimers s (s.tickFrom react rest).1 ∧ (s.Listed → (s.tickFrom react rest).1.Listed) := by
  induction rest generalizing s with
  | nil => exact ⟨.refl s,id⟩
  | cons key rest ih =>
    unfold tickFrom
    split
    · exact ih s
    split
    · exact ⟨touch_timers s _ _,fun listed => touch_listed listed _ _⟩
    · obtain ⟨same,listed⟩ := ih (s.touch key (react key).touches)
      exact ⟨(touch_timers s _ _).trans same,fun now => listed (touch_listed now _ _)⟩

/-- The sweep comes to its end when no connection that is ticked returns an error. -/
theorem tickFrom_succeeds {react : Key → Reaction} {s : Timers} {rest : List Key} (ends : (s.tickFrom react rest).2 = true) :
    ∀ key ∈ rest, (react key).closed = true ∨ (react key).fails = false := by
  induction rest generalizing s with
  | nil => exact List.forall_mem_nil _
  | cons key rest ih =>
    unfold tickFrom at ends
    refine List.forall_mem_cons.mpr ?_
    split at ends
    · rename_i closed
      exact ⟨.inl closed,ih ends⟩
    split at ends
    · nomatch ends
    · rename_i fine
      exact ⟨.inr (Bool.eq_false_iff.mpr fine),ih ends⟩

/-- The deadline that the connection reports is the one that was armed already. -/
def Unmoved (react : Key → Reaction) (a : Arming) : Prop := ((react a.key).deadline.map (·.atUs)) = a.atUs ∧ a.atUs.isSome

/-- The slot's deadline moved, and the heap has no room for it. -/
def Refused (react : Key → Reaction) (a : Arming) : Prop :=
  (react a.key).armGranted = false ∧ ∃ d ∈ (react a.key).deadline, a.atUs ≠ some d.atUs

section
variable {react : Key → Reaction} {s : Timers}

theorem exists_arming {key : Key} (live : key ∈ s.keys) : ∃ a ∈ s.armings, a.key = key := by
  rw [keys_armings] at live
  exact List.mem_map.mp live

theorem armAll_ready (rest : List Key) : SameReady s (armAll react s rest) := by
  induction rest generalizing s with
  | nil => exact .refl s
  | cons key rest ih =>
    have first := s.armTimerAfter_ready key (react key).deadline 0 (react key).armGranted
    have later := @ih (s.armTimer key (react key).deadline (react key).armGranted)
    exact ⟨later.flags.trans first.flags,later.ready.trans first.ready,later.taken.trans first.taken,
      later.degraded.trans first.degraded,later.touched.trans first.touched⟩

theorem armAll_heaped {rest : List Key} (apart : s.keys.Nodup) (live : ∀ key ∈ rest, key ∈ s.keys) (heaped : s.Heaped) :
    (armAll react s rest).Heaped ∧ (s.timersDegraded = true → (armAll react s rest).timersDegraded = true) := by
  induction rest generalizing s with
  | nil => exact ⟨heaped,id⟩
  | cons key rest ih =>
    obtain ⟨a,there,rfl⟩ := exists_arming (live key List.mem_cons_self)
    obtain ⟨a',rearmed⟩ := armTimerAfter_spec apart there (react a.key).deadline 0 (react a.key).armGranted
    have keys := rearmed.keys
    obtain ⟨after,still⟩ := @ih (s.armTimer a.key (react a.key).deadline (react a.key).armGranted) (keys ▸ apart)
      (fun key member => keys ▸ live key (List.mem_cons_of_mem _ member)) (rearmed.heaped there heaped)
    refine ⟨after,fun degraded => still ?_⟩
    cases rearmed.outcome with
    | kept _ _ same | idle _ _ same | pushed _ _ _ _ _ same => exact same.trans degraded
    | lost _ same => exact same

/-- A deadline that the heap has no room for is made up for by the next sweep. -/
theorem armAll_refused {rest : List Key} (apart : s.keys.Nodup) (live : ∀ key ∈ rest, key ∈ s.keys) (heaped : s.Heaped)
    (refused : ∃ a ∈ s.armings, a.key ∈ rest ∧ Refused react a) : (armAll react s rest).timersDegraded = true := by
  induction rest generalizing s with
  | nil =>
    obtain ⟨_,_,member,_⟩ := refused
    nomatch member
  | cons key rest ih =>
    obtain ⟨a,there,rfl⟩ := exists_arming (live key List.mem_cons_self)
    obtain ⟨a',rearmed⟩ := armTimerAfter_spec apart there (react a.key).deadline 0 (react a.key).armGranted
    have keys := rearmed.keys
    have live' : ∀ key ∈ rest, key ∈ (s.armTimer a.key (react a.key).deadline (react a.key).armGranted).keys :=
      fun key member => keys ▸ live key (List.mem_cons_of_mem _ member)
    obtain ⟨b,here,turn,denied⟩ := refused
    by_cases same : b.key = a.key
    · rw [arming_unique apart here there same] at denied
      obtain ⟨none,d,reported,moved⟩ := denied
      refine (armAll_heaped (keys ▸ apart) live' (rearmed.heaped there heaped)).2 ?_
      cases rearmed.outcome with
      | kept unmoved =>
        rw [reported] at unmoved
        exact absurd unmoved.symm (by simpa using moved)
      | idle _ _ _ unreported =>
        rw [reported] at unreported
        nomatch unreported
      | lost _ same => exact same
      | pushed _ _ _ _ _ _ given => rw [none] at given; nomatch given
    · refine ih (keys ▸ apart) live' (rearmed.heaped there heaped) ⟨b,rearmed.stay b here same,?_,denied⟩
      exact (List.mem_cons.mp turn).resolve_left same

theorem armAll_held {rest : List Key} (once : rest.Nodup) (apart : s.keys.Nodup) (live : ∀ key ∈ rest, key ∈ s.keys)
    (held : s.HeldBut (· ∈ rest)) (empty : ∀ e ∈ s.timers.toList, e.slot ∉ rest)
    (moved : ∀ a ∈ s.armings, a.key ∈ rest → ¬Unmoved react a) : (armAll react s rest).HeldBut fun _ => False := by
  induction rest generalizing s with
  | nil => exact fun a there _ => held a there List.not_mem_nil
  | cons key rest ih =>
    obtain ⟨a,there,rfl⟩ := exists_arming (live key List.mem_cons_self)
    obtain ⟨out,once⟩ := List.nodup_cons.mp once
    obtain ⟨a',rearmed⟩ := armTimerAfter_spec apart there (react a.key).deadline 0 (react a.key).armGranted
    have keys := rearmed.keys
    have absent : ∀ e ∈ s.timers.toList, e.slot ≠ a.key := fun e member same => empty e member (same ▸ List.mem_cons_self)
    have held' := rearmed.held held (fun e member same => absurd same (absent e member)) fun same => by
      refine .none (fun e member => Bool.eq_false_iff.mpr fun current => absent e member (Arming.current_iff.mp current).1) ?_
      cases armed : a.atUs with
      | none => rfl
      | some d =>
        refine absurd ⟨?_,?_⟩ (moved a there List.mem_cons_self)
        · simpa using same
        · rw [armed]
          rfl
    refine ih once (keys ▸ apart) (fun key member => keys ▸ live key (List.mem_cons_of_mem _ member))
      (fun b member spared => held' b member fun skip => ?_) (fun e member => ?_) (fun b member turn => ?_)
    · exact spared ((List.mem_cons.mp skip.1).resolve_left skip.2)
    · change e ∈ (s.armTimerAfter a.key (react a.key).deadline 0 (react a.key).armGranted).timers.toList at member
      cases rearmed.outcome with
      | kept _ timers | idle _ timers | lost timers =>
        rw [timers] at member
        exact fun late => empty e member (List.mem_cons_of_mem _ late)
      | pushed entry slot _ _ timers =>
        rw [timers,(perm_push s.timers entry).mem_iff] at member
        rcases List.mem_cons.mp member with rfl | member
        · rw [slot]
          exact out
        · exact fun late => empty e member (List.mem_cons_of_mem _ late)
    · rcases rearmed.others b member with rfl | ⟨member,_⟩
      · rw [rearmed.key] at turn
        exact absurd turn out
      · exact moved b member (List.mem_cons_of_mem _ turn)

end

/-- What `forgetSlot` leaves: the slot, out of the heap and of the lists. -/
structure Forgotten (s s' : Timers) (key : Key) : Prop where
  keys : s'.keys = s.keys
  degraded : s'.timersDegraded = s.timersDegraded
  ordered : OrderedFrom TimerEntry.atUs 0 s'.timers
  left : s'.timers.toList.Perm (s.timers.toList.filter fun e => !(e.slot == key))
  others : ∀ b ∈ s'.armings, b.key ≠ key → b ∈ s.armings
  marked : ∀ f ∈ s'.flags, f.2 = true → f.1 ∈ s'.ready
  touched : ∀ k ∈ s'.touched, k ≠ key ∧ (s'.readyDegraded = true ∨ k ∈ s'.ready)
  ready : ∀ k ∈ s'.ready, k ∈ s.keys ∧ k ≠ key
  taken : ∀ k ∈ s'.readyTaken, k ∈ s.keys ∧ k ≠ key

theorem purge_ordered {gone : TimerEntry → Bool} {a : Array TimerEntry} (ordered : OrderedFrom TimerEntry.atUs 0 a) :
    let left := purge gone a.size a 0
    let rebuilt := if left.size ≠ a.size ∧ 1 < left.size then heapify TimerEntry.atUs left (left.size/2) else left
    OrderedFrom TimerEntry.atUs 0 rebuilt ∧ rebuilt.toList.Perm (a.toList.filter fun e => !gone e) := by
  have perm := perm_purge gone a.size a 0 (by omega) fun _ there => absurd there List.not_mem_nil
  dsimp only
  split
  · exact ⟨heapify_ordered (ordered_half _),(perm_heapify _ _).trans perm⟩
  · rename_i simple
    refine ⟨?_,perm⟩
    by_cases same : (purge gone a.size a 0).size = a.size
    · have none : ∀ x ∈ a.toList, gone x = false := by
        have whole := perm.length_eq
        rw [Array.length_toList,same,← Array.length_toList] at whole
        intro x there
        have stays := List.length_filter_eq_length_iff.mp whole.symm x there
        simpa using stays
      rw [purge_none none]
      exact ordered
    · intro i pos within
      have short : ¬1 < (purge gone a.size a 0).size := fun long => simple ⟨same,long⟩
      omega

theorem mem_purge {a : Array Key} {key k : Key} : k ∈ purge (· == key) a.size a 0 ↔ k ∈ a ∧ k ≠ key := by
  have perm := perm_purge (· == key) a.size a 0 (by omega) fun _ there => absurd there List.not_mem_nil
  rw [← Array.mem_toList_iff,perm.mem_iff,List.mem_filter,Array.mem_toList_iff]
  simp

theorem forgetSlot_spec {s : Timers} (listed : s.Listed) (heaped : s.Heaped) (key : Key) : Forgotten s (s.forgetSlot key) key := by
  obtain ⟨ordered,left⟩ := @purge_ordered (fun e => e.slot == key) _ heaped.ordered
  have old : ∀ slot ∈ (s.forgetSlot key).slots.toList, (slot.key = key ∧ slot.ready = false) ∨
      (slot ∈ s.slots.toList ∧ slot.key ≠ key) := by
    intro slot member
    change slot ∈ (s.modify key fun slot => {slot with timerAtUs := none,ready := false}).slots.toList at member
    rw [modify_slots] at member
    obtain ⟨before,there,rfl⟩ := List.mem_map.mp member
    by_cases same : before.key = key
    · rw [if_pos same]
      exact .inl ⟨same,rfl⟩
    · rw [if_neg same]
      exact .inr ⟨there,same⟩
  refine ⟨modify_map Slot.key fun _ => rfl,rfl,ordered,left,fun b member other => ?_,fun f member set => ?_,fun k member => ?_,
    fun k member => ?_,fun k member => ?_⟩
  · obtain ⟨slot,there,rfl⟩ := List.mem_map.mp member
    exact List.mem_map_of_mem ((old slot there).resolve_left fun same => other same.1).1
  · obtain ⟨slot,there,rfl⟩ := List.mem_map.mp member
    rcases old slot there with ⟨_,off⟩ | ⟨before,other⟩
    · exact absurd (off.symm.trans set) Bool.false_ne_true
    · exact mem_purge.mpr ⟨listed.marked (slot.key,slot.ready) (List.mem_map.mpr ⟨slot,before,rfl⟩) set,other⟩
  · obtain ⟨before,other⟩ := List.mem_filter.mp member
    have other : k ≠ key := by simpa using other
    exact ⟨other,(listed.touched k before).imp_right fun there => mem_purge.mpr ⟨there,other⟩⟩
  · obtain ⟨there,other⟩ := mem_purge.mp member
    exact ⟨listed.ready k there,other⟩
  · obtain ⟨there,other⟩ := mem_purge.mp member
    exact ⟨listed.taken k there,other⟩

end Timers

structure Inv (s : Timers) : Prop where
  apart : s.keys.Nodup
  listed : s.Listed
  heaped : s.Heaped
  held : s.timersDegraded = false → s.HeldBut fun _ => False

theorem Inv.settled {s : Timers} (inv : Inv s) (fine : s.timersDegraded = false) : Settled s :=
  ⟨inv.apart,inv.listed,inv.heaped,inv.held fine⟩

theorem Settled.inv {s : Timers} (settled : Settled s) : Inv s := ⟨settled.apart,settled.listed,settled.heaped,fun _ => settled.held⟩

theorem Inv.woken {s t : Timers} (inv : Inv s) (same : Timers.SameTimers s t) (listed : t.Listed) : Inv t :=
  ⟨same.keys ▸ inv.apart,listed,inv.heaped.same same,fun fine => (inv.held (same.degraded ▸ fine)).same same⟩

theorem Inv.drained {s : Timers} (inv : Inv s) (key : Key) (maybe : Option TimerDeadline) (granted : Bool)
    (clear : s.timersDegraded = false → ∀ a ∈ s.armings, a.key = key → a.Clear s.timers) : Inv (s.slotDrained key maybe granted) := by
  have ready := s.armTimerAfter_ready key maybe 0 granted
  by_cases live : key ∈ s.keys
  · obtain ⟨a,there,rfl⟩ := Timers.exists_arming live
    obtain ⟨a',rearmed⟩ := Timers.armTimerAfter_spec inv.apart there maybe 0 granted
    refine ⟨rearmed.keys ▸ inv.apart,inv.listed.same ready,rearmed.heaped there inv.heaped,fun fine => ?_⟩
    have before : s.timersDegraded = false := by
      cases rearmed.outcome with
      | kept _ _ same | idle _ _ same | pushed _ _ _ _ _ same => exact same.symm.trans fine
      | lost _ degraded => exact absurd (fine.symm.trans degraded) Bool.false_ne_true
    have held := rearmed.held (inv.held before) (clear before a there rfl) fun _ => inv.held before a there not_false
    exact fun b member _ => held b member fun skip => skip.1
  · have same : s.slotDrained key maybe granted = s := by
      unfold Timers.slotDrained Timers.armTimer Timers.armTimerAfter
      cases found : s.slot? key with
      | none => rfl
      | some slot =>
        obtain ⟨there,named⟩ := Timers.slot?_some found
        exact absurd (List.mem_map.mpr ⟨slot,there,named⟩) live
    rw [same]
    exact inv

theorem Inv.remove {s s' : Timers} (inv : Inv s) {slot : Slot} {slots : Array Slot} (forgotten : Timers.Forgotten s s' slot.key)
    (perm : s'.slots.toList.Perm (slot::slots.toList)) : Inv {s' with slots := slots} := by
  have keys : s'.keys.Perm (slot.key::slots.toList.map Slot.key) := perm.map Slot.key
  have apart := keys.nodup_iff.mp (forgotten.keys ▸ inv.apart)
  have live : ∀ k ∈ s.keys, k ≠ slot.key → k ∈ slots.toList.map Slot.key := fun k member other => by
    rw [← forgotten.keys] at member
    exact (List.mem_cons.mp (keys.mem_iff.mp member)).resolve_left other
  have rest : ∀ x ∈ slots.toList, x ∈ s'.slots.toList := fun x member => perm.mem_iff.mpr (List.mem_cons_of_mem _ member)
  refine ⟨(List.nodup_cons.mp apart).2,⟨fun f member set => ?_,fun k member => (forgotten.touched k member).2,
    fun k member => live k (forgotten.ready k member).1 (forgotten.ready k member).2,
    fun k member => live k (forgotten.taken k member).1 (forgotten.taken k member).2⟩,
    ⟨forgotten.ordered,fun e member => ?_⟩,fun fine a member _ => ?_⟩
  · obtain ⟨x,there,rfl⟩ := List.mem_map.mp member
    exact forgotten.marked (x.key,x.ready) (List.mem_map.mpr ⟨x,rest x there,rfl⟩) set
  · have before := forgotten.left.mem_iff.mp member
    obtain ⟨before,other⟩ := List.mem_filter.mp before
    exact live e.slot (inv.heaped.named e before) (by simpa using other)
  · obtain ⟨x,there,rfl⟩ := List.mem_map.mp member
    have other : x.key ≠ slot.key := fun same => (List.nodup_cons.mp apart).1 (same ▸ List.mem_map_of_mem there)
    have held := inv.held (forgotten.degraded ▸ fine) x.arming
      (forgotten.others x.arming (List.mem_map_of_mem (rest x there)) other) not_false
    have away : ∀ e : TimerEntry, (x.arming.current e && !(e.slot == slot.key)) = x.arming.current e := fun e => by
      cases current : x.arming.current e with
      | false => rfl
      | true =>
        have named := (Arming.current_iff.mp current).1
        rw [named,Bool.true_and,Bool.not_eq_true']
        exact beq_eq_false_iff_ne.mpr other
    have same := (forgotten.left.filter x.arming.current).map TimerEntry.atUs
    rw [List.filter_filter,funext away] at same
    exact same.trans held

theorem Inv.reapFrom {s : Timers} (inv : Inv s) (closed : Key → Bool) (willClose : Key → List (Key × Bool)) (i : Nat) :
    Inv (s.reapFrom closed willClose i) := by
  induction i generalizing s with
  | zero => exact inv
  | succ i ih =>
    unfold Timers.reapFrom
    cases there : s.slots[i]? with
    | none => exact ih inv
    | some slot =>
      dsimp only
      by_cases ended : closed slot.key = true
      · rw [if_pos ended]
        obtain ⟨same,listed⟩ := Timers.foldl_wakeSlot (willClose slot.key) Prod.fst Prod.snd s
        have woken := inv.woken same (listed inv.listed)
        have name : s.keys[i]? = some slot.key := by
          rw [Timers.keys,List.getElem?_map,Array.getElem?_toList,there]
          rfl
        rw [← same.keys] at name
        generalize (willClose slot.key).foldl (fun s w => s.wakeSlot w.1 w.2) s = t at woken name ⊢
        have forgotten := Timers.forgetSlot_spec woken.listed woken.heaped slot.key
        rw [← forgotten.keys,Timers.keys,List.getElem?_map,Array.getElem?_toList,Option.map_eq_some_iff] at name
        obtain ⟨g,here,named⟩ := name
        exact ih (woken.remove (named ▸ forgotten) (perm_swapRemove here))
      · rw [if_neg ended]
        exact ih inv

theorem Inv.discarded {s : Timers} (inv : Inv s) : Inv s.discardStillbornSlot := by
  unfold Timers.discardStillbornSlot
  cases last : s.slots.back? with
  | none => exact inv
  | some slot =>
    have forgotten := Timers.forgetSlot_spec inv.listed inv.heaped slot.key
    have name : s.keys.getLast? = some slot.key := by
      rw [Timers.keys,List.getLast?_map,Array.getLast?_toList,last]
      rfl
    rw [← forgotten.keys,Timers.keys,List.getLast?_map,Option.map_eq_some_iff] at name
    obtain ⟨g,here,named⟩ := name
    refine @Inv.remove s (s.forgetSlot slot.key) inv g (s.forgetSlot slot.key).slots.pop (named ▸ forgotten) ?_
    obtain ⟨before,whole⟩ := List.getLast?_eq_some_iff.mp here
    rw [Array.toList_pop,whole,List.dropLast_concat]
    exact List.perm_append_singleton _ _

theorem Inv.opened {s : Timers} (inv : Inv s) {key : Key} (unused : key ∉ s.keys) (wakeGranted : Bool)
    (maybe : Option TimerDeadline) (armGranted : Bool) : Inv (s.openSlot key wakeGranted maybe armGranted) := by
  have born : Inv {s with slots := s.slots.push {key := key}} := by
    have slots : (s.slots.push {key := key}).toList = s.slots.toList ++ [{key := key}] := Array.toList_push
    have keys : ({s with slots := s.slots.push {key := key}} : Timers).keys = s.keys ++ [key] := by
      rw [Timers.keys,slots,List.map_append]
      rfl
    have live : ∀ k ∈ s.keys, k ∈ ({s with slots := s.slots.push {key := key}} : Timers).keys := fun k member =>
      keys ▸ List.mem_append_left _ member
    refine ⟨?_,⟨fun f member set => ?_,inv.listed.touched,fun k member => live k (inv.listed.ready k member),
      fun k member => live k (inv.listed.taken k member)⟩,⟨inv.heaped.ordered,fun e member => live _ (inv.heaped.named e member)⟩,
      fun fine a member _ => ?_⟩
    · rw [keys]
      exact List.nodup_append.mpr ⟨inv.apart,List.nodup_singleton key,fun k member other here same =>
        unused (List.mem_singleton.mp here ▸ same ▸ member)⟩
    · rw [Timers.flags,slots,List.map_append,List.mem_append] at member
      rcases member with member | member
      · exact inv.listed.marked f member set
      · rw [List.mem_singleton.mp member] at set
        exact absurd set Bool.false_ne_true
    · rw [Timers.armings,slots,List.map_append,List.mem_append] at member
      rcases member with member | member
      · exact inv.held fine a member not_false
      · rw [List.mem_singleton.mp member]
        refine .none (fun e there => Bool.eq_false_iff.mpr fun current => unused ?_) rfl
        have named : e.slot = key := (Arming.current_iff.mp current).1
        exact named ▸ inv.heaped.named e there
  refine Inv.drained (born.woken (Timers.wakeSlot_timers _ key wakeGranted) (Timers.wakeSlot_listed born.listed key wakeGranted))
    key maybe armGranted fun _ a _ named e member same => ?_
  rw [(Timers.wakeSlot_timers _ key wakeGranted).timers] at member
  exact absurd (inv.heaped.named e member) (same.trans named ▸ unused)

/-- What a sweep and the heap made anew need: the sweep is stopped by an error, the next one is due already, or every
slot's deadline moved. -/
def Rebuilt (s : Timers) (react : Key → Reaction) : Prop :=
  (∃ key ∈ s.keys, (react key).closed = false ∧ (react key).fails = true) ∨ (∃ a ∈ s.armings, Timers.Refused react a) ∨
    ∀ a ∈ s.armings, ¬Timers.Unmoved react a

theorem Inv.rebuilt {s : Timers} (inv : Inv s) {react : Key → Reaction} {nowUs : Nat} (degraded : s.timersDegraded = true)
    (rebuilt : Rebuilt s react) : Inv (s.tickDue react nowUs).after := by
  unfold Timers.tickDue
  rw [if_pos degraded]
  obtain ⟨same,listed⟩ := Timers.tickFrom_spec react s s.keys
  have ends := @Timers.tickFrom_succeeds react s s.keys
  change Timers.SameTimers s (s.tick react).1 at same
  change _ → (s.tick react).1.Listed at listed
  change (s.tick react).2 = true → _ at ends
  generalize s.tick react = swept at same listed ends ⊢
  obtain ⟨t,whole⟩ := swept
  have woken := inv.woken same (listed inv.listed)
  dsimp only at same listed ends woken ⊢
  cases whole with
  | false => exact woken
  | true =>
    have empty : ∀ e : TimerEntry, e ∉ (#[] : Array TimerEntry).toList := fun e => List.not_mem_nil
    have clean : Timers.Heaped {t with timers := #[],timersDegraded := false,readyDegraded := true} :=
      ⟨fun i _ within => absurd within (Nat.not_lt_zero i),fun e member => absurd member (empty e)⟩
    obtain ⟨heaped,_⟩ := @Timers.armAll_heaped react {t with timers := #[],timersDegraded := false,readyDegraded := true} t.keys
      woken.apart (fun _ member => member) clean
    have ready := @Timers.armAll_ready react {t with timers := #[],timersDegraded := false,readyDegraded := true} t.keys
    have listed : Timers.Listed {t with timers := #[],timersDegraded := false,readyDegraded := true} :=
      ⟨woken.listed.marked,fun _ _ => .inl rfl,woken.listed.ready,woken.listed.taken⟩
    refine ⟨ready.keys ▸ woken.apart,listed.same ready,heaped,fun fine => ?_⟩
    refine Timers.armAll_held woken.apart woken.apart (fun _ member => member) (fun a there spared => ?_)
      (fun e member => absurd member (empty e)) fun a there _ => ?_
    · exact absurd (Timers.mem_keys there) spared
    · have there : a ∈ s.armings := same.armings ▸ there
      rcases rebuilt with ⟨key,live,running,fails⟩ | ⟨b,other,refused⟩ | moved
      · rcases ends rfl key live with closed | answers
        · exact absurd (running.symm.trans closed) Bool.false_ne_true
        · exact absurd (answers.symm.trans fails) Bool.false_ne_true
      · refine absurd (fine.symm.trans ?_) Bool.false_ne_true
        refine Timers.armAll_refused woken.apart (fun _ member => member) clean ⟨b,?_,?_,refused⟩
        · exact same.armings.symm ▸ other
        · exact same.keys ▸ Timers.mem_keys other
      · exact moved a there

/-- What `nextDeadline` answers when nothing is degraded. -/
def Earliest (s : Timers) : Option TimerDeadline → Prop
  | none => ∀ slot ∈ s.slots.toList, slot.timerAtUs = none
  | some deadline => (∃ slot ∈ s.slots.toList, slot.timerAtUs = some deadline.atUs) ∧
      ∀ slot ∈ s.slots.toList, ∀ d, slot.timerAtUs = some d → deadline.atUs ≤ d

theorem nextEntry_spec {s : Timers} (settled : Settled s) (fuel : Nat) (enough : s.timers.size ≤ fuel) :
    Settled (Timers.nextEntry fuel s).1 ∧ (Timers.nextEntry fuel s).1.timersDegraded = s.timersDegraded ∧
      Earliest s (Timers.nextEntry fuel s).2 := by
  have empty : ∀ {s : Timers}, Settled s → s.timers[0]? = none → Earliest s none := fun {s} settled none slot there => by
    cases armed : slot.timerAtUs with
    | none => rfl
    | some d =>
      obtain ⟨e,only,_⟩ := (settled.held slot.arming (List.mem_map_of_mem there) not_false).entry armed
      have member : e ∈ s.timers.toList := List.mem_of_mem_filter (only ▸ List.mem_singleton_self e)
      obtain ⟨i,within,_⟩ := List.mem_iff_getElem.mp member
      have size := Array.getElem?_eq_none_iff.mp none
      rw [Array.length_toList] at within
      omega
  induction fuel generalizing s with
  | zero => exact ⟨settled,rfl,empty settled (Array.getElem?_eq_none_iff.mpr enough)⟩
  | succ fuel ih =>
    unfold Timers.nextEntry
    cases first : s.timers[0]? with
    | none => exact ⟨settled,rfl,empty settled first⟩
    | some top =>
      dsimp only
      by_cases current : (s.slot? top.slot).any (·.timerGeneration == top.generation) = true
      · rw [if_pos current]
        obtain ⟨slot,found,fresh⟩ : ∃ slot, s.slot? top.slot = some slot ∧ slot.timerGeneration = top.generation := by
          simpa [Option.any_eq_true] using current
        obtain ⟨there,named⟩ := Timers.slot?_some found
        have here : slot.arming.current top = true := Arming.current_iff.mpr ⟨named.symm,fresh.symm⟩
        obtain ⟨armed,_⟩ := Arming.Held.of_current (takenOff first) (settled.held slot.arming (List.mem_map_of_mem there) not_false) here
        refine ⟨settled,rfl,⟨slot,there,armed⟩,fun other member d deadline => ?_⟩
        obtain ⟨e,only,same⟩ := (settled.held other.arming (List.mem_map_of_mem member) not_false).entry deadline
        have listed : e ∈ s.timers.toList := List.mem_of_mem_filter (only ▸ List.mem_singleton_self e)
        exact same ▸ top_le settled.heaped.ordered first listed
      · rw [if_neg current]
        have stale : ∀ a ∈ s.armings, a.current top = false := fun a there => Bool.eq_false_iff.mpr fun here => by
          obtain ⟨slot,member,rfl⟩ := List.mem_map.mp there
          obtain ⟨named,fresh⟩ := Arming.current_iff.mp here
          cases found : s.slot? top.slot with
          | none => exact absurd (named ▸ List.mem_map_of_mem member) (Timers.slot?_none found)
          | some other =>
            obtain ⟨also,same⟩ := Timers.slot?_some found
            rw [Timers.slot_unique settled.apart also member (same.trans named)] at found
            rw [found,Option.any_some] at current
            exact current (beq_iff_eq.mpr fresh.symm)
        have walk := (@Settled.start (fun _ => {}) 0 s settled).skip first stale
        have fewer := (takenOff first).length_eq
        rw [List.length_cons,Array.length_toList,Array.length_toList] at fewer
        exact ih walk.settled (by dsimp only; omega)

/-- The heap has every armed deadline once and is in order, and it names live slots. -/
structure Good (s : Timers) : Prop where
  armed : s.timersDegraded = false → ∀ slot ∈ s.slots.toList, ∀ d, slot.timerAtUs = some d →
    ∃ e, s.timers.toList.filter slot.arming.current = [e] ∧ e.atUs = d
  idle : s.timersDegraded = false → ∀ slot ∈ s.slots.toList, slot.timerAtUs = none →
    s.timers.toList.filter slot.arming.current = []
  live : ∀ e ∈ s.timers.toList, ∃ slot ∈ s.slots.toList, slot.key = e.slot
  heap : OrderedFrom TimerEntry.atUs 0 s.timers

/-- `nextDeadline` answers the earliest deadline that is armed, `tickDue` ticks every slot that is due, and `takeReady`
hands out every slot that was touched. -/
def Served (s : Timers) : Event → Prop
  | .nextDeadline reported => s.timersDegraded = false → Earliest s (s.nextDeadline reported).2
  | .tickDue react nowUs => s.timersDegraded = false →
      (s.tickDue react nowUs).succeeded = true ∧ Visited react nowUs s (s.tickDue react nowUs).visits
  | .takeReady => ∀ slot ∈ s.slots.toList, slot.key ∈ s.touched → slot.key ∈ s.takeReady.2
  | _ => True

/-- A new slot has a pointer that no other slot has, and the clock has 64 bits. -/
def Ordinary (s : Timers) : Event → Prop
  | .openSlot key _ _ _ => key ∉ s.keys
  | .tickDue _ nowUs => nowUs ≤ maxU64
  | _ => True

def Sound (s : Timers) : Event → Prop
  | .slotDrained key _ _ => s.timersDegraded = false → ∀ a ∈ s.armings, a.key = key → a.Clear s.timers
  | .tickDue react nowUs => if s.timersDegraded = true then Rebuilt s react else Steady s react nowUs
  | _ => True

theorem Inv.good {s : Timers} (inv : Inv s) : Good s := by
  refine ⟨fun fine slot there d armed => ?_,fun fine slot there idle => ?_,fun e member => ?_,inv.heaped.ordered⟩
  · exact (inv.held fine slot.arming (List.mem_map_of_mem there) not_false).entry armed
  · exact (inv.held fine slot.arming (List.mem_map_of_mem there) not_false).idle idle
  · exact List.mem_map.mp (inv.heaped.named e member)

theorem inv_passed {s : Timers} (inv : Inv s) {react : Key → Reaction} {nowUs : Nat} (fine : ¬s.timersDegraded = true)
    (small : nowUs ≤ maxU64) (steady : Steady s react nowUs) : Passed react nowUs s (s.tickDue react nowUs) := by
  unfold Timers.tickDue
  rw [if_neg fine]
  exact tickEntries_passed steady small inv.apart s.timers.size (inv.settled (Bool.eq_false_iff.mpr fine)).start
    (List.countP_le_length.trans (Nat.le_of_eq Array.length_toList))

theorem inv_step {s : Timers} {event : Event} (inv : Inv s) (ordinary : Ordinary s event) (sound : Sound s event) :
    Inv (step s event) := by
  cases event with
  | openSlot key wakeGranted deadline armGranted => exact inv.opened ordinary wakeGranted deadline armGranted
  | wakeSlot key granted => exact inv.woken (s.wakeSlot_timers key granted) (Timers.wakeSlot_listed inv.listed key granted)
  | takeReady => exact inv.woken s.takeReady_timers (Timers.takeReady_spec inv.listed).1
  | slotDrained key deadline granted => exact inv.drained key deadline granted sound
  | tick react =>
    obtain ⟨same,listed⟩ := Timers.tickFrom_spec react s s.keys
    exact inv.woken same (listed inv.listed)
  | tickDue react nowUs =>
    dsimp only [Sound] at sound
    by_cases degraded : s.timersDegraded = true
    · rw [if_pos degraded] at sound
      exact inv.rebuilt degraded sound
    · rw [if_neg degraded] at sound
      exact (inv_passed inv degraded ordinary sound).settled.inv
  | nextDeadline reported =>
    change Inv (s.nextDeadline reported).1
    unfold Timers.nextDeadline
    by_cases degraded : s.timersDegraded = true
    · rw [if_pos degraded]
      exact inv
    · rw [if_neg degraded]
      exact (nextEntry_spec (inv.settled (Bool.eq_false_iff.mpr degraded)) s.timers.size (Nat.le_refl _)).1.inv
  | reap closed willClose => exact inv.reapFrom closed willClose s.slots.size
  | discardStillbornSlot => exact inv.discarded

theorem inv_served {s : Timers} {event : Event} (inv : Inv s) (ordinary : Ordinary s event) (sound : Sound s event) :
    Served s event := by
  cases event with
  | nextDeadline reported =>
    intro fine
    unfold Timers.nextDeadline
    rw [if_neg (Bool.eq_false_iff.mp fine)]
    exact (nextEntry_spec (inv.settled fine) s.timers.size (Nat.le_refl _)).2.2
  | tickDue react nowUs =>
    intro fine
    dsimp only [Sound] at sound
    rw [if_neg (Bool.eq_false_iff.mp fine)] at sound
    have passed := inv_passed inv (Bool.eq_false_iff.mp fine) ordinary sound
    exact ⟨passed.succeeded,passed.visited⟩
  | takeReady => exact fun slot there woken => (Timers.takeReady_spec inv.listed).2.1 slot.key woken (List.mem_map_of_mem there)
  | openSlot | wakeSlot | slotDrained | tick | reap | discardStillbornSlot => exact trivial

theorem inv_init : Inv {} := by
  refine ⟨List.nodup_nil,⟨fun _ there => absurd there List.not_mem_nil,fun _ there => absurd there List.not_mem_nil,
    fun k there => absurd there (Array.not_mem_empty k),fun k there => absurd there (Array.not_mem_empty k)⟩,
    ⟨fun i _ within => absurd within (Nat.not_lt_zero i),fun _ there => absurd there List.not_mem_nil⟩,
    fun _ _ there => absurd there List.not_mem_nil⟩

/-- The deadlines of a run whose passes are not cut short are kept, and every answer rests on all of them. -/
theorem deadlines_kept (events : List Event)
    (admitted : System.Admits step (fun s event => Ordinary s event ∧ Sound s event) {} events) :
    System.Throughout Good step {} events ∧ System.Admits step Served {} events := by
  have preserved : ∀ s event, Inv s → Ordinary s event ∧ Sound s event → Inv (step s event) := fun s event inv met =>
    inv_step inv met.1 met.2
  refine ⟨?_,System.Admits.under preserved (fun s event inv met => inv_served inv met.1 met.2) inv_init admitted⟩
  refine System.Throughout.of_reaches (fun s reached => ?_) (@System.Reaches.start _ _ (· = {}) step _ _ rfl) admitted
  exact (reached.invariant Inv (by rintro s rfl; exact inv_init) preserved).good

instance (timers : Array TimerEntry) (a : Arming) : Decidable (a.Clear timers) :=
  inferInstanceAs (Decidable (∀ e ∈ timers.toList,_))

def idleAt (atUs : Nat) : Option TimerDeadline := some {kind := .idle,atUs := atUs}

/-- The tick sends something, and the connection has a new deadline. -/
def lively (_ : Key) : Reaction := {touches := [true],deadline := idleAt 90}

theorem deadlines_kept_once :
    System.Throughout Good step {} [.openSlot 1 true (idleAt 10) true,.openSlot 2 true (idleAt 40) true,.tickDue lively 20,
      .takeReady,.slotDrained 1 (idleAt 60) true,.nextDeadline fun _ => none] ∧
    System.Admits step Served {} [.openSlot 1 true (idleAt 10) true,.openSlot 2 true (idleAt 40) true,.tickDue lively 20,
      .takeReady,.slotDrained 1 (idleAt 60) true,.nextDeadline fun _ => none] :=
  deadlines_kept _ ⟨⟨(by decide : 1 ∉ Timers.keys {}),trivial⟩,
    ⟨(by decide +kernel : 2 ∉ Timers.keys (step {} (.openSlot 1 true (idleAt 10) true))),trivial⟩,
    ⟨(by decide : 20 ≤ maxU64),(if_neg (by decide +kernel)).mpr ⟨by decide +kernel,by decide +kernel,fun last => absurd last (by decide)⟩⟩,
    ⟨trivial,trivial⟩,⟨trivial,fun _ => by decide +kernel⟩,⟨trivial,trivial⟩,trivial⟩

/-- The entry of a slot whose tick fails is off the heap, and the slot is still armed. -/
theorem failed_tick_disarms :
    ¬System.Throughout Good step {} [.openSlot 1 true (idleAt 10) true,.tickDue (fun _ => {fails := true}) 20] := by
  intro all
  obtain ⟨e,only,_⟩ := all.last.armed (by decide +kernel) ⟨1,true,1,some 10⟩ (by decide +kernel) 10 rfl
  have none : (System.run step {} [.openSlot 1 true (idleAt 10) true,.tickDue (fun _ => {fails := true}) 20]).timers = #[] := by
    decide +kernel
  rw [none] at only
  nomatch only

end QuicZig.Server
