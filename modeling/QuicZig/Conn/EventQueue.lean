import Mathlib.Data.List.Rotate
import QuicZig.Library.Refinement
import QuicZig.Library.Ring

/-! The bounded queues of the events that an embedder polls. The entries lie in a ring; a full ring drops its oldest entry. -/
namespace QuicZig.Ring

theorem window_start {α : Type*} [Inhabited α] (cells : List α) (count : Nat) (room : count ≤ cells.length) :
    window cells 0 count = cells.take count := by
  have whole := window_prefix (cells.take count) (cells.drop count)
  rw [List.take_append_drop,List.length_take,Nat.min_eq_left room] at whole
  exact whole

end QuicZig.Ring

namespace QuicZig.Conn

/-- `readIdx` is the cell of the oldest of `len` entries. -/
structure EventQueue (T : Type) where
  items : List T
  readIdx : Nat := 0
  len : Nat := 0

namespace EventQueue
open QuicZig.System Refinement

variable {T : Type} [Inhabited T]

def cap (q : EventQueue T) : Nat := q.items.length

def push (q : EventQueue T) (value : T) : EventQueue T :=
  if q.len = q.cap then
    {q with
      items := q.items.set q.readIdx value
      readIdx := (q.readIdx+1)%q.cap}
  else
    {q with
      items := q.items.set ((q.readIdx+q.len)%q.cap) value
      len := q.len+1}

def pop (q : EventQueue T) : Option T × EventQueue T :=
  if q.len = 0 then (none,q)
  else (some (q.items.getD q.readIdx default),
    {q with
      len := q.len-1
      readIdx := if q.len-1 = 0 then 0 else (q.readIdx+1)%q.cap})

def compact (q : EventQueue T) : EventQueue T :=
  if q.readIdx = 0 then q else {q with items := q.items.rotate q.readIdx,readIdx := 0}

def slice (q : EventQueue T) : List T × EventQueue T := (q.compact.items.take q.compact.len,q.compact)

/-- The call asserts that `index` is below `len`. -/
def removeAt (q : EventQueue T) (index : Nat) : EventQueue T :=
  let q := q.compact
  {q with
    items := if index+1 < q.len then Ring.store q.items index ((q.items.drop (index+1)).take (q.len-1-index)) else q.items
    len := q.len-1}

/-! The queue as a list, oldest entry first. -/

def contents (q : EventQueue T) : List T := Ring.window q.items q.readIdx q.len

structure Sound (q : EventQueue T) : Prop where
  start : q.readIdx < q.cap
  fits : q.len ≤ q.cap

def latest (n : Nat) (list : List T) : List T := list.drop (list.length-n)

omit [Inhabited T] in
theorem latest_of_le {n : Nat} {list : List T} (short : list.length ≤ n) : latest n list = list := by
  unfold latest
  rw [Nat.sub_eq_zero_of_le short,List.drop_zero]

@[simp] theorem length_contents (q : EventQueue T) : q.contents.length = q.len := Ring.length_window _ _ _

theorem push_spec {q : EventQueue T} (sound : q.Sound) (value : T) :
    (q.push value).Sound ∧ (q.push value).cap = q.cap ∧ (q.push value).contents = latest q.cap (q.contents ++ [value]) := by
  obtain ⟨start,fits⟩ := sound
  have room : 0 < q.cap := Nat.zero_lt_of_lt start
  unfold push
  by_cases full : q.len = q.cap
  · rw [if_pos full]
    have turned : Ring.slot q.cap (Ring.slot q.cap q.readIdx 1) (q.cap-1) = q.readIdx := by
      rw [Ring.slot_slot,Nat.add_sub_cancel' room,Ring.slot,Nat.add_mod_right,Nat.mod_eq_of_lt start]
    have pushed := Ring.window_push q.items (Ring.slot q.cap q.readIdx 1) (q.cap-1) value (Nat.sub_lt room Nat.one_pos)
    have shifted := Ring.drop_window q.items q.readIdx q.cap 1
    change Ring.window (q.items.set (Ring.slot q.cap (Ring.slot q.cap q.readIdx 1) (q.cap-1)) value) _ _ = _ at pushed
    rw [turned,Nat.sub_add_cancel room] at pushed
    have length := length_contents q
    refine ⟨⟨?_,?_⟩,List.length_set,?_⟩
    · change _ < (q.items.set q.readIdx value).length
      rw [List.length_set]
      exact Nat.mod_lt _ room
    · change q.len ≤ (q.items.set q.readIdx value).length
      rw [List.length_set]
      exact fits
    · have drops : (q.contents ++ [value]).length-q.cap = 1 := by
        rw [List.length_append,length,List.length_singleton]
        omega
      unfold latest
      rw [drops,List.drop_append_of_le_length (by omega)]
      change Ring.window (q.items.set q.readIdx value) (Ring.slot q.cap q.readIdx 1) q.len =
        (Ring.window q.items q.readIdx q.len).drop 1 ++ [value]
      rw [full,pushed,shifted]
      rfl
  · rw [if_neg full]
    have more : q.len < q.cap := Nat.lt_of_le_of_ne fits full
    refine ⟨⟨?_,?_⟩,List.length_set,?_⟩
    · change _ < (q.items.set _ value).length
      rw [List.length_set]
      exact start
    · change q.len+1 ≤ (q.items.set _ value).length
      rw [List.length_set]
      exact more
    · rw [latest_of_le (by rw [List.length_append,length_contents]; exact more)]
      exact Ring.window_push q.items q.readIdx q.len value more

theorem pop_spec {q : EventQueue T} (sound : q.Sound) :
    q.pop.2.Sound ∧ q.pop.2.cap = q.cap ∧ q.pop.1 = q.contents.head? ∧ q.pop.2.contents = q.contents.tail := by
  obtain ⟨start,fits⟩ := sound
  have room : 0 < q.cap := Nat.zero_lt_of_lt start
  unfold pop
  by_cases none : q.len = 0
  · rw [if_pos none]
    unfold contents
    rw [none]
    exact ⟨⟨start,fits⟩,rfl,rfl,rfl⟩
  · rw [if_neg none]
    refine ⟨⟨?_,?_⟩,rfl,?_,?_⟩
    · change (if q.len-1 = 0 then 0 else (q.readIdx+1)%q.cap) < q.cap
      split
      · exact room
      · exact Nat.mod_lt _ room
    · exact Nat.le_trans (Nat.sub_le _ _) fits
    · have first := Ring.getElem?_window q.items q.readIdx q.len 0 (Nat.pos_of_ne_zero none)
      have here : Ring.slot q.items.length q.readIdx 0 = q.readIdx := Nat.mod_eq_of_lt start
      rw [contents,List.head?_eq_getElem?,first,Ring.peek,here]
    · have shifted := Ring.drop_window q.items q.readIdx q.len 1
      rw [List.drop_one] at shifted
      unfold contents
      rw [shifted]
      dsimp only
      split
      · rename_i last
        rw [last]
        rfl
      · rfl

theorem compact_spec {q : EventQueue T} (sound : q.Sound) :
    q.compact.Sound ∧ q.compact.cap = q.cap ∧ q.compact.len = q.len ∧ q.compact.items.take q.len = q.contents ∧
      q.compact.readIdx = 0 := by
  obtain ⟨start,fits⟩ := sound
  have room : 0 < q.cap := Nat.zero_lt_of_lt start
  unfold compact
  by_cases zero : q.readIdx = 0
  · rw [if_pos zero]
    refine ⟨⟨start,fits⟩,rfl,rfl,?_,zero⟩
    rw [← Ring.window_start q.items q.len fits,contents,zero]
  · rw [if_neg zero]
    have size : (q.items.rotate q.readIdx).length = q.cap := List.length_rotate _ _
    refine ⟨⟨by rw [cap,size]; exact room,by rw [cap,size]; exact fits⟩,size,rfl,?_,rfl⟩
    change (q.items.rotate q.readIdx).take q.len = Ring.window q.items q.readIdx q.len
    rw [← Ring.window_start _ _ (by omega)]
    refine List.map_congr_left fun i member => ?_
    have inside : i < q.cap := Nat.lt_of_lt_of_le (List.mem_range.mp member) fits
    have there : Ring.slot q.items.length q.readIdx i < q.items.length := Ring.slot_lt _ _ _ room
    unfold Ring.peek
    rw [size,Ring.slot,Nat.zero_add,Nat.mod_eq_of_lt inside,List.getD_eq_getElem _ _ (by omega),List.getElem_rotate,
      List.getD_eq_getElem _ _ there]
    congr 1
    exact congrArg (· % q.cap) (Nat.add_comm _ _)

theorem removeAt_spec {q : EventQueue T} (sound : q.Sound) (index : Nat) (inside : index < q.len) :
    (q.removeAt index).Sound ∧ (q.removeAt index).cap = q.cap ∧ (q.removeAt index).contents = q.contents.eraseIdx index := by
  obtain ⟨⟨start,fits⟩,size,len,linear,front⟩ := compact_spec sound
  have size : q.compact.items.length = q.cap := size
  have fits : q.len ≤ q.cap := sound.fits
  have moved : ((q.compact.items.drop (index+1)).take (q.len-1-index)).length = q.len-1-index := by
    rw [List.length_take,List.length_drop,size]
    omega
  unfold removeAt
  dsimp only
  rw [len]
  generalize after : (if index+1 < q.len then Ring.store q.compact.items index
    ((q.compact.items.drop (index+1)).take (q.len-1-index))
    else q.compact.items) = items
  have length : items.length = q.cap := by
    rw [← after]
    split
    · rw [Ring.length_store _ _ _ (by rw [moved]; omega),size]
    · exact size
  refine ⟨⟨?_,?_⟩,length,?_⟩
  · change q.compact.readIdx < items.length
    rw [length,← size]
    exact start
  · change q.len-1 ≤ items.length
    omega
  · change Ring.window items q.compact.readIdx (q.len-1) = _
    rw [front,Ring.window_start _ _ (by omega),← linear,List.eraseIdx_eq_take_drop_succ,List.take_take,
      Nat.min_eq_left (Nat.le_of_lt inside),List.drop_take,← after]
    split
    · have head : (q.compact.items.take index).length = index := by
        rw [List.length_take]
        omega
      unfold Ring.store
      rw [List.take_left' (by rw [List.length_append,head,moved]; omega)]
      congr 2
      omega
    · have none : q.len-(index+1) = 0 := by omega
      have last : q.len-1 = index := by omega
      rw [none,last,List.take_zero,List.append_nil]

theorem slice_spec {q : EventQueue T} (sound : q.Sound) :
    q.slice.2.Sound ∧ q.slice.2.cap = q.cap ∧ q.slice.1 = q.contents ∧ q.slice.2.contents = q.contents := by
  obtain ⟨sound',size,len,linear,front⟩ := compact_spec sound
  have same : q.compact.items.take q.compact.len = q.contents := by rw [len,linear]
  refine ⟨sound',size,same,?_⟩
  change Ring.window q.compact.items q.compact.readIdx q.compact.len = q.contents
  rw [front,Ring.window_start _ _ sound'.fits,same]

/-! Runs of calls. -/

inductive Call (T : Type) where
  | push (value : T)
  | pop
  | removeAt (index : Nat)
  | slice

inductive Answer (T : Type) where
  | done
  | popped (value : Option T)
  | view (values : List T)

def step (q : EventQueue T) : Call T → EventQueue T
  | .push value => q.push value
  | .pop => q.pop.2
  | .removeAt index => q.removeAt index
  | .slice => q.slice.2

def answer (q : EventQueue T) : Call T → Answer T
  | .push _ => .done
  | .pop => .popped q.pop.1
  | .removeAt _ => .done
  | .slice => .view q.slice.1

def Allowed (q : EventQueue T) : Call T → Prop
  | .removeAt index => index < q.len
  | _ => True

instance (q : EventQueue T) (call : Call T) : Decidable (Allowed q call) :=
  match call with
  | .removeAt index => Nat.decLt index q.len
  | .push _ | .pop | .slice => isTrue trivial

def listStep (n : Nat) (list : List T) : Call T → List T
  | .push value => latest n (list ++ [value])
  | .pop => list.tail
  | .removeAt index => list.eraseIdx index
  | .slice => list

def listAnswer (list : List T) : Call T → Answer T
  | .push _ => .done
  | .pop => .popped list.head?
  | .removeAt _ => .done
  | .slice => .view list

structure Stands (n : Nat) (q : EventQueue T) (list : List T) : Prop where
  sound : q.Sound
  cap : q.cap = n
  contents : q.contents = list

theorem queue_simulates (n : Nat) : Simulates (Stands n) Allowed (answer (T := T)) step listAnswer (listStep n) where
  alike q list call stands allowed := by
    obtain ⟨sound,cap,rfl⟩ := stands
    cases call with
    | push value => rfl
    | pop => exact congrArg Answer.popped (pop_spec sound).2.2.1
    | removeAt index => rfl
    | slice => exact congrArg Answer.view (slice_spec sound).2.2.1
  kept q list call stands allowed := by
    obtain ⟨sound,rfl,rfl⟩ := stands
    cases call with
    | push value =>
      obtain ⟨sound',cap',contents⟩ := push_spec sound value
      exact ⟨sound',cap',contents⟩
    | pop =>
      obtain ⟨sound',cap',_,contents⟩ := pop_spec sound
      exact ⟨sound',cap',contents⟩
    | removeAt index =>
      obtain ⟨sound',cap',contents⟩ := removeAt_spec sound index allowed
      exact ⟨sound',cap',contents⟩
    | slice =>
      obtain ⟨sound',cap',_,contents⟩ := slice_spec sound
      exact ⟨sound',cap',contents⟩

def fresh (n : Nat) : EventQueue T := {items := List.replicate n default}

theorem fresh_stands {n : Nat} (room : 0 < n) : Stands n (fresh n : EventQueue T) [] := by
  refine ⟨⟨?_,Nat.zero_le _⟩,List.length_replicate,rfl⟩
  change 0 < (List.replicate n default).length
  rw [List.length_replicate]
  exact room

/-- Over every run of calls the ring answers as the bounded list does, and shows it. -/
theorem ring_is_bounded_list {n : Nat} (room : 0 < n) (calls : List (Call T))
    (allowed : Admits step Allowed (fresh n) calls) :
    answers answer step (fresh n) calls = answers listAnswer (listStep n) [] calls ∧
      (run step (fresh n) calls).contents = run (listStep n) [] calls := by
  obtain ⟨same,stands⟩ := (queue_simulates n).run (fresh_stands room) allowed
  exact ⟨same,stands.contents⟩

/-- A full ring of three, popped from and pushed to past its end. -/
theorem ring_is_bounded_list_wrapped :
    (run step (fresh 3 : EventQueue Nat) [.push 1,.push 2,.push 3,.push 4,.pop,.push 5,.removeAt 1]).contents = [3,5] :=
  (ring_is_bounded_list (by decide) [.push 1,.push 2,.push 3,.push 4,.pop,.push 5,.removeAt 1]
    (by decide)).2

end EventQueue

end QuicZig.Conn
