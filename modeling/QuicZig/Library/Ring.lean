import Mathlib.Data.List.Basic
import Mathlib.Data.List.GetD
import Mathlib.Data.Nat.ModEq
import Mathlib.Data.Nat.Bitwise
import Mathlib.Tactic.Ring

/-! Circular buffers. A block of cells and a head index show a window of
consecutive values: position `i` of the window is the cell `i` places after the
head, with wrap-around. The lemmas say what a write to a cell, a move of the
head and a block copy do to the window. -/
namespace QuicZig.Ring

section
variable {α : Type*}

def store (cells : List α) (at' : Nat) (data : List α) : List α :=
  cells.take at' ++ data ++ cells.drop (at' + data.length)

theorem length_store (cells : List α) (at' : Nat) (data : List α) (fits : at' + data.length ≤ cells.length) :
    (store cells at' data).length = cells.length := by
  simp only [store,List.length_append,List.length_take,List.length_drop]
  omega

theorem getElem?_store (cells : List α) (at' : Nat) (data : List α) (i : Nat)
    (fits : at' + data.length ≤ cells.length) :
    (store cells at' data)[i]? = if at' ≤ i ∧ i < at' + data.length then data[i-at']? else cells[i]? := by
  unfold store
  by_cases before : i < at'
  · rw [if_neg (by omega),List.append_assoc,List.getElem?_append_left (by simp; omega),List.getElem?_take]
    simp [before]
  · by_cases inside : i < at' + data.length
    · rw [if_pos (by omega),List.getElem?_append_left (by simp; omega),
        List.getElem?_append_right (by simp; omega)]
      simp [Nat.min_eq_left (by omega : at' ≤ cells.length)]
    · rw [if_neg (by omega),List.getElem?_append_right (by simp; omega),List.getElem?_drop]
      congr 1
      simp only [List.length_append,List.length_take,Nat.min_eq_left (by omega : at' ≤ cells.length)]
      omega

/-- The cell that holds position `i` of the window. -/
def slot (capacity head i : Nat) : Nat := (head + i) % capacity

theorem slot_lt (capacity head i : Nat) (room : 0 < capacity) : slot capacity head i < capacity :=
  Nat.mod_lt _ room

theorem slot_inj (capacity head i j : Nat) (hi : i < capacity) (hj : j < capacity)
    (same : slot capacity head i = slot capacity head j) : i = j := by
  have congruent : i ≡ j [MOD capacity] := Nat.ModEq.add_left_cancel' head same
  exact congruent.eq_of_lt_of_lt hi hj

theorem slot_slot (capacity head n i : Nat) :
    slot capacity (slot capacity head n) i = slot capacity head (n+i) := by
  simp [slot,Nat.mod_add_mod,Nat.add_assoc]

theorem slot_cases (capacity head i : Nat) (start : head < capacity) (turn : i < capacity) :
    slot capacity head i = if head + i < capacity then head + i else head + i - capacity := by
  unfold slot
  split
  · exact Nat.mod_eq_of_lt ‹_›
  · rw [Nat.mod_eq_sub_mod (by omega),Nat.mod_eq_of_lt (by omega)]

/-- `data` copied to the free cells after the window, in two pieces when it wraps. -/
def splice (cells : List α) (head count : Nat) (data : List α) : List α :=
  let tail := slot cells.length head count
  let first := min data.length (cells.length - tail)
  let once := store cells tail (data.take first)
  if first < data.length then store once 0 (data.drop first) else once

theorem getElem?_splice (cells : List α) (head count k : Nat) (data : List α) (start : head < cells.length)
    (room : count + data.length ≤ cells.length) :
    (splice cells head count data)[k]? =
      if slot cells.length head count ≤ k ∧ k < slot cells.length head count + data.length ∧ k < cells.length then
        data[k - slot cells.length head count]?
      else if k + cells.length < slot cells.length head count + data.length then
        data[k + cells.length - slot cells.length head count]?
      else cells[k]? := by
  have tail := slot_lt cells.length head count (by omega)
  unfold splice
  dsimp only
  generalize slot cells.length head count = t at tail
  by_cases wraps : min data.length (cells.length-t) < data.length
  · have first : min data.length (cells.length-t) = cells.length-t := by omega
    have once : (store cells t (data.take (cells.length-t))).length = cells.length :=
      length_store _ _ _ (by simp only [List.length_take]; omega)
    rw [if_pos wraps,first,getElem?_store _ _ _ _ (by rw [once,List.length_drop]; omega),
      getElem?_store _ _ _ _ (by rw [List.length_take]; omega),List.length_drop,List.length_take,
      List.getElem?_drop,List.getElem?_take]
    by_cases upper : t ≤ k ∧ k < cells.length
    · rw [if_neg (by omega),if_pos (by omega),if_pos (by omega),if_pos (by omega)]
    · by_cases lower : k + cells.length < t + data.length
      · rw [if_pos (by omega),if_neg (by omega),if_pos lower]
        congr 1
        omega
      · rw [if_neg (by omega),if_neg (by omega),if_neg (by omega),if_neg lower]
  · have first : min data.length (cells.length-t) = data.length := by omega
    rw [if_neg wraps,first,List.take_length,getElem?_store _ _ _ _ (by omega)]
    by_cases upper : t ≤ k ∧ k < t + data.length
    · rw [if_pos upper,if_pos (by omega)]
    · rw [if_neg upper,if_neg (by omega),if_neg (by omega)]

theorem length_splice (cells : List α) (head count : Nat) (data : List α) (start : head < cells.length)
    (room : count + data.length ≤ cells.length) : (splice cells head count data).length = cells.length := by
  have tail := slot_lt cells.length head count (by omega)
  have once : (store cells (slot cells.length head count)
      (data.take (min data.length (cells.length - slot cells.length head count)))).length = cells.length :=
    length_store _ _ _ (by simp only [List.length_take]; omega)
  unfold splice
  dsimp only
  split
  · rw [length_store _ _ _ (by rw [once,List.length_drop]; omega),once]
  · exact once

end

section
variable {α : Type*} [Inhabited α]

/-- The value at position `i` of the window. -/
def peek (cells : List α) (head i : Nat) : α := cells.getD (slot cells.length head i) default

def window (cells : List α) (head count : Nat) : List α := (List.range count).map (peek cells head)

@[simp] theorem length_window (cells : List α) (head count : Nat) :
    (window cells head count).length = count := by simp [window]

@[simp] theorem getElem_window (cells : List α) (head count i : Nat) (bound : i < (window cells head count).length) :
    (window cells head count)[i] = peek cells head i := by simp [window]

theorem getElem?_window (cells : List α) (head count i : Nat) (bound : i < count) :
    (window cells head count)[i]? = some (peek cells head i) := by
  rw [List.getElem?_eq_getElem (by simpa using bound),getElem_window]

@[simp] theorem window_zero (cells : List α) (head : Nat) : window cells head 0 = [] := rfl

theorem window_succ (cells : List α) (head count : Nat) :
    window cells head (count+1) = window cells head count ++ [peek cells head count] := by
  simp [window,List.range_succ]

theorem peek_slot (cells : List α) (head n i : Nat) :
    peek cells (slot cells.length head n) i = peek cells head (n+i) := by
  simp [peek,slot_slot]

theorem window_prefix (front back : List α) : window (front ++ back) 0 front.length = front := by
  apply List.ext_getElem
  · simp
  · intro i left right
    have inside : (0+i) % (front ++ back).length = i := by
      rw [Nat.zero_add]
      exact Nat.mod_eq_of_lt (by rw [List.length_append]; omega)
    rw [getElem_window,peek,slot,inside,List.getD_eq_getElem _ _ (by rw [List.length_append]; omega),
      List.getElem_append_left right]

theorem drop_window (cells : List α) (head count n : Nat) :
    (window cells head count).drop n = window cells (slot cells.length head n) (count-n) := by
  apply List.ext_getElem
  · simp
  · intro i left right
    simp [peek_slot]

theorem peek_set (cells : List α) (head i j : Nat) (value : α)
    (hi : i < cells.length) (hj : j < cells.length) :
    peek (cells.set (slot cells.length head i) value) head j =
      if i = j then value else peek cells head j := by
  have inside := slot_lt cells.length head j (by omega)
  unfold peek
  rw [List.length_set,List.getD_eq_getElem _ _ (by simpa using inside),List.getElem_set,
    List.getD_eq_getElem _ _ inside]
  by_cases same : i = j
  · simp [same]
  · have apart : slot cells.length head i ≠ slot cells.length head j :=
      fun equal => same (slot_inj _ _ _ _ hi hj equal)
    simp [same,apart]

theorem window_set (cells : List α) (head count i : Nat) (value : α)
    (hi : i < cells.length) (full : count ≤ cells.length) :
    window (cells.set (slot cells.length head i) value) head count = (window cells head count).set i value := by
  apply List.ext_getElem
  · simp
  · intro j left right
    have bound : j < count := by simpa using left
    simp only [getElem_window,List.getElem_set]
    exact peek_set cells head i j value hi (by omega)

theorem window_push (cells : List α) (head count : Nat) (value : α) (room : count < cells.length) :
    window (cells.set (slot cells.length head count) value) head (count+1) =
      window cells head count ++ [value] := by
  rw [window_succ,peek_set _ _ _ _ _ room room,window_set _ _ _ _ _ room (by omega),
    List.set_eq_of_length_le (by simp)]
  simp

theorem slice_window (cells : List α) (head count start run : Nat)
    (within : start + run ≤ count) (straight : slot cells.length head start + run ≤ cells.length) :
    (cells.drop (slot cells.length head start)).take run = ((window cells head count).drop start).take run := by
  apply List.ext_getElem
  · simp only [List.length_take,List.length_drop,length_window]
    omega
  · intro i left right
    have bound : i < run := by simp at left; omega
    have inside : slot cells.length head start + i < cells.length := by omega
    have same : slot cells.length head (start+i) = slot cells.length head start + i := by
      rw [← slot_slot]
      exact Nat.mod_eq_of_lt inside
    simp only [List.getElem_take,List.getElem_drop,getElem_window,peek,same]
    rw [List.getD_eq_getElem _ _ inside]

theorem window_splice (cells : List α) (head count : Nat) (data : List α) (start : head < cells.length)
    (room : count + data.length ≤ cells.length) :
    window (splice cells head count data) head (count+data.length) = window cells head count ++ data := by
  have size := length_splice cells head count data start room
  apply List.ext_getElem?
  intro i
  by_cases bound : i < count + data.length
  · have turn : slot cells.length head i < cells.length := slot_lt _ _ _ (by omega)
    have read : some (peek (splice cells head count data) head i) =
        (splice cells head count data)[slot cells.length head i]? := by
      rw [peek,size,List.getD_eq_getElem _ _ (by omega),List.getElem?_eq_getElem (by omega)]
    rw [getElem?_window _ _ _ _ bound,read,getElem?_splice cells head count _ data start room]
    have place := slot_cases cells.length head i start (by omega)
    by_cases old : i < count
    · have free := slot_cases cells.length head count start
      rw [List.getElem?_append_left (by simpa using old),getElem?_window _ _ _ _ old,peek,
        List.getD_eq_getElem _ _ turn,← List.getElem?_eq_getElem turn]
      by_cases nothing : data.length = 0
      · rw [if_neg (by omega),if_neg (by have := slot_lt cells.length head count (by omega); omega)]
      · have free := free (by omega)
        split at place <;> split at free <;> rw [if_neg (by omega),if_neg (by omega)]
    · have free := slot_cases cells.length head count start (by omega)
      rw [List.getElem?_append_right (by simpa using old),length_window]
      split at place <;> split at free
      · rw [if_pos (by omega)]
        congr 1
        omega
      · rw [if_pos (by omega)]
        congr 1
        omega
      · rw [if_neg (by omega),if_pos (by omega)]
        congr 1
        omega
      · rw [if_pos (by omega)]
        congr 1
        omega
  · rw [List.getElem?_eq_none (by simp; omega),List.getElem?_eq_none (by simp; omega)]

/-- A window read piece by piece: up to the end of the block, then from its start. -/
theorem window_wrap (cells : List α) (head count : Nat) (start : head < cells.length) (room : count ≤ cells.length) :
    window cells head count =
      (cells.drop head).take (min count (cells.length-head)) ++ cells.take (count - min count (cells.length-head)) := by
  apply List.ext_getElem?
  intro i
  by_cases bound : i < count
  · rw [getElem?_window _ _ _ _ bound,peek,slot_cases _ _ _ start (by omega)]
    split
    · rename_i straight
      rw [List.getElem?_append_left (by simp; omega),List.getElem?_take,if_pos (by omega),List.getElem?_drop,
        List.getD_eq_getElem _ _ straight,List.getElem?_eq_getElem straight]
    · rename_i wrapped
      rw [List.getElem?_append_right (by simp; omega),List.getElem?_take]
      simp only [List.length_take,List.length_drop]
      rw [if_pos (by omega),List.getD_eq_getElem _ _ (by omega),List.getElem?_eq_getElem (by omega)]
      congr 2
      omega
  · rw [List.getElem?_eq_none (by simp; omega),List.getElem?_eq_none (by simp; omega)]

end

end QuicZig.Ring
