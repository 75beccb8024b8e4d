import Mathlib.Data.List.TakeDrop

/-! The sweep of an array in place: what is kept moves down over what is not, in order. -/
namespace QuicZig.Sweep

variable {α : Type*} (keep : α → Bool)

/-- `left` cells are still to be read, from `read` on; the next one that is kept goes to `write`. -/
def sweep (cells : List α) : Nat → Nat → Nat → List α × Nat
  | 0,_,write => (cells,write)
  | left+1,read,write =>
    match cells[read]? with
    | none => (cells,write)
    | some x =>
      if keep x then sweep (if write ≠ read then cells.set write x else cells) left (read+1) (write+1)
      else sweep cells left (read+1) write

variable {keep}

theorem length_sweep (cells : List α) (left read write : Nat) : (sweep keep cells left read write).1.length = cells.length := by
  induction left generalizing cells read write with
  | zero => rfl
  | succ left ih =>
    unfold sweep
    split
    · rfl
    · split
      · rw [ih]
        split
        · exact List.length_set
        · rfl
      · exact ih cells (read+1) write

theorem sweep_end (cells : List α) (left read write : Nat) : (sweep keep cells left read write).2 ≤ write+left := by
  induction left generalizing cells read write with
  | zero => exact Nat.le_refl write
  | succ left ih =>
    unfold sweep
    split
    · exact Nat.le_add_right write _
    · split
      · exact Nat.le_trans (ih _ _ _) (by omega)
      · exact Nat.le_trans (ih _ _ _) (by omega)

theorem sweep_spec (cells : List α) (left read write : Nat) (behind : write ≤ read) (within : read+left ≤ cells.length) :
    (sweep keep cells left read write).1.take (sweep keep cells left read write).2 =
      cells.take write ++ ((cells.drop read).take left).filter keep := by
  induction left generalizing cells read write with
  | zero => simp [sweep]
  | succ left ih =>
    have here : read < cells.length := by omega
    have next : (cells.drop read).take (left+1) = cells[read]::(cells.drop (read+1)).take left := by
      rw [List.drop_eq_getElem_cons here,List.take_succ_cons]
    unfold sweep
    rw [List.getElem?_eq_getElem here,next]
    dsimp only
    split
    · rename_i kept
      rw [List.filter_cons_of_pos kept]
      have pushed : ∀ moved : List α, moved.length = cells.length → moved.take (write+1) = cells.take write ++ [cells[read]] →
          moved.drop (read+1) = cells.drop (read+1) →
          (sweep keep moved left (read+1) (write+1)).1.take (sweep keep moved left (read+1) (write+1)).2 =
            cells.take write ++ cells[read]::((cells.drop (read+1)).take left).filter keep := by
        intro moved size front back
        rw [ih moved (read+1) (write+1) (by omega) (by omega),front,back,List.append_assoc]
        rfl
      by_cases same : write = read
      · refine pushed _ (by simp [same]) ?_ (by simp [same])
        rw [if_neg (not_not.mpr same),same,List.take_succ_eq_append_getElem here]
      · have room : write < cells.length := by omega
        refine pushed _ (by simp [same]) ?_ ?_
        · rw [if_pos same,List.take_succ_eq_append_getElem (by simpa using room),List.take_set_of_le (Nat.le_refl write)]
          simp
        · rw [if_pos same,List.drop_set_of_lt (by omega)]
    · rename_i dropped
      rw [List.filter_cons_of_neg dropped]
      exact ih cells (read+1) write (by omega) (by omega)

end QuicZig.Sweep
