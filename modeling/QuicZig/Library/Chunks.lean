import Mathlib.Data.List.Range
import Mathlib.Tactic.TypeStar

/-! A list cut into pieces of one stride, the last of which may be shorter. -/
namespace QuicZig.Chunks

variable {α : Type*}

/-- The pieces of `data`, from its start; a stride of zero makes none. -/
def cut (stride : Nat) (data : List α) : List (List α) :=
  (List.range ((data.length+stride-1)/stride)).map fun i => (data.drop (i*stride)).take stride

@[simp] theorem cut_nil (stride : Nat) : cut stride ([] : List α) = [] := by
  unfold cut
  cases stride with
  | zero =>
    rw [Nat.div_zero]
    rfl
  | succ n =>
    have none : (([] : List α).length+(n+1)-1)/(n+1) = 0 := Nat.div_eq_of_lt (by simp)
    rw [none]
    rfl

theorem cut_cons {stride : Nat} (positive : 0 < stride) {data : List α} (some : data ≠ []) :
    cut stride data = data.take stride::cut stride (data.drop stride) := by
  have length := List.length_pos_iff.mpr some
  have count : (data.length+stride-1)/stride = ((data.drop stride).length+stride-1)/stride+1 := by
    rw [List.length_drop]
    by_cases long : stride ≤ data.length
    · have again : data.length+stride-1 = data.length-stride+stride-1+stride := by omega
      rw [again,Nat.add_div_right _ positive]
    · have last : data.length-stride = 0 := by omega
      have one : data.length+stride-1 = data.length-1+stride := by omega
      rw [last,one,Nat.add_div_right _ positive,Nat.div_eq_of_lt (by omega),Nat.div_eq_of_lt (by omega)]
  unfold cut
  rw [count,List.range_succ_eq_map,List.map_cons,List.map_map,Nat.zero_mul,List.drop_zero]
  congr 1
  refine List.map_congr_left fun i _ => ?_
  change (data.drop ((i+1)*stride)).take stride = ((data.drop stride).drop (i*stride)).take stride
  rw [List.drop_drop,Nat.succ_mul,Nat.add_comm]

theorem flatten_cut {stride : Nat} (positive : 0 < stride) (data : List α) : (cut stride data).flatten = data := by
  induction length : data.length using Nat.strong_induction_on generalizing data with
  | _ n ih =>
    by_cases none : data = []
    · simp [none]
    · have some := List.length_pos_iff.mpr none
      have fewer : (data.drop stride).length < n := by
        rw [← length,List.length_drop]
        omega
      rw [cut_cons positive none,List.flatten_cons,ih _ fewer _ rfl,List.take_append_drop]

/-- All pieces but the last have the length of the stride, and the last one is no longer. -/
def Strided (stride : Nat) (pieces : List (List α)) : Prop :=
  (∀ piece ∈ pieces.dropLast, piece.length = stride) ∧ ∀ piece ∈ pieces.getLast?, piece.length ≤ stride

theorem Strided.tail {stride : Nat} {piece next : List α} {rest : List (List α)}
    (strided : Strided stride (piece::next::rest)) :
    piece.length = stride ∧ Strided stride (next::rest) := by
  obtain ⟨full,last⟩ := strided
  rw [List.dropLast_cons_cons] at full
  rw [List.getLast?_cons_cons] at last
  exact ⟨full piece List.mem_cons_self,fun p member => full p (List.mem_cons_of_mem _ member),last⟩

theorem strided_concat {stride : Nat} {pieces : List (List α)} {piece : List α} (full : ∀ p ∈ pieces, p.length = stride)
    (short : piece.length ≤ stride) : Strided stride (pieces ++ [piece]) := by
  refine ⟨?_,?_⟩
  · rw [List.dropLast_concat]
    exact full
  · rw [List.getLast?_concat]
    intro p same
    rw [Option.mem_some_iff] at same
    exact same ▸ short

theorem strided_zero {pieces : List (List α)} (strided : Strided 0 pieces) : pieces.flatten = [] := by
  induction pieces with
  | nil => rfl
  | cons piece rest ih =>
    cases rest with
    | nil => simpa using strided.2 piece (by simp)
    | cons next rest =>
      obtain ⟨none,later⟩ := strided.tail
      rw [List.flatten_cons,List.eq_nil_of_length_eq_zero none,ih later]
      rfl

/-- Cutting what was put together gives the pieces back, if none of them is empty. -/
theorem cut_flatten {stride : Nat} (positive : 0 < stride) {pieces : List (List α)} (strided : Strided stride pieces)
    (real : ∀ piece ∈ pieces, piece ≠ []) : cut stride pieces.flatten = pieces := by
  induction pieces with
  | nil => exact cut_nil stride
  | cons piece rest ih =>
    have here := real piece List.mem_cons_self
    have others := fun p member => real p (List.mem_cons_of_mem _ member)
    cases rest with
    | nil =>
      have short : piece.length ≤ stride := strided.2 piece (by simp)
      rw [List.flatten_cons,List.flatten_nil,List.append_nil,cut_cons positive here,List.take_of_length_le short,
        List.drop_eq_nil_of_le short,cut_nil]
    | cons next rest =>
      obtain ⟨full,later⟩ := strided.tail
      have some : (piece::next::rest).flatten ≠ [] := by
        rw [List.flatten_cons]
        exact List.append_ne_nil_of_left_ne_nil here _
      rw [cut_cons positive some,List.flatten_cons,List.take_left' full,List.drop_left' full,ih later others]

theorem length_cut_flatten {stride : Nat} {pieces : List (List α)} (strided : Strided stride pieces) :
    (cut stride pieces.flatten).length ≤ pieces.length ∧
      (0 < pieces.length → (∃ piece ∈ pieces, piece = []) → (cut stride pieces.flatten).length < pieces.length) := by
  rcases Nat.eq_zero_or_pos stride with zero | positive
  · have none : cut stride pieces.flatten = [] := by
      unfold cut
      rw [zero,Nat.div_zero]
      rfl
    rw [none]
    exact ⟨Nat.zero_le _,fun some _ => some⟩
  · induction pieces with
    | nil => exact ⟨by simp,fun some => absurd some (by simp)⟩
    | cons piece rest ih =>
      cases rest with
      | nil =>
        have short : piece.length ≤ stride := strided.2 piece (by simp)
        rw [List.flatten_cons,List.flatten_nil,List.append_nil]
        by_cases none : piece = []
        · rw [none,cut_nil]
          exact ⟨by simp,by simp⟩
        · rw [cut_cons positive none,List.drop_eq_nil_of_le short,cut_nil]
          refine ⟨Nat.le_refl _,?_⟩
          rintro - ⟨p,member,empty⟩
          rw [List.mem_singleton.mp member] at empty
          exact absurd empty none
      | cons next rest =>
        obtain ⟨full,later⟩ := strided.tail
        obtain ⟨most,fewer⟩ := ih later
        have here : piece ≠ [] := List.length_pos_iff.mp (full ▸ positive)
        have some : (piece::next::rest).flatten ≠ [] := by
          rw [List.flatten_cons]
          exact List.append_ne_nil_of_left_ne_nil here _
        have split : cut stride (piece::next::rest).flatten = piece::cut stride (next::rest).flatten := by
          rw [cut_cons positive some,List.flatten_cons,List.take_left' full,List.drop_left' full]
        rw [split,List.length_cons,List.length_cons (a := piece)]
        refine ⟨Nat.succ_le_succ most,?_⟩
        rintro - ⟨p,member,empty⟩
        rcases List.mem_cons.mp member with same | inside
        · exact absurd (same ▸ empty) here
        · exact Nat.succ_lt_succ (fewer (Nat.succ_pos _) ⟨p,inside,empty⟩)

end QuicZig.Chunks
