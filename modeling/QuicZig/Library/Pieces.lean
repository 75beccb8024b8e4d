import Mathlib.Data.List.Range

/-! Pieces of a sequence without end. A piece is named by where it starts and how long
it is; pieces that meet make up one piece, and a piece can be cut anywhere. -/
namespace QuicZig.Pieces

section
variable {α : Type*}

def piece (sequence : Nat → α) (offset n : Nat) : List α := (List.range' offset n).map sequence

variable {sequence : Nat → α}

@[simp] theorem length_piece (offset n : Nat) : (piece sequence offset n).length = n := by simp [piece]

theorem piece_append (offset m n : Nat) :
    piece sequence offset m ++ piece sequence (offset+m) n = piece sequence offset (m+n) := by
  unfold piece
  rw [← List.map_append]
  congr 1
  have joined : List.range' offset m 1 ++ List.range' (offset+1*m) n 1 = List.range' offset (m+n) 1 := List.range'_append
  rwa [Nat.one_mul] at joined

theorem piece_append_zero (m n : Nat) : piece sequence 0 m ++ piece sequence m n = piece sequence 0 (m+n) := by
  have joined : piece sequence 0 m ++ piece sequence (0+m) n = piece sequence 0 (m+n) := piece_append 0 m n
  rwa [Nat.zero_add] at joined

theorem piece_drop (offset n k : Nat) : (piece sequence offset n).drop k = piece sequence (offset+k) (n-k) := by
  rcases Nat.le_total k n with inside | past
  · obtain ⟨rest,rfl⟩ := Nat.exists_eq_add_of_le inside
    rw [← piece_append,List.drop_left' (length_piece _ _),Nat.add_sub_cancel_left]
  · rw [List.drop_of_length_le (by rw [length_piece]; exact past),Nat.sub_eq_zero_of_le past]
    rfl

theorem piece_take (offset n k : Nat) (inside : k ≤ n) : (piece sequence offset n).take k = piece sequence offset k := by
  obtain ⟨rest,rfl⟩ := Nat.exists_eq_add_of_le inside
  rw [← piece_append,List.take_left' (length_piece _ _)]

end

end QuicZig.Pieces
