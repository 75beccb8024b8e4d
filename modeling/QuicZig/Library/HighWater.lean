import Mathlib.Algebra.BigOperators.Group.Finset.Basic
import Mathlib.Algebra.Order.BigOperators.Group.Finset
import Mathlib.Tactic.Linarith

/-! High-water marks. A log notes levels under keys, in any order and as often as it
likes; the mark of a key is the highest level noted for it, and the total is the sum
of the marks. A new level adds to the total what it rises above its mark. -/
namespace QuicZig.HighWater

section
variable {κ : Type*} [DecidableEq κ]

def mark : List (κ × Nat) → κ → Nat
  | [],_ => 0
  | (key,level)::rest,k => if key = k then max level (mark rest k) else mark rest k

def keys (log : List (κ × Nat)) : Finset κ := (log.map Prod.fst).toFinset

def total (log : List (κ × Nat)) : Nat := ∑ k ∈ keys log, mark log k

@[simp] theorem mark_nil (k : κ) : mark [] k = 0 := rfl

@[simp] theorem mark_same (k : κ) (level : Nat) (log : List (κ × Nat)) : mark ((k,level)::log) k = max level (mark log k) :=
  if_pos rfl

theorem mark_other {key k : κ} (other : key ≠ k) (level : Nat) (log : List (κ × Nat)) :
    mark ((key,level)::log) k = mark log k := if_neg other

@[simp] theorem total_nil : total ([] : List (κ × Nat)) = 0 := rfl

theorem mark_le_iff {log : List (κ × Nat)} {k : κ} {bound : Nat} :
    mark log k ≤ bound ↔ ∀ level, (k,level) ∈ log → level ≤ bound := by
  induction log with
  | nil => exact ⟨fun _ _ none => absurd none List.not_mem_nil,fun _ => Nat.zero_le _⟩
  | cons entry rest ih =>
    obtain ⟨key,level⟩ := entry
    by_cases same : key = k
    · subst same
      rw [mark_same,max_le_iff,ih]
      constructor
      · intro both other member
        rcases List.mem_cons.mp member with first | later
        · exact (Prod.mk.inj first).2 ▸ both.1
        · exact both.2 other later
      · intro all
        exact ⟨all level List.mem_cons_self,fun other later => all other (List.mem_cons_of_mem _ later)⟩
    · rw [mark_other same,ih]
      constructor
      · intro all other member
        rcases List.mem_cons.mp member with first | later
        · exact absurd (Prod.mk.inj first).1.symm same
        · exact all other later
      · intro all other later
        exact all other (List.mem_cons_of_mem _ later)

theorem le_mark {log : List (κ × Nat)} {k : κ} {level : Nat} (noted : (k,level) ∈ log) : level ≤ mark log k :=
  mark_le_iff.mp le_rfl level noted

theorem mark_mono {log more : List (κ × Nat)} (sub : ∀ entry ∈ log, entry ∈ more) (k : κ) : mark log k ≤ mark more k :=
  mark_le_iff.mpr fun _ noted => le_mark (sub _ noted)

theorem mark_absent {log : List (κ × Nat)} {k : κ} (absent : k ∉ keys log) : mark log k = 0 := by
  refine Nat.le_zero.mp (mark_le_iff.mpr fun level noted => absurd ?_ absent)
  exact List.mem_toFinset.mpr (List.mem_map_of_mem (f := Prod.fst) noted)

theorem total_over {log : List (κ × Nat)} {s : Finset κ} (all : keys log ⊆ s) : ∑ k ∈ s, mark log k = total log :=
  (Finset.sum_subset all fun _ _ absent => mark_absent absent).symm

theorem keys_cons (entry : κ × Nat) (log : List (κ × Nat)) : keys (entry::log) = insert entry.1 (keys log) := by
  simp [keys]

theorem total_cons (k : κ) (level : Nat) (log : List (κ × Nat)) :
    total ((k,level)::log) = total log + (level-mark log k) := by
  have all : keys log ⊆ insert k (keys log) := Finset.subset_insert _ _
  have split (f : κ → Nat) : ∑ j ∈ insert k (keys log), f j = f k + ∑ j ∈ (insert k (keys log)).erase k, f j :=
    (Finset.add_sum_erase _ f (Finset.mem_insert_self _ _)).symm
  have others : ∑ j ∈ (insert k (keys log)).erase k, mark ((k,level)::log) j =
      ∑ j ∈ (insert k (keys log)).erase k, mark log j :=
    Finset.sum_congr rfl fun j member => mark_other (Finset.ne_of_mem_erase member).symm _ _
  rw [← total_over all]
  unfold total
  rw [keys_cons,split,split,others,mark_same]
  omega

theorem total_mono {log more : List (κ × Nat)} (sub : ∀ entry ∈ log, entry ∈ more) : total log ≤ total more := by
  have all : keys log ⊆ keys more := by
    intro k member
    obtain ⟨entry,noted,rfl⟩ := List.mem_map.mp (List.mem_toFinset.mp member)
    exact List.mem_toFinset.mpr (List.mem_map_of_mem (f := Prod.fst) (sub entry noted))
  rw [← total_over all]
  exact Finset.sum_le_sum fun k _ => mark_mono sub k

end

end QuicZig.HighWater
