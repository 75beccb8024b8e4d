import Mathlib.Tactic
import Mathlib.Algebra.BigOperators.Group.List.Basic
import Mathlib.Data.List.Nodup
import Mathlib.Logic.Function.Basic
import QuicZig.Library.FirstMatch

/-! Accounts that are sums. A table gives each key its entry, and the total counts the
entries of a list of keys; what one entry gains or loses, the total gains or loses. -/
namespace QuicZig.Ledger

section
variable {κ α : Type*} (worth : α → Nat)

def total (table : κ → α) (keys : List κ) : Nat := (keys.map fun k => worth (table k)).sum

variable {worth} {table : κ → α}

theorem total_cons (k : κ) (keys : List κ) : total worth table (k::keys) = worth (table k)+total worth table keys := by
  unfold total
  rw [List.map_cons,List.sum_cons]

theorem total_append (first second : List κ) :
    total worth table (first ++ second) = total worth table first+total worth table second := by
  unfold total
  rw [List.map_append,List.sum_append]

theorem total_congr {other : κ → α} {keys : List κ} (same : ∀ k ∈ keys, worth (other k) = worth (table k)) :
    total worth other keys = total worth table keys := by
  unfold total
  rw [List.map_congr_left same]

theorem worth_le_total {k : κ} {keys : List κ} (member : k ∈ keys) : worth (table k) ≤ total worth table keys := by
  obtain ⟨before,after,rfl⟩ := List.append_of_mem member
  rw [total_append,total_cons]
  omega

theorem total_filter (keys : List κ) : total worth table (keys.filter fun k => worth (table k) ≠ 0) = total worth table keys := by
  induction keys with
  | nil => rfl
  | cons k rest ih =>
    by_cases none : worth (table k) = 0
    · rw [List.filter_cons_of_neg (by simpa using none),ih,total_cons,none,Nat.zero_add]
    · rw [List.filter_cons_of_pos (by simpa using none),total_cons,ih,total_cons]

/-- Two lists agree that have the same keys with an entry worth something. -/
theorem total_support {first second : List κ} (once : first.Nodup) (once' : second.Nodup)
    (same : ∀ k, worth (table k) ≠ 0 → (k ∈ first ↔ k ∈ second)) : total worth table first = total worth table second := by
  rw [← total_filter first,← total_filter second]
  unfold total
  refine List.Perm.sum_eq (List.Perm.map _ ?_)
  refine (List.perm_ext_iff_of_nodup (once.filter _) (once'.filter _)).mpr fun k => ?_
  rw [List.mem_filter,List.mem_filter]
  exact and_congr_left fun some => same k (by simpa using some)

variable [DecidableEq κ]

theorem total_update_out {k : κ} {keys : List κ} (absent : k ∉ keys) (entry : α) :
    total worth (Function.update table k entry) keys = total worth table keys := by
  refine total_congr fun other member => ?_
  have apart : other ≠ k := fun same => absent (same ▸ member)
  rw [Function.update_of_ne apart]

theorem total_update {k : κ} {keys : List κ} (once : keys.Nodup) (member : k ∈ keys) (entry : α) :
    total worth (Function.update table k entry) keys+worth (table k) = total worth table keys+worth entry := by
  obtain ⟨before,after,rfl⟩ := List.append_of_mem member
  have apart := List.nodup_middle.mp once
  have absent : k ∉ before ++ after := (List.nodup_cons.mp apart).1
  have first : k ∉ before := fun there => absent (List.mem_append_left _ there)
  have last : k ∉ after := fun there => absent (List.mem_append_right _ there)
  rw [total_append,total_append,total_cons,total_cons,total_update_out first,total_update_out last,Function.update_self]
  omega

theorem total_erase {k : κ} {keys : List κ} (once : keys.Nodup) (member : k ∈ keys) :
    total worth table (keys.filter (· ≠ k))+worth (table k) = total worth table keys := by
  induction keys with
  | nil => cases member
  | cons other rest ih =>
    obtain ⟨absent,once⟩ := List.nodup_cons.mp once
    rw [total_cons]
    rcases List.mem_cons.mp member with rfl | later
    · have kept : rest.filter (· ≠ k) = rest := List.filter_eq_self.mpr fun x inside => by
        simpa using fun same : x = k => absent (same ▸ inside)
      rw [List.filter_cons_of_neg (by simp),kept,Nat.add_comm]
    · have apart : other ≠ k := fun same => absent (same ▸ later)
      rw [List.filter_cons_of_pos (by simpa using apart),total_cons,← ih once later]
      omega

end

section
variable {α : Type*} {p : α → Bool} {worth : α → Nat}

theorem sum_update {l : List α} {x : α} (found : l.find? p = some x) (f : α → α) :
    ((FirstMatch.update p f l).map worth).sum+worth x = (l.map worth).sum+worth (f x) := by
  obtain ⟨before,after,whole,changed⟩ := FirstMatch.update_split found
  rw [changed f,whole]
  simp only [List.map_append,List.map_cons,List.sum_append,List.sum_cons]
  omega

theorem sum_filter {κ : Type*} [DecidableEq κ] {key : α → κ} {l : List α} {x : α} (once : (l.map key).Nodup) (member : x ∈ l) :
    ((l.filter fun y => key y ≠ key x).map worth).sum+worth x = (l.map worth).sum := by
  induction l with
  | nil => cases member
  | cons y rest ih =>
    obtain ⟨absent,once⟩ := List.nodup_cons.mp once
    rw [List.map_cons,List.sum_cons]
    rcases List.mem_cons.mp member with rfl | later
    · have kept : rest.filter (fun y => key y ≠ key x) = rest := by
        refine List.filter_eq_self.mpr fun y inside => ?_
        simpa using fun same : key y = key x => absent (same ▸ List.mem_map_of_mem inside)
      rw [List.filter_cons_of_neg (by simp),kept,Nat.add_comm]
    · have apart : key y ≠ key x := fun same => absent (same ▸ List.mem_map_of_mem later)
      rw [List.filter_cons_of_pos (by simpa using apart),List.map_cons,List.sum_cons,← ih once later]
      omega

end

end QuicZig.Ledger
