import Mathlib.Algebra.Order.Group.Nat

/-! Token buckets. A bucket holds up to `rate` tokens and gains `rate` of them in every `unit` of
time; the rounded bucket gains whole tokens only. Its credit at a time, in parts of a token, is what
it could give out then. -/
namespace QuicZig.TokenBucket

section
variable (unit rate : Nat)

def refill (tokens elapsed : Nat) : Nat := min (tokens+elapsed*rate/unit) rate

def exactRefill (parts elapsed : Nat) : Nat := min (parts+elapsed*rate) (rate*unit)

/-- What rounding may have cost since the bucket was full, in parts of a token. -/
def lostRefill (tokens lost elapsed : Nat) : Nat :=
  if rate ≤ tokens+elapsed*rate/unit then 0 else lost+elapsed*rate%unit

def credit (tokens elapsed : Nat) : Nat := min (rate*unit) (tokens*unit+elapsed*rate)

variable {unit rate}

theorem refill_le (tokens elapsed : Nat) : refill unit rate tokens elapsed ≤ rate := Nat.min_le_right _ _

theorem refill_full (positive : 0 < unit) (tokens : Nat) {elapsed : Nat} (long : unit ≤ elapsed) :
    refill unit rate tokens elapsed = rate := by
  have whole : rate ≤ elapsed*rate/unit := (Nat.le_div_iff_mul_le positive).mpr (by
    rw [Nat.mul_comm]
    exact Nat.mul_le_mul_right rate long)
  exact Nat.min_eq_right (Nat.le_trans whole (Nat.le_add_left _ _))

theorem exactRefill_full (parts : Nat) {elapsed : Nat} (long : unit ≤ elapsed) : exactRefill unit rate parts elapsed = rate*unit := by
  refine Nat.min_eq_right (Nat.le_trans ?_ (Nat.le_add_left _ _))
  rw [Nat.mul_comm]
  exact Nat.mul_le_mul_right rate long

theorem lostRefill_full (positive : 0 < unit) (tokens lost : Nat) {elapsed : Nat} (long : unit ≤ elapsed) :
    lostRefill unit rate tokens lost elapsed = 0 := by
  refine if_pos (Nat.le_trans ?_ (Nat.le_add_left _ _))
  refine (Nat.le_div_iff_mul_le positive).mpr ?_
  rw [Nat.mul_comm]
  exact Nat.mul_le_mul_right rate long

theorem refill_below {tokens parts : Nat} (below : tokens*unit ≤ parts) (elapsed : Nat) :
    refill unit rate tokens elapsed*unit ≤ exactRefill unit rate parts elapsed := by
  have whole : elapsed*rate/unit*unit ≤ elapsed*rate := Nat.div_mul_le_self _ _
  refine Nat.le_min.mpr ⟨?_,Nat.mul_le_mul_right _ (refill_le _ _)⟩
  calc refill unit rate tokens elapsed*unit
      ≤ (tokens+elapsed*rate/unit)*unit := Nat.mul_le_mul_right _ (Nat.min_le_left _ _)
    _ = tokens*unit+elapsed*rate/unit*unit := Nat.add_mul _ _ _
    _ ≤ parts+elapsed*rate := Nat.add_le_add below whole

/-- What rounding takes is the remainder of each refill, and nothing of it is left in a full bucket. -/
theorem refill_near {tokens parts lost : Nat} (near : parts ≤ tokens*unit+lost) (elapsed : Nat) :
    exactRefill unit rate parts elapsed ≤ refill unit rate tokens elapsed*unit+lostRefill unit rate tokens lost elapsed := by
  unfold lostRefill refill
  by_cases full : rate ≤ tokens+elapsed*rate/unit
  · rw [if_pos full,Nat.min_eq_right full]
    exact Nat.min_le_right _ _
  · rw [if_neg full,Nat.min_eq_left (Nat.le_of_not_le full)]
    have split : elapsed*rate/unit*unit+elapsed*rate%unit = elapsed*rate := Nat.div_add_mod' _ _
    refine Nat.le_trans (Nat.min_le_left _ _) ?_
    rw [Nat.add_mul]
    omega

theorem credit_le (tokens elapsed : Nat) : credit unit rate tokens elapsed ≤ rate*unit := Nat.min_le_left _ _

theorem credit_full (tokens : Nat) {elapsed : Nat} (long : unit ≤ elapsed) : credit unit rate tokens elapsed = rate*unit := by
  refine Nat.min_eq_left (Nat.le_trans ?_ (Nat.le_add_left _ _))
  rw [Nat.mul_comm]
  exact Nat.mul_le_mul_right rate long

theorem credit_now (tokens : Nat) : credit unit rate tokens 0 ≤ tokens*unit := by
  refine Nat.le_trans (Nat.min_le_right _ _) ?_
  rw [Nat.zero_mul,Nat.add_zero]

theorem credit_later (tokens : Nat) {elapsed later : Nat} (more : Nat) (within : later ≤ elapsed+more) :
    credit unit rate tokens later ≤ credit unit rate tokens elapsed+more*rate := by
  have bound : later*rate ≤ elapsed*rate+more*rate := by
    rw [← Nat.add_mul]
    exact Nat.mul_le_mul_right rate within
  unfold credit
  omega

theorem credit_spend (tokens : Nat) (elapsed : Nat) {spent : Nat} (enough : spent ≤ refill unit rate tokens elapsed) :
    spent*unit+credit unit rate (refill unit rate tokens elapsed-spent) 0 ≤ credit unit rate tokens elapsed := by
  have whole : elapsed*rate/unit*unit ≤ elapsed*rate := Nat.div_mul_le_self _ _
  have level : refill unit rate tokens elapsed*unit ≤ credit unit rate tokens elapsed := by
    refine Nat.le_min.mpr ⟨Nat.mul_le_mul_right _ (refill_le _ _),?_⟩
    refine Nat.le_trans (Nat.mul_le_mul_right _ (Nat.min_le_left _ _)) ?_
    rw [Nat.add_mul]
    exact Nat.add_le_add_left whole _
  have rest := @credit_now unit rate (refill unit rate tokens elapsed-spent)
  have parts : spent*unit+(refill unit rate tokens elapsed-spent)*unit = refill unit rate tokens elapsed*unit := by
    rw [← Nat.add_mul,Nat.add_sub_cancel' enough]
  omega

end

end QuicZig.TokenBucket
