import Mathlib.Algebra.Order.Group.Nat
import Mathlib.Algebra.Order.Ring.Nat

/-! Tokens that accrue at `rate` in every `unit` of time and are handed out whole. Parts of a token are counted in
`unit`ths: a window of length `elapsed` is worth `rate*elapsed` of them. -/
namespace QuicZig.Accrual

section
variable (unit rate : Nat)

def accrued (elapsed : Nat) : Nat := rate*elapsed/unit

/-- How long a window is open before it has brought `n` tokens. -/
def due (n : Nat) : Nat := (n*unit+rate-1)/rate

/-- The time until `deficit` more tokens, rounded down and never zero. -/
def wait (deficit : Nat) : Nat := max (deficit*unit/rate) 1

variable {unit rate}

theorem le_accrued_iff (unitPos : 0 < unit) (ratePos : 0 < rate) {n elapsed : Nat} :
    n ≤ accrued unit rate elapsed ↔ due unit rate n ≤ elapsed := by
  unfold accrued due
  rw [Nat.le_div_iff_mul_le unitPos,Nat.div_le_iff_le_mul_add_pred ratePos]
  omega

section
variable {elapsed n : Nat} (unitPos : 0 < unit) (ratePos : 0 < rate) (short : accrued unit rate elapsed < n)

include unitPos ratePos short

/-- The window after a wait, in parts of a token: what it still lacks for the deficit. -/
theorem due_le_iff (w : Nat) :
    due unit rate n ≤ elapsed+w ↔ (n-accrued unit rate elapsed)*unit ≤ rate*w+rate*elapsed % unit := by
  rw [← le_accrued_iff unitPos ratePos]
  unfold accrued at short ⊢
  rw [Nat.le_div_iff_mul_le unitPos,Nat.mul_add,Nat.sub_mul]
  have parts := Nat.div_add_mod' (rate*elapsed) unit
  have below := Nat.mul_le_mul_right unit short.le
  omega

omit ratePos in
/-- A deficit is worth a whole token at least, so an open window holds less than it lacks. -/
theorem part_lt : rate*elapsed % unit < (n-accrued unit rate elapsed)*unit :=
  (Nat.mod_lt _ unitPos).trans_le (Nat.le_mul_of_pos_left unit (by omega))

/-- A wait is long enough when the deficit accrues within one tick, or when the part of a token that the window has brought
covers what the wait drops. -/
theorem wait_enough :
    due unit rate n ≤ elapsed+wait unit rate (n-accrued unit rate elapsed) ↔
      (n-accrued unit rate elapsed)*unit < rate ∨
        (n-accrued unit rate elapsed)*unit % rate ≤ rate*elapsed % unit := by
  have part := part_lt unitPos short
  rw [due_le_iff unitPos ratePos short]
  unfold wait
  generalize (n-accrued unit rate elapsed)*unit = lacking at part ⊢
  have parts := Nat.div_add_mod lacking rate
  rcases Nat.lt_or_ge lacking rate with tick | long
  · rw [Nat.div_eq_of_lt tick,Nat.max_eq_right (Nat.zero_le 1)]
    omega
  · rw [Nat.max_eq_left ((Nat.one_le_div_iff ratePos).mpr long)]
    omega

/-- A wait is too long when the window holds a tick's worth more than what the wait drops. -/
theorem wait_late :
    due unit rate n < elapsed+wait unit rate (n-accrued unit rate elapsed) ↔
      rate ≤ (n-accrued unit rate elapsed)*unit ∧
        (n-accrued unit rate elapsed)*unit % rate+rate ≤ rate*elapsed % unit := by
  have part := part_lt unitPos short
  have before : due unit rate n < elapsed+wait unit rate (n-accrued unit rate elapsed) ↔
      due unit rate n ≤ elapsed+(wait unit rate (n-accrued unit rate elapsed)-1) := by
    have positive : 1 ≤ wait unit rate (n-accrued unit rate elapsed) := Nat.le_max_right _ _
    omega
  rw [before,due_le_iff unitPos ratePos short]
  unfold wait
  generalize (n-accrued unit rate elapsed)*unit = lacking at part ⊢
  have parts := Nat.div_add_mod lacking rate
  rcases Nat.lt_or_ge lacking rate with tick | long
  · rw [Nat.div_eq_of_lt tick,Nat.max_eq_right (Nat.zero_le 1),Nat.sub_self]
    omega
  · have ticks : 1 ≤ lacking/rate := (Nat.one_le_div_iff ratePos).mpr long
    rw [Nat.max_eq_left ticks,Nat.mul_sub_one]
    have one : rate ≤ rate*(lacking/rate) := Nat.le_mul_of_pos_right rate ticks
    omega

end

end

/-- The open window, and what the closed ones brought and lost to rounding, the latter in parts of a token. -/
structure Windows where
  mark : Nat
  gained : Nat := 0
  dropped : Nat := 0
  deriving DecidableEq

namespace Windows

section
variable (unit rate most : Nat)

/-- A look at the clock closes the window once it has brought a token, and no window brings more than `most`. -/
def look (now : Nat) (w : Windows) : Windows :=
  if min (accrued unit rate (now-w.mark)) most = 0 then w else
    ⟨now,w.gained+min (accrued unit rate (now-w.mark)) most,
      w.dropped+(rate*(now-w.mark)-min (accrued unit rate (now-w.mark)) most*unit)⟩

/-- Since `start` the closed windows brought or lost all that accrued in them. -/
structure Balanced (start now : Nat) (w : Windows) : Prop where
  started : start ≤ w.mark
  past : w.mark ≤ now
  balance : w.gained*unit+w.dropped = rate*(w.mark-start)

/-- What the rate is worth since `start` and no closed window has brought. -/
def missing (now : Nat) (w : Windows) : Nat := w.dropped+rate*(now-w.mark)

variable {unit rate most} {start now : Nat} {w : Windows}

theorem balanced_at (start : Nat) : Balanced unit rate start start {mark := start} where
  started := le_rfl
  past := le_rfl
  balance := by simp

variable (w) in
theorem look_mark (later : Nat) :
    (w.look unit rate most later).mark = if min (accrued unit rate (later-w.mark)) most = 0 then w.mark else later := by
  unfold look
  split <;> rfl

variable (w) in
theorem look_gained (later : Nat) :
    (w.look unit rate most later).gained = w.gained+min (accrued unit rate (later-w.mark)) most := by
  unfold look
  split
  · rename_i nothing
    rw [nothing]
    rfl
  · rfl

theorem look_balanced (balanced : Balanced unit rate start now w) {later : Nat} (passed : now ≤ later) :
    Balanced unit rate start later (w.look unit rate most later) := by
  unfold look
  split
  · exact ⟨balanced.started,balanced.past.trans passed,balanced.balance⟩
  · have started := balanced.started
    have past := balanced.past
    refine ⟨started.trans (past.trans passed),le_rfl,?_⟩
    have worth : min (accrued unit rate (later-w.mark)) most*unit ≤ rate*(later-w.mark) :=
      (Nat.mul_le_mul_right unit (Nat.min_le_left _ _)).trans (Nat.div_mul_le_self _ _)
    have stretch : rate*(later-start) = rate*(w.mark-start)+rate*(later-w.mark) := by
      rw [← Nat.mul_add]
      congr 1
      omega
    dsimp only
    rw [stretch,← balanced.balance,Nat.add_mul]
    omega

/-- The tokens brought, and the parts missing, make up the whole stretch of time. -/
theorem gained_add_missing (balanced : Balanced unit rate start now w) :
    w.gained*unit+w.missing rate now = rate*(now-start) := by
  have started := balanced.started
  have past := balanced.past
  have stretch : rate*(now-start) = rate*(w.mark-start)+rate*(now-w.mark) := by
    rw [← Nat.mul_add]
    congr 1
    omega
  rw [stretch,← balanced.balance,missing]
  omega

end

end Windows

end QuicZig.Accrual
