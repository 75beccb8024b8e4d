import QuicZig.Conn.Pacer
import QuicZig.Library.System

/-! Runs of a pacer at one rate. A run follows the rate when what the bucket gave out and still holds stays within a byte of
its first filling and the rate times the time since then. -/
namespace QuicZig.Conn.PacerRun
open QuicZig.Machine
open QuicZig.System (Reaches)
open QuicZig.Conn.Pacer
open QuicZig.Accrual

/-- The pacer, the clock it was last woken at, what it was filled with and when, and what was debited: the bytes of the
datagrams, and those of them that the debt could not hold. -/
structure History where
  pacer : Pacer
  nowUs : Nat
  initialTokens : Int
  sinceUs : Nat
  spent : Nat := 0
  forgiven : Nat := 0
  windows : Windows

inductive Event where
  | wake (nowUs mds : Nat)
  | consume (bytes : Nat)

/-- The bytes of a debit that the i64 does not hold. -/
def unheld (p : Pacer) (bytes : Nat) : Nat := bytes-(min (lossyCastI64 bytes) (p.tokens-minI64)).toNat

section
variable (rate : Nat)

/-- The first use fills the bucket. -/
def Fresh (h : History) : Prop := ∃ nowUs mds, ({} : Pacer).refill nowUs rate mds = some h.pacer ∧
  h = {pacer := h.pacer,nowUs,initialTokens := h.pacer.tokens,sinceUs := nowUs,windows := {mark := nowUs}}

/-- The clock does not go back, and no wake finds the bucket fuller than its capacity. -/
def Unfilled (h : History) : Event → Prop
  | .wake nowUs mds => h.nowUs ≤ nowUs ∧ ∃ bucket, bucketCapacity rate mds = some bucket ∧
      h.pacer.tokens+accrued usPerS rate (nowUs-h.pacer.lastRefillUs) ≤ lossyCastI64 bucket
  | .consume _ => True

def step (h : History) : Event → History
  | .wake nowUs mds =>
    {h with
      pacer := (h.pacer.refill nowUs rate mds).getD h.pacer
      nowUs
      windows := h.windows.look usPerS rate maxI64 nowUs}
  | .consume bytes =>
    {h with
      pacer := h.pacer.consume bytes
      spent := h.spent+bytes
      forgiven := h.forgiven+unheld h.pacer bytes}

variable {rate}

/-- What the bucket gave out and still holds. -/
def History.granted (h : History) : Int := h.pacer.tokens+h.spent

/-- Within a byte of the first filling and the rate times the time since, in parts of a byte. -/
def Follows (rate : Nat) (h : History) : Prop :=
  h.granted*usPerS ≤ h.initialTokens*usPerS+rate*(h.nowUs-h.sinceUs : Nat) ∧
    h.initialTokens*usPerS+rate*(h.nowUs-h.sinceUs : Nat) ≤ (h.granted+1)*usPerS

structure Accounted (rate : Nat) (h : History) : Prop where
  primed : h.pacer.primed = true
  mark : h.pacer.lastRefillUs = h.windows.mark
  balanced : h.windows.Balanced usPerS rate h.sinceUs h.nowUs
  granted : h.granted = h.initialTokens+h.windows.gained+h.forgiven

theorem accounted_fresh {h : History} (fresh : Fresh rate h) : Accounted rate h := by
  obtain ⟨nowUs,mds,filled,shape⟩ := fresh
  unfold refill at filled
  cases holds : bucketCapacity rate mds with
  | none => simp [holds] at filled
  | some bucket =>
    rw [holds] at filled
    have pacer := (Option.some.inj filled).symm
    rw [shape,pacer]
    exact ⟨rfl,rfl,Windows.balanced_at nowUs,by simp [History.granted]⟩

/-- A refill of a bucket that stays below its capacity adds what the open window brought, and closes it if that is something. -/
theorem refill_unfilled {p : Pacer} (primed : p.primed = true) {nowUs mds bucket : Nat}
    (holds : bucketCapacity rate mds = some bucket)
    (below : p.tokens+accrued usPerS rate (nowUs-p.lastRefillUs) ≤ lossyCastI64 bucket) :
    ∃ q, p.refill nowUs rate mds = some q ∧ q.primed = true ∧
      q.tokens = p.tokens+(min (accrued usPerS rate (nowUs-p.lastRefillUs)) maxI64 : Nat) ∧
      q.lastRefillUs = if min (accrued usPerS rate (nowUs-p.lastRefillUs)) maxI64 = 0 then p.lastRefillUs else nowUs := by
  have projected : p.projectedTokens nowUs rate (lossyCastI64 bucket) =
      p.tokens+(min (accrued usPerS rate (nowUs-p.lastRefillUs)) maxI64 : Nat) := by
    rw [projectedTokens_eq]
    omega
  rw [refill_primed primed holds]
  split
  · rename_i still
    have nothing : min (accrued usPerS rate (nowUs-p.lastRefillUs)) maxI64 = 0 := by omega
    exact ⟨p,rfl,primed,by rw [nothing]; simp,(if_pos nothing).symm⟩
  · rename_i moved
    refine ⟨_,rfl,primed,projected,(if_neg ?_).symm⟩
    omega

theorem consume_tokens (p : Pacer) (bytes : Nat) : (p.consume bytes).tokens+bytes = p.tokens+unheld p bytes := by
  obtain ⟨low,high⟩ := p.fits
  dsimp only [consume]
  unfold unheld saturatingAddI64 lossyCastI64
  unfold maxI64 minI64 at *
  omega

theorem accounted_step {h : History} (accounted : Accounted rate h) {event : Event} (allowed : Unfilled rate h event) :
    Accounted rate (step rate h event) := by
  cases event with
  | wake nowUs mds =>
    obtain ⟨passed,bucket,holds,below⟩ := allowed
    obtain ⟨q,refilled,primed,tokens,mark⟩ := refill_unfilled accounted.primed holds below
    have granted := accounted.granted
    have after : (step rate h (.wake nowUs mds)).pacer = q := by
      simp only [step,refilled,Option.getD_some]
    rw [accounted.mark] at tokens mark
    refine ⟨?_,?_,Windows.look_balanced accounted.balanced passed,?_⟩
    · rw [after]
      exact primed
    · rw [after,mark]
      exact (Windows.look_mark h.windows nowUs).symm
    · have gained : (step rate h (.wake nowUs mds)).windows.gained = _ := Windows.look_gained h.windows nowUs
      unfold History.granted at granted ⊢
      rw [after,gained,tokens]
      dsimp only [step]
      omega
  | consume bytes =>
    have took := consume_tokens h.pacer bytes
    have granted := accounted.granted
    refine ⟨accounted.primed,accounted.mark,accounted.balanced,?_⟩
    unfold History.granted at granted ⊢
    dsimp only [step]
    omega

theorem accounted_run {h : History} (reached : Reaches (Fresh rate) (step rate) (Unfilled rate) h) : Accounted rate h :=
  reached.invariant (Accounted rate) (fun _ => accounted_fresh) fun _ _ accounted => accounted_step accounted

/-- What rounding has cost so far: the parts of a byte in the closed windows and in the open one. -/
def History.missing (h : History) (rate : Nat) : Nat := h.windows.missing rate h.nowUs

/-- Rounding has cost at most a byte more, and not less, than what saturated debits forgave. -/
def Small (rate : Nat) (h : History) : Prop :=
  h.forgiven*usPerS ≤ h.missing rate ∧ h.missing rate ≤ (h.forgiven+1)*usPerS

instance (rate : Nat) (h : History) : Decidable (Small rate h) := inferInstanceAs (Decidable (_ ∧ _))

instance (rate : Nat) (h : History) : Decidable (Follows rate h) := inferInstanceAs (Decidable (_ ∧ _))

/-- In every state of every run the credit follows the rate exactly when rounding has cost at most a byte. -/
theorem credit_follows_rate (rate : Nat) (h : History) (reached : Reaches (Fresh rate) (step rate) (Unfilled rate) h) :
    Follows rate h ↔ Small rate h := by
  have accounted := accounted_run reached
  have whole := Windows.gained_add_missing accounted.balanced
  have granted := accounted.granted
  unfold Follows Small
  change _ + h.missing rate = _ at whole
  have worth : (rate*(h.nowUs-h.sinceUs : Nat) : Int) = h.windows.gained*usPerS+h.missing rate := by
    exact_mod_cast whole.symm
  rw [worth,granted]
  unfold usPerS
  omega

def filled : History where
  pacer := {tokens := 12000,primed := true}
  nowUs := 0
  initialTokens := 12000
  sinceUs := 0
  windows := {mark := 0}

/-- A bucket of 12000 bytes at 1.5 MB/s, spent at once and then looked at. -/
def polled (wakes : List Nat) : History :=
  System.run (step 1500000) filled (.consume 12000::wakes.map (.wake · 1200))

theorem polled_reached : Reaches (Fresh 1500000) (step 1500000) (Unfilled 1500000) (polled [1,2,3]) := by
  refine .run _ (.start ⟨0,1200,by decide,rfl⟩) ⟨trivial,?_,?_,?_,trivial⟩
  all_goals exact ⟨by decide,12000,by decide,by decide⟩

theorem credit_follows_rate_polled : Follows 1500000 (polled [1,2,3]) ↔ Small 1500000 (polled [1,2,3]) :=
  credit_follows_rate 1500000 (polled [1,2,3]) polled_reached

/-- Three looks of a microsecond each bring a byte and lose half of one. -/
theorem polled_loses : ¬∀ (rate : Nat) (h : History), Reaches (Fresh rate) (step rate) (Unfilled rate) h → Follows rate h :=
  fun always => absurd (always 1500000 (polled [1,2,3]) polled_reached) (by decide)

end

end QuicZig.Conn.PacerRun
