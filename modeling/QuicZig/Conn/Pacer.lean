import QuicZig.Machine
import QuicZig.Library.Accrual
import Mathlib.Order.Bounds.Basic

/-! The pacer of a path: a token bucket that the send path asks for credit and that names the time at which credit will be
there. Tokens are signed, since exempt packets are debited without being asked for. -/
namespace QuicZig.Conn
open QuicZig.Machine

def maxI64 : Nat := 2^63-1

def minI64 : Int := -2^63

def FitsI64 (n : Int) : Prop := minI64 ≤ n ∧ n ≤ maxI64

/-- `std.math.lossyCast(i64, n)`. -/
def lossyCastI64 (n : Nat) : Int := min n maxI64

/-- The saturating `a +| b` and, with a negated `b`, `a -| b`. -/
def saturatingAddI64 (a b : Int) : Int := max minI64 (min (a+b) maxI64)

theorem lossyCastI64_fits (n : Nat) : FitsI64 (lossyCastI64 n) := by
  unfold FitsI64 lossyCastI64 minI64
  omega

theorem saturatingAddI64_fits (a b : Int) : FitsI64 (saturatingAddI64 a b) := by
  unfold FitsI64 saturatingAddI64 minI64
  omega

namespace Pacer

def burstPackets : Nat := 10
def granularityUs : Nat := 1000
def usPerS : Nat := 1000000

/-- In 64 bits when the product fits, in 128 bits otherwise. -/
def mulDiv (a b d : Nat) : Nat := if b = 0 ∨ a ≤ maxU64/b then a*b/d else min (a*b/d) maxU64

/-- `none` where the ten packets overflow. -/
def bucketCapacity (rateBytesPerS mds : Nat) : Option Nat :=
  if burstPackets*mds ≤ maxU64 then some (max (burstPackets*mds) (mulDiv rateBytesPerS granularityUs usPerS)) else none

end Pacer

theorem fitsI64_zero : FitsI64 0 := ⟨by decide,by decide⟩

structure Pacer where
  tokens : Int := 0
  lastRefillUs : Nat := 0
  primed : Bool := false
  fits : FitsI64 tokens := by first | exact QuicZig.Conn.fitsI64_zero | exact ⟨by decide,by decide⟩
  deriving DecidableEq

namespace Pacer

def projectedTokens (p : Pacer) (nowUs rate : Nat) (capacity : Int) : Int :=
  let elapsed := nowUs-p.lastRefillUs
  let accrued := lossyCastI64 (mulDiv rate elapsed usPerS)
  min (saturatingAddI64 p.tokens accrued) capacity

theorem projectedTokens_fits (p : Pacer) (nowUs rate bytes : Nat) :
    FitsI64 (p.projectedTokens nowUs rate (lossyCastI64 bytes)) := by
  obtain ⟨low,high⟩ := saturatingAddI64_fits p.tokens (lossyCastI64 (mulDiv rate (nowUs-p.lastRefillUs) usPerS))
  exact ⟨le_min low (lossyCastI64_fits bytes).1,(min_le_left _ _).trans high⟩

def refill (p : Pacer) (nowUs rate mds : Nat) : Option Pacer := do
  let bucket ← bucketCapacity rate mds
  if !p.primed then
    return {tokens := lossyCastI64 bucket,lastRefillUs := nowUs,primed := true,fits := lossyCastI64_fits bucket}
  -- an accrual of nothing leaves the window open
  if p.projectedTokens nowUs rate (lossyCastI64 bucket) = p.tokens then return p
  return {p with
    tokens := p.projectedTokens nowUs rate (lossyCastI64 bucket)
    lastRefillUs := nowUs
    fits := p.projectedTokens_fits nowUs rate bucket}

def canSend (p : Pacer) (bytes : Nat) : Bool := decide (p.tokens ≥ lossyCastI64 bytes)

def consume (p : Pacer) (bytes : Nat) : Pacer :=
  {p with tokens := saturatingAddI64 p.tokens (-lossyCastI64 bytes),fits := saturatingAddI64_fits _ _}

/-- `none` where the code traps, `some none` is `null`. -/
def nextReadyUs (p : Pacer) (nowUs bytes rate mds : Nat) : Option (Option Nat) := do
  if !p.primed then return none
  let bucket ← bucketCapacity rate mds
  let effective := p.projectedTokens nowUs rate (lossyCastI64 bucket)
  let need := lossyCastI64 bytes
  if effective ≥ need then return none
  if rate = 0 then return none
  -- the difference is taken in an i64
  if need-effective > maxI64 then failure
  let deficit := (need-effective).toNat
  let waitUs := mulDiv deficit usPerS rate
  return some (saturatingAdd nowUs (max waitUs 1))

section
open Accrual

theorem mulDiv_eq (a b d : Nat) : mulDiv a b d = min (a*b/d) maxU64 := by
  unfold mulDiv
  split
  · rename_i narrow
    refine (Nat.min_eq_left ((Nat.div_le_self _ _).trans ?_)).symm
    rcases narrow with rfl | within
    · exact Nat.zero_le _
    · exact (Nat.mul_le_mul_right b within).trans (Nat.div_mul_le_self _ _)
  · rfl

/-- What the open window has to bring before a datagram may go. -/
def lacking (p : Pacer) (bytes : Nat) : Nat := (lossyCastI64 bytes-p.tokens).toNat

/-- `refill` followed by `canSend` succeeds. -/
def Ready (p : Pacer) (rate mds bytes nowUs : Nat) : Prop :=
  ∃ q, p.refill nowUs rate mds = some q ∧ q.canSend bytes = true

instance (p : Pacer) (rate mds bytes nowUs : Nat) : Decidable (p.Ready rate mds bytes nowUs) :=
  decidable_of_iff ((p.refill nowUs rate mds).any (canSend · bytes) = true) (Option.any_eq_true _ _)

variable {p : Pacer} {rate mds bytes bucket : Nat}

/-- The projection adds what the open window brought, up to what an i64 and the bucket hold. -/
theorem projectedTokens_eq (p : Pacer) (nowUs rate bucket : Nat) :
    p.projectedTokens nowUs rate (lossyCastI64 bucket) =
      min (p.tokens+(min (accrued usPerS rate (nowUs-p.lastRefillUs)) maxI64 : Nat)) (lossyCastI64 bucket) := by
  obtain ⟨low,high⟩ := p.fits
  dsimp only [projectedTokens]
  rw [mulDiv_eq]
  change min (saturatingAddI64 _ (lossyCastI64 (min (accrued usPerS rate _) _))) _ = _
  generalize accrued usPerS rate (nowUs-p.lastRefillUs) = brought
  unfold saturatingAddI64 lossyCastI64 maxU64
  unfold maxI64 at *
  omega

theorem need_le_projected_iff (nowUs : Nat) (within : bytes ≤ bucket) :
    lossyCastI64 bytes ≤ p.projectedTokens nowUs rate (lossyCastI64 bucket) ↔
      p.lacking bytes ≤ min (accrued usPerS rate (nowUs-p.lastRefillUs)) maxI64 := by
  rw [projectedTokens_eq]
  unfold lacking lossyCastI64
  omega

theorem refill_primed (primed : p.primed = true) (holds : bucketCapacity rate mds = some bucket) (nowUs : Nat) :
    p.refill nowUs rate mds = if p.projectedTokens nowUs rate (lossyCastI64 bucket) = p.tokens then some p else
      some {p with
        tokens := p.projectedTokens nowUs rate (lossyCastI64 bucket)
        lastRefillUs := nowUs
        fits := p.projectedTokens_fits nowUs rate bucket} := by
  unfold refill
  rw [holds]
  simp only [primed,bind,Option.bind,Bool.not_true,Bool.false_eq_true,if_false]
  rfl

theorem refill_tokens (primed : p.primed = true) (holds : bucketCapacity rate mds = some bucket) (nowUs : Nat) :
    ∃ q, p.refill nowUs rate mds = some q ∧ q.tokens = p.projectedTokens nowUs rate (lossyCastI64 bucket) := by
  rw [refill_primed primed holds]
  split
  · rename_i still
    exact ⟨p,rfl,still.symm⟩
  · exact ⟨_,rfl,rfl⟩

theorem ready_iff (primed : p.primed = true) (holds : bucketCapacity rate mds = some bucket) (within : bytes ≤ bucket)
    (nowUs : Nat) :
    p.Ready rate mds bytes nowUs ↔
      p.lacking bytes ≤ min (accrued usPerS rate (nowUs-p.lastRefillUs)) maxI64 := by
  obtain ⟨q,refilled,tokens⟩ := refill_tokens primed holds nowUs
  rw [← need_le_projected_iff nowUs within,← tokens]
  constructor
  · rintro ⟨q',refilled',enough⟩
    obtain rfl := Option.some.inj (refilled.symm.trans refilled')
    exact of_decide_eq_true enough
  · exact fun enough => ⟨q,refilled,decide_eq_true enough⟩

theorem nextReadyUs_ready (primed : p.primed = true) (holds : bucketCapacity rate mds = some bucket) (within : bytes ≤ bucket)
    {nowUs : Nat} (ready : p.Ready rate mds bytes nowUs) : p.nextReadyUs nowUs bytes rate mds = some none := by
  have enough := (need_le_projected_iff nowUs within).mpr ((ready_iff primed holds within nowUs).mp ready)
  unfold nextReadyUs
  rw [holds]
  simp [primed,enough]

theorem saturatingAdd_wait (nowUs a : Nat) : saturatingAdd nowUs (max (min a maxU64) 1) = saturatingAdd nowUs (max a 1) := by
  unfold saturatingAdd
  omega

theorem nextReadyUs_waiting (primed : p.primed = true) (positive : 0 < rate)
    (holds : bucketCapacity rate mds = some bucket) (within : bytes ≤ bucket) {nowUs : Nat}
    (waiting : ¬p.Ready rate mds bytes nowUs) :
    p.nextReadyUs nowUs bytes rate mds =
      if p.lacking bytes-min (accrued usPerS rate (nowUs-p.lastRefillUs)) maxI64 > maxI64 then none else
        some (some (saturatingAdd nowUs
          (wait usPerS rate (p.lacking bytes-min (accrued usPerS rate (nowUs-p.lastRefillUs)) maxI64)))) := by
  rw [ready_iff primed holds within,← need_le_projected_iff nowUs within] at waiting
  have short := not_le.mp waiting
  have deficit : lossyCastI64 bytes-p.projectedTokens nowUs rate (lossyCastI64 bucket) =
      (p.lacking bytes-min (accrued usPerS rate (nowUs-p.lastRefillUs)) maxI64 : Nat) := by
    rw [projectedTokens_eq] at short ⊢
    unfold lacking
    unfold lossyCastI64 at short ⊢
    omega
  unfold nextReadyUs
  rw [holds]
  simp only [primed,bind,Option.bind,Bool.not_true,Bool.false_eq_true,if_false,ge_iff_le,waiting,positive.ne',deficit,mulDiv_eq,
    Int.toNat_natCast,gt_iff_lt,Int.ofNat_lt]
  split
  · rfl
  · rw [saturatingAdd_wait]
    rfl

theorem due_pos (positive : 0 < rate) {n : Nat} (some_ : 0 < n) : 0 < due usPerS rate n := by
  by_contra none
  have already := (le_accrued_iff (by decide : 0 < usPerS) positive).mpr (Nat.not_lt.mp none)
  unfold accrued at already
  rw [Nat.mul_zero,Nat.zero_div] at already
  omega

/-- A datagram that has to wait is ready from the time at which the open window is due. -/
theorem ready_from (primed : p.primed = true) (positive : 0 < rate) (holds : bucketCapacity rate mds = some bucket)
    (within : bytes ≤ bucket) (some_ : 0 < p.lacking bytes) (nowUs : Nat) :
    p.Ready rate mds bytes nowUs ↔ p.lacking bytes ≤ maxI64 ∧ p.lastRefillUs+due usPerS rate (p.lacking bytes) ≤ nowUs := by
  have later := due_pos positive some_
  rw [ready_iff primed holds within,Nat.le_min,le_accrued_iff (by decide) positive]
  omega

/-- `t` is the earliest time of the clock at which the datagram may go. -/
def Earliest (p : Pacer) (rate mds bytes t : Nat) : Prop := IsLeast {t | t ≤ maxU64 ∧ p.Ready rate mds bytes t} t

theorem earliest_iff (primed : p.primed = true) (positive : 0 < rate) (holds : bucketCapacity rate mds = some bucket)
    (within : bytes ≤ bucket) (some_ : 0 < p.lacking bytes) (t : Nat) :
    p.Earliest rate mds bytes t ↔ p.lacking bytes ≤ maxI64 ∧
      p.lastRefillUs+due usPerS rate (p.lacking bytes) ≤ maxU64 ∧ t = p.lastRefillUs+due usPerS rate (p.lacking bytes) := by
  have ready := ready_from primed positive holds within some_
  constructor
  · rintro ⟨⟨clock,now⟩,least⟩
    obtain ⟨fits,due⟩ := (ready t).mp now
    have first := least ⟨due.trans clock,(ready _).mpr ⟨fits,le_rfl⟩⟩
    exact ⟨fits,due.trans clock,le_antisymm first due⟩
  · rintro ⟨fits,clock,rfl⟩
    exact ⟨⟨clock,(ready _).mpr ⟨fits,le_rfl⟩⟩,fun t' earlier => ((ready t').mp earlier.2).2⟩

/-- The projected deadline and the gate say the same of a datagram. -/
def Agrees (p : Pacer) (nowUs rate mds bytes : Nat) : Prop :=
  (p.nextReadyUs nowUs bytes rate mds = some none ↔ p.Ready rate mds bytes nowUs) ∧
    (¬p.Ready rate mds bytes nowUs → ∃ t, p.nextReadyUs nowUs bytes rate mds = some (some t) ∧ p.Earliest rate mds bytes t)

/-- The wait for a deficit ends on time although it is rounded: all of the deficit accrues within a microsecond, or the part of
a byte that the open window has brought covers the part of a microsecond that the wait drops, by less than a microsecond's worth
or up to the clock's last tick. -/
def RoundsWell (p : Pacer) (nowUs rate bytes : Nat) : Prop :=
  let window := nowUs-p.lastRefillUs
  let deficit := p.lacking bytes-accrued usPerS rate window
  let part := rate*window % usPerS
  deficit*usPerS < rate ∨
    (deficit*usPerS % rate ≤ part ∧
      (part < deficit*usPerS % rate+rate ∨ p.lastRefillUs+due usPerS rate (p.lacking bytes) = maxU64))

/-- The bucket holds the datagram's bytes at `nowUs`, or the clock is not behind the bucket, reaches the time at which they will
have accrued, and the wait for them rounds well. -/
def InStep (p : Pacer) (nowUs rate bytes : Nat) : Prop :=
  p.lacking bytes ≤ min (accrued usPerS rate (nowUs-p.lastRefillUs)) maxI64 ∨
    (p.lastRefillUs ≤ nowUs ∧ p.lacking bytes ≤ maxI64 ∧ p.lastRefillUs+due usPerS rate (p.lacking bytes) ≤ maxU64 ∧
      p.RoundsWell nowUs rate bytes)

instance (p : Pacer) (nowUs rate bytes : Nat) : Decidable (p.InStep nowUs rate bytes) := by
  unfold InStep RoundsWell
  infer_instance

theorem deadline_on_time (positive : 0 < rate) {nowUs : Nat} (lastPast : p.lastRefillUs ≤ nowUs)
    (short : accrued usPerS rate (nowUs-p.lastRefillUs) < p.lacking bytes)
    (clock : p.lastRefillUs+due usPerS rate (p.lacking bytes) ≤ maxU64) :
    saturatingAdd nowUs (wait usPerS rate (p.lacking bytes-accrued usPerS rate (nowUs-p.lastRefillUs))) =
        p.lastRefillUs+due usPerS rate (p.lacking bytes) ↔ p.RoundsWell nowUs rate bytes := by
  have enough := wait_enough (by decide) positive short
  have late := wait_late (by decide) positive short
  unfold saturatingAdd RoundsWell
  dsimp only
  omega

/-- A bucket stamped ahead of the clock is given a deadline before its datagram is ready. -/
theorem deadline_early (positive : 0 < rate) {nowUs : Nat} (ahead : nowUs < p.lastRefillUs) (some_ : 0 < p.lacking bytes) :
    saturatingAdd nowUs (wait usPerS rate (p.lacking bytes)) < p.lastRefillUs+due usPerS rate (p.lacking bytes) := by
  have nothing : accrued usPerS rate 0 = 0 := by simp [accrued]
  have late := wait_late (by decide : 0 < usPerS) positive (nothing.trans_lt some_)
  rw [nothing,Nat.sub_zero,Nat.mul_zero,Nat.zero_mod] at late
  unfold saturatingAdd
  omega

/-- The deadline and the gate agree exactly on the datagrams whose wait rounds well. -/
theorem deadline_meets_gate (p : Pacer) (nowUs rate mds bytes : Nat) (primed : p.primed = true) (positive : 0 < rate)
    (within : ∃ bucket, bucketCapacity rate mds = some bucket ∧ bytes ≤ bucket) :
    p.Agrees nowUs rate mds bytes ↔ p.InStep nowUs rate bytes := by
  obtain ⟨bucket,holds,within⟩ := within
  have gate := ready_iff primed holds within nowUs
  by_cases ready : p.Ready rate mds bytes nowUs
  · have none := nextReadyUs_ready primed holds within ready
    exact iff_of_true ⟨iff_of_true none ready,fun waiting => absurd ready waiting⟩ (.inl (gate.mp ready))
  have some_ : 0 < p.lacking bytes := by
    rw [gate] at ready
    omega
  have next := nextReadyUs_waiting primed positive holds within ready
  have earliest := earliest_iff primed positive holds within some_
  have agrees : p.Agrees nowUs rate mds bytes ↔ p.lacking bytes ≤ maxI64 ∧
      p.lastRefillUs+due usPerS rate (p.lacking bytes) ≤ maxU64 ∧
      p.nextReadyUs nowUs bytes rate mds = some (some (p.lastRefillUs+due usPerS rate (p.lacking bytes))) := by
    constructor
    · rintro ⟨_,deadline⟩
      obtain ⟨t,told,first⟩ := deadline ready
      obtain ⟨fits,clock,rfl⟩ := (earliest t).mp first
      exact ⟨fits,clock,told⟩
    · rintro ⟨fits,clock,told⟩
      refine ⟨iff_of_false ?_ ready,fun _ => ⟨_,told,(earliest _).mpr ⟨fits,clock,rfl⟩⟩⟩
      rw [told]
      simp
  rw [agrees,InStep,← gate,or_iff_right ready]
  by_cases fits : p.lacking bytes ≤ maxI64
  · rw [gate] at ready
    have short : accrued usPerS rate (nowUs-p.lastRefillUs) < p.lacking bytes := by omega
    rw [next,Nat.min_eq_left (by omega),if_neg (by omega),Option.some_inj,Option.some_inj]
    rcases Nat.lt_or_ge nowUs p.lastRefillUs with ahead | past
    · have early := deadline_early positive ahead some_
      rw [Nat.sub_eq_zero_of_le ahead.le]
      have nothing : accrued usPerS rate 0 = 0 := by simp [accrued]
      rw [nothing,Nat.sub_zero]
      omega
    · constructor
      · rintro ⟨_,clock,told⟩
        exact ⟨past,fits,clock,(deadline_on_time positive past short clock).mp told⟩
      · rintro ⟨_,_,clock,rounds⟩
        exact ⟨fits,clock,(deadline_on_time positive past short clock).mpr rounds⟩
  · exact iff_of_false (fun whole => fits whole.1) fun whole => fits whole.2.1

def emptied : Pacer := {tokens := 0,primed := true}

theorem deadline_meets_gate_half : (emptied.Agrees 0 1500000 1200 1200 ↔ emptied.InStep 0 1500000 1200) :=
  deadline_meets_gate emptied 0 1500000 1200 1200 rfl (by decide) ⟨12000,by decide,by decide⟩

/-- At 1.5 MB/s the thousandth byte accrues after 667 us, one later than the deadline. -/
theorem deadline_misses_gate : ¬∀ (p : Pacer) (nowUs rate mds bytes : Nat), p.primed = true → 0 < rate →
    (∃ bucket, bucketCapacity rate mds = some bucket ∧ bytes ≤ bucket) → p.Agrees nowUs rate mds bytes := by
  intro always
  have agrees := always emptied 0 1500000 1200 1000 rfl (by decide) ⟨12000,by decide,by decide⟩
  obtain ⟨t,told,⟨_,ready⟩,_⟩ := agrees.2 (by decide)
  have early : emptied.nextReadyUs 0 1000 1500000 1200 = some (some 666) := by decide
  obtain rfl : 666 = t := by simpa using early.symm.trans told
  exact absurd ready (by decide)

end

end Pacer

end QuicZig.Conn
