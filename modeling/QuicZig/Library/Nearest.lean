import Mathlib.Data.Nat.Dist
import Mathlib.Data.Nat.ModEq

/-! The member of a residue class that lies nearest to a centre, among the
numbers below a limit. Of two at the same distance the larger one counts. -/
namespace QuicZig.Nearest

/-- No number of the class is nearer to `centre` than `p`, and none at its distance is larger. -/
structure IsNearest (modulus limit residue centre p : Nat) : Prop where
  below : p < limit
  congruent : p % modulus = residue % modulus
  nearest : ∀ q < limit, q % modulus = residue % modulus →
    Nat.dist p centre < Nat.dist q centre ∨ (Nat.dist p centre = Nat.dist q centre ∧ q ≤ p)

variable {modulus limit residue centre p q : Nat}

theorem IsNearest.unique (first : IsNearest modulus limit residue centre p)
    (second : IsNearest modulus limit residue centre q) : p = q := by
  have there := first.nearest q second.below second.congruent
  have back := second.nearest p first.below first.congruent
  omega

theorem apart (same : p % modulus = q % modulus) (less : p < q) : p+modulus ≤ q := by
  obtain ⟨k,multiple⟩ := (Nat.modEq_iff_dvd' less.le).mp same
  rcases k with _ | k
  · omega
  · have : modulus ≤ modulus*(k+1) := Nat.le_mul_of_pos_right modulus (by omega)
    omega

/-- A member within half a modulus of the centre is the nearest one; at the ends of the range it may
be farther off, as long as the next member lies outside. -/
theorem isNearest_of_window (below : p < limit) (same : p % modulus = residue % modulus)
    (notAbove : 2*p ≤ 2*centre+modulus ∨ p < modulus) (notBelow : 2*centre < 2*p+modulus ∨ limit ≤ p+modulus) :
    IsNearest modulus limit residue centre p := by
  refine ⟨below,same,?_⟩
  intro q inside member
  unfold Nat.dist
  rcases Nat.lt_trichotomy p q with less | equal | greater
  · have gap := apart (same.trans member.symm) less
    omega
  · omega
  · have gap := apart (member.trans same.symm) greater
    omega

end QuicZig.Nearest
