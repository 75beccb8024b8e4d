import Mathlib.Data.Nat.Basic

/-! Binary search over a half-open interval of indices. The caller supplies the
comparison at an index; the fuel bounds the halvings and `hi-lo` is enough. -/
namespace QuicZig.Search

/-- The first index of `[lo,hi)` at which `below` fails, or `hi`. -/
def lowerBound (below : Nat → Bool) : Nat → Nat → Nat → Nat
  | 0,lo,_ => lo
  | fuel+1,lo,hi =>
    if lo < hi then
      let mid := lo + (hi-lo)/2
      if below mid then lowerBound below fuel (mid+1) hi else lowerBound below fuel lo mid
    else lo

/-- An index of `[lo,hi)` at which `probe` answers `eq`; `lt` sends the search up, `gt` down. -/
def find (probe : Nat → Ordering) : Nat → Nat → Nat → Option Nat
  | 0,_,_ => none
  | fuel+1,lo,hi =>
    if lo < hi then
      let mid := lo + (hi-lo)/2
      match probe mid with
      | .lt => find probe fuel (mid+1) hi
      | .gt => find probe fuel lo mid
      | .eq => some mid
    else none

theorem lowerBound_range (below : Nat → Bool) (fuel lo hi : Nat) (ordered : lo ≤ hi) :
    lo ≤ lowerBound below fuel lo hi ∧ lowerBound below fuel lo hi ≤ hi := by
  induction fuel generalizing lo hi with
  | zero => exact ⟨le_rfl,ordered⟩
  | succ fuel ih =>
    unfold lowerBound
    split
    · dsimp only
      split
      · have := ih (lo+(hi-lo)/2+1) hi (by omega)
        omega
      · have := ih lo (lo+(hi-lo)/2) (by omega)
        omega
    · exact ⟨le_rfl,ordered⟩

/-- Where `below` holds up to some index and fails from it on, the search finds that index. -/
theorem lowerBound_split (below : Nat → Bool) (fuel lo hi : Nat) (enough : hi-lo ≤ fuel)
    (descends : ∀ i j, i ≤ j → j < hi → below j = true → below i = true) :
    (∀ i, lo ≤ i → i < lowerBound below fuel lo hi → below i = true) ∧
      ∀ i, lowerBound below fuel lo hi ≤ i → i < hi → below i = false := by
  induction fuel generalizing lo hi with
  | zero => exact ⟨fun i low high => by simp [lowerBound] at high; omega,fun i low high => by simp [lowerBound] at low; omega⟩
  | succ fuel ih =>
    unfold lowerBound
    split
    · dsimp only
      split
      · rename_i smaller
        obtain ⟨left,right⟩ := ih (lo+(hi-lo)/2+1) hi (by omega) descends
        refine ⟨?_,right⟩
        intro i low high
        by_cases first : i ≤ lo+(hi-lo)/2
        · exact descends _ _ first (by omega) smaller
        · exact left i (by omega) high
      · rename_i larger
        obtain ⟨left,right⟩ := ih lo (lo+(hi-lo)/2) (by omega)
          (fun i j ordered bound => descends i j ordered (by omega))
        refine ⟨left,?_⟩
        intro i low high
        by_cases first : i < lo+(hi-lo)/2
        · exact right i low first
        · exact Bool.eq_false_iff.mpr (fun small => larger (descends _ _ (by omega) high small))
    · exact ⟨fun i low high => by omega,fun i low high => by omega⟩

theorem find_some (probe : Nat → Ordering) (fuel lo hi i : Nat) (found : find probe fuel lo hi = some i) :
    lo ≤ i ∧ i < hi ∧ probe i = .eq := by
  induction fuel generalizing lo hi with
  | zero => simp [find] at found
  | succ fuel ih =>
    unfold find at found
    split at found
    · dsimp only at found
      split at found
      · have := ih _ _ found
        exact ⟨by omega,this.2⟩
      · have := ih _ _ found
        exact ⟨this.1,by omega,this.2.2⟩
      · rename_i equal
        obtain rfl := Option.some.inj found
        exact ⟨by omega,by omega,equal⟩
    · simp at found

theorem find_none (probe : Nat → Ordering) (fuel lo hi : Nat) (enough : hi-lo ≤ fuel)
    (ascends : ∀ i j, i < j → j < hi → probe i ≠ .lt → probe j = .gt)
    (missed : find probe fuel lo hi = none) (i : Nat) (low : lo ≤ i) (high : i < hi) : probe i ≠ .eq := by
  induction fuel generalizing lo hi with
  | zero => omega
  | succ fuel ih =>
    unfold find at missed
    split at missed
    · dsimp only at missed
      split at missed
      · rename_i smaller
        by_cases first : i ≤ lo+(hi-lo)/2
        · intro equal
          rcases Nat.lt_or_eq_of_le first with before | same
          · have := ascends i _ before (by omega) (by simp [equal])
            simp [smaller] at this
          · simp [same,smaller] at equal
        · exact ih _ _ (by omega) ascends missed (by omega) high
      · rename_i larger
        by_cases first : i < lo+(hi-lo)/2
        · exact ih _ _ (by omega) (fun i j before bound => ascends i j before (by omega)) missed low first
        · intro equal
          rcases Nat.lt_or_eq_of_le (by omega : lo+(hi-lo)/2 ≤ i) with after | same
          · have := ascends _ i after high (by simp [larger])
            simp [equal] at this
          · simp [← same,larger] at equal
      · simp at missed
    · omega

end QuicZig.Search
