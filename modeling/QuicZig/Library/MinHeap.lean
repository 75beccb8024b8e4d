import Mathlib.Data.List.Perm.Basic

/-! A binary min-heap in an array, and the removal that moves the last element into the gap. -/
namespace QuicZig.MinHeap

section
variable {α : Type*}

/-- The last element moves to `i`, over the one that goes. -/
def swapRemove (a : Array α) (i : Nat) : Array α := (a.swapIfInBounds i (a.size-1)).pop

/-- The walk that removes each element of a kind: what moves into the gap is looked at next. -/
def purge (gone : α → Bool) : Nat → Array α → Nat → Array α
  | 0,a,_ => a
  | fuel+1,a,i =>
    match a[i]? with
    | none => a
    | some x => if gone x then purge gone fuel (swapRemove a i) i else purge gone fuel a (i+1)

theorem perm_swap (a : Array α) (i j : Nat) : (a.swapIfInBounds i j).toList.Perm a.toList := by
  by_cases both : i < a.size ∧ j < a.size
  · rw [Array.swapIfInBounds_def,dif_pos both.1,dif_pos both.2]
    exact (Array.swap_perm both.1 both.2).toList
  · rw [Array.swapIfInBounds_def]
    split
    · rename_i within
      rw [dif_neg fun also => both ⟨within,also⟩]
    · exact .refl _

theorem size_swapRemove (a : Array α) (i : Nat) : (swapRemove a i).size = a.size-1 := by
  rw [swapRemove,Array.size_pop,Array.size_swapIfInBounds]

theorem perm_swapRemove {a : Array α} {i : Nat} {x : α} (there : a[i]? = some x) : a.toList.Perm (x::(swapRemove a i).toList) := by
  obtain ⟨within,rfl⟩ := Array.getElem?_eq_some_iff.mp there
  have size : (a.swapIfInBounds i (a.size-1)).size = a.size := Array.size_swapIfInBounds
  have some : (a.swapIfInBounds i (a.size-1)).toList ≠ [] := by
    rw [← List.length_pos_iff,Array.length_toList]
    omega
  have last : (a.swapIfInBounds i (a.size-1)).toList = (swapRemove a i).toList ++ [a[i]] := by
    have whole := List.dropLast_append_getLast some
    rw [← whole,swapRemove,Array.toList_pop]
    congr 2
    rw [List.getLast_eq_getElem]
    simp only [Array.length_toList,Array.getElem_toList,size]
    exact Array.getElem_swapIfInBounds_right within (by rw [size]; omega)
  exact (perm_swap a i (a.size-1)).symm.trans (last ▸ List.perm_append_singleton _ _)

theorem perm_purge (gone : α → Bool) (fuel : Nat) (a : Array α) (i : Nat) (enough : a.size ≤ i+fuel)
    (before : ∀ x ∈ a.toList.take i, gone x = false) : (purge gone fuel a i).toList.Perm (a.toList.filter (!gone ·)) := by
  induction fuel generalizing a i with
  | zero =>
    have all : a.toList.take i = a.toList := List.take_of_length_le (by rw [Array.length_toList]; omega)
    rw [all] at before
    rw [List.filter_eq_self.mpr fun x there => by rw [before x there]; rfl]
    exact .refl _
  | succ fuel ih =>
    unfold purge
    cases there : a[i]? with
    | none =>
      have done : a.toList.take i = a.toList := by
        have past := Array.getElem?_eq_none_iff.mp there
        exact List.take_of_length_le (by rw [Array.length_toList]; omega)
      rw [done] at before
      rw [List.filter_eq_self.mpr fun x there => by rw [before x there]; rfl]
    | some x =>
      obtain ⟨within,here⟩ := Array.getElem?_eq_some_iff.mp there
      dsimp only
      split
      · rename_i goes
        have perm := perm_swapRemove there
        refine (ih (swapRemove a i) i (by rw [size_swapRemove]; omega) fun y member => ?_).trans ?_
        · have same : (swapRemove a i).toList.take i = a.toList.take i := by
            refine List.ext_getElem? fun k => ?_
            by_cases front : k < i
            · rw [List.getElem?_take_of_lt front,List.getElem?_take_of_lt front,Array.getElem?_toList,Array.getElem?_toList,
                swapRemove,Array.getElem?_pop]
              have inside : k < (a.swapIfInBounds i (a.size-1)).size-1 := by
                rw [Array.size_swapIfInBounds]
                omega
              rw [if_pos inside,Array.getElem?_eq_getElem (by omega),Array.getElem?_eq_getElem (by omega),
                Array.getElem_swapIfInBounds_of_ne_of_ne (by omega) (by rw [Array.size_swapIfInBounds] at inside; omega)]
            · rw [List.getElem?_take_eq_none (by omega),List.getElem?_take_eq_none (by omega)]
          exact before y (same ▸ member)
        · have rest := perm.filter (!gone ·)
          rw [List.filter_cons_of_neg (by rw [goes]; nofun)] at rest
          exact rest.symm
      · rename_i stays
        refine ih a (i+1) (by omega) fun y member => ?_
        rw [List.take_add_one,Array.getElem?_toList,there] at member
        rcases List.mem_append.mp member with member | member
        · exact before y member
        · have same : y = x := by simpa using member
          rw [same]
          exact Bool.eq_false_iff.mpr stays

theorem purge_none {gone : α → Bool} {a : Array α} (none : ∀ x ∈ a.toList, gone x = false) (fuel i : Nat) : purge gone fuel a i = a := by
  induction fuel generalizing i with
  | zero => rfl
  | succ fuel ih =>
    unfold purge
    cases there : a[i]? with
    | none => rfl
    | some x =>
      have stays : gone x = false := none x (Array.mem_toList_iff.mpr (Array.mem_of_getElem? there))
      dsimp only
      rw [stays,if_neg Bool.false_ne_true,ih]

end

section
variable {α : Type*} (key : α → Nat)

def keyAt (a : Array α) (i : Nat) : Nat := (a[i]?.map key).getD 0

def parent (i : Nat) : Nat := (i-1)/2

/-- From `start` on, no element comes before its parent. -/
def OrderedFrom (start : Nat) (a : Array α) : Prop :=
  ∀ i, 0 < i → i < a.size → start ≤ parent i → keyAt key a (parent i) ≤ keyAt key a i

def siftUp : Nat → Array α → Nat → Array α
  | 0,a,_ => a
  | fuel+1,a,i =>
    if i = 0 then a
    else if keyAt key a (parent i) ≤ keyAt key a i then a
    else siftUp fuel (a.swapIfInBounds (parent i) i) (parent i)

/-- The first of `i` and its children. -/
def smallest (a : Array α) (i : Nat) : Nat :=
  let left := if 2*i+1 < a.size ∧ keyAt key a (2*i+1) < keyAt key a i then 2*i+1 else i
  if 2*i+2 < a.size ∧ keyAt key a (2*i+2) < keyAt key a left then 2*i+2 else left

def siftDown : Nat → Array α → Nat → Array α
  | 0,a,_ => a
  | fuel+1,a,i => if smallest key a i = i then a else siftDown fuel (a.swapIfInBounds i (smallest key a i)) (smallest key a i)

def push (a : Array α) (x : α) : Array α := siftUp key (a.size+1) (a.push x) a.size

/-- What is left when the first element is taken out. -/
def pop (a : Array α) : Array α := siftDown key a.size (swapRemove a 0) 0

/-- The order is made from the last parent down. -/
def heapify (a : Array α) : Nat → Array α
  | 0 => a
  | k+1 => heapify (siftDown key a.size a k) k

variable {key}

theorem keyAt_swap {a : Array α} {i j : Nat} (hi : i < a.size) (hj : j < a.size) (k : Nat) :
    keyAt key (a.swapIfInBounds i j) k = if k = i then keyAt key a j else if k = j then keyAt key a i else keyAt key a k := by
  unfold keyAt
  by_cases first : k = i
  · subst first
    rw [if_pos rfl,Array.getElem?_eq_getElem (by rw [Array.size_swapIfInBounds]; exact hi),
      Array.getElem_swapIfInBounds_left hj,Array.getElem?_eq_getElem hj]
  rw [if_neg first]
  by_cases second : k = j
  · subst second
    rw [if_pos rfl,Array.getElem?_eq_getElem (by rw [Array.size_swapIfInBounds]; exact hj),
      Array.getElem_swapIfInBounds_right hi,Array.getElem?_eq_getElem hi]
  rw [if_neg second]
  by_cases within : k < a.size
  · rw [Array.getElem?_eq_getElem (by rw [Array.size_swapIfInBounds]; exact within),
      Array.getElem_swapIfInBounds_of_ne_of_ne first second,Array.getElem?_eq_getElem within]
  · rw [Array.getElem?_eq_none (by rw [Array.size_swapIfInBounds]; omega),Array.getElem?_eq_none (by omega)]

theorem perm_siftUp (fuel : Nat) (a : Array α) (i : Nat) : (siftUp key fuel a i).toList.Perm a.toList := by
  induction fuel generalizing a i with
  | zero => exact .refl _
  | succ fuel ih =>
    unfold siftUp
    split
    · exact .refl _
    split
    · exact .refl _
    · exact (ih _ _).trans (perm_swap _ _ _)

theorem perm_siftDown (fuel : Nat) (a : Array α) (i : Nat) : (siftDown key fuel a i).toList.Perm a.toList := by
  induction fuel generalizing a i with
  | zero => exact .refl _
  | succ fuel ih =>
    unfold siftDown
    split
    · exact .refl _
    · exact (ih _ _).trans (perm_swap _ _ _)

/-- Only the pair of `i` and its parent may be out of order. -/
structure UpReady (key : α → Nat) (a : Array α) (i : Nat) : Prop where
  within : i < a.size
  others : ∀ j, 0 < j → j < a.size → j ≠ i → keyAt key a (parent j) ≤ keyAt key a j
  below : ∀ j, 0 < j → j < a.size → parent j = i → 0 < i → keyAt key a (parent i) ≤ keyAt key a j

theorem siftUp_ordered {fuel : Nat} {a : Array α} {i : Nat} (ready : UpReady key a i) (enough : i ≤ fuel) :
    OrderedFrom key 0 (siftUp key fuel a i) := by
  induction fuel generalizing a i with
  | zero =>
    intro j pos inside _
    exact ready.others j pos inside (by omega)
  | succ fuel ih =>
    unfold siftUp
    split
    · rename_i top
      intro j pos inside _
      exact ready.others j pos inside (by omega)
    rename_i deep
    split
    · rename_i fine
      intro j pos inside _
      by_cases here : j = i
      · rw [here]
        exact fine
      · exact ready.others j pos inside here
    · rename_i wrong
      have up : parent i < i := by
        unfold parent
        omega
      have inside := ready.within
      refine ih ⟨by rw [Array.size_swapIfInBounds]; omega,fun j pos within other => ?_,fun j pos within child above => ?_⟩ (by omega)
      · rw [Array.size_swapIfInBounds] at within
        rw [keyAt_swap (by omega) inside,keyAt_swap (by omega) inside,if_neg other]
        by_cases here : j = i
        · subst here
          rw [if_pos rfl,if_pos rfl]
          omega
        · rw [if_neg here]
          by_cases sibling : parent j = parent i
          · rw [if_pos sibling]
            have fine := ready.others j pos within here
            rw [sibling] at fine
            omega
          · rw [if_neg sibling]
            by_cases child : parent j = i
            · rw [if_pos child]
              exact ready.below j pos within child (by omega)
            · rw [if_neg child]
              exact ready.others j pos within here
      · rw [Array.size_swapIfInBounds] at within
        have higher : parent (parent i) < parent i := by
          unfold parent at above ⊢
          omega
        have fine := ready.others (parent i) above (by omega) (by omega)
        have ne : j ≠ parent i := by
          unfold parent at child ⊢
          omega
        rw [keyAt_swap (by omega) inside,keyAt_swap (by omega) inside,if_neg (by omega),if_neg (by omega),if_neg ne]
        split
        · omega
        · rename_i other
          have below := ready.others j pos within other
          rw [child] at below
          omega

/-- From `start` on, only the pairs of `i` and its children may be out of order. -/
structure DownReady (key : α → Nat) (start : Nat) (a : Array α) (i : Nat) : Prop where
  from_start : start ≤ i
  others : ∀ j, 0 < j → j < a.size → start ≤ parent j → parent j ≠ i → keyAt key a (parent j) ≤ keyAt key a j
  below : ∀ j, 0 < j → j < a.size → parent j = i → 0 < i → start ≤ parent i → keyAt key a (parent i) ≤ keyAt key a j

theorem child_cases {i j : Nat} (pos : 0 < j) (child : parent j = i) : j = 2*i+1 ∨ j = 2*i+2 := by
  unfold parent at child
  omega

/-- What `smallest` finds: a child that comes before `i` and the other child, or `i` when no child comes before it. -/
theorem smallest_spec (a : Array α) (i : Nat) :
    (smallest key a i = i ∨ (smallest key a i < a.size ∧ 0 < smallest key a i ∧ parent (smallest key a i) = i ∧
        keyAt key a (smallest key a i) < keyAt key a i)) ∧
      ∀ j, 0 < j → j < a.size → parent j = i → keyAt key a (smallest key a i) ≤ keyAt key a j := by
  have left : parent (2*i+1) = i := by
    unfold parent
    omega
  have right : parent (2*i+2) = i := by
    unfold parent
    omega
  unfold smallest
  dsimp only
  by_cases first : 2*i+1 < a.size ∧ keyAt key a (2*i+1) < keyAt key a i
  · rw [if_pos first]
    by_cases second : 2*i+2 < a.size ∧ keyAt key a (2*i+2) < keyAt key a (2*i+1)
    · rw [if_pos second]
      refine ⟨.inr ⟨second.1,by omega,right,by omega⟩,fun j pos within child => ?_⟩
      rcases child_cases pos child with rfl | rfl
      · exact Nat.le_of_lt second.2
      · exact Nat.le_refl _
    · rw [if_neg second]
      refine ⟨.inr ⟨first.1,by omega,left,first.2⟩,fun j pos within child => ?_⟩
      rcases child_cases pos child with rfl | rfl
      · exact Nat.le_refl _
      · exact Nat.le_of_not_lt fun before => second ⟨within,before⟩
  · rw [if_neg first]
    by_cases second : 2*i+2 < a.size ∧ keyAt key a (2*i+2) < keyAt key a i
    · rw [if_pos second]
      refine ⟨.inr ⟨second.1,by omega,right,second.2⟩,fun j pos within child => ?_⟩
      rcases child_cases pos child with rfl | rfl
      · exact Nat.le_of_not_lt fun before => first ⟨within,by omega⟩
      · exact Nat.le_refl _
    · rw [if_neg second]
      refine ⟨.inl rfl,fun j pos within child => ?_⟩
      rcases child_cases pos child with rfl | rfl
      · exact Nat.le_of_not_lt fun before => first ⟨within,before⟩
      · exact Nat.le_of_not_lt fun before => second ⟨within,before⟩

theorem siftDown_ordered {fuel start : Nat} {a : Array α} {i : Nat} (ready : DownReady key start a i) (enough : a.size ≤ i+fuel) :
    OrderedFrom key start (siftDown key fuel a i) := by
  induction fuel generalizing a i with
  | zero =>
    intro j pos inside late
    have up : parent j < j := by
      unfold parent
      omega
    change j < a.size at inside
    exact ready.others j pos inside late (by omega)
  | succ fuel ih =>
    obtain ⟨place,least⟩ := @smallest_spec _ key a i
    unfold siftDown
    split
    · rename_i done
      intro j pos inside late
      by_cases child : parent j = i
      · have fine := least j pos inside child
        rw [done] at fine
        rw [child]
        exact fine
      · exact ready.others j pos inside late child
    · rename_i moves
      obtain ⟨within,deep,child,before⟩ := place.resolve_left moves
      generalize smallest key a i = c at within deep child before least moves ⊢
      have down : i < c := by
        unfold parent at child
        omega
      have first := ready.from_start
      refine ih ⟨by omega,fun j pos inside late other => ?_,fun j pos inside lower above late => ?_⟩
        (by rw [Array.size_swapIfInBounds]; omega)
      · rw [Array.size_swapIfInBounds] at inside
        have ne : parent j < j := by
          unfold parent
          omega
        rw [keyAt_swap (by omega) within,keyAt_swap (by omega) within,if_neg other]
        by_cases here : parent j = i
        · rw [if_pos here,if_neg (by omega)]
          split
          · exact Nat.le_of_lt before
          · exact least j pos inside here
        · rw [if_neg here]
          by_cases low : j = i
          · rw [if_pos low]
            subst low
            exact ready.below c deep within child pos late
          · have apart : j ≠ c := by
              rintro rfl
              exact here child
            rw [if_neg low,if_neg apart]
            exact ready.others j pos inside late here
      · rw [Array.size_swapIfInBounds] at inside
        have ne : c < j := by
          unfold parent at lower
          omega
        rw [child,keyAt_swap (by omega) within,keyAt_swap (by omega) within,if_pos rfl,if_neg (by omega),if_neg (by omega)]
        have fine := ready.others j pos inside (by omega) (by omega)
        rwa [lower] at fine

theorem perm_push (a : Array α) (x : α) : (push key a x).toList.Perm (x::a.toList) := by
  refine (perm_siftUp _ _ _).trans ?_
  rw [Array.toList_push]
  exact List.perm_append_singleton x a.toList

theorem keyAt_congr {a b : Array α} {i : Nat} (same : a[i]? = b[i]?) : keyAt key a i = keyAt key b i :=
  congrArg (fun x => (x.map key).getD 0) same

theorem push_ordered {a : Array α} (ordered : OrderedFrom key 0 a) (x : α) : OrderedFrom key 0 (push key a x) := by
  have old : ∀ k, k < a.size → keyAt key (a.push x) k = keyAt key a k := fun k within =>
    keyAt_congr (by rw [Array.getElem?_push,if_neg (by omega)])
  refine siftUp_ordered ⟨by rw [Array.size_push]; omega,fun j pos inside other => ?_,fun j pos inside child _ => ?_⟩ (by omega)
  · rw [Array.size_push] at inside
    have up : parent j < a.size := by
      unfold parent
      omega
    rw [old j (by omega),old _ up]
    exact ordered j pos (by omega) (Nat.zero_le _)
  · rw [Array.size_push] at inside
    unfold parent at child
    omega

theorem perm_pop {a : Array α} {top : α} (first : a[0]? = some top) : a.toList.Perm (top::(pop key a).toList) :=
  (perm_swapRemove first).trans (List.Perm.cons top (perm_siftDown _ _ _).symm)

theorem pop_ordered {a : Array α} (ordered : OrderedFrom key 0 a) : OrderedFrom key 0 (pop key a) := by
  refine siftDown_ordered ⟨Nat.le_refl _,fun j pos inside _ other => ?_,fun _ _ _ _ above => absurd above (Nat.lt_irrefl 0)⟩ ?_
  · rw [size_swapRemove] at inside
    have old : ∀ k, 0 < k → k < a.size-1 → keyAt key (swapRemove a 0) k = keyAt key a k := by
      intro k pos within
      refine keyAt_congr ?_
      rw [swapRemove,Array.getElem?_pop,if_pos (by rw [Array.size_swapIfInBounds]; exact within),
        Array.getElem?_eq_getElem (by rw [Array.size_swapIfInBounds]; omega),Array.getElem?_eq_getElem (by omega),
        Array.getElem_swapIfInBounds_of_ne_of_ne (by omega) (by omega)]
    have up : parent j < j := by
      unfold parent
      omega
    rw [old j pos inside,old _ (by omega) (by omega)]
    exact ordered j pos (by omega) (Nat.zero_le _)
  · rw [size_swapRemove]
    omega

theorem perm_heapify (a : Array α) (k : Nat) : (heapify key a k).toList.Perm a.toList := by
  induction k generalizing a with
  | zero => exact .refl _
  | succ k ih => exact (ih _).trans (perm_siftDown _ _ _)

theorem heapify_ordered {a : Array α} {k : Nat} (ordered : OrderedFrom key k a) : OrderedFrom key 0 (heapify key a k) := by
  induction k generalizing a with
  | zero => exact ordered
  | succ k ih =>
    refine ih (siftDown_ordered ⟨Nat.le_refl _,fun j pos inside late other => ordered j pos inside (by omega),fun j _ _ _ above late => ?_⟩
      (by omega))
    unfold parent at late
    omega

theorem ordered_half (a : Array α) : OrderedFrom key (a.size/2) a := by
  intro j pos inside late
  unfold parent at late
  omega

theorem ordered_top {a : Array α} (ordered : OrderedFrom key 0 a) (i : Nat) (within : i < a.size) : keyAt key a 0 ≤ keyAt key a i := by
  induction i using Nat.strongRecOn with
  | ind i ih =>
    by_cases top : i = 0
    · subst top
      exact Nat.le_refl _
    · have up : parent i < i := by
        unfold parent
        omega
      exact Nat.le_trans (ih (parent i) up (by omega)) (ordered i (by omega) within (Nat.zero_le _))

theorem top_le {a : Array α} (ordered : OrderedFrom key 0 a) {top x : α} (first : a[0]? = some top) (there : x ∈ a.toList) :
    key top ≤ key x := by
  obtain ⟨i,within,rfl⟩ := List.mem_iff_getElem.mp there
  have inside : i < a.size := by rwa [Array.length_toList] at within
  have le := ordered_top ordered i inside
  unfold keyAt at le
  rw [first,Array.getElem?_eq_getElem inside] at le
  exact le

end
end QuicZig.MinHeap
