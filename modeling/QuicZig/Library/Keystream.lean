import Mathlib.Tactic.TypeStar
import Mathlib.Data.List.TakeDrop
import Mathlib.Data.List.Lemmas

/-! A key stream combined into the front of a list, or into a stretch of it, and a
stretch of a list written over. -/
namespace QuicZig.Keystream

section
variable {α κ : Type*} (f : α → κ → α)

def mask : List κ → List α → List α
  | [],l => l
  | _,[] => []
  | k::key,x::l => f x k::mask key l

def maskAt (pos : Nat) (key : List κ) (l : List α) : List α := l.take pos ++ mask f key (l.drop pos)

variable {f}

theorem xor_xor (x k : UInt8) : (x ^^^ k) ^^^ k = x := by rw [UInt8.xor_assoc,UInt8.xor_self,UInt8.xor_zero]

@[simp] theorem mask_nil (l : List α) : mask f [] l = l := by
  cases l <;> rfl

@[simp] theorem mask_empty (key : List κ) : mask f key [] = [] := by
  cases key <;> rfl

@[simp] theorem mask_cons (k : κ) (key : List κ) (x : α) (l : List α) : mask f (k::key) (x::l) = f x k::mask f key l := rfl

@[simp] theorem length_mask (key : List κ) (l : List α) : (mask f key l).length = l.length := by
  induction key generalizing l with
  | nil => rw [mask_nil]
  | cons k key ih => cases l <;> simp [ih]

@[simp] theorem length_maskAt (pos : Nat) (key : List κ) (l : List α) : (maskAt f pos key l).length = l.length := by
  unfold maskAt
  rw [List.length_append,length_mask,List.length_take,List.length_drop]
  omega

theorem mask_append {key : List κ} {l : List α} (long : key.length ≤ l.length) (rest : List α) :
    mask f key (l++rest) = mask f key l++rest := by
  induction key generalizing l with
  | nil => rw [mask_nil,mask_nil]
  | cons k key ih =>
    cases l with
    | nil => simp at long
    | cons x l =>
      rw [List.cons_append,mask_cons,mask_cons,List.cons_append]
      rw [ih (by simpa using long)]

theorem maskAt_append {pos : Nat} {key : List κ} {before l : List α} (here : before.length = pos)
    (long : key.length ≤ l.length) (rest : List α) :
    maskAt f pos key (before++(l++rest)) = before++(mask f key l++rest) := by
  unfold maskAt
  rw [List.take_left' here,List.drop_left' here,mask_append long]

theorem mask_mask (undone : ∀ x k, f (f x k) k = x) (key : List κ) (l : List α) : mask f key (mask f key l) = l := by
  induction key generalizing l with
  | nil => rw [mask_nil,mask_nil]
  | cons k key ih => cases l <;> simp [undone,ih]

theorem mask_clean {g : α → α} (undone : ∀ x k, f (f x k) k = x) (clean : ∀ x k, g (f (g (f x k)) k) = g x) (key : List κ)
    {l : List α} {i : Nat} (same : l.modify i g = l) : (mask f key ((mask f key l).modify i g)).modify i g = l := by
  induction l generalizing key i with
  | nil => simp
  | cons x l ih =>
    cases key with
    | nil => simp only [mask_nil,same]
    | cons k key =>
      cases i with
      | zero =>
        rw [List.modify_zero_cons] at same
        rw [mask_cons,List.modify_zero_cons,mask_cons,mask_mask undone,List.modify_zero_cons,clean]
        exact same
      | succ i =>
        rw [List.modify_succ_cons] at same
        rw [mask_cons,List.modify_succ_cons,mask_cons,List.modify_succ_cons,undone,ih key (List.cons.inj same).2]

/-- The bytes, in place of those that stood at `pos`. -/
def putAt (pos : Nat) (bytes l : List α) : List α := l.take pos ++ bytes ++ l.drop (pos+bytes.length)

theorem mask_getElem? {key : List κ} {i : Nat} (outside : key.length ≤ i) (l : List α) : (mask f key l)[i]? = l[i]? := by
  induction key generalizing l i with
  | nil => rw [mask_nil]
  | cons k key ih =>
    cases l with
    | nil => rfl
    | cons x l =>
      cases i with
      | zero => simp at outside
      | succ i => simpa using ih (by simpa using outside) l

theorem maskAt_getElem? {pos : Nat} {key : List κ} {i : Nat} (outside : i < pos ∨ pos+key.length ≤ i) (l : List α) :
    (maskAt f pos key l)[i]? = l[i]? := by
  unfold maskAt
  by_cases before : i < pos
  · by_cases inside : i < l.length
    · rw [List.getElem?_append_left (by rw [List.length_take]; omega),List.getElem?_take_of_lt before]
    · rw [List.getElem?_eq_none (by simp; omega),List.getElem?_eq_none (by omega)]
  · by_cases inside : pos ≤ l.length
    · rw [List.getElem?_append_right (by rw [List.length_take]; omega),List.length_take_of_le inside,
        mask_getElem? (by omega),List.getElem?_drop]
      congr 1
      omega
    · rw [List.getElem?_eq_none (by simp; omega),List.getElem?_eq_none (by omega)]

theorem putAt_getElem? {pos : Nat} {bytes l : List α} (fits : pos+bytes.length ≤ l.length) (i : Nat) :
    (putAt pos bytes l)[i]? = if pos ≤ i ∧ i < pos+bytes.length then bytes[i-pos]? else l[i]? := by
  unfold putAt
  have size : (l.take pos).length = pos := List.length_take_of_le (by omega)
  by_cases before : i < pos
  · rw [if_neg (by omega),List.append_assoc,List.getElem?_append_left (by omega),List.getElem?_take_of_lt before]
  · by_cases inside : i < pos+bytes.length
    · rw [if_pos ⟨by omega,inside⟩,List.getElem?_append_left (by rw [List.length_append]; omega),
        List.getElem?_append_right (by omega),size]
    · rw [if_neg (by omega),List.getElem?_append_right (by rw [List.length_append]; omega),List.getElem?_drop]
      congr 1
      rw [List.length_append]
      omega

theorem putAt_restores {l changed : List α} {first second m n : Nat} (same : changed.length = l.length)
    (fitsFirst : first+m ≤ l.length) (fitsSecond : second+n ≤ l.length)
    (outside : ∀ i, ¬ (first ≤ i ∧ i < first+m) → ¬ (second ≤ i ∧ i < second+n) → changed[i]? = l[i]?) :
    putAt second ((l.drop second).take n) (putAt first ((l.drop first).take m) changed) = l := by
  have sizeFirst : ((l.drop first).take m).length = m := List.length_take_of_le (by rw [List.length_drop]; omega)
  have sizeSecond : ((l.drop second).take n).length = n := List.length_take_of_le (by rw [List.length_drop]; omega)
  have sizePut : (putAt first ((l.drop first).take m) changed).length = changed.length := by
    unfold putAt
    rw [List.length_append,List.length_append,sizeFirst,List.length_take,List.length_drop]
    omega
  apply List.ext_getElem?
  intro i
  rw [putAt_getElem? (by omega),putAt_getElem? (by omega),sizeFirst,sizeSecond]
  split
  · rw [List.getElem?_take_of_lt (by omega),List.getElem?_drop]
    congr 1
    omega
  · split
    · rw [List.getElem?_take_of_lt (by omega),List.getElem?_drop]
      congr 1
      omega
    · exact outside i ‹_› ‹_›

end

end QuicZig.Keystream
