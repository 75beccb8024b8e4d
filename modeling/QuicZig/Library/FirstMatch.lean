import Mathlib.Tactic.TypeStar
import Mathlib.Data.List.Basic

/-! The first entry of a list that a search finds, changed in its place. -/
namespace QuicZig.FirstMatch

section
variable {α : Type*} (p : α → Bool)

def update (f : α → α) : List α → List α
  | [] => []
  | x::rest => if p x then f x::rest else x::update f rest

variable {p}

theorem update_cons (f : α → α) (x : α) (rest : List α) :
    update p f (x::rest) = if p x then f x::rest else x::update p f rest := rfl

theorem update_none {l : List α} (absent : l.find? p = none) (f : α → α) : update p f l = l := by
  induction l with
  | nil => rfl
  | cons x rest ih =>
    rw [List.find?_cons] at absent
    cases here : p x with
    | true => simp [here] at absent
    | false =>
      rw [here] at absent
      rw [update_cons,here,ih absent,if_neg Bool.false_ne_true]

/-- The entry found stands between two parts of the list that no update touches. -/
theorem update_split {l : List α} {x : α} (found : l.find? p = some x) :
    ∃ before after, l = before++x::after ∧ ∀ f, update p f l = before++f x::after := by
  induction l with
  | nil => cases found
  | cons y rest ih =>
    rw [List.find?_cons] at found
    cases here : p y with
    | true =>
      rw [here] at found
      cases found
      exact ⟨[],rest,rfl,fun f => by rw [update_cons,here,if_pos rfl]; rfl⟩
    | false =>
      rw [here] at found
      obtain ⟨before,after,rfl,updated⟩ := ih found
      refine ⟨y::before,after,rfl,fun f => ?_⟩
      rw [update_cons,here,if_neg Bool.false_ne_true,updated]
      rfl

theorem map_update {β : Type*} {f : α → α} {g : α → β} (same : ∀ x, g (f x) = g x) (l : List α) :
    (update p f l).map g = l.map g := by
  induction l with
  | nil => rfl
  | cons x rest ih =>
    rw [update_cons]
    split
    · rw [List.map_cons,List.map_cons,same]
    · rw [List.map_cons,List.map_cons,ih]

theorem find_update {f : α → α} (kept : ∀ x, p (f x) = p x) (l : List α) : (update p f l).find? p = (l.find? p).map f := by
  induction l with
  | nil => rfl
  | cons x rest ih =>
    rw [update_cons]
    cases here : p x with
    | true => simp [here,kept]
    | false =>
      rw [if_neg Bool.false_ne_true,List.find?_cons,List.find?_cons,here]
      exact ih

theorem find_update_other {q : α → Bool} {f : α → α} (kept : ∀ x, q (f x) = q x) (apart : ∀ x, p x = true → q x = false)
    (l : List α) : (update p f l).find? q = l.find? q := by
  induction l with
  | nil => rfl
  | cons x rest ih =>
    rw [update_cons]
    split
    · rename_i here
      rw [List.find?_cons,List.find?_cons,kept,apart x here]
    · rw [List.find?_cons,List.find?_cons,ih]

theorem update_update {f g : α → α} (kept : ∀ x, p (f x) = p x) (l : List α) :
    update p g (update p f l) = update p (g ∘ f) l := by
  induction l with
  | nil => rfl
  | cons x rest ih =>
    cases here : p x with
    | true => simp [update_cons,here,kept]
    | false => simp [update_cons,here,ih]

theorem update_congr {l : List α} {x : α} (found : l.find? p = some x) {f g : α → α} (same : f x = g x) :
    update p f l = update p g l := by
  obtain ⟨before,after,_,changed⟩ := update_split found
  rw [changed,changed,same]

theorem find_filter {q : α → Bool} (kept : ∀ x, p x = true → q x = true) (l : List α) :
    (l.filter q).find? p = l.find? p := by
  induction l with
  | nil => rfl
  | cons x rest ih =>
    rw [List.filter_cons]
    split
    · rw [List.find?_cons,List.find?_cons,ih]
    · rename_i gone
      have apart : p x = false := by
        cases here : p x with
        | false => rfl
        | true => exact absurd (kept x here) gone
      rw [List.find?_cons,apart,ih]

theorem find_filter_gone {q : α → Bool} (gone : ∀ x, q x = true → p x = false) (l : List α) :
    (l.filter q).find? p = none := by
  refine List.find?_eq_none.mpr fun x member => ?_
  rw [gone x (List.mem_filter.mp member).2]
  exact Bool.false_ne_true

theorem mem_update {f : α → α} {l : List α} {y : α} (member : y ∈ update p f l) :
    y ∈ l ∨ ∃ x ∈ l, p x = true ∧ y = f x := by
  induction l with
  | nil => cases member
  | cons x rest ih =>
    rw [update_cons] at member
    split at member
    · rename_i here
      rcases List.mem_cons.mp member with rfl | later
      · exact .inr ⟨x,List.mem_cons_self,here,rfl⟩
      · exact .inl (List.mem_cons_of_mem _ later)
    · rcases List.mem_cons.mp member with rfl | later
      · exact .inl List.mem_cons_self
      · rcases ih later with old | ⟨z,inside,found,rfl⟩
        · exact .inl (List.mem_cons_of_mem _ old)
        · exact .inr ⟨z,List.mem_cons_of_mem _ inside,found,rfl⟩

end

end QuicZig.FirstMatch
