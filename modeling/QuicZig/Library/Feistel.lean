import Mathlib.Tactic.TypeStar

/-! Feistel networks. A block is cut into a state, rounds act on the state one after the other, and the
state is joined to a block again. Where each round undoes itself, the rounds in the reverse order
undo all of them, whatever the round function is. -/
namespace QuicZig.Feistel

section
variable {σ ι α : Type*}

def rounds (round : ι → σ → σ) (passes : List ι) (s : σ) : σ := passes.foldl (fun s i => round i s) s

def network (split : α → σ) (join : σ → α) (round : ι → σ → σ) (passes : List ι) (x : α) : α :=
  join (rounds round passes (split x))

/-- Every round keeps the valid states, and undoes itself on them. -/
structure Involutive (valid : σ → Prop) (round : ι → σ → σ) : Prop where
  keeps : ∀ i s, valid s → valid (round i s)
  undoes : ∀ i s, valid s → round i (round i s) = s

structure Cut (block : α → Prop) (valid : σ → Prop) (split : α → σ) (join : σ → α) : Prop where
  valid_split : ∀ x, block x → valid (split x)
  block_join : ∀ s, valid s → block (join s)
  join_split : ∀ x, block x → join (split x) = x
  split_join : ∀ s, valid s → split (join s) = s

variable {valid : σ → Prop} {round : ι → σ → σ} {block : α → Prop} {split : α → σ} {join : σ → α}

theorem rounds_cons (i : ι) (passes : List ι) (s : σ) : rounds round (i::passes) s = rounds round passes (round i s) := rfl

theorem rounds_append (first second : List ι) (s : σ) :
    rounds round (first ++ second) s = rounds round second (rounds round first s) := List.foldl_append

theorem Involutive.rounds_valid (involutive : Involutive valid round) (passes : List ι) {s : σ} (ok : valid s) :
    valid (rounds round passes s) := by
  induction passes generalizing s with
  | nil => exact ok
  | cons i passes ih => exact ih (involutive.keeps i s ok)

theorem Involutive.rounds_reverse (involutive : Involutive valid round) (passes : List ι) {s : σ} (ok : valid s) :
    rounds round passes.reverse (rounds round passes s) = s := by
  induction passes generalizing s with
  | nil => rfl
  | cons i passes ih =>
    rw [rounds_cons,List.reverse_cons,rounds_append,ih (involutive.keeps i s ok)]
    exact involutive.undoes i s ok

theorem network_block (cut : Cut block valid split join) (involutive : Involutive valid round) (passes : List ι) {x : α}
    (ok : block x) : block (network split join round passes x) :=
  cut.block_join _ (involutive.rounds_valid passes (cut.valid_split x ok))

theorem network_reverse (cut : Cut block valid split join) (involutive : Involutive valid round) (passes : List ι) {x : α}
    (ok : block x) : network split join round passes.reverse (network split join round passes x) = x := by
  have valid := cut.valid_split x ok
  unfold network
  rw [cut.split_join _ (involutive.rounds_valid passes valid),involutive.rounds_reverse passes valid,cut.join_split x ok]

end

end QuicZig.Feistel
