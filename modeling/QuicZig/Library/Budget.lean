import Mathlib.Algebra.BigOperators.Group.List.Basic
import Mathlib.Tactic.Linarith

/-! Budgets: a holder that is not trusted may be given no more than a multiple of what came
from it. Several accounts share the holders, and each may move to another holder and back. -/
namespace QuicZig.Budget

/-- What came from a holder and what went to it, as one account has it. A cleared purse has no limit. -/
structure Purse (α : Type*) where
  holder : Option α
  cleared : Bool := false
  received : Nat := 0
  sent : Nat := 0

/-- The purse in use, and the one to go back to. -/
structure Account (α : Type*) where
  current : Purse α
  fallback : Option (Purse α) := none

namespace Account
variable {α : Type*}

def receive (x : Account α) (n : Nat) : Account α := {x with current := {x.current with received := x.current.received+n}}

def charge (x : Account α) (n : Nat) : Account α := {x with current := {x.current with sent := x.current.sent+n}}

def learn (x : Account α) (a : α) : Account α := {x with current := {x.current with holder := some a}}

def mark (x : Account α) (cleared : Bool) : Account α := {x with current := {x.current with cleared := cleared}}

def save (x : Account α) : Account α := {x with fallback := some (x.fallback.getD x.current)}

def move (x : Account α) (a : α) (n : Nat) : Account α := {x with current := {holder := some a,received := n}}

def restore (_ : Account α) (f : Purse α) : Account α := {current := f,fallback := none}

def settle (x : Account α) : Account α := {x with fallback := none}

variable [DecidableEq α]

/-- The purse that has the say about a holder: the one in use before the other. -/
def purseOf (x : Account α) (a : α) : Option (Purse α) :=
  if x.current.holder = some a then some x.current else x.fallback.filter (·.holder = some a)

def receivedFrom (x : Account α) (a : α) : Nat := ((x.purseOf a).map (·.received)).getD 0

def sentTo (x : Account α) (a : α) : Nat := ((x.purseOf a).map (·.sent)).getD 0

end Account

section
variable {α : Type*} (k : Nat) (trusted : List α)

structure Purse.Sane (p : Purse α) : Prop where
  known : ∀ a, p.holder = some a → p.cleared = true → a ∈ trusted
  backed : ∀ a, p.holder = some a → a ∉ trusted → p.sent ≤ k*p.received

structure Account.Sane (x : Account α) : Prop where
  current : x.current.Sane k trusted
  fallback : ∀ f ∈ x.fallback, f.Sane k trusted
  /-- An account with nowhere to be has nowhere to go back to. -/
  anchored : ∀ f ∈ x.fallback, x.current.holder = none → f.holder = none

/-- Going back to the same holder forgets no more than it had to spare. -/
def Account.Settled (x : Account α) : Prop :=
  ∀ f ∈ x.fallback, ∀ a ∉ trusted, x.current.holder = some a → f.holder = some a →
    k*f.received+x.current.sent ≤ k*x.current.received+f.sent

variable [DecidableEq α]

structure Pays (x y : Account α) (credit debit : α → Nat) : Prop where
  sane : y.Sane k trusted
  paid : ∀ a ∉ trusted, debit a+k*y.receivedFrom a+x.sentTo a ≤ k*(x.receivedFrom a+credit a)+y.sentTo a

/-- What was given to each holder and what came from it; `owed` of that is in no account yet. -/
structure Tally (α : Type*) where
  sent : α → Nat
  received : α → Nat
  owed : α → Nat

structure Covered (t : Tally α) (accounts : List (Account α)) : Prop where
  sane : ∀ x ∈ accounts, x.Sane k trusted
  balanced : ∀ a ∉ trusted, t.sent a+k*t.owed a+k*(accounts.map (·.receivedFrom a)).sum ≤
    k*t.received a+(accounts.map (·.sentTo a)).sum

variable {k trusted}

omit [DecidableEq α] in
theorem Purse.Sane.mono {p : Purse α} {more : List α} (sane : p.Sane k trusted) (grown : trusted ⊆ more) : p.Sane k more :=
  ⟨fun a holds cleared => grown (sane.known a holds cleared),fun a holds out => sane.backed a holds (fun old => out (grown old))⟩

omit [DecidableEq α] in
theorem Account.Sane.mono {x : Account α} {more : List α} (sane : x.Sane k trusted) (grown : trusted ⊆ more) :
    x.Sane k more :=
  ⟨sane.current.mono grown,fun f kept => (sane.fallback f kept).mono grown,sane.anchored⟩

theorem Account.Sane.share {x : Account α} {a : α} (sane : x.Sane k trusted) (out : a ∉ trusted) :
    x.sentTo a ≤ k*x.receivedFrom a := by
  unfold sentTo receivedFrom purseOf
  split
  · rename_i here
    exact sane.current.backed a here out
  · cases kept : x.fallback with
    | none => simp
    | some f =>
      by_cases here : f.holder = some a
      · simpa [Option.filter,here] using (sane.fallback f kept).backed a here out
      · simp [Option.filter,here]

theorem Account.sum_share {accounts : List (Account α)} {a : α} (sane : ∀ x ∈ accounts, x.Sane k trusted)
    (out : a ∉ trusted) : (accounts.map (·.sentTo a)).sum ≤ k*(accounts.map (·.receivedFrom a)).sum := by
  induction accounts with
  | nil => exact Nat.zero_le _
  | cons x rest ih =>
    have one := (sane x List.mem_cons_self).share out
    have others := ih fun y member => sane y (List.mem_cons_of_mem _ member)
    simp only [List.map_cons,List.sum_cons,Nat.mul_add]
    omega

theorem Covered.within {t : Tally α} {accounts : List (Account α)} {a : α} (covered : Covered k trusted t accounts)
    (out : a ∉ trusted) : t.sent a ≤ k*t.received a := by
  have balance := covered.balanced a out
  have share := Account.sum_share covered.sane out
  omega

theorem Covered.empty : Covered k trusted ⟨fun _ => 0,fun _ => 0,fun _ => 0⟩ [] :=
  ⟨by simp,fun a _ => by simp⟩

theorem Covered.opened {t : Tally α} {accounts : List (Account α)} {x : Account α} (covered : Covered k trusted t accounts)
    (sane : x.Sane k trusted) (fresh : ∀ a ∉ trusted, x.receivedFrom a = 0 ∧ x.sentTo a = 0) :
    Covered k trusted t (accounts++[x]) := by
  refine ⟨fun y member => ?_,fun a out => ?_⟩
  · rcases List.mem_append.mp member with old | new
    · exact covered.sane y old
    · rw [List.mem_singleton.mp new]
      exact sane
  · obtain ⟨received,sent⟩ := fresh a out
    have balance := covered.balanced a out
    simpa [received,sent] using balance

theorem Covered.tally {t u : Tally α} {more : List α} {accounts : List (Account α)} (covered : Covered k trusted t accounts)
    (grown : trusted ⊆ more) (balance : ∀ a ∉ more, u.sent a+k*u.owed a+k*t.received a ≤ t.sent a+k*t.owed a+k*u.received a) :
    Covered k more u accounts := by
  refine ⟨fun x member => (covered.sane x member).mono grown,fun a out => ?_⟩
  have before := covered.balanced a (fun old => out (grown old))
  have step := balance a out
  omega

theorem Covered.change {t u : Tally α} {before after : List (Account α)} {x y : Account α} {credit debit : α → Nat}
    (covered : Covered k trusted t (before++x::after)) (pays : Pays k trusted x y credit debit)
    (balance : ∀ a ∉ trusted, u.sent a+k*u.owed a+k*credit a+k*t.received a ≤
      t.sent a+debit a+k*t.owed a+k*u.received a) : Covered k trusted u (before++y::after) := by
  refine ⟨fun z member => ?_,fun a out => ?_⟩
  · rcases List.mem_append.mp member with front | back
    · exact covered.sane z (List.mem_append_left _ front)
    · rcases List.mem_cons.mp back with rfl | back
      · exact pays.sane
      · exact covered.sane z (List.mem_append_right _ (List.mem_cons_of_mem _ back))
  · have total := covered.balanced a out
    have step := balance a out
    have paid := pays.paid a out
    simp only [List.map_append,List.map_cons,List.sum_append,List.sum_cons,Nat.mul_add] at total paid ⊢
    omega

theorem Pays.refl {x : Account α} (sane : x.Sane k trusted) : Pays k trusted x x (fun _ => 0) (fun _ => 0) :=
  ⟨sane,fun a _ => by rw [Nat.add_zero]; omega⟩

theorem Pays.trans {x y z : Account α} {c d e f : α → Nat} (first : Pays k trusted x y c d) (second : Pays k trusted y z e f) :
    Pays k trusted x z (fun a => c a+e a) (fun a => d a+f a) := by
  refine ⟨second.sane,fun a out => ?_⟩
  have one := first.paid a out
  have two := second.paid a out
  simp only [Nat.mul_add] at one two ⊢
  omega

end

namespace Account
variable {α : Type*} [DecidableEq α] {k : Nat} {trusted : List α} {x : Account α}

theorem purseOf_current {a : α} (here : x.current.holder = some a) : x.purseOf a = some x.current := if_pos here

theorem purseOf_fallback {a : α} (elsewhere : x.current.holder ≠ some a) :
    x.purseOf a = x.fallback.filter (·.holder = some a) := if_neg elsewhere

theorem pays_current {p : Purse α} {credit debit : α → Nat} (sane : x.Sane k trusted)
    (same : p.holder = x.current.holder) (purse : p.Sane k trusted)
    (here : ∀ a ∉ trusted, x.current.holder = some a →
      debit a+k*p.received+x.current.sent ≤ k*(x.current.received+credit a)+p.sent)
    (elsewhere : ∀ a ∉ trusted, x.current.holder ≠ some a → debit a ≤ k*credit a) :
    Pays k trusted x {x with current := p} credit debit := by
  refine ⟨⟨purse,sane.fallback,fun f kept => ?_⟩,fun a out => ?_⟩
  · dsimp only
    rw [same]
    exact sane.anchored f kept
  · by_cases holds : x.current.holder = some a
    · unfold receivedFrom sentTo
      rw [purseOf_current holds,purseOf_current (x := {x with current := p}) (same.trans holds)]
      exact here a out holds
    · have other : p.holder ≠ some a := fun yes => holds (same.symm.trans yes)
      have unpaid := elsewhere a out holds
      unfold receivedFrom sentTo
      rw [purseOf_fallback holds,purseOf_fallback (x := {x with current := p}) other]
      simp only [Nat.mul_add]
      omega

theorem pays_receive {n : Nat} {credit : α → Nat} (sane : x.Sane k trusted)
    (source : ∀ a ∉ trusted, x.current.holder = some a → n ≤ credit a) :
    Pays k trusted x (x.receive n) credit (fun _ => 0) := by
  refine pays_current sane rfl ⟨sane.current.known,fun a holds out => ?_⟩ (fun a out holds => ?_) (fun _ _ _ => Nat.zero_le _)
  · have backed := sane.current.backed a holds out
    simp only [Nat.mul_add]
    omega
  · have enough := Nat.mul_le_mul_left k (source a out holds)
    simp only [Nat.mul_add]
    omega

theorem pays_charge {n : Nat} {debit : α → Nat} (sane : x.Sane k trusted)
    (share : ∀ a ∉ trusted, x.current.holder = some a → x.current.sent+n ≤ k*x.current.received)
    (here : ∀ a ∉ trusted, x.current.holder = some a → debit a ≤ n)
    (elsewhere : ∀ a ∉ trusted, x.current.holder ≠ some a → debit a = 0) :
    Pays k trusted x (x.charge n) (fun _ => 0) debit := by
  refine pays_current sane rfl ⟨sane.current.known,fun a holds out => share a out holds⟩ (fun a out holds => ?_)
    (fun a out other => by rw [elsewhere a out other]; exact Nat.zero_le _)
  have charged := here a out holds
  dsimp only
  rw [Nat.add_zero]
  omega

theorem pays_mark {cleared : Bool} (sane : x.Sane k trusted)
    (proven : cleared = true → ∀ a, x.current.holder = some a → a ∈ trusted) :
    Pays k trusted x (x.mark cleared) (fun _ => 0) (fun _ => 0) :=
  pays_current sane rfl ⟨fun a holds yes => proven yes a holds,sane.current.backed⟩ (fun a out holds => by simp [Nat.add_comm])
    (fun _ _ _ => Nat.zero_le _)

theorem pays_learn {a : α} {n : Nat} {credit : α → Nat} (sane : x.Sane k trusted) (unheld : x.current.holder = none)
    (clean : a ∈ trusted ∨ (x.current.cleared = false ∧ k*x.current.received ≤ x.current.sent ∧
      x.current.sent ≤ k*(x.current.received+n))) (enough : a ∉ trusted → n ≤ credit a) :
    Pays k trusted x ((x.receive n).learn a) credit (fun _ => 0) := by
  refine ⟨⟨⟨fun b holds cleared => ?_,fun b holds out => ?_⟩,sane.fallback,?_⟩,fun b out => ?_⟩
  · cases holds
    rcases clean with trusted | ⟨uncleared,_⟩
    · exact trusted
    · rw [show x.current.cleared = true from cleared] at uncleared
      cases uncleared
  · cases holds
    rcases clean with trusted | ⟨_,_,share⟩
    · exact absurd trusted out
    · exact share
  · intro f kept none
    cases none
  · have noHolder : x.current.holder ≠ some b := by simp [unheld]
    have nothing : x.fallback.filter (·.holder = some b) = none := by
      rw [Option.filter_eq_none_iff]
      intro f kept
      simp [sane.anchored f kept unheld]
    unfold receivedFrom sentTo
    rw [purseOf_fallback noHolder,nothing]
    by_cases here : b = a
    · subst here
      rw [purseOf_current (x := (x.receive n).learn b) rfl]
      rcases clean with trusted | ⟨_,spent,_⟩
      · exact absurd trusted out
      · have paid := Nat.mul_le_mul_left k (enough out)
        simp only [learn,receive,Option.map_some,Option.map_none,Option.getD_some,Option.getD_none,Nat.mul_add]
        omega
    · rw [purseOf_fallback (x := (x.receive n).learn a) (by simpa [learn] using Ne.symm here)]
      have still : ((x.receive n).learn a).fallback.filter (·.holder = some b) = none := nothing
      rw [still]
      simp

theorem pays_save (sane : x.Sane k trusted) : Pays k trusted x x.save (fun _ => 0) (fun _ => 0) := by
  refine ⟨⟨sane.current,fun f kept => ?_,fun f kept none => ?_⟩,fun a _ => ?_⟩
  · cases had : x.fallback with
    | none =>
      simp only [save,had,Option.getD_none,Option.mem_some_iff] at kept
      exact kept ▸ sane.current
    | some g =>
      simp only [save,had,Option.getD_some,Option.mem_some_iff] at kept
      exact kept ▸ sane.fallback g had
  · cases had : x.fallback with
    | none =>
      simp only [save,had,Option.getD_none,Option.mem_some_iff] at kept
      exact kept ▸ none
    | some g =>
      simp only [save,had,Option.getD_some,Option.mem_some_iff] at kept
      exact kept ▸ sane.anchored g had none
  · have same : x.save.purseOf a = x.purseOf a := by
      unfold purseOf save
      by_cases here : x.current.holder = some a
      · simp [here]
      · cases had : x.fallback <;> simp [here,Option.filter]
    unfold receivedFrom sentTo
    rw [same,Nat.add_zero]
    omega

/-- A holder that the account leaves, for good or with a purse to go back to. -/
theorem left {a : α} (sane : x.Sane k trusted) (settled : x.Settled k trusted) (out : a ∉ trusted)
    (here : x.current.holder = some a) : k*((x.fallback.filter (·.holder = some a)).map (·.received)).getD 0+x.current.sent ≤
      k*x.current.received+((x.fallback.filter (·.holder = some a)).map (·.sent)).getD 0 := by
  cases kept : x.fallback with
  | none => simpa using sane.current.backed a here out
  | some f =>
    by_cases same : f.holder = some a
    · simpa [Option.filter,same] using settled f kept a out here same
    · simpa [Option.filter,same] using sane.current.backed a here out

/-- The account goes over to another holder, with nothing but what came from there. -/
theorem pays_move {a : α} {n : Nat} {credit : α → Nat} (sane : x.Sane k trusted) (settled : x.Settled k trusted)
    (other : x.current.holder ≠ some a) (away : ∀ f ∈ x.fallback, f.holder ≠ some a)
    (enough : a ∉ trusted → n ≤ credit a) : Pays k trusted x (x.move a n) credit (fun _ => 0) := by
  refine ⟨⟨⟨fun b holds cleared => (Bool.false_ne_true cleared).elim,fun b holds out => Nat.zero_le _⟩,sane.fallback,?_⟩,
    fun b out => ?_⟩
  · intro f kept none
    cases none
  · unfold receivedFrom sentTo
    by_cases new : b = a
    · subst new
      have nothing : x.fallback.filter (·.holder = some b) = none := by
        rw [Option.filter_eq_none_iff]
        intro f kept
        simp [away f kept]
      have paid := Nat.mul_le_mul_left k (enough out)
      rw [purseOf_fallback other,nothing,purseOf_current (x := x.move b n) rfl]
      simp only [move,Option.map_some,Option.map_none,Option.getD_some,Option.getD_none,Nat.mul_add]
      omega
    · rw [purseOf_fallback (x := x.move a n) (by simpa [move] using Ne.symm new)]
      by_cases here : x.current.holder = some b
      · have gone := left sane settled out here
        rw [purseOf_current here]
        simp only [move,Option.map_some,Option.getD_some,Nat.mul_add]
        omega
      · rw [purseOf_fallback here]
        simp only [move,Nat.mul_add]
        omega

theorem pays_restore {f : Purse α} (sane : x.Sane k trusted) (settled : x.Settled k trusted) (kept : x.fallback = some f) :
    Pays k trusted x (x.restore f) (fun _ => 0) (fun _ => 0) := by
  refine ⟨⟨sane.fallback f kept,fun g none => (by cases none),fun g none => (by cases none)⟩,fun a out => ?_⟩
  have after : (x.restore f).purseOf a = x.fallback.filter (·.holder = some a) := by
    rw [kept]
    unfold purseOf restore
    by_cases here : f.holder = some a <;> simp [here,Option.filter]
  unfold receivedFrom sentTo
  rw [after]
  by_cases here : x.current.holder = some a
  · have gone := left sane settled out here
    rw [purseOf_current here]
    simpa using gone
  · rw [purseOf_fallback here,Nat.add_zero]
    omega

theorem pays_settle (sane : x.Sane k trusted) : Pays k trusted x x.settle (fun _ => 0) (fun _ => 0) := by
  refine ⟨⟨sane.current,fun f none => (by cases none),fun f none => (by cases none)⟩,fun a out => ?_⟩
  by_cases here : x.current.holder = some a
  · unfold receivedFrom sentTo
    rw [purseOf_current here,purseOf_current (x := x.settle) here]
    simp [settle,Nat.add_comm]
  · have share := sane.share out
    unfold receivedFrom sentTo at share ⊢
    rw [purseOf_fallback (x := x.settle) here]
    simpa [settle] using share

end Account

end QuicZig.Budget
