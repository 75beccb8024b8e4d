import Mathlib.Logic.Basic
import Mathlib.Tactic.TypeStar

/-! Deterministic systems driven by events. A run starts in an initial state and
takes one event after another; a guard says which events it may take in which
state. Facts about runs come from facts about one step. -/
namespace QuicZig.System

section
variable {σ ε : Type*} (initial : σ → Prop) (step : σ → ε → σ) (guard : σ → ε → Prop)

inductive Reaches : σ → Prop where
  | start {s : σ} (fresh : initial s) : Reaches s
  | next {s : σ} (event : ε) (reached : Reaches s) (allowed : guard s event) : Reaches (step s event)

def run (s : σ) (events : List ε) : σ := events.foldl step s

def Admits (s : σ) : List ε → Prop
  | [] => True
  | event::rest => guard s event ∧ Admits (step s event) rest

instance decidableAdmits [∀ s event, Decidable (guard s event)] (s : σ) (events : List ε) :
    Decidable (Admits step guard s events) :=
  match events with
  | [] => isTrue trivial
  | event::rest =>
    have := decidableAdmits (step s event) rest
    inferInstanceAs (Decidable (guard s event ∧ Admits step guard (step s event) rest))

variable {initial step guard}

theorem Reaches.run {s : σ} (events : List ε) (reached : Reaches initial step guard s)
    (admitted : Admits step guard s events) : Reaches initial step guard (run step s events) := by
  induction events generalizing s with
  | nil => exact reached
  | cons event rest ih => exact ih (reached.next event admitted.1) admitted.2

theorem Reaches.invariant {s : σ} (holds : σ → Prop) (fresh : ∀ s, initial s → holds s)
    (preserved : ∀ s event, holds s → guard s event → holds (step s event))
    (reached : Reaches initial step guard s) : holds s := by
  induction reached with
  | start start => exact fresh _ start
  | next event _ allowed ih => exact preserved _ event ih allowed

theorem Reaches.invariant_under {s : σ} (known holds : σ → Prop)
    (always : ∀ s, Reaches initial step guard s → known s) (fresh : ∀ s, initial s → holds s)
    (preserved : ∀ s event, known s → holds s → guard s event → holds (step s event))
    (reached : Reaches initial step guard s) : holds s := by
  induction reached with
  | start start => exact fresh _ start
  | next event reached allowed ih => exact preserved _ event (always _ reached) ih allowed

theorem Reaches.relax {s : σ} {weaker : σ → ε → Prop} (implied : ∀ s event, guard s event → weaker s event)
    (reached : Reaches initial step guard s) : Reaches initial step weaker s := by
  induction reached with
  | start start => exact .start start
  | next event _ allowed ih => exact ih.next event (implied _ _ allowed)

theorem Admits.of_forall {allowed : ε → Prop} {events : List ε} (all : ∀ event ∈ events, allowed event) (s : σ) :
    Admits step (fun _ event => allowed event) s events := by
  induction events generalizing s with
  | nil => exact trivial
  | cons event rest ih =>
    exact ⟨all event List.mem_cons_self,ih (fun e member => all e (List.mem_cons_of_mem _ member)) (step s event)⟩

theorem Admits.and {first second : σ → ε → Prop} {s : σ} {events : List ε} (one : Admits step first s events)
    (two : Admits step second s events) : Admits step (fun s event => first s event ∧ second s event) s events := by
  induction events generalizing s with
  | nil => exact trivial
  | cons event rest ih => exact ⟨⟨one.1,two.1⟩,ih one.2 two.2⟩

theorem Admits.under {invariant : σ → Prop} {condition : σ → ε → Prop}
    (preserved : ∀ s event, invariant s → guard s event → invariant (step s event))
    (met : ∀ s event, invariant s → guard s event → condition s event) {s : σ} {events : List ε} (start : invariant s)
    (admitted : Admits step guard s events) : Admits step condition s events := by
  induction events generalizing s with
  | nil => exact trivial
  | cons event rest ih =>
    exact ⟨met s event start admitted.1,ih (preserved s event start admitted.1) admitted.2⟩

theorem Admits.append {s : σ} {first second : List ε} : Admits step guard s (first ++ second) ↔
    Admits step guard s first ∧ Admits step guard (System.run step s first) second := by
  induction first generalizing s with
  | nil => exact ⟨fun admitted => ⟨trivial,admitted⟩,And.right⟩
  | cons event rest ih =>
    rw [List.cons_append]
    exact (and_congr_right fun _ => ih).trans and_assoc.symm

/-- `holds` in every state of the run, the first one included. -/
def Throughout (holds : σ → Prop) (step : σ → ε → σ) (s : σ) : List ε → Prop
  | [] => holds s
  | event::rest => holds s ∧ Throughout holds step (step s event) rest

theorem Throughout.last {holds : σ → Prop} {s : σ} {events : List ε} (all : Throughout holds step s events) :
    holds (System.run step s events) := by
  induction events generalizing s with
  | nil => exact all
  | cons event rest ih => exact ih all.2

theorem Throughout.append {holds : σ → Prop} {s : σ} {first second : List ε}
    (all : Throughout holds step s (first ++ second)) :
    Throughout holds step s first ∧ Throughout holds step (System.run step s first) second := by
  induction first generalizing s with
  | nil =>
    refine ⟨?_,all⟩
    cases second with
    | nil => exact all
    | cons => exact all.1
  | cons event rest ih =>
    obtain ⟨now,later⟩ := all
    exact ⟨⟨now,(ih later).1⟩,(ih later).2⟩

theorem Throughout.of_reaches {holds : σ → Prop} (known : ∀ s, Reaches initial step guard s → holds s) {s : σ}
    {events : List ε} (reached : Reaches initial step guard s) (admitted : Admits step guard s events) :
    Throughout holds step s events := by
  induction events generalizing s with
  | nil => exact known s reached
  | cons event rest ih => exact ⟨known s reached,ih (reached.next event admitted.1) admitted.2⟩

/-- The exact rule: when a step that `guard` allows keeps `holds` just in case `condition` is met, then `holds`
stays true throughout a run just in case every step of it meets `condition`. -/
theorem throughout_iff {invariant holds : σ → Prop} {condition : σ → ε → Prop}
    (preserved : ∀ s event, invariant s → guard s event → invariant (step s event))
    (exact : ∀ s event, invariant s → holds s → guard s event → (holds (step s event) ↔ condition s event))
    {s : σ} {events : List ε} (start : invariant s) (good : holds s) (admitted : Admits step guard s events) :
    Throughout holds step s events ↔ Admits step condition s events := by
  induction events generalizing s with
  | nil => exact ⟨fun _ => trivial,fun _ => good⟩
  | cons event rest ih =>
    obtain ⟨allowed,later⟩ := admitted
    have once := exact s event start good allowed
    constructor
    · intro all
      obtain ⟨_,all⟩ := all
      have next : holds (step s event) := by
        cases rest with
        | nil => exact all
        | cons => exact all.1
      exact ⟨once.mp next,(ih (preserved s event start allowed) next later).mp all⟩
    · intro met
      obtain ⟨now,met⟩ := met
      have next := once.mpr now
      exact ⟨good,(ih (preserved s event start allowed) next later).mpr met⟩

end

end QuicZig.System
