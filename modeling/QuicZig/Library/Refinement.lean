import QuicZig.Library.System

/-! Two deterministic systems over the same events, side by side. A relation that the
steps keep, and under which the systems answer alike, makes whole runs answer alike. -/
namespace QuicZig.Refinement
open QuicZig.System

variable {σ τ ε α : Type*}

def answers (answer : σ → ε → α) (step : σ → ε → σ) : σ → List ε → List α
  | _,[] => []
  | s,event::rest => answer s event::answers answer step (step s event) rest

/-- One step of a simulation: equal answers, and states that stay related. -/
structure Simulates (related : σ → τ → Prop) (guard : σ → ε → Prop) (answer : σ → ε → α) (step : σ → ε → σ)
    (answer' : τ → ε → α) (step' : τ → ε → τ) : Prop where
  alike : ∀ s t event, related s t → guard s event → answer s event = answer' t event
  kept : ∀ s t event, related s t → guard s event → related (step s event) (step' t event)

variable {related : σ → τ → Prop} {guard : σ → ε → Prop} {answer : σ → ε → α} {step : σ → ε → σ}
  {answer' : τ → ε → α} {step' : τ → ε → τ}

theorem Simulates.run (simulates : Simulates related guard answer step answer' step') {s : σ} {t : τ}
    {events : List ε} (start : related s t) (admitted : Admits step guard s events) :
    answers answer step s events = answers answer' step' t events ∧
      related (System.run step s events) (System.run step' t events) := by
  induction events generalizing s t with
  | nil => exact ⟨rfl,start⟩
  | cons event rest ih =>
    obtain ⟨allowed,later⟩ := admitted
    obtain ⟨same,last⟩ := ih (simulates.kept s t event start allowed) later
    refine ⟨?_,last⟩
    unfold answers
    rw [simulates.alike s t event start allowed,same]

end QuicZig.Refinement
