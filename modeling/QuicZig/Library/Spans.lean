import Mathlib.Tactic

/-! Sorted lists of half-open spans. A span is any value with a lower and an
upper bound in a linear order; a list of spans stands for the points that its
spans cover. The normal form keeps the spans apart, so that the first span is
the whole run of covered points it begins. -/
namespace QuicZig.Spans

section
variable {ι α : Type*} [LinearOrder α] (lo hi : ι → α)

def Covers (spans : List ι) (x : α) : Prop :=
  ∃ span ∈ spans, lo span ≤ x ∧ x < hi span

instance (spans : List ι) (x : α) : Decidable (Covers lo hi spans x) :=
  inferInstanceAs (Decidable (∃ span ∈ spans, lo span ≤ x ∧ x < hi span))

/-- Non-empty spans in ascending order, with a gap between any two of them. -/
structure Separated (spans : List ι) : Prop where
  proper : ∀ span ∈ spans, lo span < hi span
  ordered : spans.Pairwise (fun left right => hi left < lo right)

variable {lo hi}

@[simp] theorem covers_nil (x : α) : ¬ Covers lo hi [] x := by simp [Covers]

@[simp] theorem covers_cons (span : ι) (rest : List ι) (x : α) :
    Covers lo hi (span::rest) x ↔ (lo span ≤ x ∧ x < hi span) ∨ Covers lo hi rest x := by
  simp [Covers]

@[simp] theorem covers_append (first second : List ι) (x : α) :
    Covers lo hi (first++second) x ↔ Covers lo hi first x ∨ Covers lo hi second x := by
  simp only [Covers,List.mem_append,or_and_right,exists_or]

@[simp] theorem separated_nil : Separated lo hi ([] : List ι) := ⟨by simp,.nil⟩

theorem separated_cons (span : ι) (rest : List ι) :
    Separated lo hi (span::rest) ↔
      lo span < hi span ∧ (∀ next ∈ rest, hi span < lo next) ∧ Separated lo hi rest := by
  constructor
  · intro whole
    have pairs := List.pairwise_cons.mp whole.ordered
    exact ⟨whole.proper span (by simp),pairs.1,
      fun next member => whole.proper next (by simp [member]),pairs.2⟩
  · rintro ⟨proper,gap,rest⟩
    refine ⟨?_,List.pairwise_cons.mpr ⟨gap,rest.ordered⟩⟩
    intro next member
    rcases List.mem_cons.mp member with rfl | later
    · exact proper
    · exact rest.proper next later

theorem separated_append (first second : List ι) :
    Separated lo hi (first++second) ↔ Separated lo hi first ∧ Separated lo hi second ∧
      ∀ left ∈ first, ∀ right ∈ second, hi left < lo right := by
  constructor
  · intro whole
    obtain ⟨left,right,cross⟩ := List.pairwise_append.mp whole.ordered
    exact ⟨⟨fun s m => whole.proper s (by simp [m]),left⟩,
      ⟨fun s m => whole.proper s (by simp [m]),right⟩,cross⟩
  · rintro ⟨left,right,cross⟩
    refine ⟨?_,List.pairwise_append.mpr ⟨left.ordered,right.ordered,cross⟩⟩
    intro span member
    rcases List.mem_append.mp member with inLeft | inRight
    · exact left.proper span inLeft
    · exact right.proper span inRight

theorem Separated.join {front back : List ι} {span : ι} (left : Separated lo hi front) (right : Separated lo hi back)
    (proper : lo span < hi span) (below : ∀ s ∈ front, hi s < lo span) (above : ∀ s ∈ back, hi span < lo s) :
    Separated lo hi (front ++ span::back) := by
  apply (separated_append _ _).mpr
  refine ⟨left,(separated_cons _ _).mpr ⟨proper,above,right⟩,?_⟩
  intro s inFront t inRest
  rcases List.mem_cons.mp inRest with here | inBack
  · rw [here]
    exact below s inFront
  · exact ((below s inFront).trans proper).trans (above t inBack)

theorem Separated.beyond {span : ι} {rest : List ι} (whole : Separated lo hi (span::rest))
    {x : α} (later : Covers lo hi rest x) : hi span < x := by
  obtain ⟨next,member,lower,_⟩ := later
  exact lt_of_lt_of_le (((separated_cons span rest).mp whole).2.1 next member) lower

theorem Separated.gap_after {spans : List ι} (whole : Separated lo hi spans)
    {span : ι} (member : span ∈ spans) : ¬ Covers lo hi spans (hi span) := by
  induction spans with
  | nil => simp at member
  | cons first rest ih =>
    obtain ⟨proper,gap,tail⟩ := (separated_cons first rest).mp whole
    intro covered
    rcases List.mem_cons.mp member with rfl | later
    · rcases (covers_cons _ _ _).mp covered with ⟨_,below⟩ | inRest
      · exact lt_irrefl _ below
      · exact lt_irrefl _ (whole.beyond inRest)
    · rcases (covers_cons _ _ _).mp covered with ⟨_,below⟩ | inRest
      · have above : hi first < hi span := (gap span later).trans (tail.proper span later)
        exact lt_asymm above below
      · exact ih tail later inRest

theorem Separated.covered_of_mem {spans : List ι} (whole : Separated lo hi spans)
    {span : ι} (member : span ∈ spans) : Covers lo hi spans (lo span) :=
  ⟨span,member,le_rfl,whole.proper span member⟩

end

end QuicZig.Spans
