import QuicZig.Library.System

/-! The windowed maximum of BBR: three estimates, best first, each with the time of
its sample. A run of updates keeps the samples it was given beside the filter. -/
namespace QuicZig.Conn
open QuicZig.System

namespace WindowedMax

structure Estimate where
  val : Nat := 0
  t : Nat := 0
  deriving DecidableEq, Repr

end WindowedMax

open WindowedMax in
structure WindowedMaxFilter where
  first : Estimate := {}
  second : Estimate := {}
  third : Estimate := {}
  deriving DecidableEq, Repr

namespace WindowedMaxFilter

def max (f : WindowedMaxFilter) : Nat := f.first.val

/-- Of the three estimates, those that are older than the window. -/
def stale (f : WindowedMaxFilter) (now window : Nat) : Nat :=
  (if now-f.first.t > window then 1 else 0) + (if now-f.second.t > window then 1 else 0) +
    (if now-f.third.t > window then 1 else 0)

/-- The loop that ages the front estimate out: each turn moves the estimates up and takes the new
sample as the last one. -/
def age (f : WindowedMaxFilter) (now v window : Nat) : WindowedMaxFilter :=
  if now-f.first.t > window then
    if f.second.t = f.third.t ∧ f.second.val = f.third.val then ⟨f.second,f.third,⟨v,now⟩⟩
    else age ⟨f.second,f.third,⟨v,now⟩⟩ now v window
  else f
termination_by f.stale now window
decreasing_by
  unfold stale
  dsimp only
  split <;> split <;> split <;> omega

/-- The value that the source returns, with the filter it leaves behind. -/
def update (f : WindowedMaxFilter) (now v window : Nat) : Nat × WindowedMaxFilter :=
  if v ≥ f.first.val ∨ now-f.third.t > window then (v,⟨⟨v,now⟩,⟨v,now⟩,⟨v,now⟩⟩)
  else
    let f := if v ≥ f.second.val then {f with second := ⟨v,now⟩,third := ⟨v,now⟩}
      else if v ≥ f.third.val then {f with third := ⟨v,now⟩} else f
    let f := f.age now v window
    (f.first.val,f)

/-- All three estimates are one sample. -/
def Uniform (f : WindowedMaxFilter) : Prop := f.second = f.first ∧ f.third = f.first

/-- A filter of one sample has no other to fall back to: it keeps that sample or takes the new one. -/
theorem update_uniform {f : WindowedMaxFilter} (uniform : f.Uniform) (now v window : Nat) :
    f.update now v window = if v ≥ f.max ∨ now-f.first.t > window then (v,⟨⟨v,now⟩,⟨v,now⟩,⟨v,now⟩⟩) else (f.max,f) := by
  obtain ⟨second,third⟩ := uniform
  unfold update max
  rw [third]
  split
  · rfl
  rename_i stays
  have less : ¬ v ≥ f.first.val := fun least => stays (.inl least)
  rw [second]
  simp only [if_neg less]
  rw [age,if_neg (fun old => stays (.inr old))]

end WindowedMaxFilter

namespace WindowedMax

structure Sample where
  now : Nat
  v : Nat
  deriving DecidableEq, Repr

/-- The filter with the value of the last update and the samples, latest first. -/
structure History where
  filter : WindowedMaxFilter := {}
  value : Nat := 0
  samples : List Sample := []
  deriving DecidableEq

def step (window : Nat) (h : History) (s : Sample) : History :=
  let (value,filter) := h.filter.update s.now s.v window
  {filter := filter,value := value,samples := s::h.samples}

/-- Time does not go back. -/
def Later (h : History) (s : Sample) : Prop := ∀ earlier ∈ h.samples, earlier.now ≤ s.now

instance (h : History) (s : Sample) : Decidable (Later h s) := inferInstanceAs (Decidable (∀ earlier ∈ h.samples, _))

def HalfBelow (window now bound : Nat) (samples : List Sample) : Prop :=
  ∀ recent ∈ samples, 2*(now-recent.now) ≤ window → recent.v ≤ bound

instance (window now bound : Nat) (samples : List Sample) : Decidable (HalfBelow window now bound samples) :=
  inferInstanceAs (Decidable (∀ recent ∈ samples, _))

/-- The value lies between the largest sample of the newer half of the window and the largest of all of it. -/
def Tracks (window : Nat) (h : History) : Prop :=
  match h.samples with
  | [] => True
  | last::_ => (∃ best ∈ h.samples, last.now-best.now ≤ window ∧ h.value ≤ best.v) ∧
      HalfBelow window last.now h.value h.samples

/-- Where the estimate ages out and a smaller sample takes its place, no earlier sample of the newer
half of the window is larger than that one. -/
def FallsBack (window : Nat) (h : History) (s : Sample) : Prop :=
  s.v < h.filter.max → s.now-h.filter.first.t > window → HalfBelow window s.now s.v h.samples

instance (window : Nat) (h : History) (s : Sample) : Decidable (FallsBack window h s) :=
  inferInstanceAs (Decidable (_ → _ → _))

/-- The filter holds one of the samples, three times. -/
structure Holds (window : Nat) (h : History) : Prop where
  uniform : h.filter.Uniform
  value : h.value = h.filter.max
  none : h.samples = [] → h.filter.max = 0
  best : ∀ last rest, h.samples = last::rest → ∃ best ∈ h.samples, last.now-best.now ≤ window ∧
    h.filter.first = ⟨best.v,best.now⟩
  newest : ∀ last rest, h.samples = last::rest → ∀ earlier ∈ h.samples, earlier.now ≤ last.now

theorem fresh_holds (window : Nat) : Holds window {} :=
  ⟨⟨rfl,rfl⟩,rfl,fun _ => rfl,by simp,by simp⟩

/-- An update takes the new sample, or keeps an estimate that is larger and still in the window. -/
theorem step_cases {window : Nat} {h : History} (holds : Holds window h) (s : Sample) :
    ((h.filter.max ≤ s.v ∨ s.now-h.filter.first.t > window) ∧
      step window h s = ⟨⟨⟨s.v,s.now⟩,⟨s.v,s.now⟩,⟨s.v,s.now⟩⟩,s.v,s::h.samples⟩) ∨
    (s.v < h.filter.max ∧ s.now-h.filter.first.t ≤ window ∧ step window h s = ⟨h.filter,h.filter.max,s::h.samples⟩) := by
  unfold step
  rw [WindowedMaxFilter.update_uniform holds.uniform]
  by_cases taken : s.v ≥ h.filter.max ∨ s.now-h.filter.first.t > window
  · rw [if_pos taken]
    exact .inl ⟨taken,rfl⟩
  · rw [if_neg taken]
    exact .inr ⟨by omega,by omega,rfl⟩

theorem step_holds (window : Nat) (h : History) (s : Sample) (holds : Holds window h) (later : Later h s) :
    Holds window (step window h s) := by
  have newest : ∀ last rest, s::h.samples = last::rest → ∀ earlier ∈ s::h.samples, earlier.now ≤ last.now := by
    intro last rest same earlier member
    obtain ⟨rfl,-⟩ := List.cons.inj same
    rcases List.mem_cons.mp member with this | before
    · exact this ▸ Nat.le_refl _
    · exact later earlier before
  obtain ⟨-,after⟩ | ⟨less,inside,after⟩ := step_cases holds s
  · rw [after]
    refine ⟨⟨rfl,rfl⟩,rfl,by simp,?_,newest⟩
    intro last rest same
    obtain ⟨rfl,-⟩ := List.cons.inj same
    exact ⟨s,List.mem_cons_self,by omega,rfl⟩
  · rw [after]
    refine ⟨holds.uniform,rfl,by simp,?_,newest⟩
    intro last rest same
    obtain ⟨rfl,-⟩ := List.cons.inj same
    cases before : h.samples with
    | nil => exact absurd (holds.none before) (by omega)
    | cons previous earlier =>
      obtain ⟨best,member,-,front⟩ := holds.best previous earlier before
      rw [front] at inside
      exact ⟨best,List.mem_cons_of_mem _ (before ▸ member),inside,front⟩

theorem value_in_window {window : Nat} {h : History} (holds : Holds window h) {last : Sample} {rest : List Sample}
    (samples : h.samples = last::rest) : ∃ best ∈ h.samples, last.now-best.now ≤ window ∧ h.value ≤ best.v := by
  obtain ⟨best,member,inside,front⟩ := holds.best last rest samples
  refine ⟨best,member,inside,?_⟩
  rw [holds.value]
  exact Nat.le_of_eq (congrArg Estimate.val front)

theorem half_moves {window bound : Nat} {last s : Sample} {samples : List Sample}
    (below : HalfBelow window last.now bound samples)
    (later : last.now ≤ s.now) : HalfBelow window s.now bound samples := by
  intro recent member inside
  exact below recent member (by omega)

theorem half_cons (window bound : Nat) (s : Sample) (samples : List Sample) :
    HalfBelow window s.now bound (s::samples) ↔ s.v ≤ bound ∧ HalfBelow window s.now bound samples := by
  unfold HalfBelow
  rw [List.forall_mem_cons]
  exact and_congr_left fun _ => ⟨fun all => all (by omega),fun least _ => least⟩

/-- An update keeps the bounds exactly when it does not pass over a larger sample of the newer half. -/
theorem step_tracks (window : Nat) (h : History) (s : Sample) (holds : Holds window h) (tracks : Tracks window h)
    (later : Later h s) : Tracks window (step window h s) ↔ FallsBack window h s := by
  have holds' := step_holds window h s holds later
  have bounded : HalfBelow window s.now h.filter.max h.samples := by
    cases before : h.samples with
    | nil => exact fun recent member => absurd member List.not_mem_nil
    | cons last rest =>
      unfold Tracks at tracks
      rw [before] at tracks
      have below := tracks.2
      rw [holds.value] at below
      exact half_moves below (later last (by simp [before]))
  have half : Tracks window (step window h s) ↔ HalfBelow window s.now (step window h s).value (s::h.samples) :=
    and_iff_right (value_in_window holds' rfl)
  rw [half,half_cons]
  obtain ⟨taken,after⟩ | ⟨less,inside,after⟩ := step_cases holds s
  · rw [after]
    constructor
    · intro both _ _
      exact both.2
    · intro falls
      refine ⟨Nat.le_refl _,?_⟩
      by_cases less : s.v < h.filter.max
      · exact falls less (taken.resolve_left (by omega))
      · intro recent member inside
        exact Nat.le_trans (bounded recent member inside) (Nat.le_of_not_lt less)
  · rw [after]
    constructor
    · intro _ _ old
      omega
    · intro _
      exact ⟨Nat.le_of_lt less,bounded⟩

/-- Over any run of updates whose times do not go back, the value keeps to its bounds after each of
them just in case no update passes over a larger sample of the newer half. -/
theorem tracks_iff_falls_back (window : Nat) (samples : List Sample) (ordered : Admits (step window) Later {} samples) :
    Throughout (Tracks window) (step window) {} samples ↔ Admits (step window) (FallsBack window) {} samples :=
  throughout_iff (fun h s (holds : Holds window h) later => step_holds window h s holds later)
    (fun h s holds tracks later => step_tracks window h s holds tracks later) (fresh_holds window) trivial ordered

/-- A maximum of 150 leaves the window; of the samples 90 and 70 that are left, the later one follows it. -/
def agedOut : List Sample := [⟨1,100⟩,⟨2,80⟩,⟨3,150⟩,⟨10,90⟩,⟨15,70⟩]

/-- While 150 is in the window the condition is met. -/
theorem before_aging : Throughout (Tracks 10) (step 10) {} (agedOut.take 4) :=
  (tracks_iff_falls_back 10 (agedOut.take 4) (by decide +kernel)).mpr (by decide +kernel)

/-- The estimate falls to 70 over a sample of 90 in the newer half of the window. -/
theorem newest_replaces_best : ¬ ∀ (window : Nat) (samples : List Sample), Admits (step window) Later {} samples →
    Throughout (Tracks window) (step window) {} samples := by
  intro tracks
  have last : Tracks 10 (run (step 10) {} agedOut) := (tracks 10 agedOut (by decide +kernel)).last
  have below : HalfBelow 10 15 (run (step 10) {} agedOut).value agedOut.reverse := last.2
  exact absurd (below ⟨10,90⟩ (by decide +kernel) (by decide)) (by decide +kernel)

end WindowedMax

end QuicZig.Conn
