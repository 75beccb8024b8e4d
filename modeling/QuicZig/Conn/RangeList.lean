import Mathlib.Data.List.TakeWhile
import Mathlib.Order.Interval.Set.Basic
import QuicZig.Machine
import QuicZig.Library.Spans
import QuicZig.Library.Search

/-! Sorted lists of disjoint half-open byte ranges, shared by both halves of a
stream. Each operation is the loop of the source over the list; its lemmas say
that it keeps the list sorted and what it does to the covered bytes. -/
namespace QuicZig.RangeList
open Machine Spans

structure Range where
  offset : Nat
  stop : Nat
  deriving DecidableEq, Repr

def Range.len (r : Range) : Nat := r.stop - r.offset

abbrev Covered (list : List Range) (x : Nat) : Prop := Covers Range.offset Range.stop list x

abbrev Sorted (list : List Range) : Prop := Separated Range.offset Range.stop list

theorem covered_cons (r : Range) (rest : List Range) (x : Nat) :
    Covered (r::rest) x ↔ (r.offset ≤ x ∧ x < r.stop) ∨ Covered rest x := covers_cons r rest x

theorem covered_append (first second : List Range) (x : Nat) :
    Covered (first ++ second) x ↔ Covered first x ∨ Covered second x := covers_append first second x

abbrev Outcome := Except AllocError Unit × List Range

/-- The merge loop: ranges that touch the merged one from above join it. -/
def swallow (merged : Range) : List Range → Range × List Range
  | [] => (merged,[])
  | r::rest => if r.offset ≤ merged.stop then swallow {merged with stop := max merged.stop r.stop} rest else (merged,r::rest)

def insertMerge (granted : Bool) (list : List Range) (new : Range) : Outcome :=
  if new.offset ≥ new.stop then (.ok (),list) else
  let before := list.takeWhile (·.stop < new.offset)
  match list.dropWhile (·.stop < new.offset) with
  | [] => if granted then (.ok (),before ++ [new]) else (.error .outOfMemory,list)
  | first::rest =>
    if first.offset > new.stop then
      if granted then (.ok (),before ++ new::first::rest) else (.error .outOfMemory,list)
    else
      let (merged,after) := swallow ⟨min first.offset new.offset,max first.stop new.stop⟩ rest
      (.ok (),before ++ merged::after)

/-- The loop of `removeRange` from the current index on. -/
def removeFrom (granted : Bool) (rem : Range) : List Range → Outcome
  | [] => (.ok (),[])
  | r::rest =>
    if r.stop ≤ rem.offset then
      let (result,list) := removeFrom granted rem rest
      (result,r::list)
    else if r.offset ≥ rem.stop then (.ok (),r::rest)
    else if r.offset < rem.offset ∧ r.stop > rem.stop then
      if granted then (.ok (),{r with stop := rem.offset}::⟨rem.stop,r.stop⟩::rest)
      else (.error .outOfMemory,r::rest)
    else if r.offset ≥ rem.offset ∧ r.stop ≤ rem.stop then removeFrom granted rem rest
    else if r.offset < rem.offset then
      let (result,list) := removeFrom granted rem rest
      (result,{r with stop := rem.offset}::list)
    else
      let (result,list) := removeFrom granted rem rest
      (result,{r with offset := rem.stop}::list)

def removeRange (granted : Bool) (list : List Range) (rem : Range) : Outcome :=
  if rem.offset ≥ rem.stop then (.ok (),list) else removeFrom granted rem list

/-- How `point` stands to the range at an index, as the search of `findPoint` asks it. -/
def probe (list : List Range) (point i : Nat) : Ordering :=
  match list[i]? with
  | none => .gt
  | some r => if point < r.offset then .gt else if point ≥ r.stop then .lt else .eq

def findPoint (list : List Range) (point : Nat) : Option Nat := Search.find (probe list point) list.length 0 list.length

def containsPoint (list : List Range) (point : Nat) : Bool := (findPoint list point).isSome

def removalSplits (list : List Range) (point : Nat) : Bool :=
  match (findPoint list point).bind (list[·]?) with
  | none => false
  | some r => decide (point ≠ r.offset ∧ point ≠ r.stop-1)

def Range.without (r : Range) (point : Nat) : List Range :=
  if r.len = 1 then []
  else if point = r.offset then [{r with offset := point+1}]
  else if point = r.stop-1 then [{r with stop := point}]
  else [{r with stop := point},⟨point+1,r.stop⟩]

/-- Only a range that is cut in two needs room for one more. -/
def removePoint (granted : Bool) (list : List Range) (point : Nat) : Except AllocError Bool × List Range :=
  match findPoint list point with
  | none => (.ok false,list)
  | some i =>
    match list[i]? with
    | none => (.ok false,list)
    | some r =>
      if removalSplits list point && !granted then (.error .outOfMemory,list)
      else (.ok true,list.take i ++ (r.without point ++ list.drop (i+1)))

theorem swallow_spec (merged : Range) (rest : List Range) (proper : merged.offset < merged.stop)
    (sorted : Sorted rest) (above : ∀ r ∈ rest, merged.offset ≤ r.offset) :
    (swallow merged rest).1.offset = merged.offset ∧
      Sorted ((swallow merged rest).1::(swallow merged rest).2) ∧
      ∀ x, Covered ((swallow merged rest).1::(swallow merged rest).2) x ↔
        (merged.offset ≤ x ∧ x < merged.stop) ∨ Covered rest x := by
  induction rest generalizing merged with
  | nil => exact ⟨rfl,(separated_cons _ _).mpr ⟨proper,by simp [swallow],separated_nil⟩,by simp [swallow]⟩
  | cons r rest ih =>
    obtain ⟨real,gap,tail⟩ := (separated_cons r rest).mp sorted
    have lower := above r (by simp)
    unfold swallow
    split
    · rename_i touches
      obtain ⟨offset,sorted',covers⟩ := ih {merged with stop := max merged.stop r.stop}
        (lt_of_lt_of_le proper (le_max_left _ _)) tail (fun next member => above next (by simp [member]))
      refine ⟨offset,sorted',?_⟩
      intro x
      rw [covers]
      simp only [covers_cons]
      constructor
      · rintro (⟨low,high⟩ | later)
        · rcases lt_or_ge x merged.stop with first | first
          · exact .inl ⟨low,first⟩
          · have : x < max merged.stop r.stop := high
            exact .inr (.inl ⟨by omega,by omega⟩)
        · exact .inr (.inr later)
      · rintro (⟨low,high⟩ | ⟨low,high⟩ | later)
        · exact .inl ⟨low,lt_of_lt_of_le high (le_max_left _ _)⟩
        · exact .inl ⟨lower.trans low,lt_of_lt_of_le high (le_max_right _ _)⟩
        · exact .inr later
    · rename_i apart
      refine ⟨rfl,(separated_cons _ _).mpr ⟨proper,?_,sorted⟩,fun x => covers_cons _ _ _⟩
      intro next member
      change merged.stop < next.offset
      rcases List.mem_cons.mp member with rfl | later
      · omega
      · have := gap next later
        omega

section
variable {before first new rest other : Prop}

theorem or_placed : before ∨ new ∨ rest ↔ (before ∨ rest) ∨ new := by
  rw [or_assoc,or_comm (a := new)]

theorem or_merged : before ∨ (first ∨ new) ∨ rest ↔ (before ∨ first ∨ rest) ∨ new := by
  rw [or_assoc,or_assoc,or_assoc,or_comm (a := new)]

theorem and_removed (lower : before → other) (upper : rest → other) :
    before ∨ (first ∧ other) ∨ rest ↔ (before ∨ first ∨ rest) ∧ other := by
  tauto

end

theorem insertMerge_spec (granted : Bool) (list : List Range) (new : Range) (sorted : Sorted list)
    (ok : (insertMerge granted list new).1 = .ok ()) :
    Sorted (insertMerge granted list new).2 ∧
      ∀ x, Covered (insertMerge granted list new).2 x ↔ Covered list x ∨ (new.offset ≤ x ∧ x < new.stop) := by
  revert ok
  unfold insertMerge
  split
  · rename_i empty
    intro _
    exact ⟨sorted,fun x => ⟨.inl,fun both => both.elim id (fun inside => absurd inside.1 (by omega))⟩⟩
  rename_i proper
  have below : ∀ r ∈ list.takeWhile (·.stop < new.offset), r.stop < new.offset := by
    intro r member
    simpa using List.mem_takeWhile_imp member
  have whole : list.takeWhile (·.stop < new.offset) ++ list.dropWhile (·.stop < new.offset) = list :=
    List.takeWhile_append_dropWhile
  generalize list.takeWhile (·.stop < new.offset) = before at below whole
  have start : ∀ first rest, list.dropWhile (·.stop < new.offset) = first::rest → new.offset ≤ first.stop := by
    intro first rest equal
    have head := List.head_dropWhile_not (fun r : Range => decide (r.stop < new.offset)) (l := list) (by simp [equal])
    simpa [equal] using head
  generalize list.dropWhile (·.stop < new.offset) = after at whole start
  subst whole
  obtain ⟨lower,upper,cross⟩ := (separated_append before after).mp sorted
  cases after with
  | nil =>
    cases granted with
    | false => simp
    | true =>
      intro _
      refine ⟨(separated_append _ _).mpr ⟨lower,(separated_cons _ _).mpr ⟨by omega,by simp,separated_nil⟩,?_⟩,by simp⟩
      intro left inLeft right inRight
      simp only [List.mem_singleton] at inRight
      exact inRight ▸ below left inLeft
  | cons first rest =>
    have touch := start first rest rfl
    obtain ⟨real,gap,tail⟩ := (separated_cons first rest).mp upper
    dsimp only
    split
    · rename_i apart
      cases granted with
      | false => simp
      | true =>
        intro _
        refine ⟨(separated_append _ _).mpr ⟨lower,(separated_cons _ _).mpr ⟨by omega,?_,upper⟩,?_⟩,?_⟩
        · intro next member
          rcases List.mem_cons.mp member with rfl | later
          · exact apart
          · have := gap next later
            omega
        · intro left inLeft right inRight
          rcases List.mem_cons.mp inRight with rfl | later
          · exact below left inLeft
          · exact cross left inLeft right later
        · intro x
          simp only [ite_true,covers_append,covers_cons]
          exact or_placed
    · rename_i joined
      intro _
      obtain ⟨offset,sorted',covers⟩ := swallow_spec ⟨min first.offset new.offset,max first.stop new.stop⟩ rest
        (by simp; omega) tail (by
          intro next member
          have := gap next member
          simp
          omega)
      refine ⟨(separated_append _ _).mpr ⟨lower,sorted',?_⟩,?_⟩
      · intro left inLeft right inRight
        have near : left.stop < min first.offset new.offset :=
          lt_min (cross left inLeft first (by simp)) (below left inLeft)
        rcases List.mem_cons.mp inRight with rfl | later
        · exact offset ▸ near
        · obtain ⟨properMerged,gapMerged,_⟩ := (separated_cons _ _).mp sorted'
          have := gapMerged right later
          rw [offset] at properMerged
          simp only at properMerged
          omega
      · intro x
        have join : (min first.offset new.offset ≤ x ∧ x < max first.stop new.stop) ↔
            (first.offset ≤ x ∧ x < first.stop) ∨ (new.offset ≤ x ∧ x < new.stop) := by
          omega
        simp only [covers_append,covers,covers_cons,join]
        exact or_merged

theorem insertMerge_error (granted : Bool) (list : List Range) (new : Range) (error : AllocError)
    (failed : (insertMerge granted list new).1 = .error error) :
    granted = false ∧ (insertMerge granted list new).2 = list := by
  revert failed
  unfold insertMerge
  split
  · simp
  · dsimp only
    split
    · cases granted <;> simp
    · split
      · cases granted <;> simp
      · simp

theorem removeFrom_ok (granted : Bool) (rem : Range) (list : List Range)
    (above : ∀ r ∈ list, rem.offset ≤ r.offset) : (removeFrom granted rem list).1 = .ok () := by
  induction list with
  | nil => rfl
  | cons r rest ih =>
    have first := above r (by simp)
    have later := ih (fun next member => above next (by simp [member]))
    unfold removeFrom
    grind

/-- A removal keeps the list sorted. It takes out exactly the removed interval, or fails and
leaves the bytes as they were. -/
theorem removeFrom_spec (granted : Bool) (list : List Range) (rem : Range) (proper : rem.offset < rem.stop)
    (sorted : Sorted list) :
    Sorted (removeFrom granted rem list).2 ∧
      (∀ bound, (∀ r ∈ list, bound < r.offset) → ∀ r ∈ (removeFrom granted rem list).2, bound < r.offset) ∧
      ∀ x, Covered (removeFrom granted rem list).2 x ↔
        Covered list x ∧ ((removeFrom granted rem list).1 = .ok () → ¬ (rem.offset ≤ x ∧ x < rem.stop)) := by
  induction list with
  | nil => simp [removeFrom]
  | cons r rest ih =>
    obtain ⟨real,gap,tail⟩ := (separated_cons r rest).mp sorted
    obtain ⟨sorted',above,covers⟩ := ih tail
    have later := above r.stop gap
    have beyond : ∀ x, Covered rest x → r.stop < x := fun x inside => sorted.beyond inside
    unfold removeFrom
    split
    · rename_i before
      refine ⟨(separated_cons _ _).mpr ⟨real,later,sorted'⟩,?_,?_⟩
      · intro bound low next member
        rcases List.mem_cons.mp member with rfl | inRest
        · exact low _ (by simp)
        · exact above bound (fun r member => low r (by simp [member])) next inRest
      · intro x
        simp only [covers_cons,covers]
        grind
    split
    · rename_i after
      refine ⟨sorted,fun bound low => low,?_⟩
      intro x
      have := beyond x
      simp only [covers_cons]
      grind
    split
    · rename_i inside
      cases granted with
      | false => exact ⟨sorted,fun bound low => low,by simp⟩
      | true =>
        refine ⟨?_,?_,?_⟩
        · have right : Sorted (⟨rem.stop,r.stop⟩::rest) := (separated_cons _ _).mpr ⟨inside.2,gap,tail⟩
          refine (separated_cons _ _).mpr ⟨inside.1,?_,right⟩
          intro next member
          rcases List.mem_cons.mp member with rfl | inRest
          · exact proper
          · have := gap next inRest
            change rem.offset < next.offset
            omega
        · intro bound low next member
          simp only [ite_true,List.mem_cons] at member
          have first := low r (by simp)
          rcases member with rfl | rfl | inRest
          · exact first
          · change bound < rem.stop
            omega
          · exact low next (by simp [inRest])
        · intro x
          have := beyond x
          simp only [ite_true,covers_cons]
          grind
    split
    · rename_i swallowed
      have ok := removeFrom_ok granted rem rest (fun next member => by have := gap next member; omega)
      refine ⟨sorted',fun bound low => above bound (fun r member => low r (by simp [member])),?_⟩
      intro x
      simp only [covers_cons,covers]
      grind
    split
    · rename_i overlap
      have ok := removeFrom_ok granted rem rest (fun next member => by have := gap next member; omega)
      refine ⟨(separated_cons _ _).mpr ⟨overlap,?_,sorted'⟩,?_,?_⟩
      · intro next member
        have := later next member
        change rem.offset < next.offset
        omega
      · intro bound low next member
        have first := low r (by simp)
        rcases List.mem_cons.mp member with rfl | inRest
        · exact first
        · exact above bound (fun r member => low r (by simp [member])) next inRest
      · intro x
        simp only [covers_cons,covers]
        have := beyond x
        grind
    · rename_i notBefore
      have ok := removeFrom_ok granted rem rest (fun next member => by have := gap next member; omega)
      refine ⟨(separated_cons _ _).mpr ⟨?_,later,sorted'⟩,?_,?_⟩
      · change rem.stop < r.stop
        omega
      · intro bound low next member
        have first := low r (by simp)
        rcases List.mem_cons.mp member with rfl | inRest
        · change bound < rem.stop
          omega
        · exact above bound (fun r member => low r (by simp [member])) next inRest
      · intro x
        simp only [covers_cons,covers]
        have := beyond x
        grind

theorem removeRange_spec (granted : Bool) (list : List Range) (rem : Range) (sorted : Sorted list) :
    Sorted (removeRange granted list rem).2 ∧
      ∀ x, Covered (removeRange granted list rem).2 x ↔
        Covered list x ∧ ((removeRange granted list rem).1 = .ok () → ¬ (rem.offset ≤ x ∧ x < rem.stop)) := by
  unfold removeRange
  split
  · exact ⟨sorted,fun x => by simp; omega⟩
  · rename_i proper
    obtain ⟨sorted',_,covers⟩ := removeFrom_spec granted list rem (by omega) sorted
    exact ⟨sorted',covers⟩

theorem removeRange_granted (list : List Range) (rem : Range) : (removeRange true list rem).1 = .ok () := by
  have walk : ∀ list, (removeFrom true rem list).1 = .ok () := by
    intro list
    induction list with
    | nil => rfl
    | cons r rest ih =>
      unfold removeFrom
      grind
  unfold removeRange
  split
  · rfl
  · exact walk list

theorem insertMerge_granted (list : List Range) (new : Range) : (insertMerge true list new).1 = .ok () := by
  cases result : (insertMerge true list new).1 with
  | ok _ => rfl
  | error e => exact absurd (insertMerge_error _ _ _ e result).1 (by simp)

/-- Skipping the ranges that end at or below `pos` changes nothing at or above it. -/
theorem dropWhile_spec (list : List Range) (pos : Nat) (sorted : Sorted list) :
    Sorted (list.dropWhile (·.stop ≤ pos)) ∧ (∀ r ∈ list.dropWhile (·.stop ≤ pos), pos < r.stop) ∧
      ∀ x, pos ≤ x → (Covered (list.dropWhile (·.stop ≤ pos)) x ↔ Covered list x) := by
  induction list with
  | nil => simp
  | cons r rest ih =>
    obtain ⟨proper,gap,tail⟩ := (separated_cons r rest).mp sorted
    by_cases below : r.stop ≤ pos
    · rw [List.dropWhile_cons_of_pos (by simpa using below)]
      obtain ⟨sorted',above,same⟩ := ih tail
      refine ⟨sorted',above,?_⟩
      intro x high
      rw [same x high,covered_cons]
      constructor
      · exact .inr
      · intro either
        apply either.resolve_left
        omega
    · rw [List.dropWhile_cons_of_neg (by simpa using below)]
      refine ⟨sorted,?_,fun x _ => Iff.rfl⟩
      intro next member
      rcases List.mem_cons.mp member with first | later
      · rw [first]
        omega
      · have beyond := gap next later
        have proper' := tail.proper next later
        omega

theorem within_of_covered (list : List Range) (sorted : Sorted list) (low high : Nat)
    (inside : ∀ x, Covered list x → low ≤ x ∧ x < high) (r : Range) (member : r ∈ list) :
    low ≤ r.offset ∧ r.offset < r.stop ∧ r.stop ≤ high := by
  have proper := sorted.proper r member
  have first := inside r.offset ⟨r,member,le_rfl,proper⟩
  have last := inside (r.stop-1) ⟨r,member,by omega,by omega⟩
  omega

theorem probe_eq {list : List Range} {point i : Nat} (found : probe list point i = .eq) :
    ∃ r, list[i]? = some r ∧ r.offset ≤ point ∧ point < r.stop := by
  unfold probe at found
  cases here : list[i]? with
  | none => simp [here] at found
  | some r =>
    rw [here] at found
    grind

theorem findPoint_none {list : List Range} (sorted : Sorted list) {point : Nat} (missed : findPoint list point = none) :
    ¬ Covered list point := by
  rintro ⟨r,member,low,high⟩
  obtain ⟨i,bound,rfl⟩ := List.mem_iff_getElem.mp member
  refine Search.find_none (probe list point) list.length 0 list.length (by omega) ?_ missed i (by omega) bound ?_
  · intro j k before inside other
    have first : list[j]? = some list[j] := List.getElem?_eq_getElem (by omega)
    have second : list[k]? = some list[k] := List.getElem?_eq_getElem inside
    have gap : list[j].stop < list[k].offset := List.pairwise_iff_getElem.mp sorted.ordered j k (by omega) inside before
    have proper := sorted.proper list[j] (List.getElem_mem _)
    unfold probe at other ⊢
    rw [first] at other
    rw [second]
    dsimp only at other ⊢
    by_cases early : point < list[j].stop
    · rw [if_pos (by omega)]
    · rw [if_neg (by omega),if_pos (by omega)] at other
      exact absurd rfl other
  · unfold probe
    rw [List.getElem?_eq_getElem bound]
    dsimp only
    rw [if_neg (by omega),if_neg (by omega)]

theorem findPoint_some {list : List Range} {point i : Nat} (found : findPoint list point = some i) :
    ∃ r, list[i]? = some r ∧ r.offset ≤ point ∧ point < r.stop :=
  probe_eq (Search.find_some _ _ _ _ _ found).2.2

theorem containsPoint_iff {list : List Range} (sorted : Sorted list) (point : Nat) :
    containsPoint list point = true ↔ Covered list point := by
  unfold containsPoint
  cases search : findPoint list point with
  | none => simp [findPoint_none sorted search]
  | some i =>
    obtain ⟨r,here,inside⟩ := findPoint_some search
    exact ⟨fun _ => ⟨r,List.mem_of_getElem? here,inside⟩,fun _ => rfl⟩

theorem without_spec {r : Range} {point : Nat} (low : r.offset ≤ point) (high : point < r.stop) :
    Sorted (r.without point) ∧ (∀ x, Covered (r.without point) x ↔ (r.offset ≤ x ∧ x < r.stop) ∧ x ≠ point) ∧
      ∀ part ∈ r.without point, r.offset ≤ part.offset ∧ part.stop ≤ r.stop := by
  unfold Range.without Range.len
  split
  · exact ⟨separated_nil,fun x => by simp; omega,by simp⟩
  split
  · refine ⟨(separated_cons _ _).mpr ⟨by dsimp only; omega,by simp,separated_nil⟩,fun x => ?_,by simp; omega⟩
    simp only [covers_cons,covers_nil,or_false]
    omega
  split
  · refine ⟨(separated_cons _ _).mpr ⟨by dsimp only; omega,by simp,separated_nil⟩,fun x => ?_,by simp; omega⟩
    simp only [covers_cons,covers_nil,or_false]
    omega
  · refine ⟨(separated_cons _ _).mpr ⟨by dsimp only; omega,by simp,(separated_cons _ _).mpr
      ⟨by dsimp only; omega,by simp,separated_nil⟩⟩,
      fun x => ?_,by simp; omega⟩
    simp only [covers_cons,covers_nil,or_false]
    omega

/-- Taking a point out of the list takes it out of the covered ones; a refusal changes nothing. -/
theorem removePoint_error (granted : Bool) (list : List Range) (point : Nat) :
    match removePoint granted list point with
    | (.error _,after) => after = list
    | _ => True := by
  unfold removePoint
  cases findPoint list point with
  | none => trivial
  | some i =>
    dsimp only
    cases list[i]? with
    | none => trivial
    | some r =>
      dsimp only
      cases removalSplits list point && !granted <;> trivial

theorem removePoint_spec {list : List Range} (sorted : Sorted list) (granted : Bool) (point : Nat) :
    match removePoint granted list point with
    | (.ok true,after) => Covered list point ∧ Sorted after ∧ ∀ x, Covered after x ↔ Covered list x ∧ x ≠ point
    | (.ok false,after) => ¬ Covered list point ∧ after = list
    | (.error _,after) => after = list := by
  unfold removePoint
  cases search : findPoint list point with
  | none => exact ⟨findPoint_none sorted search,rfl⟩
  | some i =>
    obtain ⟨r,here,low,high⟩ := findPoint_some search
    have bound := (List.getElem?_eq_some_iff.mp here).1
    have whole : list = list.take i ++ r::list.drop (i+1) := by
      rw [← (List.getElem?_eq_some_iff.mp here).2,List.getElem_cons_drop,List.take_append_drop]
    dsimp only
    rw [here]
    by_cases refused : (removalSplits list point && !granted) = true
    · simp only [if_pos refused]
    · simp only [if_neg refused]
      rw [whole] at sorted
      obtain ⟨front,back,cross⟩ := (separated_append _ _).mp sorted
      obtain ⟨proper,gap,tail⟩ := (separated_cons _ _).mp back
      obtain ⟨parts,covers,within⟩ := without_spec low high
      have inside : ∀ x, Covered list x ↔ Covered (list.take i) x ∨ (r.offset ≤ x ∧ x < r.stop) ∨
        Covered (list.drop (i+1)) x := by
        intro x
        rw [← covered_cons r,← covered_append,← whole]
      refine ⟨⟨r,List.mem_of_getElem? here,low,high⟩,?_,?_⟩
      · refine (separated_append _ _).mpr ⟨front,(separated_append _ _).mpr ⟨parts,tail,?_⟩,?_⟩
        · intro part member next later
          exact lt_of_le_of_lt (within part member).2 (gap next later)
        · intro left before next member
          rcases List.mem_append.mp member with part | later
          · exact lt_of_lt_of_le (cross left before r List.mem_cons_self) (within next part).1
          · exact cross left before next (List.mem_cons_of_mem _ later)
      · intro x
        rw [covered_append,covered_append,covers,inside]
        have before : Covered (list.take i) x → x ≠ point := by
          rintro ⟨left,member,_,stop⟩
          have := cross left member r List.mem_cons_self
          omega
        have after : Covered (list.drop (i+1)) x → x ≠ point := by
          rintro ⟨next,member,start,_⟩
          have := gap next member
          omega
        exact and_removed before after

/-! The operations on the sets of covered integers. -/

/-- A removal that fails was refused the room for a split, and no range before the split one was touched. -/
theorem removeFrom_error {granted : Bool} {list : List Range} {rem : Range} (sorted : Sorted list) {error : AllocError}
    (failed : (removeFrom granted rem list).1 = .error error) :
    granted = false ∧ (removeFrom granted rem list).2 = list := by
  induction list with
  | nil => cases failed
  | cons r rest ih =>
    obtain ⟨real,gap,tail⟩ := (separated_cons r rest).mp sorted
    -- Past a range that reaches into the removed interval, the ranges begin above it.
    have reached (into : rem.offset < r.stop) : (removeFrom granted rem rest).1 ≠ .error error := by
      rw [removeFrom_ok granted rem rest (fun next member => by have := gap next member; omega)]
      simp
    unfold removeFrom at failed ⊢
    split at failed
    · rename_i before
      rw [if_pos before]
      obtain ⟨refused,same⟩ := ih tail failed
      exact ⟨refused,congrArg (r::·) same⟩
    rename_i into
    rw [if_neg into]
    split at failed
    · cases failed
    rename_i under
    rw [if_neg under]
    split at failed
    · rename_i inside
      rw [if_pos inside]
      cases granted with
      | true => cases failed
      | false => exact ⟨rfl,rfl⟩
    split at failed
    · exact absurd failed (reached (by omega))
    split at failed <;> exact absurd failed (reached (by omega))

theorem removeRange_error {granted : Bool} {list : List Range} {rem : Range} (sorted : Sorted list) {error : AllocError}
    (failed : (removeRange granted list rem).1 = .error error) :
    granted = false ∧ (removeRange granted list rem).2 = list := by
  unfold removeRange at failed ⊢
  split at failed
  · cases failed
  · rename_i proper
    rw [if_neg proper]
    exact removeFrom_error sorted failed

def Range.points (r : Range) : Set Nat := Set.Ico r.offset r.stop

def points (list : List Range) : Set Nat := fun x => Covered list x

/-- The outcome of an operation that may fail: the list stays sorted and covers `target`, or memory
was refused and the list is the old one. -/
def Computes {α : Type} (granted : Bool) (list : List Range) (target : α → Set Nat) : Except AllocError α × List Range → Prop
  | (.ok result,after) => Sorted after ∧ points after = target result
  | (.error _,after) => granted = false ∧ after = list

theorem insertMerge_computes {list : List Range} (sorted : Sorted list) (granted : Bool) (new : Range) :
    Computes granted list (fun _ => points list ∪ new.points) (insertMerge granted list new) := by
  have spec := insertMerge_spec granted list new sorted
  have error := insertMerge_error granted list new
  generalize insertMerge granted list new = outcome at *
  rcases outcome with ⟨result | result,after⟩
  · exact error result rfl
  · obtain ⟨sorted',covers⟩ := spec rfl
    refine ⟨sorted',?_⟩
    ext x
    exact covers x

theorem removeRange_computes {list : List Range} (sorted : Sorted list) (granted : Bool) (rem : Range) :
    Computes granted list (fun _ => points list \ rem.points) (removeRange granted list rem) := by
  obtain ⟨sorted',covers⟩ := removeRange_spec granted list rem sorted
  have error := fun e (failed : (removeRange granted list rem).1 = .error e) => removeRange_error sorted failed
  generalize removeRange granted list rem = outcome at *
  rcases outcome with ⟨result | result,after⟩
  · exact error result rfl
  · refine ⟨sorted',?_⟩
    ext x
    exact (covers x).trans (and_congr_right fun _ => forall_prop_of_true rfl)

theorem removePoint_refused {granted : Bool} {list after : List Range} {point : Nat} {error : AllocError}
    (failed : removePoint granted list point = (.error error,after)) : granted = false := by
  unfold removePoint at failed
  split at failed
  · cases failed
  split at failed
  · cases failed
  split at failed
  · rename_i refused
    simpa using (Bool.and_eq_true_iff.mp refused).2
  · cases failed

/-- Taking out a point that is not there is answered with `false`, and only that. -/
theorem removePoint_computes {list : List Range} (sorted : Sorted list) (granted : Bool) (point : Nat) :
    Computes granted list (fun _ => points list \ {point}) (removePoint granted list point) ∧
      ∀ found, (removePoint granted list point).1 = .ok found → (found = true ↔ point ∈ points list) := by
  have spec := removePoint_spec sorted granted point
  cases outcome : removePoint granted list point with
  | mk result after =>
    rw [outcome] at spec
    cases result with
    | error e => exact ⟨⟨removePoint_refused outcome,spec⟩,by simp⟩
    | ok found =>
      cases found with
      | true =>
        obtain ⟨covered,sorted',covers⟩ := spec
        refine ⟨⟨sorted',?_⟩,?_⟩
        · ext x
          exact covers x
        · intro found same
          cases same
          exact iff_of_true rfl covered
      | false =>
        obtain ⟨outside,same⟩ := spec
        refine ⟨⟨same ▸ sorted,?_⟩,?_⟩
        · rw [same]
          exact (Set.sdiff_singleton_eq_self (show point ∉ points list from outside)).symm
        · intro found same
          cases same
          exact iff_of_false Bool.false_ne_true outside

/-- On a sorted list the operations compute union, difference and membership of the covered integers,
keep the list sorted, and leave it alone when memory is refused. -/
theorem operations_on_sets (list : List Range) (sorted : Sorted list) (granted : Bool) :
    (∀ new, Computes granted list (fun _ => points list ∪ new.points) (insertMerge granted list new)) ∧
      (∀ point, Computes granted list (fun _ => points list \ {point}) (removePoint granted list point) ∧
        ∀ found, (removePoint granted list point).1 = .ok found → (found = true ↔ point ∈ points list)) ∧
      (∀ rem, Computes granted list (fun _ => points list \ rem.points) (removeRange granted list rem)) ∧
      ∀ point, ((findPoint list point).isSome = true ↔ point ∈ points list) ∧
        ∀ i, findPoint list point = some i → ∃ r, list[i]? = some r ∧ point ∈ r.points :=
  ⟨insertMerge_computes sorted granted,removePoint_computes sorted granted,removeRange_computes sorted granted,
    fun point => ⟨containsPoint_iff sorted point,fun _ found => findPoint_some found⟩⟩

/-- Two ranges, the second one too wide for a removal in its middle to need no room. -/
theorem operations_on_two_ranges : Sorted [⟨0,4⟩,⟨10,20⟩] ∧
    Computes false [⟨0,4⟩,⟨10,20⟩] (fun _ => points [⟨0,4⟩,⟨10,20⟩] \ Range.points ⟨12,14⟩)
      (removeRange false [⟨0,4⟩,⟨10,20⟩] ⟨12,14⟩) := by
  have sorted : Sorted [⟨0,4⟩,⟨10,20⟩] := by
    refine (separated_cons _ _).mpr ⟨by decide,?_,(separated_cons _ _).mpr ⟨by decide,by simp,separated_nil⟩⟩
    intro next member
    rw [List.mem_singleton.mp member]
    decide
  exact ⟨sorted,(operations_on_sets [⟨0,4⟩,⟨10,20⟩] sorted false).2.2.1 ⟨12,14⟩⟩

end QuicZig.RangeList
