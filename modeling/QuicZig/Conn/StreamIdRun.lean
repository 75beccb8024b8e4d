import Mathlib.Tactic
import Mathlib.Data.Finset.Lattice.Fold
import Mathlib.Order.Interval.Finset.Nat
import QuicZig.Conn.StreamIdSpace
import QuicZig.Library.System

/-! Runs of a stream id space beside a model that remembers every id. The watermark and
the holes of the space answer what the whole memory would. -/
namespace QuicZig.Conn.StreamIdRun
open Machine RangeList StreamIdSpace

inductive Status where
  | notOpened | skipped | «open» | closed
  deriving DecidableEq, Repr

/-- Every index that was ever opened, and which of them were closed. -/
structure Memory where
  used : Finset Nat := ∅
  closed : Finset Nat := ∅
  limit : Nat := 0
  window : Nat := 0
  deriving DecidableEq

/-- One past the highest index of the set. -/
def top (used : Finset Nat) : Nat := used.sup (· + 1)

/-- The indices below the highest one that were never opened. -/
def skipped (used : Finset Nat) : Finset Nat := (Finset.range (top used)).filter (· ∉ used)

/-- How many runs the skipped indices form: each is counted where it begins. -/
def runs (used : Finset Nat) : Nat := ((skipped used).filter fun i => i = 0 ∨ i-1 ∉ skipped used).card

namespace Memory

def status (m : Memory) (index : Nat) : Status :=
  if index ∈ m.closed then .closed
  else if index ∈ m.used then .open
  else if index < top m.used then .skipped
  else .notOpened

/-- An index is openable once, below the limit; one more run of skipped indices takes memory and counts against the cap. -/
def «open» (granted : Bool) (m : Memory) (index : Nat) (maxHoleRanges : Option Nat) : Except Error Unit × Memory :=
  if m.limit ≤ index then (.error .limitExceeded,m)
  else if index ∈ m.used then (.error .alreadyUsed,m)
  else if runs m.used < runs (insert index m.used) ∧ maxHoleRanges.any (runs m.used ≥ ·) then (.error .tooManySkippedIds,m)
  else if runs m.used < runs (insert index m.used) ∧ granted = false then (.error .outOfMemory,m)
  else (.ok (),{m with used := insert index m.used})

def close (m : Memory) (index : Nat) : Memory := {m with closed := insert index m.closed}

def target (m : Memory) : Nat := min (saturatingAdd m.window m.closed.card) maxStreamCount

/-- Credit is given when half a window of it has built up, or when the peer has used or asks for more than it has. -/
def creditToAdvertise (m : Memory) (peerBlockedAt : Option Nat) : Option Nat :=
  if m.limit < m.target ∧ (max 1 (m.window/2) ≤ m.target-m.limit ∨ m.limit ≤ top m.used ∨ peerBlockedAt.any (· ≥ m.limit)) then
    some m.target
  else none

def raiseLimit (m : Memory) (newLimit : Nat) : Memory := {m with limit := max m.limit (min newLimit maxStreamCount)}

end Memory

/-- The space, the table of live streams beside it, and the model. -/
structure History where
  ids : StreamIdSpace
  live : Finset Nat := ∅
  memory : Memory

inductive Event where
  | «open» (granted : Bool) (index : Nat) (maxHoleRanges : Option Nat)
  /-- The connection reaps a live stream. -/
  | close (index : Nat)
  | advertise (peerBlockedAt : Option Nat)
  | raiseLimit (newLimit : Nat)

def step (h : History) : Event → History
  | .open granted index cap =>
    match h.ids.open granted index cap with
    | (.error _,ids) => {h with ids := ids,memory := (h.memory.open granted index cap).2}
    | (.ok _,ids) => {h with ids := ids,live := insert index h.live,memory := (h.memory.open granted index cap).2}
  | .close index =>
    if index ∈ h.live then {h with ids := h.ids.noteClosed,live := h.live.erase index,memory := h.memory.close index} else h
  | .advertise peerBlockedAt =>
    match h.ids.creditToAdvertise peerBlockedAt with
    | none => h
    | some newLimit => {h with ids := h.ids.raiseLimit newLimit,memory := h.memory.raiseLimit newLimit}
  | .raiseLimit newLimit => {h with ids := h.ids.raiseLimit newLimit,memory := h.memory.raiseLimit newLimit}

/-- A space for the streams that the peer opens, or one for our own. -/
def Fresh (h : History) : Prop :=
  (∃ window, h = {ids := initAdvertised window,memory := {limit := min window maxStreamCount,window := min window maxStreamCount}}) ∨
    ∃ limit, h = {ids := initGranted limit,memory := {limit := min limit maxStreamCount}}

/-- What the space and the table say of an index. -/
def answer (h : History) (index : Nat) : Status :=
  match h.ids.classify index with
  | .notOpened => .notOpened
  | .hole => .skipped
  | .used => if index ∈ h.live then .open else .closed

/-- The holes of the space are the skipped indices of the model, and the watermark lies past the highest one in use. -/
structure Refines (h : History) : Prop where
  sound : h.ids.Sound
  opened : h.ids.opened = top h.memory.used
  holes : ∀ i, Covered h.ids.holes i ↔ i ∈ skipped h.memory.used
  limit : h.ids.limit = h.memory.limit
  window : h.ids.window = h.memory.window
  live : h.live = h.memory.used \ h.memory.closed
  within : h.memory.closed ⊆ h.memory.used
  closed : h.ids.closed = h.memory.closed.card
  bound : h.ids.opened ≤ h.ids.limit

theorem lt_top {used : Finset Nat} {i : Nat} (member : i ∈ used) : i < top used :=
  Finset.le_sup (f := (· + 1)) member

theorem top_insert (used : Finset Nat) (i : Nat) : top (insert i used) = max (i+1) (top used) := Finset.sup_insert

theorem mem_skipped {used : Finset Nat} {i : Nat} : i ∈ skipped used ↔ i < top used ∧ i ∉ used := by
  simp [skipped]

theorem length_runs {list : List Range} (sorted : Sorted list) {points : Finset Nat} (covers : ∀ i, Covered list i ↔ i ∈ points) :
    list.length = (points.filter fun i => i = 0 ∨ i-1 ∉ points).card := by
  have distinct : (list.map (·.offset)).Nodup := by
    refine List.Pairwise.map _ (fun _ _ apart => apart) (sorted.ordered.imp_of_mem fun {a b} first _ before => ?_)
    have := sorted.proper a first
    omega
  have starts : (list.map (·.offset)).toFinset = points.filter fun i => i = 0 ∨ i-1 ∉ points := by
    ext i
    rw [List.mem_toFinset,List.mem_map,Finset.mem_filter]
    constructor
    · rintro ⟨r,member,rfl⟩
      refine ⟨(covers _).mp (sorted.covered_of_mem member),?_⟩
      by_contra both
      obtain ⟨positive,inside⟩ := not_or.mp both
      obtain ⟨other,there,low,high⟩ := (covers _).mpr (not_not.mp inside)
      -- The range that holds the index below would reach up to this one.
      have touches : other.stop = r.offset ∨ r.offset < other.stop := by omega
      have gap := sorted.gap_after there
      have here := sorted.covered_of_mem member
      rcases touches with same | past
      · exact gap (same ▸ here)
      · have one : other = r := by
          by_contra apart
          rcases List.mem_iff_append.mp there with ⟨front,back,rfl⟩
          have cross := (List.pairwise_append.mp sorted.ordered).2.2
          have tail := (List.pairwise_cons.mp (List.pairwise_append.mp sorted.ordered).2.1).1
          rcases List.mem_append.mp member with before | after
          · have := cross r before other List.mem_cons_self
            have := sorted.proper r member
            omega
          · rcases List.mem_cons.mp after with same | later
            · exact apart same.symm
            · have := tail r later
              omega
        subst one
        omega
    · rintro ⟨inside,first⟩
      obtain ⟨r,member,low,high⟩ := (covers i).mpr inside
      refine ⟨r,member,?_⟩
      by_contra above
      rcases first with zero | below
      · omega
      · exact below ((covers _).mp ⟨r,member,by omega,by omega⟩)
  rw [← starts,List.card_toFinset,distinct.dedup,List.length_map]

theorem length_removePoint {list : List Range} (sorted : Sorted list) {point : Nat} (covered : Covered list point) :
    list.length < (removePoint true list point).2.length ↔ removalSplits list point = true := by
  unfold removePoint removalSplits
  cases search : findPoint list point with
  | none => exact absurd covered (findPoint_none sorted search)
  | some i =>
    obtain ⟨r,here,low,high⟩ := findPoint_some search
    have bound := (List.getElem?_eq_some_iff.mp here).1
    have size : (list.take i ++ (r.without point ++ list.drop (i+1))).length = list.length-1+(r.without point).length := by
      rw [List.length_append,List.length_append,List.length_take,List.length_drop]
      omega
    simp only [here,Option.bind_some,Bool.not_true,Bool.and_false,Bool.false_eq_true,if_false,size,decide_eq_true_eq]
    unfold Range.without Range.len
    split
    · simp only [List.length_nil]
      omega
    split
    · simp only [List.length_singleton]
      omega
    split
    · simp only [List.length_singleton]
      omega
    · simp only [List.length_cons,List.length_nil]
      omega

theorem removePoint_granted (granted : Bool) (list : List Range) (point : Nat)
    (room : removalSplits list point = true → granted = true) : removePoint granted list point = removePoint true list point := by
  unfold removePoint
  cases splits : removalSplits list point with
  | false => simp
  | true => rw [room splits]

theorem removePoint_refused {list : List Range} {point : Nat} (splits : removalSplits list point = true) :
    removePoint false list point = (.error .outOfMemory,list) := by
  have found := splits
  unfold removalSplits at found
  unfold removePoint
  cases search : findPoint list point with
  | none => simp [search] at found
  | some i =>
    cases here : list[i]? with
    | none => simp [search,here] at found
    | some r => simp [splits,here]

theorem skipped_insert {used : Finset Nat} {index : Nat} (inside : index ∈ skipped used) (i : Nat) :
    i ∈ skipped (insert index used) ↔ i ∈ skipped used ∧ i ≠ index := by
  have below := (mem_skipped.mp inside).1
  rw [mem_skipped,mem_skipped,top_insert,max_eq_right (by omega),Finset.mem_insert]
  tauto

theorem skipped_jump {used : Finset Nat} {index : Nat} (above : top used ≤ index) (i : Nat) :
    i ∈ skipped (insert index used) ↔ i ∈ skipped used ∨ top used ≤ i ∧ i < index := by
  rw [mem_skipped,mem_skipped,top_insert,max_eq_left (by omega),Finset.mem_insert]
  constructor
  · rintro ⟨below,fresh⟩
    obtain ⟨apart,fresh⟩ := not_or.mp fresh
    by_cases low : i < top used
    · exact .inl ⟨low,fresh⟩
    · exact .inr ⟨by omega,by omega⟩
  · rintro (⟨low,fresh⟩ | ⟨low,high⟩)
    · exact ⟨by omega,not_or.mpr ⟨by omega,fresh⟩⟩
    · refine ⟨by omega,not_or.mpr ⟨by omega,fun member => ?_⟩⟩
      have := lt_top member
      omega

theorem Refines.runs_holes {h : History} (refines : Refines h) : runs h.memory.used = h.ids.holes.length :=
  (length_runs refines.sound.sorted refines.holes).symm

theorem Refines.opening {h : History} (refines : Refines h) {index : Nat} {ids : StreamIdSpace} (fresh : index ∉ h.memory.used)
    (sound : ids.Sound) (opened : ids.opened = top (insert index h.memory.used))
    (holes : ∀ i, Covered ids.holes i ↔ i ∈ skipped (insert index h.memory.used)) (limit : ids.limit = h.ids.limit)
    (window : ids.window = h.ids.window) (closed : ids.closed = h.ids.closed) (below : index < h.ids.limit) :
    Refines {h with ids := ids,live := insert index h.live,memory := {h.memory with used := insert index h.memory.used}} := by
  have never : index ∉ h.memory.closed := fun member => fresh (refines.within member)
  refine ⟨sound,opened,holes,limit.trans refines.limit,window.trans refines.window,?_,
    fun i member => Finset.mem_insert_of_mem (refines.within member),closed.trans refines.closed,?_⟩
  · dsimp only
    rw [refines.live,Finset.insert_sdiff_of_notMem _ never]
  · have := refines.bound
    have := refines.opened
    dsimp only
    rw [opened,limit,top_insert]
    omega

theorem refines_open {h : History} (refines : Refines h) (granted : Bool) (index : Nat) (cap : Option Nat) :
    (h.ids.open granted index cap).1 = (h.memory.open granted index cap).1 ∧
      Refines (step h (.open granted index cap)) := by
  have sound := refines.sound
  have count := refines.runs_holes
  have opened := refines.opened
  have refused (e : Error) (space : h.ids.open granted index cap = (.error e,h.ids))
      (model : h.memory.open granted index cap = (.error e,h.memory)) :
      (h.ids.open granted index cap).1 = (h.memory.open granted index cap).1 ∧ Refines (step h (.open granted index cap)) := by
    dsimp only [step]
    rw [space,model]
    exact ⟨rfl,refines⟩
  have taken (ids : StreamIdSpace) (space : h.ids.open granted index cap = (.ok (),ids))
      (model : h.memory.open granted index cap = (.ok (),{h.memory with used := insert index h.memory.used}))
      (opened : ids.opened = top (insert index h.memory.used))
      (holes : ∀ i, Covered ids.holes i ↔ i ∈ skipped (insert index h.memory.used)) (fresh : index ∉ h.memory.used) :
      (h.ids.open granted index cap).1 = (h.memory.open granted index cap).1 ∧ Refines (step h (.open granted index cap)) := by
    obtain ⟨sound',_,below,limit,closed,window,_⟩ := open_spec sound space
    dsimp only [step]
    rw [space,model]
    exact ⟨rfl,refines.opening fresh sound' opened holes limit window closed below⟩
  by_cases past : h.ids.limit ≤ index
  · refine refused .limitExceeded ?_ ?_
    · unfold StreamIdSpace.open
      rw [if_pos past]
    · unfold Memory.open
      rw [if_pos (refines.limit ▸ past)]
  have past' : ¬ h.memory.limit ≤ index := refines.limit ▸ past
  rcases lt_trichotomy index h.ids.opened with early | atEnd | late
  · by_cases known : containsPoint h.ids.holes index = true
    · have hole : Covered h.ids.holes index := (containsPoint_iff sound.sorted index).mp known
      have inside := (refines.holes index).mp hole
      have fresh := (mem_skipped.mp inside).2
      have spec := removePoint_spec sound.sorted true index
      have longer := length_removePoint sound.sorted hole
      have room := removePoint_granted granted h.ids.holes index
      cases outcome : removePoint true h.ids.holes index with
      | mk result holes =>
      rw [outcome] at spec longer room
      cases result with
      | error e =>
        have same : holes = h.ids.holes := spec
        have : removePoint true h.ids.holes index ≠ (.error e,holes) := by
          unfold removePoint
          rw [Bool.not_true,Bool.and_false]
          split
          · simp
          · split <;> simp
        exact absurd outcome this
      | ok found =>
        cases found with
        | false => exact absurd hole spec.1
        | true =>
        obtain ⟨_,sorted,covers⟩ := spec
        have after : ∀ i, Covered holes i ↔ i ∈ skipped (insert index h.memory.used) := fun i => by
          rw [covers,skipped_insert inside,refines.holes]
        have grows : runs h.memory.used < runs (insert index h.memory.used) ↔ removalSplits h.ids.holes index = true := by
          rw [count,← longer]
          exact Eq.to_iff (congrArg _ (length_runs sorted after).symm)
        by_cases capped : (removalSplits h.ids.holes index && cap.any (h.ids.holes.length ≥ ·)) = true
        · obtain ⟨splits,full⟩ := Bool.and_eq_true_iff.mp capped
          refine refused .tooManySkippedIds ?_ ?_
          · unfold StreamIdSpace.open
            rw [if_neg past,if_pos early,known,if_neg (by simp),if_pos capped]
          · unfold Memory.open
            rw [if_neg past',if_neg fresh,if_pos ⟨grows.mpr splits,count.symm ▸ full⟩]
        · have capped' : ¬ (runs h.memory.used < runs (insert index h.memory.used) ∧ cap.any (runs h.memory.used ≥ ·) = true) := by
            rintro ⟨more,full⟩
            exact capped (Bool.and_eq_true_iff.mpr ⟨grows.mp more,count ▸ full⟩)
          by_cases starved : removalSplits h.ids.holes index = true ∧ granted = false
          · obtain ⟨splits,rfl⟩ := starved
            refine refused .outOfMemory ?_ ?_
            · unfold StreamIdSpace.open
              rw [if_neg past,if_pos early,known,if_neg (by simp),if_neg capped,removePoint_refused splits]
            · unfold Memory.open
              rw [if_neg past',if_neg fresh,if_neg capped',if_pos ⟨grows.mpr splits,rfl⟩]
          · have fits : removalSplits h.ids.holes index = true → granted = true := fun splits => by
              by_contra none
              exact starved ⟨splits,by simpa using none⟩
            refine taken {h.ids with holes := holes} ?_ ?_ ?_ after fresh
            · unfold StreamIdSpace.open
              rw [if_neg past,if_pos early,known,if_neg (by simp),if_neg capped,room fits]
            · unfold Memory.open
              rw [if_neg past',if_neg fresh,if_neg capped',if_neg fun both => starved ⟨grows.mp both.1,both.2⟩]
            · rw [top_insert,← opened]
              exact (max_eq_right early).symm
    · have used : index ∈ h.memory.used := by
        by_contra fresh
        exact known ((containsPoint_iff sound.sorted index).mpr ((refines.holes index).mpr (mem_skipped.mpr ⟨opened ▸ early,fresh⟩)))
      refine refused .alreadyUsed ?_ ?_
      · unfold StreamIdSpace.open
        rw [if_neg past,if_pos early,if_pos (by simpa using known)]
      · unfold Memory.open
        rw [if_neg past',if_pos used]
  · have fresh : index ∉ h.memory.used := fun member => by
      have := lt_top member
      omega
    have after : ∀ i, Covered h.ids.holes i ↔ i ∈ skipped (insert index h.memory.used) := fun i => by
      rw [refines.holes,skipped_jump (by omega)]
      exact ⟨.inl,fun either => either.resolve_right (by omega)⟩
    have same : runs (insert index h.memory.used) = runs h.memory.used :=
      (length_runs sound.sorted after).symm.trans count.symm
    refine taken {h.ids with opened := index+1} ?_ ?_ ?_ after fresh
    · unfold StreamIdSpace.open
      rw [if_neg past,if_neg (by omega),if_neg (by omega)]
    · unfold Memory.open
      rw [if_neg past',if_neg fresh,same,if_neg (fun both => lt_irrefl _ both.1),if_neg (fun both => lt_irrefl _ both.1)]
    · rw [top_insert,max_eq_left (by omega)]
  · have fresh : index ∉ h.memory.used := fun member => by
      have := lt_top member
      omega
    have after : ∀ i, Covered (h.ids.holes ++ [⟨h.ids.opened,index⟩]) i ↔ i ∈ skipped (insert index h.memory.used) := fun i => by
      rw [covered_append,covered_cons,refines.holes,skipped_jump (by omega),opened]
      simp
    have sorted : Sorted (h.ids.holes ++ [⟨h.ids.opened,index⟩]) := by
      refine (Spans.separated_append _ _).mpr ⟨sound.sorted,(Spans.separated_cons _ _).mpr ⟨late,by simp,Spans.separated_nil⟩,?_⟩
      intro left member right last
      rw [List.mem_singleton.mp last]
      exact sound.below left member
    have grows : runs h.memory.used < runs (insert index h.memory.used) := by
      have longer := length_runs sorted after
      rw [List.length_append,List.length_singleton] at longer
      change h.ids.holes.length+1 = runs (insert index h.memory.used) at longer
      omega
    by_cases capped : cap.any (h.ids.holes.length ≥ ·) = true
    · refine refused .tooManySkippedIds ?_ ?_
      · unfold StreamIdSpace.open
        rw [if_neg past,if_neg (by omega),if_pos late,if_pos capped]
      · unfold Memory.open
        rw [if_neg past',if_neg fresh,if_pos ⟨grows,count.symm ▸ capped⟩]
    · have capped' : ¬ (runs h.memory.used < runs (insert index h.memory.used) ∧ cap.any (runs h.memory.used ≥ ·) = true) :=
        fun both => capped (count ▸ both.2)
      cases granted with
      | false =>
        refine refused .outOfMemory ?_ ?_
        · unfold StreamIdSpace.open
          rw [if_neg past,if_neg (by omega),if_pos late,if_neg capped,if_pos (by rfl)]
        · unfold Memory.open
          rw [if_neg past',if_neg fresh,if_neg capped',if_pos ⟨grows,rfl⟩]
      | true =>
        refine taken {h.ids with holes := h.ids.holes ++ [⟨h.ids.opened,index⟩],opened := index+1} ?_ ?_ ?_ after fresh
        · unfold StreamIdSpace.open
          rw [if_neg past,if_neg (by omega),if_pos late,if_neg capped,if_neg (by simp)]
        · unfold Memory.open
          rw [if_neg past',if_neg fresh,if_neg capped',if_neg (by simp)]
        · rw [top_insert,max_eq_left (by omega)]

theorem refines_close {h : History} (refines : Refines h) (index : Nat) : Refines (step h (.close index)) := by
  dsimp only [step]
  by_cases live : index ∈ h.live
  · rw [if_pos live]
    have was := live
    rw [refines.live,Finset.mem_sdiff] at was
    refine ⟨⟨refines.sound.sorted,refines.sound.below⟩,refines.opened,refines.holes,refines.limit,refines.window,?_,?_,?_,
      refines.bound⟩
    · change h.live.erase index = h.memory.used \ insert index h.memory.closed
      rw [refines.live,Finset.sdiff_insert]
    · exact Finset.insert_subset was.1 refines.within
    · change h.ids.closed+1 = (insert index h.memory.closed).card
      rw [Finset.card_insert_of_notMem was.2,refines.closed]
  · rw [if_neg live]
    exact refines

theorem refines_raise {h : History} (refines : Refines h) (newLimit : Nat) :
    Refines {h with ids := h.ids.raiseLimit newLimit,memory := h.memory.raiseLimit newLimit} := by
  have limit := refines.limit
  have bound := refines.bound
  have most : h.ids.raiseLimit newLimit = {h.ids with limit := max h.ids.limit (min newLimit maxStreamCount)} := by
    unfold StreamIdSpace.raiseLimit
    dsimp only
    split
    · rename_i more
      rw [max_eq_right (Nat.le_of_lt more)]
    · rename_i stale
      rw [max_eq_left (by omega)]
  refine ⟨?_,?_,?_,?_,?_,refines.live,refines.within,?_,?_⟩
  · rw [most]
    exact ⟨refines.sound.sorted,refines.sound.below⟩
  · rw [most]
    exact refines.opened
  · rw [most]
    exact refines.holes
  · rw [most]
    change max h.ids.limit _ = max h.memory.limit _
    rw [limit]
  · rw [most]
    exact refines.window
  · rw [most]
    exact refines.closed
  · rw [most]
    exact bound.trans (le_max_left _ _)

theorem refines_step (h : History) (e : Event) (refines : Refines h) : Refines (step h e) := by
  cases e with
  | «open» granted index cap => exact (refines_open refines granted index cap).2
  | close index => exact refines_close refines index
  | advertise peerBlockedAt =>
    dsimp only [step]
    cases h.ids.creditToAdvertise peerBlockedAt with
    | none => exact refines
    | some newLimit => exact refines_raise refines newLimit
  | raiseLimit newLimit => exact refines_raise refines newLimit

theorem refines_fresh (h : History) (fresh : Fresh h) : Refines h := by
  rcases fresh with ⟨window,rfl⟩ | ⟨limit,rfl⟩
  · exact ⟨sound_init _ _,rfl,fun i => by simp [initAdvertised,skipped,top],rfl,rfl,rfl,by simp,rfl,Nat.zero_le _⟩
  · exact ⟨sound_init _ _,rfl,fun i => by simp [initGranted,skipped,top],rfl,rfl,rfl,by simp,rfl,Nat.zero_le _⟩

theorem used_kept (h : History) (e : Event) : h.memory.used ⊆ (step h e).memory.used := by
  cases e with
  | «open» granted index cap =>
    have grows : h.memory.used ⊆ (h.memory.open granted index cap).2.used := by
      unfold Memory.open
      split_ifs
      · exact subset_rfl
      · exact subset_rfl
      · exact subset_rfl
      · exact subset_rfl
      · exact Finset.subset_insert _ _
    dsimp only [step]
    split <;> exact grows
  | close index =>
    dsimp only [step]
    split <;> exact subset_rfl
  | advertise peerBlockedAt =>
    dsimp only [step]
    split <;> exact subset_rfl
  | raiseLimit newLimit => exact subset_rfl

theorem Refines.classify_used {h : History} (refines : Refines h) (index : Nat) :
    h.ids.classify index = .used ↔ index ∈ h.memory.used := by
  rw [StreamIdSpace.classify_used refines.sound,refines.holes,mem_skipped,refines.opened]
  constructor
  · rintro ⟨below,known⟩
    by_contra fresh
    exact known ⟨below,fresh⟩
  · exact fun member => ⟨lt_top member,fun both => both.2 member⟩

theorem Refines.answers {h : History} (refines : Refines h) (index : Nat) : answer h index = h.memory.status index := by
  have used := refines.classify_used index
  unfold answer Memory.status
  cases known : h.ids.classify index with
  | used =>
    have member := used.mp known
    by_cases closed : index ∈ h.memory.closed
    · simp [refines.live,closed]
    · simp [refines.live,closed,member]
  | hole =>
    have fresh : index ∉ h.memory.used := fun member => by simp [used.mpr member] at known
    have never : index ∉ h.memory.closed := fun member => fresh (refines.within member)
    have below : index < top h.memory.used := by
      rw [← refines.opened]
      unfold classify at known
      grind
    simp [never,fresh,below]
  | notOpened =>
    have fresh : index ∉ h.memory.used := fun member => by simp [used.mpr member] at known
    have never : index ∉ h.memory.closed := fun member => fresh (refines.within member)
    have above : ¬ index < top h.memory.used := by
      rw [← refines.opened]
      unfold classify at known
      grind
    simp [never,fresh,above]

theorem Refines.credit {h : History} (refines : Refines h) (peerBlockedAt : Option Nat) :
    h.ids.creditToAdvertise peerBlockedAt = h.memory.creditToAdvertise peerBlockedAt := by
  have target : h.ids.target = h.memory.target := by
    unfold StreamIdSpace.target Memory.target
    rw [refines.window,refines.closed]
  unfold StreamIdSpace.creditToAdvertise Memory.creditToAdvertise
  rw [target,refines.limit,refines.window,refines.opened]
  grind

theorem sum_len {list : List Range} (sorted : Sorted list) {points : Finset Nat} (covers : ∀ i, Covered list i ↔ i ∈ points) :
    (list.map Range.len).sum = points.card := by
  induction list generalizing points with
  | nil =>
    have none : points = ∅ := Finset.eq_empty_of_forall_notMem fun i member => Spans.covers_nil i ((covers i).mpr member)
    rw [none]
    rfl
  | cons r rest ih =>
    obtain ⟨_,_,tail⟩ := (Spans.separated_cons r rest).mp sorted
    have first : Finset.Ico r.offset r.stop ⊆ points := fun i member => by
      obtain ⟨low,high⟩ := Finset.mem_Ico.mp member
      exact (covers i).mp ((covered_cons _ _ _).mpr (.inl ⟨low,high⟩))
    have others : ∀ i, Covered rest i ↔ i ∈ points \ Finset.Ico r.offset r.stop := fun i => by
      rw [Finset.mem_sdiff,← covers,covered_cons,Finset.mem_Ico]
      constructor
      · intro inRest
        have beyond : r.stop < i := sorted.beyond inRest
        exact ⟨.inr inRest,by omega⟩
      · rintro ⟨either,out⟩
        exact either.resolve_left out
    have size := Finset.card_sdiff_add_card_eq_card first
    rw [Nat.card_Ico] at size
    rw [List.map_cons,List.sum_cons,ih tail others]
    unfold Range.len
    omega

theorem Refines.counts {h : History} (refines : Refines h) :
    h.ids.holeCount = (skipped h.memory.used).card ∧ h.ids.inUse = h.live.card+(skipped h.memory.used).card := by
  refine ⟨sum_len refines.sound.sorted refines.holes,?_⟩
  have all : h.memory.used ⊆ Finset.range (top h.memory.used) := fun i member => Finset.mem_range.mpr (lt_top member)
  have split : skipped h.memory.used = Finset.range (top h.memory.used) \ h.memory.used := by
    ext i
    simp [skipped]
  have whole := Finset.card_sdiff_add_card_eq_card all
  have open' := Finset.card_sdiff_add_card_eq_card refines.within
  rw [Finset.card_range,← split] at whole
  unfold inUse
  rw [refines.opened,refines.closed,refines.live]
  omega

/-- Every query of the space and its table gets the answer of the model, an opening succeeds or fails as in the model and
changes nothing when it fails, and no more ids are open than the limit. -/
structure Faithful (h : History) : Prop where
  answers : ∀ index, answer h index = h.memory.status index
  opening : ∀ granted index cap, (h.ids.open granted index cap).1 = (h.memory.open granted index cap).1
  refused : ∀ granted index cap e, (h.ids.open granted index cap).1 = .error e → (h.ids.open granted index cap).2 = h.ids
  credit : ∀ peerBlockedAt, h.ids.creditToAdvertise peerBlockedAt = h.memory.creditToAdvertise peerBlockedAt
  holes : h.ids.holeCount = (skipped h.memory.used).card
  inUse : h.ids.inUse = h.live.card+(skipped h.memory.used).card
  bound : h.ids.opened ≤ h.ids.limit ∧ h.memory.used.card ≤ h.ids.limit

theorem Refines.faithful {h : History} (refines : Refines h) : Faithful h := by
  have few : h.memory.used.card ≤ top h.memory.used := by
    have within : h.memory.used ⊆ Finset.range (top h.memory.used) := fun i member => Finset.mem_range.mpr (lt_top member)
    simpa using Finset.card_le_card within
  have bound := refines.bound
  have opened := refines.opened
  refine ⟨refines.answers,fun granted index cap => (refines_open refines granted index cap).1,fun granted index cap e refused => ?_,
    refines.credit,refines.counts.1,refines.counts.2,bound,by omega⟩
  cases outcome : h.ids.open granted index cap with
  | mk result after =>
  rw [outcome] at refused
  exact open_error (outcome.trans (congrArg (·,after) refused))

/-- In every run the space refines the model, and an index that was in use stays in use. -/
theorem space_refines_memory (start : History) (events : List Event) (fresh : Fresh start) :
    System.Throughout Faithful step start events ∧ ∀ before after, events = before ++ after → ∀ index,
      (System.run step start before).ids.classify index = .used → (System.run step start events).ids.classify index = .used := by
  have always (events : List Event) : Refines (System.run step start events) := by
    have reached : System.Reaches Fresh step (fun _ _ => True) (System.run step start events) :=
      (System.Reaches.start fresh).run events (.of_forall (fun (_ : Event) _ => trivial) start)
    exact reached.invariant Refines refines_fresh fun h e refines _ => refines_step h e refines
  refine ⟨?_,?_⟩
  · refine System.Throughout.of_reaches (fun h reached => ?_) (.start fresh) (.of_forall (fun (_ : Event) _ => trivial) start)
    exact (reached.invariant Refines refines_fresh fun h e refines _ => refines_step h e refines).faithful
  · rintro before after rfl index used
    rw [(always _).classify_used] at used ⊢
    have kept (more : List Event) (h : History) : h.memory.used ⊆ (System.run step h more).memory.used := by
      induction more generalizing h with
      | nil => exact subset_rfl
      | cons e rest ih => exact (used_kept h e).trans (ih (step h e))
    have run : System.run step start (before ++ after) = System.run step (System.run step start before) after :=
      List.foldl_append
    rw [run]
    exact kept after _ used

/-- Index 3 first, then two of the indices it skipped, one of them twice, with a close between. -/
def lateOpenings : List Event :=
  [.open true 3 none,.open true 1 none,.close 3,.open true 1 none,.open false 0 none,.advertise none,.open true 9 (some 2)]

theorem space_refines_memory_late : System.Throughout Faithful step
    {ids := initAdvertised 8,memory := {limit := min 8 maxStreamCount,window := min 8 maxStreamCount}} lateOpenings :=
  (space_refines_memory _ lateOpenings (.inl ⟨8,rfl⟩)).1

end QuicZig.Conn.StreamIdRun
