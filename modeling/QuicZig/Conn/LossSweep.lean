import QuicZig.Conn.Clock
import QuicZig.Conn.SentPacketsSpec

/-! The sweep that declares packets lost: a walk over the slots of the tracker that removes runs of them. The reference of
RFC 9002 and the connection's own sweeps share the walk and differ in what they take. -/
namespace QuicZig.Conn.LossSweep
open Machine SentPackets SentPacketTracker
open Clock (RttEstimator granularityUs)

variable {Frame γ ε : Type}

/-- `left` slots from `i` on are still to be asked; the run ends at the first one that is not taken. -/
def runEnd (takes : SentPacket Frame → Bool) (t : SentPacketTracker Frame) : Nat → Nat → Nat
  | 0,i => i
  | left+1,i =>
    match t.packets[i]? with
    | none => i
    | some p => if takes p then runEnd takes t left (i+1) else i

/-- The walk from slot `i` on. After a run is removed it goes on at the run's first slot, which is dead by then; `none` is a
failed assertion, or a walk that has not ended when `fuel` has. -/
def sweep (stops takes : SentPacket Frame → Bool) (onRemove : γ → SentPacket Frame → Except ε Unit × γ) :
    Nat → Nat → γ → SentPacketTracker Frame → Option (Except ε Unit × γ × SentPacketTracker Frame)
  | 0,_,_,_ => none
  | fuel+1,i,context,t =>
    if i < t.count then do
      let p ← t.packets[i]?
      if p.dead then sweep stops takes onRemove fuel (i+1) context t
      else if stops p then some (.ok (),context,t)
      else if takes p then
        let stop := runEnd takes t (t.count-(i+1)) (i+1)
        match ← t.removeRangeWithError onRemove context i stop with
        | (.error e,context,t) => some (.error e,context,t)
        | (.ok (),context,t) => sweep stops takes onRemove fuel i context t
      else sweep stops takes onRemove fuel (i+1) context t
    else some (.ok (),context,t)

/-- Every slot is passed once, and left once more for each run that begins at it. -/
def fuelFor (t : SentPacketTracker Frame) : Nat := 2*t.count+1

inductive LossPredicate where
  | packetThreshold (largestAcked threshold : Nat)
  | timeThreshold (largestAcked : Option Nat) (cutoff : Nat)

namespace LossPredicate

def «matches» : LossPredicate → SentPacket Frame → Bool
  | .packetThreshold largestAcked threshold,p => decide (p.pn ≤ largestAcked ∧ largestAcked-p.pn ≥ threshold)
  | .timeThreshold none _,_ => false
  | .timeThreshold (some la) cutoff,p => decide (p.pn ≤ la ∧ p.sentTimeUs < cutoff)

def exhausted : LossPredicate → SentPacket Frame → Bool
  | .packetThreshold largestAcked _,p => decide (p.pn > largestAcked)
  | .timeThreshold none _,_ => true
  | .timeThreshold (some la) _,p => decide (p.pn > la)

end LossPredicate

/-- The thresholds of a packet number space. -/
structure ReorderWindow where
  packetThreshold : Nat := 3
  timeShift : Nat := 3
  deriving DecidableEq, Repr

def ReorderWindow.timeThresholdUs (w : ReorderWindow) (rtt : RttEstimator) : Nat :=
  if w.timeShift = 0 then max (Clock.Space.widestThresholdUs rtt) granularityUs
  else
    let referenceRtt := max rtt.latestRttUs rtt.smoothedRttUs
    max (saturatingAdd referenceRtt (referenceRtt/2^w.timeShift)) granularityUs

/-- `handle` is the connection's callback; `none` is a trap. -/
def sweepLosses (handle : γ → SentPacket Frame → Except ε Unit × γ) (pred : LossPredicate) (context : γ)
    (t : SentPacketTracker Frame) : Option (Except ε Unit × γ × SentPacketTracker Frame) :=
  sweep pred.exhausted pred.matches handle (fuelFor t) 0 context t

def detectLossesByPacketThreshold (handle : γ → SentPacket Frame → Except ε Unit × γ) (largestAckedSent : Option Nat)
    (reorder : ReorderWindow) (context : γ) (t : SentPacketTracker Frame) :
    Option (Except ε Unit × γ × SentPacketTracker Frame) :=
  match largestAckedSent with
  | none => some (.ok (),context,t)
  | some largestAcked => sweepLosses handle (.packetThreshold largestAcked reorder.packetThreshold) context t

def detectLossesByTimeThreshold (handle : γ → SentPacket Frame → Except ε Unit × γ) (largestAckedSent : Option Nat)
    (reorder : ReorderWindow) (rtt : RttEstimator) (nowUs : Nat) (context : γ) (t : SentPacketTracker Frame) :
    Option (Except ε Unit × γ × SentPacketTracker Frame) :=
  let timeThreshold := reorder.timeThresholdUs rtt
  if nowUs ≤ timeThreshold then some (.ok (),context,t)
  else sweepLosses handle (.timeThreshold largestAckedSent (nowUs-timeThreshold)) context t

/-! What the walk removes. -/

section
variable {stops takes : SentPacket Frame → Bool} {onRemove : γ → SentPacket Frame → Except ε Unit × γ}
variable {t : SentPacketTracker Frame}

theorem hand_cons (p : SentPacket Frame) (rest : List (SentPacket Frame)) (context : γ) :
    hand onRemove context (p::rest) = match onRemove context p with
      | (.error e,context) => (.error e,context,rest)
      | (.ok (),context) => hand onRemove context rest := rfl

theorem hand_append (first second : List (SentPacket Frame)) (context : γ) :
    hand onRemove context (first ++ second) = match hand onRemove context first with
      | (.error e,context,rest) => (.error e,context,rest ++ second)
      | (.ok (),context,_) => hand onRemove context second := by
  induction first generalizing context with
  | nil => rfl
  | cons p rest ih =>
    rw [List.cons_append,hand_cons,hand_cons]
    rcases onRemove context p with ⟨result,context'⟩
    cases result with
    | error e => rfl
    | ok _ => exact ih context'

theorem hand_ok {context context' : γ} {packets rest : List (SentPacket Frame)}
    (ok : hand onRemove context packets = (.ok (),context',rest)) : rest = [] := by
  induction packets generalizing context with
  | nil => exact (Prod.mk.inj (Prod.mk.inj ok).2).2.symm
  | cons p more ih =>
    rw [hand_cons] at ok
    rcases called : onRemove context p with ⟨result,next⟩
    rw [called] at ok
    cases result with
    | error e => cases ok
    | ok _ => exact ih ok

theorem hand_subset {context context' : γ} {packets rest : List (SentPacket Frame)} {result : Except ε Unit}
    (handed : hand onRemove context packets = (result,context',rest)) : rest ⊆ packets := by
  induction packets generalizing context with
  | nil =>
    rw [← (Prod.mk.inj (Prod.mk.inj handed).2).2]
    exact fun _ => id
  | cons p more ih =>
    rw [hand_cons] at handed
    rcases called : onRemove context p with ⟨result',next⟩
    rw [called] at handed
    cases result' with
    | error e =>
      rw [← (Prod.mk.inj (Prod.mk.inj handed).2).2]
      exact List.subset_cons_self p more
    | ok _ => exact fun q member => List.mem_cons_of_mem p (ih handed member)

theorem runEnd_spec {before middle after : List (SentPacket Frame)} (sound : t.Sound) (slots : t.slots = before ++ middle ++ after)
    (taken : ∀ p ∈ middle, takes p = true) (stands : ∀ p ∈ after.head?, takes p = false) :
    runEnd takes t (t.count-before.length) before.length = before.length+middle.length := by
  have length := sound.length_slots
  rw [slots,List.length_append,List.length_append] at length
  induction middle generalizing before with
  | nil =>
    cases after with
    | nil =>
      have none : t.count-before.length = 0 := by
        simp at length
        omega
      rw [none]
      rfl
    | cons p rest =>
      have more : t.count-before.length = (t.count-before.length-1)+1 := by
        simp at length
        omega
      have slot : t.packets[before.length]? = some p := by
        rw [getElem?_slots (by simp at length; omega),slots]
        simp
      rw [more]
      unfold runEnd
      rw [slot]
      simp [stands p rfl]
  | cons p rest ih =>
    have more : t.count-before.length = (t.count-(before ++ [p]).length)+1 := by
      simp at length ⊢
      omega
    have slot : t.packets[before.length]? = some p := by
      rw [getElem?_slots (by simp at length; omega),slots]
      simp
    have split : t.slots = (before ++ [p]) ++ rest ++ after := by
      rw [slots]
      simp
    have next := ih split (fun q member => taken q (List.mem_cons_of_mem _ member)) (by simp at length ⊢; omega)
    rw [List.length_append] at next
    rw [more]
    unfold runEnd
    rw [slot]
    simp only [taken p List.mem_cons_self,if_true]
    rw [List.length_append]
    exact next.trans (by simp; omega)

/-- The packets still there after a walk: those that were not to be taken, and those not handed over. -/
def Left (takes : SentPacket Frame → Bool) (before after rest : List (SentPacket Frame)) : Prop :=
  ∀ p, p ∈ after ↔ p ∈ before ∧ (takes p = false ∨ p ∈ rest)

variable (takes onRemove) in
/-- What a walk over the slots `after` comes to: the live packets that are taken are handed over, in order, until one is
refused. -/
def Swept (before after : List (SentPacket Frame)) (context : γ) (t : SentPacketTracker Frame)
    (outcome : Option (Except ε Unit × γ × SentPacketTracker Frame)) : Prop :=
  ∃ u after', outcome = some ((hand onRemove context ((after.filter SentPacket.alive).filter takes)).1,
      (hand onRemove context ((after.filter SentPacket.alive).filter takes)).2.1,u) ∧ u.Sound ∧ Shape t u ∧
    u.slots = before ++ after' ∧ Left takes (after.filter SentPacket.alive) (after'.filter SentPacket.alive)
      (hand onRemove context ((after.filter SentPacket.alive).filter takes)).2.2

section
variable {before rest : List (SentPacket Frame)} {p : SentPacket Frame} {context : γ}
variable {outcome : Option (Except ε Unit × γ × SentPacketTracker Frame)}

theorem Swept.dead (gone : p.alive = false) (swept : Swept takes onRemove (before ++ [p]) rest context t outcome) :
    Swept takes onRemove before (p::rest) context t outcome := by
  have alive : (p::rest).filter SentPacket.alive = rest.filter SentPacket.alive := List.filter_cons_of_neg (by simp [gone])
  obtain ⟨u,after',walked,sound',shape,slots',left⟩ := swept
  unfold Swept
  rw [alive]
  refine ⟨u,p::after',walked,sound',shape,by rw [slots']; simp,?_⟩
  rw [List.filter_cons_of_neg (by simp [gone])]
  exact left

theorem Swept.passed (living : p.alive = true) (stays : takes p = false)
    (swept : Swept takes onRemove (before ++ [p]) rest context t outcome) :
    Swept takes onRemove before (p::rest) context t outcome := by
  obtain ⟨u,after',walked,sound',shape,slots',left⟩ := swept
  unfold Swept
  rw [List.filter_cons_of_pos living,List.filter_cons_of_neg (by simp [stays])]
  refine ⟨u,p::after',walked,sound',shape,by rw [slots']; simp,fun q => ?_⟩
  rw [List.filter_cons_of_pos living,List.mem_cons,List.mem_cons,left q]
  constructor
  · rintro (rfl | ⟨member,why⟩)
    · exact ⟨.inl rfl,.inl stays⟩
    · exact ⟨.inr member,why⟩
  · rintro ⟨rfl | member,why⟩
    · exact .inl rfl
    · exact .inr ⟨member,why⟩

theorem Swept.ended (sound : t.Sound) (slots : t.slots = before ++ rest)
    (none : ∀ q ∈ rest.filter SentPacket.alive, takes q = false) :
    Swept takes onRemove before rest context t (some (.ok (),context,t)) := by
  have nobody : (rest.filter SentPacket.alive).filter takes = [] :=
    List.filter_eq_nil_iff.mpr fun q member => by simp [none q member]
  unfold Swept
  rw [nobody]
  exact ⟨t,rest,rfl,sound,.refl t,slots,fun q => ⟨fun member => ⟨member,.inl (none q member)⟩,And.left⟩⟩

variable {run tail middle : List (SentPacket Frame)} {context' : γ} {u : SentPacketTracker Frame}

theorem run_taken (taken : ∀ q ∈ run, takes q = true) : ((run ++ tail).filter SentPacket.alive).filter takes =
    run.filter SentPacket.alive ++ (tail.filter SentPacket.alive).filter takes := by
  rw [List.filter_append,List.filter_append]
  congr 1
  exact List.filter_eq_self.mpr fun q member => taken q (List.mem_of_mem_filter member)

theorem Swept.refused (taken : ∀ q ∈ run, takes q = true) {e : ε} {undone : List (SentPacket Frame)}
    (handed : hand onRemove context (run.filter SentPacket.alive) = (.error e,context',undone)) (sound : u.Sound) (shape : Shape t u)
    (slots : u.slots = before ++ (middle ++ tail)) (left : middle.filter SentPacket.alive = undone) :
    Swept takes onRemove before (run ++ tail) context t (some (.error e,context',u)) := by
  unfold Swept
  rw [run_taken taken,hand_append,handed]
  refine ⟨u,middle ++ tail,rfl,sound,shape,slots,fun q => ?_⟩
  rw [List.filter_append,List.mem_append,left,List.filter_append,List.mem_append]
  dsimp only
  rw [List.mem_append,List.mem_filter (p := takes)]
  constructor
  · rintro (member | member)
    · exact ⟨.inl (hand_subset handed member),.inr (.inl member)⟩
    · refine ⟨.inr member,?_⟩
      cases takes q with
      | false => exact .inl rfl
      | true => exact .inr (.inr ⟨member,rfl⟩)
  · rintro ⟨member | member,why⟩
    · rcases why with stays | undone' | ⟨later,_⟩
      · rw [taken q (List.mem_of_mem_filter member)] at stays
        cases stays
      · exact .inl undone'
      · exact .inr later
    · exact .inr member

theorem Swept.removed (taken : ∀ q ∈ run, takes q = true) {none : List (SentPacket Frame)}
    (handed : hand onRemove context (run.filter SentPacket.alive) = (.ok (),context',none)) (shape : Shape t u)
    (left : middle.filter SentPacket.alive = []) (swept : Swept takes onRemove before (middle ++ tail) context' u outcome) :
    Swept takes onRemove before (run ++ tail) context t outcome := by
  have onlyTail : (middle ++ tail).filter SentPacket.alive = tail.filter SentPacket.alive := by
    rw [List.filter_append,left]
    rfl
  unfold Swept at swept ⊢
  rw [onlyTail] at swept
  rw [run_taken taken,hand_append,handed]
  obtain ⟨v,after',walked,sound,shape',slots,left'⟩ := swept
  refine ⟨v,after',walked,sound,shape.trans shape',slots,fun q => ?_⟩
  rw [left' q,List.filter_append,List.mem_append]
  constructor
  · rintro ⟨member,why⟩
    exact ⟨.inr member,why⟩
  · rintro ⟨member | member,why⟩
    · rcases why with stays | undone
      · rw [taken q (List.mem_of_mem_filter member)] at stays
        cases stays
      · exact ⟨List.mem_of_mem_filter (hand_subset (Prod.ext rfl (Prod.ext rfl rfl)) undone),.inr undone⟩
    · exact ⟨member,why⟩

end

variable (onRemove) in
theorem sweep_from (fuel : Nat) {before after : List (SentPacket Frame)} (context : γ) (sound : t.Sound)
    (slots : t.slots = before ++ after) (enough : after.length+(after.filter SentPacket.alive).length < fuel)
    (ends : ∀ p q, stops p = true → p.pn ≤ q.pn → takes q = false) :
    Swept takes onRemove before after context t (sweep stops takes onRemove fuel before.length context t) := by
  induction fuel generalizing t before after context with
  | zero => omega
  | succ fuel ih =>
  have length := sound.length_slots
  rw [slots,List.length_append] at length
  unfold sweep
  cases after with
  | nil =>
    have done : ¬before.length < t.count := by
      simp at length
      omega
    rw [if_neg done]
    exact .ended sound slots (by simp)
  | cons p rest =>
    have inside : before.length < t.count := by
      simp at length
      omega
    have slot : t.packets[before.length]? = some p := by
      rw [getElem?_slots inside,slots]
      simp
    have split : t.slots = (before ++ [p]) ++ rest := by
      rw [slots]
      simp
    have passed : (before ++ [p]).length = before.length+1 := by simp
    rw [if_pos inside]
    simp only [bind,Option.bind,slot]
    cases dead : p.dead with
    | true =>
      have gone : p.alive = false := by simp [SentPacket.alive,dead]
      rw [List.filter_cons_of_neg (by simp [gone]),List.length_cons] at enough
      simp only [if_true]
      exact passed ▸ (ih context sound split (by omega)).dead gone
    | false =>
      have living : p.alive = true := by simp [SentPacket.alive,dead]
      have alive : (p::rest).filter SentPacket.alive = p::rest.filter SentPacket.alive := List.filter_cons_of_pos living
      rw [alive,List.length_cons,List.length_cons] at enough
      simp only [Bool.false_eq_true,if_false]
      cases stopped : stops p with
      | true =>
        have above : ∀ q ∈ rest, p.pn < q.pn := by
          have ascending := sound.ascending
          rw [slots,List.map_append,List.map_cons] at ascending
          have pairs := (List.pairwise_append.mp ascending).2.1
          exact fun q member => (List.pairwise_cons.mp pairs).1 q.pn (List.mem_map_of_mem member)
        refine .ended sound slots fun q member => ?_
        rw [alive] at member
        rcases List.mem_cons.mp member with rfl | later
        · exact ends q q stopped le_rfl
        · exact ends p q stopped (above q (List.mem_of_mem_filter later)).le
      | false =>
      simp only [Bool.false_eq_true,if_false]
      cases taken : takes p with
      | false =>
        simp only [Bool.false_eq_true,if_false]
        exact passed ▸ (ih context sound split (by omega)).passed living taken
      | true =>
        simp only [if_true]
        obtain ⟨run,tail,rfl,runTaken,stands⟩ : ∃ run tail, rest = run ++ tail ∧ (∀ q ∈ run, takes q = true) ∧
            ∀ q ∈ tail.head?, takes q = false := by
          refine ⟨rest.takeWhile takes,rest.dropWhile takes,List.takeWhile_append_dropWhile.symm,
            fun q member => List.mem_takeWhile_imp member,fun q first => ?_⟩
          have head := List.head?_dropWhile_not takes rest
          rw [Option.mem_def.mp first] at head
          simpa using head
        have allTaken : ∀ q ∈ p::run, takes q = true := List.forall_mem_cons.mpr ⟨taken,runTaken⟩
        have stop := runEnd_spec sound (show t.slots = (before ++ [p]) ++ run ++ tail by rw [split]; simp) runTaken stands
        rw [passed] at stop
        rw [stop]
        obtain ⟨u,middle',removed,sound',shape,slots',left⟩ := sound.removeLoop onRemove context
          (show t.slots = before ++ p::run ++ tail by rw [slots]; simp)
        have range : t.removeRangeWithError onRemove context before.length (before.length+1+run.length) = some
            ((hand onRemove context ((p::run).filter SentPacket.alive)).1,
              (hand onRemove context ((p::run).filter SentPacket.alive)).2.1,u) := by
          unfold SentPacketTracker.removeRangeWithError
          rw [if_pos ⟨by omega,by simp at length; omega⟩,← removed]
          congr 1
          rw [List.length_cons]
          omega
        rw [List.append_assoc] at slots'
        rw [range]
        rcases handed : hand onRemove context ((p::run).filter SentPacket.alive) with ⟨result,context',undone⟩
        rw [handed] at left
        cases result with
        | error e => exact .refused allTaken handed sound' shape slots' left
        | ok _ =>
          obtain rfl := hand_ok handed
          have sizes : middle'.length = run.length+1 := by
            have length' := sound'.length_slots
            rw [slots',shape.count] at length'
            simp at length length'
            omega
          have onlyTail : (middle' ++ tail).filter SentPacket.alive = tail.filter SentPacket.alive := by
            rw [List.filter_append,left]
            rfl
          refine .removed allTaken handed shape left (ih context' sound' slots' ?_)
          rw [List.filter_append,List.length_append,List.length_append] at enough
          rw [onlyTail,List.length_append,sizes]
          omega

variable (onRemove) in
theorem sweep_spec (sound : t.Sound) (ends : ∀ p q, stops p = true → p.pn ≤ q.pn → takes q = false) (context : γ) :
    ∃ u, sweep stops takes onRemove (fuelFor t) 0 context t = some ((hand onRemove context (t.live.filter takes)).1,
        (hand onRemove context (t.live.filter takes)).2.1,u) ∧ u.Sound ∧ Shape t u ∧
      Left takes t.live u.live (hand onRemove context (t.live.filter takes)).2.2 := by
  have counted := sound.live_le
  have length := sound.length_slots
  unfold SentPacketTracker.live at counted ⊢
  obtain ⟨u,after',walked,sound',shape,slots',left⟩ := sweep_from onRemove (fuelFor t) context sound
    (show t.slots = [] ++ t.slots from rfl) (by unfold fuelFor; omega) ends
  refine ⟨u,walked,sound',shape,?_⟩
  rw [slots']
  exact left

namespace LossPredicate

theorem exhausted_ends (pred : LossPredicate) (p q : SentPacket Frame) (stopped : pred.exhausted p = true) (above : p.pn ≤ q.pn) :
    pred.matches q = false := by
  cases pred with
  | packetThreshold largestAcked threshold =>
    simp only [exhausted,decide_eq_true_eq] at stopped
    simp only [«matches»,decide_eq_false_iff_not]
    omega
  | timeThreshold largestAcked cutoff =>
    cases largestAcked with
    | none => rfl
    | some la =>
      simp only [exhausted,decide_eq_true_eq] at stopped
      simp only [«matches»,decide_eq_false_iff_not]
      omega

end LossPredicate

variable (onRemove) in
theorem sweepLosses_spec (sound : t.Sound) (pred : LossPredicate) (context : γ) :
    ∃ u, sweepLosses onRemove pred context t = some ((hand onRemove context (t.live.filter pred.matches)).1,
        (hand onRemove context (t.live.filter pred.matches)).2.1,u) ∧ u.Sound ∧ Shape t u ∧
      Left pred.matches t.live u.live (hand onRemove context (t.live.filter pred.matches)).2.2 :=
  sweep_spec onRemove sound pred.exhausted_ends context

end

end QuicZig.Conn.LossSweep
