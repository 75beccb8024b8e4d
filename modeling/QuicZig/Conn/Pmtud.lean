import QuicZig.Machine
import QuicZig.Library.System

/-! DPLPMTUD: the search for the largest datagram that a path carries, one probe at a time. -/
namespace QuicZig.Conn.Pmtud
open Machine

structure Config where
  initialMtu : Nat := 1200
  maxMtu : Nat := 1452
  probeStep : Nat := 64
  probeThreshold : Nat := 3
  enable : Bool := true
  deriving DecidableEq, Repr

def maxU16 : Nat := 2^16-1

inductive PmtudState where
  | disabled | search | searchComplete | errorState
  deriving DecidableEq, Repr

/-- The part of a path's state that the search reads and writes. -/
structure PathMtu where
  pmtu : Nat := 1200
  state : PmtudState := .disabled
  probePn : Option Nat := none
  probedSize : Nat := 0
  failCount : Nat := 0
  upperBound : Option Nat := none
  probesInFlight : Nat := 0
  consecutiveRegularLosses : Nat := 0
  deriving DecidableEq, Repr

namespace PathMtu

def pmtudIsSearching (p : PathMtu) : Bool := p.state = .search ∧ p.probePn = none

/-- A recorded bound is a closed ceiling, `maxMtu` an open one. -/
def pmtudNextProbeSize (p : PathMtu) (probeStep maxMtu : Nat) : Option Nat :=
  if p.state ≠ .search then none
  else if p.probePn.isSome then none
  else
    let candidate := p.pmtu+probeStep
    if p.upperBound.any (decide <| candidate ≥ ·) then none
    else if candidate > maxMtu then none
    else some candidate

def pmtudSettleTermination (p : PathMtu) (probeStep maxMtu : Nat) : PathMtu :=
  if p.state = .search ∧ p.pmtudNextProbeSize probeStep maxMtu = none then {p with state := .searchComplete} else p

def pmtudOnProbeSent (p : PathMtu) (pn size : Nat) : PathMtu := {p with probePn := some pn,probedSize := size,probesInFlight := 1}

def pmtudClearProbeSlot (p : PathMtu) : PathMtu := {p with probePn := none,probesInFlight := 0,probedSize := 0}

def pmtudOnProbeAcked (p : PathMtu) (probeStep maxMtu : Nat) : PathMtu :=
  {{p with pmtu := p.probedSize}.pmtudClearProbeSlot with
    failCount := 0,consecutiveRegularLosses := 0}.pmtudSettleTermination probeStep maxMtu

/-- With the path, whether the probed size was recorded as a bound. -/
def pmtudOnProbeLost (p : PathMtu) (probeThreshold probeStep maxMtu : Nat) : PathMtu × Bool :=
  let probed := p.probedSize
  let p := p.pmtudClearProbeSlot
  let failCount := min (p.failCount+1) maxU16
  if failCount ≥ probeThreshold then
    ({p with
      upperBound := some (p.upperBound.elim probed (min · probed))
      failCount := 0}.pmtudSettleTermination probeStep maxMtu,true)
  else ({p with failCount := failCount},false)

def pmtudOnRegularAcked (p : PathMtu) : PathMtu := {p with consecutiveRegularLosses := 0}

/-- With the path, whether a black hole was found. -/
def pmtudOnRegularLost (p : PathMtu) (probeThreshold initialMtu : Nat) : PathMtu × Bool :=
  if p.state = .disabled then (p,false)
  else
    let losses := min (p.consecutiveRegularLosses+1) maxU16
    if losses < probeThreshold then ({p with consecutiveRegularLosses := losses},false)
    else
      ({{p with
        pmtu := max (p.pmtu/2) initialMtu
        consecutiveRegularLosses := 0
        failCount := 0
        upperBound := none}.pmtudClearProbeSlot with state := .search},true)

def pmtudInit (p : PathMtu) (cfg : Config) : PathMtu :=
  {{p with pmtu := cfg.initialMtu,state := if cfg.enable then .search else .disabled}.pmtudClearProbeSlot with
    failCount := 0,consecutiveRegularLosses := 0,upperBound := none}

end PathMtu

/-- A probe that was sent, with the MTU of that time and the bounds that were known. -/
structure Probe where
  size : Nat
  pmtu : Nat
  bounds : List Nat
  deriving DecidableEq, Repr

/-- `bounds` are those recorded since the last black hole. -/
structure Search where
  cfg : Config
  path : PathMtu
  probes : List Probe := []
  bounds : List Nat := []
  deriving DecidableEq, Repr

/-- The size of the probe is what the scheduler asked for; an ACK or a loss is the probe's when the number is that of
the slot. -/
inductive Event where
  | probeSent (pn : Nat)
  | acked (pn : Nat)
  | lost (pn : Nat)

namespace Search

def init (cfg : Config) : Search := {cfg := cfg,path := PathMtu.pmtudInit {} cfg}

def probeSent (s : Search) (pn : Nat) : Search :=
  match s.path.pmtudNextProbeSize s.cfg.probeStep s.cfg.maxMtu with
  | none => s
  | some size => {s with path := s.path.pmtudOnProbeSent pn size,probes := ⟨size,s.path.pmtu,s.bounds⟩::s.probes}

def acked (s : Search) (pn : Nat) : Search :=
  if s.path.probePn = some pn then {s with path := s.path.pmtudOnProbeAcked s.cfg.probeStep s.cfg.maxMtu}
  else {s with path := s.path.pmtudOnRegularAcked}

/-- A loss that is not the probe's counts only while probing is enabled. -/
def lost (s : Search) (pn : Nat) : Search :=
  if s.path.probePn = some pn then
    let (path,recorded) := s.path.pmtudOnProbeLost s.cfg.probeThreshold s.cfg.probeStep s.cfg.maxMtu
    {s with path := path,bounds := if recorded then s.path.probedSize::s.bounds else s.bounds}
  else if !s.cfg.enable then s
  else
    let (path,blackHole) := s.path.pmtudOnRegularLost s.cfg.probeThreshold s.cfg.initialMtu
    {s with path := path,bounds := if blackHole then [] else s.bounds}

end Search

def step (s : Search) : Event → Search
  | .probeSent pn => s.probeSent pn
  | .acked pn => s.acked pn
  | .lost pn => s.lost pn

/-- A probe is larger than the MTU, no larger than the maximum, and smaller than every bound. -/
structure Probe.Fair (maxMtu : Nat) (probe : Probe) : Prop where
  larger : probe.pmtu < probe.size
  least : probe.size ≤ maxMtu
  below : ∀ bound ∈ probe.bounds, probe.size < bound

structure Good (s : Search) : Prop where
  floor : s.cfg.initialMtu ≤ s.path.pmtu
  ceiling : s.path.pmtu ≤ s.cfg.maxMtu
  probes : ∀ probe ∈ s.probes, probe.Fair s.cfg.maxMtu
  slot : s.path.probesInFlight = if s.path.probePn.isSome then 1 else 0
  moves : s.path.state = .search →
    s.path.probePn.isSome ∨ (s.path.pmtudNextProbeSize s.cfg.probeStep s.cfg.maxMtu).isSome

/-- The search starts between its limits, with room for a first probe. -/
structure Fresh (s : Search) : Prop where
  start : s = Search.init s.cfg
  limits : s.cfg.initialMtu ≤ s.cfg.maxMtu
  room : s.cfg.enable = true → s.cfg.initialMtu+s.cfg.probeStep ≤ s.cfg.maxMtu

/-- The loss of this packet is the one that makes a black hole. -/
def Search.Sinks (s : Search) (pn : Nat) : Prop :=
  s.path.probePn ≠ some pn ∧ s.cfg.enable = true ∧ s.path.state ≠ .disabled ∧
    s.cfg.probeThreshold ≤ min (s.path.consecutiveRegularLosses+1) maxU16

/-- A probe is a step up, and a black hole leaves room for one. -/
def Roomy (s : Search) : Event → Prop
  | .probeSent _ => 0 < s.cfg.probeStep
  | .acked _ => True
  | .lost pn => s.Sinks pn → max (s.path.pmtu/2) s.cfg.initialMtu+s.cfg.probeStep ≤ s.cfg.maxMtu

/-- The search in every state of a run: the probe in the slot is the step up from the MTU that it still has. -/
structure Inv (s : Search) : Prop where
  floor : s.cfg.initialMtu ≤ s.path.pmtu
  ceiling : s.path.pmtu ≤ s.cfg.maxMtu
  probes : ∀ probe ∈ s.probes, probe.Fair s.cfg.maxMtu
  slot : s.path.probesInFlight = if s.path.probePn.isSome then 1 else 0
  bounds : ∀ bound ∈ s.bounds, ∃ least, s.path.upperBound = some least ∧ least ≤ bound
  disabled : s.cfg.enable = false → s.path.state = .disabled ∧ s.path.probePn = none
  probing : s.path.probePn.isSome = true → s.path.state = .search ∧ s.path.probedSize = s.path.pmtu+s.cfg.probeStep
  room : s.path.state = .search → s.path.pmtu+s.cfg.probeStep ≤ s.cfg.maxMtu ∧
    ∀ bound, s.path.upperBound = some bound → s.path.pmtu+s.cfg.probeStep < bound

theorem next_eq (p : PathMtu) (probeStep maxMtu size : Nat) : p.pmtudNextProbeSize probeStep maxMtu = some size ↔
    p.state = .search ∧ p.probePn = none ∧ (∀ bound, p.upperBound = some bound → p.pmtu+probeStep < bound) ∧
      p.pmtu+probeStep ≤ maxMtu ∧ size = p.pmtu+probeStep := by
  unfold PathMtu.pmtudNextProbeSize
  by_cases search : p.state = .search
  · cases slot : p.probePn with
    | some pn => simp [search]
    | none =>
      cases bound : p.upperBound with
      | none =>
        simp only [search,ne_eq,not_true_eq_false,if_false,Option.isSome_none,Bool.false_eq_true,Option.any_none]
        by_cases large : p.pmtu+probeStep > maxMtu
        · simp only [if_pos large,reduceCtorEq,false_iff]
          rintro ⟨_,_,_,least,_⟩
          omega
        · simp [large]
          omega
      | some b =>
        simp only [search,ne_eq,not_true_eq_false,if_false,Option.isSome_none,Bool.false_eq_true,Option.any_some,decide_eq_true_eq]
        by_cases high : p.pmtu+probeStep ≥ b
        · simp only [if_pos high,reduceCtorEq,false_iff]
          rintro ⟨_,_,below,_⟩
          exact absurd (below b rfl) (Nat.not_lt.mpr high)
        · by_cases large : p.pmtu+probeStep > maxMtu
          · simp only [if_neg high,if_pos large,reduceCtorEq,false_iff]
            rintro ⟨_,_,_,least,_⟩
            omega
          · simp [high,large]
            omega
  · simp [search]

theorem settle_room (p : PathMtu) (probeStep maxMtu : Nat) (free : p.probePn = none) :
    let after := p.pmtudSettleTermination probeStep maxMtu
    after.pmtu = p.pmtu ∧ after.probePn = none ∧ after.probesInFlight = p.probesInFlight ∧ after.upperBound = p.upperBound ∧
      (p.state ≠ .disabled → after.state ≠ .disabled) ∧
      (after.state = .search → p.pmtu+probeStep ≤ maxMtu ∧ ∀ bound, p.upperBound = some bound → p.pmtu+probeStep < bound) := by
  unfold PathMtu.pmtudSettleTermination
  dsimp only
  split
  · exact ⟨rfl,free,rfl,rfl,fun _ => nofun,nofun⟩
  · rename_i goes
    refine ⟨rfl,free,rfl,rfl,id,fun search => ?_⟩
    cases next : p.pmtudNextProbeSize probeStep maxMtu with
    | none => exact absurd ⟨search,next⟩ goes
    | some size =>
      obtain ⟨_,_,below,least,_⟩ := (next_eq _ _ _ _).mp next
      exact ⟨least,below⟩

theorem Inv.good {s : Search} (inv : Inv s) : Good s := by
  refine ⟨inv.floor,inv.ceiling,inv.probes,inv.slot,fun search => ?_⟩
  cases slot : s.path.probePn with
  | some pn => exact .inl rfl
  | none =>
    obtain ⟨least,below⟩ := inv.room search
    exact .inr (by rw [(next_eq _ _ _ _).mpr ⟨search,slot,below,least,rfl⟩]; rfl)

theorem inv_fresh {s : Search} (fresh : Fresh s) : Inv s := by
  obtain ⟨start,limits,room⟩ := fresh
  generalize s.cfg = cfg at *
  subst start
  refine ⟨Nat.le_refl _,limits,List.forall_mem_nil _,rfl,List.forall_mem_nil _,fun off => ?_,nofun,fun search => ?_⟩
  · change (if cfg.enable then PmtudState.search else .disabled) = .disabled ∧ _
    change cfg.enable = false at off
    rw [off]
    exact ⟨rfl,rfl⟩
  · refine ⟨?_,nofun⟩
    change (if cfg.enable then PmtudState.search else .disabled) = .search at search
    cases on : cfg.enable with
    | true => exact room on
    | false => rw [on] at search; nomatch search

theorem inv_probeSent {s : Search} (inv : Inv s) (pn : Nat) (up : 0 < s.cfg.probeStep) : Inv (s.probeSent pn) := by
  unfold Search.probeSent
  cases next : s.path.pmtudNextProbeSize s.cfg.probeStep s.cfg.maxMtu with
  | none => exact inv
  | some size =>
    obtain ⟨search,free,below,least,rfl⟩ := (next_eq _ _ _ _).mp next
    have fair : Probe.Fair s.cfg.maxMtu ⟨s.path.pmtu+s.cfg.probeStep,s.path.pmtu,s.bounds⟩ := by
      refine ⟨by dsimp only; omega,least,fun bound known => ?_⟩
      obtain ⟨lowest,recorded,le⟩ := inv.bounds bound known
      exact Nat.lt_of_lt_of_le (below lowest recorded) le
    refine ⟨inv.floor,inv.ceiling,List.forall_mem_cons.mpr ⟨fair,inv.probes⟩,rfl,inv.bounds,fun off => ?_,fun _ => ⟨search,rfl⟩,inv.room⟩
    exact absurd (search.symm.trans (inv.disabled off).1) nofun

theorem inv_acked {s : Search} (inv : Inv s) (pn : Nat) : Inv (s.acked pn) := by
  unfold Search.acked
  split
  · rename_i ours
    have probing : s.path.probePn.isSome = true := by rw [ours]; rfl
    obtain ⟨search,size⟩ := inv.probing probing
    obtain ⟨least,_⟩ := inv.room search
    unfold PathMtu.pmtudOnProbeAcked
    obtain ⟨pmtu,free,slot,bound,_,room⟩ := settle_room ({{s.path with pmtu := s.path.probedSize}.pmtudClearProbeSlot with
      failCount := 0,consecutiveRegularLosses := 0}) s.cfg.probeStep s.cfg.maxMtu rfl
    dsimp only [PathMtu.pmtudClearProbeSlot] at *
    refine ⟨?_,?_,inv.probes,?_,?_,fun off => ?_,fun taken => ?_,fun search => ?_⟩
    · dsimp only
      rw [pmtu,size]
      exact Nat.le_trans inv.floor (Nat.le_add_right _ _)
    · dsimp only
      rw [pmtu,size]
      exact least
    · dsimp only
      rw [slot,free]
      rfl
    · dsimp only
      rw [bound]
      exact inv.bounds
    · exact absurd (ours.symm.trans (inv.disabled off).2) nofun
    · dsimp only at taken
      rw [free] at taken
      nomatch taken
    · dsimp only
      rw [pmtu,bound]
      exact room search
  · exact ⟨inv.floor,inv.ceiling,inv.probes,inv.slot,inv.bounds,inv.disabled,inv.probing,inv.room⟩

theorem inv_probeLost {s : Search} (inv : Inv s) (pn : Nat) (ours : s.path.probePn = some pn) : Inv (s.lost pn) := by
  have probing : s.path.probePn.isSome = true := by rw [ours]; rfl
  obtain ⟨search,size⟩ := inv.probing probing
  obtain ⟨least,below⟩ := inv.room search
  have on : ¬s.cfg.enable = false := fun off => absurd (ours.symm.trans (inv.disabled off).2) nofun
  unfold Search.lost
  rw [if_pos ours]
  unfold PathMtu.pmtudOnProbeLost
  dsimp only
  by_cases many : min ((s.path.pmtudClearProbeSlot).failCount+1) maxU16 ≥ s.cfg.probeThreshold
  · rw [if_pos many]
    obtain ⟨pmtu,free,slot,bound,_,room⟩ := settle_room ({s.path.pmtudClearProbeSlot with
      upperBound := some (s.path.pmtudClearProbeSlot.upperBound.elim s.path.probedSize (min · s.path.probedSize))
      failCount := 0}) s.cfg.probeStep s.cfg.maxMtu rfl
    dsimp only [PathMtu.pmtudClearProbeSlot] at *
    refine ⟨?_,?_,inv.probes,?_,?_,fun off => absurd off on,fun taken => ?_,fun search => ?_⟩
    · dsimp only
      rw [pmtu]
      exact inv.floor
    · dsimp only
      rw [pmtu]
      exact inv.ceiling
    · dsimp only
      rw [slot,free]
      rfl
    · dsimp only
      rw [bound,if_pos rfl]
      refine List.forall_mem_cons.mpr ⟨⟨_,rfl,?_⟩,fun b known => ?_⟩
      · cases s.path.upperBound with
        | none => exact Nat.le_refl _
        | some old => exact Nat.min_le_right _ _
      · obtain ⟨lowest,recorded,le⟩ := inv.bounds b known
        rw [recorded]
        exact ⟨_,rfl,Nat.le_trans (Nat.min_le_left _ _) le⟩
    · dsimp only at taken
      rw [free] at taken
      nomatch taken
    · dsimp only
      rw [pmtu,bound]
      exact room search
  · rw [if_neg many]
    exact ⟨inv.floor,inv.ceiling,inv.probes,rfl,inv.bounds,fun off => absurd off on,nofun,inv.room⟩

theorem inv_regularLost {s : Search} (inv : Inv s) (pn : Nat) (other : s.path.probePn ≠ some pn)
    (roomy : s.Sinks pn → max (s.path.pmtu/2) s.cfg.initialMtu+s.cfg.probeStep ≤ s.cfg.maxMtu) : Inv (s.lost pn) := by
  unfold Search.lost
  rw [if_neg other]
  cases on : s.cfg.enable with
  | false => exact inv
  | true =>
    rw [Bool.not_true,if_neg Bool.false_ne_true]
    unfold PathMtu.pmtudOnRegularLost
    dsimp only
    by_cases off : s.path.state = .disabled
    · rw [if_pos off]
      exact inv
    rw [if_neg off]
    by_cases few : min (s.path.consecutiveRegularLosses+1) maxU16 < s.cfg.probeThreshold
    · rw [if_pos few]
      exact ⟨inv.floor,inv.ceiling,inv.probes,inv.slot,inv.bounds,inv.disabled,inv.probing,inv.room⟩
    rw [if_neg few]
    have room := roomy ⟨other,on,off,Nat.le_of_not_lt few⟩
    refine ⟨Nat.le_max_right _ _,Nat.le_trans (Nat.le_add_right _ _) room,inv.probes,rfl,List.forall_mem_nil _,fun off => ?_,nofun,
      fun _ => ⟨room,nofun⟩⟩
    exact absurd (on.symm.trans off) nofun

theorem inv_step {s : Search} {event : Event} (inv : Inv s) (roomy : Roomy s event) : Inv (step s event) := by
  cases event with
  | probeSent pn => exact inv_probeSent inv pn roomy
  | acked pn => exact inv_acked inv pn
  | lost pn =>
    by_cases ours : s.path.probePn = some pn
    · exact inv_probeLost inv pn ours
    · exact inv_regularLost inv pn ours roomy

/-- A search with room for its probes stays between its limits and goes on until it is done. -/
theorem search_goes_on (start : Search) (events : List Event) (fresh : Fresh start) (roomy : System.Admits step Roomy start events) :
    System.Throughout Good step start events := by
  refine System.Throughout.of_reaches (fun s reached => ?_) (.start fresh) roomy
  exact (reached.invariant Inv (fun _ => inv_fresh) fun _ _ inv allowed => inv_step inv allowed).good

theorem search_goes_on_default : System.Throughout Good step (Search.init {}) [.probeSent 7,.acked 7,.probeSent 8,.lost 8,.lost 3] :=
  search_goes_on (Search.init {}) _ ⟨rfl,by decide,fun _ => by decide⟩
    ⟨(by decide : 0 < 64),trivial,(by decide : 0 < 64),fun sinks => absurd sinks.1 (by decide),
    fun sinks => absurd sinks.2.2.2 (by decide),trivial⟩

/-- A search that is pinned at its first size has no probe and is never done. -/
theorem pinned_search_hangs : ¬System.Throughout Good step (Search.init {maxMtu := 1200}) [] := by
  intro all
  rcases all.moves rfl with probing | next
  · nomatch probing
  · exact absurd next (by decide)

end QuicZig.Conn.Pmtud
