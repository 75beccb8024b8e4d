import Mathlib.Data.List.Basic
import QuicZig.Machine

/-! The session-ticket keys of a server: the one that seals, and the one before it, which opens the tickets that are out until
their lifetime is over. -/
namespace QuicZig.Server.Tickets
open Machine

def keyLen : Nat := 48
def nameLen : Nat := 16
def minLifetimeS : Nat := 1
def maxLifetimeS : Nat := 7*24*60*60
def defaultLifetimeS : Nat := 2*24*60*60
def usPerS : Nat := 1000000

def isValidLifetime (seconds : Nat) : Bool := minLifetimeS ≤ seconds && seconds ≤ maxLifetimeS

abbrev Key := {bytes : List Byte // bytes.length = keyLen}

def Key.name (key : Key) : List Byte := key.val.take nameLen

def isAllZero (key : Key) : Bool := key.val.all (· == 0)

structure KeyRing where
  current : Key
  previous : Option Key := none
  previousExpiresAtUs : Nat := 0
  deriving DecidableEq

namespace KeyRing

/-- `none` is `SameKeyName`. -/
def rotate (ring : KeyRing) (newKey : Key) (expiresAtUs : Nat) : Option KeyRing :=
  if newKey.name = ring.current.name then none
  else some ⟨newKey,some ring.current,expiresAtUs⟩

def dropPrevious (ring : KeyRing) : KeyRing := {ring with previous := none,previousExpiresAtUs := 0}

def expire (ring : KeyRing) (nowUs : Nat) : Bool × KeyRing :=
  if ring.previous.isNone then (false,ring)
  else if nowUs < ring.previousExpiresAtUs then (false,ring)
  else (true,ring.dropPrevious)

def find (ring : KeyRing) (name : List Byte) : Option Key :=
  if name = ring.current.name then some ring.current
  else
    match ring.previous with
    | some old => if name = old.name then some old else none
    | none => none

end KeyRing

inductive ConfigError where
  | invalidConfig
  deriving DecidableEq

structure Config where
  sessionTicketKey : Option Key := none
  previousSessionTicketKey : Option Key := none
  previousSessionTicketKeyUntilUs : Option Nat := none
  sessionTicketLifetimeS : Option Nat := none
  tlsContextOverride : Bool := false
  withAntiReplay : Bool := false

structure TicketKeys where
  sessionTicketRing : Option KeyRing
  sessionTicketLifetimeS : Option Nat

namespace TicketKeys

def init (config : Config) : Except ConfigError TicketKeys :=
  if config.sessionTicketKey.any isAllZero then .error .invalidConfig
  else if config.sessionTicketKey.isSome && config.tlsContextOverride then .error .invalidConfig
  else if config.sessionTicketKey.isSome && config.withAntiReplay then .error .invalidConfig
  else if config.sessionTicketLifetimeS.any (!isValidLifetime ·) then .error .invalidConfig
  else if config.sessionTicketLifetimeS.isSome && config.tlsContextOverride then .error .invalidConfig
  else
    match config.sessionTicketKey with
    | some key =>
      match config.previousSessionTicketKey with
      | some old =>
        if isAllZero old then .error .invalidConfig
        else if old.name = key.name then .error .invalidConfig
        else .ok ⟨some ⟨key,some old,config.previousSessionTicketKeyUntilUs.getD maxU64⟩,config.sessionTicketLifetimeS⟩
      | none => .ok ⟨some {current := key},config.sessionTicketLifetimeS⟩
    | none =>
      if config.previousSessionTicketKey.isSome then .error .invalidConfig
      else .ok ⟨none,config.sessionTicketLifetimeS⟩

def lifetimeUs (sessionTicketLifetimeS : Option Nat) : Nat := sessionTicketLifetimeS.getD defaultLifetimeS*usPerS

def rotateSessionTicketKey (server : TicketKeys) (newKey : Key) (nowUs : Nat) : Except ConfigError TicketKeys :=
  match server.sessionTicketRing with
  | none => .error .invalidConfig
  | some ring =>
    if isAllZero newKey then .error .invalidConfig
    else
      match ring.rotate newKey (saturatingAdd nowUs (lifetimeUs server.sessionTicketLifetimeS)) with
      | none => .error .invalidConfig
      | some ring => .ok {server with sessionTicketRing := some ring}

def expireTicketKeys (server : TicketKeys) (nowUs : Nat) : TicketKeys :=
  match server.sessionTicketRing with
  | none => server
  | some ring =>
    let ring := if ring.previous.isSome && ring.previousExpiresAtUs == maxU64 then
        {ring with previousExpiresAtUs := saturatingAdd nowUs (lifetimeUs server.sessionTicketLifetimeS)}
      else ring
    {server with sessionTicketRing := some (ring.expire nowUs).2}

end TicketKeys

/-- `clock` is a `feed` or a `tick`. -/
inductive Event where
  | rotate (newKey : Key) (nowUs : Nat)
  | clock (nowUs : Nat)

namespace Event

def nowUs : Event → Nat
  | .rotate _ nowUs | .clock nowUs => nowUs

end Event

def step (server : TicketKeys) : Event → TicketKeys
  | .rotate newKey nowUs => (server.rotateSessionTicketKey newKey nowUs).toOption.getD server
  | .clock nowUs => server.expireTicketKeys nowUs

def clocks (events : List Event) : List Nat := events.filterMap fun
  | .clock nowUs => some nowUs
  | .rotate _ _ => none

@[simp] theorem clocks_clock (nowUs : Nat) (rest : List Event) : clocks (.clock nowUs::rest) = nowUs::clocks rest := rfl

@[simp] theorem clocks_rotate (newKey : Key) (nowUs : Nat) (rest : List Event) :
    clocks (.rotate newKey nowUs::rest) = clocks rest := rfl

/-- A rotation away from `current` takes place. -/
def Accepts (current newKey : Key) : Prop := isAllZero newKey = false ∧ newKey.name ≠ current.name

def Quiet (current : Key) (events : List Event) : Prop :=
  ∀ newKey nowUs, .rotate newKey nowUs ∈ events → ¬Accepts current newKey

/-- The servers with a ring, and its three fields. -/
def serving (life : Option Nat) (current : Key) (previous : Option Key) (expiresAtUs : Nat) : TicketKeys :=
  ⟨some ⟨current,previous,expiresAtUs⟩,life⟩

section
variable {life : Option Nat} {current : Key} {previous : Option Key} {expiresAtUs : Nat}

theorem step_refused (newKey : Key) (nowUs : Nat) (refused : ¬Accepts current newKey) :
    step (serving life current previous expiresAtUs) (.rotate newKey nowUs) = serving life current previous expiresAtUs := by
  cases zero : isAllZero newKey with
  | true => simp [step,serving,TicketKeys.rotateSessionTicketKey,zero,Except.toOption]
  | false =>
    have same : newKey.name = current.name := Classical.not_not.mp fun apart => refused ⟨zero,apart⟩
    simp [step,serving,TicketKeys.rotateSessionTicketKey,KeyRing.rotate,zero,same,Except.toOption]

theorem step_clock (nowUs : Nat) (anchored : expiresAtUs < maxU64) :
    ∃ expiresAtUs', step (serving life current previous expiresAtUs) (.clock nowUs) =
      serving life current (if nowUs < expiresAtUs then previous else none) expiresAtUs' ∧
        (nowUs < expiresAtUs → expiresAtUs' = expiresAtUs) ∧ expiresAtUs' < maxU64 := by
  have apart : (expiresAtUs == maxU64) = false := by
    rw [beq_eq_false_iff_ne]
    exact Nat.ne_of_lt anchored
  cases previous with
  | none => exact ⟨expiresAtUs,by simp [step,serving,TicketKeys.expireTicketKeys,KeyRing.expire],fun _ => rfl,anchored⟩
  | some old =>
    by_cases early : nowUs < expiresAtUs
    · exact ⟨expiresAtUs,by simp [step,serving,TicketKeys.expireTicketKeys,KeyRing.expire,apart,early],fun _ => rfl,anchored⟩
    · refine ⟨0,?_,fun now => absurd now early,by decide⟩
      simp [step,serving,TicketKeys.expireTicketKeys,KeyRing.expire,KeyRing.dropPrevious,apart,early]

/-- Between two rotations the previous key stays until the clock reaches its end. -/
theorem quiet_run (events : List Event) (quiet : Quiet current events) (anchored : expiresAtUs < maxU64) :
    ∃ expiresAtUs', events.foldl step (serving life current previous expiresAtUs) =
      serving life current (if ∀ nowUs ∈ clocks events, nowUs < expiresAtUs then previous else none) expiresAtUs' := by
  induction events generalizing previous expiresAtUs with
  | nil => exact ⟨expiresAtUs,by simp [clocks]⟩
  | cons event rest ih =>
    have later : Quiet current rest := fun newKey nowUs member => quiet newKey nowUs (List.mem_cons_of_mem _ member)
    rw [List.foldl_cons]
    cases event with
    | rotate newKey nowUs =>
      rw [step_refused newKey nowUs (quiet newKey nowUs List.mem_cons_self)]
      exact ih later anchored
    | clock nowUs =>
      obtain ⟨next,stepped,same,anchored'⟩ := @step_clock life current previous expiresAtUs nowUs anchored
      rw [stepped]
      obtain ⟨last,ran⟩ := ih later anchored'
      refine ⟨last,ran.trans ?_⟩
      by_cases early : nowUs < expiresAtUs
      · simp [early,same early]
      · simp [early]

theorem step_accepted (newKey : Key) (nowUs : Nat) (accepts : Accepts current newKey) :
    step (serving life current previous expiresAtUs) (.rotate newKey nowUs) =
      serving life newKey (some current) (saturatingAdd nowUs (TicketKeys.lifetimeUs life)) := by
  simp [step,serving,TicketKeys.rotateSessionTicketKey,KeyRing.rotate,accepts.1,accepts.2,Except.toOption]

theorem step_clock_serving (nowUs : Nat) : ∃ previous' expiresAtUs',
    step (serving life current previous expiresAtUs) (.clock nowUs) = serving life current previous' expiresAtUs' := by
  have kept : ∀ ring : KeyRing, ∃ p d, (ring.expire nowUs).2 = ⟨ring.current,p,d⟩ := by
    intro ring
    unfold KeyRing.expire KeyRing.dropPrevious
    split
    · exact ⟨_,_,rfl⟩
    · split <;> exact ⟨_,_,rfl⟩
  simp only [step,serving,TicketKeys.expireTicketKeys]
  split
  · obtain ⟨p,d,after⟩ := kept ⟨current,previous,saturatingAdd nowUs (TicketKeys.lifetimeUs life)⟩
    exact ⟨p,d,by rw [after]⟩
  · obtain ⟨p,d,after⟩ := kept ⟨current,previous,expiresAtUs⟩
    exact ⟨p,d,by rw [after]⟩

theorem last_rotation (events : List Event) : Quiet current events ∨
    ∃ before newKey nowUs after key previous' expiresAtUs', events = before ++ .rotate newKey nowUs::after ∧
      before.foldl step (serving life current previous expiresAtUs) = serving life key previous' expiresAtUs' ∧
      Accepts key newKey ∧ Quiet newKey after := by
  induction events generalizing current previous expiresAtUs with
  | nil => exact .inl fun _ _ member => nomatch member
  | cons event rest ih =>
    have later : ∀ c p d, step (serving life current previous expiresAtUs) event = serving life c p d → Quiet c rest ∨
      ∃ before newKey nowUs after key p d, event::rest = before ++ .rotate newKey nowUs::after ∧
          before.foldl step (serving life current previous expiresAtUs) = serving life key p d ∧
          Accepts key newKey ∧ Quiet newKey after := fun c p d stepped => by
      refine (@ih c p d).imp_right ?_
      rintro ⟨before,newKey,nowUs,after,key,p,d,split,ran,accepts,quiet⟩
      exact ⟨event::before,newKey,nowUs,after,key,p,d,congrArg (event::·) split,
        by rw [List.foldl_cons,stepped,ran],accepts,quiet⟩
    cases event with
    | rotate newKey nowUs =>
      by_cases accepts : Accepts current newKey
      · refine .inr ((later _ _ _ (step_accepted newKey nowUs accepts)).elim (fun quiet => ?_) id)
        exact ⟨[],newKey,nowUs,rest,current,previous,expiresAtUs,rfl,rfl,accepts,quiet⟩
      · refine (later _ _ _ (step_refused newKey nowUs accepts)).imp_left fun quiet key at' member => ?_
        rcases List.mem_cons.mp member with same | member
        · cases same
          exact accepts
        · exact quiet key at' member
    | clock nowUs =>
      obtain ⟨p,d,stepped⟩ := @step_clock_serving life current previous expiresAtUs nowUs
      refine (later _ _ _ stepped).imp_left fun quiet key at' member => ?_
      rcases List.mem_cons.mp member with same | member
      · cases same
      · exact quiet key at' member

/-- A previous key without an end of its own gets one from the first clock. -/
theorem unanchored_run (old : Key) (events : List Event) (quiet : Quiet current events)
    (bounded : ∀ event ∈ events, event.nowUs+TicketKeys.lifetimeUs life < maxU64) (lasts : 0 < TicketKeys.lifetimeUs life) :
    ∃ expiresAtUs', events.foldl step (serving life current (some old) maxU64) =
      serving life current (if ∀ nowUs ∈ clocks events, nowUs < (clocks events).headD 0+TicketKeys.lifetimeUs life
      then some old else none)
        expiresAtUs' := by
  induction events with
  | nil => exact ⟨maxU64,by simp [clocks]⟩
  | cons event rest ih =>
    have later : Quiet current rest := fun newKey nowUs member => quiet newKey nowUs (List.mem_cons_of_mem _ member)
    rw [List.foldl_cons]
    cases event with
    | rotate newKey nowUs =>
      rw [step_refused newKey nowUs (quiet newKey nowUs List.mem_cons_self)]
      exact ih later fun e member => bounded e (List.mem_cons_of_mem _ member)
    | clock nowUs =>
      have bound : nowUs+TicketKeys.lifetimeUs life < maxU64 := bounded _ List.mem_cons_self
      have exactly : saturatingAdd nowUs (TicketKeys.lifetimeUs life) = nowUs+TicketKeys.lifetimeUs life :=
        Nat.min_eq_left (Nat.le_of_lt bound)
      have anchors : step (serving life current (some old) maxU64) (.clock nowUs) =
          serving life current (some old) (nowUs+TicketKeys.lifetimeUs life) := by
        simp [step,serving,TicketKeys.expireTicketKeys,KeyRing.expire,exactly,lasts]
      obtain ⟨last,ran⟩ := @quiet_run life current (some old) _ rest later bound
      rw [anchors,ran]
      exact ⟨last,by simp [lasts]⟩

end

def sealing (server : TicketKeys) : Option Key := server.sessionTicketRing.map (·.current)

def opening (server : TicketKeys) (name : List Byte) : Option Key := server.sessionTicketRing.bind (·.find name)

/-- `key` sealed until the last rotation, and the clock has not reached the end of the lifetime that began with it. -/
def Retired (life : Nat) (start : TicketKeys) (events : List Event) (key : Key) : Prop :=
  ∃ before newKey nowUs after, events = before ++ .rotate newKey nowUs::after ∧
    sealing (before.foldl step start) = some key ∧
    Accepts key newKey ∧ Quiet newKey after ∧ ∀ clock ∈ clocks after, clock < nowUs+life

/-- `key` is the previous key of the configuration, no rotation took place, and the clock has not reached the end that was given, or
the end of the lifetime that began with the first `feed` or `tick`. -/
def Left (life : Nat) (config : Config) (events : List Event) (key : Key) : Prop :=
  config.previousSessionTicketKey = some key ∧ (∀ current ∈ config.sessionTicketKey, Quiet current events) ∧
    ∀ clock ∈ clocks events, clock < config.previousSessionTicketKeyUntilUs.getD ((clocks events).headD 0+life)

theorem opening_serving {life : Option Nat} {current : Key} {previous : Option Key} {expiresAtUs : Nat}
    (apart : ∀ old ∈ previous, old.name ≠ current.name) (name : List Byte) (key : Key) :
    opening (serving life current previous expiresAtUs) name = some key ↔ name = key.name ∧
    (key = current ∨ previous = some key) := by
  simp only [opening,serving,Option.bind_some,KeyRing.find]
  by_cases first : name = current.name
  · simp only [first,if_true,Option.some.injEq]
    constructor
    · rintro rfl
      exact ⟨rfl,.inl rfl⟩
    · rintro ⟨same,rfl | held⟩
      · rfl
      · exact absurd same.symm (apart key held)
  · rw [if_neg first]
    cases previous with
    | none =>
      refine ⟨nofun,?_⟩
      rintro ⟨rfl,rfl | held⟩
      · exact absurd rfl first
      · cases held
    | some old =>
      by_cases second : name = old.name
      · simp only [second,if_true,Option.some.injEq]
        constructor
        · rintro rfl
          exact ⟨rfl,.inr rfl⟩
        · rintro ⟨same,rfl | held⟩
          · exact absurd (second.trans same) first
          · exact held
      · simp only [second,if_false,Option.some.injEq]
        refine ⟨nofun,?_⟩
        rintro ⟨rfl,rfl | rfl⟩
        · exact absurd rfl first
        · exact absurd rfl second

theorem lifetimeUs_pos {life : Option Nat} (valid : ∀ seconds ∈ life, isValidLifetime seconds = true) :
    0 < TicketKeys.lifetimeUs life := by
  cases life with
  | none => decide
  | some seconds =>
    have bounds := valid seconds rfl
    simp only [isValidLifetime,Bool.and_eq_true,decide_eq_true_eq] at bounds
    exact Nat.mul_pos (Nat.lt_of_lt_of_le Nat.zero_lt_one bounds.1) (by decide)

theorem init_serving {config : Config} {server : TicketKeys} {key : Key} (built : TicketKeys.init config = .ok server)
    (given : config.sessionTicketKey = some key) : ∃ expiresAtUs,
    server = serving config.sessionTicketLifetimeS key config.previousSessionTicketKey expiresAtUs ∧
      (∀ old ∈ config.previousSessionTicketKey, old.name ≠ key.name ∧ expiresAtUs =
      config.previousSessionTicketKeyUntilUs.getD maxU64) ∧
      (config.previousSessionTicketKey = none → expiresAtUs = 0) ∧
      ∀ seconds ∈ config.sessionTicketLifetimeS, isValidLifetime seconds = true := by
  unfold TicketKeys.init at built
  split at built
  · cases built
  split at built
  · cases built
  split at built
  · cases built
  split at built
  · cases built
  rename_i valid
  split at built
  · cases built
  have valid : ∀ seconds ∈ config.sessionTicketLifetimeS, isValidLifetime seconds = true := fun seconds member => by
    rw [member] at valid
    simpa using valid
  rw [given] at built
  cases previous : config.previousSessionTicketKey with
  | none =>
    rw [previous] at built
    cases built
    exact ⟨0,rfl,nofun,fun _ => rfl,valid⟩
  | some old =>
    rw [previous] at built
    dsimp only at built
    split at built
    · cases built
    split at built
    · cases built
    rename_i apart
    cases built
    refine ⟨_,rfl,fun other held => ?_,nofun,valid⟩
    cases held
    exact ⟨apart,rfl⟩

theorem serving_run {life : Option Nat} {current : Key} {previous : Option Key} {expiresAtUs : Nat} (events : List Event) :
    ∃ c p d, events.foldl step (serving life current previous expiresAtUs) = serving life c p d := by
  induction events generalizing current previous expiresAtUs with
  | nil => exact ⟨current,previous,expiresAtUs,rfl⟩
  | cons event rest ih =>
    rw [List.foldl_cons]
    cases event with
    | rotate newKey nowUs =>
      by_cases accepts : Accepts current newKey
      · rw [step_accepted newKey nowUs accepts]
        exact ih
      · rw [step_refused newKey nowUs accepts]
        exact ih
    | clock nowUs =>
      obtain ⟨p,d,stepped⟩ := @step_clock_serving life current previous expiresAtUs nowUs
      rw [stepped]
      exact ih

theorem rotated_run {life : Option Nat} {key newKey : Key} {previous : Option Key} {expiresAtUs nowUs : Nat}
    {after : List Event}
    (accepts : Accepts key newKey) (quiet : Quiet newKey after) (bound : nowUs+TicketKeys.lifetimeUs life < maxU64) :
    ∃ d, (Event.rotate newKey nowUs::after).foldl step (serving life key previous expiresAtUs) = serving life newKey
      (if ∀ clock ∈ clocks after, clock < nowUs+TicketKeys.lifetimeUs life then some key else none) d := by
  have exactly : saturatingAdd nowUs (TicketKeys.lifetimeUs life) = nowUs+TicketKeys.lifetimeUs life :=
    Nat.min_eq_left (Nat.le_of_lt bound)
  rw [List.foldl_cons,step_accepted newKey nowUs accepts,exactly]
  exact quiet_run after quiet bound

theorem first_run {config : Config} {server : TicketKeys} {first : Key} (built : TicketKeys.init config = .ok server)
    (given : config.sessionTicketKey = some first)
    (ends : ∀ untilUs ∈ config.previousSessionTicketKeyUntilUs, untilUs < maxU64)
    {events : List Event} (bounded : ∀ event ∈ events,
      event.nowUs+TicketKeys.lifetimeUs config.sessionTicketLifetimeS < maxU64)
    (quiet : Quiet first events) :
    ∃ d, events.foldl step server = serving config.sessionTicketLifetimeS first
      (if ∀ clock ∈ clocks events, clock < config.previousSessionTicketKeyUntilUs.getD
        ((clocks events).headD 0+TicketKeys.lifetimeUs config.sessionTicketLifetimeS) then
        config.previousSessionTicketKey else none) d := by
  obtain ⟨expiresAtUs,rfl,until',unset,valid⟩ := init_serving built given
  cases previous : config.previousSessionTicketKey with
  | none =>
    rw [unset previous]
    obtain ⟨d,ran⟩ := @quiet_run config.sessionTicketLifetimeS first none 0 events quiet (by decide)
    exact ⟨d,by rw [ran]; simp⟩
  | some old =>
    obtain ⟨_,rfl⟩ := until' old previous
    rcases Option.eq_none_or_eq_some config.previousSessionTicketKeyUntilUs with set | ⟨untilUs,set⟩
    · have own : ∀ endUs, config.previousSessionTicketKeyUntilUs.getD endUs = endUs :=
        fun endUs => by rw [set,Option.getD_none]
      rw [own,own]
      exact unanchored_run old events quiet bounded (lifetimeUs_pos valid)
    · have own : ∀ endUs, config.previousSessionTicketKeyUntilUs.getD endUs = untilUs :=
        fun endUs => by rw [set,Option.getD_some]
      rw [own,own]
      exact quiet_run events quiet (ends untilUs set)

/-- A ticket opens under the key that seals now, and under the key before it until the lifetime of its tickets is over; it opens under
no other key. -/
theorem ticket_opens_iff {config : Config} {server : TicketKeys} {first : Key} (built : TicketKeys.init config = .ok server)
    (given : config.sessionTicketKey = some first)
    (ends : ∀ untilUs ∈ config.previousSessionTicketKeyUntilUs, untilUs < maxU64)
    (events : List Event) (bounded : ∀ event ∈ events,
      event.nowUs+TicketKeys.lifetimeUs config.sessionTicketLifetimeS < maxU64)
    (name : List Byte) (key : Key) :
    opening (events.foldl step server) name = some key ↔ name = key.name ∧
      (sealing (events.foldl step server) = some key ∨
      Retired (TicketKeys.lifetimeUs config.sessionTicketLifetimeS) server events key ∨
        Left (TicketKeys.lifetimeUs config.sessionTicketLifetimeS) config events key) := by
  have first' := @first_run config server first built given ends events bounded
  obtain ⟨expiresAtUs,rfl,until',_,_⟩ := init_serving built given
  have foreign : ∀ old ∈ config.previousSessionTicketKey, old.name ≠ first.name := fun old held => (until' old held).1
  constructor
  · intro opens
    rcases @last_rotation config.sessionTicketLifetimeS first config.previousSessionTicketKey expiresAtUs events with
      quiet | ⟨before,newKey,nowUs,after,k,p,d,rfl,ran,accepts,quiet⟩
    · obtain ⟨d,ran⟩ := first' quiet
      rw [ran] at opens ⊢
      obtain ⟨named,rfl | held⟩ := (opening_serving (fun old held => foreign old (by
        split at held
        · exact held
        · cases held)) name key).mp opens
      · exact ⟨named,.inl rfl⟩
      · split at held
        · rename_i early
          exact ⟨named,.inr (.inr ⟨held,fun current same => Option.some.inj (given.symm.trans same) ▸ quiet,early⟩)⟩
        · cases held
    · have bound : nowUs+TicketKeys.lifetimeUs config.sessionTicketLifetimeS < maxU64 :=
        bounded (.rotate newKey nowUs) (List.mem_append_right _ List.mem_cons_self)
      obtain ⟨d',ran'⟩ := @rotated_run config.sessionTicketLifetimeS k newKey p d nowUs after accepts quiet bound
      rw [List.foldl_append,ran,ran'] at opens ⊢
      obtain ⟨named,rfl | held⟩ := (opening_serving (fun old held => by
        split at held
        · cases held
          exact accepts.2.symm
        · cases held) name key).mp opens
      · exact ⟨named,.inl rfl⟩
      · split at held
        · rename_i early
          cases held
          exact ⟨named,.inr (.inl ⟨before,newKey,nowUs,after,rfl,by rw [ran]; rfl,accepts,quiet,early⟩)⟩
        · cases held
  · rintro ⟨rfl,seals | ⟨before,newKey,nowUs,after,rfl,sealed,accepts,quiet,early⟩ | ⟨held,quiet,early⟩⟩
    · obtain ⟨c,p,d,ran⟩ := @serving_run config.sessionTicketLifetimeS first config.previousSessionTicketKey
        expiresAtUs events
      rw [ran] at seals ⊢
      cases seals
      simp [opening,serving,KeyRing.find]
    · have bound : nowUs+TicketKeys.lifetimeUs config.sessionTicketLifetimeS < maxU64 :=
        bounded (.rotate newKey nowUs) (List.mem_append_right _ List.mem_cons_self)
      obtain ⟨c,p,d,ran⟩ := @serving_run config.sessionTicketLifetimeS first config.previousSessionTicketKey
        expiresAtUs before
      rw [ran] at sealed
      cases sealed
      obtain ⟨d',ran'⟩ := @rotated_run config.sessionTicketLifetimeS c newKey p d nowUs after accepts quiet bound
      rw [List.foldl_append,ran,ran',if_pos early]
      exact (opening_serving (fun old held => Option.some.inj held ▸ accepts.2.symm) c.name c).mpr ⟨rfl,.inr rfl⟩
    · obtain ⟨d,ran⟩ := first' (quiet first given)
      rw [ran,if_pos early]
      exact (opening_serving (fun old also => foreign old also) key.name key).mpr ⟨rfl,.inr held⟩

def filled (byte : Byte) : Key := ⟨List.replicate keyLen byte,List.length_replicate⟩

def carried : Config := {sessionTicketKey := some (filled 1),previousSessionTicketKey := some (filled 9)}

def rotating : List Event := [.clock 50,.rotate (filled 2) 1000000,.rotate (filled 2) 2000000,.clock 3000000]

theorem ticket_opens_iff_rotating :
    opening (rotating.foldl step (serving none (filled 1) (some (filled 9)) maxU64)) (filled 1).name = some (filled 1) ↔
      (filled 1).name = (filled 1).name ∧
        (sealing (rotating.foldl step (serving none (filled 1) (some (filled 9)) maxU64)) = some (filled 1) ∨
          Retired (TicketKeys.lifetimeUs none) (serving none (filled 1) (some (filled 9)) maxU64) rotating (filled 1) ∨
          Left (TicketKeys.lifetimeUs none) carried rotating (filled 1)) :=
  ticket_opens_iff (show TicketKeys.init carried = .ok (serving none (filled 1) (some (filled 9)) maxU64) by
    have keys : isAllZero (filled 1) = false ∧ isAllZero (filled 9) = false ∧ (filled 9).name ≠ (filled 1).name := by decide
    simp [TicketKeys.init,carried,keys,serving]) rfl nofun rotating
    (by decide) (filled 1).name (filled 1)

end QuicZig.Server.Tickets
