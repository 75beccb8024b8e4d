import QuicZig.Wire.Header
import QuicZig.Library.FirstMatch

/-! One network path: its addresses and connection IDs, the bytes that went each way,
the state of its validation, and the snapshot that a failed migration goes back to. -/
namespace QuicZig.Conn
open Machine Codec Wire

inductive Address where
  | unspecified
  | ipv4 (addr : Fixed 4) (port : UInt16)
  | ipv6 (addr : Fixed 16) (port : UInt16) (flow : UInt32)
  deriving DecidableEq, Repr

namespace PathValidator

inductive Status where
  | idle
  | pending
  | validated
  | failed
  deriving DecidableEq, Repr

end PathValidator

theorem noToken_exact : (List.replicate 8 (0 : Byte)).length = 8 := List.length_replicate

structure PathValidator where
  status : PathValidator.Status := .idle
  pendingToken : Fixed 8 := ⟨List.replicate 8 0,noToken_exact⟩
  pendingAtUs : Nat := 0
  timeoutUs : Nat := 0
  deriving DecidableEq, Repr

namespace PathValidator

def beginChallenge (self : PathValidator) (token : Fixed 8) (nowUs timeoutUs : Nat) : PathValidator :=
  {self with status := .pending,pendingToken := token,pendingAtUs := nowUs,timeoutUs := timeoutUs}

/-- Whether the token matched; `none` is the error `NotPending`. -/
def recordResponse (self : PathValidator) (token : Fixed 8) : Option (Bool × PathValidator) :=
  if self.status ≠ .pending then none
  else if token = self.pendingToken then some (true,{self with status := .validated})
  else some (false,self)

def tick (self : PathValidator) (nowUs : Nat) : PathValidator :=
  if self.status ≠ .pending then self
  else if nowUs > self.pendingAtUs ∧ nowUs-self.pendingAtUs > self.timeoutUs then {self with status := .failed}
  else self

def isValidated (self : PathValidator) : Bool := self.status = .validated

theorem tick_tick {self : PathValidator} {nowUs : Nat} (going : (self.tick nowUs).status ≠ .failed) :
    ((self.tick nowUs).tick nowUs).status ≠ .failed := by
  by_cases pending : self.status = .pending
  · by_cases late : nowUs > self.pendingAtUs ∧ nowUs-self.pendingAtUs > self.timeoutUs
    · simp [tick,pending,late] at going
    · simp [tick,pending,late]
  · simpa [tick,pending] using going

theorem tick_validated (self : PathValidator) (nowUs : Nat) : (self.tick nowUs).isValidated = self.isValidated := by
  unfold tick
  split
  · rfl
  · rename_i pending
    have pending : self.status = .pending := by simpa using pending
    split <;> simp [isValidated,pending]

end PathValidator

namespace Path

inductive State where
  | fresh
  | active
  | failed
  | retiring
  deriving DecidableEq, Repr

end Path

structure Path where
  peerAddr : Address := .unspecified
  localAddr : Address := .unspecified
  peerCid : ConnId := {}
  bytesReceived : Nat := 0
  bytesSent : Nat := 0
  validator : PathValidator := {}
  validated : Bool := false
  state : Path.State := .fresh
  lastPathChallengeAtUs : Option Nat := none
  deriving DecidableEq, Repr

namespace Path

def markValidated (self : Path) : Path :=
  {self with validated := true,validator := {self.validator with status := .validated}}

def isValidated (self : Path) : Bool := self.validated || self.validator.isValidated

def onDatagramReceived (self : Path) (n : Nat) : Path :=
  {self with bytesReceived := self.bytesReceived+n,state := if self.state = .fresh then .active else self.state}

def antiAmpAllowance (self : Path) : Nat :=
  if self.isValidated then maxU64
  else
    let cap := if self.bytesReceived*3 ≤ maxU64 then self.bytesReceived*3 else maxU64
    if self.bytesSent ≥ cap then 0 else cap-self.bytesSent

def onDatagramSent (self : Path) (n : Nat) : Path :=
  {self with bytesSent := self.bytesSent+n,state := if self.state = .fresh then .active else self.state}

def retire (self : Path) : Path := {self with state := .retiring}

def fail (self : Path) : Path := {self with state := .failed}

theorem allowance_covered {self : Path} {n : Nat} (unvalidated : self.isValidated = false)
    (room : n ≤ self.antiAmpAllowance) (balanced : self.bytesSent ≤ 3*self.bytesReceived) :
    self.bytesSent+n ≤ 3*self.bytesReceived := by
  unfold antiAmpAllowance at room
  rw [if_neg (by simp [unvalidated])] at room
  dsimp only at room
  split at room <;> split at room <;> omega

end Path

structure MigrationRollback where
  peerAddr : Address
  peerAddrSet : Bool
  localAddr : Address
  localAddrSet : Bool
  peerCid : ConnId
  validated : Bool
  bytesReceived : Nat
  bytesSent : Nat
  state : Path.State
  deriving DecidableEq, Repr

structure PathState where
  id : Nat
  path : Path := {}
  peerAddrSet : Bool := false
  localAddrSet : Bool := false
  pendingMigrationReset : Bool := false
  migrationRollback : Option MigrationRollback := none
  deriving DecidableEq, Repr

namespace PathState

def snapshotMigrationRollback (self : PathState) : PathState :=
  match self.migrationRollback with
  | some _ => self
  | none =>
    let rollback : MigrationRollback :=
      {peerAddr := self.path.peerAddr,peerAddrSet := self.peerAddrSet,localAddr := self.path.localAddr,
       localAddrSet := self.localAddrSet,peerCid := self.path.peerCid,validated := self.path.isValidated,
       bytesReceived := self.path.bytesReceived,bytesSent := self.path.bytesSent,state := self.path.state}
    {self with migrationRollback := some rollback}

def setPeerAddress (self : PathState) (addr : Address) : PathState :=
  {self with path := {self.path with peerAddr := addr},peerAddrSet := true}

def setLocalAddress (self : PathState) (addr : Address) : PathState :=
  {self with path := {self.path with localAddr := addr},localAddrSet := true}

def setPeerCid (self : PathState) (cid : ConnId) : PathState := {self with path := {self.path with peerCid := cid}}

def beginMigration (self : PathState) (peerAddr : Address) (datagramLen : Nat) : PathState :=
  let self := self.snapshotMigrationRollback.setPeerAddress peerAddr
  let path := {self.path with validated := false,validator := {},bytesReceived := 0,bytesSent := 0}
  {self with path := {path.onDatagramReceived datagramLen with state := .active},pendingMigrationReset := true}

/-- `rollback` is the snapshot that the path holds; without one nothing is restored. -/
def rollbackFailedMigration (self : PathState) (rollback : MigrationRollback) : PathState :=
  let validator : PathValidator := if rollback.validated then {status := .validated} else {}
  let path : Path :=
    {self.path with peerAddr := rollback.peerAddr,localAddr := rollback.localAddr,peerCid := rollback.peerCid,
                    validated := rollback.validated,validator := validator,bytesReceived := rollback.bytesReceived,
                    bytesSent := rollback.bytesSent,state := rollback.state}
  {self with path := path,peerAddrSet := rollback.peerAddrSet,localAddrSet := rollback.localAddrSet,
             pendingMigrationReset := false,migrationRollback := none}

/-- The recovery and congestion state that this starts anew is not modelled. -/
def resetRecoveryAfterMigration (self : PathState) : PathState :=
  {self with pendingMigrationReset := false,migrationRollback := none}

def peerAddress (self : PathState) : Option Address := if self.peerAddrSet then some self.path.peerAddr else none

def matchesMigrationRollbackAddress (self : PathState) (addr : Address) : Bool :=
  match self.migrationRollback with
  | none => false
  | some rollback => rollback.peerAddrSet && rollback.peerAddr = addr

def matchesPeerAddress (self : PathState) (addr : Address) : Bool :=
  (self.peerAddrSet && self.path.peerAddr = addr) || self.matchesMigrationRollbackAddress addr

end PathState

/-- The paths of a connection. The primary one is there from the start and is never removed. -/
structure PathSet where
  primary : PathState
  others : List PathState := []
  activeId : Nat := 0
  nextPathId : Nat := 1
  deriving DecidableEq, Repr

namespace PathSet

def items (self : PathSet) : List PathState := self.primary::self.others

def get (self : PathSet) (id : Nat) : Option PathState := self.items.find? (·.id = id)

def active (self : PathSet) : PathState := (self.get self.activeId).getD self.primary

/-- Changes the path that `get` finds. -/
def update (self : PathSet) (id : Nat) (f : PathState → PathState) : PathSet :=
  if self.primary.id = id then {self with primary := f self.primary}
  else {self with others := FirstMatch.update (·.id = id) f self.others}

def openPath (self : PathSet) (peerAddr localAddr : Address) (peerCid : ConnId) : PathSet :=
  {self with others := self.others++[{id := self.nextPathId,
                                      path := {peerAddr := peerAddr,localAddr := localAddr,peerCid := peerCid},
                                      peerAddrSet := peerAddr ≠ .unspecified,localAddrSet := localAddr ≠ .unspecified}],
             nextPathId := self.nextPathId+1}

theorem update_items (self : PathSet) (id : Nat) (f : PathState → PathState) :
    (self.update id f).items = FirstMatch.update (·.id = id) f self.items := by
  unfold update items
  by_cases here : self.primary.id = id <;> simp [FirstMatch.update,here]

theorem update_split {self : PathSet} {id : Nat} {p : PathState} (found : self.get id = some p) :
    ∃ before after, self.items = before++p::after ∧ ∀ f, (self.update id f).items = before++f p::after := by
  obtain ⟨before,after,split,updated⟩ := FirstMatch.update_split found
  exact ⟨before,after,split,fun f => by rw [update_items,updated]⟩

theorem get_id {self : PathSet} {id : Nat} {p : PathState} (found : self.get id = some p) : p.id = id := by
  simpa using List.find?_some found

theorem get_mem {self : PathSet} {id : Nat} {p : PathState} (found : self.get id = some p) : p ∈ self.items :=
  List.mem_of_find?_eq_some found

/-- A change that keeps the id is seen by a lookup of that id, and by no other. -/
theorem get_update (self : PathSet) (id other : Nat) {f : PathState → PathState} (same : ∀ p, (f p).id = p.id) :
    (self.update id f).get other = if other = id then (self.get id).map f else self.get other := by
  unfold get
  rw [update_items]
  generalize self.items = items
  induction items with
  | nil => simp [FirstMatch.update]
  | cons p rest ih =>
    rw [FirstMatch.update]
    by_cases here : p.id = id
    · subst here
      rw [if_pos (by simp)]
      by_cases asked : other = p.id
      · subst asked
        simp [same]
      · simp [same,asked,Ne.symm asked]
    · rw [if_neg (by simpa using here)]
      by_cases asked : other = id
      · subst asked
        simp [here] at ih ⊢
        exact ih
      · by_cases found : p.id = other
        · subst found
          simp [here]
        · simp [found,asked] at ih ⊢
          exact ih

theorem get_update_twice (self : PathSet) (id other : Nat) {f g : PathState → PathState} (first : ∀ p, (f p).id = p.id)
    (second : ∀ p, (g p).id = p.id) : ((self.update id f).update id g).get other =
      if other = id then (self.get id).map (fun p => g (f p)) else self.get other := by
  rw [get_update _ _ _ second,get_update _ _ _ first,get_update _ _ _ first,if_pos rfl,Option.map_map]
  split <;> rfl

end PathSet

end QuicZig.Conn
