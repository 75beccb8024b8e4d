import QuicZig.Conn.PeerCids

/-! How a path comes to another address: the changes that a datagram or the application
asks for, the challenge that follows, and the ways a validation can end. -/
namespace QuicZig.Conn.Paths
open Machine Codec Wire

def minPathChallengeIntervalUs : Nat := 100000

inductive MigrationDecision where
  | allow
  | deny
  deriving DecidableEq, Repr

inductive MigrationError where
  | notClientContext
  | notServerContext
  | migrationPreHandshake
  | migrationValidationPending
  | migrationNoFreshPeerCid
  | preferredAddressNotAdvertised
  | pathLimitExceeded
  | pathNotFound
  deriving DecidableEq, Repr

/-- What the random source and the estimate of the round trip give to a new challenge; without random bytes there is
none. -/
structure Challenge where
  token : Option (Fixed 8)
  timeoutUs : Nat
  deriving DecidableEq, Repr

namespace Connection

def pathForId (conn : Connection) (pathId : Nat) : PathState := (conn.paths.get pathId).getD conn.paths.primary

theorem pathForId_get (conn : Connection) (pathId : Nat) :
    conn.paths.get (conn.pathForId pathId).id = some (conn.pathForId pathId) := by
  unfold pathForId
  cases found : conn.paths.get pathId with
  | none => simp [PathSet.get,PathSet.items]
  | some p => rw [Option.getD_some,PathSet.get_id found,found]

def activePath (conn : Connection) : PathState := conn.paths.active

theorem activePath_get (conn : Connection) : conn.paths.get conn.activePath.id = some conn.activePath := pathForId_get conn _

def incomingPathId (conn : Connection) (from? : Option Address) : Nat :=
  match from? with
  | none => conn.activePath.id
  | some addr =>
    match conn.paths.items.find? (·.matchesPeerAddress addr) with
    | some p => p.id
    | none => conn.activePath.id

def peerAddressChangeCandidate (conn : Connection) (pathId : Nat) (from? : Option Address) : Option Address :=
  match from? with
  | none => none
  | some addr =>
    let path := conn.pathForId pathId
    if path.peerAddrSet = false then none else if path.matchesPeerAddress addr then none else some addr

def queuePathResponseOnPath (conn : Connection) (pathId : Nat) (token : Fixed 8) (addr : Option Address) : Connection :=
  {conn with pathResponse := some token,pathResponsePathId := pathId,pathResponseAddr := addr}

def queuePathChallengeOnPath (conn : Connection) (pathId : Nat) (token : Fixed 8) : Connection :=
  {conn with pathChallenge := some token,pathChallengePathId := pathId}

def clearQueuedPathChallengeForPath (conn : Connection) (pathId : Nat) : Connection :=
  if conn.pathChallenge.isSome ∧ conn.pathChallengePathId = pathId then {conn with pathChallenge := none} else conn

def armMigrationPathChallenge (conn : Connection) (pathId nowUs : Nat) (c : Challenge) : Connection :=
  match c.token with
  | none => conn
  | some token =>
    let arm (p : PathState) : PathState :=
      {p with path := {p.path with validator := p.path.validator.beginChallenge token nowUs c.timeoutUs,
                                   lastPathChallengeAtUs := some nowUs}}
    (conn.updatePath pathId arm).queuePathChallengeOnPath pathId token

/-- The path goes over to a fresh ID of the peer when there is one. -/
def rotatePeerCid (conn : Connection) (path : PathState) : Connection :=
  match conn.consumeFreshPeerCidForMigration path with
  | none => conn
  | some (cid,conn) => conn.setPeerCid path cid

def handlePeerAddressChange (conn : Connection) (path : PathState) (addr : Address) (datagramLen nowUs : Nat)
    (c : Challenge) : Connection :=
  let conn := conn.updatePath path.id (·.snapshotMigrationRollback)
  let conn := conn.rotatePeerCid path
  let conn := conn.updatePath path.id (·.beginMigration addr datagramLen)
  conn.armMigrationPathChallenge path.id nowUs c

def beginClientActiveMigration (conn : Connection) (newLocalAddr : Address) (nowUs : Nat) (c : Challenge) :
    Except MigrationError Connection :=
  if conn.role ≠ .client then .error .notClientContext
  else if conn.handshakeDone = false then .error .migrationPreHandshake
  else
    let path := conn.activePath
    if path.path.validator.status = .pending then .error .migrationValidationPending
    else
      match conn.consumeFreshPeerCidForMigration path with
      | none => .error .migrationNoFreshPeerCid
      | some (cid,conn) =>
        let conn := conn.updatePath path.id (·.snapshotMigrationRollback)
        let conn := conn.setPeerCid path cid
        let move (p : PathState) : PathState := {p.setLocalAddress newLocalAddr with pendingMigrationReset := true}
        .ok ((conn.updatePath path.id move).armMigrationPathChallenge path.id nowUs c)

def noteServerLocalAddressChanged (conn : Connection) (newLocalAddr : Address) (nowUs : Nat) (c : Challenge) :
    Except MigrationError Connection :=
  if conn.role ≠ .server then .error .notServerContext
  else if conn.preferredAddressAdvertised = false then .error .preferredAddressNotAdvertised
  else if conn.handshakeDone = false then .error .pathLimitExceeded
  else
    let path := conn.activePath
    if path.localAddrSet ∧ path.path.localAddr = newLocalAddr then .ok conn
    else if path.path.validator.status = .pending ∧ path.pendingMigrationReset then .error .pathLimitExceeded
    else
      let conn := conn.updatePath path.id (·.snapshotMigrationRollback)
      let move (p : PathState) : PathState := {p.setLocalAddress newLocalAddr with pendingMigrationReset := true}
      .ok ((conn.updatePath path.id move).armMigrationPathChallenge path.id nowUs c)

/-- What `recordAuthenticatedDatagramAddress` finds the address of a datagram to be, in the order of its checks. -/
inductive AddressCheck where
  | first
  | current
  | rollback
  | preHandshake
  | rateLimited
  | denied
  | changed
  deriving DecidableEq, Repr

def checkAddress (conn : Connection) (path : PathState) (addr : Address) (nowUs : Nat)
    (verdict : Option MigrationDecision) : AddressCheck :=
  if path.peerAddrSet = false then .first
  else if path.path.peerAddr = addr then .current
  else if path.matchesMigrationRollbackAddress addr then .rollback
  else if conn.handshakeDone = false then .preHandshake
  else
    let limited : Bool :=
      match path.path.lastPathChallengeAtUs with
      | none => false
      | some lastUs => nowUs-lastUs < minPathChallengeIntervalUs
    if limited then .rateLimited else if verdict = some .deny then .denied else .changed

/-- `verdict` is what the callback of the application says, if there is one. -/
def recordAuthenticatedDatagramAddress (conn : Connection) (pathId : Nat) (addr : Address) (datagramLen nowUs : Nat)
    (verdict : Option MigrationDecision) (c : Challenge) : Connection :=
  let path := conn.pathForId pathId
  let credit (p : PathState) : PathState := {p with path := p.path.onDatagramReceived datagramLen}
  match conn.checkAddress path addr nowUs verdict with
  | .first => conn.updatePath path.id fun p => credit (p.setPeerAddress addr)
  | .current | .denied => conn.updatePath path.id credit
  | .rollback | .preHandshake | .rateLimited => conn
  | .changed => conn.handlePeerAddressChange path addr datagramLen nowUs c

def recordPathResponse (conn : Connection) (pathId : Nat) (token : Fixed 8) : Connection :=
  let path := conn.pathForId pathId
  match path.path.validator.recordResponse token with
  | some (true,validator) =>
    let conn := conn.updatePath path.id fun p => {p with path := {p.path with validator := validator,validated := true}}
    let conn := conn.clearQueuedPathChallengeForPath pathId
    if path.pendingMigrationReset then conn.updatePath path.id (·.resetRecoveryAfterMigration) else conn
  | _ => conn

def fail (p : PathState) : PathState :=
  {p with path := p.path.fail,pendingMigrationReset := false,migrationRollback := none}

/-- The frames of the path that are requeued, and its recovery state, are not modelled. -/
def handlePathValidationFailure (conn : Connection) (path : PathState) : Connection :=
  match if path.pendingMigrationReset then path.migrationRollback else none with
  | some rollback =>
    let conn := conn.updatePath path.id (·.rollbackFailedMigration rollback)
    let conn :=
      if path.id = 0 then {conn with peerDcid := rollback.peerCid,peerDcidSet := rollback.peerCid.len ≠ 0} else conn
    conn.clearQueuedPathChallengeForPath path.id
  | none =>
    (conn.updatePath path.id fail).clearQueuedPathChallengeForPath path.id

def tickValidator (nowUs : Nat) (p : PathState) : PathState :=
  {p with path := {p.path with validator := p.path.validator.tick nowUs}}

def tickPath (conn : Connection) (pathId nowUs : Nat) : Connection :=
  match conn.paths.get pathId with
  | none => conn
  | some path =>
    let conn := conn.updatePath pathId (tickValidator nowUs)
    if (tickValidator nowUs path).path.validator.status = .failed then
      conn.handlePathValidationFailure (tickValidator nowUs path)
    else conn

def tickedPath (nowUs : Nat) (path : PathState) : PathState :=
  let path := tickValidator nowUs path
  if path.path.validator.status = .failed then
    match if path.pendingMigrationReset then path.migrationRollback else none with
    | some rollback => path.rollbackFailedMigration rollback
    | none => fail path
  else path

/-- Nothing but this path, the destination ID of the long headers and the challenge in the queue can change. -/
theorem tickPath_frame (conn : Connection) (pathId nowUs : Nat) :
    (conn.tickPath pathId nowUs).peerCids = conn.peerCids ∧ (conn.tickPath pathId nowUs).pendingClose = conn.pendingClose ∧
    (conn.tickPath pathId nowUs).settings = conn.settings ∧ ∀ other, (conn.tickPath pathId nowUs).paths.get other =
      if other = pathId then (conn.paths.get pathId).map (tickedPath nowUs) else conn.paths.get other := by
  have cleared (conn : Connection) : (conn.clearQueuedPathChallengeForPath pathId).peerCids = conn.peerCids ∧
      (conn.clearQueuedPathChallengeForPath pathId).pendingClose = conn.pendingClose ∧
      (conn.clearQueuedPathChallengeForPath pathId).settings = conn.settings ∧
      (conn.clearQueuedPathChallengeForPath pathId).paths = conn.paths := by
    unfold clearQueuedPathChallengeForPath
    split <;> exact ⟨rfl,rfl,rfl,rfl⟩
  unfold tickPath
  cases found : conn.paths.get pathId with
  | none =>
    refine ⟨rfl,rfl,rfl,fun other => ?_⟩
    by_cases here : other = pathId
    · rw [if_pos here,here]
      exact found
    · rw [if_neg here]
  | some p =>
    have id := PathSet.get_id found
    dsimp only
    split
    · rename_i failed
      unfold handlePathValidationFailure
      have same : (tickValidator nowUs p).id = pathId := id
      dsimp only
      rw [same]
      split
      · rename_i rollback chosen
        obtain ⟨entries,close,settings,paths⟩ := cleared (if pathId = 0 then
          {(conn.updatePath pathId (tickValidator nowUs)).updatePath pathId (·.rollbackFailedMigration rollback) with
            peerDcid := rollback.peerCid,peerDcidSet := rollback.peerCid.len ≠ 0}
          else (conn.updatePath pathId (tickValidator nowUs)).updatePath pathId (·.rollbackFailedMigration rollback))
        rw [entries,close,settings,paths]
        have both : ∀ other, ((conn.paths.update pathId (tickValidator nowUs)).update pathId
            (·.rollbackFailedMigration rollback)).get other = _ :=
          fun other => PathSet.get_update_twice conn.paths pathId other (fun _ => rfl) (fun _ => rfl)
        have outcome : tickedPath nowUs p = (tickValidator nowUs p).rollbackFailedMigration rollback := by
          unfold tickedPath
          dsimp only
          rw [if_pos failed,chosen]
        refine ⟨by split <;> rfl,by split <;> rfl,by split <;> rfl,fun other => ?_⟩
        rw [found] at both
        rw [Option.map_some,outcome]
        split <;> exact both other
      · rename_i chosen
        obtain ⟨entries,close,settings,paths⟩ := cleared ((conn.updatePath pathId (tickValidator nowUs)).updatePath pathId fail)
        rw [entries,close,settings,paths]
        have both : ∀ other, ((conn.paths.update pathId (tickValidator nowUs)).update pathId fail).get other = _ :=
          fun other => PathSet.get_update_twice conn.paths pathId other (fun _ => rfl) (fun _ => rfl)
        have outcome : tickedPath nowUs p = fail (tickValidator nowUs p) := by
          unfold tickedPath
          dsimp only
          rw [if_pos failed,chosen]
        refine ⟨rfl,rfl,rfl,fun other => ?_⟩
        rw [found] at both
        rw [Option.map_some,outcome]
        exact both other
    · rename_i going
      have outcome : tickedPath nowUs p = tickValidator nowUs p := by
        unfold tickedPath
        dsimp only
        rw [if_neg going]
      refine ⟨rfl,rfl,rfl,fun other => ?_⟩
      rw [Option.map_some,outcome]
      have once := PathSet.get_update conn.paths pathId other (f := tickValidator nowUs) (fun _ => rfl)
      rw [found] at once
      exact once

def tick (conn : Connection) (nowUs : Nat) : Connection :=
  (conn.paths.items.map (·.id)).foldl (fun conn pathId => conn.tickPath pathId nowUs) conn

/-- The PATH_CHALLENGE arm of `dispatchFrames`, for the path and the address the packet came by. -/
def handlePathChallenge (conn : Connection) (pathId : Nat) (data : Fixed 8) (addr : Option Address) : Connection :=
  let conn := conn.queuePathResponseOnPath pathId data addr
  conn.rotatePeerCid (conn.pathForId pathId)

def markPathValidated (conn : Connection) (pathId : Nat) : Connection :=
  match conn.paths.get pathId with
  | none => conn
  | some path =>
    let conn := conn.updatePath pathId fun p => {p with path := p.path.markValidated}
    if path.pendingMigrationReset then conn.updatePath pathId (·.resetRecoveryAfterMigration) else conn

def probePathId (conn : Connection) (pathId : Nat) (token : Fixed 8) (nowUs timeoutUs : Nat) :
    Except MigrationError Connection :=
  match conn.paths.get pathId with
  | none => .error .pathNotFound
  | some _ =>
    let arm (p : PathState) : PathState :=
      {p with path := {p.path with validator := p.path.validator.beginChallenge token nowUs timeoutUs}}
    .ok ((conn.updatePath pathId arm).queuePathChallengeOnPath pathId token)

def setActivePath (conn : Connection) (pathId : Nat) : Connection :=
  match conn.paths.get pathId with
  | none => conn
  | some _ => {conn with paths := {conn.paths with activeId := pathId}}

def setPathStatus (conn : Connection) (pathId : Nat) (state : Path.State) : Connection :=
  conn.updatePath pathId fun p => {p with path := {p.path with state := state}}

end Connection

end QuicZig.Conn.Paths
