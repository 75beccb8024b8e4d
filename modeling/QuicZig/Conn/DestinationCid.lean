import QuicZig.Conn.Migration
import QuicZig.Conn.PeerCidRun
import Mathlib.Data.List.Chain

/-! The destination connection ID of each path, over frames, address changes, migrations,
challenges and validations in any order. -/
namespace QuicZig.Conn.DestinationCid
open Machine Codec Wire Paths Paths.Connection PeerCidRun

def cidOf (conn : Connection) (pathId : Nat) : Option ConnId := (conn.paths.get pathId).map (·.path.peerCid)

theorem cidOf_get {conn : Connection} {pathId : Nat} {p : PathState} (found : conn.paths.get pathId = some p) :
    cidOf conn pathId = some p.path.peerCid := by
  unfold cidOf
  rw [found]
  rfl

def Registered (conn : Connection) (pathId : Nat) (cid : ConnId) : Prop :=
  ∃ j ∈ conn.peerCids, j.pathId = pathId ∧ j.cid = cid

/-- A change that touches neither the IDs of the peer nor those in use. -/
structure Steady (before after : Connection) : Prop where
  peerCids : after.peerCids = before.peerCids
  pendingClose : after.pendingClose = before.pendingClose
  settings : after.settings = before.settings
  cids : ∀ pathId, cidOf after pathId = cidOf before pathId

theorem Steady.refl (conn : Connection) : Steady conn conn := ⟨rfl,rfl,rfl,fun _ => rfl⟩

theorem Steady.trans {a b c : Connection} (first : Steady a b) (second : Steady b c) : Steady a c :=
  ⟨second.peerCids.trans first.peerCids,second.pendingClose.trans first.pendingClose,second.settings.trans first.settings,
   fun pathId => (second.cids pathId).trans (first.cids pathId)⟩

theorem cidOf_update (conn : Connection) (pathId other : Nat) {f : PathState → PathState} (same : ∀ p, (f p).id = p.id) :
    cidOf (conn.updatePath pathId f) other =
      if other = pathId then (conn.paths.get pathId).map (fun p => (f p).path.peerCid) else cidOf conn other := by
  unfold cidOf updatePath
  rw [PathSet.get_update _ _ _ same]
  split
  · rw [Option.map_map]
    rfl
  · rfl

theorem steady_update (conn : Connection) (pathId : Nat) {f : PathState → PathState} (same : ∀ p, (f p).id = p.id)
    (cid : ∀ p, (f p).path.peerCid = p.path.peerCid) : Steady conn (conn.updatePath pathId f) := by
  refine ⟨rfl,rfl,rfl,fun other => ?_⟩
  rw [cidOf_update _ _ _ same]
  split
  · rename_i here
    subst here
    simp only [cid]
    rfl
  · rfl

theorem snapshot_steady (conn : Connection) (pathId : Nat) :
    Steady conn (conn.updatePath pathId (·.snapshotMigrationRollback)) := by
  refine steady_update conn pathId (fun p => ?_) (fun p => ?_) <;>
  · unfold PathState.snapshotMigrationRollback
    split <;> rfl

theorem begin_steady (conn : Connection) (pathId : Nat) (addr : Address) (datagramLen : Nat) :
    Steady conn (conn.updatePath pathId (·.beginMigration addr datagramLen)) := by
  refine steady_update conn pathId (fun p => ?_) (fun p => ?_) <;>
  · unfold PathState.beginMigration PathState.snapshotMigrationRollback
    dsimp only
    split <;> rfl

theorem arm_steady (conn : Connection) (pathId nowUs : Nat) (c : Challenge) :
    Steady conn (conn.armMigrationPathChallenge pathId nowUs c) := by
  unfold armMigrationPathChallenge
  split
  · exact .refl conn
  · rename_i token _
    have armed := steady_update conn pathId
      (f := fun p => {p with path := {p.path with validator := p.path.validator.beginChallenge token nowUs c.timeoutUs,
                                                  lastPathChallengeAtUs := some nowUs}})
      (fun p => rfl) (fun p => rfl)
    exact armed.trans ⟨rfl,rfl,rfl,fun _ => rfl⟩

theorem clear_steady (conn : Connection) (pathId : Nat) : Steady conn (conn.clearQueuedPathChallengeForPath pathId) := by
  unfold clearQueuedPathChallengeForPath
  split <;> exact ⟨rfl,rfl,rfl,fun _ => rfl⟩

/-- The registry holds no ID of the path but the one in use. -/
def Alone (conn : Connection) (path : PathState) : Prop :=
  ∀ j ∈ conn.peerCids, j.pathId = path.id → j.cid = path.path.peerCid

theorem consume_alone {conn : Connection} {path : PathState} (alone : Alone conn path) :
    conn.consumeFreshPeerCidForMigration path = none := by
  unfold consumeFreshPeerCidForMigration
  have missing : conn.peerCids.find? (fun item => item.pathId = path.id && item.cid ≠ path.path.peerCid) = none := by
    refine List.find?_eq_none.mpr fun j member => ?_
    simpa using alone j member
  dsimp only
  rw [missing]

theorem rotate_alone {conn : Connection} {path : PathState} (alone : Alone conn path) : conn.rotatePeerCid path = conn := by
  unfold rotatePeerCid
  rw [consume_alone alone]

theorem change_steady {conn : Connection} {path : PathState} (alone : Alone conn path) (addr : Address)
    (datagramLen nowUs : Nat) (c : Challenge) :
    Steady conn (conn.handlePeerAddressChange path addr datagramLen nowUs c) := by
  unfold handlePeerAddressChange
  dsimp only
  have still : Alone (conn.updatePath path.id (·.snapshotMigrationRollback)) path := alone
  rw [rotate_alone still]
  exact (snapshot_steady conn path.id).trans ((begin_steady _ path.id addr datagramLen).trans (arm_steady _ _ _ _))

theorem record_steady {conn : Connection} {pathId : Nat} {addr : Address} {nowUs : Nat} {verdict : Option MigrationDecision}
    (alone : conn.checkAddress (conn.pathForId pathId) addr nowUs verdict = .changed → Alone conn (conn.pathForId pathId))
    (datagramLen : Nat) (c : Challenge) :
    Steady conn (conn.recordAuthenticatedDatagramAddress pathId addr datagramLen nowUs verdict c) := by
  unfold recordAuthenticatedDatagramAddress
  dsimp only
  cases check : conn.checkAddress (conn.pathForId pathId) addr nowUs verdict with
  | changed => exact change_steady (alone check) addr datagramLen nowUs c
  | first | current | denied => exact steady_update _ _ (fun _ => rfl) (fun _ => rfl)
  | rollback | preHandshake | rateLimited => exact .refl conn

theorem challenge_steady {conn : Connection} {pathId : Nat} (alone : Alone conn (conn.pathForId pathId)) (data : Fixed 8)
    (addr : Option Address) : Steady conn (conn.handlePathChallenge pathId data addr) := by
  unfold handlePathChallenge
  have still : Alone (conn.queuePathResponseOnPath pathId data addr)
    ((conn.queuePathResponseOnPath pathId data addr).pathForId pathId) := alone
  rw [rotate_alone still]
  exact ⟨rfl,rfl,rfl,fun _ => rfl⟩

theorem response_steady (conn : Connection) (pathId : Nat) (token : Fixed 8) :
    Steady conn (conn.recordPathResponse pathId token) := by
  unfold recordPathResponse
  dsimp only
  split
  · rename_i validator _
    have validated := steady_update conn (conn.pathForId pathId).id
      (f := fun p => {p with path := {p.path with validator := validator,validated := true}}) (fun _ => rfl) (fun _ => rfl)
    have cleared := validated.trans (clear_steady _ pathId)
    split
    · exact cleared.trans (steady_update _ _ (fun _ => rfl) (fun _ => rfl))
    · exact cleared
  · exact .refl conn

theorem mark_steady (conn : Connection) (pathId : Nat) : Steady conn (conn.markPathValidated pathId) := by
  unfold markPathValidated
  split
  · exact .refl conn
  · dsimp only
    have marked := steady_update conn pathId (f := fun p => {p with path := p.path.markValidated}) (fun _ => rfl)
      (fun _ => rfl)
    split
    · exact marked.trans (steady_update _ _ (fun _ => rfl) (fun _ => rfl))
    · exact marked

theorem client_alone {conn : Connection} (alone : Alone conn conn.activePath) (newLocalAddr : Address) (nowUs : Nat)
    (c : Challenge) : ∃ e, conn.beginClientActiveMigration newLocalAddr nowUs c = .error e := by
  unfold beginClientActiveMigration
  dsimp only
  rw [consume_alone alone]
  split
  · exact ⟨_,rfl⟩
  split
  · exact ⟨_,rfl⟩
  split <;> exact ⟨_,rfl⟩

theorem server_steady {conn after : Connection} {newLocalAddr : Address} {nowUs : Nat} {c : Challenge}
    (changed : conn.noteServerLocalAddressChanged newLocalAddr nowUs c = .ok after) : Steady conn after := by
  unfold noteServerLocalAddressChanged at changed
  split at changed
  · cases changed
  split at changed
  · cases changed
  split at changed
  · cases changed
  dsimp only at changed
  split at changed
  · cases changed
    exact .refl conn
  split at changed
  · cases changed
  cases changed
  refine (snapshot_steady conn conn.activePath.id).trans (Steady.trans ?_ (arm_steady _ _ _ _))
  exact steady_update _ _ (fun _ => rfl) (fun _ => rfl)

theorem probe_steady {conn after : Connection} {pathId : Nat} {token : Fixed 8} {nowUs timeoutUs : Nat}
    (probed : conn.probePathId pathId token nowUs timeoutUs = .ok after) : Steady conn after := by
  unfold probePathId at probed
  split at probed
  · cases probed
  · cases probed
    have armed := steady_update conn pathId
      (f := fun p => {p with path := {p.path with validator := p.path.validator.beginChallenge token nowUs timeoutUs}})
      (fun _ => rfl) (fun _ => rfl)
    exact armed.trans ⟨rfl,rfl,rfl,fun _ => rfl⟩

/-- The end of a validation that has failed, at this time, takes the path back to an ID it can still use. -/
def Restorable (conn : Connection) (floorOf : Nat → Nat) (nowUs pathId : Nat) : Prop :=
  ∀ p rollback, conn.paths.get pathId = some p → (p.path.validator.tick nowUs).status = .failed →
    p.pendingMigrationReset = true → p.migrationRollback = some rollback → rollback.peerCid = p.path.peerCid ∨
    ∃ j ∈ conn.peerCids, j.pathId = pathId ∧ j.cid = rollback.peerCid ∧ floorOf pathId ≤ j.sequenceNumber

inductive Event where
  | frame (a : Arrival)
  /-- A packet of the path was authenticated in a datagram from this address. -/
  | peerAddress (pathId : Nat) (addr : Address) (datagramLen nowUs : Nat) (verdict : Option MigrationDecision) (c : Challenge)
  | clientMigration (newLocalAddr : Address) (nowUs : Nat) (c : Challenge)
  | serverLocalAddress (newLocalAddr : Address) (nowUs : Nat) (c : Challenge)
  | pathChallenge (pathId : Nat) (data : Fixed 8) (addr : Option Address)
  | pathResponse (pathId : Nat) (token : Fixed 8)
  | probe (pathId : Nat) (token : Fixed 8) (nowUs timeoutUs : Nat)
  | markValidated (pathId : Nat)
  | setActive (pathId : Nat)
  | handshakeDone
  | tick (nowUs : Nat)

/-- The path, the new address and the ID of a migration. -/
structure Move where
  pathId : Nat
  addr : Address
  cid : ConnId
  deriving DecidableEq, Repr

/-- A connection, the frames it received and the migrations it made, the latest first. -/
structure State where
  conn : Connection
  received : List IssuedCid := []
  moves : List Move := []

def moved (conn : Connection) (pathId : Nat) (addr : Address) (moves : List Move) : List Move :=
  ⟨pathId,addr,(cidOf conn pathId).getD {}⟩::moves

def step (s : State) (e : Event) : State :=
  if s.conn.pendingClose.isSome then s
  else
    match e with
    | .frame a => {s with conn := a.handle s.conn,received := a.frame::s.received}
    | .peerAddress pathId addr datagramLen nowUs verdict c =>
      let path := s.conn.pathForId pathId
      let conn := s.conn.recordAuthenticatedDatagramAddress pathId addr datagramLen nowUs verdict c
      if s.conn.checkAddress path addr nowUs verdict = .changed then
        {s with conn := conn,moves := moved conn path.id addr s.moves}
      else {s with conn := conn}
    | .clientMigration newLocalAddr nowUs c =>
      match s.conn.beginClientActiveMigration newLocalAddr nowUs c with
      | .error _ => s
      | .ok conn => {s with conn := conn,moves := moved conn s.conn.activePath.id newLocalAddr s.moves}
    | .serverLocalAddress newLocalAddr nowUs c =>
      match s.conn.noteServerLocalAddressChanged newLocalAddr nowUs c with
      | .error _ => s
      | .ok conn => {s with conn := conn}
    | .pathChallenge pathId data addr => {s with conn := s.conn.handlePathChallenge pathId data addr}
    | .pathResponse pathId token => {s with conn := s.conn.recordPathResponse pathId token}
    | .probe pathId token nowUs timeoutUs =>
      match s.conn.probePathId pathId token nowUs timeoutUs with
      | .error _ => s
      | .ok conn => {s with conn := conn}
    | .markValidated pathId => {s with conn := s.conn.markPathValidated pathId}
    | .setActive pathId => {s with conn := s.conn.setActivePath pathId}
    | .handshakeDone => {s with conn := {s.conn with handshakeDone := true}}
    | .tick nowUs => {s with conn := s.conn.tick nowUs}

/-- Each migration of the path to another address than the one before goes over to another ID. -/
def Apart (moves : List Move) (pathId : Nat) : Prop :=
  (moves.filter (·.pathId = pathId)).IsChain fun later earlier => later.addr = earlier.addr ∨ later.cid ≠ earlier.cid

/-- The peer has issued the IDs in use, they are not retired unless no other ID of the path is held, their reset tokens are
recognised, and no two migrations share one. -/
structure Proper (issued : List IssuedCid) (s : State) : Prop where
  inUse : ∀ pathId cid, cidOf s.conn pathId = some cid → ∃ i ∈ issued, i.pathId = pathId ∧ i.cid = cid ∧
    (floor s.received pathId ≤ i.sequenceNumber ∨
      ∀ j ∈ s.conn.peerCids, j.pathId = pathId → j.cid = cid ∨ j.sequenceNumber < floor s.received pathId)
  recognised : ∀ pathId cid, cidOf s.conn pathId = some cid → ∀ i ∈ s.received, i.pathId = pathId → i.cid = cid →
    ∀ bytes, statelessResetTokenFromDatagram bytes = some i.statelessResetToken → s.conn.isKnownStatelessReset bytes = true
  apart : ∀ pathId, Apart s.moves pathId

/-- The frames are those of the peer, and give no ID of length zero. -/
def Genuine (issued : List IssuedCid) : Event → Prop
  | .frame a => a.frame ∈ issued ∧ a.frame.cid.len ≠ 0
  | _ => True

/-- A peer without connection IDs issues no more than the empty one. -/
structure Conforming (conn : Connection) (issued : List IssuedCid) : Prop extends PeerCidRun.Conforming conn issued where
  alone : ∀ i ∈ issued, ∀ j ∈ issued, i.cid.len = 0 → j = i

/-- The condition: no path goes over to another ID of the registry, a further migration finds the path with another
ID than the one before, an ID is registered when a frame retires it, an ID with the number 0 is not late, and a failed
validation goes back to an ID that is in use or still registered. -/
def Staying (issued : List IssuedCid) (s : State) : Event → Prop
  | .frame a => (∀ cid, cidOf s.conn a.frame.pathId = some cid → Registered s.conn a.frame.pathId cid ∨
        ∀ i ∈ issued, i.pathId = a.frame.pathId → i.cid = cid → a.frame.retirePriorTo ≤ i.sequenceNumber) ∧
      (a.frame.sequenceNumber = 0 → a.frame ∈ s.conn.peerCids ∨ floor s.received a.frame.pathId = 0)
  | .peerAddress pathId addr _ nowUs verdict _ =>
    let path := s.conn.pathForId pathId
    s.conn.checkAddress path addr nowUs verdict = .changed → Alone s.conn path ∧
      ∀ last ∈ (s.moves.filter (·.pathId = path.id)).head?, last.addr = addr ∨ last.cid ≠ path.path.peerCid
  | .clientMigration _ _ _ => Alone s.conn s.conn.activePath
  | .pathChallenge pathId _ _ => Alone s.conn (s.conn.pathForId pathId)
  | .tick nowUs => ∀ pathId, Restorable s.conn (floor s.received) nowUs pathId
  | _ => True

/-- What carries the rule through a run: an ID in use is unretired, and registered if a frame gave it. -/
structure Uses (issued : List IssuedCid) (s : State) : Prop where
  conforming : Conforming s.conn issued
  sent : ∀ i ∈ s.received, i ∈ issued ∧ i.cid.len ≠ 0
  came : ∀ i ∈ s.conn.peerCids, i ∈ s.received
  inUse : ∀ pathId cid, cidOf s.conn pathId = some cid → ∃ i ∈ issued, i.pathId = pathId ∧ i.cid = cid ∧
    floor s.received pathId ≤ i.sequenceNumber ∧
    (Registered s.conn pathId cid ∨ ∀ j ∈ s.received, j.pathId = pathId → j.cid ≠ cid)
  apart : ∀ pathId, Apart s.moves pathId

theorem Conforming.congr {conn after : Connection} {issued : List IssuedCid} (conforming : Conforming conn issued)
    (same : after.settings = conn.settings) : Conforming after issued :=
  ⟨conforming.toConforming.congr same,conforming.alone⟩

theorem Uses.proper {issued : List IssuedCid} {s : State} (uses : Uses issued s) : Proper issued s := by
  refine ⟨fun pathId cid used => ?_,fun pathId cid used i came path same bytes token => ?_,uses.apart⟩
  · obtain ⟨i,member,path,same,live,_⟩ := uses.inUse pathId cid used
    exact ⟨i,member,path,same,.inl live⟩
  · obtain ⟨_,_,_,_,_,registered | unknown⟩ := uses.inUse pathId cid used
    · obtain ⟨j,held,_,here⟩ := registered
      obtain ⟨issuedI,named⟩ := uses.sent i came
      have one : i = j := uses.conforming.distinct i issuedI j (uses.sent j (uses.came j held)).1 named (same.trans here.symm)
      subst one
      unfold isKnownStatelessReset
      rw [token]
      exact List.any_eq_true.mpr ⟨i,held,decide_eq_true rfl⟩
    · exact absurd same (unknown i came path)

theorem Uses.steady {issued : List IssuedCid} {s : State} {after : Connection} (uses : Uses issued s)
    (steady : Steady s.conn after) : Uses issued {s with conn := after} := by
  refine ⟨uses.conforming.congr steady.settings,uses.sent,?_,?_,uses.apart⟩
  · dsimp only
    rw [steady.peerCids]
    exact uses.came
  · intro pathId cid used
    dsimp only at used
    rw [steady.cids] at used
    obtain ⟨i,member,path,same,live,known⟩ := uses.inUse pathId cid used
    refine ⟨i,member,path,same,live,?_⟩
    unfold Registered
    dsimp only
    rw [steady.peerCids]
    exact known

/-- The ID that a tick leaves in use is the one before, or the one that the snapshot holds. -/
theorem tickedPath_cid (nowUs : Nat) (p : PathState) :
    (tickedPath nowUs p).path.peerCid = p.path.peerCid ∨ ∃ rollback, (p.path.validator.tick nowUs).status = .failed ∧
      p.pendingMigrationReset = true ∧ p.migrationRollback = some rollback ∧
      (tickedPath nowUs p).path.peerCid = rollback.peerCid := by
  unfold tickedPath
  dsimp only
  split
  · rename_i failed
    split
    · rename_i rollback chosen
      by_cases pending : (tickValidator nowUs p).pendingMigrationReset = true
      · rw [if_pos pending] at chosen
        exact .inr ⟨rollback,failed,pending,chosen,rfl⟩
      · rw [if_neg pending] at chosen
        cases chosen
    · exact .inl rfl
  · exact .inl rfl

theorem tickedPath_settled (nowUs : Nat) (p : PathState)
    (failed : ((tickedPath nowUs p).path.validator.tick nowUs).status = .failed) :
    (tickedPath nowUs p).pendingMigrationReset = false := by
  revert failed
  unfold tickedPath
  dsimp only
  split
  · intro _
    split <;> rfl
  · rename_i going
    intro failed
    exact absurd failed (PathValidator.tick_tick going)

theorem uses_tickPath {issued : List IssuedCid} {s : State} {nowUs : Nat} (uses : Uses issued s)
    (restorable : ∀ pathId, Restorable s.conn (floor s.received) nowUs pathId) (pathId : Nat) :
    Uses issued {s with conn := s.conn.tickPath pathId nowUs} ∧
      ∀ other, Restorable (s.conn.tickPath pathId nowUs) (floor s.received) nowUs other := by
  obtain ⟨entries,_,settings,paths⟩ := tickPath_frame s.conn pathId nowUs
  have registered (other : Nat) (cid : ConnId) : Registered (s.conn.tickPath pathId nowUs) other cid ↔
      Registered s.conn other cid := by
    unfold Registered
    rw [entries]
  refine ⟨⟨uses.conforming.congr settings,uses.sent,?_,?_,uses.apart⟩,?_⟩
  · dsimp only
    rw [entries]
    exact uses.came
  · intro other cid used
    dsimp only
    rw [registered]
    unfold cidOf at used
    dsimp only at used
    rw [paths] at used
    by_cases here : other = pathId
    · subst here
      rw [if_pos rfl] at used
      cases found : s.conn.paths.get other with
      | none =>
        rw [found] at used
        cases used
      | some p =>
        rw [found] at used
        cases used
        dsimp only
        rcases tickedPath_cid nowUs p with same | ⟨rollback,failed,pending,held,taken⟩
        · rw [same]
          exact uses.inUse other _ (cidOf_get found)
        · rw [taken]
          rcases restorable other p rollback found failed pending held with same | ⟨j,member,path,cid,live⟩
          · rw [same]
            exact uses.inUse other _ (cidOf_get found)
          · exact ⟨j,(uses.sent j (uses.came j member)).1,path,cid,live,.inl ⟨j,member,path,cid⟩⟩
    · rw [if_neg here] at used
      exact uses.inUse other cid used
  · intro other p rollback found failed pending held
    rw [paths] at found
    rw [entries]
    by_cases here : other = pathId
    · subst here
      rw [if_pos rfl] at found
      obtain ⟨q,_,rfl⟩ := Option.map_eq_some_iff.mp found
      rw [tickedPath_settled nowUs q failed] at pending
      cases pending
    · rw [if_neg here] at found
      exact restorable other p rollback found failed pending held

theorem uses_tick {issued : List IssuedCid} {s : State} {nowUs : Nat} (uses : Uses issued s)
    (restorable : ∀ pathId, Restorable s.conn (floor s.received) nowUs pathId) :
    Uses issued {s with conn := s.conn.tick nowUs} := by
  unfold tick
  generalize s.conn.paths.items.map (·.id) = ids
  induction ids generalizing s with
  | nil => exact uses
  | cons pathId rest ih =>
    obtain ⟨uses,restorable⟩ := uses_tickPath uses restorable pathId
    exact ih uses restorable

theorem cidOf_promote (conn : Connection) (pathId other : Nat) : cidOf (conn.promotePeerCidForPath pathId) other =
    if other = pathId then (cidOf conn pathId).map (fun _ => (firstCidForPath conn.peerCids pathId).getD {})
    else cidOf conn other := by
  unfold promotePeerCidForPath
  cases found : conn.paths.get pathId with
  | none =>
    dsimp only
    split
    · rename_i here
      subst here
      unfold cidOf
      rw [found]
      rfl
    · rfl
  | some p =>
    have updated := cidOf_update conn pathId other
      (f := (·.setPeerCid ((firstCidForPath conn.peerCids pathId).getD {}))) (fun _ => rfl)
    rw [found] at updated
    rw [cidOf_get found]
    dsimp only
    split <;> exact updated

theorem cidOf_retire (conn : Connection) (pathId retirePriorTo other : Nat) :
    cidOf (conn.retirePeerCidsPriorTo pathId retirePriorTo) other =
      if other = pathId ∧ ∃ j ∈ conn.peerCids, j.goes pathId retirePriorTo = true ∧ some j.cid = cidOf conn pathId then
        some ((firstCidForPath (conn.kept pathId retirePriorTo) pathId).getD {})
      else cidOf conn other := by
  have swept := cidOf_promote {conn with peerCids := conn.kept pathId retirePriorTo} pathId other
  unfold retirePeerCidsPriorTo removeCidsPriorTo
  dsimp only
  cases found : conn.paths.get pathId with
  | none =>
    have unused : cidOf conn pathId = none := by
      unfold cidOf
      rw [found]
      rfl
    have nothing : ¬(other = pathId ∧ ∃ j ∈ conn.peerCids, j.goes pathId retirePriorTo = true ∧ some j.cid = none) := by
      rintro ⟨_,j,_,_,same⟩
      cases same
    rw [unused,if_neg nothing]
    split
    · refine swept.trans ?_
      split
      · rename_i here
        subst here
        exact (congrArg (Option.map _) unused).trans unused.symm
      · rfl
    · rfl
  | some p =>
    have used := cidOf_get found
    rw [used,Option.map_some,Option.getD_some]
    by_cases removed : ∃ j ∈ conn.peerCids, j.goes pathId retirePriorTo = true ∧ j.cid = p.path.peerCid
    · have any : (conn.peerCids.any fun item => item.goes pathId retirePriorTo && item.cid = p.path.peerCid) = true := by
        obtain ⟨j,member,goes,same⟩ := removed
        exact List.any_eq_true.mpr ⟨j,member,by simp [goes,same]⟩
      rw [if_pos any]
      refine swept.trans ?_
      by_cases here : other = pathId
      · rw [if_pos here,if_pos ⟨here,by simpa using removed⟩]
        exact congrArg (Option.map _) used
      · rw [if_neg here,if_neg fun both => here both.1]
        rfl
    · have none : ¬(conn.peerCids.any fun item => item.goes pathId retirePriorTo && item.cid = p.path.peerCid) = true := by
        intro any
        obtain ⟨j,member,hit⟩ := List.any_eq_true.mp any
        have hit : j.goes pathId retirePriorTo = true ∧ j.cid = p.path.peerCid := by simpa using hit
        exact removed ⟨j,member,hit⟩
      rw [if_neg none,if_neg fun both => removed (by simpa using both.2)]
      rfl

theorem cidOf_append (conn : Connection) (frame : IssuedCid) (other : Nat) : cidOf (conn.appendPeerCid frame) other =
    if other = frame.pathId then
      (cidOf conn frame.pathId).map fun cid => if cid.len = 0 ∨ frame.sequenceNumber = 0 then frame.cid else cid
    else cidOf conn other := by
  have mirror (c : Connection) : cidOf (if frame.pathId = 0 ∧ (c.peerDcid.len = 0 ∨ frame.sequenceNumber = 0) then
      {c with peerDcid := frame.cid,peerDcidSet := true} else c) other = cidOf c other := by
    split <;> rfl
  unfold appendPeerCid
  dsimp only
  refine (mirror _).trans ?_
  cases found : conn.paths.get frame.pathId with
  | none =>
    dsimp only
    split
    · rename_i here
      subst here
      unfold cidOf
      rw [found]
      rfl
    · rfl
  | some p =>
    rw [cidOf_get found,Option.map_some]
    dsimp only
    split
    · have updated := cidOf_update {conn with peerCids := conn.peerCids++[frame]} frame.pathId other
        (f := (·.setPeerCid frame.cid)) (fun _ => rfl)
      refine updated.trans ?_
      dsimp only
      rw [found]
      split <;> rfl
    · split
      · rename_i here
        subst here
        exact cidOf_get found
      · rfl

theorem registered_issue {issued : List IssuedCid} {s : State} (uses : Uses issued s) {i : IssuedCid}
    (member : i ∈ issued) (registered : Registered s.conn i.pathId i.cid) : i ∈ s.conn.peerCids ∧ i.cid.len ≠ 0 := by
  obtain ⟨j,held,_,same⟩ := registered
  obtain ⟨issuedJ,named⟩ := uses.sent j (uses.came j held)
  have one : j = i := uses.conforming.distinct j issuedJ i member named same
  subst one
  exact ⟨held,named⟩

theorem successor_kept {conn : Connection} {pathId retirePriorTo : Nat} {cid : ConnId}
    (found : firstCidForPath (conn.kept pathId retirePriorTo) pathId = some cid) :
    ∃ j ∈ conn.peerCids, j.pathId = pathId ∧ j.cid = cid ∧ retirePriorTo ≤ j.sequenceNumber := by
  obtain ⟨j,first,rfl⟩ := Option.map_eq_some_iff.mp found
  have path : j.pathId = pathId := by simpa using List.find?_some first
  obtain ⟨member,stays⟩ := mem_kept.mp (List.mem_of_find?_eq_some first)
  exact ⟨j,member,path,rfl,stays path⟩

theorem uses_frame {issued : List IssuedCid} {s : State} {a : Arrival} (uses : Uses issued s)
    (genuine : Genuine issued (.frame a)) (staying : Staying issued s (.frame a))
    (opened : (a.handle s.conn).pendingClose = none) :
    Uses issued {s with conn := a.handle s.conn,received := a.frame::s.received} := by
  obtain ⟨sent,named⟩ := genuine
  obtain ⟨covered,first⟩ := staying
  have ordered := uses.conforming.ordered _ sent
  have sentAll : ∀ i ∈ a.frame::s.received, i ∈ issued ∧ i.cid.len ≠ 0 := by
    intro i member
    rcases List.mem_cons.mp member with rfl | before
    · exact ⟨sent,named⟩
    · exact uses.sent i before
  have registered := register_conforming uses.conforming.toConforming
    (fun i inside => (uses.sent i (uses.came i inside)).1) sent
  rw [← Arrival.handle_register] at registered
  rcases registered with ⟨member,same⟩ | ⟨absent,result⟩
  · rw [same]
    refine ⟨uses.conforming,sentAll,fun i inside => List.mem_cons_of_mem _ (uses.came i inside),?_,uses.apart⟩
    intro pathId cid used
    obtain ⟨i,inside,path,here,live,known⟩ := uses.inUse pathId cid used
    have came := uses.came _ member
    refine ⟨i,inside,path,here,by rw [floor_again came]; exact live,known.imp_right fun unknown j seen => ?_⟩
    rcases List.mem_cons.mp seen with rfl | before
    · exact unknown _ came
    · exact unknown j before
  · split at result
    · rw [result] at opened
      obtain ⟨pendingClose,closed,frame⟩ := close_frame (s.conn.retirePeerCidsPriorTo a.frame.pathId a.frame.retirePriorTo)
        true transportErrorConnectionIdLimit "active connection id limit exceeded"
      rw [frame] at opened
      exact absurd opened closed
    have swept := retire_readdressed s.conn a.frame.pathId a.frame.retirePriorTo
    have added := append_readdressed (s.conn.retirePeerCidsPriorTo a.frame.pathId a.frame.retirePriorTo) a.frame
    have entries : (a.handle s.conn).peerCids = s.conn.kept a.frame.pathId a.frame.retirePriorTo++[a.frame] := by
      rw [result,added.peerCids]
      exact congrArg (·++[a.frame]) swept.peerCids
    refine ⟨uses.conforming.congr (by rw [result]; exact added.settings.trans swept.settings),sentAll,?_,?_,uses.apart⟩
    · intro i member
      dsimp only at member
      rw [entries] at member
      rcases List.mem_append.mp member with before | new
      · exact List.mem_cons_of_mem _ (uses.came i (mem_kept.mp before).1)
      · rw [List.mem_singleton.mp new]
        exact List.mem_cons_self
    have stays {j : IssuedCid} (held : j ∈ s.conn.peerCids)
        (spared : j.pathId = a.frame.pathId → a.frame.retirePriorTo ≤ j.sequenceNumber) : j ∈ (a.handle s.conn).peerCids := by
      rw [entries]
      exact List.mem_append_left _ (mem_kept.mpr ⟨held,spared⟩)
    have mine : a.frame ∈ (a.handle s.conn).peerCids := by
      rw [entries]
      exact List.mem_append_right _ List.mem_cons_self
    have floorHere : floor (a.frame::s.received) a.frame.pathId =
        max a.frame.retirePriorTo (floor s.received a.frame.pathId) := by
      rw [floor_cons,if_pos rfl]
    have toFrame (live : floor s.received a.frame.pathId ≤ a.frame.sequenceNumber) :
        ∃ i ∈ issued, i.pathId = a.frame.pathId ∧ i.cid = a.frame.cid ∧
          floor (a.frame::s.received) a.frame.pathId ≤ i.sequenceNumber ∧
          (Registered (a.handle s.conn) a.frame.pathId a.frame.cid ∨
            ∀ j ∈ a.frame::s.received, j.pathId = a.frame.pathId → j.cid ≠ a.frame.cid) :=
      ⟨a.frame,sent,rfl,rfl,by rw [floorHere]; exact Nat.max_le.mpr ⟨ordered,live⟩,.inl ⟨a.frame,mine,rfl,rfl⟩⟩
    intro pathId cid used
    dsimp only at used
    rw [result,cidOf_append] at used
    by_cases here : pathId = a.frame.pathId
    · subst here
      rw [if_pos rfl] at used
      obtain ⟨mid,between,rfl⟩ := Option.map_eq_some_iff.mp used
      rw [cidOf_retire] at between
      dsimp only
      split at between
      · rename_i removed
        obtain ⟨_,old,held,goes,same⟩ := removed
        obtain ⟨i,member,path,here,live,_⟩ := uses.inUse _ _ same.symm
        obtain ⟨issuedOld,namedOld⟩ := uses.sent old (uses.came old held)
        have one : old = i := uses.conforming.distinct old issuedOld i member namedOld here.symm
        subst one
        have lower := ((goes_iff _ _ _).mp goes).2
        cases between
        split
        · exact toFrame (by omega)
        · rename_i kept
          cases successor : firstCidForPath (s.conn.kept a.frame.pathId a.frame.retirePriorTo) a.frame.pathId with
          | none =>
            rw [successor] at kept
            exact absurd (.inl rfl) kept
          | some cid =>
            obtain ⟨j,heldJ,pathJ,cidJ,liveJ⟩ := successor_kept successor
            rw [Option.getD_some]
            refine ⟨j,(uses.sent j (uses.came j heldJ)).1,pathJ,cidJ,?_,.inl ⟨j,stays heldJ fun _ => liveJ,pathJ,cidJ⟩⟩
            rw [floorHere]
            omega
      · rename_i spared
        obtain ⟨i,member,path,here,live,known⟩ := uses.inUse _ _ between
        split
        · rename_i taken
          rcases taken with empty | zero
          · rw [← here] at empty
            exact absurd empty (uses.conforming.alone i member _ sent empty ▸ named)
          · rcases first zero with already | none
            · exact absurd (List.mem_map_of_mem already) absent
            · exact toFrame (by omega)
        · have bound : a.frame.retirePriorTo ≤ i.sequenceNumber := by
            rcases covered _ between with registered | below
            · rw [← here,← path] at registered
              obtain ⟨held,_⟩ := registered_issue uses member registered
              by_contra lower
              refine spared ⟨rfl,i,held,(goes_iff _ _ _).mpr ⟨path,Nat.lt_of_not_le lower⟩,?_⟩
              rw [between,here]
            · exact below i member path here
          refine ⟨i,member,path,here,by rw [floorHere]; exact Nat.max_le.mpr ⟨bound,live⟩,?_⟩
          rcases known with registered | unknown
          · rw [← here,← path] at registered
            obtain ⟨held,_⟩ := registered_issue uses member registered
            exact .inl ⟨i,stays held fun _ => bound,path,here⟩
          · by_cases arrives : a.frame.cid = mid
            · exact .inl ⟨a.frame,mine,rfl,arrives⟩
            · refine .inr fun j seen samePath => ?_
              rcases List.mem_cons.mp seen with rfl | before
              · exact arrives
              · exact unknown j before samePath
    · rw [if_neg here,cidOf_retire,if_neg fun both => here both.1] at used
      obtain ⟨i,member,path,same,live,known⟩ := uses.inUse pathId cid used
      refine ⟨i,member,path,same,?_,?_⟩
      · dsimp only
        rw [floor_cons,if_neg (Ne.symm here)]
        exact live
      · rcases known with ⟨j,held,pathJ,cidJ⟩ | unknown
        · exact .inl ⟨j,stays held fun other => absurd (pathJ.symm.trans other) here,pathJ,cidJ⟩
        · refine .inr fun j seen samePath => ?_
          rcases List.mem_cons.mp seen with rfl | before
          · exact absurd samePath.symm here
          · exact unknown j before samePath

theorem moved_apart {conn : Connection} {pathId : Nat} {addr : Address} {moves : List Move}
    (apart : ∀ other, Apart moves other)
    (fresh : ∀ last ∈ (moves.filter (·.pathId = pathId)).head?,
      last.addr = addr ∨ last.cid ≠ (cidOf conn pathId).getD {}) (other : Nat) :
    Apart (moved conn pathId addr moves) other := by
  unfold Apart moved
  by_cases here : pathId = other
  · subst here
    rw [List.filter_cons_of_pos (by simp)]
    refine List.isChain_cons.mpr ⟨fun last member => ?_,apart pathId⟩
    exact (fresh last member).imp Eq.symm Ne.symm
  · rw [List.filter_cons_of_neg (by simpa using here)]
    exact apart other

theorem uses_step {issued : List IssuedCid} {s : State} {e : Event} (uses : Uses issued s)
    (active : s.conn.pendingClose = none) (genuine : Genuine issued e) (staying : Staying issued s e)
    (opened : (step s e).conn.pendingClose = none) : Uses issued (step s e) := by
  have going : ¬ s.conn.pendingClose.isSome = true := by simp [active]
  unfold step at opened ⊢
  rw [if_neg going] at opened ⊢
  cases e with
  | frame a => exact uses_frame uses genuine staying opened
  | peerAddress pathId addr datagramLen nowUs verdict c =>
    have steady := record_steady (fun changed => (staying changed).1) datagramLen c
    dsimp only
    split
    · rename_i changed
      have after := uses.steady steady
      refine ⟨after.conforming,after.sent,after.came,after.inUse,moved_apart uses.apart ?_⟩
      rw [steady.cids,cidOf_get (pathForId_get s.conn pathId)]
      exact (staying changed).2
    · exact uses.steady steady
  | clientMigration newLocalAddr nowUs c =>
    obtain ⟨e,refused⟩ := client_alone staying newLocalAddr nowUs c
    dsimp only
    rw [refused]
    exact uses
  | serverLocalAddress newLocalAddr nowUs c =>
    dsimp only
    split
    · exact uses
    · rename_i changed
      exact uses.steady (server_steady changed)
  | pathChallenge pathId data addr => exact uses.steady (challenge_steady staying data addr)
  | pathResponse pathId token => exact uses.steady (response_steady s.conn pathId token)
  | probe pathId token nowUs timeoutUs =>
    dsimp only
    split
    · exact uses
    · rename_i probed
      exact uses.steady (probe_steady probed)
  | markValidated pathId => exact uses.steady (mark_steady s.conn pathId)
  | setActive pathId =>
    refine uses.steady ?_
    unfold setActivePath
    split <;> exact ⟨rfl,rfl,rfl,fun _ => rfl⟩
  | handshakeDone => exact uses.steady ⟨rfl,rfl,rfl,fun _ => rfl⟩
  | tick nowUs => exact uses_tick uses staying

/-- While the connection is open, the IDs in use are proper in every state of a run whose steps all meet the condition. -/
theorem destination_proper {conn : Connection} {issued : List IssuedCid} (conforming : Conforming conn issued)
    (empty : conn.peerCids = [])
    (given : ∀ pathId cid, cidOf conn pathId = some cid → ∃ i ∈ issued, i.pathId = pathId ∧ i.cid = cid)
    (events : List Event) (genuine : ∀ e ∈ events, Genuine issued e)
    (staying : System.Admits step (Staying issued) ⟨conn,[],[]⟩ events) :
    System.Throughout (fun s => s.conn.pendingClose = none → Proper issued s) step ⟨conn,[],[]⟩ events := by
  have known : ∀ s, System.Reaches (· = ⟨conn,[],[]⟩) step (fun s e => Genuine issued e ∧ Staying issued s e) s →
      s.conn.pendingClose = none → Uses issued s := by
    intro s reached
    refine reached.invariant (fun s => s.conn.pendingClose = none → Uses issued s) ?_ ?_
    · rintro s rfl _
      refine ⟨conforming,by simp,by simp [empty],fun pathId cid used => ?_,fun _ => List.isChain_nil⟩
      obtain ⟨i,member,path,same⟩ := given pathId cid used
      exact ⟨i,member,path,same,Nat.zero_le _,.inr (by simp)⟩
    · intro s e uses met opened
      by_cases active : s.conn.pendingClose = none
      · exact uses_step (uses active) active met.1 met.2 opened
      · have same : step s e = s := if_pos (Option.isSome_iff_ne_none.mpr active)
        rw [same] at opened
        exact absurd opened active
  exact System.Throughout.of_reaches (fun s reached opened => (known s reached opened).proper) (.start rfl)
    ((System.Admits.of_forall genuine _).and staying)

/-- A client that uses the ID of the handshake, labelled 0, at a known address. -/
def connected : Connection :=
  {role := .client,activeConnectionIdLimit := 3,
   paths := {primary := {id := 0,path := {peerAddr := .ipv4 ⟨[10,0,0,1],rfl⟩ 443,
                                          peerCid := {bytes := [0],short := Nat.le_of_ble_eq_true rfl}},peerAddrSet := true}},
   peerDcid := {bytes := [0],short := Nat.le_of_ble_eq_true rfl},peerDcidSet := true}

theorem connected_given (retirePriorTo pathId : Nat) (cid : ConnId) (used : cidOf connected pathId = some cid) :
    ∃ i ∈ [(Arrival.newConnectionId (issue 0 0 0)).frame,(Arrival.newConnectionId (issue 1 1 retirePriorTo)).frame],
      i.pathId = pathId ∧ i.cid = cid := by
  by_cases primary : pathId = 0
  · subst primary
    cases used
    exact ⟨_,List.mem_cons_self,rfl,rfl⟩
  · have none : cidOf connected pathId = none := by
      simp [cidOf,connected,PathSet.get,PathSet.items,Ne.symm primary]
    rw [none] at used
    cases used

/-- A frame retires the ID of the handshake, and the peer's address changes afterwards. -/
theorem destination_proper_replaced : System.Throughout (fun s => s.conn.pendingClose = none → Proper
    [(Arrival.newConnectionId (issue 0 0 0)).frame,(Arrival.newConnectionId (issue 1 1 1)).frame] s) step ⟨connected,[],[]⟩
    [.frame (.newConnectionId (issue 0 0 0)),.frame (.newConnectionId (issue 1 1 1)),.handshakeDone,
     .peerAddress 0 (.ipv4 ⟨[10,0,0,2],rfl⟩ 443) 1200 1000000 none ⟨none,0⟩] := by
  refine destination_proper ⟨⟨by decide,by decide,by decide,by decide,fun _ before _ =>
      Nat.le_trans (Nat.le_trans (List.length_filter_le _ _) before.length_le) (by decide)⟩,by decide⟩ rfl (connected_given 1)
    [.frame (.newConnectionId (issue 0 0 0)),.frame (.newConnectionId (issue 1 1 1)),.handshakeDone,
     .peerAddress 0 (.ipv4 ⟨[10,0,0,2],rfl⟩ 443) 1200 1000000 none ⟨none,0⟩] ?_ ⟨⟨?_,?_⟩,⟨?_,?_⟩,trivial,?_,trivial⟩
  · intro e member
    simp only [List.mem_cons,List.not_mem_nil,or_false] at member
    rcases member with rfl | rfl | rfl | rfl
    · exact ⟨by decide,by decide⟩
    · exact ⟨by decide,by decide⟩
    · trivial
    · trivial
  · exact fun _ _ => .inr fun _ _ _ _ => Nat.zero_le _
  · exact fun _ => .inr rfl
  · intro cid used
    cases used
    exact .inl ⟨_,List.mem_cons_self,rfl,rfl⟩
  · intro zero
    cases zero
  · exact fun _ => ⟨by unfold Alone; decide,by decide⟩

/-- A challenge takes the path to another ID, whose reset token is then no longer known. -/
theorem challenged_forgets : ¬ ∀ (conn : Connection) (issued : List IssuedCid) (events : List Event),
    Conforming conn issued → conn.peerCids = [] →
    (∀ pathId cid, cidOf conn pathId = some cid → ∃ i ∈ issued, i.pathId = pathId ∧ i.cid = cid) →
    (∀ e ∈ events, Genuine issued e) → (System.run step ⟨conn,[],[]⟩ events).conn.pendingClose = none →
    Proper issued (System.run step ⟨conn,[],[]⟩ events) := by
  intro claimed
  have proper := claimed connected
    [(Arrival.newConnectionId (issue 0 0 0)).frame,(Arrival.newConnectionId (issue 1 1 0)).frame]
    [.frame (.newConnectionId (issue 1 1 0)),.pathChallenge 0 ⟨List.replicate 8 7,List.length_replicate⟩ none]
    ⟨⟨by decide,by decide,by decide,by decide,fun _ before _ =>
      Nat.le_trans (Nat.le_trans (List.length_filter_le _ _) before.length_le) (by decide)⟩,by decide⟩ rfl (connected_given 0)
    (by
      intro e member
      simp only [List.mem_cons,List.not_mem_nil,or_false] at member
      rcases member with rfl | rfl
      · exact ⟨by decide,by decide⟩
      · trivial)
    (by decide)
  have known := proper.recognised 0 {bytes := [1],short := by decide} (by decide)
    (Arrival.newConnectionId (issue 1 1 0)).frame (by decide) rfl rfl (0x40::List.replicate 20 1) (by decide)
  revert known
  decide

end QuicZig.Conn.DestinationCid
