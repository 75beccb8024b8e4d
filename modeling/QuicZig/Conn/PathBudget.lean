import QuicZig.Conn.PollDatagram
import QuicZig.Library.Budget

/-! The paths of a connection as accounts of the peer's addresses: what each change of a
path moves between them. -/
namespace QuicZig.Conn
open Machine Codec Wire Budget

def MigrationRollback.purse (self : MigrationRollback) : Purse Address :=
  {holder := if self.peerAddrSet then some self.peerAddr else none,cleared := self.validated,received := self.bytesReceived,
   sent := self.bytesSent}

namespace PathState

def purse (self : PathState) : Purse Address :=
  {holder := self.peerAddress,cleared := self.path.isValidated,received := self.path.bytesReceived,sent := self.path.bytesSent}

def account (self : PathState) : Account Address :=
  {current := self.purse,fallback := self.migrationRollback.map (·.purse)}

/-- Going back to the same address restores counters that are no better than the ones in use. -/
def Settled (self : PathState) (trusted : List Address) : Prop :=
  ∀ rollback ∈ self.migrationRollback, ∀ a, self.peerAddress = some a → rollback.peerAddrSet = true → rollback.peerAddr = a →
    a ∈ trusted ∨ 3*rollback.bytesReceived+self.path.bytesSent ≤ 3*self.path.bytesReceived+rollback.bytesSent

/-- The counters hold no credit of unknown origin, and no charge that the first datagram does not cover. -/
def Clean (self : PathState) (trusted : List Address) (addr : Address) (datagramLen : Nat) : Prop :=
  addr ∈ trusted ∨ (self.path.isValidated = false ∧ 3*self.path.bytesReceived ≤ self.path.bytesSent ∧
    self.path.bytesSent ≤ 3*(self.path.bytesReceived+datagramLen))

variable {p : PathState} {trusted : List Address}

theorem account_save (p : PathState) : p.snapshotMigrationRollback.account = p.account.save := by
  unfold snapshotMigrationRollback
  cases kept : p.migrationRollback with
  | none => simp [account,Account.save,kept,purse,MigrationRollback.purse,peerAddress]
  | some rollback => simp [account,Account.save,kept]

theorem account_begin (p : PathState) (addr : Address) (n : Nat) :
    (p.beginMigration addr n).account = p.account.save.move addr n := by
  rw [← account_save]
  simp [beginMigration,account,Account.move,purse,peerAddress,setPeerAddress,Path.onDatagramReceived,Path.isValidated,
    PathValidator.isValidated]

theorem account_restore (p : PathState) (rollback : MigrationRollback) :
    (p.rollbackFailedMigration rollback).account = p.account.restore rollback.purse := by
  cases valid : rollback.validated <;>
    simp [rollbackFailedMigration,account,Account.restore,purse,MigrationRollback.purse,peerAddress,Path.isValidated,
      PathValidator.isValidated,valid]

theorem account_tick (nowUs : Nat) (p : PathState) : (Paths.Connection.tickValidator nowUs p).account = p.account := by
  unfold account purse Paths.Connection.tickValidator Path.isValidated
  dsimp only
  rw [PathValidator.tick_validated]
  rfl

/-- A challenge under way leaves a path as validated as it was before, or less. -/
theorem account_challenge (p : PathState) (token : Fixed 8) (nowUs timeoutUs : Nat) (at_ : Option Nat) :
    ({p with path := {p.path with validator := p.path.validator.beginChallenge token nowUs timeoutUs,
                                  lastPathChallengeAtUs := at_}} : PathState).account = p.account.mark p.path.validated := by
  simp [account,Account.mark,purse,peerAddress,Path.isValidated,PathValidator.isValidated,PathValidator.beginChallenge]

theorem settled_account (settled : p.Settled trusted) : p.account.Settled 3 trusted := by
  intro f kept a out here there
  cases had : p.migrationRollback with
  | none => simp [account,had] at kept
  | some rollback =>
    simp only [account,had,Option.map_some,Option.mem_some_iff] at kept
    subst kept
    have set : rollback.peerAddrSet = true ∧ rollback.peerAddr = a := by
      simpa [MigrationRollback.purse] using there
    exact (settled rollback had a here set.1 set.2).resolve_left out

theorem settled_save (settled : p.account.Settled 3 trusted) : p.account.save.Settled 3 trusted := by
  intro f kept a out here there
  cases had : p.account.fallback with
  | none =>
    simp only [Account.save,had,Option.getD_none,Option.mem_some_iff] at kept
    subst kept
    exact Nat.le_refl _
  | some g =>
    simp only [Account.save,had,Option.getD_some,Option.mem_some_iff] at kept
    subst kept
    exact settled g had a out here there

theorem away {addr : Address} (other : p.matchesMigrationRollbackAddress addr = false) :
    ∀ f ∈ p.account.fallback, f.holder ≠ some addr := by
  intro f kept
  unfold matchesMigrationRollbackAddress at other
  cases had : p.migrationRollback with
  | none => simp [account,had] at kept
  | some rollback =>
    rw [had] at other
    simp only [account,had,Option.map_some,Option.mem_some_iff] at kept
    subst kept
    intro here
    have set : rollback.peerAddrSet = true ∧ rollback.peerAddr = addr := by
      simpa [MigrationRollback.purse] using here
    simp [set.1,set.2] at other

theorem sane_fresh (received : p.path.bytesReceived = 0) (sent : p.path.bytesSent = 0) (settled : p.migrationRollback = none)
    (nowhere : p.path.isValidated = true → p.peerAddress = none) :
    p.account.Sane 3 trusted ∧ ∀ a, p.account.receivedFrom a = 0 ∧ p.account.sentTo a = 0 := by
  refine ⟨⟨⟨fun a holds cleared => ?_,fun a _ _ => ?_⟩,fun f kept => ?_,fun f kept => ?_⟩,fun a => ?_⟩
  · have none := nowhere cleared
    simp [account,purse,none] at holds
  · simp [account,purse,sent]
  · simp [account,settled] at kept
  · simp [account,settled] at kept
  · unfold Account.receivedFrom Account.sentTo Account.purseOf
    split <;> simp [account,purse,received,sent,settled]

theorem peerAddress_some (set : p.peerAddrSet = true) : p.peerAddress = some p.path.peerAddr := if_pos set

theorem peerAddress_addr {addr : Address} (holds : p.peerAddress = some addr) : p.path.peerAddr = addr := by
  unfold peerAddress at holds
  split at holds
  · exact Option.some.inj holds
  · cases holds

theorem peerAddress_none (unset : p.peerAddrSet = false) : p.peerAddress = none := if_neg (by simp [unset])

end PathState

namespace Paths.Connection

def accounts (conn : Connection) : List (Account Address) := conn.paths.items.map (·.account)

/-- A change that keeps the accounts covered. -/
def Keeps (trusted : List Address) (conn after : Connection) : Prop :=
  ∀ t, Covered 3 trusted t conn.accounts → Covered 3 trusted t after.accounts

variable {conn : Connection} {trusted : List Address}

theorem Keeps.same {after : Connection} (same : after.accounts = conn.accounts) : Keeps trusted conn after :=
  fun _ covered => same ▸ covered

theorem Keeps.trans {middle after : Connection} (first : Keeps trusted conn middle) (second : Keeps trusted middle after) :
    Keeps trusted conn after :=
  fun t covered => second t (first t covered)

theorem accounts_update (conn : Connection) (pathId : Nat) {f : PathState → PathState}
    (same : ∀ p, (f p).account = p.account) :
    (conn.updatePath pathId f).accounts = conn.accounts := by
  unfold accounts updatePath
  dsimp only
  rw [PathSet.update_items]
  exact FirstMatch.map_update same _

theorem get_sane {t : Tally Address} {pathId : Nat} {p : PathState} (covered : Covered 3 trusted t conn.accounts)
    (found : conn.paths.get pathId = some p) : p.account.Sane 3 trusted :=
  covered.sane _ (List.mem_map_of_mem (PathSet.get_mem found))

theorem covered_update {t u : Tally Address} {pathId : Nat} {p : PathState} {f : PathState → PathState}
    {credit debit : Address → Nat} (covered : Covered 3 trusted t conn.accounts) (found : conn.paths.get pathId = some p)
    (pays : Pays 3 trusted p.account (f p).account credit debit)
    (balance : ∀ a ∉ trusted, u.sent a+3*u.owed a+3*credit a+3*t.received a ≤
      t.sent a+debit a+3*t.owed a+3*u.received a) : Covered 3 trusted u (conn.updatePath pathId f).accounts := by
  obtain ⟨before,after,split,updated⟩ := PathSet.update_split found
  unfold accounts updatePath at *
  dsimp only
  rw [updated,List.map_append,List.map_cons]
  rw [split,List.map_append,List.map_cons] at covered
  exact covered.change pays balance

theorem keeps_update {pathId : Nat} {f : PathState → PathState}
    (pays : ∀ p, conn.paths.get pathId = some p → p.account.Sane 3 trusted →
      Pays 3 trusted p.account (f p).account (fun _ => 0) (fun _ => 0)) : Keeps trusted conn (conn.updatePath pathId f) := by
  intro t covered
  cases found : conn.paths.get pathId with
  | none =>
    have same : (conn.updatePath pathId f).accounts = conn.accounts := by
      unfold accounts updatePath
      dsimp only
      rw [PathSet.update_items,FirstMatch.update_none found]
    exact same ▸ covered
  | some p => exact covered_update covered found (pays p found (get_sane covered found)) (fun a _ => by omega)

theorem accounts_cid (conn : Connection) (pathId : Nat) (cid : ConnId) :
    (conn.updatePath pathId (·.setPeerCid cid)).accounts = conn.accounts := accounts_update conn pathId fun _ => rfl

theorem accounts_local (conn : Connection) (pathId : Nat) (newLocalAddr : Address) :
    (conn.updatePath pathId fun p => {p.setLocalAddress newLocalAddr with pendingMigrationReset := true}).accounts =
      conn.accounts := accounts_update conn pathId fun _ => rfl

theorem accounts_setPeerCid (conn : Connection) (path : PathState) (cid : ConnId) :
    (conn.setPeerCid path cid).accounts = conn.accounts := by
  unfold setPeerCid
  dsimp only
  split <;> exact accounts_cid conn path.id cid

theorem accounts_promote (conn : Connection) (pathId : Nat) : (conn.promotePeerCidForPath pathId).accounts = conn.accounts := by
  unfold promotePeerCidForPath
  split
  · rfl
  · dsimp only
    split <;> exact accounts_cid conn pathId _

theorem accounts_retire (conn : Connection) (pathId retirePriorTo : Nat) :
    (conn.retirePeerCidsPriorTo pathId retirePriorTo).accounts = conn.accounts := by
  unfold retirePeerCidsPriorTo
  dsimp only
  split
  · exact accounts_promote _ pathId
  · rfl

theorem accounts_append (conn : Connection) (frame : IssuedCid) : (conn.appendPeerCid frame).accounts = conn.accounts := by
  unfold appendPeerCid
  dsimp only
  have moved : ({conn with peerCids := conn.peerCids++[frame]}.updatePath frame.pathId (·.setPeerCid frame.cid)).accounts =
      conn.accounts := accounts_cid _ _ _
  cases conn.paths.get frame.pathId with
  | none =>
    dsimp only
    split <;> rfl
  | some path =>
    dsimp only
    split <;> split <;> first | rfl | exact moved

theorem accounts_close (conn : Connection) (isTransport : Bool) (errorCode : Nat) (reason : String) :
    (conn.close isTransport errorCode reason).accounts = conn.accounts := by
  obtain ⟨_,_,closed⟩ := conn.close_frame isTransport errorCode reason
  rw [closed]
  rfl

theorem accounts_register (conn : Connection) (frame : IssuedCid) : (conn.registerPeerCid frame).accounts = conn.accounts := by
  unfold registerPeerCid
  split
  · exact accounts_close conn _ _ _
  · split
    · unfold pathIdAllowedByLocalLimit
      split
      · rfl
      · exact accounts_close conn _ _ _
    · dsimp only
      split
      · split
        · split
          · exact accounts_close conn _ _ _
          · split
            · exact accounts_retire _ _ _
            · rfl
        · exact accounts_close conn _ _ _
      · split
        · rw [accounts_close,accounts_retire]
        · rw [accounts_append,accounts_retire]

theorem accounts_rotate (conn : Connection) (path : PathState) : (conn.rotatePeerCid path).accounts = conn.accounts := by
  unfold rotatePeerCid consumeFreshPeerCidForMigration
  dsimp only
  cases conn.peerCids.find? fun item => item.pathId = path.id && item.cid ≠ path.path.peerCid with
  | none => rfl
  | some item => exact accounts_setPeerCid _ path item.cid

theorem accounts_clear (conn : Connection) (pathId : Nat) :
    (conn.clearQueuedPathChallengeForPath pathId).accounts = conn.accounts := by
  unfold clearQueuedPathChallengeForPath
  split <;> rfl

theorem accounts_pathChallenge (conn : Connection) (pathId : Nat) (data : Fixed 8) (addr : Option Address) :
    (conn.handlePathChallenge pathId data addr).accounts = conn.accounts :=
  accounts_rotate _ _

theorem pays_challenge {p : PathState} (sane : p.account.Sane 3 trusted) :
    Pays 3 trusted p.account (p.account.mark p.path.validated) (fun _ => 0) (fun _ => 0) := by
  refine Account.pays_mark sane fun validated a holds => sane.current.known a holds ?_
  show p.path.isValidated = true
  simp [Path.isValidated,validated]

theorem keeps_arm (conn : Connection) (pathId nowUs : Nat) (c : Challenge) :
    Keeps trusted conn (conn.armMigrationPathChallenge pathId nowUs c) := by
  unfold armMigrationPathChallenge
  cases c.token with
  | none => exact .same rfl
  | some token =>
    refine Keeps.trans (keeps_update fun p _ sane => ?_) (.same rfl)
    exact (PathState.account_challenge p token nowUs c.timeoutUs (some nowUs)).symm ▸ pays_challenge sane

theorem keeps_snapshot (conn : Connection) (pathId : Nat) :
    Keeps trusted conn (conn.updatePath pathId (·.snapshotMigrationRollback)) :=
  keeps_update fun p _ sane => by
    rw [PathState.account_save]
    exact Account.pays_save sane

theorem keeps_client {after : Connection} {newLocalAddr : Address} {nowUs : Nat} {c : Challenge}
    (moved : conn.beginClientActiveMigration newLocalAddr nowUs c = .ok after) : Keeps trusted conn after := by
  unfold beginClientActiveMigration at moved
  dsimp only at moved
  split at moved
  · cases moved
  split at moved
  · cases moved
  split at moved
  · cases moved
  unfold consumeFreshPeerCidForMigration at moved
  dsimp only at moved
  split at moved
  · cases moved
  · rename_i cid consumed fresh
    cases moved
    have taken : consumed.accounts = conn.accounts := by
      split at fresh
      · cases fresh
      · cases fresh
        rfl
    have snapshot : Keeps trusted conn _ := Keeps.trans (.same taken) (keeps_snapshot consumed conn.activePath.id)
    refine (snapshot.trans (.same ?_)).trans (keeps_arm _ _ nowUs c)
    rw [accounts_local,accounts_setPeerCid]

theorem keeps_server {after : Connection} {newLocalAddr : Address} {nowUs : Nat} {c : Challenge}
    (moved : conn.noteServerLocalAddressChanged newLocalAddr nowUs c = .ok after) : Keeps trusted conn after := by
  unfold noteServerLocalAddressChanged at moved
  dsimp only at moved
  split at moved
  · cases moved
  split at moved
  · cases moved
  split at moved
  · cases moved
  split at moved
  · cases moved
    exact .same rfl
  split at moved
  · cases moved
  · cases moved
    have snapshot : Keeps trusted conn _ := keeps_snapshot conn conn.activePath.id
    exact (snapshot.trans (.same (accounts_local _ _ newLocalAddr))).trans (keeps_arm _ _ nowUs c)

theorem keeps_probe {after : Connection} {pathId : Nat} {token : Fixed 8} {nowUs timeoutUs : Nat}
    (probed : conn.probePathId pathId token nowUs timeoutUs = .ok after) : Keeps trusted conn after := by
  unfold probePathId at probed
  split at probed
  · cases probed
  · cases probed
    refine Keeps.trans (keeps_update fun p _ sane => ?_) (.same rfl)
    exact (PathState.account_challenge p token nowUs timeoutUs p.path.lastPathChallengeAtUs).symm ▸ pays_challenge sane

theorem keeps_mark {pathId : Nat} {f : PathState → PathState} (marks : ∀ p, (f p).account = p.account.mark true)
    (proven : ∀ p, conn.paths.get pathId = some p → ∀ a, p.peerAddress = some a → a ∈ trusted) :
    Keeps trusted conn (conn.updatePath pathId f) :=
  keeps_update fun p found sane => by
    rw [marks]
    exact Account.pays_mark sane fun _ a holds => proven p found a holds

theorem keeps_settle (conn : Connection) (pathId : Nat) :
    Keeps trusted conn (conn.updatePath pathId (·.resetRecoveryAfterMigration)) :=
  keeps_update fun _ _ sane => Account.pays_settle sane

theorem keeps_fail (conn : Connection) (pathId : Nat) : Keeps trusted conn (conn.updatePath pathId fail) :=
  keeps_update fun _ _ sane => Account.pays_settle sane

theorem keeps_response {pathId : Nat} {token : Fixed 8}
    (proven : ∀ a, (conn.pathForId pathId).peerAddress = some a → a ∈ trusted) :
    Keeps trusted conn (conn.recordPathResponse pathId token) := by
  unfold recordPathResponse
  dsimp only
  split
  · rename_i validator matched
    have marked : Keeps trusted conn ((conn.updatePath (conn.pathForId pathId).id fun p =>
        {p with path := {p.path with validator := validator,validated := true}}).clearQueuedPathChallengeForPath pathId) := by
      refine Keeps.trans (keeps_mark (fun _ => rfl) fun p found a holds => ?_) (.same (accounts_clear _ _))
      rw [pathForId_get] at found
      cases found
      exact proven a holds
    split
    · exact marked.trans (keeps_settle _ _)
    · exact marked
  · exact .same rfl

theorem keeps_markPath {pathId : Nat} (proven : ∀ p, conn.paths.get pathId = some p → ∀ a, p.peerAddress = some a → a ∈ trusted) :
    Keeps trusted conn (conn.markPathValidated pathId) := by
  unfold markPathValidated
  split
  · exact .same rfl
  · have marked := keeps_mark (f := fun p => {p with path := p.path.markValidated}) (fun _ => rfl) proven
    split
    · exact marked.trans (keeps_settle _ _)
    · exact marked

def Affordable (path : PathState) (trusted : List Address) (addr : Address) (datagramLen : Nat) : AddressCheck → Prop
  | .first => path.Clean trusted addr datagramLen
  | .denied => ∀ a, path.peerAddress = some a → a ∈ trusted
  | .changed => path.Settled trusted
  | .current | .rollback | .preHandshake | .rateLimited => True

theorem checkAddress_first {path : PathState} {addr : Address} {nowUs : Nat} {verdict : Option MigrationDecision}
    (first : conn.checkAddress path addr nowUs verdict = .first) : path.peerAddrSet = false := by
  unfold checkAddress at first
  dsimp only at first
  split_ifs at first
  assumption

theorem checkAddress_current {path : PathState} {addr : Address} {nowUs : Nat} {verdict : Option MigrationDecision}
    (current : conn.checkAddress path addr nowUs verdict = .current) : path.peerAddress = some addr := by
  unfold checkAddress at current
  dsimp only at current
  split_ifs at current with unset here
  rw [PathState.peerAddress_some (by simpa using unset),here]

theorem checkAddress_changed {path : PathState} {addr : Address} {nowUs : Nat} {verdict : Option MigrationDecision}
    (changed : conn.checkAddress path addr nowUs verdict = .changed) :
    path.peerAddress ≠ some addr ∧ path.matchesMigrationRollbackAddress addr = false := by
  unfold checkAddress at changed
  dsimp only at changed
  split_ifs at changed with unset here back
  rw [PathState.peerAddress_some (by simpa using unset)]
  exact ⟨by simpa using here,by simpa using back⟩

theorem rotate_get {path p : PathState} (found : conn.paths.get path.id = some p) :
    ∃ q, (conn.rotatePeerCid path).paths.get path.id = some q ∧ q.account = p.account := by
  unfold rotatePeerCid consumeFreshPeerCidForMigration
  dsimp only
  cases conn.peerCids.find? fun item => item.pathId = path.id && item.cid ≠ path.path.peerCid with
  | none => exact ⟨p,found,rfl⟩
  | some item =>
    refine ⟨p.setPeerCid item.cid,?_,rfl⟩
    have moved := PathSet.get_update conn.paths path.id path.id (f := (·.setPeerCid item.cid)) (fun _ => rfl)
    rw [if_pos rfl,found] at moved
    dsimp only [setPeerCid]
    split <;> exact moved

/-- A path that goes over to another address starts anew there, with the datagram that came from it. -/
theorem covered_change {t : Tally Address} {path : PathState} {addr : Address} {datagramLen nowUs : Nat} {c : Challenge}
    (covered : Covered 3 trusted t conn.accounts) (found : conn.paths.get path.id = some path)
    (settled : path.Settled trusted) (other : path.peerAddress ≠ some addr)
    (back : path.matchesMigrationRollbackAddress addr = false) (owed : addr ∉ trusted → datagramLen ≤ t.owed addr) :
    Covered 3 trusted {t with owed := fun _ => 0} (conn.handlePeerAddressChange path addr datagramLen nowUs c).accounts := by
  have saved : (conn.updatePath path.id (·.snapshotMigrationRollback)).paths.get path.id =
      some path.snapshotMigrationRollback := by
    have moved := PathSet.get_update conn.paths path.id path.id (f := (·.snapshotMigrationRollback)) (fun p => by
      unfold PathState.snapshotMigrationRollback
      split <;> rfl)
    rw [if_pos rfl,found] at moved
    exact moved
  obtain ⟨q,there,same⟩ := rotate_get saved
  rw [PathState.account_save] at same
  have ready := Keeps.trans (keeps_snapshot conn path.id) (.same (accounts_rotate _ path)) t covered
  have sane : path.account.save.Sane 3 trusted := same ▸ get_sane ready there
  have start : path.account.save.save = path.account.save := by
    simp [Account.save]
  have away : ∀ f ∈ path.account.save.fallback, f.holder ≠ some addr := by
    intro f kept
    cases had : path.account.fallback with
    | none =>
      simp only [Account.save,had,Option.getD_none,Option.mem_some_iff] at kept
      exact kept ▸ other
    | some g =>
      simp only [Account.save,had,Option.getD_some,Option.mem_some_iff] at kept
      exact kept ▸ PathState.away back g had
  have moved : Pays 3 trusted _ _ (fun a => if a = addr then datagramLen else 0) (fun _ => 0) :=
    Account.pays_move (n := datagramLen) sane (PathState.settled_save (PathState.settled_account settled)) other away
      (fun _ => by simp)
  have pays : Pays 3 trusted q.account (q.beginMigration addr datagramLen).account
      (fun a => if a = addr then datagramLen else 0) (fun _ => 0) := by
    rw [PathState.account_begin,same,start]
    exact moved
  refine keeps_arm _ _ nowUs c _ (covered_update ready there pays fun a out => ?_)
  dsimp only
  split
  · rename_i here
    subst here
    have paid := owed out
    omega
  · omega

theorem covered_record {t : Tally Address} {pathId : Nat} {addr : Address} {datagramLen nowUs : Nat}
    {verdict : Option MigrationDecision} {c : Challenge} (covered : Covered 3 trusted t conn.accounts)
    (affordable : Affordable (conn.pathForId pathId) trusted addr datagramLen
      (conn.checkAddress (conn.pathForId pathId) addr nowUs verdict))
    (owed : addr ∉ trusted → datagramLen ≤ t.owed addr) : Covered 3 trusted {t with owed := fun _ => 0}
      (conn.recordAuthenticatedDatagramAddress pathId addr datagramLen nowUs verdict c).accounts := by
  have found := pathForId_get conn pathId
  have sane := get_sane covered found
  have dropped : Covered 3 trusted {t with owed := fun _ => 0} conn.accounts :=
    covered.tally (List.Subset.refl _) fun a _ => by dsimp only; omega
  have balance : ∀ a ∉ trusted, t.sent a+3*0+3*(if a = addr then datagramLen else 0)+3*t.received a ≤
      t.sent a+0+3*t.owed a+3*t.received a := by
    intro a out
    split
    · rename_i here
      subst here
      have paid := owed out
      omega
    · omega
  unfold recordAuthenticatedDatagramAddress
  dsimp only
  cases check : conn.checkAddress (conn.pathForId pathId) addr nowUs verdict with
  | first =>
    rw [check] at affordable
    have unheld := PathState.peerAddress_none (checkAddress_first check)
    have pays : Pays 3 trusted (conn.pathForId pathId).account
        (((conn.pathForId pathId).account.receive datagramLen).learn addr) (fun a => if a = addr then datagramLen else 0)
        (fun _ => 0) := Account.pays_learn sane unheld affordable (fun _ => by simp)
    exact covered_update covered found pays balance
  | current =>
    have here := checkAddress_current check
    have pays : Pays 3 trusted (conn.pathForId pathId).account ((conn.pathForId pathId).account.receive datagramLen)
        (fun a => if a = addr then datagramLen else 0) (fun _ => 0) := by
      refine Account.pays_receive sane fun a _ holds => ?_
      cases here.symm.trans holds
      simp
    exact covered_update covered found pays balance
  | denied =>
    rw [check] at affordable
    exact covered_update covered found (Account.pays_receive sane
      fun a out holds => (absurd (affordable a holds) out : datagramLen ≤ 0)) (fun a _ => by dsimp only; omega)
  | changed =>
    rw [check] at affordable
    obtain ⟨other,back⟩ := checkAddress_changed check
    exact covered_change covered found affordable other back owed
  | rollback => exact dropped
  | preHandshake => exact dropped
  | rateLimited => exact dropped

/-- A validation of the path that fails at this time can go back. -/
def TickSettled (nowUs : Nat) (trusted : List Address) (path : PathState) : Prop :=
  (path.path.validator.tick nowUs).status = .failed → path.pendingMigrationReset = true → path.Settled trusted

theorem tickedPath_settled (nowUs : Nat) (path : PathState) :
    TickSettled nowUs trusted (tickedPath nowUs path) := by
  intro failed pending
  unfold tickedPath at failed pending ⊢
  dsimp only at failed pending ⊢
  split at failed
  · rename_i timedOut
    rw [if_pos timedOut] at pending ⊢
    split at failed
    · intro r none
      cases none
    · intro r none
      cases none
  · rename_i going
    exact absurd failed (PathValidator.tick_tick going)

theorem keeps_tickPath {pathId nowUs : Nat} (settled : ∀ p, conn.paths.get pathId = some p → TickSettled nowUs trusted p) :
    Keeps trusted conn (conn.tickPath pathId nowUs) := by
  unfold tickPath
  cases found : conn.paths.get pathId with
  | none => exact .same rfl
  | some p =>
    dsimp only
    have ticked : (conn.updatePath pathId (tickValidator nowUs)).accounts = conn.accounts :=
      accounts_update conn pathId (PathState.account_tick nowUs)
    have named : p.id = pathId := PathSet.get_id found
    have id : (tickValidator nowUs p).id = pathId := named
    have there : (conn.updatePath pathId (tickValidator nowUs)).paths.get pathId = some (tickValidator nowUs p) := by
      have moved := PathSet.get_update conn.paths pathId pathId (f := tickValidator nowUs) (fun _ => rfl)
      rw [if_pos rfl,found] at moved
      exact moved
    split
    · rename_i failed
      unfold handlePathValidationFailure
      dsimp only
      rw [id]
      split
      · rename_i rollback chosen
        have pending : p.pendingMigrationReset = true ∧ p.migrationRollback = some rollback := by
          split at chosen
          · exact ⟨by assumption,chosen⟩
          · cases chosen
        have restored : Keeps trusted conn ((conn.updatePath pathId (tickValidator nowUs)).updatePath pathId
            (·.rollbackFailedMigration rollback)) := by
          refine Keeps.trans (.same ticked) (keeps_update fun q here sane => ?_)
          rw [there] at here
          cases here
          have settle := PathState.settled_account (settled p found failed pending.1)
          rw [PathState.account_restore,PathState.account_tick] at *
          exact Account.pays_restore sane settle (by simp [PathState.account,pending.2])
        refine restored.trans (.same ?_)
        rw [accounts_clear]
        split <;> rfl
      · exact (Keeps.trans (.same ticked) (keeps_fail _ pathId)).trans (.same (accounts_clear _ _))
    · exact .same ticked

/-- The end of each validation that fails takes its path back to where it was, at no one's expense. -/
theorem keeps_tick {nowUs : Nat} (settled : ∀ p ∈ conn.paths.items, TickSettled nowUs trusted p) :
    Keeps trusted conn (conn.tick nowUs) := by
  have each : ∀ (ids : List Nat) (conn : Connection), (∀ id p, conn.paths.get id = some p → TickSettled nowUs trusted p) →
      Keeps trusted conn (ids.foldl (fun conn pathId => conn.tickPath pathId nowUs) conn) := by
    intro ids
    induction ids with
    | nil => exact fun conn _ => .same rfl
    | cons pathId rest ih =>
      intro conn settled
      refine (keeps_tickPath (settled pathId)).trans (ih _ fun id p found => ?_)
      obtain ⟨_,_,_,frame⟩ := conn.tickPath_frame pathId nowUs
      rw [frame] at found
      split at found
      · cases before : conn.paths.get pathId with
        | none => simp [before] at found
        | some q =>
          rw [before] at found
          cases found
          exact tickedPath_settled nowUs q
      · exact settled id p found
  exact each _ conn fun id p found => settled p (PathSet.get_mem found)

end Paths.Connection

end QuicZig.Conn
