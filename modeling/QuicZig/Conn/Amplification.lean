import QuicZig.Conn.PathBudget
import QuicZig.Library.System

/-! What is sent to an address that has not proven itself, against what came from it, over
datagrams, packets, frames, migrations, validations and polls in any order. -/
namespace QuicZig.Conn

namespace Paths.Connection
open Machine Codec Wire

/-- `retirePath`: the frame that is queued is not modelled. -/
def retirePath (conn : Connection) (pathId : Nat) : Connection :=
  match conn.paths.get pathId with
  | none => conn
  | some path =>
    if path.path.state = .failed then conn
    else
      let conn := conn.updatePath pathId fun p => {p with path := p.path.retire}
      if conn.paths.activeId = pathId then {conn with paths := {conn.paths with activeId := 0}} else conn

/-- What `expireRetiringPaths` does to one path whose time is over. -/
def expireRetiringPath (conn : Connection) (pathId : Nat) : Connection :=
  match conn.paths.get pathId with
  | none => conn
  | some path =>
    if path.path.state ≠ .retiring then conn
    else
      let conn := conn.updatePath pathId fun p => {p with path := p.path.fail}
      {conn with peerCids := (removeCidsPriorTo conn.peerCids pathId maxU64 {}).2}.promotePeerCidForPath pathId

/-- The arms of `dispatchFrames` that touch the paths. -/
def dispatchFrame (conn : Connection) (pathId : Nat) (addr : Option Address) : Frame → Connection
  | .pathChallenge f => conn.handlePathChallenge pathId f.data addr
  | .pathResponse f => conn.recordPathResponse pathId f.data
  | .newConnectionId f => conn.handleNewConnectionId f
  | .pathNewConnectionId f => conn.handlePathNewConnectionId f
  | .pathAbandon f => conn.retirePath f.pathId
  | _ => conn

def shouldRequeuePathChallenge (conn : Connection) (pathId : Nat) (token : Fixed 8) : Bool :=
  match conn.paths.get pathId with
  | none => false
  | some path =>
    path.path.state ≠ .failed && path.path.state ≠ .retiring && path.path.validator.status = .pending &&
      path.path.validator.pendingToken = token

def requeueLost (conn : Connection) (pathId : Nat) : Frame → Connection
  | .pathResponse f => if conn.pathResponse.isSome then conn else conn.queuePathResponseOnPath pathId f.data none
  | .pathChallenge f =>
    if conn.pathChallenge = none ∧ conn.shouldRequeuePathChallenge pathId f.data then conn.queuePathChallengeOnPath pathId f.data
    else conn
  | _ => conn

end Paths.Connection

namespace Amplification
open Machine Codec Wire Budget Paths Paths.Connection

/-- What `handle` knows of the datagram that it is at. -/
structure Incoming where
  addr : Option Address := none
  len : Nat := 0
  nowUs : Nat := 0
  rebindAddr : Option Address := none
  rebindRecorded : Bool := false
  currentPathId : Nat := 0
  lastAuthenticatedPathId : Option Nat := none
  deriving DecidableEq, Repr

/-- A connection, the bytes that went to each address and came from it, and the addresses that are validated: the peer
has answered from there what only the receiver of our packets can answer, or the application vouches for it. -/
structure State where
  conn : Connection
  incoming : Incoming := {}
  sent : Address → Nat := fun _ => 0
  received : Address → Nat := fun _ => 0
  validated : List Address := []

inductive PacketType where
  | initial
  | zeroRtt
  | handshake
  /-- `incomingShortPath` may find the path by the ID that the packet carries. -/
  | oneRtt (shortPathId : Option Nat)
  deriving DecidableEq, Repr

inductive Event where
  | datagram (addr : Option Address) (len nowUs : Nat)
  /-- A datagram that `handle` leaves alone: the connection is closed, or the datagram too long. -/
  | ignored (addr : Option Address) (len : Nat)
  | packet (type : PacketType) (opened : Bool)
  | frame (f : Frame)
  | packetEnd (verdict : Option MigrationDecision) (c : Challenge)
  | tick (nowUs : Nat)
  | poll (p : Poll)
  | lost (pathId : Nat) (f : Frame)
  | openPath (peerAddr localAddr : Address) (peerCid : ConnId)
  | setActivePath (pathId : Nat)
  | setPathStatus (pathId : Nat) (state : Path.State)
  | abandonPath (pathId : Nat)
  | expirePath (pathId : Nat)
  | markPathValidated (pathId : Nat)
  | probePath (pathId : Nat) (token : Fixed 8) (nowUs timeoutUs : Nat)
  | clientMigration (newLocalAddr : Address) (nowUs : Nat) (c : Challenge)
  | serverLocalAddress (newLocalAddr : Address) (nowUs : Nat) (c : Challenge)
  | negotiated (multipath : Bool) (localMaxPathId : Nat)
  | handshakeDone

def count (tally : Address → Nat) (addr : Option Address) (n : Nat) (a : Address) : Nat :=
  tally a+if addr = some a then n else 0

/-- `handleWithEcn`, up to its first packet. -/
def enter (s : State) (addr : Option Address) (len nowUs : Nat) : State :=
  let pathId := s.conn.incomingPathId addr
  let path := s.conn.pathForId pathId
  let rebindAddr := s.conn.peerAddressChangeCandidate pathId addr
  let fromRollback : Bool := match addr with | some a => path.matchesMigrationRollbackAddress a | none => false
  let credit (p : PathState) : PathState := if fromRollback then p else {p with path := p.path.onDatagramReceived len}
  let learn (p : PathState) : PathState :=
    match addr with
    | some a => if p.peerAddrSet then p else p.setPeerAddress a
    | none => p
  let conn := if rebindAddr = none then s.conn.updatePath path.id fun p => learn (credit p) else s.conn
  {s with conn := conn,received := count s.received addr len,
          incoming := {addr := addr,len := len,nowUs := nowUs,rebindAddr := rebindAddr,currentPathId := pathId}}

/-- The address that a Handshake packet proves: where the path was before a migration that is under way. -/
def provenAddress (path : PathState) : Option Address :=
  match path.migrationRollback with
  | some rollback => if rollback.peerAddrSet then some rollback.peerAddr else none
  | none => path.peerAddress

def authenticated (s : State) (pathId : Nat) : State :=
  {s with incoming := {s.incoming with lastAuthenticatedPathId := some pathId}}

/-- `handleOnePacket`, without its frames. -/
def packet (s : State) (type : PacketType) (opened : Bool) : State :=
  match type with
  | .oneRtt shortPathId =>
    let path := s.conn.pathForId (shortPathId.getD s.incoming.currentPathId)
    let s := {s with incoming := {s.incoming with currentPathId := path.id}}
    if opened then authenticated s path.id else s
  | .initial | .zeroRtt => if opened then authenticated s (s.conn.pathForId s.incoming.currentPathId).id else s
  | .handshake =>
    let path := s.conn.pathForId s.incoming.currentPathId
    if opened = false then s
    else if s.conn.role = .client then authenticated s path.id
    else
      let conn := s.conn.updatePath path.id fun p => {p with path := p.path.markValidated}
      authenticated {s with conn := {conn with initialKeysDiscarded := true},
                            validated := (provenAddress path).toList++s.validated} path.id

/-- What `handle` does after a packet, before it goes on with the next one. -/
def packetEnd (s : State) (verdict : Option MigrationDecision) (c : Challenge) : State :=
  let incoming := {s.incoming with lastAuthenticatedPathId := none}
  match s.incoming.rebindRecorded,s.incoming.rebindAddr,s.incoming.lastAuthenticatedPathId with
  | false,some addr,some pathId =>
    {s with conn := s.conn.recordAuthenticatedDatagramAddress pathId addr s.incoming.len s.incoming.nowUs verdict c,
            incoming := {incoming with rebindRecorded := true}}
  | _,_,_ => {s with incoming := incoming}

/-- A challenge that is answered proves the address of its path. -/
def frame (s : State) (f : Frame) : State :=
  let conn := s.conn.dispatchFrame s.incoming.currentPathId s.incoming.addr f
  match f with
  | .pathResponse response =>
    let path := s.conn.pathForId s.incoming.currentPathId
    match path.path.validator.recordResponse response.data with
    | some (true,_) => {s with conn := conn,validated := path.peerAddress.toList++s.validated}
    | _ => {s with conn := conn}
  | _ => {s with conn := conn}

def poll (s : State) (p : Poll) : State :=
  match s.conn.pollDatagram p with
  | .ok (some d,conn) => {s with conn := conn,sent := count s.sent d.dest d.len}
  | .ok (none,conn) => {s with conn := conn}
  | .error _ => s

def step (s : State) : Event → State
  | .datagram addr len nowUs => enter s addr len nowUs
  | .ignored addr len => {s with received := count s.received addr len}
  | .packet type opened => packet s type opened
  | .frame f => frame s f
  | .packetEnd verdict c => packetEnd s verdict c
  | .tick nowUs => {s with conn := s.conn.tick nowUs}
  | .poll p => poll s p
  | .lost pathId f => {s with conn := s.conn.requeueLost pathId f}
  | .openPath peerAddr localAddr peerCid => {s with conn := {s.conn with paths := s.conn.paths.openPath peerAddr localAddr peerCid}}
  | .setActivePath pathId => {s with conn := s.conn.setActivePath pathId}
  | .setPathStatus pathId state => {s with conn := s.conn.setPathStatus pathId state}
  | .abandonPath pathId => {s with conn := s.conn.retirePath pathId}
  | .expirePath pathId => {s with conn := s.conn.expireRetiringPath pathId}
  | .markPathValidated pathId =>
    {s with conn := s.conn.markPathValidated pathId,
            validated := ((s.conn.paths.get pathId).bind (·.peerAddress)).toList++s.validated}
  | .probePath pathId token nowUs timeoutUs =>
    match s.conn.probePathId pathId token nowUs timeoutUs with
    | .error _ => s
    | .ok conn => {s with conn := conn}
  | .clientMigration newLocalAddr nowUs c =>
    match s.conn.beginClientActiveMigration newLocalAddr nowUs c with
    | .error _ => s
    | .ok conn => {s with conn := conn}
  | .serverLocalAddress newLocalAddr nowUs c =>
    match s.conn.noteServerLocalAddressChanged newLocalAddr nowUs c with
    | .error _ => s
    | .ok conn => {s with conn := conn}
  | .negotiated multipath localMaxPathId =>
    {s with conn := {s.conn with multipathNegotiated := multipath,localMaxPathId := localMaxPathId}}
  | .handshakeDone => {s with conn := {s.conn with handshakeDone := true}}

/-- A connection as it is made. A client has picked the address of the server itself. -/
structure Fresh (conn : Connection) : Prop where
  others : conn.paths.others = []
  primary : conn.paths.primary =
    {id := 0,path := if conn.role = .client then ({state := .active} : Path).markValidated else {state := .active}}

/-- No more than three times of what came from an address goes there, until it is validated. -/
def Limited (s : State) : Prop := ∀ a, a ∉ s.validated → s.sent a ≤ 3*s.received a

/-- A PATH_RESPONSE in the packet goes to the address of its path. -/
def ResponseWithin (conn : Connection) (validated : List Address) (p : Poll) : Prop :=
  ∀ longs b addr, conn.pollLongs p = .ok longs → p.application = some b →
    b.Fits (applicationPayload (conn.polledPath p longs) p (applicationDst p longs) longs.len) →
    conn.takesResponse (conn.polledPath p longs) p b = true → conn.pathResponseAddr = some addr →
    (conn.polledPath p longs).peerAddress = some addr ∨ addr ∈ validated

/-- The condition. A datagram of unknown origin counts for no address but a validated one, and what it brought is not
left to an address that is learned later; a denied migration, or a Handshake packet while one is under way, counts for no
address but a validated one; a path that goes back finds counters that are no better; no PATH_RESPONSE goes elsewhere;
no PATH_CHALLENGE and no close of a client is padded beyond the allowance. -/
def Paid (s : State) : Event → Prop
  | .datagram addr len _ =>
    let path := s.conn.pathForId (s.conn.incomingPathId addr)
    match addr with
    | none => ∀ a, path.peerAddress = some a → a ∈ s.validated
    | some a => path.peerAddrSet = false → path.Clean s.validated a len
  | .packet .handshake true =>
    let path := s.conn.pathForId s.incoming.currentPathId
    s.conn.role = .server → ∀ a, path.peerAddress = some a → a ∈ s.validated ∨ provenAddress path = some a
  | .packetEnd verdict _ =>
    ∀ addr pathId, s.incoming.rebindRecorded = false → s.incoming.rebindAddr = some addr →
      s.incoming.lastAuthenticatedPathId = some pathId →
      Affordable (s.conn.pathForId pathId) s.validated addr s.incoming.len
        (s.conn.checkAddress (s.conn.pathForId pathId) addr s.incoming.nowUs verdict)
  | .tick nowUs => ∀ p ∈ s.conn.paths.items, TickSettled nowUs s.validated p
  | .poll p => s.conn.CloseWithin p ∧ s.conn.ChallengeWithin p ∧ ResponseWithin s.conn s.validated p
  | _ => True

/-- The bytes of the datagram at hand that wait for a packet to authenticate their address. -/
def tally (s : State) : Tally Address :=
  {sent := s.sent,received := s.received,
   owed := fun a => if s.incoming.rebindRecorded = false ∧ s.incoming.rebindAddr = some a then s.incoming.len else 0}

/-- What carries the rule through a run. -/
def Balanced (s : State) : Prop := Covered 3 s.validated (tally s) s.conn.accounts

theorem Balanced.keeps {s : State} {after : Connection} (balanced : Balanced s) (keeps : Keeps s.validated s.conn after) :
    Balanced {s with conn := after} := keeps _ balanced

theorem Balanced.grow {s : State} {more : List Address} (balanced : Balanced s) (grown : s.validated ⊆ more) :
    Balanced {s with validated := more} :=
  Covered.tally balanced grown fun _ _ => Nat.le_refl _

theorem candidate_none {conn : Connection} {pathId : Nat} {a : Address}
    (none : conn.peerAddressChangeCandidate pathId (some a) = none) :
    (conn.pathForId pathId).peerAddrSet = false ∨ (conn.pathForId pathId).matchesPeerAddress a = true := by
  unfold peerAddressChangeCandidate at none
  dsimp only at none
  split at none
  · exact .inl (by assumption)
  · split at none
    · exact .inr (by assumption)
    · cases none

theorem candidate_some {conn : Connection} {pathId : Nat} {addr : Option Address} {a : Address}
    (some : conn.peerAddressChangeCandidate pathId addr = some a) : addr = .some a := by
  unfold peerAddressChangeCandidate at some
  split at some
  · cases some
  · dsimp only at some
    split at some
    · cases some
    · split at some
      · cases some
      · cases some
        rfl

theorem balanced_enter {s : State} {addr : Option Address} {len nowUs : Nat} (balanced : Balanced s)
    (paid : Paid s (.datagram addr len nowUs)) : Balanced (enter s addr len nowUs) := by
  have found := pathForId_get s.conn (s.conn.incomingPathId addr)
  have sane := get_sane balanced found
  unfold Balanced enter
  dsimp only
  cases rebind : s.conn.peerAddressChangeCandidate (s.conn.incomingPathId addr) addr with
  | some a =>
    -- What came in waits to be authenticated.
    rw [if_neg (Option.some_ne_none a)]
    have here := candidate_some rebind
    subst here
    refine Covered.tally balanced (List.Subset.refl _) fun b _ => ?_
    unfold tally count
    dsimp only
    by_cases same : a = b
    · simp only [same,and_self,if_true]
      omega
    · simp only [same,Option.some.injEq,and_false,if_false]
      omega
  | none =>
    rw [if_pos rfl]
    cases addr with
    | none =>
      refine covered_update balanced found (Account.pays_receive sane
        fun a out holds => (absurd (paid a holds) out : len ≤ 0)) fun a _ => ?_
      unfold tally count
      dsimp only
      simp only [reduceCtorEq,and_false,if_false]
      omega
    | some a =>
      have credited (b : Address) : (tally s).sent b+3*0+3*(if b = a then len else 0)+3*(tally s).received b ≤
          (tally s).sent b+0+3*(tally s).owed b+3*count s.received (some a) len b := by
        unfold tally count
        dsimp only
        by_cases same : a = b
        · simp only [same,if_true]
          omega
        · simp only [same,Ne.symm same,Option.some.injEq,if_false]
          omega
      by_cases set : (s.conn.pathForId (s.conn.incomingPathId (some a))).peerAddrSet = true
      · have holds := PathState.peerAddress_some set
        by_cases back : (s.conn.pathForId (s.conn.incomingPathId (some a))).matchesMigrationRollbackAddress a = true
        · refine covered_update balanced found (?_ : Pays 3 s.validated _ _ (fun _ => 0) (fun _ => 0)) fun b _ => ?_
          · dsimp only
            rw [if_pos back,if_pos set]
            exact .refl sane
          · have more := credited b
            unfold tally at more ⊢
            dsimp only at more ⊢
            simp only [reduceCtorEq,and_false,if_false]
            omega
        · have here : (s.conn.pathForId (s.conn.incomingPathId (some a))).path.peerAddr = a := by
            have matched := (candidate_none rebind).resolve_left (by simp [set])
            simpa [PathState.matchesPeerAddress,set,back] using matched
          refine covered_update balanced found
            (?_ : Pays 3 s.validated _ _ (fun b => if b = a then len else 0) (fun _ => 0)) fun b _ => ?_
          · dsimp only
            rw [if_neg back]
            dsimp only
            rw [if_pos set]
            refine Account.pays_receive sane fun b _ there => ?_
            have same : a = b := by
              rw [← here]
              exact Option.some.inj (holds.symm.trans there)
            rw [if_pos same.symm]
          · have more := credited b
            unfold tally at more ⊢
            dsimp only at more ⊢
            simp only [reduceCtorEq,and_false,if_false]
            omega
      · have unset : (s.conn.pathForId (s.conn.incomingPathId (some a))).peerAddrSet = false := by simpa using set
        have unheld := PathState.peerAddress_none unset
        have back : ¬ (s.conn.pathForId (s.conn.incomingPathId (some a))).matchesMigrationRollbackAddress a = true := by
          intro back
          unfold PathState.matchesMigrationRollbackAddress at back
          cases had : (s.conn.pathForId (s.conn.incomingPathId (some a))).migrationRollback with
          | none => simp [had] at back
          | some rollback =>
            rw [had] at back
            have anchored := sane.anchored rollback.purse (by simp [PathState.account,had]) unheld
            simp [MigrationRollback.purse] at anchored back
            simp [anchored] at back
        have learned : Pays 3 s.validated (s.conn.pathForId (s.conn.incomingPathId (some a))).account
            (((s.conn.pathForId (s.conn.incomingPathId (some a))).account.receive len).learn a)
            (fun b => if b = a then len else 0) (fun _ => 0) :=
          Account.pays_learn sane unheld (paid unset) (fun _ => by simp)
        refine covered_update balanced found
          (?_ : Pays 3 s.validated _ _ (fun b => if b = a then len else 0) (fun _ => 0)) fun b _ => ?_
        · dsimp only
          rw [if_neg back]
          dsimp only
          rw [if_neg set]
          exact learned
        · have more := credited b
          unfold tally at more ⊢
          dsimp only at more ⊢
          simp only [reduceCtorEq,and_false,if_false]
          omega

theorem balanced_packet {s : State} {type : PacketType} {opened : Bool} (balanced : Balanced s)
    (paid : Paid s (.packet type opened)) : Balanced (packet s type opened) := by
  unfold packet
  cases type with
  | initial => dsimp only; split <;> exact balanced
  | zeroRtt => dsimp only; split <;> exact balanced
  | oneRtt shortPathId => dsimp only; split <;> exact balanced
  | handshake =>
    cases opened with
    | false => exact balanced
    | true =>
      dsimp only
      rw [if_neg Bool.noConfusion]
      split
      · exact balanced
      · rename_i server
        have server : s.conn.role = .server := by
          cases role : s.conn.role with
          | client => exact absurd role server
          | server => rfl
        have more : s.validated ⊆ (provenAddress (s.conn.pathForId s.incoming.currentPathId)).toList++s.validated :=
          List.subset_append_right _ _
        have grown := balanced.grow more
        refine grown.keeps (keeps_mark (f := fun p => {p with path := p.path.markValidated}) (fun _ => rfl) ?_)
        intro p found a holds
        rw [pathForId_get] at found
        cases found
        rcases paid server a holds with known | proves
        · exact List.mem_append_right _ known
        · exact List.mem_append_left _ (by simp [proves])

theorem balanced_packetEnd {s : State} {verdict : Option MigrationDecision} {c : Challenge} (balanced : Balanced s)
    (paid : Paid s (.packetEnd verdict c)) : Balanced (packetEnd s verdict c) := by
  unfold packetEnd
  dsimp only
  split
  · rename_i addr pathId open_ rebind authenticated
    have owed : addr ∉ s.validated → s.incoming.len ≤ (tally s).owed addr := by
      intro _
      simp [tally,open_,rebind]
    have recorded := covered_record (c := c) balanced (paid addr pathId open_ rebind authenticated) owed
    exact recorded.tally (List.Subset.refl _) fun a _ => by simp [tally]
  · exact balanced

theorem accounts_retirePath (conn : Connection) (pathId : Nat) : (conn.retirePath pathId).accounts = conn.accounts := by
  unfold retirePath
  cases conn.paths.get pathId with
  | none => rfl
  | some path =>
    have retired : (conn.updatePath pathId fun p => {p with path := p.path.retire}).accounts = conn.accounts :=
      accounts_update conn pathId fun _ => rfl
    dsimp only
    split
    · rfl
    · split <;> exact retired

theorem accounts_expire (conn : Connection) (pathId : Nat) : (conn.expireRetiringPath pathId).accounts = conn.accounts := by
  unfold expireRetiringPath
  cases conn.paths.get pathId with
  | none => rfl
  | some path =>
    have failed : (conn.updatePath pathId fun p => {p with path := p.path.fail}).accounts = conn.accounts :=
      accounts_update conn pathId fun _ => rfl
    dsimp only
    split
    · rfl
    · rw [accounts_promote]
      exact failed

theorem accounts_requeue (conn : Connection) (pathId : Nat) (f : Frame) : (conn.requeueLost pathId f).accounts = conn.accounts := by
  unfold requeueLost
  split
  · split <;> rfl
  · split <;> rfl
  · rfl

theorem balanced_frame {s : State} {f : Frame} (balanced : Balanced s) : Balanced (frame s f) := by
  have same {after : Connection} (same : after.accounts = s.conn.accounts) : Balanced {s with conn := after} :=
    balanced.keeps (.same same)
  unfold frame
  cases f with
  | pathResponse response =>
    dsimp only [dispatchFrame]
    split
    · refine (balanced.grow (List.subset_append_right _ _)).keeps (keeps_response fun a holds => ?_)
      exact List.mem_append_left _ (by simp [holds])
    · rename_i unmatched
      have unchanged : s.conn.recordPathResponse s.incoming.currentPathId response.data = s.conn := by
        unfold recordPathResponse
        dsimp only
        split
        · rename_i validator matched
          exact absurd matched (unmatched validator)
        · rfl
      rw [unchanged]
      exact balanced
  | pathChallenge challenge => exact same (accounts_pathChallenge _ _ _ _)
  | newConnectionId nc => exact same (accounts_register _ _)
  | pathNewConnectionId nc => exact same (accounts_register _ _)
  | pathAbandon pa => exact same (accounts_retirePath _ _)
  | _ => exact balanced

theorem balanced_poll {s : State} {p : Poll} (balanced : Balanced s) (paid : Paid s (.poll p)) : Balanced (poll s p) := by
  obtain ⟨close,challenge,response⟩ := paid
  unfold poll
  split
  · rename_i d after sealed
    obtain ⟨longs,planned,dest,paths⟩ := pollDatagram_charged sealed
    have found : s.conn.paths.get (s.conn.polledPath p longs).id = some (s.conn.polledPath p longs) :=
      polledPath_get s.conn p longs
    have sane := get_sane balanced found
    -- Bytes that go to an address that is not validated go to the address of the path.
    have own (a : Address) (out : a ∉ s.validated) (goes : d.dest = some a) :
        (s.conn.polledPath p longs).peerAddress = some a := by
      rcases dest with path | ⟨b,build,fits,takes,override⟩
      · exact path.symm.trans goes
      · exact (response longs b a planned build fits takes (override.symm.trans goes)).resolve_right out
    have share (a : Address) (out : a ∉ s.validated) (holds : (s.conn.polledPath p longs).peerAddress = some a) :
        (s.conn.polledPath p longs).path.bytesSent+d.len ≤ 3*(s.conn.polledPath p longs).path.bytesReceived := by
      have unvalidated : (s.conn.polledPath p longs).path.isValidated = false := by
        by_contra cleared
        have cleared : (s.conn.polledPath p longs).path.isValidated = true := by simpa using cleared
        exact out (sane.current.known a holds cleared)
      exact Path.allowance_covered unvalidated (pollDatagram_within planned unvalidated close challenge sealed)
        (sane.current.backed a holds out)
    unfold Balanced accounts
    dsimp only
    rw [paths]
    split
    · have charges : Pays 3 s.validated (s.conn.polledPath p longs).account ((s.conn.polledPath p longs).account.charge d.len)
          (fun _ => 0) (fun a => if d.dest = some a then d.len else 0) := by
        refine Account.pays_charge sane share ?_ ?_
        · intro a _ _
          split
          · exact Nat.le_refl _
          · exact Nat.zero_le _
        · intro a out elsewhere
          exact if_neg fun goes => elsewhere (own a out goes)
      refine covered_update balanced found (f := fun q => {q with path := q.path.onDatagramSent d.len}) charges fun a _ => ?_
      unfold tally count
      dsimp only
      omega
    · rename_i elsewhere
      refine balanced.tally (List.Subset.refl _) fun a out => ?_
      have none : d.dest ≠ some a := by
        intro goes
        have path := own a out goes
        exact elsewhere (.inr (goes.trans (congrArg some (PathState.peerAddress_addr path).symm)))
      unfold tally count
      dsimp only
      rw [if_neg none]
      omega
  · rename_i after sealed
    rw [pollDatagram_none sealed]
    exact balanced
  · exact balanced

theorem balanced_step {s : State} {e : Event} (balanced : Balanced s) (paid : Paid s e) : Balanced (step s e) := by
  have same {after : Connection} (same : after.accounts = s.conn.accounts) : Balanced {s with conn := after} :=
    balanced.keeps (.same same)
  unfold step
  cases e with
  | datagram addr len nowUs => exact balanced_enter balanced paid
  | ignored addr len =>
    refine Covered.tally balanced (List.Subset.refl _) fun a _ => ?_
    unfold tally count
    dsimp only
    omega
  | packet type opened => exact balanced_packet balanced paid
  | frame f => exact balanced_frame balanced
  | packetEnd verdict c => exact balanced_packetEnd balanced paid
  | tick nowUs => exact balanced.keeps (keeps_tick paid)
  | poll p => exact balanced_poll balanced paid
  | lost pathId f => exact same (accounts_requeue _ _ _)
  | openPath peerAddr localAddr peerCid =>
    obtain ⟨sane,none⟩ := @PathState.sane_fresh
      {id := s.conn.paths.nextPathId,path := {peerAddr := peerAddr,localAddr := localAddr,peerCid := peerCid},
       peerAddrSet := peerAddr ≠ .unspecified,localAddrSet := localAddr ≠ .unspecified}
      s.validated rfl rfl rfl Bool.noConfusion
    have opened := Covered.opened balanced sane fun a _ => none a
    unfold accounts at opened
    rw [← List.map_singleton,← List.map_append] at opened
    exact opened
  | setActivePath pathId =>
    refine same ?_
    unfold setActivePath
    split <;> rfl
  | setPathStatus pathId state => exact same (accounts_update _ _ fun _ => rfl)
  | abandonPath pathId => exact same (accounts_retirePath _ _)
  | expirePath pathId => exact same (accounts_expire _ _)
  | markPathValidated pathId =>
    refine (balanced.grow (List.subset_append_right _ _)).keeps (keeps_markPath fun p found a holds => ?_)
    exact List.mem_append_left _ (by simp [found,holds])
  | probePath pathId token nowUs timeoutUs =>
    dsimp only
    split
    · exact balanced
    · rename_i probed
      exact balanced.keeps (keeps_probe probed)
  | clientMigration newLocalAddr nowUs c =>
    dsimp only
    split
    · exact balanced
    · rename_i moved
      exact balanced.keeps (keeps_client moved)
  | serverLocalAddress newLocalAddr nowUs c =>
    dsimp only
    split
    · exact balanced
    · rename_i moved
      exact balanced.keeps (keeps_server moved)
  | negotiated multipath localMaxPathId => exact same rfl
  | handshakeDone => exact same rfl

/-- An address that is not validated gets no more than three times of what came from it, throughout a run whose steps all
meet the condition. -/
theorem amplification_limited {conn : Connection} (fresh : Fresh conn) (trusted : List Address) (events : List Event)
    (paid : System.Admits step Paid {conn := conn,validated := trusted} events) :
    System.Throughout Limited step {conn := conn,validated := trusted} events := by
  have known : ∀ s, System.Reaches (· = {conn := conn,validated := trusted}) step Paid s → Balanced s := by
    intro s reached
    refine reached.invariant Balanced ?_ fun s e balanced paid => balanced_step balanced paid
    rintro s rfl
    have received : conn.paths.primary.path.bytesReceived = 0 := by rw [fresh.primary]; dsimp only; split <;> rfl
    have sent : conn.paths.primary.path.bytesSent = 0 := by rw [fresh.primary]; dsimp only; split <;> rfl
    have settled : conn.paths.primary.migrationRollback = none := by rw [fresh.primary]
    have nowhere : conn.paths.primary.path.isValidated = true → conn.paths.primary.peerAddress = none := by
      rw [fresh.primary]
      exact fun _ => rfl
    obtain ⟨sane,none⟩ := PathState.sane_fresh received sent settled nowhere
    have start : Covered 3 trusted _ [conn.paths.primary.account] := Covered.opened .empty sane fun a _ => none a
    unfold Balanced accounts PathSet.items
    rw [fresh.others]
    exact start.tally (List.Subset.refl _) fun a _ => by simp [tally]
  exact System.Throughout.of_reaches (fun s reached a out => (known s reached).within out) (.start rfl) paid

def peer (host : Byte) : Address := .ipv4 ⟨[10,0,0,host],rfl⟩ 443

/-- A server as it is made. -/
def served : Connection := {role := .server,paths := {primary := {id := 0,path := {state := .active}}}}

/-- A client validates its address, and goes over to another one with a datagram of this length. The server has a small
packet to send, and a buffer of 1200 bytes. -/
def moves (datagramLen : Nat) : List Event :=
  [.datagram (some (peer 1)) 1200 0,.packet .handshake true,.handshakeDone,.datagram (some (peer 2)) datagramLen 1000,
   .packet (.oneRtt none) true,.packetEnd none ⟨some ⟨List.replicate 8 7,rfl⟩,3000⟩,
   .poll {dstLen := 1200,scidLen := 8,application := some {payload := 9,pnLen := 2,ackEliciting := true}}]

/-- The datagram that comes from the new address is long enough for the padded challenge. -/
theorem amplification_limited_moved : System.Throughout Limited step {conn := served,validated := []} (moves 1200) := by
  refine amplification_limited ⟨rfl,rfl⟩ [] (moves 1200) ⟨fun _ => ?_,fun _ a holds => .inr holds,trivial,?_,trivial,?_,
    ⟨?_,?_,?_⟩,trivial⟩
  · exact .inr ⟨rfl,Nat.le_refl _,Nat.zero_le _⟩
  · intro unset
    cases unset
  · intro addr pathId open_ rebind authenticated
    cases rebind
    cases authenticated
    intro rollback none
    cases none
  · intro b none
    cases none
  · intro longs b planned build open_ unvalidated fits first
    cases planned
    cases build
    decide
  · intro longs b addr planned build fits takes
    cases planned
    cases build
    cases takes

/-- A datagram of 50 bytes from a new address draws a challenge of 1200 bytes to it. -/
theorem challenge_amplifies : ¬ ∀ (conn : Connection) (trusted : List Address) (events : List Event), Fresh conn →
    Limited (System.run step {conn := conn,validated := trusted} events) := by
  intro claimed
  have limited := claimed served [] (moves 50) ⟨rfl,rfl⟩ (peer 2) (by decide)
  revert limited
  decide

end Amplification

end QuicZig.Conn
