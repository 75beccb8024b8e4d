import QuicZig.Conn.PathState
import QuicZig.Frame.Types

/-! The connection IDs that the peer has issued: how one is registered, retired, given
to a path, and recognised by its stateless reset token. -/
namespace QuicZig.Conn.Paths
open Machine Codec Wire

inductive Role where
  | client
  | server
  deriving DecidableEq, Repr

structure IssuedCid where
  pathId : Nat
  sequenceNumber : Nat
  retirePriorTo : Nat
  cid : ConnId
  statelessResetToken : Fixed 16
  deriving DecidableEq, Repr

structure ConnectionClose where
  isTransport : Bool
  errorCode : Nat
  reason : String
  deriving DecidableEq, Repr

/-- The fields of the connection that its paths and the peer's connection IDs depend on. -/
structure Connection where
  role : Role
  paths : PathSet
  peerCids : List IssuedCid := []
  peerDcid : ConnId := {}
  peerDcidSet : Bool := false
  /-- `local_transport_params.active_connection_id_limit` -/
  activeConnectionIdLimit : Nat := 2
  multipathNegotiated : Bool := false
  localMaxPathId : Nat := 0
  handshakeDone : Bool := false
  /-- The read keys of the Handshake level are there. -/
  handshakeReadKeys : Bool := false
  initialKeysDiscarded : Bool := false
  preferredAddressAdvertised : Bool := false
  pathResponse : Option (Fixed 8) := none
  pathResponsePathId : Nat := 0
  pathResponseAddr : Option Address := none
  pathChallenge : Option (Fixed 8) := none
  pathChallengePathId : Nat := 0
  pendingClose : Option ConnectionClose := none
  deriving DecidableEq, Repr

def transportErrorFrameEncoding : Nat := 0x07

def transportErrorConnectionIdLimit : Nat := 0x09

def transportErrorProtocolViolation : Nat := 0x0a

namespace Connection

def close (conn : Connection) (isTransport : Bool) (errorCode : Nat) (reason : String) : Connection :=
  if conn.pendingClose.isSome then conn else {conn with pendingClose := some ⟨isTransport,errorCode,reason⟩}

def updatePath (conn : Connection) (pathId : Nat) (f : PathState → PathState) : Connection :=
  {conn with paths := conn.paths.update pathId f}

/-- A path takes another destination ID; on the primary one the long headers do too. -/
def setPeerCid (conn : Connection) (path : PathState) (cid : ConnId) : Connection :=
  let conn := conn.updatePath path.id (·.setPeerCid cid)
  if path.id = 0 then {conn with peerDcid := cid,peerDcidSet := true} else conn

end Connection

def cidActiveCountForPath (items : List IssuedCid) (pathId : Nat) : Nat := items.countP (·.pathId = pathId)

def firstCidForPath (items : List IssuedCid) (pathId : Nat) : Option ConnId :=
  (items.find? (·.pathId = pathId)).map (·.cid)

/-- Whether the entry goes when the IDs of a path below a sequence number are retired. -/
def IssuedCid.goes (item : IssuedCid) (pathId retirePriorTo : Nat) : Bool :=
  item.pathId = pathId && item.sequenceNumber < retirePriorTo

/-- Whether the ID in use was among the entries removed, and the entries that stay. -/
def removeCidsPriorTo (items : List IssuedCid) (pathId retirePriorTo : Nat) (current : ConnId) :
    Bool × List IssuedCid :=
  (items.any fun item => item.goes pathId retirePriorTo && item.cid = current,
   items.filter fun item => !item.goes pathId retirePriorTo)

namespace Connection

def promotePeerCidForPath (conn : Connection) (pathId : Nat) : Connection :=
  match conn.paths.get pathId with
  | none => conn
  | some _ =>
    let successor := (firstCidForPath conn.peerCids pathId).getD {}
    let conn := conn.updatePath pathId (·.setPeerCid successor)
    if pathId = 0 then {conn with peerDcid := successor,peerDcidSet := successor.len ≠ 0} else conn

def retirePeerCidsPriorTo (conn : Connection) (pathId retirePriorTo : Nat) : Connection :=
  let current := ((conn.paths.get pathId).map (·.path.peerCid)).getD {}
  let (removedCurrent,kept) := removeCidsPriorTo conn.peerCids pathId retirePriorTo current
  let conn := {conn with peerCids := kept}
  if removedCurrent then conn.promotePeerCidForPath pathId else conn

/-- The answer, and the connection that closes when it is no. -/
def pathIdAllowedByLocalLimit (conn : Connection) (pathId : Nat) : Bool × Connection :=
  if pathId ≤ conn.localMaxPathId then (true,conn)
  else (false,conn.close true transportErrorProtocolViolation "multipath path id exceeds local limit")

/-- The tail of `registerPeerCid`: a new entry, which the path uses when it has no ID yet, or when it is the first. -/
def appendPeerCid (conn : Connection) (frame : IssuedCid) : Connection :=
  let conn := {conn with peerCids := conn.peerCids++[frame]}
  let conn :=
    match conn.paths.get frame.pathId with
    | none => conn
    | some path =>
      if path.path.peerCid.len = 0 ∨ frame.sequenceNumber = 0 then
        conn.updatePath frame.pathId (·.setPeerCid frame.cid)
      else conn
  if frame.pathId = 0 ∧ (conn.peerDcid.len = 0 ∨ frame.sequenceNumber = 0) then
    {conn with peerDcid := frame.cid,peerDcidSet := true}
  else conn

def registerPeerCid (conn : Connection) (frame : IssuedCid) : Connection :=
  if frame.retirePriorTo > frame.sequenceNumber then
    conn.close true transportErrorFrameEncoding "invalid connection id retire_prior_to"
  else if conn.multipathNegotiated ∧ (conn.pathIdAllowedByLocalLimit frame.pathId).1 = false then
    (conn.pathIdAllowedByLocalLimit frame.pathId).2
  else
    let same (item : IssuedCid) : Bool := item.pathId = frame.pathId && item.sequenceNumber = frame.sequenceNumber
    match conn.peerCids.find? fun item => same item || (frame.cid.len ≠ 0 && item.cid = frame.cid) with
    | some item =>
      if same item then
        if item.cid ≠ frame.cid ∨ item.statelessResetToken ≠ frame.statelessResetToken then
          conn.close true transportErrorProtocolViolation "connection id sequence reused"
        else if frame.retirePriorTo > item.retirePriorTo then
          let raised := FirstMatch.update same (fun item => {item with retirePriorTo := frame.retirePriorTo}) conn.peerCids
          {conn with peerCids := raised}.retirePeerCidsPriorTo frame.pathId frame.retirePriorTo
        else conn
      else conn.close true transportErrorProtocolViolation "connection id reused across paths"
    | none =>
      let conn := conn.retirePeerCidsPriorTo frame.pathId frame.retirePriorTo
      if cidActiveCountForPath conn.peerCids frame.pathId ≥ conn.activeConnectionIdLimit then
        conn.close true transportErrorConnectionIdLimit "active connection id limit exceeded"
      else conn.appendPeerCid frame

def handleNewConnectionId (conn : Connection) (nc : Frame.NewConnectionId) : Connection :=
  conn.registerPeerCid ⟨0,nc.sequenceNumber,nc.retirePriorTo,nc.connectionId,nc.statelessResetToken⟩

def handlePathNewConnectionId (conn : Connection) (nc : Frame.PathNewConnectionId) : Connection :=
  conn.registerPeerCid ⟨nc.pathId,nc.sequenceNumber,nc.retirePriorTo,nc.connectionId,nc.statelessResetToken⟩

/-- The ID that a migration of the path goes over to, which leaves the registry. -/
def consumeFreshPeerCidForMigration (conn : Connection) (path : PathState) : Option (ConnId × Connection) :=
  let fresh (item : IssuedCid) : Bool := item.pathId = path.id && item.cid ≠ path.path.peerCid
  match conn.peerCids.find? fresh with
  | none => none
  | some item => some (item.cid,{conn with peerCids := conn.peerCids.eraseP fresh})

end Connection

namespace Connection

theorem close_frame (conn : Connection) (isTransport : Bool) (errorCode : Nat) (reason : String) :
    ∃ pendingClose, pendingClose ≠ none ∧
      conn.close isTransport errorCode reason = {conn with pendingClose := pendingClose} := by
  unfold close
  split
  · rename_i closed
    exact ⟨conn.pendingClose,Option.isSome_iff_ne_none.mp closed,rfl⟩
  · exact ⟨_,Option.some_ne_none _,rfl⟩

/-- What bounds the IDs that the peer may issue. -/
def settings (conn : Connection) : Nat × Bool × Nat :=
  (conn.activeConnectionIdLimit,conn.multipathNegotiated,conn.localMaxPathId)

theorem limit_of_settings {before after : Connection} (same : after.settings = before.settings) :
    after.activeConnectionIdLimit = before.activeConnectionIdLimit := congrArg Prod.fst same

/-- Only the paths and the destination ID of the long headers are not the same. -/
structure Readdressed (before after : Connection) : Prop where
  peerCids : after.peerCids = before.peerCids
  pendingClose : after.pendingClose = before.pendingClose
  settings : after.settings = before.settings

theorem Readdressed.refl (conn : Connection) : Readdressed conn conn := ⟨rfl,rfl,rfl⟩

theorem promote_readdressed (conn : Connection) (pathId : Nat) : Readdressed conn (conn.promotePeerCidForPath pathId) := by
  unfold promotePeerCidForPath
  split
  · exact .refl conn
  · dsimp only
    split <;> exact ⟨rfl,rfl,rfl⟩

/-- The entries that a retirement leaves. -/
def kept (conn : Connection) (pathId retirePriorTo : Nat) : List IssuedCid :=
  conn.peerCids.filter fun item => !item.goes pathId retirePriorTo

theorem retire_readdressed (conn : Connection) (pathId retirePriorTo : Nat) :
    Readdressed {conn with peerCids := conn.kept pathId retirePriorTo} (conn.retirePeerCidsPriorTo pathId retirePriorTo) := by
  unfold retirePeerCidsPriorTo removeCidsPriorTo
  dsimp only
  split
  · exact promote_readdressed {conn with peerCids := conn.kept pathId retirePriorTo} pathId
  · exact .refl _

theorem append_readdressed (conn : Connection) (frame : IssuedCid) :
    Readdressed {conn with peerCids := conn.peerCids++[frame]} (conn.appendPeerCid frame) := by
  unfold appendPeerCid
  dsimp only
  cases conn.paths.get frame.pathId with
  | none =>
    dsimp only
    split <;> exact ⟨rfl,rfl,rfl⟩
  | some path =>
    dsimp only
    split <;> split <;> exact ⟨rfl,rfl,rfl⟩

end Connection

def statelessResetTokenFromDatagram (bytes : List Byte) : Option (Fixed 16) :=
  if long : bytes.length < 21 then none
  else if bytes.head (by intro none; simp [none] at long) &&& 0x80 ≠ 0 then none
  else some ⟨bytes.drop (bytes.length-16),by rw [List.length_drop]; omega⟩

def Connection.isKnownStatelessReset (conn : Connection) (bytes : List Byte) : Bool :=
  match statelessResetTokenFromDatagram bytes with
  | none => false
  | some token => conn.peerCids.any (·.statelessResetToken = token)

end QuicZig.Conn.Paths
