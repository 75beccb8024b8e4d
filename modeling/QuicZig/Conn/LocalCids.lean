import QuicZig.Conn.PeerCids

/-! The connection IDs that this endpoint issues: how one is chosen, remembered, advertised
and retired, on the first path and on the further ones. -/
namespace QuicZig.Conn.LocalIds
open Machine Codec Wire
open Paths (IssuedCid ConnectionClose cidActiveCountForPath firstCidForPath removeCidsPriorTo transportErrorFrameEncoding
  transportErrorProtocolViolation)

def maxSupportedActiveConnectionIdLimit : Nat := 16

def incomingRetireCidCap : Nat := 64

inductive CidError where
  | dcidTooLong
  | connectionIdAlreadyInUse
  | connectionIdLimitExceeded
  | connectionIdRequired
  | pathLimitExceeded
  | pathNotFound
  deriving DecidableEq, Repr

structure ConnectionIdProvision where
  connectionId : List Byte
  statelessResetToken : Fixed 16
  retirePriorTo : Nat := 0
  deriving DecidableEq, Repr

/-- What the IDs of this endpoint change in a path. -/
structure LocalPath where
  id : Nat
  localCid : ConnId := {}
  nextLocalCidSeq : Nat := 0
  deriving DecidableEq, Repr

/-- An ID that the peer has been given, or is going to be. -/
structure Issued where
  pathId : Nat
  sequenceNumber : Nat
  cid : ConnId
  deriving DecidableEq, Repr

def issuedAs (frame : IssuedCid) : Issued := ⟨frame.pathId,frame.sequenceNumber,frame.cid⟩

/-- The fields of the connection that issuing depends on. `sentNewConnectionIds` are the frames that packets have carried.
`incomingLocalCid` is the entry of the ID that the datagram was sent to, of which the code keeps the number alone.
`issued` and `chosen` are history that the code does not keep: every ID it ever gave out, and the sequence numbers that
`replenishLocalConnectionIds` picked, the newest first. -/
structure LocalCids where
  paths : List LocalPath := [{id := 0}]
  nextPathId : Nat := 1
  localCids : List IssuedCid := []
  localScid : ConnId := {}
  newConnectionIds : List IssuedCid := []
  pathNewConnectionIds : List IssuedCid := []
  sentNewConnectionIds : List IssuedCid := []
  pathCidsBlocked : Option (Nat × Nat) := none
  peerActiveConnectionIdLimit : Option Nat := none
  multipathNegotiated : Bool := false
  localMaxPathId : Nat := 0
  peerMaxPathId : Nat := 0
  incomingRetireCidCount : Nat := 0
  incomingLocalCid : Option IssuedCid := none
  pendingClose : Option ConnectionClose := none
  issued : List Issued := []
  chosen : Nat → List Nat := fun _ => []

namespace LocalCids

def close (conn : LocalCids) (errorCode : Nat) (reason : String) : LocalCids :=
  {conn with pendingClose := conn.pendingClose <|> some ⟨true,errorCode,reason⟩}

def getPath (conn : LocalCids) (pathId : Nat) : Option LocalPath := conn.paths.find? (·.id = pathId)

def updatePath (conn : LocalCids) (pathId : Nat) (f : LocalPath → LocalPath) : LocalCids :=
  {conn with paths := conn.paths.map fun p => if p.id = pathId then f p else p}

def note (conn : LocalCids) (given : Issued) : LocalCids := {conn with issued := given::conn.issued}

def holds (pathId sequenceNumber : Nat) (item : IssuedCid) : Bool :=
  item.pathId = pathId && item.sequenceNumber = sequenceNumber

def localCidSequenceExists (conn : LocalCids) (pathId sequenceNumber : Nat) : Bool :=
  conn.localCids.any (holds pathId sequenceNumber)

def localCidForSequence (conn : LocalCids) (pathId sequenceNumber : Nat) : Option IssuedCid :=
  conn.localCids.find? (holds pathId sequenceNumber)

/-- The entry that `findLocalCidSequence` finds, of whatever path it is. -/
def findLocalCid (conn : LocalCids) (dcid : List Byte) : Option IssuedCid := conn.localCids.find? (·.cid.bytes = dcid)

def currentIncomingLocalCidSeq (conn : LocalCids) : Option Nat := conn.incomingLocalCid.map (·.sequenceNumber)

def peerLimit (conn : LocalCids) : Nat :=
  match conn.peerActiveConnectionIdLimit with
  | none => 2
  | some limit => min limit maxSupportedActiveConnectionIdLimit

def localConnectionIdIssueBudgetAfterRetirePriorTo (conn : LocalCids) (pathId retirePriorTo : Nat) : Nat :=
  conn.peerLimit - conn.localCids.countP fun item => item.pathId = pathId && retirePriorTo ≤ item.sequenceNumber

def localConnectionIdIssueBudget (conn : LocalCids) (pathId : Nat) : Nat :=
  conn.localConnectionIdIssueBudgetAfterRetirePriorTo pathId 0

def nextLocalCidSequence (conn : LocalCids) (pathId : Nat) : Nat :=
  let live := conn.localCids.foldl (fun next item =>
    if item.pathId = pathId ∧ item.sequenceNumber ≥ next then item.sequenceNumber+1 else next) 0
  match conn.getPath pathId with
  | none => live
  | some path => max live path.nextLocalCidSeq

def ensureCanIssueCidForPathId (conn : LocalCids) (pathId : Nat) : Except CidError Unit :=
  if pathId = 0 then .ok ()
  else if conn.multipathNegotiated ∧ pathId > conn.localMaxPathId then .error .pathLimitExceeded
  else if (conn.getPath pathId).isSome then .ok ()
  else if conn.multipathNegotiated then .ok ()
  else .error .pathNotFound

def ensureCanIssueLocalCid (conn : LocalCids) (pathId sequenceNumber retirePriorTo cidLen : Nat) : Except CidError Unit :=
  if cidLen = 0 then .ok ()
  else if conn.localCidSequenceExists pathId sequenceNumber then .ok ()
  else if conn.localConnectionIdIssueBudgetAfterRetirePriorTo pathId retirePriorTo = 0 then .error .connectionIdLimitExceeded
  else .ok ()

def ensureLocalCidAvailable (conn : LocalCids) (pathId sequenceNumber : Nat) (cid : ConnId) : Except CidError Unit :=
  if cid.len = 0 then .ok ()
  else if conn.localCids.any fun item => if holds pathId sequenceNumber item then item.cid ≠ cid else item.cid = cid then
    .error .connectionIdAlreadyInUse
  else .ok ()

def promoteLocalCidForPath (conn : LocalCids) (pathId : Nat) : LocalCids :=
  match conn.getPath pathId with
  | none => conn
  | some _ =>
    let successor := firstCidForPath conn.localCids pathId
    let conn := conn.updatePath pathId ({· with localCid := successor.getD {}})
    if pathId = 0 then {conn with localScid := successor.getD conn.localScid} else conn

def retireLocalCidsPriorTo (conn : LocalCids) (pathId retirePriorTo : Nat) : LocalCids :=
  {conn with localCids := (removeCidsPriorTo conn.localCids pathId retirePriorTo {}).2}.promoteLocalCidForPath pathId

/-- The tail of `rememberLocalCid`: a new entry, and the mark of its path if that is open. -/
def appendLocalCid (conn : LocalCids) (frame : IssuedCid) : LocalCids :=
  let conn := {conn with localCids := conn.localCids++[frame]}
  match conn.getPath frame.pathId with
  | none => conn
  | some path =>
    let first := decide (path.localCid.len = 0 ∨ frame.sequenceNumber = 0)
    let conn := if first ∧ frame.pathId = 0 then {conn with localScid := frame.cid} else conn
    conn.updatePath frame.pathId fun p =>
      {p with
        localCid := if first then frame.cid else p.localCid
        nextLocalCidSeq := max p.nextLocalCidSeq (frame.sequenceNumber+1)}

def rememberLocalCid (conn : LocalCids) (frame : IssuedCid) : Except CidError LocalCids :=
  if frame.cid.len = 0 then .ok conn
  else if frame.retirePriorTo > frame.sequenceNumber then
    .ok (conn.close transportErrorFrameEncoding "invalid retire_prior_to")
  else do
    conn.ensureLocalCidAvailable frame.pathId frame.sequenceNumber frame.cid
    if conn.localCidSequenceExists frame.pathId frame.sequenceNumber then
      -- the entry is given the values it has, and the mark of the path is not looked at
      return {conn with localCids := FirstMatch.update (holds frame.pathId frame.sequenceNumber) (fun _ => frame) conn.localCids}
    return (conn.retireLocalCidsPriorTo frame.pathId frame.retirePriorTo).appendLocalCid frame

/-- The frames that wait for the kind of path. -/
def pendingFor (conn : LocalCids) (pathId : Nat) : List IssuedCid :=
  if pathId = 0 then conn.newConnectionIds else conn.pathNewConnectionIds

def appendFrame (conn : LocalCids) (frame : IssuedCid) : LocalCids :=
  if frame.pathId = 0 then {conn with newConnectionIds := conn.newConnectionIds++[frame]}
  else {conn with pathNewConnectionIds := conn.pathNewConnectionIds++[frame]}

def queueLocalConnectionId (conn : LocalCids) (frame : IssuedCid) : Except CidError LocalCids := do
  conn.ensureCanIssueCidForPathId frame.pathId
  conn.ensureCanIssueLocalCid frame.pathId frame.sequenceNumber frame.retirePriorTo frame.cid.len
  conn.ensureLocalCidAvailable frame.pathId frame.sequenceNumber frame.cid
  match (conn.pendingFor frame.pathId).find? (holds frame.pathId frame.sequenceNumber) with
  | some item => if item.cid ≠ frame.cid then .error .connectionIdAlreadyInUse else return conn
  | none => do
    let conn ← conn.rememberLocalCid frame
    return (conn.appendFrame frame).note (issuedAs frame)

/-- The IDs that a blocked peer has not got yet, again: the live ones of the listed numbers. -/
def requeueBlocked (conn : LocalCids) (pathId : Nat) : List Nat → Nat → Except CidError Nat × LocalCids
  | [],queued => (.ok queued,conn)
  | seq::rest,queued =>
    match conn.localCidForSequence pathId seq with
    | none => conn.requeueBlocked pathId rest queued
    | some issued =>
      match conn.queueLocalConnectionId issued with
      | .error e => (.error e,conn)
      | .ok conn => conn.requeueBlocked pathId rest (queued+1)

def queueProvisions (conn : LocalCids) (pathId : Nat) : List ConnectionIdProvision → Nat → Except CidError Nat × LocalCids
  | [],queued => (.ok queued,conn)
  | provision::rest,queued =>
    if conn.localConnectionIdIssueBudget pathId = 0 then (.ok queued,conn) else
    let sequenceNumber := conn.nextLocalCidSequence pathId
    match ConnId.fromSlice provision.connectionId with
    | .error _ => (.error .dcidTooLong,conn)
    | .ok cid =>
      match conn.queueLocalConnectionId ⟨pathId,sequenceNumber,provision.retirePriorTo,cid,provision.statelessResetToken⟩ with
      | .error e => (.error e,conn)
      | .ok conn =>
        queueProvisions {conn with chosen := Function.update conn.chosen pathId (sequenceNumber::conn.chosen pathId)} pathId rest
          (queued+1)

def clearSatisfiedPathCidsBlocked (conn : LocalCids) (pathId : Nat) : LocalCids :=
  match conn.pathCidsBlocked with
  | none => conn
  | some (blocked,next) =>
    if blocked = pathId ∧ conn.nextLocalCidSequence pathId > next then {conn with pathCidsBlocked := none} else conn

/-- The numbers on the path that the peer says it waits for. -/
def blockedSequences (conn : LocalCids) (pathId : Nat) : List Nat :=
  match conn.pathCidsBlocked with
  | some (id,next) => if id = pathId then List.range' next (conn.nextLocalCidSequence pathId - next) else []
  | none => []

def replenishLocalConnectionIds (conn : LocalCids) (pathId : Nat) (provisions : List ConnectionIdProvision) :
    Except CidError Nat × LocalCids :=
  match conn.requeueBlocked pathId (conn.blockedSequences pathId) 0 with
  | (.error e,conn) => (.error e,conn)
  | (.ok queued,conn) =>
    match conn.queueProvisions pathId provisions queued with
    | (.error e,conn) => (.error e,conn)
    | (.ok queued,conn) => (.ok queued,if queued > 0 then conn.clearSatisfiedPathCidsBlocked pathId else conn)

def replenishConnectionIds (conn : LocalCids) (provisions : List ConnectionIdProvision) : Except CidError Nat × LocalCids :=
  conn.replenishLocalConnectionIds 0 provisions

def replenishPathConnectionIds (conn : LocalCids) (pathId : Nat) (provisions : List ConnectionIdProvision) :
    Except CidError Nat × LocalCids :=
  match conn.ensureCanIssueCidForPathId pathId with
  | .error e => (.error e,conn)
  | .ok _ => conn.replenishLocalConnectionIds pathId provisions

/-- An ID that reaches the peer by another way than a frame. -/
def noteNonempty (conn : LocalCids) (given : Issued) : LocalCids := if given.cid.len = 0 then conn else conn.note given

def setLocalScid (conn : LocalCids) (cid : List Byte) : Except CidError Unit × LocalCids :=
  match ConnId.fromSlice cid with
  | .error _ => (.error .dcidTooLong,conn)
  | .ok cid =>
    let conn := {conn with localScid := cid}.updatePath 0 ({· with localCid := cid})
    match conn.rememberLocalCid ⟨0,0,0,cid,⟨List.replicate 16 0,rfl⟩⟩ with
    | .error e => (.error e,conn)
    | .ok conn => (.ok (),conn.noteNonempty ⟨0,0,cid⟩)

/-- The checks of `openPath` once both sides allow several paths. -/
def ensureCanOpenPath (conn : LocalCids) (localCid peerCid : ConnId) : Except CidError Unit :=
  if !conn.multipathNegotiated then .ok ()
  else if conn.nextPathId > conn.peerMaxPathId then .error .pathLimitExceeded
  else if conn.nextPathId > conn.localMaxPathId then .error .pathLimitExceeded
  else if localCid.len = 0 ∨ peerCid.len = 0 then .error .connectionIdRequired
  else do
    conn.ensureCanIssueLocalCid conn.nextPathId 0 0 localCid.len
    conn.ensureLocalCidAvailable conn.nextPathId 0 localCid

/-- `PathSet.openPath` -/
def addPath (conn : LocalCids) (localCid : ConnId) : LocalCids :=
  {conn with paths := conn.paths++[⟨conn.nextPathId,localCid,0⟩],nextPathId := conn.nextPathId+1}

/-- The ID of the new path takes the sequence number 0 there. A failure leaves nothing behind. -/
def openPath (conn : LocalCids) (localCid peerCid : ConnId) : Except CidError LocalCids := do
  conn.ensureCanOpenPath localCid peerCid
  let opened ← (conn.addPath localCid).rememberLocalCid ⟨conn.nextPathId,0,0,localCid,⟨List.replicate 16 0,rfl⟩⟩
  return opened.noteNonempty ⟨conn.nextPathId,0,localCid⟩

def retireLocalCid (conn : LocalCids) (pathId sequenceNumber : Nat) : LocalCids :=
  let removed := (conn.localCids.filter (holds pathId sequenceNumber)).getLast?
  let conn := {conn with localCids := conn.localCids.filter fun item => !holds pathId sequenceNumber item}
  match removed,conn.getPath pathId with
  | some item,some path => if path.localCid = item.cid then conn.promoteLocalCidForPath pathId else conn
  | _,_ => conn

def dropPendingLocalCidAdvertisement (conn : LocalCids) (pathId sequenceNumber : Nat) : LocalCids :=
  if pathId = 0 then
    {conn with newConnectionIds := conn.newConnectionIds.filter fun item => item.sequenceNumber ≠ sequenceNumber}
  else {conn with pathNewConnectionIds := conn.pathNewConnectionIds.filter fun item => !holds pathId sequenceNumber item}

def smallestLiveLocalCidSeq (conn : LocalCids) (pathId : Nat) : Option Nat :=
  ((conn.localCids.filter (·.pathId = pathId)).map (·.sequenceNumber)).min?

def handleRetireConnectionId (conn : LocalCids) (sequenceNumber : Nat) : LocalCids :=
  let conn := {conn with incomingRetireCidCount := saturatingAdd conn.incomingRetireCidCount 1}
  if conn.incomingRetireCidCount > incomingRetireCidCap then
    conn.close transportErrorProtocolViolation "retire_connection_id flood"
  else if conn.currentIncomingLocalCidSeq = some sequenceNumber then
    conn.close transportErrorProtocolViolation "retire_connection_id refers to receiving CID"
  else if (conn.getPath 0).any (sequenceNumber ≥ ·.nextLocalCidSeq) then
    conn.close transportErrorProtocolViolation "retire_connection_id sequence not yet issued"
  else if (conn.smallestLiveLocalCidSeq 0).any (sequenceNumber < ·) then conn
  else (conn.retireLocalCid 0 sequenceNumber).dropPendingLocalCidAdvertisement 0 sequenceNumber

def handlePathRetireConnectionId (conn : LocalCids) (pathId sequenceNumber : Nat) : LocalCids :=
  if (conn.getPath pathId).any (sequenceNumber ≥ ·.nextLocalCidSeq) then
    conn.close transportErrorProtocolViolation "path_retire_connection_id sequence not yet issued"
  else (conn.retireLocalCid pathId sequenceNumber).dropPendingLocalCidAdvertisement pathId sequenceNumber

/-- `handlePathCidsBlocked`, behind the gate that the path is within the local limit. -/
def handlePathCidsBlocked (conn : LocalCids) (pathId nextSequenceNumber : Nat) : LocalCids :=
  if pathId > conn.localMaxPathId then
    conn.close transportErrorProtocolViolation "multipath path id exceeds local limit"
  else if nextSequenceNumber > conn.nextLocalCidSequence pathId then
    conn.close transportErrorProtocolViolation "path cids blocked skips local cid sequence"
  else {conn with pathCidsBlocked := some (pathId,nextSequenceNumber)}

/-- A packet takes the first frame that waits for the kind of path. -/
def packNewConnectionId (conn : LocalCids) (onFirstPath : Bool) : LocalCids :=
  if onFirstPath then
    match conn.newConnectionIds with
    | [] => conn
    | frame::rest => {conn with newConnectionIds := rest,sentNewConnectionIds := frame::conn.sentNewConnectionIds}
  else
    match conn.pathNewConnectionIds with
    | [] => conn
    | frame::rest => {conn with pathNewConnectionIds := rest,sentNewConnectionIds := frame::conn.sentNewConnectionIds}

/-- `dispatchLostControlFramesOnPath` for the two frames that issue an ID. -/
def requeueLost (conn : LocalCids) (frame : IssuedCid) : Except CidError LocalCids :=
  if conn.localCidSequenceExists frame.pathId frame.sequenceNumber then conn.queueLocalConnectionId frame else .ok conn

end LocalCids

end QuicZig.Conn.LocalIds
