import Mathlib
import QuicZig.Conn.Migration
import QuicZig.Wire.Varint

/-! How long a datagram becomes: the room of each packet, the packets one behind the other,
the padding, and the path that is charged for it. -/
namespace QuicZig.Conn.Paths
open Machine Codec Wire

/-- `conn.mtu`. The peer cannot lower it, as less than 1200 bytes is no limit it may set. -/
def defaultMtu : Nat := 1200

def minInitialDatagramLen : Nat := defaultMtu

def maxRecvPlaintext : Nat := 4096

/-- What the frame builders put into one packet. Which frames there are to send, and whether congestion lets them go,
is not modelled. -/
structure Build where
  payload : Nat
  pnLen : Nat
  ackEliciting : Bool := false
  /-- The one frame is CONNECTION_CLOSE. -/
  close : Bool := false
  /-- The PATH_RESPONSE in the queue is among the frames. -/
  pathResponse : Bool := false
  /-- Behind these frames there is room for the PATH_CHALLENGE in the queue. -/
  pathChallenge : Bool := false
  deriving DecidableEq, Repr

/-- One call of `poll`. A level that has no keys, or nothing to send, has no build. -/
structure Poll where
  dstLen : Nat
  scidLen : Nat
  /-- The length of the token of a Retry, which a client sends in each Initial packet. -/
  retryTokenLen : Nat := 0
  initial : Option Build := none
  earlyData : Option Build := none
  handshake : Option Build := none
  application : Option Build := none
  /-- The size of the packets that the path is known to carry. -/
  pmtu : Nat := 1200
  /-- The size that the next probe of the path would have. -/
  probe : Option Nat := none
  /-- No more ack-eliciting packets of the path can be tracked. -/
  trackerFull : Bool := false
  /-- The path with something to send that `applicationPathForPoll` finds when no validation is under way. -/
  other : Nat := 0
  deriving DecidableEq, Repr

/-- What an unvalidated path lets a packet be, behind `used` bytes of the datagram. -/
def amplificationRoom (path : Path) (room used : Nat) : Nat :=
  if path.isValidated then room else min room (path.antiAmpAllowance-used)

def maxPayload (packetRoom overhead : Nat) : Nat :=
  if packetRoom ≤ overhead then 0 else min maxRecvPlaintext (packetRoom-overhead)

/-- The worst case that the room of a long packet is planned with. -/
def longOverhead (dcidLen scidLen : Nat) : Nat := 1+4+1+dcidLen+1+scidLen+8+4+16+8

def shortOverhead (dcidLen : Nat) : Nat := 1+dcidLen+4+16

def longPacketLen (dcidLen scidLen : Nat) (tokenLen : Option Nat) (b : Build) : Nat :=
  let ptLen := max b.payload (4-b.pnLen)
  1+4+1+dcidLen+1+scidLen+(match tokenLen with | none => 0 | some n => Varint.encodedLen n+n)+
    Varint.encodedLen (ptLen+16+b.pnLen)+b.pnLen+ptLen+16

def shortPacketLen (dcidLen padTo : Nat) (b : Build) : Nat := max padTo (1+dcidLen+b.pnLen+max b.payload (4-b.pnLen)+16)

/-- The builders fill no more than they are given, and a packet number has one to four bytes. -/
def Build.Fits (b : Build) (room : Nat) : Prop := 1 ≤ b.payload ∧ b.payload ≤ room ∧ 1 ≤ b.pnLen ∧ b.pnLen ≤ 4

instance (b : Build) (room : Nat) : Decidable (b.Fits room) := inferInstanceAs (Decidable (_ ∧ _))

inductive PollError where
  | outputTooSmall
  deriving DecidableEq, Repr

namespace Connection

/-- A packet with a long header behind `used` bytes of the datagram; 0 when there is none. -/
def pollLong (conn : Connection) (p : Poll) (tokenLen : Option Nat) (used : Nat) (build : Option Build) :
    Except PollError Nat :=
  let dst := min p.dstLen defaultMtu-used
  let room := amplificationRoom conn.activePath.path dst used
  match build with
  | none => .ok 0
  | some b =>
    if ¬ b.Fits (maxPayload room (longOverhead conn.peerDcid.len p.scidLen)) then .ok 0
    else if dst < longPacketLen conn.peerDcid.len p.scidLen tokenLen b then .error .outputTooSmall
    else .ok (longPacketLen conn.peerDcid.len p.scidLen tokenLen b)

def pollInitial (conn : Connection) (p : Poll) : Except PollError Nat :=
  if conn.initialKeysDiscarded then .ok 0
  else
    match p.initial with
    | none => .ok 0
    | some b =>
      let room := amplificationRoom conn.activePath.path (min p.dstLen defaultMtu) 0
      let blocked := conn.role = .server ∧ room < minInitialDatagramLen
      let expand := conn.role = .client ∨ b.ackEliciting = true
      let tokenLen := if conn.role = .client then p.retryTokenLen else 0
      if b.close = false ∧ b.ackEliciting ∧ blocked then .ok 0
      else if b.close = false ∧ expand ∧ room < minInitialDatagramLen ∧
          b.Fits (maxPayload room (longOverhead conn.peerDcid.len p.scidLen)) then .error .outputTooSmall
      else conn.pollLong p (some tokenLen) 0 (some b)

/-- The answer to a challenge goes to another address than that of the path. -/
def responseOverrides (conn : Connection) (path : PathState) : Bool :=
  match conn.pathResponse,conn.pathResponseAddr with
  | some _,some addr => conn.pathResponsePathId = path.id && addr ≠ path.path.peerAddr
  | _,_ => false

def emitPathChallengeFirst (conn : Connection) (path : PathState) (p : Poll) (room : Nat) : Bool :=
  !p.trackerFull && !conn.responseOverrides path && conn.pathChallenge.isSome && conn.pathChallengePathId = path.id &&
    path.pendingMigrationReset && path.path.validator.status = .pending && 9 ≤ room

structure AppPacket where
  len : Nat := 0
  takesResponse : Bool := false
  takesChallenge : Bool := false
  deriving DecidableEq, Repr

def probeSize (path : PathState) (p : Poll) (dst used : Nat) : Option Nat :=
  match p.probe with
  | some size => if !p.trackerFull && used = 0 && path.path.isValidated && size ≤ dst then some size else none
  | none => none

/-- The room for the frames of the 1-RTT packet. -/
def applicationPayload (path : PathState) (p : Poll) (dst used : Nat) : Nat :=
  let room := match probeSize path p dst used with | some size => min size dst | none => min p.pmtu dst
  maxPayload (amplificationRoom path.path room used) (shortOverhead path.path.peerCid.len)

def takesResponse (conn : Connection) (path : PathState) (p : Poll) (b : Build) : Bool :=
  b.close = false && b.pathResponse && !p.trackerFull && conn.pathResponse.isSome && conn.pathResponsePathId = path.id

def pollApplication (conn : Connection) (path : PathState) (p : Poll) (dst used : Nat) : Except PollError AppPacket :=
  let payload := applicationPayload path p dst used
  match p.application with
  | none => .ok {}
  | some b =>
    if ¬ b.Fits payload then .ok {}
    else
      let first := b.close = false && conn.emitPathChallengeFirst path p payload
      let padTo :=
        match probeSize path p dst used with
        | some size => if b.close then 0 else size
        | none => if first then min defaultMtu dst else 0
      let len := shortPacketLen path.path.peerCid.len padTo b
      let takesResponse := conn.takesResponse path p b
      let takesChallenge := b.close = false && (first || (!p.trackerFull && !(takesResponse && conn.responseOverrides path) &&
        conn.pathChallenge.isSome && conn.pathChallengePathId = path.id && b.pathChallenge))
      if dst < len then .error .outputTooSmall else .ok ⟨len,takesResponse,takesChallenge⟩

/-- The path with a validation to go on with, before any other. -/
def applicationPathForPoll (conn : Connection) (other : Nat) : PathState :=
  let usable (p : PathState) : Bool := p.path.state ≠ .failed && p.path.state ≠ .retiring
  if conn.pathResponse.isSome ∧ usable (conn.pathForId conn.pathResponsePathId) then conn.pathForId conn.pathResponsePathId
  else if conn.pathChallenge.isSome ∧ usable (conn.pathForId conn.pathChallengePathId) then
    conn.pathForId conn.pathChallengePathId
  else conn.pathForId other

structure LongPackets where
  len : Nat
  initial : Nat
  handshake : Nat
  deriving DecidableEq, Repr

def pollLongs (conn : Connection) (p : Poll) : Except PollError LongPackets :=
  match conn.pollInitial p with
  | .error e => .error e
  | .ok initial =>
    match if conn.role = .client then conn.pollLong p none initial p.earlyData else .ok 0 with
    | .error e => .error e
    | .ok early =>
      match conn.pollLong p none (initial+early) p.handshake with
      | .error e => .error e
      | .ok handshake => .ok ⟨initial+early+handshake,initial,handshake⟩

def polledPath (conn : Connection) (p : Poll) (longs : LongPackets) : PathState :=
  if longs.len = 0 then conn.applicationPathForPoll p.other else conn.activePath

/-- The rest of the buffer. A 1-RTT packet alone has all of it. -/
def applicationDst (p : Poll) (longs : LongPackets) : Nat :=
  if longs.len = 0 then p.dstLen else min p.dstLen defaultMtu-longs.len

structure OutgoingDatagram where
  len : Nat
  dest : Option Address
  pathId : Nat
  deriving DecidableEq, Repr

/-- An Initial packet that needs it is padded until the datagram has 1200 bytes, if the buffer has. -/
def padInitialDatagram (conn : Connection) (p : Poll) (initial pos : Nat) : Nat :=
  let ackEliciting := match p.initial with | some b => b.close = false && b.ackEliciting | none => false
  if initial = 0 ∨ ¬ (conn.role = .client ∨ ackEliciting = true) then pos
  else if pos ≥ minInitialDatagramLen ∨ min p.dstLen defaultMtu < minInitialDatagramLen then pos
  else minInitialDatagramLen

/-- `poll_addr_override` counts when the last packet of the datagram took it. -/
def destination (conn : Connection) (path : PathState) (app : AppPacket) : Option Address :=
  let override := if app.takesResponse then conn.pathResponseAddr else none
  if app.len ≠ 0 then override.or path.peerAddress else path.peerAddress

/-- The queues that the packets have emptied, and the keys that a client discards. -/
def commitPackets (conn : Connection) (app : AppPacket) (handshake : Nat) : Connection :=
  let conn := if app.takesResponse then {conn with pathResponse := none,pathResponseAddr := none} else conn
  let conn := if app.takesChallenge then {conn with pathChallenge := none} else conn
  if handshake ≠ 0 ∧ conn.role = .client then {conn with initialKeysDiscarded := true} else conn

/-- A datagram is charged to its path, unless it goes to another address. -/
def commitDatagram (conn : Connection) (path : PathState) (app : AppPacket) (handshake len : Nat) :
    OutgoingDatagram × Connection :=
  let dest := conn.destination path app
  let charged : Bool := match dest with | some addr => addr = path.path.peerAddr | none => true
  let charge (q : PathState) : PathState := {q with path := q.path.onDatagramSent len}
  let conn := conn.commitPackets app handshake
  (⟨len,dest,path.id⟩,if charged then conn.updatePath path.id charge else conn)

/-- Without a datagram nothing changes that is modelled. -/
def pollDatagram (conn : Connection) (p : Poll) : Except PollError (Option OutgoingDatagram × Connection) :=
  match conn.pollLongs p with
  | .error e => .error e
  | .ok longs =>
    let path := conn.polledPath p longs
    match conn.pollApplication path p (applicationDst p longs) longs.len with
    | .error e => .error e
    | .ok app =>
      if longs.len+app.len = 0 then .ok (none,conn)
      else
        let len := conn.padInitialDatagram p longs.initial (longs.len+app.len)
        let (sent,conn) := conn.commitDatagram path app longs.handshake len
        .ok (some sent,conn)

/-- A close that a client sends in an Initial packet is padded whatever the path allows. -/
def CloseWithin (conn : Connection) (p : Poll) : Prop :=
  ∀ b ∈ p.initial, b.close = true → conn.role = .client → conn.initialKeysDiscarded = false →
    conn.activePath.path.isValidated = false →
    b.Fits (maxPayload (amplificationRoom conn.activePath.path (min p.dstLen defaultMtu) 0)
      (longOverhead conn.peerDcid.len p.scidLen)) →
    if minInitialDatagramLen ≤ p.dstLen then minInitialDatagramLen ≤ conn.activePath.path.antiAmpAllowance
    else longPacketLen conn.peerDcid.len p.scidLen (some p.retryTokenLen) b ≤ conn.activePath.path.antiAmpAllowance

/-- A PATH_CHALLENGE that leads the packet is padded whatever the path allows. -/
def ChallengeWithin (conn : Connection) (p : Poll) : Prop :=
  ∀ longs b, conn.pollLongs p = .ok longs → p.application = some b → b.close = false →
    (conn.polledPath p longs).path.isValidated = false →
    b.Fits (applicationPayload (conn.polledPath p longs) p (applicationDst p longs) longs.len) →
    conn.emitPathChallengeFirst (conn.polledPath p longs) p
      (applicationPayload (conn.polledPath p longs) p (applicationDst p longs) longs.len) = true →
    min defaultMtu p.dstLen ≤ (conn.polledPath p longs).path.antiAmpAllowance

end Connection

theorem amplificationRoom_le (path : Path) (room used : Nat) : amplificationRoom path room used ≤ room := by
  unfold amplificationRoom
  split
  · exact Nat.le_refl _
  · exact Nat.min_le_left _ _

theorem amplificationRoom_allowed {path : Path} (unvalidated : path.isValidated = false) (room used : Nat) :
    amplificationRoom path room used ≤ path.antiAmpAllowance-used := by
  unfold amplificationRoom
  rw [if_neg (by simp [unvalidated])]
  exact Nat.min_le_right _ _

theorem maxPayload_covers {room overhead n : Nat} (fits : n ≤ maxPayload room overhead) (filled : 1 ≤ n) : n+overhead ≤ room := by
  unfold maxPayload at fits
  split at fits <;> omega

theorem longPacketLen_le {b : Build} {room dcidLen scidLen : Nat} {tokenLen : Option Nat}
    (fits : b.Fits (maxPayload room (longOverhead dcidLen scidLen))) (bare : tokenLen = none ∨ tokenLen = some 0) :
    longPacketLen dcidLen scidLen tokenLen b ≤ room := by
  obtain ⟨filled,least,one,four⟩ := fits
  have covers := maxPayload_covers least filled
  have length := Varint.encodedLen_le (max b.payload (4-b.pnLen)+16+b.pnLen)
  have token : (match tokenLen with | none => 0 | some n => Varint.encodedLen n+n) ≤ 1 := by
    rcases bare with rfl | rfl
    · exact Nat.zero_le _
    · decide
  unfold longPacketLen
  unfold longOverhead at covers
  dsimp only
  omega

theorem longPacketLen_pos (b : Build) (dcidLen scidLen : Nat) (tokenLen : Option Nat) :
    0 < longPacketLen dcidLen scidLen tokenLen b := by
  unfold longPacketLen
  dsimp only
  omega

theorem shortPacketLen_le {b : Build} {room dcidLen padTo : Nat} (fits : b.Fits (maxPayload room (shortOverhead dcidLen))) :
    shortPacketLen dcidLen padTo b ≤ max padTo room := by
  obtain ⟨filled,least,one,four⟩ := fits
  have covers := maxPayload_covers least filled
  unfold shortPacketLen
  unfold shortOverhead at covers
  omega

namespace Connection

theorem pollLong_ok {conn : Connection} {p : Poll} {tokenLen : Option Nat} {used n : Nat} {build : Option Build}
    (sealed : conn.pollLong p tokenLen used build = .ok n) : n = 0 ∨ ∃ b, build = some b ∧
      b.Fits (maxPayload (amplificationRoom conn.activePath.path (min p.dstLen defaultMtu-used) used)
        (longOverhead conn.peerDcid.len p.scidLen)) ∧
      n = longPacketLen conn.peerDcid.len p.scidLen tokenLen b ∧ n ≤ min p.dstLen defaultMtu-used := by
  unfold pollLong at sealed
  cases build with
  | none =>
    cases sealed
    exact .inl rfl
  | some b =>
    dsimp only at sealed
    split at sealed
    · cases sealed
      exact .inl rfl
    · rename_i fits
      split at sealed
      · cases sealed
      · rename_i room
        cases sealed
        exact .inr ⟨b,rfl,Decidable.not_not.mp fits,rfl,Nat.le_of_not_lt room⟩

theorem pollLong_within {conn : Connection} {p : Poll} {used n : Nat} {build : Option Build}
    (unvalidated : conn.activePath.path.isValidated = false) (sealed : conn.pollLong p none used build = .ok n) :
    n = 0 ∨ used+n ≤ conn.activePath.path.antiAmpAllowance := by
  rcases pollLong_ok sealed with none | ⟨b,_,fits,rfl,_⟩
  · exact .inl none
  · have room := longPacketLen_le fits (.inl rfl)
    have allowed := amplificationRoom_allowed unvalidated (min p.dstLen defaultMtu-used) used
    have some := longPacketLen_pos b conn.peerDcid.len p.scidLen none
    right
    omega

theorem pad_cases (conn : Connection) (p : Poll) (initial pos : Nat) : conn.padInitialDatagram p initial pos = pos ∨
    conn.padInitialDatagram p initial pos = minInitialDatagramLen ∧ initial ≠ 0 ∧ minInitialDatagramLen ≤ p.dstLen ∧
      (conn.role = .client ∨ ∃ b, p.initial = some b ∧ b.close = false ∧ b.ackEliciting = true) := by
  obtain ⟨eliciting,asks⟩ : ∃ e : Bool, e = match p.initial with | some b => b.close = false && b.ackEliciting | none => false :=
    ⟨_,rfl⟩
  unfold padInitialDatagram
  dsimp only
  rw [← asks]
  by_cases needed : initial = 0 ∨ ¬ (conn.role = .client ∨ eliciting = true)
  · exact .inl (if_pos needed)
  · rw [if_neg needed]
    obtain ⟨some,expand⟩ := not_or.mp needed
    split
    · exact .inl rfl
    · rename_i short
      refine .inr ⟨rfl,some,?_,(Decidable.not_not.mp expand).imp_right fun yes => ?_⟩
      · unfold minInitialDatagramLen at short ⊢
        omega
      · rw [yes] at asks
        cases build : p.initial with
        | none => simp [build] at asks
        | some b =>
          refine ⟨b,rfl,?_⟩
          simpa [build] using asks.symm

theorem pollInitial_within {conn : Connection} {p : Poll} {n : Nat} (unvalidated : conn.activePath.path.isValidated = false)
    (close : conn.CloseWithin p) (sealed : conn.pollInitial p = .ok n) (some : n ≠ 0) :
    n ≤ conn.activePath.path.antiAmpAllowance ∧ ∀ pos, pos ≤ conn.activePath.path.antiAmpAllowance →
      conn.padInitialDatagram p n pos ≤ conn.activePath.path.antiAmpAllowance := by
  unfold pollInitial at sealed
  split at sealed
  · cases sealed
    exact absurd rfl some
  · rename_i keys
    cases build : p.initial with
    | none =>
      rw [build] at sealed
      cases sealed
      exact absurd rfl some
    | some b =>
      rw [build] at sealed
      dsimp only at sealed
      split at sealed
      · cases sealed
        exact absurd rfl some
      · rename_i unblocked
        split at sealed
        · cases sealed
        · rename_i large
          obtain ⟨c,same,fits,size,buffer⟩ := (pollLong_ok sealed).resolve_left some
          cases same
          have allowed := amplificationRoom_allowed unvalidated (min p.dstLen defaultMtu) 0
          have inside := amplificationRoom_le conn.activePath.path (min p.dstLen defaultMtu) 0
          rw [Nat.sub_zero] at fits buffer
          by_cases expand : conn.role = .client ∨ (b.close = false ∧ b.ackEliciting = true)
          · -- The datagram will have 1200 bytes, and the allowance covers them, or the buffer is too small.
            have enough : n ≤ conn.activePath.path.antiAmpAllowance ∧
                (minInitialDatagramLen ≤ p.dstLen → minInitialDatagramLen ≤ conn.activePath.path.antiAmpAllowance) := by
              by_cases closing : b.close = true
              · have client : conn.role = .client := by simpa [closing] using expand
                have within := close b build closing client (by simpa using keys) unvalidated fits
                rw [if_pos client] at size
                unfold minInitialDatagramLen at within ⊢
                split at within
                · omega
                · exact ⟨by omega,fun long => by omega⟩
              · have open_ : b.close = false := by simpa using closing
                have wide : ¬ amplificationRoom conn.activePath.path (min p.dstLen defaultMtu) 0 < minInitialDatagramLen := by
                  intro narrow
                  exact large ⟨open_,expand.imp_right And.right,narrow,fits⟩
                unfold minInitialDatagramLen at wide ⊢
                omega
            refine ⟨enough.1,fun pos within => ?_⟩
            rcases conn.pad_cases p n pos with same | ⟨padded,_,long,_⟩
            · rw [same]
              exact within
            · rw [padded]
              exact enough.2 long
          · have bare : (if conn.role = .client then p.retryTokenLen else 0) = 0 := if_neg fun client => expand (.inl client)
            rw [bare] at size
            have room := longPacketLen_le fits (.inr rfl)
            refine ⟨by omega,fun pos within => ?_⟩
            rcases conn.pad_cases p n pos with same | ⟨_,_,_,needed⟩
            · rw [same]
              exact within
            · refine absurd (needed.imp_right fun eliciting => ?_) expand
              obtain ⟨c,same,open_,asks⟩ := eliciting
              rw [build] at same
              cases same
              exact ⟨open_,asks⟩

theorem pollLongs_within {conn : Connection} {p : Poll} {longs : LongPackets}
    (unvalidated : conn.activePath.path.isValidated = false) (close : conn.CloseWithin p)
    (sealed : conn.pollLongs p = .ok longs) : longs.len ≤ conn.activePath.path.antiAmpAllowance ∧
      ∀ pos, pos ≤ conn.activePath.path.antiAmpAllowance →
        conn.padInitialDatagram p longs.initial pos ≤ conn.activePath.path.antiAmpAllowance := by
  unfold pollLongs at sealed
  cases first : conn.pollInitial p with
  | error e =>
    rw [first] at sealed
    cases sealed
  | ok initial =>
    rw [first] at sealed
    dsimp only at sealed
    cases second : (if conn.role = .client then conn.pollLong p none initial p.earlyData else .ok 0) with
    | error e =>
      rw [second] at sealed
      cases sealed
    | ok early =>
      rw [second] at sealed
      dsimp only at sealed
      cases third : conn.pollLong p none (initial+early) p.handshake with
      | error e =>
        rw [third] at sealed
        cases sealed
      | ok handshake =>
        rw [third] at sealed
        cases sealed
        have start : initial ≤ conn.activePath.path.antiAmpAllowance ∧ ∀ pos, pos ≤ conn.activePath.path.antiAmpAllowance →
            conn.padInitialDatagram p initial pos ≤ conn.activePath.path.antiAmpAllowance := by
          by_cases none : initial = 0
          · refine ⟨by omega,fun pos within => ?_⟩
            rcases conn.pad_cases p initial pos with same | ⟨_,some,_⟩
            · rw [same]
              exact within
            · exact absurd none some
          · exact pollInitial_within unvalidated close first none
        have middle : early = 0 ∨ initial+early ≤ conn.activePath.path.antiAmpAllowance := by
          split at second
          · exact pollLong_within unvalidated second
          · cases second
            exact .inl rfl
        have last := pollLong_within unvalidated third
        refine ⟨?_,start.2⟩
        dsimp only
        omega

theorem pollLongs_initial {conn : Connection} {p : Poll} {longs : LongPackets} (sealed : conn.pollLongs p = .ok longs) :
    longs.initial ≤ longs.len := by
  unfold pollLongs at sealed
  split at sealed
  · cases sealed
  · split at sealed
    · cases sealed
    · split at sealed
      · cases sealed
      · cases sealed
        exact Nat.le_trans (Nat.le_add_right _ _) (Nat.le_add_right _ _)

theorem pollApplication_within {conn : Connection} {path : PathState} {p : Poll} {dst used : Nat} {app : AppPacket}
    (unvalidated : path.path.isValidated = false)
    (challenge : ∀ b, p.application = some b → b.close = false → b.Fits (applicationPayload path p dst used) → 0 < dst →
      conn.emitPathChallengeFirst path p (applicationPayload path p dst used) = true →
      used+min defaultMtu dst ≤ path.path.antiAmpAllowance)
    (sealed : conn.pollApplication path p dst used = .ok app) : app.len = 0 ∨ used+app.len ≤ path.path.antiAmpAllowance := by
  have regular : probeSize path p dst used = none := by
    unfold probeSize
    cases p.probe <;> simp [unvalidated]
  unfold pollApplication at sealed
  cases build : p.application with
  | none =>
    rw [build] at sealed
    cases sealed
    exact .inl rfl
  | some b =>
    rw [build,regular] at sealed
    dsimp only at sealed
    split at sealed
    · cases sealed
      exact .inl rfl
    · rename_i fits
      have fits : b.Fits (applicationPayload path p dst used) := Decidable.not_not.mp fits
      by_cases short : dst < shortPacketLen path.path.peerCid.len (if b.close = false && conn.emitPathChallengeFirst path p
          (applicationPayload path p dst used) then min defaultMtu dst else 0) b
      · rw [if_pos short] at sealed
        cases sealed
      · rw [if_neg short] at sealed
        cases sealed
        right
        have allowed := amplificationRoom_allowed unvalidated (min p.pmtu dst) used
        have inside := amplificationRoom_le path.path (min p.pmtu dst) used
        have planned : applicationPayload path p dst used =
            maxPayload (amplificationRoom path.path (min p.pmtu dst) used) (shortOverhead path.path.peerCid.len) := by
          unfold applicationPayload
          rw [regular]
        have filled := fits.1
        have covers := maxPayload_covers (planned ▸ fits.2.1) filled
        dsimp only
        split
        · rename_i first
          have first : b.close = false ∧ conn.emitPathChallengeFirst path p (applicationPayload path p dst used) = true := by
            simpa using first
          have size := @shortPacketLen_le _ _ _ (min defaultMtu dst) (planned ▸ fits)
          have within := challenge b build first.1 fits (by omega) first.2
          omega
        · have size := @shortPacketLen_le _ _ _ 0 (planned ▸ fits)
          omega

/-- A datagram on an unvalidated path stays within what the path allows, unless it carries a challenge or a close that is
padded beyond. -/
theorem pollDatagram_within {conn after : Connection} {p : Poll} {d : OutgoingDatagram} {longs : LongPackets}
    (planned : conn.pollLongs p = .ok longs) (unvalidated : (conn.polledPath p longs).path.isValidated = false)
    (close : conn.CloseWithin p) (challenge : conn.ChallengeWithin p) (sealed : conn.pollDatagram p = .ok (some d,after)) :
    d.len ≤ (conn.polledPath p longs).path.antiAmpAllowance := by
  have led := challenge longs
  have initial := pollLongs_initial planned
  unfold pollDatagram at sealed
  rw [planned] at sealed
  dsimp only at sealed
  cases packet : conn.pollApplication (conn.polledPath p longs) p (applicationDst p longs) longs.len with
  | error e =>
    rw [packet] at sealed
    cases sealed
  | ok app =>
    rw [packet] at sealed
    dsimp only at sealed
    split at sealed
    · cases sealed
    · cases sealed
      show conn.padInitialDatagram p longs.initial (longs.len+app.len) ≤ _
      by_cases alone : longs.len = 0
      · have rest : applicationDst p longs = p.dstLen := if_pos alone
        have within := pollApplication_within unvalidated (fun b build open_ fits _ first => by
          have room := led b planned build open_ unvalidated fits first
          rw [rest,alone,Nat.zero_add]
          exact room) packet
        rcases conn.pad_cases p longs.initial (longs.len+app.len) with same | ⟨_,some,_⟩
        · rw [same]
          omega
        · exact absurd (Nat.le_zero.mp (alone ▸ initial)) some
      · have active : conn.polledPath p longs = conn.activePath := if_neg alone
        have rest : applicationDst p longs = min p.dstLen defaultMtu-longs.len := if_neg alone
        have within := pollApplication_within unvalidated (fun b build open_ fits some first => by
          have room := led b planned build open_ unvalidated fits first
          rw [rest] at some ⊢
          omega) packet
        rw [active] at unvalidated within ⊢
        obtain ⟨front,padded⟩ := pollLongs_within unvalidated close planned
        exact padded _ (by omega)

theorem pollApplication_takes {conn : Connection} {path : PathState} {p : Poll} {dst used : Nat} {app : AppPacket}
    (sealed : conn.pollApplication path p dst used = .ok app) (takes : app.takesResponse = true) :
    ∃ b, p.application = some b ∧ b.Fits (applicationPayload path p dst used) ∧ conn.takesResponse path p b = true := by
  unfold pollApplication at sealed
  cases build : p.application with
  | none =>
    rw [build] at sealed
    cases sealed
    cases takes
  | some b =>
    rw [build] at sealed
    dsimp only at sealed
    generalize (match probeSize path p dst used with
      | some size => if b.close = true then 0 else size
      | none => if (b.close = false && conn.emitPathChallengeFirst path p (applicationPayload path p dst used)) = true then
          min defaultMtu dst else 0) = padTo at sealed
    split at sealed
    · cases sealed
      cases takes
    · rename_i fits
      by_cases short : dst < shortPacketLen path.path.peerCid.len padTo b
      · rw [if_pos short] at sealed
        cases sealed
      · rw [if_neg short] at sealed
        cases sealed
        exact ⟨b,rfl,Decidable.not_not.mp fits,takes⟩

theorem destination_cases (conn : Connection) (path : PathState) (app : AppPacket) :
    conn.destination path app = path.peerAddress ∨
      app.takesResponse = true ∧ conn.destination path app = conn.pathResponseAddr := by
  unfold destination
  dsimp only
  cases app.takesResponse with
  | false => exact .inl (ite_self _)
  | true =>
    cases other : conn.pathResponseAddr with
    | none => exact .inl (ite_self _)
    | some addr =>
      by_cases sent : app.len = 0
      · exact .inl (if_neg (not_not.mpr sent))
      · exact .inr ⟨rfl,if_pos sent⟩

theorem commitPackets_paths (conn : Connection) (app : AppPacket) (handshake : Nat) :
    (conn.commitPackets app handshake).paths = conn.paths := by
  unfold commitPackets
  dsimp only
  split_ifs <;> rfl

theorem commit_paths (conn : Connection) (path : PathState) (app : AppPacket) (handshake len : Nat) :
    (conn.commitDatagram path app handshake len).2.paths =
      if conn.destination path app = none ∨ conn.destination path app = some path.path.peerAddr then
        conn.paths.update path.id fun q => {q with path := q.path.onDatagramSent len}
      else conn.paths := by
  unfold commitDatagram
  dsimp only
  cases conn.destination path app with
  | none => simp [updatePath,commitPackets_paths]
  | some addr =>
    by_cases own : addr = path.path.peerAddr
    · simp [updatePath,commitPackets_paths,own]
    · simp [commitPackets_paths,own]

theorem polledPath_get (conn : Connection) (p : Poll) (longs : LongPackets) :
    conn.paths.get (conn.polledPath p longs).id = some (conn.polledPath p longs) := by
  unfold polledPath applicationPathForPoll
  split
  · dsimp only
    split
    · exact pathForId_get conn _
    · split <;> exact pathForId_get conn _
  · exact activePath_get conn

theorem pollDatagram_none {conn after : Connection} {p : Poll} (sealed : conn.pollDatagram p = .ok (none,after)) :
    after = conn := by
  unfold pollDatagram at sealed
  split at sealed
  · cases sealed
  · dsimp only at sealed
    split at sealed
    · cases sealed
    · split at sealed <;> cases sealed
      rfl

/-- The datagram goes to the address of its path, or a PATH_RESPONSE takes it to another; it is charged to the path unless
it goes elsewhere. -/
theorem pollDatagram_charged {conn after : Connection} {p : Poll} {d : OutgoingDatagram}
    (sealed : conn.pollDatagram p = .ok (some d,after)) : ∃ longs, conn.pollLongs p = .ok longs ∧
      (d.dest = (conn.polledPath p longs).peerAddress ∨ ∃ b, p.application = some b ∧
        b.Fits (applicationPayload (conn.polledPath p longs) p (applicationDst p longs) longs.len) ∧
        conn.takesResponse (conn.polledPath p longs) p b = true ∧ d.dest = conn.pathResponseAddr) ∧
      after.paths = if d.dest = none ∨ d.dest = some (conn.polledPath p longs).path.peerAddr then
          conn.paths.update (conn.polledPath p longs).id fun q => {q with path := q.path.onDatagramSent d.len}
        else conn.paths := by
  unfold pollDatagram at sealed
  cases planned : conn.pollLongs p with
  | error e =>
    rw [planned] at sealed
    cases sealed
  | ok longs =>
    refine ⟨longs,rfl,?_⟩
    rw [planned] at sealed
    dsimp only at sealed
    cases packet : conn.pollApplication (conn.polledPath p longs) p (applicationDst p longs) longs.len with
    | error e =>
      rw [packet] at sealed
      cases sealed
    | ok app =>
      rw [packet] at sealed
      dsimp only at sealed
      split at sealed
      · cases sealed
      · cases sealed
        refine ⟨(conn.destination_cases _ app).imp_right fun ⟨takes,dest⟩ => ?_,conn.commit_paths _ app _ _⟩
        obtain ⟨b,build,fits,takes⟩ := pollApplication_takes packet takes
        exact ⟨b,build,fits,takes,dest⟩

end Connection

end QuicZig.Conn.Paths
