import QuicZig.Conn.KeyUpdate
import QuicZig.Library.System

/-! How many packets one 1-RTT write key seals: the limit of the suite, the updates that a poll
starts before it and the close that a poll sends when none may start. -/
namespace QuicZig.Conn.Keys
open Machine QuicZig.System
open Paths (ConnectionClose)

variable {Secret : Type}

inductive Suite where
  | aes128GcmSha256
  | aes256GcmSha384
  | chacha20Poly1305Sha256
  deriving DecidableEq, Repr

structure AeadLimits where
  confidentialityLimit : Nat
  integrityLimit : Nat
  deriving DecidableEq, Repr

def Suite.aeadLimits : Suite → AeadLimits
  | .aes128GcmSha256 | .aes256GcmSha384 => ⟨2^23,2^52⟩
  | .chacha20Poly1305Sha256 => ⟨maxU64,2^36⟩

/-- `effectiveKeyUpdateLimits` of a connection that has keys. -/
def Suite.keyUpdateLimits (suite : Suite) : ApplicationKeyUpdateLimits where
  confidentialityLimit := suite.aeadLimits.confidentialityLimit
  proactiveUpdateThreshold := suite.aeadLimits.confidentialityLimit-1024
  integrityLimit := suite.aeadLimits.integrityLimit

/-- A write key: how many secrets the handshake had installed, and the epoch that came of the last one. -/
abbrev KeyId := Nat × Nat

/-- An endpoint with the rest of what its polls read. `installs` and `sealedUnder`, the key of every packet that was
sealed, are history; the code does not keep them. -/
structure Sealer (Secret : Type) where
  conn : Endpoint Secret
  closed : Bool := false
  draining : Bool := false
  installs : Nat := 0
  sealedUnder : List KeyId := []

namespace Sealer

/-- What a call on the endpoint leaves: a close that it asks for is dropped once the connection has closed. -/
def settle (s : Sealer Secret) (conn : Endpoint Secret) : Sealer Secret :=
  {s with conn := if s.closed then {conn with pendingClose := s.conn.pendingClose} else conn}

/-- A call that fails leaves the endpoint as it was. -/
def attempt (s : Sealer Secret) (result : Except KeyError (Endpoint Secret)) : Sealer Secret :=
  match result with
  | .ok conn => s.settle conn
  | .error _ => s

/-- What the rest of `pollLevelOnPath` finds: room for a packet, and frames with whether they ask for an
acknowledgement and the packets they acknowledge. -/
structure Built where
  pathId : Nat
  room : Bool
  frames : Option (Bool × List TrackedPacket)
  deriving DecidableEq, Repr

/-- The sealing and `recordApplicationPacketProtected`. -/
def sealed (s : Sealer Secret) (pathId : Nat) (eliciting : Bool) (acks : List TrackedPacket) : Sealer Secret :=
  match s.conn.sealPacket pathId eliciting acks with
  | (none,_) => s
  | (some packet,conn) => {s with conn, sealedUnder := (s.installs,packet.keyEpoch)::s.sealedUnder}

/-- The packet of a poll whose keys are prepared: a close goes before everything else. -/
def emit (s : Sealer Secret) (built : Built) : Sealer Secret :=
  if s.conn.appWriteCurrent.isNone then s
  else if !built.room then s
  else if s.closed && s.conn.pendingClose.isNone then s
  else if s.conn.pendingClose.isSome then s.sealed built.pathId false []
  else
    match built.frames with
    | none => s
    | some (eliciting,acks) => s.sealed built.pathId eliciting acks

/-- `pollLevelOnPath` for the level `application`; a PMTUD probe is one more kind of frames. -/
def poll (crypto : Crypto Secret) (s : Sealer Secret) (nowUs : Nat) (built : Built) : Sealer Secret :=
  match s.conn.prepareApplicationWriteKeys crypto nowUs with
  | .error _ => s
  | .ok conn => (s.settle conn).emit built

def close (s : Sealer Secret) (info : ConnectionClose) : Sealer Secret :=
  if s.conn.pendingClose.isSome || s.closed then s else {s with conn := {s.conn with pendingClose := some info}}

end Sealer

/-- What happens at the endpoint, in any order. `rearm` is a close that goes out again; `ended` covers the peer's
close, the timeouts and a stateless reset. -/
inductive Event (Secret : Type) where
  | installRead (secret : Secret)
  | installWrite (secret : Secret)
  | confirm
  | requestKeyUpdate (nowUs : Nat)
  | receive (packet : Packet Secret) (nowUs retention : Nat)
  | lose (id : TrackedPacket)
  | discardExpired (nowUs : Nat)
  | attributionOnly (only : Bool)
  | prepare (nowUs : Nat)
  | poll (nowUs : Nat) (built : Sealer.Built)
  | close (info : ConnectionClose)
  | closeEmitted
  | rearm (info : ConnectionClose)
  | ended

namespace Sealer

def step (crypto : Crypto Secret) (s : Sealer Secret) : Event Secret → Sealer Secret
  | .installRead secret => {s with conn := s.conn.installReadSecret crypto secret}
  | .installWrite secret => {s with conn := s.conn.installWriteSecret secret, installs := s.installs+1}
  | .confirm => {s with conn := {s.conn with handshakeKeysDiscarded := true}}
  | .requestKeyUpdate nowUs => s.attempt (s.conn.requestKeyUpdate crypto nowUs)
  | .receive packet nowUs retention => s.attempt (s.conn.handleShort crypto packet nowUs retention)
  | .lose id => {s with conn := {s.conn with sent := s.conn.sent.filter (·.id != id)}}
  | .discardExpired nowUs => {s with conn := s.conn.discardExpiredApplicationReadKeys nowUs}
  | .attributionOnly only => {s with conn := {s.conn with closingAttributionOnly := only}}
  | .prepare nowUs => s.attempt (s.conn.prepareApplicationWriteKeys crypto nowUs)
  | .poll nowUs built => s.poll crypto nowUs built
  | .close info => s.close info
  | .closeEmitted => {s with conn := {s.conn with pendingClose := none}, closed := true}
  | .rearm info =>
    if s.closed && !s.draining && s.conn.pendingClose.isNone then {s with conn := {s.conn with pendingClose := some info}}
    else s
  | .ended => {s with conn := {s.conn with pendingClose := none}, closed := true, draining := true}

structure Start (suite : Suite) (s : Sealer Secret) : Prop where
  limits : s.conn.limits = suite.keyUpdateLimits
  unkeyed : s.conn.appWriteCurrent = none
  unsealed : s.sealedUnder = []

/-- No write key has sealed more packets than the suite allows. -/
def WithinLimit (suite : Suite) (s : Sealer Secret) : Prop :=
  ∀ key, s.sealedUnder.count key ≤ suite.aeadLimits.confidentialityLimit

/-- A key that has sealed all it may is updated before the next packet, or there is none. -/
def Spare (suite : Suite) (s : Sealer Secret) : Event Secret → Prop
  | .poll nowUs built => built.room = true → ∀ current, s.conn.appWriteCurrent = some current →
    current.packetsProtected < suite.aeadLimits.confidentialityLimit ∨ s.conn.canInitiateKeyUpdateAt nowUs = true ∨
      (s.closed = true ∧ s.conn.pendingClose = none)
  | _ => True

/-! ### What a call does to the write key -/

/-- The number of a write key and its count. -/
def mark (e : ApplicationKeyEpoch Secret) : Nat × Nat := (e.epoch,e.packetsProtected)

/-- The write key stays with its count, or the next one is there and has sealed nothing. -/
structure KeyStep (before after : Endpoint Secret) : Prop where
  limits : after.limits = before.limits
  write : after.appWriteCurrent.map mark = before.appWriteCurrent.map mark ∨
    ∃ e, before.appWriteCurrent = some e ∧ after.appWriteCurrent.map mark = some (e.epoch+1,0)

theorem KeyStep.same {before after : Endpoint Secret} (limits : after.limits = before.limits)
    (write : after.appWriteCurrent = before.appWriteCurrent) : KeyStep before after := ⟨limits,.inl (congrArg _ write)⟩

theorem KeyStep.kept {first second third : Endpoint Secret} (one : KeyStep first second)
    (limits : third.limits = second.limits)
    (write : third.appWriteCurrent.map mark = second.appWriteCurrent.map mark) : KeyStep first third :=
  ⟨limits.trans one.limits,by rw [write]; exact one.write⟩

theorem install_keyStep {crypto : Crypto Secret} {conn after : Endpoint Secret} {nowUs : Nat} {pendingAck : Bool}
    (installed : conn.installNextApplicationWriteKeys crypto nowUs pendingAck = .ok after) : KeyStep conn after := by
  unfold Endpoint.installNextApplicationWriteKeys at installed
  split at installed
  · cases installed
  · rename_i current held
    cases installed
    exact ⟨rfl,.inr ⟨current,held,rfl⟩⟩

theorem request_keyStep {crypto : Crypto Secret} {conn after : Endpoint Secret} {nowUs : Nat}
    (requested : conn.requestKeyUpdate crypto nowUs = .ok after) : KeyStep conn after := by
  unfold Endpoint.requestKeyUpdate at requested
  split at requested
  · exact install_keyStep requested
  · cases requested

theorem respond_keyStep {crypto : Crypto Secret} {conn after : Endpoint Secret} {nowUs : Nat}
    (responded : conn.maybeRespondToPeerKeyUpdate crypto nowUs = .ok after) : KeyStep conn after := by
  unfold Endpoint.maybeRespondToPeerKeyUpdate at responded
  split at responded
  · split at responded
    · cases responded
      exact KeyStep.same rfl rfl
    · exact install_keyStep responded
  · cases responded
    exact KeyStep.same rfl rfl

theorem removeAcked_mark (nowUs retention : Nat) (conn : Endpoint Secret) (id : TrackedPacket) :
    (Endpoint.removeAcked nowUs retention conn id).limits = conn.limits ∧
      (Endpoint.removeAcked nowUs retention conn id).appWriteCurrent.map mark = conn.appWriteCurrent.map mark := by
  unfold Endpoint.removeAcked
  split
  · exact ⟨rfl,rfl⟩
  · unfold Endpoint.onApplicationPacketAckedForKeys
    dsimp only
    split
    · rename_i current _ held
      split
      · split
        · exact ⟨rfl,by rw [held]; rfl⟩
        · exact ⟨rfl,by rw [held]; rfl⟩
      · exact ⟨rfl,rfl⟩
    · exact ⟨rfl,rfl⟩

theorem finish_mark (conn : Endpoint Secret) (packet : Packet Secret) (nowUs retention : Nat) :
    (conn.finishOpenedPacket packet nowUs retention).limits = conn.limits ∧
      (conn.finishOpenedPacket packet nowUs retention).appWriteCurrent.map mark = conn.appWriteCurrent.map mark := by
  have acked (acks : List TrackedPacket) (conn : Endpoint Secret) :
      (acks.foldl (Endpoint.ackPacket nowUs retention) conn).limits = conn.limits ∧
        (acks.foldl (Endpoint.ackPacket nowUs retention) conn).appWriteCurrent.map mark = conn.appWriteCurrent.map mark := by
    induction acks generalizing conn with
    | nil => exact ⟨rfl,rfl⟩
    | cons id acks ih =>
      obtain ⟨limits,write⟩ := removeAcked_mark nowUs retention (conn.onAckReceived id) id
      exact ⟨(ih _).1.trans limits,(ih _).2.trans write⟩
  unfold Endpoint.finishOpenedPacket
  split
  · exact ⟨rfl,rfl⟩
  · dsimp only
    split
    · exact ⟨rfl,rfl⟩
    · exact acked _ _

theorem open_write (crypto : Crypto Secret) (conn : Endpoint Secret) (packet : Packet Secret) (largestReceived : Nat) :
    (conn.openApplicationPacket crypto packet largestReceived).2.limits = conn.limits ∧
      (conn.openApplicationPacket crypto packet largestReceived).2.appWriteCurrent = conn.appWriteCurrent := by
  unfold Endpoint.openApplicationPacket
  split
  · exact ⟨rfl,rfl⟩
  · split
    · exact ⟨rfl,rfl⟩
    · dsimp only
      split
      · unfold Endpoint.refreshNextApplicationReadKey
        split
        · exact ⟨rfl,rfl⟩
        · exact ⟨rfl,rfl⟩
      · exact ⟨rfl,rfl⟩

theorem short_keyStep {crypto : Crypto Secret} {conn after : Endpoint Secret} {packet : Packet Secret}
    {nowUs retention : Nat}
    (handled : conn.handleShort crypto packet nowUs retention = .ok after) : KeyStep conn after := by
  obtain ⟨limits,write⟩ := open_write crypto conn packet (conn.largestReceived packet.id.pathId)
  unfold Endpoint.handleShort at handled
  split at handled
  · cases handled
    exact KeyStep.same rfl rfl
  · generalize conn.openApplicationPacket crypto packet _ = opened at handled limits write
    obtain ⟨result,conn'⟩ := opened
    dsimp only at handled limits write
    have opened : KeyStep conn (conn'.finishOpenedPacket packet nowUs retention) :=
      (KeyStep.same limits write).kept (finish_mark conn' packet nowUs retention).1
        (finish_mark conn' packet nowUs retention).2
    cases result with
    | none =>
      cases handled
      unfold Endpoint.noteApplicationAuthFailure
      dsimp only
      split
      · exact KeyStep.same limits write
      · exact KeyStep.same limits write
    | some found =>
      obtain ⟨slot,epoch⟩ := found
      cases slot with
      | current =>
        cases handled
        exact opened
      | previous =>
        cases handled
        exact opened
      | next =>
        dsimp only [Bind.bind,Except.bind] at handled
        cases promoted : conn'.promoteApplicationReadKeys crypto nowUs retention with
        | error e =>
          rw [promoted] at handled
          cases handled
        | ok conn'' =>
          have promotion : conn''.limits = conn.limits ∧ conn''.appWriteCurrent = conn.appWriteCurrent := by
            unfold Endpoint.promoteApplicationReadKeys at promoted
            split at promoted
            · cases promoted
            · cases promoted
              exact ⟨limits,write⟩
          rw [promoted] at handled
          dsimp only at handled
          cases responded : conn''.maybeRespondToPeerKeyUpdate crypto nowUs with
          | error e =>
            rw [responded] at handled
            cases handled
          | ok answered =>
            rw [responded] at handled
            cases handled
            have first : KeyStep conn answered := by
              have step := respond_keyStep responded
              refine ⟨step.limits.trans promotion.1,?_⟩
              rw [← promotion.2]
              exact step.write
            exact first.kept (finish_mark answered packet nowUs retention).1 (finish_mark answered packet nowUs retention).2

/-- A poll first updates the key where it may, closes where it must, and otherwise changes nothing. -/
theorem prepare_cases (crypto : Crypto Secret) (conn : Endpoint Secret) (nowUs : Nat) :
    (conn.prepareApplicationWriteKeys crypto nowUs = .ok conn ∧
        ∀ current, conn.appWriteCurrent = some current → current.packetsProtected < conn.limits.confidentialityLimit) ∨
      (∃ current after, conn.appWriteCurrent = some current ∧ conn.canInitiateKeyUpdateAt nowUs = true ∧
        conn.prepareApplicationWriteKeys crypto nowUs = .ok after ∧ after.limits = conn.limits ∧
          after.appWriteCurrent.map mark = some (current.epoch+1,0)) ∨
      ∃ current, conn.appWriteCurrent = some current ∧ conn.limits.confidentialityLimit ≤ current.packetsProtected ∧
        ¬ (conn.limits.proactiveUpdateThreshold ≤ current.packetsProtected ∧ conn.canInitiateKeyUpdateAt nowUs = true) ∧
          conn.prepareApplicationWriteKeys crypto nowUs =
            .ok (conn.close transportErrorAeadLimitReached "AEAD confidentiality limit reached") := by
  unfold Endpoint.prepareApplicationWriteKeys
  split
  · rename_i absent
    exact .inl ⟨rfl,fun current held => absurd (absent.symm.trans held) nofun⟩
  · rename_i current held
    split
    · rename_i update
      refine .inr (.inl ⟨current,{conn with
        appWriteCurrent := some (nextApplicationKeyEpoch crypto current nowUs)
        appWriteUpdatePendingAck := true},held,update.2,?_,rfl,rfl⟩)
      unfold Endpoint.requestKeyUpdate Endpoint.installNextApplicationWriteKeys
      rw [if_pos update.2,held]
    · rename_i update
      split
      · rename_i spent
        exact .inr (.inr ⟨current,held,spent,update,rfl⟩)
      · rename_i spare
        refine .inl ⟨rfl,fun other held' => ?_⟩
        cases held.symm.trans held'
        exact Nat.lt_of_not_le spare

theorem prepare_keyStep {crypto : Crypto Secret} {conn after : Endpoint Secret} {nowUs : Nat}
    (prepared : conn.prepareApplicationWriteKeys crypto nowUs = .ok after) : KeyStep conn after := by
  rcases prepare_cases crypto conn nowUs with ⟨same,-⟩ | ⟨current,next,held,-,same,limits,write⟩ | ⟨current,-,-,-,same⟩
  · cases same.symm.trans prepared
    exact KeyStep.same rfl rfl
  · cases same.symm.trans prepared
    exact ⟨limits,.inr ⟨current,held,write⟩⟩
  · cases same.symm.trans prepared
    exact KeyStep.same rfl rfl

/-! ### The count -/

/-- The counter of the key in use is the number of packets that it has sealed. -/
structure Tracked (suite : Suite) (s : Sealer Secret) : Prop where
  limits : s.conn.limits = suite.keyUpdateLimits
  past : ∀ key ∈ s.sealedUnder, key.1 < s.installs ∨
    ∃ e, s.conn.appWriteCurrent = some e ∧ key.1 = s.installs ∧ key.2 ≤ e.epoch
  counted : ∀ e, s.conn.appWriteCurrent = some e →
    e.packetsProtected = min (s.sealedUnder.count (s.installs,e.epoch)) maxU64

variable {suite : Suite}

theorem start_tracked {s : Sealer Secret} (start : s.Start suite) : s.Tracked suite where
  limits := start.limits
  past key sealedBefore := by
    rw [start.unsealed] at sealedBefore
    cases sealedBefore
  counted e held := absurd (start.unkeyed.symm.trans held) nofun

theorem mark_eq_some {write : Option (ApplicationKeyEpoch Secret)} {epoch count : Nat}
    (marked : write.map mark = some (epoch,count)) :
    ∃ e, write = some e ∧ e.epoch = epoch ∧ e.packetsProtected = count := by
  obtain ⟨e,held,same⟩ := Option.map_eq_some_iff.mp marked
  cases same
  exact ⟨e,held,rfl,rfl⟩

theorem Tracked.stepped {s t : Sealer Secret} (tracked : s.Tracked suite) (installs : t.installs = s.installs)
    (history : t.sealedUnder = s.sealedUnder) (change : KeyStep s.conn t.conn) : t.Tracked suite := by
  refine ⟨change.limits.trans tracked.limits,fun key sealedBefore => ?_,fun e held => ?_⟩
  · rw [history] at sealedBefore
    rw [installs]
    refine (tracked.past key sealedBefore).imp_right fun ⟨e,held,install,epoch⟩ => ?_
    rcases change.write with same | ⟨current,held',next⟩
    · rw [held] at same
      obtain ⟨e',held',epoch',-⟩ := mark_eq_some same
      exact ⟨e',held',install,epoch.trans_eq epoch'.symm⟩
    · cases held.symm.trans held'
      obtain ⟨e',held',epoch',-⟩ := mark_eq_some next
      exact ⟨e',held',install,by omega⟩
  · rw [history,installs]
    rcases change.write with same | ⟨current,held',next⟩
    · rw [held] at same
      obtain ⟨e',held',epoch',count'⟩ := mark_eq_some same.symm
      rw [← epoch',← count']
      exact tracked.counted e' held'
    · rw [held] at next
      have next := Option.some_inj.mp next
      have fresh : (s.installs,e.epoch) ∉ s.sealedUnder := by
        intro sealedBefore
        rcases tracked.past _ sealedBefore with earlier | ⟨e',held'',-,epoch⟩
        · exact absurd earlier (Nat.lt_irrefl _)
        · cases held'.symm.trans held''
          have epoch' : e.epoch = current.epoch+1 := congrArg Prod.fst next
          dsimp only at epoch
          omega
      rw [List.count_eq_zero_of_not_mem fresh]
      exact congrArg Prod.snd next

theorem Tracked.install {s : Sealer Secret} (tracked : s.Tracked suite) (secret : Secret) :
    Tracked suite {s with conn := s.conn.installWriteSecret secret, installs := s.installs+1} := by
  have earlier : ∀ key ∈ s.sealedUnder, key.1 ≤ s.installs := by
    intro key sealedBefore
    rcases tracked.past key sealedBefore with earlier | ⟨-,-,same,-⟩
    · exact earlier.le
    · exact same.le
  refine ⟨tracked.limits,fun key sealedBefore => .inl (Nat.lt_succ_of_le (earlier key sealedBefore)),fun e held => ?_⟩
  cases held
  have fresh : (s.installs+1,0) ∉ s.sealedUnder := fun sealedBefore => absurd (earlier _ sealedBefore)
    (Nat.not_succ_le_self _)
  exact (by rw [List.count_eq_zero_of_not_mem fresh]; rfl)

theorem sealed_eq {s : Sealer Secret} {current : ApplicationKeyEpoch Secret} (held : s.conn.appWriteCurrent = some current)
    (pathId : Nat) (eliciting : Bool) (acks : List TrackedPacket) :
    (s.sealed pathId eliciting acks).sealedUnder = (s.installs,current.epoch)::s.sealedUnder ∧
      (s.sealed pathId eliciting acks).installs = s.installs ∧ (s.sealed pathId eliciting acks).conn.limits = s.conn.limits ∧
      (s.sealed pathId eliciting acks).conn.appWriteCurrent =
        some {current with packetsProtected := saturatingAdd current.packetsProtected 1} := by
  unfold sealed Endpoint.sealPacket
  rw [held]
  exact ⟨rfl,rfl,rfl,rfl⟩

theorem Tracked.sealed {s : Sealer Secret} (tracked : s.Tracked suite) {current : ApplicationKeyEpoch Secret}
    (held : s.conn.appWriteCurrent = some current) (pathId : Nat) (eliciting : Bool) (acks : List TrackedPacket) :
    (s.sealed pathId eliciting acks).Tracked suite := by
  obtain ⟨history,installs,limits,write⟩ := sealed_eq held pathId eliciting acks
  refine ⟨limits.trans tracked.limits,fun key sealedBefore => ?_,fun e held' => ?_⟩
  · rw [history] at sealedBefore
    rw [installs,write]
    rcases List.mem_cons.mp sealedBefore with rfl | sealedBefore
    · exact .inr ⟨_,rfl,rfl,Nat.le_refl _⟩
    · refine (tracked.past key sealedBefore).imp_right fun ⟨e,held',install,epoch⟩ => ?_
      cases held.symm.trans held'
      exact ⟨_,rfl,install,epoch⟩
  · cases write.symm.trans held'
    rw [history,installs,List.count_cons_self]
    dsimp only [saturatingAdd]
    rw [tracked.counted current held]
    omega

/-- What a poll seals: nothing, or one packet under the key that it finds. -/
inductive Emits (s t : Sealer Secret) : Prop where
  | nothing (same : t = s)
  | packet (current : ApplicationKeyEpoch Secret) (held : s.conn.appWriteCurrent = some current)
      (pathId : Nat) (eliciting : Bool)
      (acks : List TrackedPacket) (made : t = s.sealed pathId eliciting acks)

theorem emit_emits (s : Sealer Secret) (built : Built) : Emits s (s.emit built) := by
  unfold emit
  split
  · exact .nothing rfl
  · rename_i keyed
    obtain ⟨current,held⟩ : ∃ current, s.conn.appWriteCurrent = some current := by
      cases held : s.conn.appWriteCurrent with
      | none => exact absurd (by rw [held]; rfl) keyed
      | some current => exact ⟨current,rfl⟩
    split
    · exact .nothing rfl
    · split
      · exact .nothing rfl
      · split
        · exact .packet current held _ _ _ rfl
        · split
          · exact .nothing rfl
          · exact .packet current held _ _ _ rfl

theorem Tracked.emits {s t : Sealer Secret} (tracked : s.Tracked suite) (emitted : Emits s t) : t.Tracked suite := by
  cases emitted with
  | nothing same => exact same ▸ tracked
  | packet current held pathId eliciting acks made => exact made ▸ tracked.sealed held pathId eliciting acks

theorem settle_eq (s : Sealer Secret) (conn : Endpoint Secret) :
    (s.settle conn).installs = s.installs ∧ (s.settle conn).sealedUnder = s.sealedUnder ∧ (s.settle conn).closed = s.closed ∧
      (s.settle conn).conn.limits = conn.limits ∧ (s.settle conn).conn.appWriteCurrent = conn.appWriteCurrent := by
  unfold settle
  dsimp only
  split
  · exact ⟨rfl,rfl,rfl,rfl,rfl⟩
  · exact ⟨rfl,rfl,rfl,rfl,rfl⟩

theorem Tracked.settle {s : Sealer Secret} (tracked : s.Tracked suite) {conn : Endpoint Secret}
    (change : KeyStep s.conn conn) :
    (s.settle conn).Tracked suite := by
  obtain ⟨installs,history,-,limits,write⟩ := settle_eq s conn
  exact tracked.stepped installs history (change.kept limits (congrArg _ write))

theorem Tracked.attempt {s : Sealer Secret} (tracked : s.Tracked suite) {result : Except KeyError (Endpoint Secret)}
    (change : ∀ conn, result = .ok conn → KeyStep s.conn conn) : (s.attempt result).Tracked suite := by
  cases result with
  | error e => exact tracked
  | ok conn => exact tracked.settle (change conn rfl)

theorem poll_eq (crypto : Crypto Secret) (s : Sealer Secret) (nowUs : Nat) (built : Built) :
    ∃ conn, s.conn.prepareApplicationWriteKeys crypto nowUs = .ok conn ∧
      s.poll crypto nowUs built = (s.settle conn).emit built := by
  have prepared : ∃ conn, s.conn.prepareApplicationWriteKeys crypto nowUs = .ok conn := by
    rcases prepare_cases crypto s.conn nowUs with ⟨same,-⟩ | ⟨-,after,-,-,same,-⟩ | ⟨-,-,-,-,same⟩
    · exact ⟨_,same⟩
    · exact ⟨_,same⟩
    · exact ⟨_,same⟩
  obtain ⟨conn,prepared⟩ := prepared
  refine ⟨conn,prepared,?_⟩
  unfold poll
  rw [prepared]

theorem step_tracked {crypto : Crypto Secret} {s : Sealer Secret} (tracked : s.Tracked suite) (event : Event Secret) :
    (s.step crypto event).Tracked suite := by
  cases event with
  | installRead secret => exact tracked.stepped rfl rfl (KeyStep.same rfl rfl)
  | installWrite secret => exact tracked.install secret
  | confirm => exact tracked.stepped rfl rfl (KeyStep.same rfl rfl)
  | requestKeyUpdate nowUs => exact tracked.attempt fun _ requested => request_keyStep requested
  | receive packet nowUs retention => exact tracked.attempt fun _ handled => short_keyStep handled
  | lose id => exact tracked.stepped rfl rfl (KeyStep.same rfl rfl)
  | discardExpired nowUs =>
    have change : KeyStep s.conn (s.conn.discardExpiredApplicationReadKeys nowUs) := by
      unfold Endpoint.discardExpiredApplicationReadKeys
      split
      · exact KeyStep.same rfl rfl
      · split
        · exact KeyStep.same rfl rfl
        · split
          · exact KeyStep.same rfl rfl
          · exact KeyStep.same rfl rfl
    exact tracked.stepped rfl rfl change
  | attributionOnly only => exact tracked.stepped rfl rfl (KeyStep.same rfl rfl)
  | prepare nowUs => exact tracked.attempt fun _ prepared => prepare_keyStep prepared
  | poll nowUs built =>
    obtain ⟨conn,prepared,polled⟩ := poll_eq crypto s nowUs built
    change (s.poll crypto nowUs built).Tracked suite
    rw [polled]
    exact (tracked.settle (prepare_keyStep prepared)).emits (emit_emits _ _)
  | close info =>
    change (s.close info).Tracked suite
    unfold Sealer.close
    split
    · exact tracked
    · exact tracked.stepped rfl rfl (KeyStep.same rfl rfl)
  | closeEmitted => exact tracked.stepped rfl rfl (KeyStep.same rfl rfl)
  | rearm info =>
    dsimp only [Sealer.step]
    split
    · exact tracked.stepped rfl rfl (KeyStep.same rfl rfl)
    · exact tracked
  | ended => exact tracked.stepped rfl rfl (KeyStep.same rfl rfl)

/-! ### The limit -/

theorem limit_bounds (suite : Suite) : 1 ≤ suite.aeadLimits.confidentialityLimit ∧
    suite.aeadLimits.confidentialityLimit ≤ maxU64 := by
  cases suite with
  | aes128GcmSha256 => decide
  | aes256GcmSha384 => decide
  | chacha20Poly1305Sha256 => decide

theorem within_sealed {s : Sealer Secret} (within : s.WithinLimit suite) {current : ApplicationKeyEpoch Secret}
    (held : s.conn.appWriteCurrent = some current) (pathId : Nat) (eliciting : Bool) (acks : List TrackedPacket) :
    (s.sealed pathId eliciting acks).WithinLimit suite ↔
      s.sealedUnder.count (s.installs,current.epoch) < suite.aeadLimits.confidentialityLimit := by
  unfold WithinLimit
  rw [(sealed_eq held pathId eliciting acks).1]
  constructor
  · intro all
    have here := all (s.installs,current.epoch)
    rw [List.count_cons_self] at here
    exact here
  · intro room key
    by_cases same : (s.installs,current.epoch) = key
    · subst same
      rw [List.count_cons_self]
      exact room
    · rw [List.count_cons_of_ne same]
      exact within key

theorem within_emits {s t : Sealer Secret} (within : s.WithinLimit suite) (tracked : s.Tracked suite) (emitted : Emits s t)
    (room : ∀ current, s.conn.appWriteCurrent = some current →
    current.packetsProtected < suite.aeadLimits.confidentialityLimit) :
    t.WithinLimit suite := by
  cases emitted with
  | nothing same => exact same ▸ within
  | packet current held pathId eliciting acks made =>
    rw [made,within_sealed within held]
    have room := room current held
    have count := tracked.counted current held
    have bounds := limit_bounds suite
    omega

theorem emit_close {s : Sealer Secret} {built : Built} {current : ApplicationKeyEpoch Secret}
    (held : s.conn.appWriteCurrent = some current) (room : built.room = true) (pending : s.conn.pendingClose.isSome = true) :
    s.emit built = s.sealed built.pathId false [] := by
  obtain ⟨info,pending⟩ := Option.isSome_iff_exists.mp pending
  unfold emit
  rw [held,room,pending,if_neg nofun,if_neg nofun,if_neg (by rw [Option.isNone_some,Bool.and_false]; exact nofun),
    if_pos Option.isSome_some]

theorem emit_silent {s : Sealer Secret} (closed : s.closed = true) (quiet : s.conn.pendingClose = none) (built : Built) :
    s.emit built = s := by
  unfold emit
  rw [closed,quiet,if_pos (show (true && (none : Option ConnectionClose).isNone) = true from rfl)]
  split
  · rfl
  · split
    · rfl
    · rfl

theorem emit_full {s : Sealer Secret} {built : Built} (full : built.room = false) : s.emit built = s := by
  unfold emit
  rw [full]
  split
  · rfl
  · exact if_pos rfl

theorem within_poll {crypto : Crypto Secret} {s : Sealer Secret} (tracked : s.Tracked suite)
    (within : s.WithinLimit suite) (nowUs : Nat)
    (built : Built) : (s.poll crypto nowUs built).WithinLimit suite ↔ s.Spare suite (.poll nowUs built) := by
  obtain ⟨conn,prepared,polled⟩ := poll_eq crypto s nowUs built
  obtain ⟨installs,history,closed,limits,write⟩ := settle_eq s conn
  have tracked' := tracked.settle (prepare_keyStep prepared)
  have within' : (s.settle conn).WithinLimit suite := by
    unfold WithinLimit
    rw [history]
    exact within
  have limit : s.conn.limits.confidentialityLimit = suite.aeadLimits.confidentialityLimit :=
    congrArg ApplicationKeyUpdateLimits.confidentialityLimit tracked.limits
  rw [polled]
  rcases prepare_cases crypto s.conn nowUs with ⟨same,below⟩ | ⟨current,after,held,may,same,-,fresh⟩ |
    ⟨current,held,spent,update,same⟩
  · cases prepared.symm.trans same
    rw [limit] at below
    refine iff_of_true ?_ fun _ current held => .inl (below current held)
    exact within_emits within' tracked' (emit_emits _ _) fun current held => below current (write ▸ held)
  · cases prepared.symm.trans same
    refine iff_of_true ?_ fun _ _ _ => .inr (.inl may)
    refine within_emits within' tracked' (emit_emits _ _) fun e held' => ?_
    rw [write] at held'
    rw [held'] at fresh
    have zero : e.packetsProtected = 0 := congrArg Prod.snd (Option.some_inj.mp fresh)
    rw [zero]
    exact (limit_bounds suite).1
  · cases prepared.symm.trans same
    rw [limit] at spent
    have blocked : s.conn.canInitiateKeyUpdateAt nowUs ≠ true := by
      refine fun may => update ⟨?_,may⟩
      rw [tracked.limits]
      exact (Nat.sub_le _ _).trans spent
    have count := tracked.counted current held
    have top := (limit_bounds suite).2
    cases room : built.room with
    | false =>
      refine iff_of_true ?_ fun some' => absurd (room.symm.trans some') Bool.false_ne_true
      rw [emit_full room]
      exact within'
    | true =>
      by_cases silent : s.closed = true ∧ s.conn.pendingClose = none
      · refine iff_of_true ?_ fun _ _ _ => .inr (.inr silent)
        have quiet : (s.settle (s.conn.close transportErrorAeadLimitReached
          "AEAD confidentiality limit reached")).conn.pendingClose = none := by
          unfold settle
          rw [if_pos silent.1]
          exact silent.2
        rw [emit_silent (closed.trans silent.1) quiet]
        exact within'
      · have pending : (s.settle (s.conn.close transportErrorAeadLimitReached
            "AEAD confidentiality limit reached")).conn.pendingClose.isSome = true := by
          unfold settle
          cases closed : s.closed with
          | true =>
            rw [if_pos rfl]
            exact Option.isSome_iff_ne_none.mpr fun quiet => silent ⟨closed,quiet⟩
          | false =>
            rw [if_neg Bool.false_ne_true]
            unfold Endpoint.close
            cases s.conn.pendingClose with
            | none => rfl
            | some info => rfl
        refine iff_of_false ?_ ?_
        · rw [emit_close (write.trans held) room pending,within_sealed within' (write.trans held),installs,history]
          omega
        · intro spare
          rcases spare room current held with below | may | quiet
          · omega
          · exact blocked may
          · exact silent quiet

theorem within_step {crypto : Crypto Secret} {s : Sealer Secret} {event : Event Secret} (tracked : s.Tracked suite)
    (within : s.WithinLimit suite) : (s.step crypto event).WithinLimit suite ↔ s.Spare suite event := by
  have still (history : (s.step crypto event).sealedUnder = s.sealedUnder) : (s.step crypto event).WithinLimit suite := by
    unfold WithinLimit
    rw [history]
    exact within
  have attempted (result : Except KeyError (Endpoint Secret)) : (s.attempt result).sealedUnder = s.sealedUnder := by
    cases result with
    | error e => rfl
    | ok conn => exact (settle_eq s conn).2.1
  cases event with
  | poll nowUs built => exact within_poll tracked within nowUs built
  | requestKeyUpdate nowUs => exact iff_of_true (still (attempted _)) trivial
  | receive packet nowUs retention => exact iff_of_true (still (attempted _)) trivial
  | prepare nowUs => exact iff_of_true (still (attempted _)) trivial
  | close info =>
    refine iff_of_true (still ?_) trivial
    change (s.close info).sealedUnder = _
    unfold Sealer.close
    split
    · rfl
    · rfl
  | rearm info =>
    refine iff_of_true (still ?_) trivial
    dsimp only [Sealer.step]
    split
    · rfl
    · rfl
  | _ => exact iff_of_true (still rfl) trivial

/-- In every run, no write key seals more packets than its suite allows just in case every poll with room finds a key
that has one to spare or may be updated, or a connection that has closed and has no close to send. -/
theorem keys_within_limit {suite : Suite} {crypto : Crypto Secret} {s : Sealer Secret} (start : s.Start suite)
    (events : List (Event Secret)) :
    Throughout (fun s => s.WithinLimit suite) (Sealer.step crypto) s events ↔
      Admits (Sealer.step crypto) (fun s event => s.Spare suite event) s events := by
  have fresh : s.WithinLimit suite := by
    intro key
    rw [start.unsealed]
    exact Nat.zero_le _
  have admitted : Admits (Sealer.step crypto) (fun _ _ => True) s events := Admits.of_forall (fun _ _ => trivial) s
  exact @throughout_iff _ _ (Sealer.step crypto) (fun _ _ => True) (fun s => s.Tracked suite) _ _
    (fun s event tracked _ => step_tracked tracked event) (fun s event tracked within _ => within_step tracked within) _ _
    (start_tracked start) fresh admitted

/-- A packet that acknowledges and asks for nothing. -/
def ackOnly : Built := ⟨0,true,some (false,[])⟩

def unkeyed : Sealer Nat := {conn := {limits := Suite.aes128GcmSha256.keyUpdateLimits}}

theorem unkeyed_start : unkeyed.Start .aes128GcmSha256 := ⟨rfl,rfl,rfl⟩

/-- The close of the application goes out under a key that has sealed one packet. -/
theorem keys_within_limit_close : Throughout (fun s => s.WithinLimit .aes128GcmSha256) (Sealer.step counting) unkeyed
    [.installWrite 100,.poll 0 ackOnly,.close ⟨false,0,""⟩,.poll 0 ackOnly] := by
  refine (keys_within_limit unkeyed_start _).mpr ⟨trivial,fun _ current held => .inl ?_,trivial,
    fun _ current held => .inl ?_,trivial⟩
  · cases held
    decide
  · cases held
    decide

structure Waiting (count : Nat) (s : Sealer Nat) : Prop where
  tracked : s.Tracked .aes128GcmSha256
  current : ∃ current, s.conn.appWriteCurrent = some current ∧ current.packetsProtected = count
  pendingAck : s.conn.appWriteUpdatePendingAck = true
  opened : s.closed = false ∧ s.conn.pendingClose = none

theorem Waiting.blocked {count : Nat} {s : Sealer Nat} (waiting : Waiting count s) (nowUs : Nat) :
    s.conn.canInitiateKeyUpdateAt nowUs = false := by
  unfold Endpoint.canInitiateKeyUpdateAt
  rw [waiting.pendingAck]
  split
  · rfl
  · split
    · rfl
    · rfl

theorem Waiting.poll {count : Nat} {s : Sealer Nat} (waiting : Waiting count s) (below : count < 2^23) :
    Waiting (count+1) (s.poll counting 0 ackOnly) := by
  obtain ⟨current,held,same⟩ := waiting.current
  have limits := waiting.tracked.limits
  have prepared : s.conn.prepareApplicationWriteKeys counting 0 = .ok s.conn := by
    unfold Endpoint.prepareApplicationWriteKeys
    rw [held]
    dsimp only
    rw [waiting.blocked,limits,if_neg fun both => Bool.false_ne_true both.2,if_neg
      (by rw [same]; exact Nat.not_le_of_lt below)]
  have polled : s.poll counting 0 ackOnly = s.sealed 0 false [] := by
    have settled : s.settle s.conn = s := by
      unfold settle
      rw [if_neg (waiting.opened.1 ▸ Bool.false_ne_true)]
    unfold Sealer.poll
    rw [prepared]
    dsimp only
    rw [settled]
    unfold emit
    rw [held,waiting.opened.1,waiting.opened.2]
    rfl
  obtain ⟨-,-,-,write⟩ := sealed_eq held 0 false []
  refine ⟨step_tracked waiting.tracked (.poll 0 ackOnly),⟨_,(congrArg (·.conn.appWriteCurrent) polled).trans write,?_⟩,?_,?_⟩
  · dsimp only
    rw [same]
    exact Nat.min_eq_left (by unfold maxU64; omega)
  · rw [polled]
    unfold sealed Endpoint.sealPacket
    rw [held]
    exact waiting.pendingAck
  · rw [polled]
    unfold sealed Endpoint.sealPacket
    rw [held]
    exact waiting.opened

theorem Waiting.polls {count : Nat} {s : Sealer Nat} (waiting : Waiting count s) (n : Nat) (below : count+n ≤ 2^23) :
    Waiting (count+n) (run (Sealer.step counting) s (List.replicate n (.poll 0 ackOnly))) := by
  induction n generalizing count s with
  | zero => exact waiting
  | succ n ih =>
    have next := ih (waiting.poll (by omega)) (by omega)
    rw [Nat.add_right_comm] at next
    exact next

/-- The updated key that nothing acknowledges seals 2^23 packets, and then the close. -/
theorem close_past_limit : ¬ ∀ (suite : Suite) (s : Sealer Nat), s.Start suite → ∀ events,
    (run (Sealer.step counting) s events).WithinLimit suite := by
  intro all
  have updated : Waiting 0 (run (Sealer.step counting) unkeyed [.installWrite 100,.confirm,.requestKeyUpdate 0]) := by
    have keyed := @step_tracked _ _ counting _ (start_tracked unkeyed_start) (.installWrite 100)
    have confirmed := @step_tracked _ _ counting _ keyed .confirm
    have tracked := @step_tracked _ _ counting _ confirmed (.requestKeyUpdate 0)
    exact ⟨tracked,⟨_,rfl,rfl⟩,rfl,rfl,rfl⟩
  obtain ⟨n,size⟩ : ∃ n, n = 2^23 := ⟨_,rfl⟩
  have spent := updated.polls n (by omega)
  have within := all .aes128GcmSha256 unkeyed unkeyed_start
    ([.installWrite 100,.confirm,.requestKeyUpdate 0] ++ List.replicate n (.poll 0 ackOnly))
  have beyond := all .aes128GcmSha256 unkeyed unkeyed_start
    ([.installWrite 100,.confirm,.requestKeyUpdate 0] ++ List.replicate n (.poll 0 ackOnly) ++ [.poll 0 ackOnly])
  unfold run at within beyond spent
  rw [List.foldl_append] at within
  rw [List.foldl_append,List.foldl_append] at beyond
  have spare := (within_poll spent.tracked within 0 ackOnly).mp beyond
  obtain ⟨current,held,count⟩ := spent.current
  rcases spare rfl current held with below | may | quiet
  · rw [count,Nat.zero_add,size] at below
    exact Nat.lt_irrefl _ below
  · exact Bool.false_ne_true ((spent.blocked 0).symm.trans may)
  · exact Bool.false_ne_true (spent.opened.1.symm.trans quiet.1)

end Sealer

end QuicZig.Conn.Keys
