import QuicZig.Conn.KeyUpdate
import QuicZig.Library.System

/-! Two endpoints that exchange 1-RTT packets and update their keys. Every packet ever sent stays
on the network: one that is never taken is lost, one that is taken again is a duplicate. -/
namespace QuicZig.Conn.Keys
open QuicZig.System

variable {Secret : Type}

/-- One endpoint, its peer, what each of them has sent, and the secrets that the handshake gave them to write with. -/
structure Network (Secret : Type) where
  here : Endpoint Secret
  there : Endpoint Secret
  fromHere : List (Packet Secret) := []
  fromThere : List (Packet Secret) := []
  secretHere : Secret
  secretThere : Secret

def Network.swap (n : Network Secret) : Network Secret :=
  ⟨n.there,n.here,n.fromThere,n.fromHere,n.secretThere,n.secretHere⟩

/-- What happens at one endpoint. The times are whatever the caller says. `send` acknowledges those of the named
packets that have arrived; `receive` takes some packet of the peer; `forged` is a packet that opens under no key. -/
inductive Act where
  | installRead
  | confirm
  | requestKeyUpdate (nowUs : Nat)
  | prepare (nowUs : Nat)
  | send (pathId : Nat) (eliciting : Bool) (acks : List TrackedPacket)
  | receive (index nowUs retention : Nat)
  | forged
  | lose (id : TrackedPacket)
  | discardExpired (nowUs : Nat)
  | close
  deriving DecidableEq, Repr

/-- Whose act it is. -/
inductive Side where
  | client
  | server
  deriving DecidableEq, Repr

/-- A call that fails leaves the connection as it was. -/
def kept (conn : Endpoint Secret) (result : Except KeyError (Endpoint Secret)) : Endpoint Secret :=
  match result with
  | .ok conn => conn
  | .error _ => conn

def act (crypto : Crypto Secret) (n : Network Secret) : Act → Network Secret
  | .installRead => {n with here := n.here.installReadSecret crypto n.secretThere}
  | .confirm => {n with here := {n.here with handshakeKeysDiscarded := true}}
  | .requestKeyUpdate nowUs => {n with here := kept n.here (n.here.requestKeyUpdate crypto nowUs)}
  | .prepare nowUs => {n with here := kept n.here (n.here.prepareApplicationWriteKeys crypto nowUs)}
  | .send pathId eliciting acks =>
    match n.here.sealPacket pathId eliciting (acks.filter (· ∈ n.here.received)) with
    | (none,_) => n
    | (some packet,here) => {n with here,fromHere := packet::n.fromHere}
  | .receive index nowUs retention =>
    match n.fromThere[index]? with
    | none => n
    | some packet => {n with here := kept n.here (n.here.handleShort crypto packet nowUs retention)}
  | .forged => {n with here := if n.here.appReadCurrent.isNone then n.here else n.here.noteApplicationAuthFailure}
  | .lose id => {n with here := {n.here with sent := n.here.sent.filter (·.id != id)}}
  | .discardExpired nowUs => {n with here := n.here.discardExpiredApplicationReadKeys nowUs}
  | .close => {n with here := {n.here with closingAttributionOnly := true}}

def step (crypto : Crypto Secret) (n : Network Secret) (event : Side × Act) : Network Secret :=
  match event.1 with
  | .client => act crypto n event.2
  | .server => (act crypto n.swap event.2).swap

def Network.at (n : Network Secret) : Side → Network Secret
  | .client => n
  | .server => n.swap

/-- The write keys of both sides are there from the handshake; each side gets its read keys later, and once. -/
structure Start (n : Network Secret) : Prop where
  client : ∃ limits, n.here = ({limits} : Endpoint Secret).installWriteSecret n.secretHere
  server : ∃ limits, n.there = ({limits} : Endpoint Secret).installWriteSecret n.secretThere
  quiet : n.fromHere = [] ∧ n.fromThere = []

structure Genuine (crypto : Crypto Secret) (first : Secret) (k : ApplicationKeyEpoch Secret) : Prop where
  secret : k.secret = crypto.deriveNextTrafficSecret^[k.epoch] first
  phase : k.keyPhase = true ↔ k.epoch % 2 = 1

theorem genuine_first (crypto : Crypto Secret) (first : Secret) : Genuine crypto first {secret := first} :=
  ⟨rfl,iff_of_false Bool.false_ne_true Nat.zero_ne_one⟩

theorem genuine_next {crypto : Crypto Secret} {first : Secret} {k : ApplicationKeyEpoch Secret}
    (genuine : Genuine crypto first k) (nowUs : Nat) : Genuine crypto first (nextApplicationKeyEpoch crypto k nowUs) := by
  refine ⟨?_,?_⟩
  · unfold nextApplicationKeyEpoch
    rw [genuine.secret,Function.iterate_succ_apply']
  · have phase := genuine.phase
    cases turned : k.keyPhase with
    | false =>
      rw [turned] at phase
      have even : ¬k.epoch % 2 = 1 := fun odd => Bool.false_ne_true (phase.mpr odd)
      simp only [nextApplicationKeyEpoch,turned,Bool.not_false,true_iff]
      omega
    | true =>
      have odd := phase.mp turned
      simp only [nextApplicationKeyEpoch,turned,Bool.not_true,Bool.false_eq_true,false_iff]
      omega

theorem epochs_of_phases {crypto : Crypto Secret} {first other : Secret} {k l : ApplicationKeyEpoch Secret}
    (one : Genuine crypto first k) (two : Genuine crypto other l) (near : k.epoch ≤ l.epoch ∧ l.epoch ≤ k.epoch+1)
    (same : k.keyPhase = l.keyPhase) : k.epoch = l.epoch := by
  have parity : k.epoch % 2 = 1 ↔ l.epoch % 2 = 1 := by rw [← one.phase,← two.phase,same]
  omega

section
variable (crypto : Crypto Secret)

/-- The write epoch and the read epochs of an endpoint that writes under `mine` and reads under `theirs`. -/
structure SoundKeys (mine theirs : Secret) (conn : Endpoint Secret) : Prop where
  write : ∃ k, conn.appWriteCurrent = some k ∧ Genuine crypto mine k
  read : ∀ k, conn.appReadCurrent = some k →
    Genuine crypto theirs k ∧ ∃ next, conn.appReadNext = some next ∧ Genuine crypto theirs next ∧ next.epoch = k.epoch+1
  previous : ∀ k, conn.appReadPrevious = some k → Genuine crypto theirs k ∧ conn.readEpoch = k.epoch+1
  idle : conn.appReadCurrent = none → conn.appReadNext = none

structure Link (first : Secret) (sender receiver : Endpoint Secret) (flight : List (Packet Secret)) : Prop where
  keys : ∀ p ∈ flight, p.sealedUnder = crypto.deriveNextTrafficSecret^[p.keyEpoch] first ∧ (p.keyPhase = true ↔ p.keyEpoch % 2 = 1)
  length : ∀ p ∈ flight, 1 ≤ p.pnLen ∧ p.pnLen ≤ 4
  past : ∀ p ∈ flight, p.keyEpoch ≤ sender.writeEpoch ∧ p.id.pn < sender.nextPn p.id.pathId
  single : ∀ p ∈ flight, ∀ q ∈ flight, p.id = q.id → p = q
  tracked : ∀ s ∈ sender.sent, ∃ p ∈ flight, p.id = s.id ∧ s.keyEpoch = some p.keyEpoch
  arrived : ∀ id ∈ receiver.received, ∃ p ∈ flight, p.id = id ∧ p.keyEpoch ≤ receiver.readEpoch

/-- The epochs of an endpoint and of its peer, as far as the write epoch of `conn` goes. -/
structure Paced (conn peer : Endpoint Secret) : Prop where
  answered : conn.readEpoch ≤ conn.writeEpoch
  near : conn.writeEpoch ≤ conn.readEpoch+1
  heard : peer.readEpoch ≤ conn.writeEpoch
  ahead : conn.writeEpoch ≤ peer.readEpoch+1
  settled : conn.appWriteUpdatePendingAck = false → conn.writeEpoch ≤ conn.readEpoch ∧ conn.writeEpoch ≤ peer.readEpoch
  acknowledged : conn.appWriteUpdatePendingAck = false → conn.writeEpoch = 0 ∨
    ∃ s ∈ conn.acknowledged, s.keyEpoch = some conn.writeEpoch ∧ s.id ∈ peer.received

/-- An acknowledgement names packets that had arrived, and was sealed under keys no older than theirs. -/
def Honest (receiver : Endpoint Secret) (flight answers : List (Packet Secret)) : Prop :=
  ∀ a ∈ answers, ∀ id ∈ a.acks, id ∈ receiver.received ∧ ∃ p ∈ flight, p.id = id ∧ p.keyEpoch ≤ a.keyEpoch

structure Half (n : Network Secret) : Prop where
  keys : SoundKeys crypto n.secretHere n.secretThere n.here
  link : Link crypto n.secretHere n.here n.there n.fromHere
  paced : Paced n.here n.there
  honest : Honest n.there n.fromHere n.fromThere

/-- The invariant of the network: the same for both endpoints. -/
structure Coupled (n : Network Secret) : Prop where
  one : Half crypto n
  other : Half crypto n.swap

/-- Nothing that the peer's half of the invariant counts on goes back. -/
structure Grows (conn after : Endpoint Secret) : Prop where
  write : conn.writeEpoch ≤ after.writeEpoch
  read : conn.readEpoch ≤ after.readEpoch
  numbers : after.nextPn = conn.nextPn
  sent : ∀ s ∈ after.sent, s ∈ conn.sent
  received : ∀ id ∈ conn.received, id ∈ after.received

variable {crypto}

theorem Coupled.turned {n : Network Secret} (coupled : Coupled crypto n) : Coupled crypto n.swap := ⟨coupled.other,coupled.one⟩

theorem Coupled.change {n : Network Secret} (coupled : Coupled crypto n) {after : Endpoint Secret} (grows : Grows n.here after)
    (keys : SoundKeys crypto n.secretHere n.secretThere after) (paced : Paced after n.there)
    (heard : after.readEpoch ≤ n.there.writeEpoch)
    (arrived : ∀ id ∈ after.received, id ∈ n.here.received ∨ ∃ p ∈ n.fromThere, p.id = id ∧ p.keyEpoch ≤ after.readEpoch) :
    Coupled crypto {n with here := after} := by
  obtain ⟨⟨_,link,_,honest⟩,theirs,back,pacedThere,honestThere⟩ := coupled
  refine ⟨⟨keys,⟨link.keys,link.length,?_,link.single,fun s member => link.tracked s (grows.sent s member),link.arrived⟩,paced,honest⟩,
    theirs,⟨back.keys,back.length,back.past,back.single,back.tracked,?_⟩,⟨pacedThere.answered,pacedThere.near,heard,?_,?_,?_⟩,?_⟩
  · intro p member
    obtain ⟨epoch,number⟩ := link.past p member
    exact ⟨epoch.trans grows.write,by rw [grows.numbers]; exact number⟩
  · intro id member
    rcases arrived id member with old | fresh
    · obtain ⟨p,there,same,epoch⟩ := back.arrived id old
      exact ⟨p,there,same,epoch.trans grows.read⟩
    · exact fresh
  · exact pacedThere.ahead.trans (Nat.add_le_add_right grows.read 1)
  · intro quiet
    obtain ⟨own,peer⟩ := pacedThere.settled quiet
    exact ⟨own,peer.trans grows.read⟩
  · intro quiet
    rcases pacedThere.acknowledged quiet with zero | ⟨s,member,epoch,seen⟩
    · exact .inl zero
    · exact .inr ⟨s,member,epoch,grows.received _ seen⟩
  · intro a member id named
    obtain ⟨seen,p⟩ := honestThere a member id named
    exact ⟨grows.received id seen,p⟩

/-- A change that moves no epoch and takes no packet. -/
structure Quiet (conn after : Endpoint Secret) : Prop where
  write : after.writeEpoch = conn.writeEpoch
  read : after.readEpoch = conn.readEpoch
  pending : after.appWriteUpdatePendingAck = conn.appWriteUpdatePendingAck
  numbers : after.nextPn = conn.nextPn
  sent : ∀ s ∈ after.sent, s ∈ conn.sent
  received : after.received = conn.received
  acknowledged : after.acknowledged = conn.acknowledged

theorem Coupled.quiet {n : Network Secret} (coupled : Coupled crypto n) {after : Endpoint Secret} (still : Quiet n.here after)
    (keys : SoundKeys crypto n.secretHere n.secretThere after) : Coupled crypto {n with here := after} := by
  have paced := coupled.one.paced
  refine coupled.change ⟨still.write.ge,still.read.ge,still.numbers,still.sent,?_⟩ keys ?_ ?_ ?_
  · rw [still.received]
    exact fun _ member => member
  · refine ⟨?_,?_,?_,?_,?_,?_⟩ <;> simp only [still.write,still.read,still.pending,still.acknowledged]
    · exact paced.answered
    · exact paced.near
    · exact paced.heard
    · exact paced.ahead
    · exact paced.settled
    · exact paced.acknowledged
  · rw [still.read]
    exact coupled.other.paced.heard
  · rw [still.received]
    exact fun _ member => .inl member

theorem SoundKeys.same {mine theirs : Secret} {conn after : Endpoint Secret} (sound : SoundKeys crypto mine theirs conn)
    (write : after.appWriteCurrent = conn.appWriteCurrent) (current : after.appReadCurrent = conn.appReadCurrent)
    (next : after.appReadNext = conn.appReadNext)
    (previous : after.appReadPrevious = conn.appReadPrevious ∨ after.appReadPrevious = none) :
    SoundKeys crypto mine theirs after := by
  refine ⟨by rw [write]; exact sound.write,by rw [current,next]; exact sound.read,?_,by rw [current,next]; exact sound.idle⟩
  intro k held
  have epochs : after.readEpoch = conn.readEpoch := by unfold Endpoint.readEpoch; rw [current]
  rcases previous with same | gone
  · rw [epochs]
    exact sound.previous k (same ▸ held)
  · rw [gone] at held
    cases held

theorem Coupled.outside {n : Network Secret} (coupled : Coupled crypto n) {after : Endpoint Secret}
    (write : after.appWriteCurrent = n.here.appWriteCurrent) (current : after.appReadCurrent = n.here.appReadCurrent)
    (next : after.appReadNext = n.here.appReadNext)
    (previous : after.appReadPrevious = n.here.appReadPrevious ∨ after.appReadPrevious = none)
    (pending : after.appWriteUpdatePendingAck = n.here.appWriteUpdatePendingAck) (numbers : after.nextPn = n.here.nextPn)
    (sent : ∀ s ∈ after.sent, s ∈ n.here.sent) (received : after.received = n.here.received)
    (acknowledged : after.acknowledged = n.here.acknowledged) : Coupled crypto {n with here := after} :=
  coupled.quiet ⟨by unfold Endpoint.writeEpoch; rw [write],by unfold Endpoint.readEpoch; rw [current],pending,numbers,sent,
    received,acknowledged⟩ (coupled.one.keys.same write current next previous)

end

section
variable {crypto : Crypto Secret}

theorem writeEpoch_of {conn : Endpoint Secret} {k : ApplicationKeyEpoch Secret} (current : conn.appWriteCurrent = some k) :
    conn.writeEpoch = k.epoch := by
  unfold Endpoint.writeEpoch
  rw [current]
  rfl

theorem readEpoch_of {conn : Endpoint Secret} {k : ApplicationKeyEpoch Secret} (current : conn.appReadCurrent = some k) :
    conn.readEpoch = k.epoch := by
  unfold Endpoint.readEpoch
  rw [current]
  rfl

/-- New write keys, for either reason: the endpoint has nothing outstanding, or its read keys are ahead. -/
theorem Coupled.rewrite {n : Network Secret} (coupled : Coupled crypto n) {k : ApplicationKeyEpoch Secret}
    (current : n.here.appWriteCurrent = some k) (nowUs : Nat) (due : n.here.appWriteUpdatePendingAck = false) :
    Coupled crypto {n with here := {n.here with
      appWriteCurrent := some (nextApplicationKeyEpoch crypto k nowUs)
      appWriteUpdatePendingAck := true}} := by
  obtain ⟨own,peer⟩ := coupled.one.paced.settled due
  have before := writeEpoch_of current
  have keys := coupled.one.keys
  obtain ⟨_,held,genuine⟩ := keys.write
  obtain rfl := Option.some.inj (current.symm.trans held)
  refine coupled.change ⟨?_,Nat.le_refl _,rfl,fun _ member => member,fun _ member => member⟩
    ⟨⟨_,rfl,genuine_next genuine nowUs⟩,keys.read,keys.previous,keys.idle⟩
    ⟨?_,?_,?_,?_,fun quiet => (nomatch quiet),fun quiet => (nomatch quiet)⟩ coupled.other.paced.heard (fun _ member => .inl member)
  · rw [before]
    exact Nat.le_succ _
  · exact (coupled.one.paced.answered.trans_eq before).trans (Nat.le_succ _)
  · exact Nat.succ_le_succ (before ▸ own)
  · exact (coupled.one.paced.heard.trans_eq before).trans (Nat.le_succ _)
  · exact Nat.succ_le_succ (before ▸ peer)

theorem not_pending {conn : Endpoint Secret} {nowUs : Nat} (may : conn.canInitiateKeyUpdateAt nowUs = true) :
    conn.appWriteUpdatePendingAck = false := by
  unfold Endpoint.canInitiateKeyUpdateAt at may
  split_ifs at may with _ _ waiting
  exact Bool.eq_false_iff.mpr waiting

/-- The outcome of a request: blocked, or the next epoch with an acknowledgement to wait for. -/
theorem requestKeyUpdate_cases (conn : Endpoint Secret) (nowUs : Nat) :
    (∃ e, conn.requestKeyUpdate crypto nowUs = .error e) ∨
      ∃ k, conn.appWriteCurrent = some k ∧ conn.appWriteUpdatePendingAck = false ∧
        conn.requestKeyUpdate crypto nowUs = .ok {conn with
          appWriteCurrent := some (nextApplicationKeyEpoch crypto k nowUs)
          appWriteUpdatePendingAck := true} := by
  unfold Endpoint.requestKeyUpdate
  split_ifs with may
  · unfold Endpoint.installNextApplicationWriteKeys
    cases current : conn.appWriteCurrent with
    | none => exact .inl ⟨_,rfl⟩
    | some k => exact .inr ⟨k,rfl,not_pending may,rfl⟩
  · exact .inl ⟨_,rfl⟩

theorem Coupled.request {n : Network Secret} (coupled : Coupled crypto n) (nowUs : Nat) :
    Coupled crypto {n with here := kept n.here (n.here.requestKeyUpdate crypto nowUs)} := by
  rcases @requestKeyUpdate_cases _ crypto n.here nowUs with ⟨e,refused⟩ | ⟨k,current,due,accepted⟩
  · rw [refused]
    exact coupled
  · rw [accepted]
    exact coupled.rewrite current nowUs due

theorem Coupled.prepare {n : Network Secret} (coupled : Coupled crypto n) (nowUs : Nat) :
    Coupled crypto {n with here := kept n.here (n.here.prepareApplicationWriteKeys crypto nowUs)} := by
  unfold Endpoint.prepareApplicationWriteKeys
  cases n.here.appWriteCurrent with
  | none => exact coupled
  | some k =>
    dsimp only
    split_ifs
    · exact coupled.request nowUs
    · exact coupled.outside rfl rfl rfl (.inl rfl) rfl rfl (fun _ member => member) rfl rfl
    · exact coupled

def rotated (crypto : Crypto Secret) (conn : Endpoint Secret) (k next : ApplicationKeyEpoch Secret) (nowUs retention : Nat) :
    Endpoint Secret :=
  {conn with
    appReadPrevious := some {k with discardDeadlineUs := some (Machine.saturatingAdd nowUs retention)}
    appReadCurrent := some {next with installedAtUs := nowUs,discardDeadlineUs := none}
    appReadNext := some (nextApplicationKeyEpoch crypto {next with installedAtUs := nowUs,discardDeadlineUs := none} nowUs)}

theorem Coupled.rotate {n : Network Secret} (coupled : Coupled crypto n) {k next w : ApplicationKeyEpoch Secret}
    (nowUs retention : Nat) (pending : Bool) (current : n.here.appReadCurrent = some k) (following : n.here.appReadNext = some next)
    (sent : next.epoch ≤ n.there.writeEpoch) (genuineWrite : Genuine crypto n.secretHere w) (level : w.epoch = next.epoch)
    (later : n.here.writeEpoch ≤ w.epoch)
    (still : pending = false → n.here.appWriteUpdatePendingAck = false ∧ w.epoch = n.here.writeEpoch) :
    Coupled crypto {n with here := {rotated crypto n.here k next nowUs retention with
      appWriteCurrent := some w,appWriteUpdatePendingAck := pending}} := by
  obtain ⟨old,_,held,genuine,epoch⟩ := coupled.one.keys.read k current
  obtain rfl := Option.some.inj (following.symm.trans held)
  have fresh : Genuine crypto n.secretThere {next with installedAtUs := nowUs,discardDeadlineUs := none} :=
    ⟨genuine.secret,genuine.phase⟩
  have paced := coupled.one.paced
  refine coupled.change ⟨later,?_,rfl,fun _ member => member,fun _ member => member⟩
    ⟨⟨w,rfl,genuineWrite⟩,?_,?_,fun gone => (nomatch gone)⟩ ⟨level.ge,?_,paced.heard.trans later,?_,?_,?_⟩ sent
    (fun _ member => .inl member)
  · rw [readEpoch_of current]
    exact (Nat.le_succ _).trans epoch.ge
  · rintro _ ⟨⟩
    exact ⟨fresh,_,rfl,genuine_next fresh nowUs,rfl⟩
  · rintro _ ⟨⟩
    exact ⟨⟨old.secret,old.phase⟩,epoch⟩
  · exact level.le.trans (Nat.le_succ _)
  · exact (level.le.trans sent).trans coupled.other.paced.near
  · intro quiet
    obtain ⟨quiet,same⟩ := still quiet
    exact ⟨level.le,same.le.trans (paced.settled quiet).2⟩
  · intro quiet
    obtain ⟨quiet,same⟩ := still quiet
    show w.epoch = 0 ∨ ∃ s ∈ n.here.acknowledged, s.keyEpoch = some w.epoch ∧ s.id ∈ n.there.received
    rw [same]
    exact paced.acknowledged quiet

/-- A packet of the next epoch brings its read keys, and the answer: the write keys follow unless they are there. -/
theorem Coupled.promote {n : Network Secret} (coupled : Coupled crypto n) {k next : ApplicationKeyEpoch Secret}
    (nowUs retention : Nat) (current : n.here.appReadCurrent = some k) (following : n.here.appReadNext = some next)
    (sent : next.epoch ≤ n.there.writeEpoch) :
    ∃ promoted after, n.here.promoteApplicationReadKeys crypto nowUs retention = .ok promoted ∧
      promoted.maybeRespondToPeerKeyUpdate crypto nowUs = .ok after ∧ after.readEpoch = next.epoch ∧
      Coupled crypto {n with here := after} := by
  obtain ⟨w,write,genuineWrite⟩ := coupled.one.keys.write
  obtain ⟨_,_,held,genuine,epoch⟩ := coupled.one.keys.read k current
  obtain rfl := Option.some.inj (following.symm.trans held)
  have reads := readEpoch_of current
  have writes := writeEpoch_of write
  have answered := coupled.one.paced.answered
  have near := coupled.one.paced.near
  rw [reads,writes] at answered near
  have promoted : n.here.promoteApplicationReadKeys crypto nowUs retention = .ok (rotated crypto n.here k next nowUs retention) := by
    rw [Endpoint.promoteApplicationReadKeys,current,following]
    rfl
  refine ⟨rotated crypto n.here k next nowUs retention,?_⟩
  rw [promoted]
  unfold Endpoint.maybeRespondToPeerKeyUpdate
  have kept : (rotated crypto n.here k next nowUs retention).appWriteCurrent = some w := write
  rw [kept]
  dsimp only [rotated]
  split_ifs with same
  · have level : w.epoch = next.epoch := epochs_of_phases genuineWrite genuine (by omega) same
    refine ⟨_,rfl,rfl,rfl,?_⟩
    have rotate := coupled.rotate nowUs retention n.here.appWriteUpdatePendingAck current following sent genuineWrite level
      writes.le (fun quiet => ⟨quiet,writes.symm⟩)
    rw [← write] at rotate
    exact rotate
  · have behind : w.epoch = k.epoch := by
      rcases Nat.lt_or_ge w.epoch next.epoch with below | level
      · omega
      · have equal : w.epoch = next.epoch := by omega
        have phases : w.keyPhase = true ↔ next.keyPhase = true := by rw [genuineWrite.phase,genuine.phase,equal]
        exact absurd (Bool.eq_iff_iff.mpr phases) same
    refine ⟨_,rfl,by rw [Endpoint.installNextApplicationWriteKeys,write],rfl,?_⟩
    exact coupled.rotate nowUs retention true current following sent (genuine_next genuineWrite nowUs)
      ((congrArg (·+1) behind).trans epoch.symm) (writes.le.trans (Nat.le_succ _)) (fun quiet => (nomatch quiet))

def Endpoint.readKeys (conn : Endpoint Secret) : ApplicationReadKeySlot → Option (ApplicationKeyEpoch Secret)
  | .current => conn.appReadCurrent
  | .previous => conn.appReadPrevious
  | .next => conn.appReadNext

/-- What is assumed of the AEAD: a packet opens under the keys of the epoch it was sealed in, and under no other epoch's. -/
def Separate (crypto : Crypto Secret) (first : Secret) : Prop :=
  ∀ i j, crypto.opens (crypto.deriveNextTrafficSecret^[i] first) (crypto.deriveNextTrafficSecret^[j] first) = true ↔ i = j

/-- A packet of the endpoint that writes from `first` on. -/
def Sealed (crypto : Crypto Secret) (first : Secret) (p : Packet Secret) : Prop :=
  p.sealedUnder = crypto.deriveNextTrafficSecret^[p.keyEpoch] first ∧ (p.keyPhase = true ↔ p.keyEpoch % 2 = 1)

theorem unrecovered_none {p : Packet Secret} {largest : Nat} (lost : p.recovered largest = false)
    (k : Option (ApplicationKeyEpoch Secret)) (slot : ApplicationReadKeySlot) :
    Endpoint.tryOpenApplicationPacketWithEpoch crypto p largest k slot = none := by
  cases k with
  | none => rfl
  | some k =>
    dsimp only [Endpoint.tryOpenApplicationPacketWithEpoch]
    rw [lost]
    rfl

theorem unrecovered_closed {p : Packet Secret} {largest : Nat} (lost : p.recovered largest = false) (conn : Endpoint Secret) :
    (conn.openApplicationPacket crypto p largest).1 = none := by
  unfold Endpoint.openApplicationPacket
  rw [unrecovered_none lost,unrecovered_none lost]
  exact unrecovered_none lost _ _

theorem open_still {conn : Endpoint Secret} {next : ApplicationKeyEpoch Secret} (following : conn.appReadNext = some next)
    (p : Packet Secret) (largest : Nat) : (conn.openApplicationPacket crypto p largest).2 = conn := by
  unfold Endpoint.openApplicationPacket
  rw [following]
  split
  · rfl
  split <;> rfl

section
variable {first mine : Secret} (separate : Separate crypto first) {p : Packet Secret} (made : Sealed crypto first p) {largest : Nat}
include separate made

theorem tryOpen_eq (recovered : p.recovered largest = true) {k : ApplicationKeyEpoch Secret} (genuine : Genuine crypto first k)
    (slot : ApplicationReadKeySlot) : Endpoint.tryOpenApplicationPacketWithEpoch crypto p largest (some k) slot =
      if k.epoch = p.keyEpoch then some (slot,k) else none := by
  dsimp only [Endpoint.tryOpenApplicationPacketWithEpoch]
  rw [recovered,Bool.not_true,Bool.false_or,made.1,genuine.secret]
  by_cases own : k.epoch = p.keyEpoch
  · have phase : p.keyPhase = k.keyPhase := Bool.eq_iff_iff.mpr (by rw [made.2,genuine.phase,own])
    rw [own,(separate _ _).mpr rfl,Bool.not_true,if_neg Bool.false_ne_true,if_neg (not_not_intro phase),if_pos rfl]
  · rw [Bool.eq_false_iff.mpr fun opened => own ((separate _ _).mp opened).symm,Bool.not_false,if_pos rfl,if_neg own]

theorem open_eq (recovered : p.recovered largest = true) {conn : Endpoint Secret} (keys : SoundKeys crypto mine first conn)
    {c next : ApplicationKeyEpoch Secret} (current : conn.appReadCurrent = some c) (following : conn.appReadNext = some next) :
    conn.openApplicationPacket crypto p largest =
      (if c.epoch = p.keyEpoch then some (.current,c)
        else ((conn.appReadPrevious.filter (·.epoch = p.keyEpoch)).map (ApplicationReadKeySlot.previous,·)).or
          (if next.epoch = p.keyEpoch then some (.next,next) else none),conn) := by
  obtain ⟨genuine,_,held,genuineNext,_⟩ := keys.read c current
  obtain rfl := Option.some.inj (following.symm.trans held)
  have ready : (if conn.appReadNext.isNone then conn.refreshNextApplicationReadKey crypto else conn) = conn :=
    if_neg (by rw [following]; exact Bool.false_ne_true)
  unfold Endpoint.openApplicationPacket
  dsimp only
  rw [ready,current,following,tryOpen_eq separate made recovered genuine,tryOpen_eq separate made recovered genuineNext]
  by_cases own : c.epoch = p.keyEpoch
  · rw [if_pos own,if_pos own]
  rw [if_neg own,if_neg own]
  cases before : conn.appReadPrevious with
  | none => rfl
  | some q =>
    rw [tryOpen_eq separate made recovered (keys.previous q before).1]
    by_cases older : q.epoch = p.keyEpoch
    · rw [if_pos older,Option.filter_some,decide_eq_true older]
      rfl
    · rw [if_neg older,Option.filter_some,decide_eq_false older]
      rfl

theorem opened_own {conn after : Endpoint Secret} {slot : ApplicationReadKeySlot} {k : ApplicationKeyEpoch Secret}
    (keys : SoundKeys crypto mine first conn) (present : conn.appReadCurrent ≠ none)
    (opened : conn.openApplicationPacket crypto p largest = (some (slot,k),after)) :
    after = conn ∧ k.epoch = p.keyEpoch ∧ conn.readKeys slot = some k := by
  obtain ⟨c,current⟩ := Option.ne_none_iff_exists'.mp present
  obtain ⟨_,next,following,_⟩ := keys.read c current
  have recovered : p.recovered largest = true := by
    by_contra lost
    have closed : (conn.openApplicationPacket crypto p largest).1 = none := unrecovered_closed (Bool.eq_false_iff.mpr lost) conn
    rw [opened] at closed
    cases closed
  rw [open_eq separate made recovered keys current following,Prod.mk.injEq] at opened
  obtain ⟨opened,rfl⟩ := opened
  refine ⟨rfl,?_⟩
  by_cases own : c.epoch = p.keyEpoch
  · rw [if_pos own] at opened
    obtain ⟨rfl,rfl⟩ := Prod.mk.inj (Option.some.inj opened)
    exact ⟨own,current⟩
  rw [if_neg own,Option.or_eq_some_iff] at opened
  rcases opened with before | ⟨_,newer⟩
  · obtain ⟨q,there,pair⟩ := Option.map_eq_some_iff.mp before
    obtain ⟨rfl,rfl⟩ := Prod.mk.inj pair
    obtain ⟨there,older⟩ := Option.filter_eq_some_iff.mp there
    exact ⟨of_decide_eq_true older,there⟩
  · rw [Option.ite_none_right_eq_some] at newer
    obtain ⟨newer,pair⟩ := newer
    obtain ⟨rfl,rfl⟩ := Prod.mk.inj (Option.some.inj pair)
    exact ⟨newer,following⟩

end

end

section
variable {crypto : Crypto Secret}

theorem Coupled.installRead {n : Network Secret} (coupled : Coupled crypto n) (once : n.here.appReadCurrent = none) :
    Coupled crypto {n with here := n.here.installReadSecret crypto n.secretThere} := by
  have zero : n.here.readEpoch = 0 := by unfold Endpoint.readEpoch; rw [once]; rfl
  have paced := coupled.one.paced
  have near := paced.near
  have settled := paced.settled
  rw [zero] at near settled
  have fresh := genuine_first crypto n.secretThere
  refine coupled.change ⟨Nat.le_refl _,zero.le.trans (Nat.zero_le _),rfl,fun _ member => member,fun _ member => member⟩
    ⟨coupled.one.keys.write,?_,fun _ gone => (nomatch gone),fun gone => (nomatch gone)⟩
    ⟨Nat.zero_le _,near,paced.heard,paced.ahead,settled,paced.acknowledged⟩ (Nat.zero_le _) (fun _ member => .inl member)
  rintro _ ⟨⟩
  exact ⟨fresh,_,rfl,genuine_next fresh 0,rfl⟩

theorem chooseLength_bounds (pn : Nat) (largestAcked : Option Nat) :
    1 ≤ Wire.PacketNumber.chooseLength pn largestAcked ∧ Wire.PacketNumber.chooseLength pn largestAcked ≤ 4 := by
  unfold Wire.PacketNumber.chooseLength
  dsimp only
  split_ifs <;> decide

/-- A packet of the current write epoch, with acknowledgements of packets that have arrived. -/
theorem Coupled.seal {n : Network Secret} (coupled : Coupled crypto n) (pathId : Nat) (eliciting : Bool)
    (acks : List TrackedPacket) : Coupled crypto (act crypto n (.send pathId eliciting acks)) := by
  dsimp only [act,Endpoint.sealPacket]
  obtain ⟨w,write,genuine⟩ := coupled.one.keys.write
  rw [write]
  dsimp only
  have writes : w.epoch = n.here.writeEpoch := (writeEpoch_of write).symm
  obtain ⟨⟨keys,link,paced,honest⟩,theirs,back,pacedThere,honestThere⟩ := coupled
  have later : ∀ p ∈ n.fromHere, p.id ≠ ⟨pathId,n.here.nextPn pathId⟩ := fun p member same => by
    have number := (link.past p member).2
    rw [same] at number
    exact Nat.lt_irrefl _ number
  have numbers : ∀ path, n.here.nextPn path ≤ Function.update n.here.nextPn pathId (n.here.nextPn pathId+1) path := fun path => by
    rw [Function.update_apply]
    split_ifs with same
    · rw [same]
      exact Nat.le_succ _
    · exact Nat.le_refl _
  refine ⟨⟨⟨⟨_,rfl,genuine.secret,genuine.phase⟩,keys.read,keys.previous,keys.idle⟩,⟨?_,?_,?_,?_,?_,?_⟩,?_,?_⟩,
    theirs,⟨back.keys,back.length,back.past,back.single,back.tracked,back.arrived⟩,?_,?_⟩
  · intro p member
    rcases List.mem_cons.mp member with rfl | old
    · exact ⟨genuine.secret,genuine.phase⟩
    · exact link.keys p old
  · intro p member
    rcases List.mem_cons.mp member with rfl | old
    · exact chooseLength_bounds _ _
    · exact link.length p old
  · intro p member
    rcases List.mem_cons.mp member with rfl | old
    · refine ⟨Nat.le_refl _,?_⟩
      show n.here.nextPn pathId < Function.update n.here.nextPn pathId (n.here.nextPn pathId+1) pathId
      rw [Function.update_self]
      exact Nat.lt_succ_self _
    · obtain ⟨before,number⟩ := link.past p old
      exact ⟨before.trans_eq writes.symm,number.trans_le (numbers _)⟩
  · intro p one q two same
    rcases List.mem_cons.mp one with rfl | oldOne <;> rcases List.mem_cons.mp two with rfl | oldTwo
    · rfl
    · exact absurd same.symm (later q oldTwo)
    · exact absurd same (later p oldOne)
    · exact link.single p oldOne q oldTwo same
  · intro s member
    have cases' : s = ⟨⟨pathId,n.here.nextPn pathId⟩,some w.epoch,w.keyPhase⟩ ∨ s ∈ n.here.sent := by
      cases eliciting with
      | true => exact List.mem_cons.mp member
      | false => exact .inr member
    rcases cases' with rfl | old
    · exact ⟨_,List.mem_cons_self,rfl,rfl⟩
    · obtain ⟨p,there,same⟩ := link.tracked s old
      exact ⟨p,List.mem_cons_of_mem _ there,same⟩
  · intro id member
    obtain ⟨p,there,same⟩ := link.arrived id member
    exact ⟨p,List.mem_cons_of_mem _ there,same⟩
  · refine ⟨?_,?_,?_,?_,?_,?_⟩ <;> simp only [Endpoint.writeEpoch,Option.map_some,Option.getD_some,writes]
    · exact paced.answered
    · exact paced.near
    · exact paced.heard
    · exact paced.ahead
    · exact paced.settled
    · exact paced.acknowledged
  · intro a member id named
    obtain ⟨seen,p,there,same⟩ := honest a member id named
    exact ⟨seen,p,List.mem_cons_of_mem _ there,same⟩
  · refine ⟨pacedThere.answered,pacedThere.near,?_,pacedThere.ahead,pacedThere.settled,pacedThere.acknowledged⟩
    exact pacedThere.heard
  · intro a member id named
    rcases List.mem_cons.mp member with rfl | old
    · obtain ⟨_,arrived⟩ := List.mem_filter.mp named
      have arrived := of_decide_eq_true arrived
      obtain ⟨p,there,same,before⟩ := back.arrived id arrived
      exact ⟨arrived,p,there,same,before.trans (paced.answered.trans_eq writes.symm)⟩
    · exact honestThere a old id named

theorem onAcked_keys (conn : Endpoint Secret) (packet : SentPacket) (nowUs retention : Nat) {w : ApplicationKeyEpoch Secret}
    (write : conn.appWriteCurrent = some w) :
    conn.onApplicationPacketAckedForKeys packet nowUs retention = conn ∨
      packet.keyEpoch = some w.epoch ∧ ∃ cooldown, conn.onApplicationPacketAckedForKeys packet nowUs retention =
        {conn with
          appWriteCurrent := some {w with acked := true}
          appWriteUpdatePendingAck := false
          appNextLocalUpdateAfterUs := cooldown} := by
  unfold Endpoint.onApplicationPacketAckedForKeys
  rw [write]
  cases named : packet.keyEpoch with
  | none => exact .inl rfl
  | some epochId =>
    dsimp only
    split_ifs with same waiting
    · exact .inr ⟨congrArg some same.symm,_,rfl⟩
    · refine .inr ⟨congrArg some same.symm,conn.appNextLocalUpdateAfterUs,?_⟩
      rw [← Bool.eq_false_iff.mpr waiting]
    · exact .inl rfl

theorem Coupled.removeAcked {n : Network Secret} (coupled : Coupled crypto n) (nowUs retention : Nat) {a : Packet Secret}
    (member : a ∈ n.fromThere) (opened : a.keyEpoch ≤ n.here.readEpoch) {id : TrackedPacket} (named : id ∈ a.acks) :
    Coupled crypto {n with here := n.here.removeAcked nowUs retention id} ∧
      (n.here.removeAcked nowUs retention id).readEpoch = n.here.readEpoch := by
  unfold Endpoint.removeAcked
  cases found : n.here.sent.find? (·.id == id) with
  | none => exact ⟨coupled,rfl⟩
  | some s =>
    have tracked := List.mem_of_find?_eq_some found
    have matched : (s.id == id) = true := @List.find?_some _ (·.id == id) s n.here.sent found
    have own : s.id = id := eq_of_beq matched
    obtain ⟨w,write,genuine⟩ := coupled.one.keys.write
    have writes := writeEpoch_of write
    have keys := coupled.one.keys
    have paced := coupled.one.paced
    obtain ⟨seen,p,there,same,sealedBefore⟩ := coupled.one.honest a member id named
    obtain ⟨q,atHere,sameSent,epoch⟩ := coupled.one.link.tracked s tracked
    obtain rfl := coupled.one.link.single p there q atHere (same.trans (own.symm.trans sameSent.symm))
    obtain ⟨q,atHere,sameSeen,arrived⟩ := coupled.one.link.arrived id seen
    obtain rfl := coupled.one.link.single p there q atHere (same.trans sameSeen.symm)
    have fewer : ∀ t ∈ n.here.sent.filter (·.id != id), t ∈ n.here.sent := fun t inside => (List.mem_filter.mp inside).1
    dsimp only
    rcases onAcked_keys {n.here with sent := n.here.sent.filter (·.id != id),acknowledged := s::n.here.acknowledged} s
      nowUs retention write with other | ⟨current,cooldown,changed⟩
    · rw [other]
      refine ⟨?_,rfl⟩
      refine coupled.change ⟨Nat.le_refl _,Nat.le_refl _,rfl,fewer,fun _ inside => inside⟩ ⟨keys.write,keys.read,keys.previous,keys.idle⟩
        ⟨paced.answered,paced.near,paced.heard,paced.ahead,paced.settled,?_⟩ coupled.other.paced.heard (fun _ inside => .inl inside)
      intro quiet
      rcases paced.acknowledged quiet with zero | ⟨t,inside,rest⟩
      · exact .inl zero
      · exact .inr ⟨t,List.mem_cons_of_mem _ inside,rest⟩
    · rw [changed]
      have level : p.keyEpoch = n.here.writeEpoch := (Option.some.inj (epoch.symm.trans current)).trans writes.symm
      have same : ((some {w with acked := true}).map (·.epoch)).getD 0 = n.here.writeEpoch := writes.symm
      refine ⟨?_,rfl⟩
      refine coupled.change ⟨same.ge,Nat.le_refl _,rfl,fewer,fun _ inside => inside⟩
        ⟨⟨_,rfl,genuine.secret,genuine.phase⟩,keys.read,keys.previous,keys.idle⟩ ⟨?_,?_,?_,?_,?_,?_⟩ coupled.other.paced.heard
        (fun _ inside => .inl inside)
      · exact paced.answered.trans_eq same.symm
      · exact same.le.trans paced.near
      · exact paced.heard.trans_eq same.symm
      · exact same.le.trans paced.ahead
      · intro _
        exact ⟨same.le.trans (level.ge.trans (sealedBefore.trans opened)),same.le.trans (level.ge.trans arrived)⟩
      · intro _
        refine .inr ⟨s,List.mem_cons_self,?_,own ▸ seen⟩
        exact current

theorem Coupled.ack {n : Network Secret} (coupled : Coupled crypto n) (nowUs retention : Nat) {a : Packet Secret}
    (member : a ∈ n.fromThere) (opened : a.keyEpoch ≤ n.here.readEpoch) {id : TrackedPacket} (named : id ∈ a.acks) :
    Coupled crypto {n with here := n.here.ackPacket nowUs retention id} ∧
      (n.here.ackPacket nowUs retention id).readEpoch = n.here.readEpoch := by
  have counted : Coupled crypto {n with here := n.here.onAckReceived id} :=
    coupled.outside rfl rfl rfl (.inl rfl) rfl rfl (fun _ inside => inside) rfl rfl
  exact counted.removeAcked nowUs retention member opened named

end

section
variable {crypto : Crypto Secret}

theorem Coupled.acks {n : Network Secret} (coupled : Coupled crypto n) (nowUs retention : Nat) {a : Packet Secret}
    (member : a ∈ n.fromThere) (opened : a.keyEpoch ≤ n.here.readEpoch) {ids : List TrackedPacket} (named : ∀ id ∈ ids, id ∈ a.acks) :
    Coupled crypto {n with here := ids.foldl (Endpoint.ackPacket nowUs retention) n.here} := by
  induction ids generalizing n with
  | nil => exact coupled
  | cons id rest ih =>
    obtain ⟨next,same⟩ := coupled.ack nowUs retention member opened (named id List.mem_cons_self)
    exact ih next member (opened.trans_eq same.symm) fun other inside => named other (List.mem_cons_of_mem _ inside)

theorem Coupled.finish {n : Network Secret} (coupled : Coupled crypto n) (nowUs retention : Nat) {a : Packet Secret}
    (member : a ∈ n.fromThere) (opened : a.keyEpoch ≤ n.here.readEpoch) :
    Coupled crypto {n with here := n.here.finishOpenedPacket a nowUs retention} := by
  unfold Endpoint.finishOpenedPacket
  split_ifs with closing
  · exact coupled
  have keys := coupled.one.keys
  have paced := coupled.one.paced
  have taken : Coupled crypto {n with here := {n.here with received := a.id::n.here.received}} := by
    refine coupled.change ⟨Nat.le_refl _,Nat.le_refl _,rfl,fun _ inside => inside,fun _ inside => List.mem_cons_of_mem _ inside⟩
      ⟨keys.write,keys.read,keys.previous,keys.idle⟩
      ⟨paced.answered,paced.near,paced.heard,paced.ahead,paced.settled,paced.acknowledged⟩ coupled.other.paced.heard ?_
    intro id inside
    rcases List.mem_cons.mp inside with rfl | old
    · exact .inr ⟨a,member,rfl,opened⟩
    · exact .inl old
  dsimp only
  split_ifs
  · exact taken
  · exact taken.acks nowUs retention member opened fun _ inside => inside

theorem Coupled.authFailure {n : Network Secret} (coupled : Coupled crypto n) :
    Coupled crypto {n with here := n.here.noteApplicationAuthFailure} := by
  unfold Endpoint.noteApplicationAuthFailure
  dsimp only
  split_ifs <;> exact coupled.outside rfl rfl rfl (.inl rfl) rfl rfl (fun _ inside => inside) rfl rfl

theorem Coupled.short {n : Network Secret} (coupled : Coupled crypto n) (separate : Separate crypto n.secretThere)
    (nowUs retention : Nat) {p : Packet Secret} (member : p ∈ n.fromThere) :
    Coupled crypto {n with here := kept n.here (n.here.handleShort crypto p nowUs retention)} := by
  unfold Endpoint.handleShort
  split_ifs with absent
  · exact coupled
  have keys := coupled.one.keys
  have present : n.here.appReadCurrent ≠ none := fun missing => absent (by rw [missing]; rfl)
  obtain ⟨c,current⟩ := Option.ne_none_iff_exists'.mp present
  obtain ⟨_,next,following,_,step⟩ := keys.read c current
  have made : Sealed crypto n.secretThere p := coupled.other.link.keys p member
  have reads := readEpoch_of current
  rcases opened : n.here.openApplicationPacket crypto p (n.here.largestReceived p.id.pathId) with ⟨_ | ⟨slot,k⟩,after⟩
  · have same : after = n.here := (congrArg Prod.snd opened).symm.trans (open_still following p _)
    rw [same]
    exact coupled.authFailure
  obtain ⟨rfl,own,held⟩ := opened_own separate made keys present opened
  cases slot with
  | next =>
    obtain rfl := Option.some.inj (following.symm.trans held)
    obtain ⟨promoted,answered,first,second,level,after⟩ := coupled.promote nowUs retention current following
      (own.trans_le (coupled.other.link.past p member).1)
    have both : (do
        let conn ← n.here.promoteApplicationReadKeys crypto nowUs retention
        let conn ← conn.maybeRespondToPeerKeyUpdate crypto nowUs
        return conn.finishOpenedPacket p nowUs retention : Except KeyError (Endpoint Secret)) =
        .ok (answered.finishOpenedPacket p nowUs retention) := by
      rw [first]
      show (promoted.maybeRespondToPeerKeyUpdate crypto nowUs >>= _) = _
      rw [second]
      rfl
    dsimp only
    rw [both]
    exact after.finish nowUs retention member (own.symm.trans level.symm).le
  | current =>
    refine coupled.finish nowUs retention member ?_
    obtain rfl := Option.some.inj (current.symm.trans held)
    exact (own.symm.trans reads.symm).le
  | previous =>
    refine coupled.finish nowUs retention member ?_
    rw [(keys.previous k held).2,own]
    exact Nat.le_succ _

theorem Coupled.act {n : Network Secret} (coupled : Coupled crypto n) (separate : Separate crypto n.secretThere) (event : Act)
    (once : event = .installRead → n.here.appReadCurrent = none) : Coupled crypto (Keys.act crypto n event) := by
  cases event with
  | installRead => exact coupled.installRead (once rfl)
  | confirm => exact coupled.outside rfl rfl rfl (.inl rfl) rfl rfl (fun _ inside => inside) rfl rfl
  | requestKeyUpdate nowUs => exact coupled.request nowUs
  | prepare nowUs => exact coupled.prepare nowUs
  | send pathId eliciting acks => exact coupled.seal pathId eliciting acks
  | receive index nowUs retention =>
    dsimp only [Keys.act]
    cases found : n.fromThere[index]? with
    | none => exact coupled
    | some p => exact coupled.short separate nowUs retention (List.mem_of_getElem? found)
  | forged =>
    dsimp only [Keys.act]
    split_ifs
    · exact coupled
    · exact coupled.authFailure
  | lose id =>
    exact coupled.outside rfl rfl rfl (.inl rfl) rfl rfl (fun _ inside => (List.mem_filter.mp inside).1) rfl rfl
  | discardExpired nowUs =>
    dsimp only [Keys.act,Endpoint.discardExpiredApplicationReadKeys]
    cases n.here.appReadPrevious with
    | none => exact coupled
    | some k =>
      dsimp only
      cases k.discardDeadlineUs with
      | none => exact coupled
      | some deadline =>
        dsimp only
        split_ifs
        · exact coupled.outside rfl rfl rfl (.inr rfl) rfl rfl (fun _ inside => inside) rfl rfl
        · exact coupled
  | close => exact coupled.outside rfl rfl rfl (.inl rfl) rfl rfl (fun _ inside => inside) rfl rfl

end

section
variable {crypto : Crypto Secret}

/-- Two endpoints whose handshake gave them these secrets to write with. -/
def Fresh (client server : Secret) (n : Network Secret) : Prop := Start n ∧ n.secretHere = client ∧ n.secretThere = server

variable {client server : Secret} (one : Separate crypto client) (two : Separate crypto server)
include one two

/-- The packet's number lies within half the window of its length around the number that is expected on its path. -/
def InWindow (conn : Endpoint Secret) (p : Packet Secret) : Prop :=
  let expected := conn.largestReceived p.id.pathId+1
  p.id.pn ≤ Wire.PacketNumber.maxValue ∧ 2*p.id.pn ≤ 2*expected+2^(8*p.pnLen) ∧ 2*expected < 2*p.id.pn+2^(8*p.pnLen)

omit one two in
theorem InWindow.recovered {conn : Endpoint Secret} {p : Packet Secret} (window : InWindow conn p) (length : 1 ≤ p.pnLen ∧ p.pnLen ≤ 4) :
    p.recovered (conn.largestReceived p.id.pathId) = true := by
  obtain ⟨small,notAbove,notBelow⟩ := window
  unfold Packet.recovered
  rw [Wire.PacketNumber.decode_near length.1 length.2 small notAbove notBelow]
  exact decide_eq_true rfl

/-- The packet number 5 in two bytes, once the number 40000 has arrived. -/
example : (⟨⟨0,5⟩,2,false,100,0,[]⟩ : Packet Nat).recovered 40000 = false := by decide +kernel

end

/-- Both handshakes done, nothing sent. -/
def fresh : Network Nat :=
  let limits : ApplicationKeyUpdateLimits := ⟨2^23,2^23-1024,2^52⟩
  {here := ({limits} : Endpoint Nat).installWriteSecret 100
   there := ({limits} : Endpoint Nat).installWriteSecret 200
   secretHere := 100
   secretThere := 200}

theorem fresh_start : Fresh 100 200 fresh := ⟨⟨⟨_,rfl⟩,⟨_,rfl⟩,rfl,rfl⟩,rfl,rfl⟩

def exchange : List (Side × Act) :=
  [(.client,.installRead),(.server,.installRead),(.client,.confirm),(.server,.confirm),(.client,.requestKeyUpdate 0),
    (.client,.send 0 true []),(.server,.receive 0 10 100),(.server,.send 0 true [⟨0,0⟩]),(.client,.receive 0 20 100)]

end QuicZig.Conn.Keys
