import QuicZig.Conn.Closing
import Mathlib.Data.Nat.Log

/-! The end of a connection over whole runs: the state goes forward, the periods end at their
deadlines, and what leaves is CONNECTION_CLOSE, ever more rarely. -/
namespace QuicZig.Conn.Closing
open Machine

def CloseState.rank : CloseState → Nat
  | .open => 0
  | .closing => 1
  | .draining => 2
  | .closed => 3

/-- A change goes forward, keeps the cause, and ends a period at its deadline or by the next one. -/
structure Moment.Forward (m : Moment) : Prop where
  rank : m.before.state.rank ≤ m.after.state.rank
  cause : ∀ cause, m.before.cause = some cause → m.after.cause = some cause
  draining : ∀ deadline, m.before.drainingDeadlineUs = some deadline →
    m.after.drainingDeadlineUs = some deadline ∨ (m.after.state = .closed ∧ m.trigger = .finishDraining ∧ deadline ≤ m.nowUs)
  closing : ∀ deadline, m.before.closingDeadlineUs = some deadline →
    m.after.closingDeadlineUs = some deadline ∨ m.after.state = .draining ∨
      (m.after.state = .closed ∧ (m.trigger = .enterClosed ∨ (m.trigger = .finishDraining ∧ deadline ≤ m.nowUs)))

/-- A tick at the deadline, or behind it, ends the period. -/
def Moment.Over (m : Moment) : Prop :=
  ∀ deadline, m.before.drainingDeadlineUs = some deadline ∨ m.before.closingDeadlineUs = some deadline →
    deadline ≤ m.nowUs → m.after.state = .closed

def Moment.Lawful (m : Moment) : Prop := if m.trigger = .tick then m.Over else m.Forward

/-- A closing connection sends CONNECTION_CLOSE only, and one that drains or is closed nothing. -/
structure Sent.Lawful (s : Sent) : Prop where
  closing : s.during.state = .closing → ∀ packet ∈ s.packets, packet.2.isClose = true
  quiet : s.during.state ≠ .draining ∧ s.during.state ≠ .closed

def Connection.emits (c : Connection) : Nat := c.sent.countP Sent.hasClose

structure Good (c : Connection) : Prop where
  past : ∀ m ∈ c.past, m.Lawful
  sent : ∀ s ∈ c.sent, s.Lawful
  rare : c.attributed+1 < 3*2^16 → c.emits ≤ 1+Nat.log 2 (c.attributed+1)

structure Fresh (c : Connection) : Prop where
  lifecycle : c.lifecycle = {}
  rest : c.restDeadlineValid = false
  past : c.past = []
  sent : c.sent = []
  attributed : c.attributed = 0

def closes (frames : List Frame) : Nat := frames.countP fun
  | .connectionClose _ _ => true
  | _ => false

def Opening.closes : Opening → Nat
  | .opened _ _ frames _ => Closing.closes frames
  | _ => 0

/-- The CONNECTION_CLOSE frames of a packet that `dispatchFrames` comes to. -/
def dispatched : List Frame → Nat
  | [] => 0
  | .malformed::_ => 0
  | .connectionClose _ none::rest => dispatched rest+1
  | .connectionClose _ (some _)::_ => 0
  | .other _ returns::rest => if returns then 0 else dispatched rest

def Opening.dispatched : Opening → Nat
  | .opened _ false frames _ => Closing.dispatched frames
  | _ => 0

def Packet.dispatched : Packet → Nat
  | .long opening => opening.dispatched
  | _ => 0

/-- The packets that the loop over a datagram comes to, when nothing in them stops it. -/
def reached : List Received → List Received
  | [] => []
  | received::rest => if received.packet = .empty ∨ received.drainTls = false then [received] else received::reached rest

def Packet.ends : Packet → Bool
  | .empty => false
  | .statelessReset => true
  | .versionNegotiation => true
  | .long opening => opening.closes ≠ 0

def heldCloses (held : List Opening) : Nat := (held.map Opening.closes).sum

/-- The connection is ended once in a datagram: in no packet that is read are two CONNECTION_CLOSE frames acted on, and no
CONNECTION_CLOSE frame of a kept packet is read behind a packet that ends the connection. -/
structure EndsOnce (c : Connection) (d : Datagram) : Prop where
  once : c.lifecycle.closingAttributionOnly = true ∨ ∀ r ∈ reached d.packets, r.packet.dispatched ≤ 1
  held : heldCloses d.held ≤ 1
  ended : (∃ r ∈ reached d.packets, r.packet.ends = true) → heldCloses d.held = 0

def Orderly (c : Connection) : Event → Prop
  | .handle d _ => EndsOnce c d
  | _ => True

/-- The packets that earned the emissions up to the `n`-th. -/
def spent : Nat → Nat
  | 0 => 0
  | 1 => 0
  | n+2 => spent (n+1)+2^min n 16

/-- What the fields have to do with each other. -/
structure LifecycleState.Sound (l : LifecycleState) : Prop where
  draining : l.drainingDeadlineUs.isSome = true → l.closed = true ∧ l.pendingClose = none ∧ l.closingDeadlineUs = none
  closing : l.closingDeadlineUs.isSome = true → l.closed = true ∧ l.closeEmitCount ≠ 0
  alive : l.closed = false → l.closeEmitCount = 0
  pending : l.pendingClose.isSome = true → l.closed = true → l.closingDeadlineUs.isSome = true

structure Kept (c : Connection) : Prop where
  sound : c.lifecycle.Sound
  past : ∀ m ∈ c.past, m.Lawful
  sent : ∀ s ∈ c.sent, s.Lawful
  rest : c.restDeadlineValid = true → c.lifecycle.closed = false ∧ c.lifecycle.pendingClose = none
  count : c.lifecycle.closeEmitCount = min c.emits maxU32
  paid : spent c.emits+c.lifecycle.closingPacketsSinceEmit ≤ c.attributed
  earned : c.lifecycle.pendingClose.isSome = true → c.emits ≠ 0 → 2^min (c.emits-1) 16 ≤ c.lifecycle.closingPacketsSinceEmit

theorem spent_pow {n : Nat} (small : n ≤ 17) : spent (n+1)+1 = 2^n := by
  induction n with
  | zero => rfl
  | succ n ih =>
    have before := ih (by omega)
    have capped : min n 16 = n := by omega
    rw [spent,capped,Nat.pow_succ]
    omega

theorem spent_mono {m n : Nat} (le : m ≤ n) : spent m ≤ spent n := by
  induction le with
  | refl => exact le_rfl
  | step _ ih =>
    rename_i n _
    refine Nat.le_trans ih ?_
    cases n with
    | zero => exact le_rfl
    | succ n => exact Nat.le_add_right _ _

theorem rare_of_spent {emits attributed : Nat} (paid : spent emits ≤ attributed) (few : attributed+1 < 3*2^16) :
    emits ≤ 1+Nat.log 2 (attributed+1) := by
  have most : emits ≤ 18 := by
    by_contra many
    have all := spent_mono (show 19 ≤ emits by omega)
    have there : spent 19 = 3*2^16-1 := by decide
    omega
  cases emits with
  | zero => exact Nat.zero_le _
  | succ n =>
    have pow := @spent_pow n (by omega)
    have log : n ≤ Nat.log 2 (attributed+1) := Nat.le_log_of_pow_le (by decide) (by omega)
    omega

theorem Kept.good {c : Connection} (kept : Kept c) : Good c :=
  ⟨kept.past,kept.sent,rare_of_spent (Nat.le_trans (Nat.le_add_right _ _) kept.paid)⟩

theorem rank_le (s : CloseState) : s.rank ≤ 3 := by
  cases s <;> decide

namespace LifecycleState
variable {l : LifecycleState}

/-- Neither draining nor closed. -/
def Alive (l : LifecycleState) : Prop := l.state ≠ .draining ∧ l.state ≠ .closed

theorem state_draining {deadline : Nat} (there : l.drainingDeadlineUs = some deadline) : l.state = .draining := by
  unfold state
  rw [there]
  rfl

theorem state_closing (still : l.drainingDeadlineUs = none) (armed : l.closingDeadlineUs.isSome = true) : l.state = .closing := by
  unfold state
  rw [still,armed]
  rfl

theorem Alive.draining (alive : l.Alive) : l.drainingDeadlineUs = none := by
  cases there : l.drainingDeadlineUs with
  | none => rfl
  | some deadline => exact absurd (state_draining there) alive.1

theorem Alive.rank (alive : l.Alive) : l.state.rank ≤ 1 := by
  obtain ⟨notDraining,notClosed⟩ := alive
  cases state : l.state with
  | «open» => decide
  | closing => decide
  | draining => exact absurd state notDraining
  | closed => exact absurd state notClosed

theorem record_fields (source : CloseSource) (errorSpace : CloseErrorSpace) (errorCode frameType : Nat) (reason : List Byte)
    (atUs drainingDeadlineUs : Option Nat) : ∃ event buf,
      l.record source errorSpace errorCode frameType reason atUs drainingDeadlineUs =
        {l with closeEvent := event,closeReasonBuf := buf} := by
  unfold record
  split
  · exact ⟨l.closeEvent,l.closeReasonBuf,rfl⟩
  · exact ⟨_,_,rfl⟩

theorem record_cause (source : CloseSource) (errorSpace : CloseErrorSpace) (errorCode frameType : Nat) (reason : List Byte)
    (atUs drainingDeadlineUs : Option Nat) {cause : CloseCause} (known : l.cause = some cause) :
    (l.record source errorSpace errorCode frameType reason atUs drainingDeadlineUs).cause = some cause := by
  unfold record
  split
  · exact known
  · rename_i none
    unfold LifecycleState.cause at known
    cases event : l.closeEvent with
    | none =>
      rw [event] at known
      cases known
    | some _ =>
      rw [event] at none
      exact absurd rfl none

end LifecycleState

theorem Moment.forward_refl (trigger : Trigger) (nowUs : Nat) (l : LifecycleState) : (⟨trigger,nowUs,l,l⟩ : Moment).Forward :=
  ⟨le_rfl,fun _ => id,fun _ => .inl,fun _ => .inl⟩

theorem Moment.Forward.lawful {m : Moment} (forward : m.Forward) (change : m.trigger ≠ .tick) : m.Lawful := by
  unfold Moment.Lawful
  rw [if_neg change]
  exact forward

namespace Kept
variable {c : Connection}

theorem touch (kept : Kept c) : Kept c.touch := {kept with rest := nofun}

theorem moves (kept : Kept c) {trigger : Trigger} {nowUs : Nat} {after : LifecycleState}
    (forward : (⟨trigger,nowUs,c.lifecycle,after⟩ : Moment).Forward) (change : trigger ≠ .tick) (sound : after.Sound)
    (count : after.closeEmitCount = c.lifecycle.closeEmitCount)
    (since : c.lifecycle.closingPacketsSinceEmit = after.closingPacketsSinceEmit)
    (pending : after.pendingClose.isSome = true → c.lifecycle.pendingClose.isSome = true ∨ after.closeEmitCount = 0)
    (rest : c.restDeadlineValid = true → after.closed = false ∧ after.pendingClose = none) : Kept (c.moves trigger nowUs after) where
  sound := sound
  past := List.forall_mem_cons.mpr ⟨forward.lawful change,kept.past⟩
  sent := kept.sent
  rest := rest
  count := count.trans kept.count
  paid := by
    change _+after.closingPacketsSinceEmit ≤ _
    rw [← since]
    exact kept.paid
  earned := fun some emitted => by
    change _ ≤ after.closingPacketsSinceEmit
    rw [← since]
    rcases pending some with before | none
    · exact kept.earned before emitted
    · rw [count,kept.count] at none
      exact absurd none (by
        change c.emits ≠ 0 at emitted
        unfold maxU32
        omega)

theorem close (kept : Kept c) (isTransport : Bool) (errorCode : Nat) (reason : List Byte) :
    Kept (c.close isTransport errorCode reason) ∧
      (c.close isTransport errorCode reason).lifecycle.drainingDeadlineUs = c.lifecycle.drainingDeadlineUs ∧
      (c.close isTransport errorCode reason).lifecycle.closed = c.lifecycle.closed ∧
      (c.lifecycle.closed = true → (c.close isTransport errorCode reason).lifecycle = c.lifecycle) := by
  have sound := kept.sound
  unfold Connection.close LifecycleState.close
  change Kept (c.touch.moves .close _ (if c.lifecycle.pendingClose.isSome || c.lifecycle.closed then c.lifecycle else _)) ∧
    (if c.lifecycle.pendingClose.isSome || c.lifecycle.closed then c.lifecycle else _).drainingDeadlineUs = _ ∧
    (if c.lifecycle.pendingClose.isSome || c.lifecycle.closed then c.lifecycle else _).closed = _ ∧
    (_ → (if c.lifecycle.pendingClose.isSome || c.lifecycle.closed then c.lifecycle else _) = _)
  split
  · exact ⟨kept.touch.moves (Moment.forward_refl _ _ _) nofun sound rfl rfl .inl nofun,rfl,rfl,fun _ => rfl⟩
  · rename_i idle
    rw [Bool.or_eq_true,not_or] at idle
    have «open» : c.lifecycle.closed = false := by simpa using idle.2
    have still : c.lifecycle.drainingDeadlineUs = none ∧ c.lifecycle.closingDeadlineUs = none := by
      constructor
      · cases there : c.lifecycle.drainingDeadlineUs with
        | none => rfl
        | some _ => exact absurd (sound.draining (by rw [there]; rfl)).1 idle.2
      · cases there : c.lifecycle.closingDeadlineUs with
        | none => rfl
        | some _ => exact absurd (sound.closing (by rw [there]; rfl)).1 idle.2
    have none := sound.alive «open»
    have known := @LifecycleState.record_cause c.lifecycle .local (closeErrorSpace isTransport) errorCode 0 reason .none .none
    obtain ⟨event,buf,fields⟩ := @LifecycleState.record_fields c.lifecycle .local (closeErrorSpace isTransport) errorCode 0 reason
      .none .none
    rw [fields] at known ⊢
    refine ⟨kept.touch.moves ⟨?_,fun _ => known,?_,?_⟩ nofun ⟨?_,?_,fun _ => none,?_⟩ rfl rfl (fun _ => .inr none) nofun,rfl,rfl,
      fun ended => absurd ended idle.2⟩
    · change c.lifecycle.state.rank ≤ _
      have zero : c.lifecycle.state = .open := by
        unfold LifecycleState.state
        have quiet : c.lifecycle.pendingClose.isSome = false := by simpa using idle.1
        rw [still.1,still.2,quiet,«open»]
        rfl
      rw [zero]
      exact Nat.zero_le _
    · intro deadline there
      change c.lifecycle.drainingDeadlineUs = _ at there
      rw [still.1] at there
      cases there
    · intro deadline there
      change c.lifecycle.closingDeadlineUs = _ at there
      rw [still.2] at there
      cases there
    · intro there
      change c.lifecycle.drainingDeadlineUs.isSome = true at there
      rw [still.1] at there
      cases there
    · exact sound.closing
    · intro _ ended
      exact absurd ended idle.2

theorem enterDraining (kept : Kept c) (alive : c.lifecycle.Alive) (source : CloseSource) (errorSpace : CloseErrorSpace)
    (errorCode frameType : Nat) (reason : List Byte) (nowUs : Nat) :
    Kept (c.enterDraining source errorSpace errorCode frameType reason nowUs) := by
  have known := @LifecycleState.record_cause c.lifecycle source errorSpace errorCode frameType reason (some nowUs)
    (some (saturatingAdd nowUs c.drainingDurationUs))
  obtain ⟨event,buf,fields⟩ := @LifecycleState.record_fields c.lifecycle source errorSpace errorCode frameType reason (some nowUs)
    (some (saturatingAdd nowUs c.drainingDurationUs))
  unfold Connection.enterDraining LifecycleState.enterDraining
  rw [fields] at known ⊢
  refine kept.touch.moves ⟨?_,fun _ => known,?_,fun _ _ => .inr (.inl rfl)⟩ nofun ⟨fun _ => ⟨rfl,rfl,rfl⟩,nofun,nofun,nofun⟩ rfl rfl
    nofun nofun
  · exact Nat.le_trans alive.rank (show 1 ≤ 2 by decide)
  · intro deadline there
    change c.lifecycle.drainingDeadlineUs = _ at there
    rw [alive.draining] at there
    cases there

theorem enterClosed (kept : Kept c) (alive : c.lifecycle.Alive) (source : CloseSource) (errorSpace : CloseErrorSpace)
    (errorCode frameType : Nat) (reason : List Byte) (nowUs : Nat) :
    Kept (c.enterClosed source errorSpace errorCode frameType reason nowUs) := by
  have known := @LifecycleState.record_cause c.lifecycle source errorSpace errorCode frameType reason (some nowUs) .none
  obtain ⟨event,buf,fields⟩ := @LifecycleState.record_fields c.lifecycle source errorSpace errorCode frameType reason (some nowUs) .none
  unfold Connection.enterClosed LifecycleState.enterClosed
  rw [fields] at known ⊢
  refine kept.touch.moves ⟨rank_le _,fun _ => known,?_,fun _ _ => .inr (.inr ⟨rfl,.inl rfl⟩)⟩ nofun ⟨nofun,nofun,nofun,nofun⟩ rfl rfl
    nofun nofun
  intro deadline there
  change c.lifecycle.drainingDeadlineUs = _ at there
  rw [alive.draining] at there
  cases there

theorem finishDraining (kept : Kept c) {nowUs : Nat}
    (due : ∀ deadline, c.lifecycle.drainingDeadlineUs = some deadline ∨ c.lifecycle.closingDeadlineUs = some deadline →
      deadline ≤ nowUs) : Kept (c.finishDraining nowUs) :=
  kept.touch.moves ⟨rank_le _,fun _ => id,fun _ there => .inr ⟨rfl,rfl,due _ (.inl there)⟩,
    fun _ there => .inr (.inr ⟨rfl,.inr ⟨rfl,due _ (.inr there)⟩⟩)⟩ nofun ⟨nofun,nofun,nofun,nofun⟩ rfl rfl nofun nofun

/-- What the rest of the connection does: it may close an open connection, and no more. -/
theorem effects (kept : Kept c) (list : List Effect) :
    Kept (c.effects list).2 ∧ (c.effects list).2.lifecycle.drainingDeadlineUs = c.lifecycle.drainingDeadlineUs ∧
      (c.effects list).2.lifecycle.closed = c.lifecycle.closed ∧
      (c.lifecycle.closed = true → (c.effects list).2.lifecycle = c.lifecycle) := by
  induction list generalizing c with
  | nil => exact ⟨kept,rfl,rfl,fun _ => rfl⟩
  | cons effect rest ih =>
    cases effect with
    | other drainingDurationUs => exact @ih {c with drainingDurationUs := drainingDurationUs} {kept with}
    | fail => exact ⟨kept,rfl,rfl,fun _ => rfl⟩
    | close isTransport errorCode reason =>
      obtain ⟨kept',draining,closed,same⟩ := kept.close isTransport errorCode reason
      obtain ⟨done,draining',closed',same'⟩ := ih kept'
      refine ⟨done,draining'.trans draining,closed'.trans closed,fun ended => ?_⟩
      exact (same' (closed.trans ended)).trans (same ended)

end Kept

theorem LifecycleState.alive_iff {l : LifecycleState} : l.Alive ↔ l.drainingDeadlineUs = none ∧
    (l.closed = true → l.closingDeadlineUs.isSome = true ∨ l.pendingClose.isSome = true) := by
  unfold LifecycleState.Alive LifecycleState.state
  cases l.drainingDeadlineUs <;> cases l.closingDeadlineUs <;> cases l.pendingClose <;> cases l.closed <;> simp

theorem Kept.effects_alive {c : Connection} (kept : Kept c) (alive : c.lifecycle.Alive) (list : List Effect) :
    (c.effects list).2.lifecycle.Alive := by
  obtain ⟨_,draining,closed,same⟩ := kept.effects list
  obtain ⟨none,waits⟩ := LifecycleState.alive_iff.mp alive
  refine LifecycleState.alive_iff.mpr ⟨draining.trans none,fun ended => ?_⟩
  have before := closed.symm.trans ended
  rw [same before]
  exact waits before

theorem Kept.attribution_closed {c : Connection} (kept : Kept c) (only : c.lifecycle.closingAttributionOnly = true) :
    c.lifecycle.closed = true := by
  refine (kept.sound.closing ?_).1
  unfold LifecycleState.closingAttributionOnly at only
  simp only [Bool.and_eq_true] at only
  exact only.1.1

theorem Kept.effects_attribution {c : Connection} (kept : Kept c) (only : c.lifecycle.closingAttributionOnly = true)
    (list : List Effect) : (c.effects list).2.lifecycle = c.lifecycle :=
  (kept.effects list).2.2.2 (kept.attribution_closed only)

theorem LifecycleState.alive_attribution {l : LifecycleState} (only : l.closingAttributionOnly = true) : l.Alive := by
  unfold LifecycleState.closingAttributionOnly at only
  simp only [Bool.and_eq_true,Option.isNone_iff_eq_none] at only
  exact LifecycleState.alive_iff.mpr ⟨only.2,fun _ => .inl only.1.1⟩

theorem closes_cons (frame : Frame) (rest : List Frame) : closes rest ≤ closes (frame::rest) :=
  (List.sublist_cons_self frame rest).countP_le

theorem closes_close (cc : ConnectionClose) (forbidden : Option (List Byte)) (rest : List Frame) :
    closes (.connectionClose cc forbidden::rest) = closes rest+1 :=
  List.countP_cons_of_pos rfl

theorem dispatched_le (frames : List Frame) : dispatched frames ≤ closes frames := by
  induction frames with
  | nil => exact le_rfl
  | cons frame rest ih =>
    cases frame with
    | malformed => exact Nat.zero_le _
    | connectionClose cc forbidden =>
      cases forbidden with
      | none =>
        rw [closes_close]
        exact Nat.succ_le_succ ih
      | some reason => exact Nat.zero_le _
    | other effects returns =>
      have fewer := closes_cons (.other effects returns) rest
      unfold dispatched
      split
      · exact Nat.zero_le _
      · exact ih.trans fewer

theorem Opening.dispatched_le (opening : Opening) : opening.dispatched ≤ opening.closes := by
  cases opening with
  | opened before duplicate frames after =>
    cases duplicate with
    | true => exact Nat.zero_le _
    | false => exact Closing.dispatched_le frames
  | dropped => exact le_rfl
  | refused errorCode reason => exact le_rfl
  | failed => exact le_rfl

theorem reached_head (received : Received) (rest : List Received) : received ∈ reached (received::rest) := by
  unfold reached
  split <;> exact List.mem_cons_self

namespace Kept
variable {c : Connection} {nowUs : Nat}

theorem peerClose (kept : Kept c) (alive : c.lifecycle.Alive) (cc : ConnectionClose) : Kept (c.peerClose cc nowUs) :=
  kept.enterDraining alive _ _ _ _ _ _

/-- The frames of a packet, of which one ends a connection at most, or none one that has ended. -/
theorem dispatchFrames (kept : Kept c) {frames : List Frame}
    (once : (c.lifecycle.Alive ∧ dispatched frames ≤ 1) ∨ dispatched frames = 0) :
    Kept (c.dispatchFrames nowUs frames).2 ∧
      (c.lifecycle.Alive → closes frames = 0 → (c.dispatchFrames nowUs frames).2.lifecycle.Alive) := by
  induction frames generalizing c with
  | nil => exact ⟨kept,fun alive _ => alive⟩
  | cons frame rest ih =>
    cases frame with
    | malformed =>
      exact ⟨(kept.close _ _ _).1,fun alive _ => kept.effects_alive alive [.close _ _ _]⟩
    | connectionClose cc forbidden =>
      cases forbidden with
      | some reason => exact ⟨(kept.close _ _ _).1,fun alive _ => kept.effects_alive alive [.close _ _ _]⟩
      | none =>
        change (_ ∧ dispatched rest+1 ≤ 1) ∨ dispatched rest+1 = 0 at once
        obtain ⟨alive,one⟩ | none := once
        · refine ⟨(ih (kept.peerClose alive cc) (.inr (by omega))).1,fun _ none => ?_⟩
          rw [closes_close] at none
          cases none
        · cases none
    | other effects returns =>
      have fewer := closes_cons (.other effects returns) rest
      obtain ⟨kept',_⟩ := kept.effects effects
      have alive' := fun alive => kept.effects_alive alive effects
      unfold Connection.dispatchFrames
      generalize c.effects effects = outcome at kept' alive' ⊢
      obtain ⟨done,c'⟩ := outcome
      cases done with
      | false => exact ⟨kept',fun alive _ => alive' alive⟩
      | true =>
        dsimp only at kept' alive' ⊢
        unfold dispatched at once
        split
        · exact ⟨kept',fun alive _ => alive' alive⟩
        · rename_i goes
          rw [if_neg goes] at once
          obtain ⟨done,still⟩ := ih kept' (once.imp (fun both => ⟨alive' both.1,both.2⟩) id)
          exact ⟨done,fun alive none => still (alive' alive) (by omega)⟩

theorem scan (kept : Kept c) (alive : c.lifecycle.Alive) (frames : List Frame) :
    Kept (c.scanForPeerCloseFrame nowUs frames) ∧
      (closes frames = 0 → (c.scanForPeerCloseFrame nowUs frames).lifecycle.Alive) := by
  induction frames with
  | nil => exact ⟨kept,fun _ => alive⟩
  | cons frame rest ih =>
    cases frame with
    | malformed => exact ⟨kept,fun _ => alive⟩
    | connectionClose cc forbidden =>
      refine ⟨kept.peerClose alive cc,fun none => ?_⟩
      rw [closes_close] at none
      cases none
    | other effects returns => exact ⟨ih.1,fun none => ih.2 (Nat.le_zero.mp (none ▸ closes_cons _ rest))⟩

theorem finishOpened (kept : Kept c) {opening : Opening}
    (once : (c.lifecycle.Alive ∧ (c.lifecycle.closingAttributionOnly = true ∨ opening.dispatched ≤ 1)) ∨ opening.closes = 0) :
    Kept (c.finishOpened nowUs opening).2 ∧
      (c.lifecycle.Alive → opening.closes = 0 → (c.finishOpened nowUs opening).2.lifecycle.Alive) := by
  cases opening with
  | dropped => exact ⟨kept,fun alive _ => alive⟩
  | failed => exact ⟨kept,fun alive _ => alive⟩
  | refused errorCode reason =>
    exact ⟨(kept.close _ _ _).1,fun alive _ => kept.effects_alive alive [.close _ _ _]⟩
  | opened before duplicate frames after =>
    change (c.lifecycle.Alive ∧ (_ ∨ Opening.dispatched (.opened before duplicate frames after) ≤ 1)) ∨ closes frames = 0 at once
    change _ ∧ (_ → closes frames = 0 → _)
    obtain ⟨kept',_⟩ := kept.effects before
    have alive' := fun alive => kept.effects_alive alive before
    have only' := fun only => kept.effects_attribution only before
    simp only [Connection.finishOpened]
    generalize c.effects before = outcome at kept' alive' only' ⊢
    obtain ⟨done,c'⟩ := outcome
    cases done with
    | false => exact ⟨kept',fun alive _ => alive' alive⟩
    | true =>
      dsimp only at kept' alive' only' ⊢
      split
      · rename_i only
        have scanned := @scan {c' with closingStateAttributionObserved := true} nowUs {kept' with}
          (LifecycleState.alive_attribution only) frames
        exact ⟨scanned.1,fun _ => scanned.2⟩
      rename_i reads
      split
      · exact ⟨kept',fun alive _ => alive' alive⟩
      · rename_i new
        rw [Bool.not_eq_true] at new
        subst new
        have once' : (c'.lifecycle.Alive ∧ dispatched frames ≤ 1) ∨ dispatched frames = 0 := by
          refine once.imp (fun ⟨alive,one⟩ => ⟨alive' alive,one.resolve_left fun only => reads ?_⟩)
            fun (none : closes frames = 0) => Nat.le_zero.mp (none ▸ dispatched_le frames)
          rw [only' only]
          exact only
        obtain ⟨kept'',still⟩ := @dispatchFrames _ nowUs kept' _ once'
        generalize c'.dispatchFrames nowUs frames = outcome at kept'' still ⊢
        obtain ⟨done,c''⟩ := outcome
        cases done with
        | false => exact ⟨kept'',fun alive => still (alive' alive)⟩
        | true => exact ⟨(kept''.effects after).1,fun alive none => kept''.effects_alive (still (alive' alive) none) after⟩

theorem handleOnePacket (kept : Kept c) (alive : c.lifecycle.Alive) {packet : Packet}
    (once : c.lifecycle.closingAttributionOnly = true ∨ packet.dispatched ≤ 1) :
    Kept (c.handleOnePacket nowUs packet).2 ∧
      ((c.handleOnePacket nowUs packet).2.lifecycle.Alive ∨ packet.ends = true) := by
  cases packet with
  | empty => exact ⟨kept,.inl alive⟩
  | statelessReset => exact ⟨kept.enterDraining alive _ _ _ _ _ _,.inr rfl⟩
  | versionNegotiation => exact ⟨kept.enterClosed alive _ _ _ _ _ _,.inr rfl⟩
  | long opening =>
    obtain ⟨kept',still⟩ := @finishOpened _ nowUs kept _ (.inl ⟨alive,once⟩)
    refine ⟨kept',?_⟩
    by_cases none : opening.closes = 0
    · exact .inl (still alive none)
    · exact .inr (by simpa [Packet.ends] using none)

end Kept

theorem LifecycleState.stops_draining {l : LifecycleState} {deadline : Nat} (there : l.drainingDeadlineUs = some deadline) :
    l.stops = true := by
  unfold LifecycleState.stops
  rw [LifecycleState.state_draining there]
  rfl

namespace Kept
variable {c : Connection} {nowUs : Nat}

/-- A connection that only looks for a close stays as it is, or has ended. -/
theorem attribution_packet (kept : Kept c) (only : c.lifecycle.closingAttributionOnly = true) (packet : Packet) :
    (c.handleOnePacket nowUs packet).2.lifecycle = c.lifecycle ∨
      ((c.handleOnePacket nowUs packet).2.lifecycle.stops = true ∧ (c.handleOnePacket nowUs packet).2.lifecycle.closed = true) := by
  cases packet with
  | empty => exact .inl rfl
  | statelessReset => exact .inr ⟨LifecycleState.stops_draining rfl,rfl⟩
  | versionNegotiation => exact .inr ⟨rfl,rfl⟩
  | long opening =>
    cases opening with
    | dropped => exact .inl rfl
    | failed => exact .inl rfl
    | refused errorCode reason => exact .inl (kept.effects_attribution only [.close _ _ _])
    | opened before duplicate frames after =>
      have same := kept.effects_attribution only before
      simp only [Connection.handleOnePacket,Connection.finishOpened]
      generalize c.effects before = outcome at same ⊢
      obtain ⟨done,c'⟩ := outcome
      cases done with
      | false => exact .inl same
      | true =>
        dsimp only at same ⊢
        rw [same,if_pos only]
        have scanned : ∀ c'' : Connection, c''.lifecycle = c.lifecycle →
            (c''.scanForPeerCloseFrame nowUs frames).lifecycle = c.lifecycle ∨
              ((c''.scanForPeerCloseFrame nowUs frames).lifecycle.stops = true ∧
                (c''.scanForPeerCloseFrame nowUs frames).lifecycle.closed = true) := by
          intro c'' same
          induction frames with
          | nil => exact .inl same
          | cons frame rest ih =>
            cases frame with
            | malformed => exact .inl same
            | connectionClose cc forbidden => exact .inr ⟨LifecycleState.stops_draining rfl,rfl⟩
            | other effects returns => exact ih
        exact scanned _ rfl

theorem packetLoop (kept : Kept c) (alive : c.lifecycle.Alive) {packets : List Received}
    (once : c.lifecycle.closingAttributionOnly = true ∨ ∀ r ∈ reached packets, r.packet.dispatched ≤ 1) :
    Kept (c.packetLoop nowUs packets).2 ∧
      ((c.packetLoop nowUs packets).2.lifecycle.Alive ∨ ∃ r ∈ reached packets, r.packet.ends = true) := by
  induction packets generalizing c with
  | nil => exact ⟨kept,.inl alive⟩
  | cons received rest ih =>
    obtain ⟨kept',here⟩ := @handleOnePacket _ nowUs kept alive _
      (once.imp id fun all => all received (reached_head received rest))
    have only' := fun only => @attribution_packet _ nowUs kept only received.packet
    simp only [Connection.packetLoop]
    generalize c.handleOnePacket nowUs received.packet = outcome at kept' here only' ⊢
    obtain ⟨done,c₁⟩ := outcome
    have ends : ∀ {c' : Connection}, (c'.lifecycle.Alive ∨ received.packet.ends = true) →
        (c'.lifecycle.Alive ∨ ∃ r ∈ reached (received::rest), r.packet.ends = true) := fun here =>
      here.imp id fun ended => ⟨received,reached_head received rest,ended⟩
    cases done with
    | false => exact ⟨kept',ends here⟩
    | true =>
      dsimp only at kept' here only' ⊢
      split
      · exact ⟨kept',ends here⟩
      rename_i filled
      have kept₂ := (kept'.effects received.rebind).1
      have here₂ := here.imp (fun alive => kept'.effects_alive alive received.rebind) id
      have same₂ := (kept'.effects received.rebind).2.2.2
      generalize c₁.effects received.rebind = outcome at kept₂ here₂ same₂ ⊢
      obtain ⟨done,c₂⟩ := outcome
      cases done with
      | false => exact ⟨kept₂,ends here₂⟩
      | true =>
        dsimp only at kept₂ here₂ same₂ ⊢
        split
        · exact ⟨kept₂,ends here₂⟩
        rename_i goes
        rw [Bool.or_eq_true,not_or] at goes
        have alive₂ : c₂.lifecycle.Alive := by
          have live := goes.1
          unfold LifecycleState.stops at live
          simp only [Bool.or_eq_true,decide_eq_true_eq,not_or] at live
          exact live.1
        have kept₃ := (kept₂.effects received.tls).1
        have alive₃ := kept₂.effects_alive alive₂ received.tls
        have same₃ := fun only => kept₂.effects_attribution only received.tls
        generalize c₂.effects received.tls = outcome at kept₃ alive₃ same₃ ⊢
        obtain ⟨done,c₃⟩ := outcome
        cases done with
        | false => exact ⟨kept₃,.inl alive₃⟩
        | true =>
          dsimp only at kept₃ alive₃ same₃ ⊢
          have onward : reached (received::rest) = received::reached rest :=
            if_neg fun stopped => stopped.elim filled fun undrained => goes.2 (by rw [undrained]; rfl)
          rw [onward] at once ⊢
          have once₃ : c₃.lifecycle.closingAttributionOnly = true ∨ ∀ r ∈ reached rest, r.packet.dispatched ≤ 1 := by
            refine once.imp (fun only => ?_) fun all r there => all r (List.mem_cons_of_mem _ there)
            have still : c₂.lifecycle = c.lifecycle := by
              rcases only' only with same | ⟨stopped,ended⟩
              · have ended : c₁.lifecycle.closed = true := by
                  rw [same]
                  exact kept.attribution_closed only
                exact (same₂ ended).trans same
              · exact absurd (same₂ ended ▸ stopped) goes.1
            rw [same₃ (still ▸ only),still]
            exact only
          obtain ⟨done,result⟩ := ih kept₃ alive₃ once₃
          exact ⟨done,result.imp id fun ⟨r,there,ended⟩ => ⟨r,List.mem_cons_of_mem _ there,ended⟩⟩

end Kept

namespace Kept
variable {c : Connection} {nowUs : Nat}

/-- The kept packets: one of them ends the connection at most, or none when it has ended. -/
theorem heldLoop (kept : Kept c) {held : List Opening}
    (once : (c.lifecycle.Alive ∧ heldCloses held ≤ 1) ∨ heldCloses held = 0) : Kept (c.heldLoop nowUs held).2 := by
  induction held generalizing c with
  | nil => exact kept
  | cons opening rest ih =>
    have sum : heldCloses (opening::rest) = opening.closes+heldCloses rest := List.sum_cons
    rw [sum] at once
    have fewer := opening.dispatched_le
    obtain ⟨kept',still⟩ := @finishOpened _ nowUs kept opening
      (once.imp (fun ⟨alive,one⟩ => ⟨alive,.inr (by omega)⟩) (by omega))
    simp only [Connection.heldLoop]
    generalize c.finishOpened nowUs opening = outcome at kept' still ⊢
    obtain ⟨done,c'⟩ := outcome
    cases done with
    | false => exact kept'
    | true =>
      refine ih kept' ?_
      rcases once with ⟨alive,one⟩ | none
      · by_cases none : opening.closes = 0
        · exact .inl ⟨still alive none,by omega⟩
        · exact .inr (by omega)
      · exact .inr (by omega)

theorem drainInbox (kept : Kept c) (tls : List Effect) :
    Kept (c.drainInbox tls).2 ∧ (c.lifecycle.Alive → (c.drainInbox tls).2.lifecycle.Alive) := by
  unfold Connection.drainInbox
  split
  · exact ⟨kept,id⟩
  · exact ⟨(kept.effects tls).1,fun alive => kept.effects_alive alive tls⟩

theorem rearm (kept : Kept c) (armed : c.lifecycle.closingDeadlineUs.isSome = true)
    (enough : c.lifecycle.shouldRearmCloseRepeat = true) : Kept (c.moves .rearm nowUs c.lifecycle.rearm) := by
  obtain ⟨ended,emitted⟩ := kept.sound.closing armed
  unfold LifecycleState.shouldRearmCloseRepeat at enough
  by_cases idle : c.lifecycle.pendingClose.isSome = true
  · rw [if_pos idle] at enough
    cases enough
  have there : ¬c.lifecycle.closingDeadlineUs.isNone = true := by simpa using Option.isSome_iff_ne_none.mp armed
  rw [if_neg idle,if_neg there,if_neg emitted,decide_eq_true_eq] at enough
  have still : c.lifecycle.drainingDeadlineUs = none := by
    cases there : c.lifecycle.drainingDeadlineUs with
    | none => rfl
    | some _ =>
      rw [(kept.sound.draining (by rw [there]; rfl)).2.2] at armed
      cases armed
  unfold LifecycleState.rearm
  split
  · exact kept.moves (Moment.forward_refl _ _ _) nofun kept.sound rfl rfl .inl kept.rest
  · have state := LifecycleState.state_closing still armed
    exact {
      sound := ⟨fun there => absurd there (by rw [still]; nofun),kept.sound.closing,kept.sound.alive,fun _ _ => armed⟩
      past := List.forall_mem_cons.mpr ⟨Moment.Forward.lawful ⟨by
        refine Nat.le_of_eq (congrArg CloseState.rank (state.trans (LifecycleState.state_closing ?_ ?_).symm))
        · exact still
        · exact armed,fun _ => id,fun _ => .inl,fun _ => .inl⟩ nofun,kept.past⟩
      sent := kept.sent
      rest := fun resting => absurd (ended.symm.trans (kept.rest resting).1) nofun
      count := kept.count
      paid := kept.paid
      earned := fun _ emitted => by
        refine Nat.le_trans (Nat.pow_le_pow_right (by decide) ?_) enough
        rw [kept.count]
        change min (c.emits-1) 16 ≤ _
        unfold maxU32
        omega}

/-- One more datagram is counted, and the close goes out again when enough of them came. -/
theorem maybeRearm (kept : Kept c) : Kept c.maybeRearmClosingStateCloseRepeat := by
  unfold Connection.maybeRearmClosingStateCloseRepeat
  split
  · exact kept
  have counted : Kept {c with
      closingStateAttributionObserved := false
      attributed := c.attributed+1} := {kept with paid := Nat.le_succ_of_le kept.paid}
  dsimp only
  split
  · exact counted
  rename_i waits
  rw [not_or,not_or,not_ne_iff,Bool.not_eq_true,Bool.not_eq_true,Option.isSome_eq_false_iff] at waits
  obtain ⟨closing,armed,idle⟩ := waits
  have armed : c.lifecycle.closingDeadlineUs.isSome = true := by simpa using armed
  have idle : c.lifecycle.pendingClose = none := by simpa using idle
  have noted : Kept ({c with
      closingStateAttributionObserved := false
      attributed := c.attributed+1}.moves .closingPacket c.clockUs c.lifecycle.noteClosingPacket) := {
    sound := ⟨kept.sound.draining,kept.sound.closing,kept.sound.alive,kept.sound.pending⟩
    past := List.forall_mem_cons.mpr ⟨Moment.Forward.lawful ⟨le_rfl,fun _ => id,fun _ => .inl,fun _ => .inl⟩ nofun,kept.past⟩
    sent := kept.sent
    rest := kept.rest
    count := kept.count
    paid := by
      have paid := kept.paid
      change spent c.emits+min (c.lifecycle.closingPacketsSinceEmit+1) maxU32 ≤ c.attributed+1
      omega
    earned := fun some => by
      change c.lifecycle.pendingClose.isSome = true at some
      rw [idle] at some
      cases some}
  split
  · exact noted
  rename_i enough
  rw [Bool.not_eq_true',Bool.not_eq_false] at enough
  exact noted.rearm armed enough

end Kept

namespace Kept
variable {c : Connection} {nowUs : Nat}

theorem handle (kept : Kept c) {d : Datagram} (once : EndsOnce c d) : Kept (c.handle d nowUs) := by
  unfold Connection.handle
  have start : Kept ({c with clockUs := max c.clockUs nowUs}.touch) := {kept with rest := nofun}
  dsimp only
  split
  · exact start
  rename_i goes
  have alive : c.lifecycle.Alive := by
    unfold LifecycleState.stops at goes
    simp only [Bool.or_eq_true,decide_eq_true_eq,not_or] at goes
    exact goes.1
  split
  · exact {start with}
  obtain ⟨kept₁,here⟩ := @packetLoop {{c with clockUs := max c.clockUs nowUs}.touch with
    closingStateAttributionObserved := false} nowUs {start with} alive d.packets once.once
  generalize Connection.packetLoop _ nowUs d.packets = outcome at kept₁ here ⊢
  obtain ⟨done,c₁⟩ := outcome
  cases done with
  | false => exact kept₁
  | true =>
    dsimp only at kept₁ here ⊢
    obtain ⟨kept₂,still⟩ := kept₁.drainInbox d.tls
    generalize c₁.drainInbox d.tls = outcome at kept₂ still ⊢
    obtain ⟨done,c₂⟩ := outcome
    cases done with
    | false => exact kept₂
    | true =>
      dsimp only at kept₂ still ⊢
      have kept₃ : Kept (c₂.replayHeldHandshakePackets nowUs d.held d.heldTls).2 := by
        have replayed := @heldLoop _ nowUs kept₂ d.held
          (here.imp (fun alive => ⟨still alive,once.held⟩) once.ended)
        unfold Connection.replayHeldHandshakePackets
        generalize c₂.heldLoop nowUs d.held = outcome at replayed ⊢
        obtain ⟨done,c₃⟩ := outcome
        cases done with
        | false => exact replayed
        | true =>
          dsimp only at replayed ⊢
          split
          · exact replayed
          · exact (replayed.drainInbox d.heldTls).1
      generalize c₂.replayHeldHandshakePackets nowUs d.held d.heldTls = outcome at kept₃ ⊢
      obtain ⟨done,c₃⟩ := outcome
      cases done with
      | false => exact kept₃
      | true => exact kept₃.maybeRearm

theorem tickFull (kept : Kept c) (timers : Timers) :
    Kept (c.tickFull nowUs timers) ∧
      ∀ deadline, c.lifecycle.drainingDeadlineUs = some deadline ∨ c.lifecycle.closingDeadlineUs = some deadline →
        deadline ≤ nowUs → (c.tickFull nowUs timers).lifecycle.state = .closed := by
  unfold Connection.tickFull
  cases draining : c.lifecycle.drainingDeadlineUs with
  | some fixed =>
    have none := (kept.sound.draining (by rw [draining]; rfl)).2.2
    dsimp only
    split
    · rename_i due
      refine ⟨kept.finishDraining fun deadline there => ?_,fun _ _ _ => rfl⟩
      rw [draining,none] at there
      rcases there with same | none
      · cases same
        exact due
      · cases none
    · rename_i early
      refine ⟨kept,fun deadline there due => ?_⟩
      rw [none] at there
      rcases there with same | none
      · cases same
        exact absurd due early
      · cases none
  | none =>
    dsimp only
    cases closing : c.lifecycle.closingDeadlineUs with
    | some fixed =>
      dsimp only
      split
      · rename_i due
        refine ⟨kept.finishDraining fun deadline there => ?_,fun _ _ _ => rfl⟩
        rw [draining,closing] at there
        rcases there with none | same
        · cases none
        · cases same
          exact due
      · rename_i early
        refine ⟨kept,fun deadline there due => ?_⟩
        rcases there with none | same
        · cases none
        · cases same
          exact absurd due early
    | none =>
      refine ⟨?_,fun _ there => there.elim nofun nofun⟩
      dsimp only
      split
      · exact kept
      rename_i «open»
      have alive : c.lifecycle.Alive := LifecycleState.alive_iff.mpr ⟨draining,fun ended => absurd ended «open»⟩
      split
      · exact kept.enterDraining alive _ _ _ _ _ _
      split
      · exact kept.enterDraining alive _ _ _ _ _ _
      · exact (kept.effects _).1

theorem tick (kept : Kept c) (timers : Timers) : Kept (c.tick nowUs timers) := by
  have start : Kept {c with clockUs := max c.clockUs nowUs} := {kept with}
  obtain ⟨full,ended⟩ := @tickFull _ nowUs start timers
  unfold Connection.tick
  dsimp only
  split
  · rename_i resting
    rw [Bool.and_eq_true] at resting
    have «open» := (kept.rest resting.1).1
    refine {start with past := List.forall_mem_cons.mpr ⟨fun deadline there => ?_,kept.past⟩}
    have ended : c.lifecycle.closed = true := by
      rcases there with there | there
      · exact (kept.sound.draining (by change c.lifecycle.drainingDeadlineUs = _ at there; rw [there]; rfl)).1
      · exact (kept.sound.closing (by change c.lifecycle.closingDeadlineUs = _ at there; rw [there]; rfl)).1
    rw [«open»] at ended
    cases ended
  · exact {full with past := List.forall_mem_cons.mpr ⟨ended,full.past⟩}

end Kept

/-- What a packet may hold: the close that waits, or whatever an open connection sends. -/
def Connection.Sends (c : Connection) (content : Content) : Prop :=
  (c.lifecycle.pendingClose.isSome = true ∧ content.isClose = true) ∨
    (c.lifecycle.pendingClose = none ∧ c.lifecycle.closed = false ∧ content.isClose = false)

theorem Connection.pollLevelOnPath_sends {c : Connection} {lvl : Level} {inDatagram appWriteKeys : Bool} {offer : Offer}
    {content : Content} (built : c.pollLevelOnPath lvl inDatagram appWriteKeys offer = some (some content)) : c.Sends content := by
  unfold Connection.pollLevelOnPath at built
  cases offer with
  | none => cases built
  | fails => cases built
  | ready closeFails frames =>
    dsimp only at built
    cases pending : c.lifecycle.pendingClose with
    | none =>
      rw [pending] at built
      dsimp only at built
      cases closed : c.lifecycle.closed with
      | true =>
        rw [closed] at built
        cases built
      | false =>
        refine .inr ⟨pending,closed,?_⟩
        rw [closed] at built
        cases frames with
        | none => cases built
        | some ready =>
          cases ready <;> cases built
          rfl
    | some info =>
      refine .inl ⟨by rw [pending]; rfl,?_⟩
      rw [pending] at built
      dsimp only at built
      split at built
      · cases built
      split at built
      · cases built
      · cases built
        rfl

theorem Connection.pollLevels_sends {c : Connection} {levels : List (Level × Offer)} {packets : List (Level × Content)}
    (built : c.pollLevels levels = some packets) : ∀ packet ∈ packets, c.Sends packet.2 := by
  induction levels generalizing packets with
  | nil =>
    cases built
    exact nofun
  | cons level rest ih =>
    obtain ⟨lvl,offer⟩ := level
    unfold Connection.pollLevels at built
    cases here : c.pollLevelOnPath lvl true false offer with
    | none =>
      rw [here] at built
      cases built
    | some content =>
      rw [here] at built
      cases content with
      | none => exact ih built
      | some content =>
        obtain ⟨others,later,rfl⟩ := Option.map_eq_some_iff.mp built
        exact List.forall_mem_cons.mpr ⟨Connection.pollLevelOnPath_sends here,ih later⟩

namespace Kept
variable {c : Connection} {nowUs : Nat}

theorem sends_alive (kept : Kept c) {content : Content} (sends : c.Sends content) : c.lifecycle.Alive := by
  refine LifecycleState.alive_iff.mpr ⟨?_,fun ended => ?_⟩
  · cases there : c.lifecycle.drainingDeadlineUs with
    | none => rfl
    | some _ =>
      obtain ⟨ended,none,_⟩ := kept.sound.draining (by rw [there]; rfl)
      rcases sends with ⟨some,_⟩ | ⟨_,«open»,_⟩
      · rw [none] at some
        cases some
      · rw [ended] at «open»
        cases «open»
  · rcases sends with ⟨some,_⟩ | ⟨_,«open»,_⟩
    · exact .inr some
    · rw [ended] at «open»
      cases «open»

theorem sends_lawful (kept : Kept c) {packets : List (Level × Content)} (some : packets ≠ [])
    (sends : ∀ packet ∈ packets, c.Sends packet.2) : (⟨c.lifecycle,packets⟩ : Sent).Lawful := by
  obtain ⟨first,there⟩ := List.exists_mem_of_ne_nil packets some
  refine ⟨fun closing packet member => ?_,kept.sends_alive (sends first there)⟩
  rcases sends packet member with ⟨_,close⟩ | ⟨idle,«open»,_⟩
  · exact close
  · have none : c.lifecycle.closingDeadlineUs.isSome = false := by
      cases armed : c.lifecycle.closingDeadlineUs.isSome with
      | false => rfl
      | true => exact absurd («open».symm.trans (kept.sound.closing armed).1) nofun
    change c.lifecycle.state = .closing at closing
    unfold LifecycleState.state at closing
    rw [(kept.sends_alive (sends first there)).draining,none,idle,«open»] at closing
    cases closing

theorem sent_other (kept : Kept c) {out : Sent} (lawful : out.Lawful) (has : out.hasClose = false) {rest : Bool}
    (resting : rest = true → c.restDeadlineValid = true) : Kept {c with restDeadlineValid := rest,sent := out::c.sent} := by
  have emits : Connection.emits {c with restDeadlineValid := rest,sent := out::c.sent} = c.emits :=
    List.countP_cons_of_neg (by rw [has]; nofun)
  exact {kept with
    sent := List.forall_mem_cons.mpr ⟨lawful,kept.sent⟩
    rest := fun there => kept.rest (resting there)
    count := emits ▸ kept.count
    paid := emits ▸ kept.paid
    earned := emits ▸ kept.earned}

theorem nextTimerDeadline (kept : Kept c) (quiet : Bool) : Kept (c.nextTimerDeadline quiet) := by
  refine {kept with rest := fun resting => ?_}
  rcases (Bool.or_eq_true _ _).mp resting with resting | resting
  · exact kept.rest resting
  · unfold Connection.atRest at resting
    simp only [Bool.and_eq_true,Bool.not_eq_true',Bool.or_eq_false_iff] at resting
    have idle : c.lifecycle.pendingClose = none := by simpa using resting.1.2.2
    exact ⟨resting.1.2.1,idle⟩

theorem pollEvent (kept : Kept c) : Kept c.pollEvent :=
  kept.moves ⟨le_rfl,fun cause known => by
    change Option.map _ (c.lifecycle.closeEvent.map _) = _
    rw [Option.map_map]
    exact known,fun _ => .inl,fun _ => .inl⟩ nofun ⟨kept.sound.draining,kept.sound.closing,kept.sound.alive,kept.sound.pending⟩ rfl
    rfl .inl kept.rest

theorem emit (kept : Kept c) (waits : c.lifecycle.pendingClose.isSome = true) {out : Sent} (lawful : out.Lawful)
    (has : out.hasClose = true) {rest : Bool} (resting : rest = true → c.restDeadlineValid = true) :
    Kept {c.noteCloseEmitted nowUs with
      restDeadlineValid := rest
      sent := out::c.sent} := by
  have alive := @sends_alive _ kept (.close ⟨true,0,0,[]⟩) (.inl ⟨waits,rfl⟩)
  have state : c.lifecycle.state.rank ≤ 1 := alive.rank
  have emits : Connection.emits {c.noteCloseEmitted nowUs with
      restDeadlineValid := rest
      sent := out::c.sent} = c.emits+1 := List.countP_cons_of_pos has
  have armed : ((c.lifecycle.noteCloseEmit nowUs (saturatingAdd nowUs c.drainingDurationUs)).updateDrainingDeadline
      (saturatingAdd nowUs c.drainingDurationUs)).closingDeadlineUs.isSome = true := by
    change (if c.lifecycle.drainingDeadlineUs.isNone ∧ c.lifecycle.closingDeadlineUs.isNone then _ else
      c.lifecycle.closingDeadlineUs).isSome = true
    rw [alive.draining]
    cases c.lifecycle.closingDeadlineUs <;> rfl
  have cause : ∀ cause, c.lifecycle.cause = some cause →
      ((c.lifecycle.noteCloseEmit nowUs (saturatingAdd nowUs c.drainingDurationUs)).updateDrainingDeadline
        (saturatingAdd nowUs c.drainingDurationUs)).cause = some cause := by
    intro cause known
    change Option.map _ (c.lifecycle.closeEvent.map _) = _
    rw [Option.map_map]
    exact known
  have quiet : c.restDeadlineValid = true → False := fun resting => by
    rw [(kept.rest resting).2] at waits
    cases waits
  refine {
    sound := ⟨fun there => ?_,fun _ => ⟨rfl,?_⟩,nofun,nofun⟩
    past := List.forall_mem_cons.mpr ⟨Moment.Forward.lawful ⟨?_,cause,fun deadline there => ?_,fun deadline there => .inl ?_⟩ nofun,
      kept.past⟩
    sent := List.forall_mem_cons.mpr ⟨lawful,kept.sent⟩
    rest := fun there => (quiet (resting there)).elim
    count := ?_
    paid := ?_
    earned := nofun}
  · change c.lifecycle.drainingDeadlineUs.isSome = true at there
    rw [alive.draining] at there
    cases there
  · change min (c.lifecycle.closeEmitCount+1) maxU32 ≠ 0
    unfold maxU32
    omega
  · refine Nat.le_trans state (Nat.le_of_eq (congrArg CloseState.rank (LifecycleState.state_closing ?_ armed)).symm)
    exact alive.draining
  · change c.lifecycle.drainingDeadlineUs = _ at there
    rw [alive.draining] at there
    cases there
  · change (if c.lifecycle.drainingDeadlineUs.isNone ∧ c.lifecycle.closingDeadlineUs.isNone then _ else
      c.lifecycle.closingDeadlineUs) = _
    change c.lifecycle.closingDeadlineUs = _ at there
    rw [there,if_neg fun both => by cases both.2]
  · rw [emits]
    change min (c.lifecycle.closeEmitCount+1) maxU32 = _
    rw [kept.count]
    omega
  · rw [emits]
    change spent (c.emits+1)+0 ≤ c.attributed
    have paid := kept.paid
    cases count : c.emits with
    | zero => exact Nat.zero_le _
    | succ n =>
      have earned := kept.earned waits (by rw [count]; exact Nat.succ_ne_zero n)
      rw [count,Nat.add_sub_cancel] at earned
      rw [count] at paid
      rw [spent]
      omega

end Kept

namespace Kept
variable {c : Connection} {nowUs : Nat}

theorem pollLevel (kept : Kept c) (lvl : Level) (appWriteKeys : Bool) (offer : Offer) :
    Kept (c.pollLevel lvl appWriteKeys offer nowUs) := by
  unfold Connection.pollLevel
  split
  · exact kept
  · exact kept
  rename_i content built
  have sends := Connection.pollLevelOnPath_sends built
  have lawful : (⟨c.lifecycle,[(lvl,content)]⟩ : Sent).Lawful :=
    kept.sends_lawful (List.cons_ne_nil _ _) (List.forall_mem_singleton.mpr sends)
  dsimp only
  rcases sends with ⟨waits,close⟩ | ⟨_,_,other⟩
  · rw [if_pos close]
    exact kept.emit waits lawful (by simp [Sent.hasClose,close]) id
  · rw [if_neg (by rw [other]; nofun)]
    exact kept.sent_other lawful (by simp [Sent.hasClose,other]) id

theorem pollDatagramFull (kept : Kept c) (p : Poll) : Kept (c.pollDatagramFull p nowUs) := by
  unfold Connection.pollDatagramFull
  split
  · exact kept
  rename_i packets built
  have sends := Connection.pollLevels_sends built
  dsimp only
  split
  · exact kept
  rename_i some
  have lawful := kept.sends_lawful some sends
  obtain ⟨first,there⟩ := List.exists_mem_of_ne_nil packets some
  rcases sends first there with ⟨waits,close⟩ | ⟨idle,_⟩
  · have has : (⟨c.lifecycle,packets⟩ : Sent).hasClose = true := List.any_eq_true.mpr ⟨first,there,close⟩
    rw [if_pos has]
    exact kept.emit waits lawful has nofun
  · have none : (⟨c.lifecycle,packets⟩ : Sent).hasClose = false := by
      refine List.any_eq_false.mpr fun packet member => ?_
      rcases sends packet member with ⟨waits,_⟩ | ⟨_,_,other⟩
      · rw [idle] at waits
        cases waits
      · rw [other]
        nofun
    rw [if_neg (by rw [none]; nofun)]
    exact kept.sent_other lawful none nofun

theorem pollDatagram (kept : Kept c) (p : Poll) : Kept (c.pollDatagram p nowUs) := by
  have start : Kept {c with clockUs := max c.clockUs nowUs} := {kept with}
  unfold Connection.pollDatagram
  dsimp only
  split
  · exact start
  have prepared := (start.effects [p.prepare]).1
  generalize Connection.effects _ [p.prepare] = outcome at prepared ⊢
  obtain ⟨done,c'⟩ := outcome
  cases done with
  | false => exact prepared
  | true =>
    dsimp only at prepared ⊢
    split
    · exact prepared.nextTimerDeadline p.quiet
    · exact prepared.pollDatagramFull p

end Kept

theorem kept_step {c : Connection} (kept : Kept c) {event : Event} (orderly : Orderly c event) : Kept (step c event) := by
  cases event with
  | close isTransport errorCode reason => exact (kept.close isTransport errorCode reason).1
  | handle d nowUs => exact kept.handle orderly
  | tick timers nowUs => exact kept.tick timers
  | nextTimerDeadline quiet => exact kept.nextTimerDeadline quiet
  | pollDatagram p nowUs => exact kept.pollDatagram p
  | pollLevel lvl appWriteKeys offer nowUs => exact kept.pollLevel lvl appWriteKeys offer
  | pollEvent => exact kept.pollEvent
  | work effects => exact (kept.effects effects).1

theorem kept_fresh {c : Connection} (fresh : Fresh c) : Kept c := by
  have none : c.emits = 0 := by
    unfold Connection.emits
    rw [fresh.sent]
    rfl
  refine ⟨?_,?_,?_,?_,?_,?_,?_⟩
  · rw [fresh.lifecycle]
    exact ⟨nofun,nofun,fun _ => rfl,nofun⟩
  · rw [fresh.past]
    exact List.forall_mem_nil _
  · rw [fresh.sent]
    exact List.forall_mem_nil _
  · rw [fresh.rest]
    exact nofun
  · rw [fresh.lifecycle,none]
    exact (Nat.zero_min _).symm
  · rw [fresh.lifecycle,none]
    exact Nat.zero_le _
  · rw [fresh.lifecycle]
    exact nofun

/-- In the runs whose datagrams end the connection once, the end goes forward, keeps its cause and its deadlines, and sends
little but CONNECTION_CLOSE. -/
theorem connection_ends_once (start : Connection) (events : List Event) (fresh : Fresh start)
    (admitted : System.Admits step Orderly start events) : System.Throughout Good step start events := by
  refine System.Throughout.of_reaches (fun c reached => ?_) (.start (kept_fresh fresh)) admitted
  exact (reached.invariant Kept (fun _ => id) fun c event kept orderly => kept_step kept orderly).good

instance (c : Connection) (d : Datagram) : Decidable (EndsOnce c d) :=
  decidable_of_iff ((c.lifecycle.closingAttributionOnly = true ∨ ∀ r ∈ reached d.packets, r.packet.dispatched ≤ 1) ∧
      heldCloses d.held ≤ 1 ∧ ((∃ r ∈ reached d.packets, r.packet.ends = true) → heldCloses d.held = 0))
    ⟨fun ⟨once,held,ended⟩ => ⟨once,held,ended⟩,fun once => ⟨once.once,once.held,once.ended⟩⟩

instance (c : Connection) (event : Event) : Decidable (Orderly c event) := by
  unfold Orderly
  split <;> infer_instance

def alone (frames : List Frame) : Datagram := {packets := [{packet := .long (.opened [] false frames []),drainTls := false}]}

def noError : ConnectionClose := {isTransport := true,errorCode := 0}

theorem connection_ends_once_repeated :
    System.Throughout Good step {drainingDurationUs := 300000}
      [.handle (alone [.other [.other 600000] false]) 1000,.close false 7 (text "bye"),.pollDatagram
        {prepare := .other 600000,initial := .ready false (some true),application := .ready false (some true)} 2000,
       .handle (alone [.other [] false]) 3000,.pollDatagram {prepare := .other 600000,application := .ready false none} 3000,
       .handle (alone [.other [] false]) 4000,.tick {} 5000,.handle (alone [.other [] false,.connectionClose noError none]) 6000,
       .tick {} 606000] :=
  connection_ends_once {drainingDurationUs := 300000} _ ⟨rfl,rfl,rfl,rfl,rfl⟩ (by decide +kernel)

/-- A second CONNECTION_CLOSE in the packet, behind an ACK that moves the PTO, moves the end of the draining period. -/
theorem draining_extended :
    ¬System.Throughout Good step {drainingDurationUs := 300000}
      [.handle (alone [.connectionClose noError none,.other [.other 900000] false,.connectionClose noError none]) 1000] := by
  intro all
  have moved : ∃ m ∈ (System.run step {drainingDurationUs := 300000}
      [.handle (alone [.connectionClose noError none,.other [.other 900000] false,.connectionClose noError none]) 1000]).past,
      m.trigger = .enterDraining ∧ m.before.drainingDeadlineUs = some 301000 ∧ m.after.drainingDeadlineUs = some 901000 := by
    decide +kernel
  obtain ⟨m,there,trigger,before,after⟩ := moved
  have lawful := all.last.past m there
  unfold Moment.Lawful at lawful
  rw [if_neg (by rw [trigger]; nofun)] at lawful
  rcases lawful.draining 301000 before with same | ⟨_,finished,_⟩
  · rw [after] at same
    cases same
  · rw [trigger] at finished
    cases finished

end QuicZig.Conn.Closing
