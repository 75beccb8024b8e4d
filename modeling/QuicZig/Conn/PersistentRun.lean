import QuicZig.Conn.PersistentCongestion
import QuicZig.Library.System

/-! When a declaration of persistent congestion rests on two packets that bear it out. The controller is told of two send times
among the packets one sweep takes; what was acknowledged between them, and when the first RTT sample came, it is not told. -/
namespace QuicZig.Conn.PersistentCongestion
open SentPackets SentPacketTracker LossSweep
open Congestion (LossStats)
open Pmtud (PathMtu)
open QuicZig.System (Reaches)

variable {Retransmit γ ε : Type}

/-- The packets that a sweep counts: those that are not the outstanding probe when their turn comes. -/
def counted (conn : Connection) : PathMtu → List (SentPacket Retransmit) → List (SentPacket Retransmit)
  | _,[] => []
  | mtu,p::rest =>
    if mtu.probePn = some p.pn then counted conn (probeLost conn mtu) rest else p::counted conn (regularLost conn mtu) rest

/-- The ack-eliciting packets among them. -/
def taken (conn : Connection) (pred : LossPredicate) (path : Path Retransmit) : List (SentPacket Retransmit) :=
  (counted conn path.mtu (path.sent.live.filter pred.matches)).filter (·.ackEliciting)

/-- Where two of the packets to be taken lie a persistent-congestion duration apart, the first of them was sent after the first RTT
sample, and no packet between them has been acknowledged. -/
def Unbroken (conn : Connection) (h : History Retransmit) (pred : LossPredicate) : Prop :=
  ∀ p ∈ taken conn pred h.path, ∀ q ∈ taken conn pred h.path, p.sentTimeUs < q.sentTimeUs →
    p.sentTimeUs+basePtoDurationForApplicationPath conn h.path*Congestion.persistentCongestionThreshold ≤ q.sentTimeUs →
    h.account.After p ∧ h.account.Unacked p q

def Meets (h : History Retransmit) : Event Retransmit ε → Prop
  | .ack conn a nowUs reorder deliver _ told =>
    (h.acknowledge conn a nowUs deliver told).1 = true →
      ∀ pred ∈ packetThreshold reorder (h.acknowledge conn a nowUs deliver told).2.path,
        Unbroken conn (h.acknowledge conn a nowUs deliver told).2 pred
  | .tick conn nowUs reorder _ => ∀ pred ∈ timeThreshold reorder nowUs h.path, Unbroken conn h pred
  | _ => True

/-! What a sweep is told of its packets. -/

/-- The two send times are those of ack-eliciting packets. -/
def Spans (packets : List (SentPacket Retransmit)) (stats : LossStats) : Prop :=
  match stats.earliestAckElicitingLostSentTimeUs with
  | none => stats.largestAckElicitingLostSentTimeUs = 0
  | some earliest =>
    (∃ p ∈ packets, p.ackEliciting = true ∧ p.sentTimeUs = earliest) ∧
      ∃ q ∈ packets, q.ackEliciting = true ∧ q.sentTimeUs = stats.largestAckElicitingLostSentTimeUs

theorem Spans.add {packets : List (SentPacket Retransmit)} {stats : LossStats} (spans : Spans packets stats)
    (p : SentPacket Retransmit) : Spans (packets ++ [p]) (stats.add p) := by
  have older {q : SentPacket Retransmit} (member : q ∈ packets) : q ∈ packets ++ [p] := List.mem_append_left _ member
  have last : p ∈ packets ++ [p] := List.mem_append_right _ (List.mem_singleton.mpr rfl)
  unfold Spans at spans ⊢
  unfold LossStats.add
  cases elicits : p.ackEliciting with
  | false =>
    simp only [Bool.false_eq_true,if_false]
    cases first : stats.earliestAckElicitingLostSentTimeUs with
    | none => simpa [first] using spans
    | some earliest =>
      rw [first] at spans
      obtain ⟨⟨q,member,small⟩,r,member',large⟩ := spans
      exact ⟨⟨q,older member,small⟩,r,older member',large⟩
  | true =>
    simp only [if_true]
    cases first : stats.earliestAckElicitingLostSentTimeUs with
    | none =>
      rw [first] at spans
      refine ⟨⟨p,last,elicits,rfl⟩,p,last,elicits,?_⟩
      rw [show stats.largestAckElicitingLostSentTimeUs = 0 from spans,Nat.zero_max]
    | some earliest =>
      rw [first] at spans
      obtain ⟨⟨q,member,small⟩,r,member',large⟩ := spans
      constructor
      · rcases Nat.le_total earliest p.sentTimeUs with below | above
        · exact ⟨q,older member,small.1,small.2.trans (Nat.min_eq_left below).symm⟩
        · exact ⟨p,last,elicits,(Nat.min_eq_right above).symm⟩
      · rcases Nat.le_total p.sentTimeUs stats.largestAckElicitingLostSentTimeUs with below | above
        · exact ⟨r,older member',large.1,large.2.trans (Nat.max_eq_left below).symm⟩
        · exact ⟨p,last,elicits,(Nat.max_eq_right above).symm⟩

theorem spans_foldl (packets : List (SentPacket Retransmit)) : Spans packets (packets.foldl LossStats.add {}) := by
  induction packets using List.reverseRecOn with
  | nil => exact rfl
  | append_singleton rest p ih =>
    rw [List.foldl_append]
    exact ih.add p

theorem onPacketsLost_persistent {conn : Connection} {stats : LossStats} {nowUs : Nat} {path : Path Retransmit}
    (declared : (onPacketsLost conn stats nowUs path).1 = true) :
    Congestion.isPersistentCongestionFromBasePto (basePtoDurationForApplicationPath conn path) stats = true := by
  change (Congestion.Recovery.onApplicationPathPacketsLost path.cc stats (basePtoDurationForApplicationPath conn path)
    nowUs).1 = true
    at declared
  unfold Congestion.Recovery.onApplicationPathPacketsLost at declared
  split at declared
  · cases declared
  · dsimp only at declared
    split at declared
    · assumption
    · cases declared

theorem declared_apart {conn : Connection} {packets : List (SentPacket Retransmit)} {nowUs : Nat} {path : Path Retransmit}
    (declared : (onPacketsLost conn (packets.foldl LossStats.add {}) nowUs path).1 = true) :
    ∃ p ∈ packets.filter (·.ackEliciting), ∃ q ∈ packets.filter (·.ackEliciting), p.sentTimeUs < q.sentTimeUs ∧
      p.sentTimeUs+basePtoDurationForApplicationPath conn path*Congestion.persistentCongestionThreshold ≤ q.sentTimeUs := by
  have spans := spans_foldl packets
  have persistent := onPacketsLost_persistent declared
  unfold Spans at spans
  generalize packets.foldl LossStats.add {} = stats at persistent spans
  unfold Congestion.isPersistentCongestionFromBasePto at persistent
  cases first : stats.earliestAckElicitingLostSentTimeUs with
  | none =>
    rw [first] at persistent
    cases persistent
  | some earliest =>
    rw [first] at persistent spans
    obtain ⟨⟨p,member,elicits,small⟩,q,member',elicits',large⟩ := spans
    dsimp only at persistent
    split at persistent
    · cases persistent
    · rename_i apart
      have far : basePtoDurationForApplicationPath conn path*Congestion.persistentCongestionThreshold ≤
          stats.largestAckElicitingLostSentTimeUs-earliest := by simpa using persistent
      refine ⟨p,List.mem_filter.mpr ⟨member,elicits⟩,q,List.mem_filter.mpr ⟨member',elicits'⟩,?_,?_⟩
      · omega
      · omega

theorem single_declares_nothing (conn : Connection) (p : SentPacket Retransmit) (nowUs : Nat) (path : Path Retransmit) :
    (onPacketsLost conn (LossStats.add {} p) nowUs path).1 = false := by
  by_contra declared
  rw [Bool.not_eq_false] at declared
  obtain ⟨q,member,r,member',less,_⟩ := declared_apart (show (onPacketsLost conn ([p].foldl LossStats.add {}) nowUs
    path).1 = true
    from declared)
  rw [List.mem_singleton.mp (List.mem_of_mem_filter member),List.mem_singleton.mp (List.mem_of_mem_filter member')] at less
  exact less.false

theorem counted_subset (conn : Connection) (mtu : PathMtu) (packets : List (SentPacket Retransmit)) :
    counted conn mtu packets ⊆ packets := by
  induction packets generalizing mtu with
  | nil => exact fun _ => id
  | cons p rest ih =>
    unfold counted
    split
    · exact fun q member => List.mem_cons_of_mem p (ih _ member)
    · exact List.cons_subset_cons p (ih _)

theorem hand_handle {conn : Connection} {requeue : SentPacket Retransmit → Except ε Unit}
    {packets rest : List (SentPacket Retransmit)}
    {ctx ctx' : SweepCtx Retransmit} (handed : hand (SweepCtx.handle conn requeue) ctx packets = (.ok (),ctx',rest)) :
    ctx'.stats = (counted conn ctx.mtu packets).foldl LossStats.add ctx.stats ∧ ctx'.lost = packets.reverse ++ ctx.lost := by
  induction packets generalizing ctx with
  | nil =>
    rw [← (Prod.mk.inj (Prod.mk.inj handed).2).1]
    exact ⟨rfl,rfl⟩
  | cons p more ih =>
    rw [hand_cons] at handed
    unfold SweepCtx.handle at handed
    unfold counted
    cases queued : requeue p with
    | error e =>
      rw [queued] at handed
      cases handed
    | ok _ =>
      rw [queued] at handed
      by_cases probe : ctx.mtu.probePn = some p.pn
      · simp only [probe,decide_true,if_true] at handed ⊢
        obtain ⟨stats,lost⟩ := ih handed
        exact ⟨stats,by rw [lost,List.reverse_cons,List.append_assoc]; rfl⟩
      · simp only [probe,decide_false,Bool.false_eq_true,if_false] at handed ⊢
        obtain ⟨stats,lost⟩ := ih handed
        exact ⟨stats,by rw [lost,List.reverse_cons,List.append_assoc]; rfl⟩

/-! What a step leaves of the tracker. -/

theorem runEnd_within (takes : SentPacket Retransmit → Bool) (t : SentPacketTracker Retransmit) (left i : Nat) :
    i ≤ runEnd takes t left i ∧ runEnd takes t left i ≤ i+left := by
  induction left generalizing i with
  | zero => exact ⟨le_rfl,le_rfl⟩
  | succ left ih =>
    have next := ih (i+1)
    unfold runEnd
    split
    · omega
    · split <;> omega

/-- The slots of a tracker are below the number that is given out next. -/
structure Tracked (t : SentPacketTracker Retransmit) (nextPn : Nat) : Prop where
  sound : t.Sound
  below : ∀ p ∈ t.slots, p.pn < nextPn

theorem Tracked.shaped {t u : SentPacketTracker Retransmit} {nextPn : Nat} (tracked : Tracked t nextPn) (sound : u.Sound)
    (shape : Shape t u) : Tracked u nextPn := by
  refine ⟨sound,fun p member => ?_⟩
  obtain ⟨q,member',same⟩ := shape.kept member
  rw [← same]
  exact tracked.below q member'

theorem Tracked.removed {t : SentPacketTracker Retransmit} {nextPn pn start : Nat} (tracked : Tracked t nextPn)
    (found : t.lowerBound pn = some start) (takes : SentPacket Retransmit → Bool)
    (onAcked : γ → SentPacket Retransmit → Except ε Unit × γ) (ctx : γ) :
    ∃ result ctx' u, t.removeRangeWithError onAcked ctx start (runEnd takes t (t.count-start) start) = some (result,ctx',u) ∧
      Tracked u nextPn := by
  have inside : start < t.count := by
    unfold SentPacketTracker.lowerBound at found
    dsimp only at found
    split at found
    · cases found
    · rename_i short
      rw [← Option.some.inj found]
      exact not_le.mp short
  obtain ⟨forward,within⟩ := runEnd_within takes t (t.count-start) start
  obtain ⟨u,removed,sound,shape,_⟩ := tracked.sound.removeRange onAcked ctx forward (within.trans (by omega))
  exact ⟨_,_,u,removed,tracked.shaped sound shape⟩

theorem ackLoop_tracked {t : SentPacketTracker Retransmit} {nextPn : Nat} (tracked : Tracked t nextPn)
    (onAcked : γ → SentPacket Retransmit → Except ε Unit × γ) (it : Frame.Iterator) (ctx : γ) :
    ∃ result ctx' u, ackLoop onAcked it ctx t = some (result,ctx',u) ∧ Tracked u nextPn := by
  fun_induction ackLoop onAcked it ctx t with
  | case1 it ctx t e later step => exact ⟨_,_,t,rfl,tracked⟩
  | case2 it ctx t later step => exact ⟨_,_,t,rfl,tracked⟩
  | case3 it ctx t interval later step past ih => exact ih tracked
  | case4 it ctx t interval later step start found stop trapped =>
    obtain ⟨result,ctx',u,removed,_⟩ := tracked.removed found (fun p => decide (p.pn ≤ interval.largest)) onAcked ctx
    cases trapped.symm.trans removed
  | case5 it ctx t interval later step start found stop e ctx' u taken =>
    obtain ⟨_,_,_,removed,tracked'⟩ := tracked.removed found (fun p => decide (p.pn ≤ interval.largest)) onAcked ctx
    cases taken.symm.trans removed
    exact ⟨_,_,u,rfl,tracked'⟩
  | case6 it ctx t interval later step start found stop ctx' u taken ih =>
    obtain ⟨_,_,_,removed,tracked'⟩ := tracked.removed found (fun p => decide (p.pn ≤ interval.largest)) onAcked ctx
    cases taken.symm.trans removed
    exact ih tracked'

def Path.Tracked (path : Path Retransmit) : Prop := PersistentCongestion.Tracked path.sent path.space.nextPn

theorem apply_tracked {path : Path Retransmit} (tracked : path.Tracked) (conn : Connection) (a : Frame.Ack) (nowUs : Nat)
    (deliver : SentPacket Retransmit → Except ε Unit) (told : Congestion.Controller → Congestion.Controller) :
    ∃ applied path', apply conn a nowUs deliver told path = some (applied,path') ∧ path'.Tracked := by
  unfold apply
  cases accepted : path.space.applyAck conn.ecnEnabled a with
  | none => exact ⟨_,path,rfl,tracked⟩
  | some space =>
    have same : space.nextPn = path.space.nextPn := by
      obtain ⟨_,_,_,_,_,_,rfl⟩ := PnSpace.applyAck_frame accepted
      rfl
    obtain ⟨result,ctx,u,walked,tracked'⟩ := ackLoop_tracked tracked (dispatchAcked deliver path.mtu.probePn a.largestAcked)
      (Frame.iter a) {}
    rw [← same] at tracked'
    dsimp only
    rw [walked]
    cases result with
    | error e => exact ⟨_,_,rfl,tracked'⟩
    | ok _ => exact ⟨_,_,rfl,tracked'⟩

/-- What looking for losses comes to: a declaration rests on two of the packets that `lost` names. -/
structure Judged (conn : Connection) (path : Path Retransmit) (candidates : List (SentPacket Retransmit))
    (verdict : Verdict Retransmit) (path' : Path Retransmit) : Prop where
  tracked : path'.Tracked
  apart : verdict.declared = true → candidates ⊆ verdict.lost ∧
    ∃ p ∈ candidates, ∃ q ∈ candidates, p.sentTimeUs < q.sentTimeUs ∧
    p.sentTimeUs+basePtoDurationForApplicationPath conn path*Congestion.persistentCongestionThreshold ≤ q.sentTimeUs

theorem sweepLosses_judged {path : Path Retransmit} (tracked : path.Tracked) (conn : Connection)
    (requeue : SentPacket Retransmit → Except ε Unit) (pred : LossPredicate) (nowUs : Nat) :
    ∃ verdict path', sweepLosses conn requeue pred nowUs path = some (verdict,path') ∧
      Judged conn path (taken conn pred path) verdict path' := by
  obtain ⟨u,swept,sound,shape,_⟩ := sweepLosses_spec (SweepCtx.handle conn requeue) tracked.sound pred {mtu := path.mtu}
  have tracked' : Tracked u path.space.nextPn := Tracked.shaped tracked sound shape
  unfold sweepLosses
  rw [swept]
  rcases handed : hand (SweepCtx.handle conn requeue) {mtu := path.mtu} (path.sent.live.filter pred.matches) with
    ⟨result,ctx,rest⟩
  cases result with
  | error e => exact ⟨_,_,rfl,tracked',nofun⟩
  | ok _ =>
    obtain ⟨stats,lost⟩ := hand_handle handed
    refine ⟨_,_,rfl,tracked',fun declared => ⟨fun p member => ?_,?_⟩⟩
    · have whole := counted_subset conn path.mtu _ (List.mem_of_mem_filter member)
      change p ∈ ctx.lost
      rw [lost]
      exact List.mem_append_left _ (List.mem_reverse.mpr whole)
    · change (onPacketsLost conn ctx.stats nowUs _).1 = true at declared
      rw [stats] at declared
      exact declared_apart declared

theorem firePto_judged {path : Path Retransmit} (tracked : path.Tracked) (conn : Connection)
    (requeue : SentPacket Retransmit → Except ε Unit) (nowUs : Nat) :
    ∃ verdict path', firePto conn requeue nowUs path = some (verdict,path') ∧ path'.Tracked ∧ verdict.declared = false := by
  unfold firePto
  cases found : (path.sent.packets.take path.sent.count).findIdx? fun p => p.alive && p.ackEliciting with
  | none => exact ⟨_,path,rfl,tracked,rfl⟩
  | some i =>
    obtain ⟨inside,elicits,_⟩ := List.findIdx?_eq_some_iff_getElem.mp found
    have living := (Bool.and_eq_true_iff.mp elicits).1
    obtain ⟨u,removed,sound,shape,_⟩ := tracked.sound.removeAt
      (show path.sent.slots[i]? = some path.sent.slots[i] from List.getElem?_eq_getElem inside) living
    have tracked' : Tracked u path.space.nextPn := Tracked.shaped tracked sound shape
    dsimp only
    rw [removed]
    simp only [bind,Option.bind]
    cases requeue path.sent.slots[i] with
    | error e => exact ⟨_,_,rfl,tracked',rfl⟩
    | ok _ =>
      dsimp only
      split
      · exact ⟨_,_,rfl,tracked',rfl⟩
      · exact ⟨_,_,rfl,tracked',single_declares_nothing conn _ nowUs _⟩

/-! Runs. -/

/-- What holds of every state. -/
structure Inv (h : History Retransmit) : Prop where
  tracked : h.path.Tracked
  justified : ∀ d ∈ h.declarations, d.Justified

theorem inv_fresh {h : History Retransmit} (fresh : Fresh h) : Inv h := by
  obtain ⟨cap,cc,mtu,some,rfl⟩ := fresh
  refine ⟨⟨⟨Nat.zero_le _,.inr ?_,.nil,rfl,rfl,rfl⟩,fun p there => (nomatch there)⟩,fun d there => (nomatch there)⟩
  have sixteen : initialSlots = 16 := rfl
  simp only [SentPacketTracker.init,List.length_replicate]
  omega

theorem Inv.send {h : History Retransmit} (inv : Inv h) (granted : Bool) (probeSize : Option Nat)
    (packet : SentPacket Retransmit) :
    Inv (h.send granted probeSize packet) := by
  obtain ⟨tracked,justified⟩ := inv
  unfold History.send
  cases given : h.path.space.allocatePn with
  | none => exact ⟨tracked,justified⟩
  | some answer =>
    obtain ⟨pn,space⟩ := answer
    obtain ⟨rfl,next⟩ : h.path.space.nextPn = pn ∧ space.nextPn = h.path.space.nextPn+1 := by
      unfold PnSpace.allocatePn at given
      split at given
      · cases given
      · cases given
        exact ⟨rfl,rfl⟩
    dsimp only
    obtain ⟨u,recorded,sound,_,slots⟩ := tracked.sound.record (p := {packet with
      pn := h.path.space.nextPn
      dead := false}) rfl tracked.below granted
    rw [recorded]
    generalize admission h.path.sent.capacity (h.path.sent.stored granted) h.path.sent.live.length = answer at slots ⊢
    cases answer with
    | error e =>
      refine ⟨⟨sound,fun p member => ?_⟩,justified⟩
      have := tracked.below p (slots.2.subset member)
      change p.pn < space.nextPn
      omega
    | ok _ =>
      refine ⟨⟨sound,fun p member => ?_⟩,justified⟩
      have within : p.pn ≤ h.path.space.nextPn := slots.2 p member
      change p.pn < space.nextPn
      omega

theorem Inv.acknowledge {h : History Retransmit} (inv : Inv h) (conn : Connection) (a : Frame.Ack) (nowUs : Nat)
    (deliver : SentPacket Retransmit → Except ε Unit) (told : Congestion.Controller → Congestion.Controller) :
    Inv (h.acknowledge conn a nowUs deliver told).2 := by
  obtain ⟨applied,path,came,tracked⟩ := apply_tracked inv.tracked conn a nowUs deliver told
  unfold History.acknowledge
  rw [came]
  cases applied with
  | closed => exact inv
  | failed => exact ⟨tracked,inv.justified⟩
  | walked rttSampled => exact ⟨tracked,inv.justified⟩

theorem Inv.sweep {h : History Retransmit} (inv : Inv h) {conn : Connection} {pred : Option LossPredicate}
    (unbroken : ∀ p ∈ pred, Unbroken conn h p) (nowUs : Nat) (requeue : SentPacket Retransmit → Except ε Unit) :
    Inv (h.sweep conn nowUs requeue pred) := by
  cases pred with
  | none => exact inv
  | some pred =>
    obtain ⟨verdict,path,swept,tracked,apart⟩ := sweepLosses_judged inv.tracked conn requeue pred nowUs
    unfold History.sweep History.judge
    dsimp only
    rw [swept]
    refine ⟨tracked,fun d member => ?_⟩
    dsimp only at member
    split at member
    · rename_i declared
      rcases List.mem_cons.mp member with rfl | earlier
      · obtain ⟨named,p,first,q,last,less,far⟩ := apart declared
        obtain ⟨⟨sample,sampled,after⟩,unacked⟩ := unbroken pred rfl p first q last less far
        refine ⟨p,List.mem_append_left _ (named first),q,List.mem_append_left _ (named last),?_,?_,less,far,
          ⟨sample,sampled,after⟩,⟨sample,sampled,after.trans less⟩,unacked⟩
        · exact (List.mem_filter.mp first).2
        · exact (List.mem_filter.mp last).2
      · exact inv.justified d earlier
    · exact inv.justified d member

theorem Inv.step {h : History Retransmit} (inv : Inv h) {event : Event Retransmit ε} (meets : Meets h event) :
    Inv (PersistentCongestion.step h event) := by
  cases event with
  | send granted probeSize packet => exact inv.send granted probeSize packet
  | ack conn a nowUs reorder deliver requeue told =>
    have came := inv.acknowledge conn a nowUs deliver told
    unfold Meets at meets
    unfold PersistentCongestion.step
    dsimp only at meets ⊢
    generalize h.acknowledge conn a nowUs deliver told = answer at came meets ⊢
    obtain ⟨goesOn,h'⟩ := answer
    cases goesOn with
    | false => exact came
    | true => exact came.sweep (meets rfl) nowUs requeue
  | handshakeAck conn latestRttUs nowUs => exact ⟨inv.tracked,inv.justified⟩
  | tick conn nowUs reorder requeue => exact inv.sweep meets nowUs requeue
  | pto conn nowUs requeue =>
    obtain ⟨verdict,path,fired,tracked,quiet⟩ := firePto_judged inv.tracked conn requeue nowUs
    unfold PersistentCongestion.step History.judge
    dsimp only
    rw [fired]
    refine ⟨tracked,fun d member => ?_⟩
    dsimp only at member
    rw [quiet] at member
    exact inv.justified d member

/-- In a run whose sweeps all find their packets unbroken, each declaration of persistent congestion is borne out: two
ack-eliciting packets were declared lost that were sent the duration apart and after the first RTT sample, and no packet sent
between them had been acknowledged. -/
theorem declarations_justified {h : History Retransmit} (reached : Reaches Fresh step (Meets (ε := ε)) h) :
    ∀ d ∈ h.declarations, d.Justified :=
  (reached.invariant Inv (fun _ fresh => inv_fresh fresh) fun _ _ inv meets => inv.step meets).justified

/-! Runs of a path that has sent nothing yet. -/

instance (account : Account Retransmit) (p : SentPacket Retransmit) : Decidable (account.After p) :=
  inferInstanceAs (Decidable (∃ first ∈ account.firstSampleUs, first < p.sentTimeUs))

instance (account : Account Retransmit) (p q : SentPacket Retransmit) : Decidable (account.Unacked p q) :=
  inferInstanceAs (Decidable (∀ r ∈ account.sent, _ → _))

instance (d : Declaration Retransmit) : Decidable d.Justified :=
  inferInstanceAs (Decidable (∃ p ∈ d.account.lost, ∃ q ∈ d.account.lost, _))

instance (conn : Connection) (h : History Retransmit) (pred : LossPredicate) : Decidable (Unbroken conn h pred) :=
  inferInstanceAs (Decidable (∀ p ∈ taken conn pred h.path, ∀ q ∈ taken conn pred h.path, _))

instance (h : History Retransmit) (event : Event Retransmit ε) : Decidable (Meets h event) :=
  match event with
  | .ack .. => inferInstanceAs (Decidable (_ → ∀ pred ∈ packetThreshold _ _, _))
  | .tick .. => inferInstanceAs (Decidable (∀ pred ∈ timeThreshold _ _ _, _))
  | .send .. | .handshakeAck .. | .pto .. => isTrue trivial

def blank : History Unit := {path := {sent := .init 64,cc := .init {algorithm := .newReno}}}

theorem blank_fresh : Fresh blank := ⟨64,_,_,by decide,rfl⟩

/-- An ack-eliciting packet of 1200 bytes. -/
def sendAt (ms : Nat) : Event Unit Unit :=
  .send true none {pn := 0,sentTimeUs := ms*1000,bytes := 1200,ackEliciting := true,inFlight := true}

/-- An ACK of one packet, and of those that further ranges name. -/
def ackAt (ms largestAcked rangeCount : Nat) (rangesBytes : List Machine.Byte) : Event Unit Unit :=
  .ack {} {largestAcked,ackDelay := 0,firstRange := 0,rangeCount,rangesBytes,ecnCounts := none} (ms*1000) {}
    (fun _ => .ok ())
    (fun _ => .ok ()) id

/-- Packet 0 gives the first sample. Of the six that follow, the ACK names the last, and what `rangesBytes` spells. -/
def sampled (rangeCount : Nat) (rangesBytes : List Machine.Byte) : List (Event Unit Unit) :=
  [sendAt 0,ackAt 10 0 0 []] ++ [20,100,200,210,220,230].map sendAt ++ [ackAt 240 6 rangeCount rangesBytes]

/-- The first ACK is also the first sample. -/
def unsampled : List (Event Unit Unit) := [0,200,201,202,203].map sendAt ++ [ackAt 213 4 0 []]

/-- Packets 1 to 3 are lost, and declared to be persistent congestion. -/
theorem declarations_justified_lost :
    (System.run step blank (sampled 0 [])).declarations ≠ [] ∧
      ∀ d ∈ (System.run step blank (sampled 0 [])).declarations, d.Justified :=
  ⟨by decide +kernel,declarations_justified ((Reaches.start blank_fresh).run _ (by decide +kernel))⟩

/-- Packets 1 and 3 are lost around packet 2, which the same ACK names; packets 0 and 1 are lost that were sent before there was
a sample. Both are declared to be persistent congestion. -/
theorem declared_over_less :
    (Reaches Fresh (step (ε := Unit)) (fun _ _ => True) (System.run step blank (sampled 1 [2,0])) ∧
      Reaches Fresh (step (ε := Unit)) (fun _ _ => True) (System.run step blank unsampled)) ∧
      (∃ d ∈ (System.run (step (ε := Unit)) blank (sampled 1 [2,0])).declarations, ¬d.Justified) ∧
        ∃ d ∈ (System.run (step (ε := Unit)) blank unsampled).declarations, ¬d.Justified := by
  have reached (events : List (Event Unit Unit)) :
      Reaches Fresh (step (ε := Unit)) (fun _ _ => True) (System.run step blank events) :=
    (Reaches.start blank_fresh).run events (.of_forall (fun _ _ => trivial) _)
  refine ⟨⟨reached _,reached _⟩,?_⟩
  decide +kernel

end QuicZig.Conn.PersistentCongestion
