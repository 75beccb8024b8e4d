import QuicZig.Conn.InboundLimits
import QuicZig.Library.System

/-! The stream credit of the peer over whole runs: the limits that were advertised, the
MAX_STREAMS frames that carry them, and what the peer knows. -/
namespace QuicZig.Conn.MaxStreams
open Machine Streams Inbound Slots

/-- A packet with the frame is lost. `true` when a frame is queued. -/
def requeueLostMaxStreams (conn : Connection) (bidi : Bool) (lostLimit : Nat) : Bool × Connection :=
  if conn.flow.gracefulShutdown then (false,conn) else
  let current := (conn.peerIds bidi).limit
  if lostLimit < current then (false,conn)
  else
    let pending := conn.pendingFrames
    (true,{conn with pendingFrames :=
      if bidi then if pending.maxStreamsBidi.all (current > ·) then {pending with maxStreamsBidi := some current} else pending
      else if pending.maxStreamsUni.all (current > ·) then {pending with maxStreamsUni := some current} else pending})

structure History where
  conn : Connection
  /-- The frames of the packets whose fate is open. -/
  inFlight : List Frame.MaxStreams := []
  /-- The limits that the peer knows, by kind. -/
  known : Bool → Nat
  /-- Where the peer last said it is blocked. -/
  asked : Bool → Option Nat := fun _ => none

inductive Event where
  | call (e : Inbound.Event)
  | acked (ms : Frame.MaxStreams)
  | lost (ms : Frame.MaxStreams)

namespace History

def ids (h : History) (bidi : Bool) : StreamIdSpace := h.conn.peerIds bidi

def pending (h : History) (bidi : Bool) : Option Nat := h.conn.slots.pending bidi

def sent (h : History) (e : Inbound.Event) : List Frame.MaxStreams :=
  match e.call with
  | .sentMaxStreams bidi => if h.conn.takes e then (h.pending bidi).toList.map fun limit => ⟨bidi,limit⟩ else []
  | _ => []

def hear (h : History) (e : Inbound.Event) : Bool → Option Nat :=
  match e.call with
  | .streamsBlocked sb =>
    if h.conn.takes e ∧ sb.maximumStreams ≤ StreamIdSpace.maxStreamCount then
      Function.update h.asked sb.bidi (some sb.maximumStreams)
    else h.asked
  | _ => h.asked

end History

def step (h : History) : Event → History
  | .call e => {h with conn := (h.conn.act e).2,inFlight := h.inFlight ++ h.sent e,asked := h.hear e}
  | .acked ms =>
    if ms ∈ h.inFlight then
      {h with inFlight := h.inFlight.erase ms,known := Function.update h.known ms.bidi (max (h.known ms.bidi) ms.maximumStreams)}
    else h
  | .lost ms =>
    if ms ∈ h.inFlight then
      {h with inFlight := h.inFlight.erase ms,conn := (requeueLostMaxStreams h.conn ms.bidi ms.maximumStreams).2}
    else h

/-- The peer knows the limits of the transport parameters. -/
def Fresh (h : History) : Prop :=
  ∃ fresh : Inbound.History, Inbound.Fresh fresh ∧ h = {conn := fresh.conn,known := fun bidi => (fresh.conn.peerIds bidi).limit}

/-- A peer that is out of ids, or says so, and to whom a slot is free: a frame with more waits or is on its way. -/
def Served (h : History) (bidi : Bool) : Prop :=
  h.known bidi < (h.ids bidi).target → h.known bidi ≤ (h.ids bidi).opened ∨ (h.asked bidi).any (h.known bidi ≤ ·) = true →
    h.known bidi < (h.ids bidi).limit ∧
      (h.pending bidi = some (h.ids bidi).limit ∨ ⟨bidi,(h.ids bidi).limit⟩ ∈ h.inFlight)

structure Prompt (h : History) : Prop where
  served : h.conn.flow.gracefulShutdown = false → ∀ bidi, Served h bidi
  bounded : ∀ bidi, (h.ids bidi).limit ≤ StreamIdSpace.maxStreamCount

/-- A step takes no credit back. -/
def Rising (h : History) (e : Event) : Prop := ∀ bidi, (h.ids bidi).limit ≤ ((step h e).ids bidi).limit

structure Kept (h : History) : Prop where
  sound : h.conn.slots.Sound
  offered : ∀ bidi, Offered h.conn.slots bidi
  carried : h.conn.flow.gracefulShutdown = false → ∀ bidi, (h.ids bidi).limit = h.known bidi ∨
    h.pending bidi = some (h.ids bidi).limit ∨ ⟨bidi,(h.ids bidi).limit⟩ ∈ h.inFlight
  heard : ∀ bidi n, h.asked bidi = some n → h.conn.slots.blockedAt bidi = some n ∨ n < (h.ids bidi).limit
  known : ∀ bidi, h.known bidi ≤ (h.ids bidi).limit
  flying : ∀ ms ∈ h.inFlight, ms.maximumStreams ≤ (h.ids ms.bidi).limit

variable {h : History}

theorem Kept.prompt (kept : Kept h) : Prompt h := by
  refine ⟨fun open' bidi freed waits => ?_,fun bidi => (kept.sound.peer bidi).limit⟩
  have none' : (h.ids bidi).creditToAdvertise (h.conn.slots.blockedAt bidi) = none := kept.offered bidi open'
  have raised : (h.ids bidi).limit ≠ h.known bidi := by
    intro same
    have held := StreamIdSpace.creditToAdvertise_none none' (same ▸ freed)
    rcases waits with out | asked
    · omega
    · cases said : h.asked bidi with
      | none =>
        rw [said] at asked
        cases asked
      | some n =>
        rw [said] at asked
        have late : h.known bidi ≤ n := by simpa using asked
        rcases kept.heard bidi n said with noted | passed
        · have below := held.2
          rw [noted] at below
          have below' : n < (h.ids bidi).limit := by simpa using below
          omega
        · omega
  refine ⟨lt_of_le_of_ne (kept.known bidi) raised.symm,?_⟩
  exact (kept.carried open' bidi).resolve_left raised

theorem Kept.goes {conn : Connection} {asked : Bool → Option Nat} (kept : Kept h) (sound : conn.slots.Sound)
    (offered : ∀ bidi, Offered conn.slots bidi) (limit : ∀ bidi, (h.conn.slots.peerIds bidi).limit ≤ (conn.slots.peerIds bidi).limit)
    (shut : h.conn.slots.shut = true → conn.slots.shut = true)
    (pending : ∀ bidi, (conn.slots.pending bidi = h.conn.slots.pending bidi ∧
      (conn.slots.peerIds bidi).limit = (h.conn.slots.peerIds bidi).limit) ∨
        conn.slots.pending bidi = some (conn.slots.peerIds bidi).limit)
    (heard : ∀ bidi n, asked bidi = some n → conn.slots.blockedAt bidi = some n ∨ n < (conn.slots.peerIds bidi).limit) :
    Kept {h with conn := conn,asked := asked} := by
  refine ⟨sound,offered,fun open' bidi => ?_,heard,fun bidi => (kept.known bidi).trans (limit bidi),
    fun ms there => (kept.flying ms there).trans (limit ms.bidi)⟩
  have running : h.conn.flow.gracefulShutdown = false := by
    cases before : h.conn.flow.gracefulShutdown with
    | false => rfl
    | true =>
      have after : conn.flow.gracefulShutdown = true := shut before
      rw [show conn.flow.gracefulShutdown = false from open'] at after
      cases after
  rcases pending bidi with ⟨same,same'⟩ | fresh
  · have limit' : (History.ids {h with conn := conn,asked := asked} bidi).limit = (h.ids bidi).limit := same'
    have waits : History.pending {h with conn := conn,asked := asked} bidi = h.pending bidi := same
    rw [limit',waits]
    exact kept.carried running bidi
  · exact .inr (.inl fresh)

/-- What is queued for a frame that is lost is the limit of now, if the frame had it. -/
theorem requeue_slots (conn : Connection) (bidi : Bool) (lostLimit : Nat) :
    (requeueLostMaxStreams conn bidi lostLimit).2.slots =
      if conn.flow.gracefulShutdown = true ∨ lostLimit < (conn.peerIds bidi).limit then conn.slots
      else {conn.slots with
        pending := Function.update conn.slots.pending bidi
          (if (conn.slots.pending bidi).all ((conn.peerIds bidi).limit > ·) then some (conn.peerIds bidi).limit
            else conn.slots.pending bidi)} := by
  unfold requeueLostMaxStreams
  by_cases shut : conn.flow.gracefulShutdown = true
  · rw [if_pos shut,if_pos (.inl shut)]
  rw [if_neg shut]
  dsimp only
  by_cases older : lostLimit < (conn.peerIds bidi).limit
  · rw [if_pos older,if_pos (.inr older)]
  have neither : ¬ (conn.flow.gracefulShutdown = true ∨ lostLimit < (conn.peerIds bidi).limit) := fun either => either.elim shut older
  rw [if_neg older,if_neg neither]
  cases bidi
  · have waits : conn.slots.pending false = conn.pendingFrames.maxStreamsUni := rfl
    rw [waits]
    by_cases higher : conn.pendingFrames.maxStreamsUni.all ((conn.peerIds false).limit > ·) = true
    · rw [if_pos higher,if_pos higher]
      exact Slots.ext' rfl rfl rfl rfl rfl rfl rfl
    · rw [if_neg higher,if_neg higher]
      exact Slots.ext' rfl rfl rfl rfl rfl rfl rfl
  · have waits : conn.slots.pending true = conn.pendingFrames.maxStreamsBidi := rfl
    rw [waits]
    by_cases higher : conn.pendingFrames.maxStreamsBidi.all ((conn.peerIds true).limit > ·) = true
    · rw [if_pos higher,if_pos higher]
      exact Slots.ext' rfl rfl rfl rfl rfl rfl rfl
    · rw [if_neg higher,if_neg higher]
      exact Slots.ext' rfl rfl rfl rfl rfl rfl rfl

theorem requeue_kept (sound : h.conn.slots.Sound) (bidi : Bool) (lostLimit : Nat) :
    let after := (requeueLostMaxStreams h.conn bidi lostLimit).2.slots
    after.Sound ∧ after.peerIds = h.conn.slots.peerIds ∧ after.blockedAt = h.conn.slots.blockedAt ∧ after.shut = h.conn.slots.shut ∧
      (∀ other, after.pending other = h.pending other ∨ after.pending other = some (h.ids other).limit) ∧
      (h.conn.flow.gracefulShutdown = false → (h.ids bidi).limit ≤ lostLimit → after.pending bidi = some (h.ids bidi).limit) := by
  dsimp only
  rw [requeue_slots]
  split
  · rename_i older
    exact ⟨sound,rfl,rfl,rfl,fun _ => .inl rfl,fun open' late => by
      rcases older with shut | older
      · rw [open'] at shut
        cases shut
      · exact absurd older (not_lt.mpr late)⟩
  · have most : ∀ other, Function.update h.conn.slots.pending bidi
        (if (h.conn.slots.pending bidi).all ((h.conn.peerIds bidi).limit > ·) then some (h.conn.peerIds bidi).limit
          else h.conn.slots.pending bidi) other = h.pending other ∨
        Function.update h.conn.slots.pending bidi
        (if (h.conn.slots.pending bidi).all ((h.conn.peerIds bidi).limit > ·) then some (h.conn.peerIds bidi).limit
          else h.conn.slots.pending bidi) other = some (h.ids other).limit := by
      intro other
      by_cases same : other = bidi
      · subst same
        rw [Function.update_self]
        split
        · exact .inr rfl
        · exact .inl rfl
      · exact .inl (Function.update_of_ne same _ _)
    refine ⟨⟨sound.ids,sound.peer,sound.localBidi,sound.localUni,fun other n waiting => ?_⟩,rfl,rfl,rfl,most,fun _ _ => ?_⟩
    · rcases most other with same | fresh
      · exact sound.waits other n (same.symm.trans waiting)
      · exact (Option.some.inj (fresh.symm.trans waiting)).symm
    · dsimp only
      rw [Function.update_self]
      split
      · rfl
      · rename_i low
        simp only [Option.all_eq_true,decide_eq_true_eq,not_forall] at low
        obtain ⟨n,there,_⟩ := low
        rw [there,sound.waits bidi n there]
        rfl

theorem Kept.lost (kept : Kept h) (ms : Frame.MaxStreams) :
    Kept {h with inFlight := h.inFlight.erase ms,conn := (requeueLostMaxStreams h.conn ms.bidi ms.maximumStreams).2} := by
  obtain ⟨sound,ids,blocked,shut,pending,again⟩ := requeue_kept kept.sound ms.bidi ms.maximumStreams
  generalize (requeueLostMaxStreams h.conn ms.bidi ms.maximumStreams).2 = conn at sound ids blocked shut pending again ⊢
  have same : ∀ bidi, conn.slots.peerIds bidi = h.ids bidi := fun bidi => congrFun ids bidi
  have kept' : ∀ bidi, History.ids {h with inFlight := h.inFlight.erase ms,conn := conn} bidi = h.ids bidi := same
  refine ⟨sound,fun bidi open' => ?_,fun open' bidi => ?_,fun bidi n said => ?_,fun bidi => ?_,fun other member => ?_⟩
  · rw [same,blocked]
    exact kept.offered bidi (shut.symm.trans open')
  · have running : h.conn.flow.gracefulShutdown = false := shut.symm.trans open'
    rw [kept']
    change (h.ids bidi).limit = h.known bidi ∨ conn.slots.pending bidi = some (h.ids bidi).limit ∨
      Frame.MaxStreams.mk bidi (h.ids bidi).limit ∈ h.inFlight.erase ms
    rcases kept.carried running bidi with known | waits | flies
    · exact .inl known
    · exact .inr (.inl ((pending bidi).elim (fun same => same.trans waits) id))
    · by_cases this : ms = ⟨bidi,(h.ids bidi).limit⟩
      · rw [this] at again
        exact .inr (.inl (again running le_rfl))
      · exact .inr (.inr ((List.mem_erase_of_ne (Ne.symm this)).mpr flies))
  · rw [kept']
    change conn.slots.blockedAt bidi = _ ∨ _
    rw [blocked]
    exact kept.heard bidi n said
  · rw [kept']
    exact kept.known bidi
  · rw [kept']
    exact kept.flying other (List.mem_of_mem_erase member)

theorem Kept.acked (kept : Kept h) {ms : Frame.MaxStreams} (there : ms ∈ h.inFlight) :
    Kept {h with inFlight := h.inFlight.erase ms,known := Function.update h.known ms.bidi (max (h.known ms.bidi) ms.maximumStreams)} := by
  have within := kept.flying ms there
  refine ⟨kept.sound,kept.offered,fun open' bidi => ?_,kept.heard,fun bidi => ?_,fun other member => ?_⟩
  · change (h.ids bidi).limit = Function.update h.known ms.bidi _ bidi ∨ h.pending bidi = some (h.ids bidi).limit ∨
      ⟨bidi,(h.ids bidi).limit⟩ ∈ h.inFlight.erase ms
    by_cases this : ms = ⟨bidi,(h.ids bidi).limit⟩
    · left
      rw [this,Function.update_self,max_eq_right (kept.known bidi)]
    · rcases kept.carried open' bidi with known | waits | flies
      · left
        by_cases same : bidi = ms.bidi
        · subst same
          rw [Function.update_self,← known,max_eq_left within]
        · rw [Function.update_of_ne same]
          exact known
      · exact .inr (.inl waits)
      · exact .inr (.inr ((List.mem_erase_of_ne (Ne.symm this)).mpr flies))
  · change Function.update h.known ms.bidi _ bidi ≤ (h.ids bidi).limit
    by_cases same : bidi = ms.bidi
    · subst same
      rw [Function.update_self]
      exact max_le (kept.known _) within
    · rw [Function.update_of_ne same]
      exact kept.known bidi
  · exact kept.flying other (List.mem_of_mem_erase member)

theorem Kept.sends (kept : Kept h) {e : Inbound.Event} {bidi : Bool} (call : e.call = .sentMaxStreams bidi) :
    Kept (step h (.call e)) := by
  have deaf : h.hear e = h.asked := by
    unfold History.hear
    rw [call]
  cases takes : h.conn.takes e with
  | false =>
    have still : h.conn.act e = (.ok (),h.conn) := if_neg (by rw [takes]; exact Bool.false_ne_true)
    have silent : h.sent e = [] := by
      unfold History.sent
      rw [call]
      dsimp only
      rw [if_neg (by rw [takes]; exact Bool.false_ne_true)]
    unfold step
    dsimp only
    rw [still,silent,deaf,List.append_nil]
    exact kept
  | true =>
    have act : (h.conn.act e).2 = h.conn.sentMaxStreams bidi := by
      unfold Connection.act Connection.apply
      rw [takes,call]
      rfl
    have sent : h.sent e = (h.pending bidi).toList.map fun limit => ⟨bidi,limit⟩ := by
      unfold History.sent
      rw [call]
      exact if_pos takes
    have slots := sentMaxStreams_slots h.conn bidi
    unfold step
    dsimp only
    rw [act,sent,deaf]
    generalize h.conn.sentMaxStreams bidi = conn at slots ⊢
    have role : conn.slots.role = h.conn.slots.role := by rw [slots]
    have shut : conn.slots.shut = h.conn.slots.shut := by rw [slots]
    have blocked : conn.slots.blockedAt = h.conn.slots.blockedAt := by rw [slots]
    have ids : ∀ other, conn.slots.peerIds other = h.ids other := fun other => by rw [slots]; rfl
    have pending : conn.slots.pending = Function.update h.conn.slots.pending bidi none := by rw [slots]
    have kept' : ∀ other, conn.peerIds other = h.ids other := ids
    refine ⟨?_,fun other open' => ?_,fun open' other => ?_,fun other n said => ?_,fun other => ?_,fun ms there => ?_⟩
    · rw [slots]
      refine ⟨kept.sound.ids,kept.sound.peer,kept.sound.localBidi,kept.sound.localUni,fun other n waiting => ?_⟩
      change Function.update h.conn.slots.pending bidi none other = some n at waiting
      by_cases same : other = bidi
      · subst same
        rw [Function.update_self] at waiting
        cases waiting
      · rw [Function.update_of_ne same] at waiting
        exact kept.sound.waits other n waiting
    · rw [ids,blocked]
      exact kept.offered other (shut.symm.trans open')
    · change (conn.peerIds other).limit = h.known other ∨ conn.slots.pending other = some (conn.peerIds other).limit ∨
        Frame.MaxStreams.mk other (conn.peerIds other).limit ∈ h.inFlight ++ (h.pending bidi).toList.map fun limit => ⟨bidi,limit⟩
      rw [kept',pending]
      rcases kept.carried (shut.symm.trans open') other with known | waits | flies
      · exact .inl known
      · right
        by_cases same : other = bidi
        · subst same
          right
          rw [waits]
          exact List.mem_append_right _ (List.mem_singleton.mpr rfl)
        · left
          rw [Function.update_of_ne same]
          exact waits
      · exact .inr (.inr (List.mem_append_left _ flies))
    · change conn.slots.blockedAt other = some n ∨ n < (conn.peerIds other).limit
      rw [blocked,kept']
      exact kept.heard other n said
    · change h.known other ≤ (conn.peerIds other).limit
      rw [kept']
      exact kept.known other
    · change ms.maximumStreams ≤ (conn.peerIds ms.bidi).limit
      rw [kept']
      rcases List.mem_append.mp there with old | fresh
      · exact kept.flying ms old
      · obtain ⟨limit,waits,rfl⟩ := List.mem_map.mp fresh
        exact (kept.sound.waits bidi limit (Option.mem_toList.mp waits)).le

theorem Kept.asks (kept : Kept h) {e : Inbound.Event} {sb : Frame.StreamsBlocked} (call : e.call = .streamsBlocked sb) :
    Kept (step h (.call e)) := by
  have silent : h.sent e = [] := by
    unfold History.sent
    rw [call]
  have told : h.hear e = if h.conn.takes e ∧ sb.maximumStreams ≤ StreamIdSpace.maxStreamCount then
      Function.update h.asked sb.bidi (some sb.maximumStreams) else h.asked := by
    unfold History.hear
    rw [call]
  cases takes : h.conn.takes e with
  | false =>
    have still : h.conn.act e = (.ok (),h.conn) := if_neg (by rw [takes]; exact Bool.false_ne_true)
    rw [if_neg (by rw [takes]; exact fun both => Bool.false_ne_true both.1)] at told
    unfold step
    dsimp only
    rw [still,silent,told,List.append_nil]
    exact kept
  | true =>
    have act : (h.conn.act e).2 = h.conn.handleStreamsBlocked sb := by
      unfold Connection.act Connection.apply
      rw [takes,call]
      rfl
    have slots := handleStreamsBlocked_slots h.conn sb
    unfold step
    dsimp only
    rw [act,silent,told,List.append_nil]
    generalize h.conn.handleStreamsBlocked sb = conn at slots ⊢
    by_cases beyond : sb.maximumStreams > StreamIdSpace.maxStreamCount
    · rw [if_pos beyond] at slots
      rw [if_neg fun both => absurd both.2 (not_le.mpr beyond)]
      refine kept.goes (slots ▸ kept.sound) (slots ▸ kept.offered) (fun _ => slots ▸ le_rfl) (fun shut => slots ▸ shut)
        (fun _ => .inl ⟨slots ▸ rfl,slots ▸ rfl⟩) fun bidi n said => ?_
      rw [slots]
      exact kept.heard bidi n said
    · rw [if_neg beyond] at slots
      rw [if_pos ⟨takes,not_lt.mp beyond⟩]
      obtain ⟨sound,offered,limit,shut,pending,blocked⟩ :=
        @hear_keeps h.conn.slots sb.bidi sb.maximumStreams kept.sound kept.offered
      rw [← slots] at sound offered limit shut pending blocked
      refine kept.goes sound offered limit shut pending fun bidi n said => ?_
      have noted : Function.update h.conn.slots.blockedAt sb.bidi (some sb.maximumStreams) bidi = some n ∨
          n < (h.ids bidi).limit := by
        by_cases same : bidi = sb.bidi
        · subst same
          rw [Function.update_self] at said ⊢
          exact .inl said
        · rw [Function.update_of_ne same] at said ⊢
          exact kept.heard bidi n said
      rcases noted with noted | passed
      · rcases blocked bidi with same | ⟨_,all⟩
        · exact .inl (same.trans noted)
        · rw [noted] at all
          exact .inr (by simpa using all)
      · exact .inr (passed.trans_le (limit bidi))

theorem Kept.call (kept : Kept h) (e : Inbound.Event) : Kept (step h (.call e)) := by
  by_cases sends : ∃ bidi, e.call = .sentMaxStreams bidi
  · obtain ⟨bidi,call⟩ := sends
    exact kept.sends call
  by_cases asks : ∃ sb, e.call = .streamsBlocked sb
  · obtain ⟨sb,call⟩ := asks
    exact kept.asks call
  push Not at sends asks
  obtain ⟨sound,offered,goes⟩ := (act_moves h.conn e sends asks).keeps kept.sound kept.offered
  have silent : h.sent e = [] := by
    unfold History.sent
    split
    · rename_i bidi call
      exact absurd call (sends bidi)
    · rfl
  have deaf : h.hear e = h.asked := by
    unfold History.hear
    split
    · rename_i sb call
      exact absurd call (asks sb)
    · rfl
  change Kept {h with conn := _,inFlight := _,asked := _}
  rw [silent,deaf,List.append_nil]
  refine kept.goes sound offered goes.limit goes.shut goes.pending fun bidi n said => ?_
  have limit : (h.conn.slots.peerIds bidi).limit ≤ _ := goes.limit bidi
  rcases kept.heard bidi n said with noted | passed
  · rcases goes.blocked bidi with same | ⟨_,all⟩
    · exact .inl (same.trans noted)
    · rw [noted] at all
      exact .inr (by simpa using all)
  · exact .inr (passed.trans_le limit)


theorem Kept.step (kept : Kept h) (e : Event) : Kept (MaxStreams.step h e) := by
  cases e with
  | call e => exact kept.call e
  | acked ms =>
    unfold MaxStreams.step
    dsimp only
    split
    · rename_i there
      exact kept.acked there
    · exact kept
  | lost ms =>
    unfold MaxStreams.step
    dsimp only
    split
    · exact kept.lost ms
    · exact kept

theorem kept_fresh (fresh : Fresh h) : Kept h := by
  obtain ⟨first,fresh,rfl⟩ := fresh
  obtain ⟨sound,offered⟩ := fresh_slots fresh
  exact ⟨sound,offered,fun _ _ => .inl rfl,fun _ _ said => (nomatch said),fun _ => le_rfl,fun _ there => (nomatch there)⟩

theorem Kept.rising (kept : Kept h) (e : Event) : Rising h e := by
  intro bidi
  cases e with
  | call e => exact (act_keeps kept.sound kept.offered e).2.2 bidi
  | acked ms =>
    unfold MaxStreams.step
    dsimp only
    split <;> exact le_rfl
  | lost ms =>
    unfold MaxStreams.step
    dsimp only
    split
    · obtain ⟨_,ids,_⟩ := requeue_kept kept.sound ms.bidi ms.maximumStreams
      exact (congrArg StreamIdSpace.limit (congrFun ids bidi)).ge
    · exact le_rfl

/-- No credit that the peer waits for is withheld until the connection winds down, and the limits only rise. -/
theorem stream_credit_served (start : History) (events : List Event) (fresh : Fresh start) :
    System.Throughout Prompt step start events ∧ System.Admits step Rising start events := by
  have all : ∀ h, Kept h → ∀ rest, System.Throughout Prompt step h rest ∧ System.Admits step Rising h rest := by
    intro h kept rest
    induction rest generalizing h with
    | nil => exact ⟨kept.prompt,trivial⟩
    | cons e rest ih =>
      obtain ⟨later,rising⟩ := ih (step h e) (kept.step e)
      exact ⟨⟨kept.prompt,later⟩,kept.rising e,rising⟩
  exact all start (kept_fresh fresh) events


/-- What a server that lets its peer open one stream announces. -/
def narrow : Tls.TransportParams.Params := {initialMaxData := 65536,initialMaxStreamDataUni := 4096,initialMaxStreamsUni := 1}

def narrowing : History :=
  {conn := Inbound.start .server narrow (32*1024*1024),known := fun bidi => ((Inbound.start .server narrow (32*1024*1024)).peerIds bidi).limit}

theorem narrowing_fresh : Fresh narrowing :=
  ⟨{conn := Inbound.start .server narrow (32*1024*1024)},
    ⟨.server,narrow,32*1024*1024,SendStream.defaultMaxBufferedSend,16*1024*1024,true,true,8*1024*1024,16*1024*1024,
      ⟨by decide,by decide,by decide,by decide,by decide,by decide,by decide⟩,rfl⟩,rfl⟩

theorem noOffset : 0 ≤ Wire.Varint.maxValue := Nat.zero_le _

theorem noData : ([] : List Byte).length ≤ maxSupportedUdpPayloadSize := Nat.zero_le _

/-- The only stream of the peer comes and ends. -/
def onlyStream : Event := .call {call := .stream {streamId := 2,data := [],fin := true} noOffset noData}

theorem stream_credit_served_lost :
    System.Throughout Prompt step narrowing
        [onlyStream,.call {call := .gcClosedStreams [2]},.call {call := .sentMaxStreams false},.lost ⟨false,2⟩,
         .call {call := .sentMaxStreams false},.acked ⟨false,2⟩] ∧
      System.Admits step Rising narrowing
        [onlyStream,.call {call := .gcClosedStreams [2]},.call {call := .sentMaxStreams false},.lost ⟨false,2⟩,
         .call {call := .sentMaxStreams false},.acked ⟨false,2⟩] :=
  stream_credit_served narrowing _ narrowing_fresh

/-- A connection that winds down keeps the slot of a stream that ended. -/
theorem shutdown_withholds :
    ¬ System.Throughout (fun h => ∀ bidi, Served h bidi) step narrowing
      [onlyStream,.call {call := .send .beginGracefulShutdown rfl},.call {call := .gcClosedStreams [2]}] := by
  intro all
  have served : Served _ false := all.last false
  unfold Served at served
  revert served
  decide +kernel

end QuicZig.Conn.MaxStreams
