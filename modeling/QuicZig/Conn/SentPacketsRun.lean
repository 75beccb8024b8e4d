import QuicZig.Conn.SentPacketsSpec
import QuicZig.Library.System

/-! The tracker against a plain list of the live packets, over whole runs. -/
namespace QuicZig.Conn.SentPackets
open SentPacketTracker

inductive Call (Frame γ ε : Type) where
  | record (p : SentPacket Frame) (granted : Bool)
  | prepareRecord (granted : Bool)
  | removeAt (idx : Nat)
  | removeRangeWithError (start stop : Nat) (onRemove : γ → SentPacket Frame → Except ε Unit × γ) (context : γ)
  | growPacket (pn extra : Nat)
  | shrinkIdle (granted : Bool)
  | shrinkToMinimum (granted : Bool)
  | clear

inductive Answer (Frame γ ε : Type) where
  | done
  | recorded (result : Except Error Unit)
  | removed (p : SentPacket Frame)
  | handed (result : Except ε Unit) (context : γ)
  | grown (found : Bool)

section
variable {Frame γ ε : Type}

/-- `none` is a trap. -/
def SentPacketTracker.apply (t : SentPacketTracker Frame) : Call Frame γ ε → Option (Answer Frame γ ε × SentPacketTracker Frame)
  | .record p granted => (t.record granted p).map fun (result,t) => (.recorded result,t)
  | .prepareRecord granted => (t.prepareRecord granted).map fun (result,t) => (.recorded result,t)
  | .removeAt idx => (t.removeAt idx).map fun (p,t) => (.removed p,t)
  | .removeRangeWithError start stop onRemove context =>
    (t.removeRangeWithError onRemove context start stop).map fun (result,context,t) => (.handed result context,t)
  | .growPacket pn extra => (t.growPacket pn extra).map fun (found,t) => (.grown found,t)
  | .shrinkIdle granted => some (.done,t.shrinkIdle granted)
  | .shrinkToMinimum granted => (t.shrinkToMinimum granted).map fun t => (.done,t)
  | .clear => some (.done,t.clear)

/-- The same calls on a plain list: `rank` says how many packets of the list are before a slot, and `stored` whether
there is storage for one more. -/
def plain (capacity : Nat) (stored : Bool → Bool) (rank : Nat → Nat) (live : List (SentPacket Frame)) :
    Call Frame γ ε → Answer Frame γ ε × List (SentPacket Frame)
  | .record p granted =>
    let result := admission capacity (stored granted) live.length
    (.recorded result,if result.isOk then live ++ [p] else live)
  | .prepareRecord granted => (.recorded (admission capacity (stored granted) live.length),live)
  | .removeAt idx =>
    match live[rank idx]? with
    | some p => (.removed p,live.eraseIdx (rank idx))
    | none => (.done,live)
  | .removeRangeWithError start stop onRemove context =>
    let (result,context,kept) := hand onRemove context ((live.take (rank stop)).drop (rank start))
    (.handed result context,live.take (rank start) ++ kept ++ live.drop (rank stop))
  | .growPacket pn extra =>
    (.grown (live.any (·.pn = pn)),live.map fun p => if p.pn = pn then p.lengthen extra else p)
  | .shrinkIdle _ | .shrinkToMinimum _ => (.done,live)
  | .clear => (.done,[])

end

/-- `live` is the plain list, `last` the number of the last packet that was recorded. -/
structure History (Frame : Type) where
  tracker : SentPacketTracker Frame
  live : List (SentPacket Frame) := []
  last : Option Nat := none

section
variable {Frame γ ε : Type}

def History.plain (h : History Frame) (call : Call Frame γ ε) : Answer Frame γ ε × List (SentPacket Frame) :=
  SentPackets.plain h.tracker.capacity (fun granted => h.tracker.stored granted) h.tracker.rank h.live call

/-- What the callers see to: packet numbers go up, a slot that is removed is live, and a range is one of slots in use. -/
def Legal (h : History Frame) : Call Frame γ ε → Prop
  | .record p _ => p.dead = false ∧ ∀ last ∈ h.last, last < p.pn
  | .removeAt idx => (h.tracker.slots[idx]?).any SentPacket.alive = true
  | .removeRangeWithError start stop _ _ => start ≤ stop ∧ stop ≤ h.tracker.count
  | .shrinkToMinimum _ => h.live = []
  | _ => True

def recorded (last : Option Nat) : Call Frame γ ε → Answer Frame γ ε → Option Nat
  | .record p _,.recorded (.ok ()) => some p.pn
  | _,_ => last

def step (h : History Frame) (call : Call Frame γ ε) : History Frame :=
  match h.tracker.apply call with
  | none => h
  | some (answer,tracker) => ⟨tracker,(h.plain call).2,recorded h.last call answer⟩

/-- The call does not trap, and answers as the plain list does. -/
def Served (h : History Frame) (call : Call Frame γ ε) : Prop :=
  ∃ tracker, h.tracker.apply call = some ((h.plain call).1,tracker)

/-- The tracker is the plain list. -/
structure Agrees (h : History Frame) : Prop where
  ascending : (h.tracker.slots.map (·.pn)).Pairwise (· < ·)
  entries : h.tracker.slots.filter SentPacket.alive = h.live
  indexOf : ∀ pn p, (∃ i, h.tracker.indexOf pn = some i ∧ h.tracker.slots[i]? = some p ∧ p.alive = true) ↔ p ∈ h.live ∧ p.pn = pn
  lowerBound : ∀ pn, (h.tracker.lowerBound pn).bind h.tracker.skipTombstones = h.live.find? fun p => decide (pn ≤ p.pn)
  full : h.tracker.isFull = decide (h.live.length = h.tracker.capacity)
  tombstones : h.tracker.deadCount ≤ h.tracker.count
  count : h.tracker.liveCount = h.live.length
  bytes : h.tracker.bytesInFlight = inFlightBytes h.live
  ackEliciting : h.tracker.ackElicitingInFlight = ackElicitingBytes h.live

/-- A tracker of its own storage, or one over storage that the caller gives it. -/
def Fresh (h : History Frame) : Prop :=
  (∃ cap packets, 4 ≤ cap ∧ packets.length = min cap initialSlots ∧ h = {tracker := {packets := packets,maxCapacity := cap}}) ∨
    ∃ packets, h = {tracker := {packets := packets}}

/-- What holds of every state. -/
structure Tracks (h : History Frame) : Prop where
  sound : h.tracker.Sound
  live : h.tracker.live = h.live
  below : ∀ p ∈ h.tracker.slots, ∃ last ∈ h.last, p.pn ≤ last

theorem Tracks.agrees {h : History Frame} (tracks : Tracks h) : Agrees h := by
  obtain ⟨sound,live,_⟩ := tracks
  refine ⟨sound.ascending,live,?_,?_,?_,?_,?_,?_,?_⟩
  · rw [← live]
    exact sound.indexOf_live
  · rw [← live]
    exact sound.lowerBound
  · rw [← live]
    exact sound.isFull
  · have counted := sound.counted
    omega
  · rw [← live]
    exact sound.liveCount
  · rw [← live]
    exact sound.bytes
  · rw [← live]
    exact sound.ackEliciting

theorem tracks_fresh {h : History Frame} (fresh : Fresh h) : Tracks h := by
  rcases fresh with ⟨cap,packets,four,length,rfl⟩ | ⟨packets,rfl⟩
  · have sixteen : initialSlots = 16 := rfl
    refine ⟨⟨Nat.zero_le _,.inr ?_,.nil,rfl,rfl,rfl⟩,rfl,fun p there => (nomatch there)⟩
    change 0 < packets.length ∧ packets.length ≤ cap
    omega
  · exact ⟨⟨Nat.zero_le _,.inl rfl,.nil,rfl,rfl,rfl⟩,rfl,fun p there => (nomatch there)⟩

theorem step_eq {h : History Frame} {call : Call Frame γ ε} {answer : Answer Frame γ ε} {u : SentPacketTracker Frame}
    (applied : h.tracker.apply call = some (answer,u)) : step h call = ⟨u,(h.plain call).2,recorded h.last call answer⟩ := by
  unfold step
  rw [applied]

theorem Tracks.keep {h : History Frame} (tracks : Tracks h) {call : Call Frame γ ε} {u : SentPacketTracker Frame}
    (applied : h.tracker.apply call = some ((h.plain call).1,u)) (sound : u.Sound) (live : u.live = (h.plain call).2)
    (pns : ∀ p ∈ u.slots, ∃ q ∈ h.tracker.slots, q.pn = p.pn) (quiet : recorded h.last call (h.plain call).1 = h.last) :
    Served h call ∧ Tracks (step h call) := by
  refine ⟨⟨u,applied⟩,?_⟩
  rw [step_eq applied,quiet]
  refine ⟨sound,live,fun p there => ?_⟩
  obtain ⟨q,member,same⟩ := pns p there
  rw [← same]
  exact tracks.below q member

theorem step_tracks {h : History Frame} (tracks : Tracks h) (call : Call Frame γ ε) (legal : Legal h call) :
    Served h call ∧ Tracks (step h call) := by
  obtain ⟨sound,live,below⟩ := tracks
  have tracks : Tracks h := ⟨sound,live,below⟩
  cases call with
  | record p granted =>
    obtain ⟨undead,last⟩ := legal
    have living : p.alive = true := by simp [SentPacket.alive,undead]
    obtain ⟨u,taken,sound',_,outcome⟩ := sound.record living (fun q there => by
      obtain ⟨l,known,most⟩ := below q there
      exact most.trans_lt (last l known)) granted
    rw [live] at taken outcome
    have applied : h.tracker.apply (.record p granted : Call Frame γ ε) =
        some ((h.plain (.record p granted : Call Frame γ ε)).1,u) := by
      change (h.tracker.record granted p).map _ = _
      rw [taken]
      rfl
    have answers : h.plain (.record p granted : Call Frame γ ε) =
        (.recorded (admission h.tracker.capacity (h.tracker.stored granted) h.live.length),
          if (admission h.tracker.capacity (h.tracker.stored granted) h.live.length).isOk then h.live ++ [p] else h.live) := rfl
    generalize admission h.tracker.capacity (h.tracker.stored granted) h.live.length = answer at outcome answers
    cases answer with
    | error e =>
      refine tracks.keep applied sound' ?_ (fun q there => ⟨q,outcome.2.subset there,rfl⟩) ?_
      · rw [answers]
        exact outcome.1
      · rw [answers]
        rfl
    | ok _ =>
      refine ⟨⟨u,applied⟩,?_⟩
      rw [step_eq applied,answers]
      exact ⟨sound',outcome.1,fun q there => ⟨p.pn,rfl,outcome.2 q there⟩⟩
  | prepareRecord granted =>
    obtain ⟨u,prepared,kept,_⟩ := sound.prepareRecord granted
    refine tracks.keep ?_ kept.sound (kept.live.trans live) (fun p there => ⟨p,kept.slots.subset there,rfl⟩) rfl
    change (h.tracker.prepareRecord granted).map _ = _
    rw [prepared,live]
    rfl
  | removeAt idx =>
    have some : ∃ p, h.tracker.slots[idx]? = some p ∧ p.alive = true := by
      have allowed : (h.tracker.slots[idx]?).any SentPacket.alive = true := legal
      cases slot : h.tracker.slots[idx]? with
      | none => rw [slot] at allowed; cases allowed
      | some p => exact ⟨p,rfl,by rwa [slot] at allowed⟩
    obtain ⟨p,slot,living⟩ := some
    obtain ⟨u,removed,sound',shape,there,live'⟩ := sound.removeAt slot living
    rw [live] at there live'
    have answers : h.plain (.removeAt idx : Call Frame γ ε) = (.removed p,h.live.eraseIdx (h.tracker.rank idx)) := by
      change (match h.live[h.tracker.rank idx]? with | some p => _ | none => _) = _
      rw [there]
    have applied : h.tracker.apply (.removeAt idx : Call Frame γ ε) = some ((h.plain (.removeAt idx : Call Frame γ ε)).1,u) := by
      change (h.tracker.removeAt idx).map _ = _
      rw [removed,answers]
      rfl
    refine tracks.keep applied sound' ?_ (fun q member => shape.kept member) rfl
    rw [answers]
    exact live'
  | removeRangeWithError start stop onRemove context =>
    obtain ⟨u,removed,sound',shape,live'⟩ := sound.removeRange onRemove context legal.1 legal.2
    rw [live] at removed live'
    refine tracks.keep ?_ sound' ?_ (fun p there => shape.kept there) rfl
    · change (h.tracker.removeRangeWithError onRemove context start stop).map _ = _
      rw [removed]
      rfl
    · exact live'
  | growPacket pn extra =>
    obtain ⟨u,grown,sound',shape,live'⟩ := sound.growPacket pn extra
    rw [live] at grown live'
    refine tracks.keep ?_ sound' live' (fun p there => shape.kept there) rfl
    change (h.tracker.growPacket pn extra).map _ = _
    rw [grown]
    rfl
  | shrinkIdle granted =>
    rcases sound.shrinkIdle granted with same | ⟨none,sound',live',slots,_⟩
    · have applied : h.tracker.apply (.shrinkIdle granted : Call Frame γ ε) = some (.done,h.tracker) := by
        change some (Answer.done,h.tracker.shrinkIdle granted) = _
        rw [same]
      exact tracks.keep applied sound live (fun p there => ⟨p,there,rfl⟩) rfl
    · refine tracks.keep rfl sound' (live'.trans (none.symm.trans live)) (fun p there => ?_) rfl
      rw [slots] at there
      cases there
  | shrinkToMinimum granted =>
    obtain ⟨u,shrunk,sound',live',slots,_⟩ := sound.shrinkToMinimum (live.trans legal) granted
    refine tracks.keep ?_ sound' (live'.trans legal.symm) (fun p there => ?_) rfl
    · change (h.tracker.shrinkToMinimum granted).map _ = _
      rw [shrunk]
      rfl
    · rw [slots] at there
      cases there
  | clear =>
    obtain ⟨sound',live',slots,_⟩ := sound.reset
    refine tracks.keep rfl sound' live' (fun p there => ?_) rfl
    change p ∈ h.tracker.resetRetainingCapacity.slots at there
    rw [slots] at there
    cases there

/-- The tracker is the plain list in every state of every run, answers as it does, and never traps. -/
theorem tracker_is_plain_list (start : History Frame) (calls : List (Call Frame γ ε)) (fresh : Fresh start)
    (legal : System.Admits step Legal start calls) :
    System.Throughout Agrees step start calls ∧ System.Admits step Served start calls := by
  have tracks := tracks_fresh fresh
  have preserved : ∀ h (call : Call Frame γ ε), Tracks h → Legal h call → Tracks (step h call) := fun h call tracks allowed =>
    (step_tracks tracks call allowed).2
  refine ⟨?_,System.Admits.under preserved (fun h call tracks allowed => (step_tracks tracks call allowed).1) tracks legal⟩
  refine System.Throughout.of_reaches (fun h reached => ?_) (.start tracks) legal
  exact (reached.invariant Tracks (fun _ => id) preserved).agrees

instance (h : History Frame) (call : Call Frame γ ε) : Decidable (Legal h call) := by
  unfold Legal
  split <;> infer_instance

end

def sent (pn bytes : Nat) : SentPacket Unit := {pn := pn,sentTimeUs := 0,bytes := bytes,ackEliciting := true,inFlight := true}

def failingAt (pn count : Nat) (p : SentPacket Unit) : Except Unit Unit × Nat := (if p.pn = pn then .error () else .ok (),count+1)

theorem tracker_is_plain_list_failing :
    System.Throughout Agrees step {tracker := init 4}
        [.record (sent 0 1200) true,.record (sent 2 800) true,.record (sent 5 60) true,
         .removeRangeWithError 0 3 (failingAt 2) 0,.growPacket 5 1140,.growPacket 2 10,.record (sent 7 500) true,.removeAt 0,
         .record (sent 8 500) true,.record (sent 9 500) true,.record (sent 11 500) true,.record (sent 12 1) true,.clear,
         .shrinkIdle true,.shrinkToMinimum true] ∧
      System.Admits step Served {tracker := init 4}
        [.record (sent 0 1200) true,.record (sent 2 800) true,.record (sent 5 60) true,
         .removeRangeWithError 0 3 (failingAt 2) 0,.growPacket 5 1140,.growPacket 2 10,.record (sent 7 500) true,.removeAt 0,
         .record (sent 8 500) true,.record (sent 9 500) true,.record (sent 11 500) true,.record (sent 12 1) true,.clear,
         .shrinkIdle true,.shrinkToMinimum true] :=
  tracker_is_plain_list {tracker := init 4} _ (.inl ⟨4,_,le_rfl,rfl,rfl⟩) (by decide +kernel)

end QuicZig.Conn.SentPackets
