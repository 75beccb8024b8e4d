import QuicZig.Conn.CongestionSpec
import QuicZig.Library.System
import Mathlib.Data.List.Count

/-! The window reductions of a path, and which of them are taken back. -/
namespace QuicZig.Conn.Congestion
open Machine SentPackets

/-- A packet that was declared lost while `episode` was open. -/
structure LostPacket where
  pn : Nat
  episode : Nat
  acked : Bool := false
  deriving DecidableEq, Repr

inductive Cause where
  | loss | ce | persistent
  deriving DecidableEq, Repr

/-- `early`: it was taken back while a packet declared lost in its episode was not acknowledged. -/
structure Reduction where
  episode : Nat
  cause : Cause
  takenBack : Nat := 0
  early : Bool := false
  deriving DecidableEq, Repr

def unacked (lost : List LostPacket) (episode : Nat) : Nat := lost.countP fun p => p.episode = episode && !p.acked

def takeBack (lost : List LostPacket) (undone : Reduction → Bool) (reductions : List Reduction) : List Reduction :=
  reductions.map fun r =>
    if undone r then {r with takenBack := r.takenBack+1,early := r.early || unacked lost r.episode ≠ 0} else r

def acknowledge (pn : Nat) (lost : List LostPacket) : List LostPacket :=
  lost.map fun p => if p.pn = pn then {p with acked := true} else p

structure History where
  recovery : Recovery
  lost : List LostPacket := []
  reductions : List Reduction := []
  deriving DecidableEq, Repr

inductive Event (Frame : Type) where
  | acked (bytesAcked largestAckedSentTimeUs nowUs srttUs bytesInFlight : Nat)
  | ackProcessed (largestAckedPn : Nat) (latestRttUs : Option Nat) (nextPnToSend : Nat)
  | ce (cePacketSentTimeUs nowUs : Nat)
  | lost (packets : List (SentPacket Frame)) (grants : Allocator) (basePtoUs nowUs : Nat)
  | late (pn : Nat)

namespace History

/-- What a loss or a report at that send time makes of the reductions. -/
def reacted (h : History) (sentTimeUs : Nat) (cause : Cause) : List Reduction :=
  if h.recovery.cc.isInRecovery sentTimeUs then h.reductions
  else {episode := h.recovery.cc.episodes.open.episode,cause := cause}::h.reductions

/-- Which reductions the arrival of a packet of the episode takes back: those of the episode, and, when the window goes to
what the standing reduction was taken from, a collapse that came after that reduction. -/
def undoes (e : LossEpisodes) (episode : Nat) (r : Reduction) : Bool :=
  match (e.arrived episode).1 with
  | .none => false
  | .current => r.episode = episode
  | .previous => r.episode = episode || (e.currentStands && r.episode = e.episode && r.cause = .persistent)

def reportLost {Frame : Type} (h : History) (packets : List (SentPacket Frame)) (grants : Allocator) (basePtoUs nowUs : Nat) : History :=
  let stats := packets.foldl LossStats.add {}
  let (collapsed,cc) := Recovery.onApplicationPathPacketsLost h.recovery.cc stats basePtoUs nowUs
  let reductions := if stats.inFlightBytesLost = 0 then h.reductions else h.reacted stats.largestLostSentTimeUs .loss
  {recovery := h.recovery.sweepLosses grants packets basePtoUs nowUs
   lost := packets.map (fun p => {pn := p.pn,episode := cc.lossEpisode}) ++ h.lost
   reductions := if collapsed then {episode := cc.lossEpisode,cause := .persistent}::reductions else reductions}

def late (h : History) (pn : Nat) : History :=
  let lost := acknowledge pn h.lost
  {recovery := h.recovery.ackRange pn pn
   lost := lost
   reductions :=
     match h.recovery.reorder.record? pn with
     | none => h.reductions
     | some rec => takeBack lost (undoes h.recovery.cc.episodes rec.episode) h.reductions}

end History

/-- The reductions that are not to be taken back stand, and the window has its floor. -/
structure Good (h : History) : Prop where
  once : ∀ r ∈ h.reductions, r.takenBack ≤ 1
  ce : ∀ r ∈ h.reductions, r.cause = .ce → r.takenBack = 0
  timely : ∀ r ∈ h.reductions, r.early = false
  floor : h.recovery.cc.cfg.minWindow ≤ h.recovery.cc.cwnd

structure Fresh (h : History) : Prop where
  cc : ∃ cfg, h.recovery.cc = .init cfg ∧ cfg.minWindow ≤ maxU64
  reorder : h.recovery.reorder = {}
  lost : h.lost = []
  reductions : h.reductions = []

/-- The next packet of the episode is the last one, and the reaction that goes back with it is to stand: a report opened the
episode, or a collapse followed the standing reduction. -/
def TakesStanding (e : LossEpisodes) (reductions : List Reduction) (episode : Nat) : Prop :=
  (episode = e.episode ∧ e.pending = 1 ∧ e.undoable = true ∧ ∃ r ∈ reductions, r.episode = e.episode ∧ r.cause = .ce) ∨
    (episode ≠ e.episode ∧ episode = e.prevEpisode ∧ e.prevPending = 1 ∧ e.prevUndoable = true ∧
      ((∃ r ∈ reductions, r.episode = e.prevEpisode ∧ r.cause = .ce) ∨
        (e.undoable = true ∧ ∃ r ∈ reductions, r.episode = e.episode ∧ r.cause = .persistent)))

/-- The acknowledgement takes back what is to stand. -/
def Undue (h : History) (pn : Nat) : Prop :=
  ∃ rec, h.recovery.reorder.record? pn = some rec ∧ TakesStanding h.recovery.cc.episodes h.reductions rec.episode

section
variable {Frame : Type}

/-- A packet number is declared lost once, and the 32-bit counters do not run over. -/
def Ordinary (h : History) : Event Frame → Prop
  | .lost packets _ _ _ =>
    (packets.map (·.pn)).Nodup ∧ (∀ p ∈ packets, p.pn ≠ tombstonePn ∧ p.pn ∉ h.lost.map (·.pn)) ∧
      h.lost.length+packets.length ≤ maxU32 ∧ h.reductions.length < maxU32
  | .ce _ _ => h.reductions.length < maxU32
  | _ => True

/-- The acknowledgements that take back what is to stand do not come. -/
def Due (h : History) : Event Frame → Prop
  | .late pn => ¬Undue h pn
  | _ => True

def step (curve : Curve) (h : History) : Event Frame → History
  | .acked bytesAcked largestAckedSentTimeUs nowUs srttUs bytesInFlight =>
    {h with recovery.cc := h.recovery.cc.onPacketAcked curve bytesAcked largestAckedSentTimeUs nowUs srttUs bytesInFlight}
  | .ackProcessed largestAckedPn latestRttUs nextPnToSend =>
    {h with recovery.cc := h.recovery.cc.onAckProcessed largestAckedPn latestRttUs nextPnToSend}
  | .ce cePacketSentTimeUs nowUs =>
    {h with
      recovery.cc := h.recovery.cc.onCongestionEvent cePacketSentTimeUs nowUs
      reductions := h.reacted cePacketSentTimeUs .ce}
  | .lost packets grants basePtoUs nowUs => h.reportLost packets grants basePtoUs nowUs
  | .late pn => h.late pn

end

instance (e : LossEpisodes) (reductions : List Reduction) (episode : Nat) : Decidable (TakesStanding e reductions episode) := by
  unfold TakesStanding
  infer_instance

instance (h : History) (pn : Nat) : Decidable (Undue h pn) :=
  inferInstanceAs (Decidable (∃ rec ∈ h.recovery.reorder.record? pn, TakesStanding h.recovery.cc.episodes h.reductions rec.episode))

instance {Frame : Type} (h : History) (event : Event Frame) : Decidable (Ordinary h event) := by
  unfold Ordinary
  split <;> infer_instance

instance {Frame : Type} (h : History) (event : Event Frame) : Decidable (Due h event) := by
  unfold Due
  split <;> infer_instance

/-- What the counts of the controller, the ring and the history have to do with each other. -/
structure Book (e : LossEpisodes) (w : ReorderWindow) (lost : List LostPacket) (reductions : List Reduction) : Prop where
  ring : w.Sound
  records : ∀ rec ∈ w.remembered, ∃ p ∈ lost, p.pn = rec.pn ∧ p.episode = rec.episode ∧ p.acked = false
  named : (lost.map (·.pn)).Nodup
  opened : e.episode ≤ reductions.length
  counted : e.pending ≤ lost.length
  lostBefore : ∀ p ∈ lost, p.episode ≤ e.episode
  madeBefore : ∀ r ∈ reductions, r.episode ≤ e.episode
  current : unacked lost e.episode ≤ e.pending
  previous : e.prevUndoable = true → e.prevEpisode < e.episode ∧ unacked lost e.prevEpisode ≤ e.prevPending
  stands : e.undoable = true → ∀ r ∈ reductions, r.episode = e.episode → r.takenBack = 0
  stood : e.prevUndoable = true → ∀ r ∈ reductions, r.episode = e.prevEpisode → r.takenBack = 0
  once : ∀ r ∈ reductions, r.takenBack ≤ 1
  ce : ∀ r ∈ reductions, r.cause = .ce → r.takenBack = 0
  timely : ∀ r ∈ reductions, r.early = false

theorem arrived_current {e : LossEpisodes} {episode : Nat} :
    (e.arrived episode).1 = .current ↔ episode = e.episode ∧ e.pending = 1 ∧ e.undoable = true := by
  unfold LossEpisodes.arrived
  split
  · rename_i here
    split
    · rename_i none
      simp [none]
    · dsimp only
      split
      · rename_i more
        refine ⟨nofun,fun last => ?_⟩
        rcases more with more | stuck
        · exact absurd (by rw [last.2.1]) more
        · rw [last.2.2] at stuck
          cases stuck
      · rename_i last
        rw [not_or,not_ne_iff,Bool.not_eq_false] at last
        exact ⟨fun _ => ⟨here,by omega,last.2⟩,fun _ => rfl⟩
  · rename_i other
    refine ⟨fun answer => ?_,fun last => absurd last.1 other⟩
    revert answer
    split <;> [(split <;> [skip; (dsimp only; split)]); skip] <;> exact nofun

theorem arrived_previous {e : LossEpisodes} {episode : Nat} :
    (e.arrived episode).1 = .previous ↔
      episode ≠ e.episode ∧ episode = e.prevEpisode ∧ e.prevPending = 1 ∧ e.prevUndoable = true := by
  unfold LossEpisodes.arrived
  split
  · rename_i here
    refine ⟨fun answer => ?_,fun last => absurd here last.1⟩
    revert answer
    split <;> [skip; (dsimp only; split)] <;> exact nofun
  · rename_i other
    split
    · rename_i waiting
      split
      · rename_i none
        simp [none]
      · dsimp only
        split
        · rename_i more
          exact ⟨nofun,fun last => absurd (by rw [last.2.2.1]) more⟩
        · rename_i last
          exact ⟨fun _ => ⟨other,waiting.1,by omega,waiting.2⟩,fun _ => rfl⟩
    · rename_i gone
      exact ⟨nofun,fun last => absurd ⟨last.2.1,last.2.2.2⟩ gone⟩

/-- One packet of an episode arrives: at most one is taken off a count. -/
structure Arrival (e : LossEpisodes) (episode : Nat) (arrived : Arrived) (after : LossEpisodes) : Prop where
  number : after.episode = e.episode
  prevNumber : after.prevEpisode = e.prevEpisode
  fewer : after.pending ≤ e.pending
  here : episode = e.episode → e.pending ≤ after.pending+1
  elsewhere : episode ≠ e.episode → after.pending = e.pending
  stands : after.undoable = true → e.undoable = true ∧ arrived ≠ .current
  stood : after.prevUndoable = true →
    e.prevUndoable = true ∧ arrived ≠ .previous ∧ e.prevPending ≤ after.prevPending+1 ∧
      (episode ≠ e.prevEpisode ∨ episode = e.episode → after.prevPending = e.prevPending)

theorem arrival (e : LossEpisodes) (episode : Nat) : Arrival e episode (e.arrived episode).1 (e.arrived episode).2 := by
  unfold LossEpisodes.arrived
  split
  · rename_i here
    split
    · rename_i none
      exact ⟨rfl,rfl,le_rfl,fun _ => by omega,fun _ => rfl,fun on => ⟨on,nofun⟩,
        fun on => ⟨on,nofun,Nat.le_succ _,fun _ => rfl⟩⟩
    · dsimp only
      split
      · exact ⟨rfl,rfl,Nat.sub_le _ _,fun _ => by simp; omega,fun other => absurd here other,fun on => ⟨on,nofun⟩,
          fun on => ⟨on,nofun,by simp,fun _ => rfl⟩⟩
      · exact ⟨rfl,rfl,Nat.sub_le _ _,fun _ => by simp; omega,fun other => absurd here other,nofun,
          fun on => ⟨on,nofun,by simp,fun _ => rfl⟩⟩
  · rename_i other
    split
    · rename_i waiting
      split
      · exact ⟨rfl,rfl,le_rfl,fun here => absurd here other,fun _ => rfl,fun on => ⟨on,nofun⟩,
          fun on => ⟨on,nofun,Nat.le_succ _,fun _ => rfl⟩⟩
      · dsimp only
        split
        · refine ⟨rfl,rfl,le_rfl,fun here => absurd here other,fun _ => rfl,fun on => ⟨on,nofun⟩,
            fun on => ⟨on,nofun,by simp; omega,fun away => ?_⟩⟩
          rcases away with away | here
          · exact absurd waiting.1 away
          · exact absurd here other
        · exact ⟨rfl,rfl,le_rfl,fun here => absurd here other,fun _ => rfl,fun on => ⟨on,nofun⟩,nofun⟩
    · exact ⟨rfl,rfl,le_rfl,fun here => absurd here other,fun _ => rfl,fun on => ⟨on,nofun⟩,
        fun on => ⟨on,nofun,Nat.le_succ _,fun _ => rfl⟩⟩

section
variable {lost : List LostPacket} {pn : Nat}

theorem acknowledge_pn (p : LostPacket) : (if p.pn = pn then {p with acked := true} else p).pn = p.pn := by
  split <;> rfl

theorem acknowledge_episode (p : LostPacket) : (if p.pn = pn then {p with acked := true} else p).episode = p.episode := by
  split <;> rfl

theorem acknowledge_named : (acknowledge pn lost).map (·.pn) = lost.map (·.pn) := by
  unfold acknowledge
  rw [List.map_map]
  exact List.map_congr_left fun p _ => acknowledge_pn p

theorem unacked_acknowledge_le (episode : Nat) : unacked (acknowledge pn lost) episode ≤ unacked lost episode := by
  unfold unacked acknowledge
  rw [List.countP_map]
  refine List.countP_mono_left fun p _ counted => ?_
  rw [Function.comp_apply,acknowledge_episode] at counted
  split at counted
  · simp at counted
  · exact counted

theorem unacked_acknowledge {p : LostPacket} (there : p ∈ lost) (named : p.pn = pn) (waits : p.acked = false) :
    unacked (acknowledge pn lost) p.episode+1 ≤ unacked lost p.episode := by
  obtain ⟨before,later,rfl⟩ := List.append_of_mem there
  have rest := Nat.add_le_add (@unacked_acknowledge_le before pn p.episode) (@unacked_acknowledge_le later pn p.episode)
  unfold unacked acknowledge at rest ⊢
  rw [List.map_append,List.map_cons,List.countP_append,List.countP_append,List.countP_cons_of_neg (by simp [named]),
    List.countP_cons_of_pos (by simp [waits])]
  omega

theorem mem_takeBack {undone : Reduction → Bool} {reductions : List Reduction} {r' : Reduction}
    (there : r' ∈ takeBack lost undone reductions) : ∃ r ∈ reductions, r'.episode = r.episode ∧ r'.cause = r.cause ∧
      ((undone r = true ∧ r'.takenBack = r.takenBack+1 ∧ r'.early = (r.early || unacked lost r.episode ≠ 0)) ∨
        (undone r = false ∧ r'.takenBack = r.takenBack ∧ r'.early = r.early)) := by
  obtain ⟨r,member,rfl⟩ := List.mem_map.mp there
  refine ⟨r,member,?_⟩
  by_cases done : undone r = true
  · rw [if_pos done]
    exact ⟨rfl,rfl,.inl ⟨done,rfl,rfl⟩⟩
  · rw [if_neg done]
    exact ⟨rfl,rfl,.inr ⟨by simpa using done,rfl,rfl⟩⟩

end

namespace Book
variable {e : LossEpisodes} {w : ReorderWindow} {lost : List LostPacket} {reductions : List Reduction}

theorem «open» (book : Book e w lost reductions) (room : reductions.length < maxU32) (cause : Cause) :
    Book e.open w lost ({episode := e.open.episode,cause := cause}::reductions) := by
  have small := book.opened
  have next : e.open.episode = e.episode+1 := Nat.mod_eq_of_lt (by unfold maxU32 at room; omega)
  have none : unacked lost e.open.episode = 0 := by
    refine List.countP_eq_zero.mpr fun p there => ?_
    have before := book.lostBefore p there
    simp only [Bool.and_eq_true,decide_eq_true_eq,not_and]
    omega
  refine {
    ring := book.ring
    records := book.records
    named := book.named
    opened := ?_
    counted := Nat.zero_le _
    lostBefore := fun p there => ?_
    madeBefore := fun r there => ?_
    current := Nat.le_of_eq none
    previous := fun on => ?_
    stands := fun _ r there same => ?_
    stood := fun on r there same => ?_
    once := List.forall_mem_cons.mpr ⟨Nat.zero_le _,book.once⟩
    ce := List.forall_mem_cons.mpr ⟨fun _ => rfl,book.ce⟩
    timely := List.forall_mem_cons.mpr ⟨rfl,book.timely⟩}
  · rw [next,List.length_cons]
    omega
  · have before := book.lostBefore p there
    omega
  · rcases List.mem_cons.mp there with rfl | there
    · exact le_rfl
    · have before := book.madeBefore r there
      omega
  · refine ⟨?_,book.current⟩
    change e.episode < e.open.episode
    omega
  · rcases List.mem_cons.mp there with rfl | there
    · rfl
    · have before := book.madeBefore r there
      omega
  · have was : e.undoable = true := (Bool.and_eq_true _ _ ▸ on : _ ∧ _).1
    change r.episode = e.episode at same
    rcases List.mem_cons.mp there with rfl | there
    · rfl
    · exact book.stands was r there same

theorem collapse (book : Book e w lost reductions) : Book e w lost ({episode := e.episode,cause := .persistent}::reductions) :=
  {book with
    opened := Nat.le_succ_of_le book.opened
    madeBefore := List.forall_mem_cons.mpr ⟨le_rfl,book.madeBefore⟩
    stands := fun on => List.forall_mem_cons.mpr ⟨fun _ => rfl,book.stands on⟩
    stood := fun on => List.forall_mem_cons.mpr ⟨fun _ => rfl,book.stood on⟩
    once := List.forall_mem_cons.mpr ⟨Nat.zero_le _,book.once⟩
    ce := List.forall_mem_cons.mpr ⟨fun _ => rfl,book.ce⟩
    timely := List.forall_mem_cons.mpr ⟨rfl,book.timely⟩}

theorem unacked_declared {Frame : Type} (packets : List (SentPacket Frame)) (lost : List LostPacket) (opened episode : Nat) :
    unacked (packets.map (fun p => {pn := p.pn,episode := opened}) ++ lost) episode =
      (if opened = episode then packets.length else 0)+unacked lost episode := by
  unfold unacked
  rw [List.countP_append,List.countP_map]
  congr 1
  by_cases here : opened = episode
  · rw [if_pos here]
    exact List.countP_eq_length.mpr fun p _ => by simp [here]
  · rw [if_neg here]
    exact List.countP_eq_zero.mpr fun p _ => by simp [here]

theorem declare {Frame : Type} (book : Book e w lost reductions) {packets : List (SentPacket Frame)}
    (once : (packets.map (·.pn)).Nodup) (apart : ∀ p ∈ packets, p.pn ∉ lost.map (·.pn)) (room : lost.length+packets.length ≤ maxU32)
    {w' : ReorderWindow} (ring : w'.Sound)
    (kept : ∀ r ∈ w'.remembered, r ∈ w.remembered ∨ (r.episode = e.episode ∧ r.pn ∈ packets.map (·.pn))) :
    Book (e.noteDeclaredLost packets.length) w' (packets.map (fun p => {pn := p.pn,episode := e.episode}) ++ lost) reductions := by
  have fits : (e.noteDeclaredLost packets.length).pending = e.pending+packets.length := by
    have counted := book.counted
    exact Nat.min_eq_left (by omega)
  refine {book with
    ring := ring
    records := fun rec there => ?_
    named := ?_
    counted := ?_
    lostBefore := fun p there => ?_
    current := ?_
    previous := fun on => ?_}
  · rcases kept rec there with old | ⟨stamped,new⟩
    · obtain ⟨p,member,same⟩ := book.records rec old
      exact ⟨p,List.mem_append_right _ member,same⟩
    · obtain ⟨p,member,named⟩ := List.mem_map.mp new
      exact ⟨{pn := p.pn,episode := e.episode},List.mem_append_left _ (List.mem_map_of_mem member),named,stamped.symm,rfl⟩
  · rw [List.map_append,List.map_map]
    refine List.nodup_append.mpr ⟨once,book.named,fun a new b old same => ?_⟩
    obtain ⟨p,member,rfl⟩ := List.mem_map.mp new
    change p.pn = b at same
    exact apart p member (same ▸ old)
  · rw [fits,List.length_append,List.length_map]
    have counted := book.counted
    omega
  · rcases List.mem_append.mp there with new | old
    · obtain ⟨q,_,rfl⟩ := List.mem_map.mp new
      exact le_rfl
    · exact book.lostBefore p old
  · rw [fits]
    change unacked _ e.episode ≤ _
    rw [unacked_declared,if_pos rfl]
    have current := book.current
    omega
  · obtain ⟨before,few⟩ := book.previous on
    refine ⟨before,?_⟩
    change unacked _ e.prevEpisode ≤ e.prevPending
    rw [unacked_declared,if_neg (by omega),Nat.zero_add]
    exact few

theorem undoes_iff {episode : Nat} {r : Reduction} : History.undoes e episode r = true ↔
    (episode = e.episode ∧ e.pending = 1 ∧ e.undoable = true ∧ r.episode = episode) ∨
      (episode ≠ e.episode ∧ episode = e.prevEpisode ∧ e.prevPending = 1 ∧ e.prevUndoable = true ∧
        (r.episode = episode ∨ (e.undoable = true ∧ r.episode = e.episode ∧ r.cause = .persistent))) := by
  have current := @arrived_current e episode
  have previous := @arrived_previous e episode
  unfold History.undoes
  cases outcome : (e.arrived episode).1 with
  | none =>
    rw [outcome] at current previous
    constructor
    · exact nofun
    · rintro (⟨here,last,stands,_⟩ | ⟨other,here,last,stands,_⟩)
      · exact absurd (current.mpr ⟨here,last,stands⟩) nofun
      · exact absurd (previous.mpr ⟨other,here,last,stands⟩) nofun
  | current =>
    obtain ⟨here,last,stands⟩ := current.mp outcome
    simp [here,last,stands]
  | previous =>
    obtain ⟨other,here,last,stands⟩ := previous.mp outcome
    have away : e.prevEpisode ≠ e.episode := here ▸ other
    simp [here,away,last,stands,LossEpisodes.currentStands,and_assoc]

/-- What goes back when the last packet of an episode arrives had not gone back before, no report made it, and all its packets
have arrived. -/
theorem undone (book : Book e w lost reductions) {rec : LostRecord} (found : rec ∈ w.remembered)
    (due : ¬TakesStanding e reductions rec.episode) {r : Reduction} (there : r ∈ reductions)
    (goes : History.undoes e rec.episode r = true) :
    r.episode = rec.episode ∧ r.takenBack = 0 ∧ r.cause ≠ .ce ∧ unacked (acknowledge rec.pn lost) rec.episode = 0 := by
  obtain ⟨p,member,named,same,waits⟩ := book.records rec found
  have fewer := unacked_acknowledge member named waits
  rw [same] at fewer
  rcases undoes_iff.mp goes with ⟨here,last,stands,back⟩ | ⟨other,here,last,stood,back⟩
  · have most := book.current
    rw [← here,last] at most
    exact ⟨back,book.stands stands r there (back.trans here),
      fun ce => due (.inl ⟨here,last,stands,r,there,back.trans here,ce⟩),by omega⟩
  · have most := (book.previous stood).2
    rw [← here,last] at most
    rcases back with back | ⟨stands,back,collapsed⟩
    · exact ⟨back,book.stood stood r there (back.trans here),
        fun ce => due (.inr ⟨other,here,last,stood,.inl ⟨r,there,back.trans here,ce⟩⟩),by omega⟩
    · exact absurd (.inr ⟨other,here,last,stood,.inr ⟨stands,r,there,back,collapsed⟩⟩) due

theorem arrive (book : Book e w lost reductions) {rec : LostRecord} (found : rec ∈ w.remembered)
    (due : ¬TakesStanding e reductions rec.episode) {w' : ReorderWindow} (ring : w'.Sound)
    (rest : w'.remembered = w.remembered.filter (·.pn ≠ rec.pn)) :
    Book (e.arrived rec.episode).2 w' (acknowledge rec.pn lost)
      (takeBack (acknowledge rec.pn lost) (History.undoes e rec.episode) reductions) := by
  obtain ⟨p,member,named,same,waits⟩ := book.records rec found
  have fewer := unacked_acknowledge member named waits
  rw [same] at fewer
  have spec := arrival e rec.episode
  have current := @arrived_current e rec.episode
  have previous := @arrived_previous e rec.episode
  generalize (e.arrived rec.episode).1 = outcome at spec current previous
  generalize (e.arrived rec.episode).2 = after at spec
  have kept : ∀ r' ∈ takeBack (acknowledge rec.pn lost) (History.undoes e rec.episode) reductions,
      ∃ r ∈ reductions, r'.episode = r.episode ∧ r'.cause = r.cause ∧
        ((r.episode = rec.episode ∧ r.takenBack = 0 ∧ r.cause ≠ .ce ∧ (outcome = .current ∨ outcome = .previous) ∧
            r'.takenBack = 1 ∧ r'.early = false) ∨ (r'.takenBack = r.takenBack ∧ r'.early = r.early)) := by
    intro r' there
    obtain ⟨r,member,episode,cause,gone | stays⟩ := mem_takeBack there
    · obtain ⟨here,first,other,none⟩ := book.undone found due member gone.1
      refine ⟨r,member,episode,cause,.inl ⟨here,first,other,?_,by rw [gone.2.1,first],?_⟩⟩
      · rcases undoes_iff.mp gone.1 with ⟨here,last,stands,_⟩ | ⟨other,here,last,stood,_⟩
        · exact .inl (current.mpr ⟨here,last,stands⟩)
        · exact .inr (previous.mpr ⟨other,here,last,stood⟩)
      · rw [gone.2.2,book.timely r member,here,none]
        rfl
    · exact ⟨r,member,episode,cause,.inr stays.2⟩
  exact {
    ring := ring
    records := fun r there => by
      rw [rest] at there
      obtain ⟨old,other⟩ := List.mem_filter.mp there
      obtain ⟨q,member,named,same,waits⟩ := book.records r old
      refine ⟨q,?_,named,same,waits⟩
      refine List.mem_map.mpr ⟨q,member,if_neg ?_⟩
      rw [named]
      simpa using other
    named := by
      rw [acknowledge_named]
      exact book.named
    opened := by
      rw [spec.number]
      rw [takeBack,List.length_map]
      exact book.opened
    counted := by
      have most := book.counted
      have fewer := spec.fewer
      unfold acknowledge
      rw [List.length_map]
      omega
    lostBefore := fun q there => by
      obtain ⟨p,member,rfl⟩ := List.mem_map.mp there
      rw [acknowledge_episode,spec.number]
      exact book.lostBefore p member
    madeBefore := fun r' there => by
      obtain ⟨r,member,episode,_⟩ := kept r' there
      rw [episode,spec.number]
      exact book.madeBefore r member
    current := by
      have most := book.current
      rw [spec.number]
      by_cases here : rec.episode = e.episode
      · have taken := spec.here here
        rw [here] at fewer
        omega
      · rw [spec.elsewhere here]
        exact Nat.le_trans (unacked_acknowledge_le _) most
    previous := fun on => by
      obtain ⟨was,_,taken,same⟩ := spec.stood on
      obtain ⟨before,most⟩ := book.previous was
      rw [spec.prevNumber,spec.number]
      refine ⟨before,?_⟩
      by_cases here : rec.episode = e.prevEpisode
      · rw [here] at fewer
        omega
      · rw [same (.inl here)]
        exact Nat.le_trans (unacked_acknowledge_le _) most
    stands := fun on r' there same => by
      obtain ⟨was,still⟩ := spec.stands on
      obtain ⟨r,member,episode,_,⟨here,_,_,back | back,_⟩ | stays⟩ := kept r' there
      · exact absurd back still
      · rw [episode,spec.number,here] at same
        exact absurd same (previous.mp back).1
      · rw [stays.1]
        exact book.stands was r member (episode ▸ spec.number ▸ same)
    stood := fun on r' there same => by
      obtain ⟨was,still,_,_⟩ := spec.stood on
      obtain ⟨r,member,episode,_,⟨here,_,_,back | back,_⟩ | stays⟩ := kept r' there
      · have before := (book.previous was).1
        have same' := (current.mp back).1
        rw [episode,spec.prevNumber,here] at same
        omega
      · exact absurd back still
      · rw [stays.1]
        exact book.stood was r member (episode ▸ spec.prevNumber ▸ same)
    once := fun r' there => by
      obtain ⟨r,member,_,_,⟨_,_,_,_,one,_⟩ | stays⟩ := kept r' there
      · exact Nat.le_of_eq one
      · rw [stays.1]
        exact book.once r member
    ce := fun r' there made => by
      obtain ⟨r,member,_,cause,⟨_,_,other,_⟩ | stays⟩ := kept r' there
      · exact absurd (cause ▸ made) other
      · rw [stays.1]
        exact book.ce r member (cause ▸ made)
    timely := fun r' there => by
      obtain ⟨r,member,_,_,⟨_,_,_,_,_,never⟩ | stays⟩ := kept r' there
      · exact never
      · rw [stays.2]
        exact book.timely r member}

theorem ignore (book : Book e w lost reductions) {pn : Nat} (absent : w.record? pn = none) :
    Book e w (acknowledge pn lost) reductions :=
  {book with
    records := fun r there => by
      obtain ⟨q,member,named,same,waits⟩ := book.records r there
      obtain ⟨slot,real⟩ := List.mem_filter.mp there
      refine ⟨q,List.mem_map.mpr ⟨q,member,if_neg ?_⟩,named,same,waits⟩
      rw [named]
      exact ReorderWindow.record?_none.mp absent r slot (by simpa using real)
    named := by
      rw [acknowledge_named]
      exact book.named
    counted := by
      rw [acknowledge,List.length_map]
      exact book.counted
    lostBefore := fun q there => by
      obtain ⟨p,member,rfl⟩ := List.mem_map.mp there
      rw [acknowledge_episode]
      exact book.lostBefore p member
    current := Nat.le_trans (unacked_acknowledge_le _) book.current
    previous := fun on => ⟨(book.previous on).1,Nat.le_trans (unacked_acknowledge_le _) (book.previous on).2⟩}

end Book

/-- What holds throughout the runs in which nothing is taken back that is to stand. -/
structure Inv (h : History) : Prop where
  book : Book h.recovery.cc.episodes h.recovery.reorder h.lost h.reductions
  small : h.recovery.cc.cfg.minWindow ≤ maxU64
  floor : h.recovery.cc.cfg.minWindow ≤ h.recovery.cc.cwnd

theorem Inv.good {h : History} (inv : Inv h) : Good h := ⟨inv.book.once,inv.book.ce,inv.book.timely,inv.floor⟩

theorem Inv.turn {h h' : History} (inv : Inv h) {episodes : LossEpisodes} (turn : Turn h.recovery.cc h'.recovery.cc episodes)
    (book : Book episodes h'.recovery.reorder h'.lost h'.reductions) : Inv h' := by
  refine ⟨turn.episodes ▸ book,?_,?_⟩
  · rw [turn.cfg]
    exact inv.small
  · rw [turn.cfg]
    exact turn.floor inv.small inv.floor

theorem inv_fresh {h : History} (fresh : Fresh h) : Inv h := by
  obtain ⟨cfg,cc,small⟩ := fresh.cc
  have start : h.recovery.cc.episodes = {} ∧ h.recovery.cc.cfg = cfg ∧ h.recovery.cc.cwnd = cfg.initialWindow := by
    rw [cc]
    unfold Controller.init
    split <;> exact ⟨rfl,rfl,rfl⟩
  obtain ⟨episodes,same,cwnd⟩ := start
  refine ⟨?_,same ▸ small,?_⟩
  · rw [episodes,fresh.reorder,fresh.lost,fresh.reductions]
    exact ⟨⟨rfl,.nil,fun _ => rfl⟩,nofun,.nil,le_rfl,le_rfl,nofun,nofun,le_rfl,nofun,nofun,nofun,nofun,nofun,nofun⟩
  · rw [same,cwnd]
    unfold Config.initialWindow Config.minWindow
    omega

theorem Book.reacted {h : History} (book : Book h.recovery.cc.episodes h.recovery.reorder h.lost h.reductions)
    (room : h.reductions.length < maxU32) (sentTimeUs : Nat) (cause : Cause) :
    Book (if h.recovery.cc.isInRecovery sentTimeUs then h.recovery.cc.episodes else h.recovery.cc.episodes.open)
      h.recovery.reorder h.lost (h.reacted sentTimeUs cause) := by
  unfold History.reacted
  split
  · exact book
  · exact book.open room cause

theorem count_add {Frame : Type} (packets : List (SentPacket Frame)) (stats : LossStats) :
    (packets.foldl LossStats.add stats).count = stats.count+packets.length := by
  induction packets generalizing stats with
  | nil => rfl
  | cons p rest ih =>
    have one : (stats.add p).count = stats.count+1 := by
      unfold LossStats.add
      dsimp only
      split <;> rfl
    rw [List.foldl_cons,ih,one,List.length_cons]
    omega

theorem Inv.told {h : History} (inv : Inv h) (room : h.reductions.length < maxU32) (stats : LossStats) (basePtoUs nowUs : Nat) :
    Inv {h with
      recovery.cc := (Recovery.onApplicationPathPacketsLost h.recovery.cc stats basePtoUs nowUs).2
      reductions :=
        let reductions := if stats.inFlightBytesLost = 0 then h.reductions else h.reacted stats.largestLostSentTimeUs .loss
        if (Recovery.onApplicationPathPacketsLost h.recovery.cc stats basePtoUs nowUs).1 then
          {episode := (Recovery.onApplicationPathPacketsLost h.recovery.cc stats basePtoUs nowUs).2.lossEpisode,
            cause := .persistent}::reductions
        else reductions} := by
  unfold Recovery.onApplicationPathPacketsLost
  by_cases none : stats.inFlightBytesLost = 0
  · simp only [if_pos none]
    exact inv
  simp only [if_neg none]
  have reacted := @Inv.turn h {h with
    recovery.cc := h.recovery.cc.onPacketLost stats.largestLostSentTimeUs nowUs
    reductions := h.reacted stats.largestLostSentTimeUs .loss} inv _ (h.recovery.cc.onPacketLost_turn _ nowUs)
      (inv.book.reacted room stats.largestLostSentTimeUs .loss)
  by_cases persistent : isPersistentCongestionFromBasePto basePtoUs stats = true
  · simp only [if_pos persistent,if_true]
    have collapse := (h.recovery.cc.onPacketLost stats.largestLostSentTimeUs nowUs).onPersistentCongestion_turn
    have book := reacted.book.collapse
    have named : (h.recovery.cc.onPacketLost stats.largestLostSentTimeUs nowUs).onPersistentCongestion.lossEpisode =
        (h.recovery.cc.onPacketLost stats.largestLostSentTimeUs nowUs).episodes.episode :=
      congrArg LossEpisodes.episode collapse.episodes
    rw [named]
    exact reacted.turn collapse book
  · simp only [if_neg persistent]
    exact reacted

theorem inv_lost {Frame : Type} {h : History} (inv : Inv h) (packets : List (SentPacket Frame)) (grants : Allocator)
    (basePtoUs nowUs : Nat) (ordinary : Ordinary h (.lost packets grants basePtoUs nowUs)) :
    Inv (h.reportLost packets grants basePtoUs nowUs) := by
  obtain ⟨once,apart,room,few⟩ := ordinary
  have told := inv.told few (packets.foldl LossStats.add {}) basePtoUs nowUs
  have count := count_add packets {}
  unfold History.reportLost Recovery.sweepLosses
  dsimp only
  generalize packets.foldl LossStats.add {} = stats at told count ⊢
  generalize Recovery.onApplicationPathPacketsLost h.recovery.cc stats basePtoUs nowUs = outcome at told ⊢
  obtain ⟨collapsed,cc⟩ := outcome
  dsimp only at told ⊢
  rw [Nat.zero_add] at count
  rw [count]
  cases packets with
  | nil => exact told
  | cons p rest =>
    generalize whole : p::rest = packets at *
    have some : packets.length ≠ 0 := by
      rw [← whole]
      exact Nat.succ_ne_zero _
    unfold Recovery.noteDeclaredLost
    rw [if_neg some]
    have turn := cc.noteDeclaredLost_turn packets.length
    have number : (cc.noteDeclaredLost packets.length).lossEpisode = cc.episodes.episode := by
      unfold Controller.lossEpisode
      rw [turn.episodes]
      rfl
    have ring := ReorderWindow.sweep_remembered grants told.book.ring (fun q there => (apart q there).1) once
      (fun r there member => by
        obtain ⟨q,lost,named,_⟩ := told.book.records r there
        obtain ⟨q',there',same⟩ := List.mem_map.mp member
        exact (apart q' there').2 (List.mem_map.mpr ⟨q,lost,named.trans same.symm⟩)) cc.episodes.episode
    refine told.turn turn ?_
    dsimp only
    rw [number]
    exact told.book.declare once (fun q there => (apart q there).2) room ring.1 ring.2

theorem inv_late {h : History} (inv : Inv h) (pn : Nat) (due : ¬Undue h pn) : Inv (h.late pn) := by
  unfold History.late Recovery.ackRange
  cases found : h.recovery.reorder.record? pn with
  | none =>
    rw [ReorderWindow.takeCovered_none found]
    exact ⟨inv.book.ignore found,inv.small,inv.floor⟩
  | some rec =>
    obtain ⟨after,taken,ring,rest⟩ := @ReorderWindow.takeCovered_some _
      (fun cc rec => Controller.onSpuriousLoss rec.episode cc) _ _ inv.book.ring _ found h.recovery.cc
    have named : rec.pn = pn := by simpa using List.find?_some found
    subst named
    rw [taken]
    refine inv.turn (h.recovery.cc.onSpuriousLoss_turn rec.episode) ?_
    exact inv.book.arrive (List.mem_of_find?_eq_some found) (fun takes => due ⟨rec,found,takes⟩) ring rest

theorem inv_step {Frame : Type} {curve : Curve} {h : History} {event : Event Frame} (inv : Inv h) (ordinary : Ordinary h event)
    (due : Due h event) : Inv (step curve h event) := by
  cases event with
  | acked bytesAcked largestAckedSentTimeUs nowUs srttUs bytesInFlight =>
    exact inv.turn (h.recovery.cc.onPacketAcked_turn curve _ _ _ _ _) inv.book
  | ackProcessed largestAckedPn latestRttUs nextPnToSend =>
    exact inv.turn (h.recovery.cc.onAckProcessed_turn _ _ _) inv.book
  | ce cePacketSentTimeUs nowUs =>
    refine @Inv.turn h _ inv _ ?_ (inv.book.reacted ordinary cePacketSentTimeUs .ce)
    change Turn _ (h.recovery.cc.onCongestionEvent _ _) _
    rw [Controller.onCongestionEvent_eq]
    exact h.recovery.cc.onPacketLost_turn _ nowUs
  | lost packets grants basePtoUs nowUs => exact inv_lost inv packets grants basePtoUs nowUs ordinary
  | late pn => exact inv_late inv pn due

def inFlight (pn sentTimeUs : Nat) : SentPacket Unit :=
  {pn := pn,sentTimeUs := sentTimeUs,bytes := 1200,ackEliciting := true,inFlight := true}

def flat : Curve := ⟨fun _ _ => 0,fun _ _ wMax _ => wMax⟩

/-- A path that starts with the controller of the configuration. -/
def History.init (cfg : Config) : History := {recovery := {cc := .init cfg}}

end QuicZig.Conn.Congestion
