import QuicZig.Conn.PeerCids
import QuicZig.Library.System
import Mathlib.Data.List.Perm.Subperm
import Mathlib.Data.List.Infix

/-! Every order in which the connection IDs of a conforming peer can arrive. -/
namespace QuicZig.Conn.PeerCidRun
open Machine Wire Paths Paths.Connection

inductive Arrival where
  | newConnectionId (nc : Frame.NewConnectionId)
  | pathNewConnectionId (nc : Frame.PathNewConnectionId)

namespace Arrival

/-- What a frame says, as the registry would enter it. -/
def frame : Arrival → IssuedCid
  | newConnectionId nc => ⟨0,nc.sequenceNumber,nc.retirePriorTo,nc.connectionId,nc.statelessResetToken⟩
  | pathNewConnectionId nc => ⟨nc.pathId,nc.sequenceNumber,nc.retirePriorTo,nc.connectionId,nc.statelessResetToken⟩

def handle (conn : Connection) : Arrival → Connection
  | newConnectionId nc => conn.handleNewConnectionId nc
  | pathNewConnectionId nc => conn.handlePathNewConnectionId nc

theorem handle_register (conn : Connection) (a : Arrival) : a.handle conn = conn.registerPeerCid a.frame := by
  cases a <;> rfl

end Arrival

def key (item : IssuedCid) : Nat × Nat := (item.pathId,item.sequenceNumber)

def held (conn : Connection) : List (Nat × Nat) := conn.peerCids.map key

/-- The greatest Retire Prior To among the frames of a path. -/
def floor (frames : List IssuedCid) (pathId : Nat) : Nat :=
  match frames with
  | [] => 0
  | i::rest => if i.pathId = pathId then max i.retirePriorTo (floor rest pathId) else floor rest pathId

/-- A connection, the frames it received, and the IDs that have left its registry. -/
structure State where
  conn : Connection
  received : List IssuedCid := []
  retired : List (Nat × Nat) := []

def step (s : State) (a : Arrival) : State :=
  if s.conn.pendingClose.isSome then s
  else {conn := a.handle s.conn,received := a.frame::s.received,
        retired := (held s.conn).filter (· ∉ held (a.handle s.conn))++s.retired}

/-- The IDs of a path that the peer has issued with these frames, and not retired with them. -/
def unretired (sent : List IssuedCid) (pathId : Nat) : List IssuedCid :=
  sent.filter fun i => i.pathId = pathId ∧ floor sent pathId ≤ i.sequenceNumber

/-- What a conforming peer issues, the ID of the handshake among it, in the order of issue. -/
structure Conforming (conn : Connection) (issued : List IssuedCid) : Prop where
  ordered : ∀ i ∈ issued, i.retirePriorTo ≤ i.sequenceNumber
  allowed : ∀ i ∈ issued, conn.multipathNegotiated → i.pathId ≤ conn.localMaxPathId
  once : ∀ i ∈ issued, ∀ j ∈ issued, key i = key j → i = j
  distinct : ∀ i ∈ issued, ∀ j ∈ issued, i.cid.len ≠ 0 → i.cid = j.cid → i = j
  within : ∀ sent, sent <+: issued → ∀ pathId, (unretired sent pathId).length ≤ conn.activeConnectionIdLimit

/-- Each frame says what the peer has retired by then. -/
def Current (issued : List IssuedCid) : Prop :=
  ∀ sent i, sent++[i] <+: issued → i.retirePriorTo = floor (sent++[i]) i.pathId

structure Sound (s : State) : Prop where
  opened : s.conn.pendingClose = none
  unretired : ∀ i ∈ s.conn.peerCids, floor s.received i.pathId ≤ i.sequenceNumber
  distinct : (held s.conn).Nodup
  gone : ∀ k ∈ s.retired, k ∉ held s.conn

/-- The ID has not been retired by a frame that came before. -/
def OnTime (s : State) (a : Arrival) : Prop := floor s.received a.frame.pathId ≤ a.frame.sequenceNumber

/-- The ID is held already, or the frame leaves fewer IDs than the limit. -/
def HasRoom (s : State) (a : Arrival) : Prop :=
  key a.frame ∈ held s.conn ∨
    cidActiveCountForPath (s.conn.kept a.frame.pathId a.frame.retirePriorTo) a.frame.pathId < s.conn.activeConnectionIdLimit

theorem floor_cons (i : IssuedCid) (rest : List IssuedCid) (pathId : Nat) :
    floor (i::rest) pathId = if i.pathId = pathId then max i.retirePriorTo (floor rest pathId) else floor rest pathId := rfl

theorem le_floor {frames : List IssuedCid} {i : IssuedCid} (member : i ∈ frames) :
    i.retirePriorTo ≤ floor frames i.pathId := by
  induction frames with
  | nil => cases member
  | cons j rest ih =>
    rw [floor_cons]
    rcases List.mem_cons.mp member with rfl | later
    · rw [if_pos rfl]
      exact Nat.le_max_left _ _
    · have below := ih later
      split
      · exact Nat.le_trans below (Nat.le_max_right _ _)
      · exact below

theorem floor_again {frames : List IssuedCid} {i : IssuedCid} (member : i ∈ frames) (pathId : Nat) :
    floor (i::frames) pathId = floor frames pathId := by
  rw [floor_cons]
  split
  · rename_i same
    subst same
    exact Nat.max_eq_right (le_floor member)
  · rfl

theorem goes_iff (item : IssuedCid) (pathId retirePriorTo : Nat) :
    item.goes pathId retirePriorTo = true ↔ item.pathId = pathId ∧ item.sequenceNumber < retirePriorTo := by
  simp [IssuedCid.goes]

theorem mem_kept {conn : Connection} {pathId retirePriorTo : Nat} {item : IssuedCid} :
    item ∈ conn.kept pathId retirePriorTo ↔
      item ∈ conn.peerCids ∧ (item.pathId = pathId → retirePriorTo ≤ item.sequenceNumber) := by
  unfold kept
  rw [List.mem_filter,Bool.not_eq_true',← Bool.not_eq_true,goes_iff]
  constructor
  · rintro ⟨member,stays⟩
    exact ⟨member,fun same => Nat.le_of_not_lt fun below => stays ⟨same,below⟩⟩
  · rintro ⟨member,stays⟩
    exact ⟨member,fun leaves => absurd (stays leaves.1) (Nat.not_le_of_lt leaves.2)⟩

/-- What the frame of a conforming peer does: an ID that is held stays, any other retires the entries it says, and
is entered if the limit allows. -/
theorem register_conforming {conn : Connection} {issued : List IssuedCid} {frame : IssuedCid}
    (conforming : Conforming conn issued) (inside : ∀ i ∈ conn.peerCids, i ∈ issued) (sent : frame ∈ issued) :
    frame ∈ conn.peerCids ∧ conn.registerPeerCid frame = conn ∨
    key frame ∉ held conn ∧ conn.registerPeerCid frame =
      if cidActiveCountForPath (conn.kept frame.pathId frame.retirePriorTo) frame.pathId ≥ conn.activeConnectionIdLimit then
        (conn.retirePeerCidsPriorTo frame.pathId frame.retirePriorTo).close true transportErrorConnectionIdLimit
          "active connection id limit exceeded"
      else (conn.retirePeerCidsPriorTo frame.pathId frame.retirePriorTo).appendPeerCid frame := by
  have ordered := conforming.ordered frame sent
  have admitted : ¬(conn.multipathNegotiated = true ∧ (conn.pathIdAllowedByLocalLimit frame.pathId).1 = false) := by
    rintro ⟨negotiated,refused⟩
    unfold pathIdAllowedByLocalLimit at refused
    rw [if_pos (conforming.allowed frame sent negotiated)] at refused
    cases refused
  unfold registerPeerCid
  rw [if_neg (Nat.not_lt_of_le ordered),if_neg admitted]
  dsimp only
  split
  · rename_i item found
    have member := List.mem_of_find?_eq_some found
    have hit := List.find?_some found
    have same : item = frame := by
      rcases Bool.or_eq_true _ _ ▸ hit with here | reused
      · exact conforming.once item (inside item member) frame sent (by simpa [key] using here)
      · have reused : frame.cid.len ≠ 0 ∧ item.cid = frame.cid := by simpa using reused
        exact (conforming.distinct frame sent item (inside item member) reused.1 reused.2.symm).symm
    subst same
    exact .inl ⟨member,by simp⟩
  · rename_i missing
    refine .inr ⟨?_,?_⟩
    · intro here
      obtain ⟨item,member,same⟩ := List.mem_map.mp here
      have absent := List.find?_eq_none.mp missing item member
      simp only [key,Prod.mk.injEq] at same
      simp [same.1,same.2] at absent
    · have swept := retire_readdressed conn frame.pathId frame.retirePriorTo
      rw [swept.peerCids,limit_of_settings swept.settings]

theorem held_kept {conn : Connection} {pathId retirePriorTo : Nat} {k : Nat × Nat}
    (member : k ∈ (conn.kept pathId retirePriorTo).map key) :
    k ∈ held conn ∧ (k.1 = pathId → retirePriorTo ≤ k.2) := by
  obtain ⟨item,inside,rfl⟩ := List.mem_map.mp member
  obtain ⟨before,stays⟩ := mem_kept.mp inside
  exact ⟨List.mem_map_of_mem before,stays⟩

/-- What a run keeps whatever arrives when: the entries came in frames, and what has left was retired by one. -/
structure Tracked (conn : Connection) (issued : List IssuedCid) (s : State) : Prop where
  settings : s.conn.settings = conn.settings
  sent : ∀ i ∈ s.received, i ∈ issued
  came : ∀ i ∈ s.conn.peerCids, i ∈ s.received
  below : ∀ k ∈ s.retired, k.2 < floor s.received k.1

theorem Conforming.congr {conn after : Connection} {issued : List IssuedCid} (conforming : Conforming conn issued)
    (same : after.settings = conn.settings) : Conforming after issued := by
  unfold settings at same
  simp only [Prod.mk.injEq] at same
  refine ⟨conforming.ordered,?_,conforming.once,conforming.distinct,?_⟩
  · rw [same.2.1,same.2.2]
    exact conforming.allowed
  · rw [same.1]
    exact conforming.within

theorem floor_mono (frame : IssuedCid) (frames : List IssuedCid) (pathId : Nat) :
    floor frames pathId ≤ floor (frame::frames) pathId := by
  rw [floor_cons]
  split
  · exact Nat.le_max_right _ _
  · exact Nat.le_refl _

theorem step_cases {conn : Connection} {issued : List IssuedCid} {s : State} {a : Arrival}
    (conforming : Conforming conn issued) (tracked : Tracked conn issued s) (sent : a.frame ∈ issued)
    (opened : s.conn.pendingClose = none) :
    a.frame ∈ s.conn.peerCids ∧ step s a = {s with received := a.frame::s.received} ∨
    key a.frame ∉ held s.conn ∧ ∃ after, step s a =
        ⟨after,a.frame::s.received,(held s.conn).filter (· ∉ held after)++s.retired⟩ ∧
      after.settings = s.conn.settings ∧
      (¬HasRoom s a ∧ after.pendingClose ≠ none ∧ after.peerCids = s.conn.kept a.frame.pathId a.frame.retirePriorTo ∨
       HasRoom s a ∧ after.pendingClose = none ∧
        after.peerCids = s.conn.kept a.frame.pathId a.frame.retirePriorTo++[a.frame]) := by
  have here : ¬ s.conn.pendingClose.isSome = true := by simp [opened]
  have registered := register_conforming (conforming.congr tracked.settings) (fun i inside => tracked.sent i (tracked.came i inside))
    sent
  rw [← Arrival.handle_register] at registered
  rcases registered with ⟨member,same⟩ | ⟨absent,result⟩
  · refine .inl ⟨member,?_⟩
    rw [step,if_neg here,same]
    have none : (held s.conn).filter (fun k => decide (k ∉ held s.conn)) = [] :=
      List.filter_eq_nil_iff.mpr fun k inside => by simpa using inside
    rw [none]
    rfl
  · refine .inr ⟨absent,a.handle s.conn,by rw [step,if_neg here],?_⟩
    have swept := retire_readdressed s.conn a.frame.pathId a.frame.retirePriorTo
    split at result
    · rename_i full
      rw [result]
      have room : ¬HasRoom s a := by
        rintro (inside | room)
        · exact absent inside
        · exact absurd room (Nat.not_lt_of_le full)
      obtain ⟨pendingClose,closed,frame⟩ := close_frame (s.conn.retirePeerCidsPriorTo a.frame.pathId a.frame.retirePriorTo)
        true transportErrorConnectionIdLimit "active connection id limit exceeded"
      rw [frame]
      exact ⟨swept.settings,.inl ⟨room,closed,swept.peerCids⟩⟩
    · rename_i room
      rw [result]
      have added := append_readdressed (s.conn.retirePeerCidsPriorTo a.frame.pathId a.frame.retirePriorTo) a.frame
      refine ⟨added.settings.trans swept.settings,
        .inr ⟨.inr (Nat.lt_of_not_le room),(added.pendingClose.trans swept.pendingClose).trans opened,?_⟩⟩
      rw [added.peerCids]
      exact congrArg (·++[a.frame]) swept.peerCids

theorem left_below {conn after : Connection} {frame : IssuedCid} {k : Nat × Nat}
    (stays : ∀ i ∈ conn.kept frame.pathId frame.retirePriorTo, i ∈ after.peerCids)
    (member : k ∈ (held conn).filter (· ∉ held after)) : k ∈ held conn ∧ k.1 = frame.pathId ∧ k.2 < frame.retirePriorTo := by
  obtain ⟨before,left⟩ := List.mem_filter.mp member
  obtain ⟨item,inside,rfl⟩ := List.mem_map.mp before
  refine ⟨before,?_⟩
  by_contra kept
  have left : key item ∉ held after := by simpa using left
  refine left (List.mem_map_of_mem (stays item (mem_kept.mpr ⟨inside,fun same => ?_⟩)))
  exact Nat.le_of_not_lt fun lower => kept ⟨same,lower⟩

theorem tracked_step {conn : Connection} {issued : List IssuedCid} (conforming : Conforming conn issued) (s : State)
    (a : Arrival) (tracked : Tracked conn issued s) (sent : a.frame ∈ issued) : Tracked conn issued (step s a) := by
  by_cases opened : s.conn.pendingClose = none
  · have sentAll : ∀ i ∈ a.frame::s.received, i ∈ issued := by
      intro i member
      rcases List.mem_cons.mp member with rfl | before
      · exact sent
      · exact tracked.sent i before
    have cameAll : ∀ i ∈ s.conn.peerCids, i ∈ a.frame::s.received :=
      fun i inside => List.mem_cons_of_mem _ (tracked.came i inside)
    have belowAll : ∀ k ∈ s.retired, k.2 < floor (a.frame::s.received) k.1 :=
      fun k member => Nat.lt_of_lt_of_le (tracked.below k member) (floor_mono _ _ _)
    rcases step_cases conforming tracked sent opened with ⟨_,same⟩ | ⟨_,after,next,settings,outcome⟩
    · rw [same]
      exact ⟨tracked.settings,sentAll,cameAll,belowAll⟩
    · rw [next]
      have entries : (∀ i ∈ s.conn.kept a.frame.pathId a.frame.retirePriorTo, i ∈ after.peerCids) ∧
          ∀ i ∈ after.peerCids, i ∈ s.conn.peerCids ∨ i = a.frame := by
        rcases outcome with ⟨_,_,entries⟩ | ⟨_,_,entries⟩ <;> rw [entries]
        · exact ⟨fun i member => member,fun i member => .inl (mem_kept.mp member).1⟩
        · refine ⟨fun i member => List.mem_append_left _ member,fun i member => ?_⟩
          rcases List.mem_append.mp member with before | new
          · exact .inl (mem_kept.mp before).1
          · exact .inr (List.mem_singleton.mp new)
      refine ⟨settings.trans tracked.settings,sentAll,?_,?_⟩
      · intro i member
        rcases entries.2 i member with before | rfl
        · exact cameAll i before
        · exact List.mem_cons_self
      · intro k member
        rcases List.mem_append.mp member with left | before
        · obtain ⟨_,path,lower⟩ := left_below entries.1 left
          rw [path]
          exact Nat.lt_of_lt_of_le lower (le_floor List.mem_cons_self)
        · exact belowAll k before
  · rw [step,if_pos (Option.isSome_iff_ne_none.mpr opened)]
    exact tracked

theorem sound_step {conn : Connection} {issued : List IssuedCid} {s : State} {a : Arrival}
    (conforming : Conforming conn issued) (tracked : Tracked conn issued s) (sound : Sound s) (sent : a.frame ∈ issued) :
    Sound (step s a) ↔ OnTime s a ∧ HasRoom s a := by
  have ordered := conforming.ordered _ sent
  rcases step_cases conforming tracked sent sound.opened with ⟨member,same⟩ | ⟨absent,after,next,_,outcome⟩
  · rw [same]
    refine ⟨fun _ => ⟨sound.unretired _ member,.inl (List.mem_map_of_mem member)⟩,fun _ => ?_⟩
    refine ⟨sound.opened,fun i inside => ?_,sound.distinct,sound.gone⟩
    dsimp only
    rw [floor_again (tracked.came _ member)]
    exact sound.unretired i inside
  · rw [next]
    rcases outcome with ⟨full,closed,entries⟩ | ⟨room,opened,entries⟩
    · exact ⟨fun still => absurd still.opened closed,fun met => absurd met.2 full⟩
    · have mine : a.frame ∈ after.peerCids := by
        rw [entries]
        exact List.mem_append_right _ List.mem_cons_self
      refine ⟨fun still => ⟨Nat.le_trans (floor_mono _ _ _) (still.unretired _ mine),room⟩,fun met => ?_⟩
      have ids : held after = (s.conn.kept a.frame.pathId a.frame.retirePriorTo).map key++[key a.frame] := by
        unfold held
        rw [entries,List.map_append]
        rfl
      refine ⟨opened,fun i member => ?_,?_,fun k member => ?_⟩
      · have here : floor s.received i.pathId ≤ i.sequenceNumber ∧
            (i.pathId = a.frame.pathId → a.frame.retirePriorTo ≤ i.sequenceNumber) := by
          dsimp only at member
          rw [entries] at member
          rcases List.mem_append.mp member with before | new
          · obtain ⟨before,stays⟩ := mem_kept.mp before
            exact ⟨sound.unretired i before,stays⟩
          · cases List.mem_singleton.mp new
            exact ⟨met.1,fun _ => ordered⟩
        dsimp only
        rw [floor_cons]
        split
        · rename_i path
          exact Nat.max_le.mpr ⟨here.2 path.symm,here.1⟩
        · exact here.1
      · dsimp only
        rw [ids]
        refine List.nodup_append.mpr ⟨?_,List.nodup_singleton _,?_⟩
        · exact sound.distinct.sublist (List.Sublist.map key List.filter_sublist)
        · intro k before l new same
          cases List.mem_singleton.mp new
          exact absent (same ▸ (held_kept before).1)
      · dsimp only at member ⊢
        rcases List.mem_append.mp member with left | before
        · simpa using (List.mem_filter.mp left).2
        · rw [ids]
          intro back
          rcases List.mem_append.mp back with kept | new
          · exact sound.gone k before (held_kept kept).1
          · have lower := tracked.below k before
            cases List.mem_singleton.mp new
            exact absurd met.1 (Nat.not_le_of_lt lower)

theorem last_issued {frames issued : List IssuedCid} (inside : ∀ i ∈ frames, i ∈ issued) (some : frames ≠ []) :
    ∃ sent m, sent++[m] <+: issued ∧ m ∈ frames ∧ ∀ i ∈ frames, i ∈ sent++[m] := by
  induction issued using List.reverseRecOn with
  | nil =>
    obtain ⟨i,member⟩ := List.exists_mem_of_ne_nil _ some
    exact absurd (inside i member) List.not_mem_nil
  | append_singleton issued last ih =>
    by_cases member : last ∈ frames
    · exact ⟨issued,last,List.prefix_rfl,member,inside⟩
    · have earlier : ∀ i ∈ frames, i ∈ issued := by
        intro i here
        rcases List.mem_append.mp (inside i here) with before | final
        · exact before
        · cases List.mem_singleton.mp final
          exact absurd here member
      obtain ⟨sent,m,before,found,all⟩ := ih earlier
      exact ⟨sent,m,before.trans (List.prefix_append _ _),found,all⟩

/-- When each frame says what the peer has retired by then, one that is not late finds room: of the IDs that stay,
the one issued last counts them all. -/
theorem room_of_current {conn : Connection} {issued : List IssuedCid} {s : State} {a : Arrival}
    (conforming : Conforming conn issued) (current : Current issued) (tracked : Tracked conn issued s) (sound : Sound s)
    (sent : a.frame ∈ issued) (onTime : OnTime s a) : HasRoom s a := by
  by_cases here : key a.frame ∈ held s.conn
  · exact .inl here
  right
  have ordered := conforming.ordered _ sent
  let survivors := (s.conn.kept a.frame.pathId a.frame.retirePriorTo).filter (·.pathId = a.frame.pathId)
  have surviving : ∀ i ∈ survivors, i ∈ s.conn.peerCids ∧ i.pathId = a.frame.pathId ∧
      a.frame.retirePriorTo ≤ i.sequenceNumber := by
    intro i member
    obtain ⟨stays,path⟩ := List.mem_filter.mp member
    have path : i.pathId = a.frame.pathId := by simpa using path
    exact ⟨(mem_kept.mp stays).1,path,(mem_kept.mp stays).2 path⟩
  have inside : ∀ i ∈ survivors++[a.frame], i ∈ issued := by
    intro i member
    rcases List.mem_append.mp member with before | new
    · exact tracked.sent i (tracked.came i (surviving i before).1)
    · cases List.mem_singleton.mp new
      exact sent
  obtain ⟨log,m,issuedUpTo,member,all⟩ := last_issued inside (by simp)
  have path : m.pathId = a.frame.pathId := by
    rcases List.mem_append.mp member with before | new
    · exact (surviving m before).2.1
    · rw [List.mem_singleton.mp new]
  -- what the frame issued last retires, the others were spared by
  have spared : ∀ i ∈ survivors++[a.frame], m.retirePriorTo ≤ i.sequenceNumber := by
    intro i other
    rcases List.mem_append.mp member with before | new
    · have known := le_floor (tracked.came m (surviving m before).1)
      rcases List.mem_append.mp other with held | frame
      · have live := sound.unretired i (surviving i held).1
        rw [(surviving i held).2.1,← path] at live
        exact Nat.le_trans known live
      · rw [List.mem_singleton.mp frame]
        unfold OnTime at onTime
        rw [← path] at onTime
        exact Nat.le_trans known onTime
    · rw [List.mem_singleton.mp new]
      rcases List.mem_append.mp other with held | frame
      · exact (surviving i held).2.2
      · rw [List.mem_singleton.mp frame]
        exact ordered
  have counted : survivors++[a.frame] ⊆ unretired (log++[m]) a.frame.pathId := by
    intro i other
    refine List.mem_filter.mpr ⟨all i other,?_⟩
    have at_path : i.pathId = a.frame.pathId := by
      rcases List.mem_append.mp other with held | frame
      · exact (surviving i held).2.1
      · rw [List.mem_singleton.mp frame]
    have bound := current log m issuedUpTo
    rw [path] at bound
    simpa [at_path,← bound] using spared i other
  have distinct : (survivors++[a.frame]).Nodup := by
    have entries : survivors.Nodup := (sound.distinct.of_map key).sublist
      (List.filter_sublist.trans List.filter_sublist)
    refine List.nodup_append.mpr ⟨entries,List.nodup_singleton _,?_⟩
    intro i before j new same
    cases List.mem_singleton.mp new
    exact here (same ▸ List.mem_map_of_mem (surviving i before).1)
  have short := Nat.le_trans (distinct.subperm counted).length_le (conforming.within _ issuedUpTo a.frame.pathId)
  unfold cidActiveCountForPath
  rw [List.countP_eq_length_filter,limit_of_settings tracked.settings]
  rw [List.length_append,List.length_singleton] at short
  exact short

/-- However the frames of a conforming peer are ordered, delayed and repeated, the registry stays sound in every state
of the run just in case no frame comes for an ID that an earlier frame has retired, and each new ID finds room. The
second part holds of itself when each frame says what the peer has retired by then. -/
theorem registry_sound {conn : Connection} {issued : List IssuedCid} (conforming : Conforming conn issued)
    (empty : conn.peerCids = []) (opened : conn.pendingClose = none) (arrivals : List Arrival)
    (genuine : ∀ a ∈ arrivals, a.frame ∈ issued) :
    (System.Throughout Sound step ⟨conn,[],[]⟩ arrivals ↔
      System.Admits step (fun s a => OnTime s a ∧ HasRoom s a) ⟨conn,[],[]⟩ arrivals) ∧
    (Current issued →
      (System.Throughout Sound step ⟨conn,[],[]⟩ arrivals ↔ System.Admits step OnTime ⟨conn,[],[]⟩ arrivals)) := by
  have start : Tracked conn issued ⟨conn,[],[]⟩ :=
    ⟨rfl,by simp,by simp [empty],by simp⟩
  have good : Sound ⟨conn,[],[]⟩ := ⟨opened,by simp [empty],by simp [held,empty],by simp⟩
  have admitted : System.Admits step (fun _ a => a.frame ∈ issued) ⟨conn,[],[]⟩ arrivals :=
    System.Admits.of_forall genuine _
  refine ⟨?_,fun current => ?_⟩
  · exact System.throughout_iff (tracked_step conforming)
      (fun s a tracked sound sent => sound_step conforming tracked sound sent) start good admitted
  · refine System.throughout_iff (tracked_step conforming) (fun s a tracked sound sent => ?_) start good admitted
    rw [sound_step conforming tracked sound sent]
    exact ⟨fun met => met.1,fun met => ⟨met,room_of_current conforming current tracked sound sent met⟩⟩

def issue (sequenceNumber : Nat) (label : Byte) (retirePriorTo : Nat) : Frame.NewConnectionId :=
  {sequenceNumber := sequenceNumber,retirePriorTo := retirePriorTo,connectionId := {bytes := [label],short := Nat.le_of_ble_eq_true rfl},
   statelessResetToken := ⟨List.replicate 16 label,List.length_replicate⟩}

def client (limit : Nat) : Connection := {role := .client,paths := {primary := {id := 0}},activeConnectionIdLimit := limit}

/-- The frames arrive out of order, and one of them twice. -/
theorem registry_sound_reordered : System.Throughout Sound step ⟨client 3,[],[]⟩
    [.newConnectionId (issue 2 2 1),.newConnectionId (issue 1 1 0),.newConnectionId (issue 2 2 1)] :=
  ((@registry_sound (client 3)
    [(Arrival.newConnectionId (issue 1 1 0)).frame,(Arrival.newConnectionId (issue 2 2 1)).frame] ⟨by decide,by decide,by decide,by decide,fun _ before _ =>
      Nat.le_trans (Nat.le_trans (List.length_filter_le _ _) before.length_le) (by decide)⟩
    rfl rfl [.newConnectionId (issue 2 2 1),.newConnectionId (issue 1 1 0),.newConnectionId (issue 2 2 1)]
    (by decide)).1).mpr (by unfold OnTime HasRoom; decide)

/-- The first ID comes late, after the frames that retire it: it is taken for a new one, and over the limit. -/
theorem late_id_closes : ¬ ∀ (conn : Connection) (issued : List IssuedCid) (arrivals : List Arrival),
    Conforming conn issued → conn.peerCids = [] → conn.pendingClose = none → (∀ a ∈ arrivals, a.frame ∈ issued) →
    Sound (System.run step ⟨conn,[],[]⟩ arrivals) := by
  intro sound
  have late := sound (client 2)
    [(Arrival.newConnectionId (issue 1 1 0)).frame,(Arrival.newConnectionId (issue 2 2 2)).frame,
     (Arrival.newConnectionId (issue 3 3 2)).frame]
    [.newConnectionId (issue 2 2 2),.newConnectionId (issue 3 3 2),.newConnectionId (issue 1 1 0)]
    ⟨by decide,by decide,by decide,by decide,?_⟩ rfl rfl (by decide)
  · have closed := late.opened
    revert closed
    decide
  · intro sent before pathId
    by_cases primary : pathId = 0
    · subst primary
      have listed := (List.mem_inits _ _).mpr before
      clear before
      revert sent
      decide
    · have none : unretired sent pathId = [] := by
        refine List.filter_eq_nil_iff.mpr fun i member => ?_
        have inside := before.subset member
        have path : i.pathId = 0 := by
          clear member
          revert i
          decide
        simp [path,Ne.symm primary]
      rw [none]
      exact Nat.zero_le _

end QuicZig.Conn.PeerCidRun
