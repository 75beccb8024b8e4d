import QuicZig.Conn.LocalCidLive
import QuicZig.Server.Routing

/-! What bringing the table up to date does to one slot's entries, and what a datagram does to the IDs of its slot. -/
namespace QuicZig.Server.Routing
open Machine Codec Wire RetryGate
open Conn.LocalIds (LocalCids ConnectionIdProvision Registered)

theorem lookup_untrack (snapshot tracked : List ConnId) (table : Table) (cid : ConnId) :
    (untrack snapshot tracked table).lookup cid = if cid ∈ tracked ∧ cid ∉ snapshot then none else table.lookup cid := by
  have gone (l : List ConnId) (table : Table) : (l.foldl (fun table c => table.erase c) table).lookup cid =
      if cid ∈ l then none else table.lookup cid := by
    induction l generalizing table with
    | nil => simp
    | cons c rest ih =>
      rw [List.foldl_cons,ih]
      by_cases same : cid = c
      · subst same
        simp [Finmap.lookup_erase]
      · simp [Finmap.lookup_erase_ne same,same]
  unfold untrack
  rw [gone]
  simp

theorem track_spec {key : Nat} {snapshot : List ConnId} (tracked : List ConnId) {grows : Nat} {table : Table}
    (free : ∀ cid ∈ snapshot, ∀ owner, table.lookup cid = some owner → owner = key) (room : snapshot.length ≤ grows) :
    ∃ tracked' table', track key snapshot grows tracked table = (tracked',table',true) ∧
      (∀ cid, cid ∈ tracked' ↔ cid ∈ tracked ∨ cid ∈ snapshot) ∧
      ∀ cid, table'.lookup cid = if cid ∈ snapshot ∧ cid ∉ tracked then some key else table.lookup cid := by
  induction snapshot generalizing tracked grows table with
  | nil => exact ⟨tracked,table,rfl,by simp,by simp⟩
  | cons c rest ih =>
    have later : ∀ cid ∈ rest, ∀ owner, table.lookup cid = some owner → owner = key := fun cid there =>
      free cid (List.mem_cons_of_mem c there)
    have short : rest.length < grows := room
    unfold track
    by_cases known : c ∈ tracked
    · rw [if_pos known]
      obtain ⟨tracked',table',made,members,entries⟩ := ih tracked later short.le
      refine ⟨tracked',table',made,fun cid => ?_,fun cid => ?_⟩
      · rw [members,List.mem_cons]
        constructor
        · exact Or.imp_right Or.inr
        · rintro (there | rfl | there)
          · exact .inl there
          · exact .inl known
          · exact .inr there
      · rw [entries]
        by_cases same : cid = c
        · subst same
          simp [known]
        · simp [same]
    · rw [if_neg known]
      split
      · rename_i owner here
        have own := free c List.mem_cons_self owner here
        rw [if_pos own]
        obtain ⟨tracked',table',made,members,entries⟩ := ih (tracked ++ [c]) later short.le
        refine ⟨tracked',table',made,fun cid => ?_,fun cid => ?_⟩
        · rw [members]
          simp [or_assoc]
        · rw [entries]
          by_cases same : cid = c
          · subst same
            simp [known,here,own]
          · simp [same]
      · rename_i absent
        obtain ⟨more,rfl⟩ : ∃ more, grows = more+1 := ⟨grows-1,by omega⟩
        dsimp only
        have after : ∀ cid ∈ rest, ∀ owner, (table.insert c key).lookup cid = some owner → owner = key := by
          intro cid there owner here
          by_cases same : cid = c
          · subst same
            rw [Finmap.lookup_insert] at here
            exact (Option.some.inj here).symm
          · rw [Finmap.lookup_insert_of_ne _ same] at here
            exact later cid there owner here
        obtain ⟨tracked',table',made,members,entries⟩ := ih (tracked ++ [c]) after (Nat.le_of_lt_succ short)
        refine ⟨tracked',table',made,fun cid => ?_,fun cid => ?_⟩
        · rw [members]
          simp [or_assoc]
        · rw [entries]
          by_cases same : cid = c
          · subst same
            simp [known,Finmap.lookup_insert]
          · simp [same,Finmap.lookup_insert_of_ne _ same]

namespace Slot

/-- The IDs of the connection fit the buffer, so that the snapshot has all of them. -/
theorem mem_snapshot {slot : Slot} {retired : List Nat} (registered : Registered slot.conn retired) (cid : ConnId) :
    cid ∈ slot.snapshot ↔ ∃ item ∈ slot.conn.localCids, item.cid = cid := by
  have few : slot.conn.localCids.length ≤ maxTrackedCidsPerSlot := by
    have all : Conn.Paths.cidActiveCountForPath slot.conn.localCids 0 = slot.conn.localCids.length := by
      unfold Conn.Paths.cidActiveCountForPath
      rw [List.countP_eq_length]
      exact fun item there => decide_eq_true (registered.first _ (registered.sound.live item there))
    have room := registered.sound.room 0
    have limit : slot.conn.peerLimit ≤ 16 := by
      unfold LocalCids.peerLimit
      split
      · decide
      · exact Nat.min_le_right _ _
    unfold maxTrackedCidsPerSlot
    omega
  unfold snapshot
  rw [List.take_of_length_le few,List.mem_map]

theorem snapshot_length (slot : Slot) : slot.snapshot.length ≤ maxTrackedCidsPerSlot := by
  unfold snapshot
  rw [List.length_map]
  exact List.length_take_le _ _

end Slot

/-- With all IDs of the slot free or its own, and room for new entries, the slot routes these and no more of its old ones. -/
theorem resync_spec {grows : Nat} {table : Table} {slot : Slot}
    (free : ∀ cid ∈ slot.snapshot, ∀ owner, table.lookup cid = some owner → owner = slot.key)
    (routed : ∀ cid ∈ slot.trackedCids, table.lookup cid = some slot.key) (room : maxTrackedCidsPerSlot ≤ grows) :
    ∃ tracked table', resyncSlotCids grows table slot = ({slot with trackedCids := tracked},table',true) ∧
      (∀ cid, cid ∈ tracked ↔ cid ∈ slot.snapshot) ∧
      ∀ cid, table'.lookup cid = if cid ∈ slot.snapshot then some slot.key
        else if cid ∈ slot.trackedCids then none else table.lookup cid := by
  have stillFree : ∀ cid ∈ slot.snapshot, ∀ owner,
      (untrack slot.snapshot slot.trackedCids table).lookup cid = some owner → owner = slot.key := by
    intro cid there owner here
    rw [lookup_untrack,if_neg fun gone => gone.2 there] at here
    exact free cid there owner here
  obtain ⟨tracked,table',made,members,entries⟩ :=
    track_spec (slot.trackedCids.filter (· ∈ slot.snapshot)) stillFree (slot.snapshot_length.trans room)
  refine ⟨tracked,table',?_,fun cid => ?_,fun cid => ?_⟩
  · unfold resyncSlotCids
    dsimp only
    rw [made]
  · rw [members]
    simp
  · rw [entries,lookup_untrack]
    by_cases there : cid ∈ slot.snapshot
    · by_cases known : cid ∈ slot.trackedCids
      · simp [there,known,routed cid known]
      · simp [there,known]
    · simp [there]

theorem lookup_drop (slot : Slot) (table : Table) (cid : ConnId) : (dropAllCidsFromTable slot table).lookup cid =
    if (cid = slot.initialDcid ∨ cid ∈ slot.trackedCids) ∧ table.lookup cid =
    some slot.key then none else table.lookup cid := by
  have gone (l : List ConnId) (table : Table) : (l.foldl (removeCidIfOwnedBy slot.key) table).lookup cid =
      if cid ∈ l ∧ table.lookup cid = some slot.key then none else table.lookup cid := by
    induction l generalizing table with
    | nil => simp
    | cons c rest ih =>
      have one : (removeCidIfOwnedBy slot.key table c).lookup cid =
          if cid = c ∧ table.lookup cid = some slot.key then none else table.lookup cid := by
        unfold removeCidIfOwnedBy
        by_cases same : cid = c
        · subst same
          split_ifs <;> simp_all [Finmap.lookup_erase]
        · split_ifs <;> simp_all [Finmap.lookup_erase_ne same]
      rw [List.foldl_cons,ih,one]
      by_cases same : cid = c
      · subst same
        by_cases own : table.lookup cid = some slot.key <;> simp [own]
      · simp [same]
  unfold dropAllCidsFromTable
  rw [gone]
  simp

def Frame.limit : Frame → Option Nat
  | .peerParams activeConnectionIdLimit => some activeConnectionIdLimit
  | .retireConnectionId _ => none

/-- The peer names one limit, and none below the one that has been assumed. -/
def ParamsFit (assumed : Nat) (frames : List Frame) : Prop :=
  ∀ frame ∈ frames, ∀ limit ∈ frame.limit, assumed ≤ min limit Conn.LocalIds.maxSupportedActiveConnectionIdLimit ∧
    ∀ again ∈ frames, ∀ other ∈ again.limit, other = limit

instance (assumed : Nat) (frames : List Frame) : Decidable (ParamsFit assumed frames) :=
  inferInstanceAs (Decidable (∀ frame ∈ frames,_))

/-- A call about one slot that issues no ID. -/
structure Slot.Shrinks (slot after : Slot) : Prop where
  registered : Registered after.conn after.retired
  live : ∀ item ∈ after.conn.localCids, item ∈ slot.conn.localCids
  issued : after.conn.issued = slot.conn.issued
  key : after.key = slot.key
  initialDcid : after.initialDcid = slot.initialDcid
  trackedCids : after.trackedCids = slot.trackedCids

theorem Slot.Shrinks.trans {slot middle after : Slot} (one : slot.Shrinks middle) (two : middle.Shrinks after) :
    slot.Shrinks after :=
  ⟨two.registered,fun item there => one.live item (two.live item there),two.issued.trans one.issued,two.key.trans one.key,
    two.initialDcid.trans one.initialDcid,two.trackedCids.trans one.trackedCids⟩

namespace Slot

theorem take_shrinks {slot : Slot} (registered : Registered slot.conn slot.retired) (frame : Frame)
    (fits : ∀ limit, frame = .peerParams limit →
      slot.conn.peerLimit ≤ min limit Conn.LocalIds.maxSupportedActiveConnectionIdLimit) : slot.Shrinks
      (slot.take frame) := by
  cases frame with
  | retireConnectionId sequenceNumber =>
    obtain ⟨after,live⟩ := Conn.LocalIds.LocalCids.Registered.retire registered sequenceNumber
    exact ⟨after,live,(Conn.LocalIds.LocalCids.same_handleRetire _ _).issued,rfl,rfl,rfl⟩
  | peerParams limit =>
    exact ⟨Conn.LocalIds.LocalCids.Registered.peerParams registered (fits limit rfl),fun _ there => there,rfl,rfl,rfl,rfl⟩

theorem takes_shrinks {frames : List Frame} {slot : Slot} (registered : Registered slot.conn slot.retired)
    (fits : ParamsFit slot.conn.peerLimit frames) : slot.Shrinks (frames.foldl take slot) := by
  induction frames generalizing slot with
  | nil => exact ⟨registered,fun _ there => there,rfl,rfl,rfl,rfl⟩
  | cons frame rest ih =>
    have one := take_shrinks registered frame fun limit same => (fits frame List.mem_cons_self limit (same ▸ rfl)).1
    refine one.trans (ih one.registered fun later there limit own => ?_)
    obtain ⟨more,others⟩ := fits later (List.mem_cons_of_mem _ there) limit own
    refine ⟨?_,fun again inside => others again (List.mem_cons_of_mem _ inside)⟩
    cases frame with
    | retireConnectionId sequenceNumber =>
      exact (Conn.LocalIds.LocalCids.same_handleRetire slot.conn sequenceNumber).limit.trans_le more
    | peerParams first =>
      rw [← others (.peerParams first) List.mem_cons_self first rfl]
      exact Nat.le_refl _

theorem dispatch_shrinks {slot : Slot} (registered : Registered slot.conn slot.retired) (dcid : Option (List Byte))
    {handled : Handled} (fits : ParamsFit slot.conn.peerLimit handled.frames) :
    slot.Shrinks (slot.dispatch dcid handled) := by
  have opened : slot.Shrinks (slot.incoming (dcid.bind slot.conn.findLocalCid)) :=
    ⟨Conn.LocalIds.LocalCids.Registered.quiet registered 0 _,fun _ there => there,rfl,rfl,rfl,rfl⟩
  have taken := opened.trans (takes_shrinks opened.registered fits)
  exact taken.trans ⟨Conn.LocalIds.LocalCids.Registered.quiet taken.registered _ none,fun _ there => there,rfl,rfl,rfl,rfl⟩

end Slot

end QuicZig.Server.Routing
