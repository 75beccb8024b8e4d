import QuicZig.Frame.Types
import QuicZig.Library.FirstMatch
import QuicZig.Machine

/-! The lists of streams that are blocked on flow control: the ones this endpoint cannot
send on, the ones the peer says it cannot, and the STREAM_DATA_BLOCKED frames to send. -/
namespace QuicZig.Conn
open Machine

namespace BlockedStreams

inductive Error where
  | streamLimitExceeded | outOfMemory
  deriving DecidableEq, Repr

def maxTrackedStreamDataBlocked : Nat := 8192

abbrev Entries := List Frame.StreamDataBlocked

def ids (list : Entries) : List Nat := list.map (·.streamId)

def findStreamBlocked (list : Entries) (streamId : Nat) : Option Frame.StreamDataBlocked := list.find? (·.streamId = streamId)

/-- `true` when the list changed. -/
def upsertStreamBlocked (granted : Bool) (list : Entries) (item : Frame.StreamDataBlocked) : Except Error Bool × Entries :=
  match findStreamBlocked list item.streamId with
  | some old =>
    if old.maximumStreamData = item.maximumStreamData then (.ok false,list)
    else (.ok true,FirstMatch.update (·.streamId = item.streamId)
      (fun entry => {entry with maximumStreamData := item.maximumStreamData}) list)
  | none =>
    if list.length ≥ maxTrackedStreamDataBlocked then (.error .streamLimitExceeded,list)
    else if !granted then (.error .outOfMemory,list)
    else (.ok true,list ++ [item])

def clearStreamBlocked (list : Entries) (streamId newLimit : Nat) : Entries :=
  match findStreamBlocked list streamId with
  | none => list
  | some old => if newLimit > old.maximumStreamData then list.eraseP (·.streamId = streamId) else list

end BlockedStreams

structure BlockedStreams where
  localStreamDataBlocked : BlockedStreams.Entries := []
  peerStreamDataBlocked : BlockedStreams.Entries := []
  pendingStreamDataBlocked : BlockedStreams.Entries := []
  deriving DecidableEq, Repr

namespace BlockedStreams

/-- Request 0 is for the pending list, 1 for the list of this endpoint. The room is there when the frame is queued. -/
def noteStreamDataBlocked (grants : Allocator) (b : BlockedStreams) (item : Frame.StreamDataBlocked) :
    Except Error Unit × BlockedStreams :=
  let queued := findStreamBlocked b.pendingStreamDataBlocked item.streamId
  if queued = none ∧ b.pendingStreamDataBlocked.length ≥ maxTrackedStreamDataBlocked then (.error .streamLimitExceeded,b)
  else if queued = none ∧ grants 0 = false then (.error .outOfMemory,b)
  else
    match upsertStreamBlocked (grants 1) b.localStreamDataBlocked item with
    | (.error e,_) => (.error e,b)
    | (.ok changed,list) =>
      (.ok (),{b with
        localStreamDataBlocked := list
        pendingStreamDataBlocked :=
          if changed then (upsertStreamBlocked true b.pendingStreamDataBlocked item).2 else b.pendingStreamDataBlocked})

/-- A packet with the frame was lost. `true` when it is queued again. -/
def requeueStreamDataBlocked (granted : Bool) (b : BlockedStreams) (item : Frame.StreamDataBlocked) :
    Except Error Bool × BlockedStreams :=
  match findStreamBlocked b.localStreamDataBlocked item.streamId with
  | none => (.ok false,b)
  | some noted =>
    if noted.maximumStreamData ≠ item.maximumStreamData then (.ok false,b)
    else
      let (result,list) := upsertStreamBlocked granted b.pendingStreamDataBlocked item
      (result.map fun _ => true,{b with pendingStreamDataBlocked := list})

def clearLocalStreamDataBlocked (b : BlockedStreams) (streamId newLimit : Nat) : BlockedStreams :=
  {b with
    localStreamDataBlocked := clearStreamBlocked b.localStreamDataBlocked streamId newLimit
    pendingStreamDataBlocked := clearStreamBlocked b.pendingStreamDataBlocked streamId newLimit}

theorem find_none {list : Entries} {streamId : Nat} : findStreamBlocked list streamId = none ↔ streamId ∉ ids list := by
  unfold findStreamBlocked ids
  rw [List.find?_eq_none]
  constructor
  · intro absent member
    obtain ⟨entry,there,rfl⟩ := List.mem_map.mp member
    exact absent entry there (by simp)
  · intro absent entry there named
    have named' : entry.streamId = streamId := by simpa using named
    exact absent (named' ▸ List.mem_map.mpr ⟨entry,there,rfl⟩)

theorem upsert_spec (granted : Bool) (list : Entries) (item : Frame.StreamDataBlocked) :
    match upsertStreamBlocked granted list item with
    | (.ok _,after) => ids after = if item.streamId ∈ ids list then ids list else ids list ++ [item.streamId]
    | (.error .streamLimitExceeded,after) => after = list ∧ item.streamId ∉ ids list ∧ maxTrackedStreamDataBlocked ≤ list.length
    | (.error .outOfMemory,after) =>
      after = list ∧ item.streamId ∉ ids list ∧ list.length < maxTrackedStreamDataBlocked ∧ granted = false := by
  unfold upsertStreamBlocked
  cases found : findStreamBlocked list item.streamId with
  | some old =>
    have member : item.streamId ∈ ids list := by
      by_contra absent
      rw [find_none.mpr absent] at found
      cases found
    dsimp only
    split_ifs
    · exact rfl
    · refine FirstMatch.map_update ?_ list
      exact fun _ => rfl
  | none =>
    have absent := find_none.mp found
    dsimp only
    split_ifs with full refused
    · exact ⟨rfl,absent,full⟩
    · exact ⟨rfl,absent,not_le.mp full,by simpa using refused⟩
    · exact List.map_append

theorem upsert_mem {granted : Bool} {list after : Entries} {item : Frame.StreamDataBlocked} {result : Except Error Bool}
    (outcome : upsertStreamBlocked granted list item = (result,after)) {id : Nat} (member : id ∈ ids after) :
    id ∈ ids list ∨ id = item.streamId := by
  have spec := upsert_spec granted list item
  rw [outcome] at spec
  cases result with
  | ok _ =>
    dsimp only at spec
    rw [spec] at member
    split at member
    · exact .inl member
    · rcases List.mem_append.mp member with old | last
      · exact .inl old
      · exact .inr (List.mem_singleton.mp last)
  | error e =>
    cases e with
    | streamLimitExceeded => exact .inl (spec.1 ▸ member)
    | outOfMemory => exact .inl (spec.1 ▸ member)

theorem upsert_nodup {granted : Bool} {list after : Entries} {item : Frame.StreamDataBlocked} {result : Except Error Bool}
    (outcome : upsertStreamBlocked granted list item = (result,after)) (once : (ids list).Nodup) : (ids after).Nodup := by
  have spec := upsert_spec granted list item
  rw [outcome] at spec
  cases result with
  | ok _ =>
    dsimp only at spec
    rw [spec]
    split
    · exact once
    · rename_i absent
      refine List.nodup_append.mpr ⟨once,List.nodup_singleton _,fun a old b last same => absent ?_⟩
      rw [List.mem_singleton.mp last] at same
      exact same ▸ old
  | error e =>
    cases e with
    | streamLimitExceeded => exact spec.1 ▸ once
    | outOfMemory => exact spec.1 ▸ once

theorem clear_sublist (list : Entries) (streamId newLimit : Nat) :
    (ids (clearStreamBlocked list streamId newLimit)).Sublist (ids list) := by
  unfold clearStreamBlocked
  split
  · exact .refl _
  · split
    · exact List.eraseP_sublist.map _
    · exact .refl _

/-- A note names one stream more at the most, in the list of this endpoint. -/
theorem note_spec (grants : Allocator) (b : BlockedStreams) (item : Frame.StreamDataBlocked) :
    match b.noteStreamDataBlocked grants item with
    | (result,after) =>
      after.peerStreamDataBlocked = b.peerStreamDataBlocked ∧
        (∀ id ∈ ids after.localStreamDataBlocked, id ∈ ids b.localStreamDataBlocked ∨ id = item.streamId) ∧
        ((ids b.localStreamDataBlocked).Nodup → (ids after.localStreamDataBlocked).Nodup) ∧
        (result = .error .streamLimitExceeded → after = b ∧
          (item.streamId ∉ ids b.localStreamDataBlocked ∧ maxTrackedStreamDataBlocked ≤ b.localStreamDataBlocked.length ∨
            item.streamId ∉ ids b.pendingStreamDataBlocked ∧
              maxTrackedStreamDataBlocked ≤ b.pendingStreamDataBlocked.length)) := by
  unfold noteStreamDataBlocked
  dsimp only
  split_ifs with full refused
  · exact ⟨rfl,fun _ => .inl,id,fun _ => ⟨rfl,.inr ⟨find_none.mp full.1,full.2⟩⟩⟩
  · exact ⟨rfl,fun _ => .inl,id,fun other => by cases other⟩
  · have spec := upsert_spec (grants 1) b.localStreamDataBlocked item
    rcases outcome : upsertStreamBlocked (grants 1) b.localStreamDataBlocked item with ⟨result,list⟩
    rw [outcome] at spec
    cases result with
    | ok changed => exact ⟨rfl,fun _ => upsert_mem outcome,upsert_nodup outcome,fun other => by cases other⟩
    | error e =>
      refine ⟨rfl,fun _ => .inl,id,fun same => ⟨rfl,.inl ?_⟩⟩
      cases e with
      | streamLimitExceeded => exact ⟨spec.2.1,spec.2.2⟩
      | outOfMemory => cases same

end BlockedStreams
end QuicZig.Conn
