import QuicZig.Conn.LocalCids
import QuicZig.Library.System

/-! Runs of issuing and retiring local connection IDs. A number given out is never given out
for another ID as long as the marks of the paths see every ID that was issued. -/
namespace QuicZig.Conn.LocalIds
open Machine Codec Wire QuicZig.System
open Paths (IssuedCid)

/-- `lost` names a frame that some packet has carried; `datagram` is the entry of `handle`, with the ID that the datagram
was sent to where the server tells it. -/
inductive Event where
  | setLocalScid (cid : List Byte)
  | openPath (localCid peerCid : ConnId)
  | replenish (provisions : List ConnectionIdProvision)
  | replenishPath (pathId : Nat) (provisions : List ConnectionIdProvision)
  | retire (sequenceNumber : Nat)
  | pathRetire (pathId sequenceNumber : Nat)
  | pathCidsBlocked (pathId next : Nat)
  | pack (onFirstPath : Bool)
  | lost (index : Nat)
  | datagram (dcid : Option (List Byte))
  | peerParams (limit : Nat) (maxPathId : Option Nat)
  | queueMaxPathId (maximum : Nat)
  | maxPathId (maximum : Nat)
  deriving DecidableEq, Repr

/-- A call that fails as a whole changes nothing. -/
def kept (conn : LocalCids) (result : Except CidError LocalCids) : LocalCids :=
  match result with
  | .ok conn => conn
  | .error _ => conn

def step (s : LocalCids) : Event → LocalCids
  | .setLocalScid cid => (s.setLocalScid cid).2
  | .openPath localCid peerCid => kept s (s.openPath localCid peerCid)
  | .replenish provisions => (s.replenishConnectionIds provisions).2
  | .replenishPath pathId provisions => (s.replenishPathConnectionIds pathId provisions).2
  | .retire sequenceNumber => s.handleRetireConnectionId sequenceNumber
  | .pathRetire pathId sequenceNumber => s.handlePathRetireConnectionId pathId sequenceNumber
  | .pathCidsBlocked pathId next => s.handlePathCidsBlocked pathId next
  | .pack onFirstPath => s.packNewConnectionId onFirstPath
  | .lost index =>
    match s.sentNewConnectionIds[index]? with
    | none => s
    | some frame => kept s (s.requeueLost frame)
  | .datagram dcid => {s with incomingRetireCidCount := 0,incomingLocalCid := dcid.bind s.findLocalCid}
  | .peerParams limit maxPathId =>
    {s with
      peerActiveConnectionIdLimit := some limit
      peerMaxPathId := maxPathId.getD s.peerMaxPathId
      multipathNegotiated := s.multipathNegotiated || maxPathId.isSome}
  | .queueMaxPathId maximum => {s with localMaxPathId := max s.localMaxPathId maximum}
  | .maxPathId maximum => {s with peerMaxPathId := max s.peerMaxPathId maximum}

/-- The peer's transport parameters do not change, and their decoder lets no smaller limit through. -/
def Allowed (s : LocalCids) : Event → Prop
  | .peerParams limit _ => 2 ≤ limit ∧ ∀ before ∈ s.peerActiveConnectionIdLimit, before = limit
  | _ => True

/-- Each ID gets into the registry: it is not empty, and it asks to retire none above itself. -/
def Proper (next : Nat) : List ConnectionIdProvision → Prop
  | [] => True
  | provision::rest => provision.connectionId ≠ [] ∧ provision.retirePriorTo ≤ next ∧ Proper (next+1) rest

instance decidableProper (next : Nat) (provisions : List ConnectionIdProvision) : Decidable (Proper next provisions) :=
  match provisions with
  | [] => isTrue trivial
  | provision::rest =>
    have := decidableProper (next+1) rest
    inferInstanceAs (Decidable (provision.connectionId ≠ [] ∧ provision.retirePriorTo ≤ next ∧ Proper (next+1) rest))

/-- The newest ID ever issued on the path has not been retired. -/
def NewestLive (s : LocalCids) (pathId : Nat) : Prop :=
  ∀ a ∈ s.issued, a.pathId = pathId → ∃ item ∈ s.localCids, item.pathId = pathId ∧ a.sequenceNumber ≤ item.sequenceNumber

instance (s : LocalCids) (pathId : Nat) : Decidable (NewestLive s pathId) :=
  inferInstanceAs (Decidable (∀ a ∈ s.issued, a.pathId = pathId →
    ∃ item ∈ s.localCids, item.pathId = pathId ∧ a.sequenceNumber ≤ item.sequenceNumber))

/-- The marks see what was issued: no path is opened over IDs that were issued ahead of it, none is issued ahead on a path
whose newest one is gone, and the first ID of the connection is not replaced once it is gone. And no ID is retired in a
datagram that was sent to the ID of the same number on another path. -/
def Careful (s : LocalCids) : Event → Prop
  | .setLocalScid cid => cid = [] ∨ s.localCidSequenceExists 0 0 ∨ ∀ a ∈ s.issued, a.pathId = 0 → a.sequenceNumber ≠ 0
  | .openPath _ _ => ∀ a ∈ s.issued, a.pathId ≠ s.nextPathId
  | .replenish provisions => Proper (s.nextLocalCidSequence 0) provisions
  | .replenishPath pathId provisions =>
    Proper (s.nextLocalCidSequence pathId) provisions ∧ ((s.getPath pathId).isSome ∨ NewestLive s pathId)
  | .retire sequenceNumber => ∀ item ∈ s.incomingLocalCid, item.sequenceNumber = sequenceNumber → item.pathId = 0
  | _ => True

instance (s : LocalCids) (event : Event) : Decidable (Allowed s event) := by
  cases event <;> unfold Allowed <;> infer_instance

instance (s : LocalCids) (event : Event) : Decidable (Careful s event) := by
  cases event <;> unfold Careful <;> infer_instance

/-- What the peer can rely on. -/
structure Good (s : LocalCids) : Prop where
  single : ∀ a ∈ s.issued, ∀ b ∈ s.issued, a.pathId = b.pathId → a.sequenceNumber = b.sequenceNumber → a.cid = b.cid
  gapless : ∀ a ∈ s.issued, ∀ k < a.sequenceNumber, ∃ b ∈ s.issued, b.pathId = a.pathId ∧ b.sequenceNumber = k
  consecutive : ∀ pathId, (s.chosen pathId).IsChain fun newer older => newer = older+1
  room : ∀ pathId, Paths.cidActiveCountForPath s.localCids pathId ≤ s.peerLimit

/-- The ID was really issued. -/
def Given (s : LocalCids) (pathId sequenceNumber : Nat) : Prop :=
  ∃ a ∈ s.issued, a.pathId = pathId ∧ a.sequenceNumber = sequenceNumber

/-- A conforming peer that retires an ID does not close the connection. It retires no more than a few in a datagram, and
not the one that the datagram was sent to. -/
def Retirable (s : LocalCids) (event : Event) : Prop :=
  match event with
  | .retire sequenceNumber => Given s 0 sequenceNumber → s.incomingRetireCidCount < incomingRetireCidCap →
      (∀ item ∈ s.incomingLocalCid, ¬(item.pathId = 0 ∧ item.sequenceNumber = sequenceNumber)) →
      (step s event).pendingClose = s.pendingClose
  | .pathRetire pathId sequenceNumber => Given s pathId sequenceNumber → (step s event).pendingClose = s.pendingClose
  | _ => True

namespace LocalCids

/-- One past the highest number that an open path has seen. -/
def mark (s : LocalCids) (pathId : Nat) : Option Nat := (s.getPath pathId).map (·.nextLocalCidSeq)

theorem getPath_updatePath (s : LocalCids) (pathId other : Nat) {f : LocalPath → LocalPath} (same : ∀ p, (f p).id = p.id) :
    (s.updatePath pathId f).getPath other = (s.getPath other).map fun p => if other = pathId then f p else p := by
  unfold getPath updatePath
  dsimp only
  induction s.paths with
  | nil => rfl
  | cons p rest ih =>
    have id : (if p.id = pathId then f p else p).id = p.id := by
      split_ifs
      · exact same p
      · rfl
    rw [List.map_cons,List.find?_cons,List.find?_cons,id]
    by_cases here : p.id = other
    · rw [decide_eq_true here]
      subst here
      rfl
    · rw [decide_eq_false here]
      exact ih

theorem mark_updatePath (s : LocalCids) (pathId other : Nat) {f : LocalPath → LocalPath} (same : ∀ p, (f p).id = p.id)
    (level : ∀ p, (f p).nextLocalCidSeq = p.nextLocalCidSeq) : (s.updatePath pathId f).mark other = s.mark other := by
  unfold mark
  rw [getPath_updatePath s pathId other same,Option.map_map]
  congr 1
  funext p
  show (if other = pathId then f p else p).nextLocalCidSeq = p.nextLocalCidSeq
  split_ifs
  · exact level p
  · rfl

/-- The frame is queued, or a packet has carried it. -/
def Waits (s : LocalCids) (item : IssuedCid) : Prop :=
  item ∈ s.newConnectionIds ∨ item ∈ s.pathNewConnectionIds ∨ item ∈ s.sentNewConnectionIds

/-- A number that is next on the path: above all that were issued there, and right after one of them. -/
def Next (s : LocalCids) (pathId seq : Nat) : Prop :=
  (∀ a ∈ s.issued, a.pathId = pathId → a.sequenceNumber < seq) ∧
    (seq = 0 ∨ ∃ a ∈ s.issued, a.pathId = pathId ∧ a.sequenceNumber+1 = seq)

end LocalCids

structure Sound (s : LocalCids) : Prop where
  live : ∀ item ∈ s.localCids, issuedAs item ∈ s.issued
  waiting : ∀ item, s.Waits item → issuedAs item ∈ s.issued
  single : ∀ a ∈ s.issued, ∀ b ∈ s.issued, a.pathId = b.pathId → a.sequenceNumber = b.sequenceNumber → a.cid = b.cid
  gapless : ∀ a ∈ s.issued, ∀ k < a.sequenceNumber, ∃ b ∈ s.issued, b.pathId = a.pathId ∧ b.sequenceNumber = k
  first : (s.mark 0).isSome
  below : ∀ p ∈ s.paths, p.id < s.nextPathId
  marked : ∀ pathId m, s.mark pathId = some m → s.Next pathId m
  consecutive : ∀ pathId, (s.chosen pathId).IsChain fun newer older => newer = older+1
  newest : ∀ pathId c rest, s.chosen pathId = c::rest → s.Next pathId (c+1)
  room : ∀ pathId, Paths.cidActiveCountForPath s.localCids pathId ≤ s.peerLimit
  limit : 2 ≤ s.peerLimit

/-- A change that issues nothing. -/
structure Same (s t : LocalCids) : Prop where
  issued : t.issued = s.issued
  chosen : t.chosen = s.chosen
  mark : ∀ pathId, t.mark pathId = s.mark pathId
  below : (∀ p ∈ s.paths, p.id < s.nextPathId) → ∀ p ∈ t.paths, p.id < t.nextPathId
  limit : t.peerLimit = s.peerLimit
  waiting : ∀ item, t.Waits item → s.Waits item
  live : t.localCids.Sublist s.localCids

theorem Same.refl (s : LocalCids) : Same s s := ⟨rfl,rfl,fun _ => rfl,id,rfl,fun _ => id,List.Sublist.refl _⟩

theorem Same.trans {s t u : LocalCids} (one : Same s t) (two : Same t u) : Same s u :=
  ⟨two.issued.trans one.issued,two.chosen.trans one.chosen,fun p => (two.mark p).trans (one.mark p),two.below ∘ one.below,
    two.limit.trans one.limit,fun item waits => one.waiting item (two.waiting item waits),two.live.trans one.live⟩

theorem next_same {s t : LocalCids} (same : t.issued = s.issued) {pathId seq : Nat} (next : s.Next pathId seq) : t.Next pathId seq := by
  unfold LocalCids.Next
  rw [same]
  exact next

theorem Sound.same {s t : LocalCids} (sound : Sound s) (same : Same s t) : Sound t := by
  refine ⟨?_,?_,?_,?_,?_,same.below sound.below,?_,?_,?_,?_,?_⟩
  · rw [same.issued]
    exact fun item there => sound.live item (same.live.subset there)
  · rw [same.issued]
    exact fun item waits => sound.waiting item (same.waiting item waits)
  · rw [same.issued]
    exact sound.single
  · rw [same.issued]
    exact sound.gapless
  · rw [same.mark]
    exact sound.first
  · intro pathId m marked
    rw [same.mark] at marked
    exact next_same same.issued (sound.marked pathId m marked)
  · rw [same.chosen]
    exact sound.consecutive
  · intro pathId c rest picked
    rw [same.chosen] at picked
    exact next_same same.issued (sound.newest pathId c rest picked)
  · intro pathId
    rw [same.limit]
    exact (same.live.countP_le).trans (sound.room pathId)
  · rw [same.limit]
    exact sound.limit

namespace LocalCids

theorem same_updatePath (s : LocalCids) (pathId : Nat) {f : LocalPath → LocalPath} (same : ∀ p, (f p).id = p.id)
    (level : ∀ p, (f p).nextLocalCidSeq = p.nextLocalCidSeq) : Same s (s.updatePath pathId f) := by
  refine ⟨rfl,rfl,fun other => mark_updatePath s pathId other same level,?_,rfl,fun _ => id,List.Sublist.refl _⟩
  intro below p there
  obtain ⟨q,inside,rfl⟩ := List.mem_map.mp there
  have id : (if q.id = pathId then f q else q).id = q.id := by
    split_ifs
    · exact same q
    · rfl
  rw [id]
  exact below q inside

theorem same_promote (s : LocalCids) (pathId : Nat) : Same s (s.promoteLocalCidForPath pathId) := by
  unfold promoteLocalCidForPath
  cases s.getPath pathId with
  | none => exact Same.refl s
  | some _ =>
    dsimp only
    have updated := s.same_updatePath pathId (f := ({· with localCid := (Paths.firstCidForPath s.localCids pathId).getD {}}))
      (fun _ => rfl) (fun _ => rfl)
    split_ifs
    · exact updated.trans ⟨rfl,rfl,fun _ => rfl,id,rfl,fun _ => id,List.Sublist.refl _⟩
    · exact updated

theorem same_filter (s : LocalCids) {live : List IssuedCid} (fewer : live.Sublist s.localCids) : Same s {s with localCids := live} :=
  ⟨rfl,rfl,fun _ => rfl,id,rfl,fun _ => id,fewer⟩

theorem same_retirePriorTo (s : LocalCids) (pathId retirePriorTo : Nat) : Same s (s.retireLocalCidsPriorTo pathId retirePriorTo) :=
  (s.same_filter List.filter_sublist).trans (same_promote _ pathId)

theorem same_retire (s : LocalCids) (pathId sequenceNumber : Nat) : Same s (s.retireLocalCid pathId sequenceNumber) := by
  have fewer := @same_filter s (s.localCids.filter fun item => !holds pathId sequenceNumber item) List.filter_sublist
  unfold retireLocalCid
  dsimp only
  split
  · split_ifs
    · exact fewer.trans (same_promote _ pathId)
    · exact fewer
  · exact fewer

theorem same_close (s : LocalCids) (errorCode : Nat) (reason : String) : Same s (s.close errorCode reason) :=
  ⟨rfl,rfl,fun _ => rfl,id,rfl,fun _ => id,List.Sublist.refl _⟩

theorem same_drop (s : LocalCids) (pathId sequenceNumber : Nat) : Same s (s.dropPendingLocalCidAdvertisement pathId sequenceNumber) := by
  unfold dropPendingLocalCidAdvertisement
  split_ifs
  · refine ⟨rfl,rfl,fun _ => rfl,id,rfl,fun item waits => ?_,List.Sublist.refl _⟩
    exact waits.imp_left fun there => (List.mem_filter.mp there).1
  · refine ⟨rfl,rfl,fun _ => rfl,id,rfl,fun item waits => ?_,List.Sublist.refl _⟩
    exact waits.imp_right (Or.imp_left fun there => (List.mem_filter.mp there).1)

theorem same_pack (s : LocalCids) (onFirstPath : Bool) : Same s (s.packNewConnectionId onFirstPath) := by
  unfold packNewConnectionId
  split_ifs
  · cases queue : s.newConnectionIds with
    | nil => exact Same.refl s
    | cons frame rest =>
      refine ⟨rfl,rfl,fun _ => rfl,id,rfl,fun item waits => ?_,List.Sublist.refl _⟩
      rcases waits with there | there | there
      · exact .inl (queue ▸ List.mem_cons_of_mem _ there)
      · exact .inr (.inl there)
      · rcases List.mem_cons.mp there with rfl | old
        · exact .inl (queue ▸ List.mem_cons_self)
        · exact .inr (.inr old)
  · cases queue : s.pathNewConnectionIds with
    | nil => exact Same.refl s
    | cons frame rest =>
      refine ⟨rfl,rfl,fun _ => rfl,id,rfl,fun item waits => ?_,List.Sublist.refl _⟩
      rcases waits with there | there | there
      · exact .inl there
      · exact .inr (.inl (queue ▸ List.mem_cons_of_mem _ there))
      · rcases List.mem_cons.mp there with rfl | old
        · exact .inr (.inl (queue ▸ List.mem_cons_self))
        · exact .inr (.inr old)

theorem same_handleRetire (s : LocalCids) (sequenceNumber : Nat) : Same s (s.handleRetireConnectionId sequenceNumber) := by
  have counted : Same s {s with incomingRetireCidCount := saturatingAdd s.incomingRetireCidCount 1} :=
    ⟨rfl,rfl,fun _ => rfl,id,rfl,fun _ => id,List.Sublist.refl _⟩
  unfold handleRetireConnectionId
  dsimp only
  split_ifs
  · exact counted.trans (same_close _ _ _)
  · exact counted.trans (same_close _ _ _)
  · exact counted.trans (same_close _ _ _)
  · exact counted
  · exact (counted.trans (same_retire _ _ _)).trans (same_drop _ _ _)

theorem same_handlePathRetire (s : LocalCids) (pathId sequenceNumber : Nat) :
    Same s (s.handlePathRetireConnectionId pathId sequenceNumber) := by
  unfold handlePathRetireConnectionId
  split_ifs
  · exact same_close _ _ _
  · exact (same_retire _ _ _).trans (same_drop _ _ _)

theorem same_cidsBlocked (s : LocalCids) (pathId next : Nat) : Same s (s.handlePathCidsBlocked pathId next) := by
  unfold handlePathCidsBlocked
  split_ifs
  · exact same_close _ _ _
  · exact same_close _ _ _
  · exact ⟨rfl,rfl,fun _ => rfl,id,rfl,fun _ => id,List.Sublist.refl _⟩

/-- The live IDs alone: above all live numbers of the path, and right after one of them. -/
theorem live_next (items : List IssuedCid) (pathId start : Nat) :
    let next := items.foldl (fun next item =>
      if item.pathId = pathId ∧ item.sequenceNumber ≥ next then item.sequenceNumber+1 else next) start
    start ≤ next ∧ (∀ item ∈ items, item.pathId = pathId → item.sequenceNumber < next) ∧
      (next = start ∨ ∃ item ∈ items, item.pathId = pathId ∧ item.sequenceNumber+1 = next) := by
  induction items generalizing start with
  | nil => exact ⟨Nat.le_refl _,fun _ there => (nomatch there),.inl rfl⟩
  | cons item rest ih =>
    rw [List.foldl_cons]
    by_cases raises : item.pathId = pathId ∧ item.sequenceNumber ≥ start
    · rw [if_pos raises]
      obtain ⟨above,all,last⟩ := ih (item.sequenceNumber+1)
      refine ⟨(Nat.le_succ_of_le raises.2).trans above,?_,?_⟩
      · intro other there same
        rcases List.mem_cons.mp there with rfl | old
        · exact above
        · exact all other old same
      · rcases last with stays | ⟨other,there,rest⟩
        · exact .inr ⟨item,List.mem_cons_self,raises.1,stays.symm⟩
        · exact .inr ⟨other,List.mem_cons_of_mem _ there,rest⟩
    · rw [if_neg raises]
      obtain ⟨above,all,last⟩ := ih start
      refine ⟨above,?_,?_⟩
      · intro other there same
        rcases List.mem_cons.mp there with rfl | old
        · have below : other.sequenceNumber < start := Nat.lt_of_not_le fun reaches => raises ⟨same,reaches⟩
          exact below.trans_le above
        · exact all other old same
      · exact last.imp_right fun ⟨other,there,rest⟩ => ⟨other,List.mem_cons_of_mem _ there,rest⟩

/-- The number that `nextLocalCidSequence` picks follows all that were issued, if the path is open or its newest ID live. -/
theorem next_sequence {s : LocalCids} (sound : Sound s) {pathId : Nat} (seen : (s.getPath pathId).isSome ∨ NewestLive s pathId) :
    s.Next pathId (s.nextLocalCidSequence pathId) := by
  unfold nextLocalCidSequence
  obtain ⟨_,all,last⟩ := live_next s.localCids pathId 0
  generalize s.localCids.foldl _ 0 = live at all last ⊢
  dsimp only
  cases path : s.getPath pathId with
  | none =>
    dsimp only
    have newest : NewestLive s pathId := seen.resolve_left (by rw [path]; exact Bool.false_ne_true)
    refine ⟨fun a there same => ?_,last.imp_right ?_⟩
    · obtain ⟨item,inside,own,reaches⟩ := newest a there same
      exact reaches.trans_lt (all item inside own)
    · rintro ⟨item,inside,own,after⟩
      exact ⟨_,sound.live item inside,own,after⟩
  | some path' =>
    dsimp only
    have marked := sound.marked pathId path'.nextLocalCidSeq (by unfold mark; rw [path]; rfl)
    have below : live ≤ path'.nextLocalCidSeq := by
      rcases last with zero | ⟨item,inside,own,after⟩
      · exact zero.trans_le (Nat.zero_le _)
      · exact after.symm.trans_le (marked.1 _ (sound.live item inside) own)
    rw [Nat.max_eq_right below]
    exact marked

end LocalCids

/-- A new ID, whose number follows all that were issued on its path. -/
structure Grows (s : LocalCids) (frame : IssuedCid) (t : LocalCids) : Prop where
  issued : t.issued = issuedAs frame::s.issued
  live : ∃ older, older.Sublist s.localCids ∧ t.localCids = older++[frame] ∧
    Paths.cidActiveCountForPath older frame.pathId < s.peerLimit
  waiting : ∀ item, t.Waits item → s.Waits item ∨ item = frame
  mark : ∀ pathId, t.mark pathId =
    if pathId = frame.pathId then (s.mark pathId).map (max · (frame.sequenceNumber+1)) else s.mark pathId
  below : (∀ p ∈ s.paths, p.id < s.nextPathId) → ∀ p ∈ t.paths, p.id < t.nextPathId
  limit : t.peerLimit = s.peerLimit
  chosen : (t.chosen = s.chosen ∧ s.chosen frame.pathId = []) ∨
    t.chosen = Function.update s.chosen frame.pathId (frame.sequenceNumber::s.chosen frame.pathId)

theorem Grows.after {s t : LocalCids} {frame : IssuedCid} (grows : Grows s frame t) (next : s.Next frame.pathId frame.sequenceNumber) :
    t.Next frame.pathId (frame.sequenceNumber+1) := by
  refine ⟨?_,.inr ⟨issuedAs frame,by rw [grows.issued]; exact List.mem_cons_self,rfl,rfl⟩⟩
  rw [grows.issued]
  intro a there same
  rcases List.mem_cons.mp there with rfl | old
  · exact Nat.lt_succ_self _
  · exact (next.1 a old same).trans (Nat.lt_succ_self _)

theorem Sound.grow {s t : LocalCids} {frame : IssuedCid} (sound : Sound s) (next : s.Next frame.pathId frame.sequenceNumber)
    (grows : Grows s frame t) : Sound t := by
  obtain ⟨older,fewer,live,space⟩ := grows.live
  have fresh : ∀ a ∈ s.issued, a.pathId = frame.pathId → a.sequenceNumber ≠ frame.sequenceNumber :=
    fun a there same => (next.1 a there same).ne
  -- the mark, and the newest number picked, are now right after the new one
  have after := grows.after next
  have elsewhere : ∀ pathId m, pathId ≠ frame.pathId → s.Next pathId m → t.Next pathId m := by
    intro pathId m other before
    refine ⟨?_,before.2.imp_right fun ⟨a,there,rest⟩ => ⟨a,by rw [grows.issued]; exact List.mem_cons_of_mem _ there,rest⟩⟩
    rw [grows.issued]
    intro a there same
    rcases List.mem_cons.mp there with rfl | old
    · exact absurd same.symm other
    · exact before.1 a old same
  refine ⟨?_,?_,?_,?_,?_,grows.below sound.below,?_,?_,?_,?_,?_⟩
  · rw [live,grows.issued]
    intro item there
    rcases List.mem_append.mp there with old | new
    · exact List.mem_cons_of_mem _ (sound.live item (fewer.subset old))
    · rw [List.mem_singleton.mp new]
      exact List.mem_cons_self
  · rw [grows.issued]
    intro item waits
    rcases grows.waiting item waits with old | rfl
    · exact List.mem_cons_of_mem _ (sound.waiting item old)
    · exact List.mem_cons_self
  · rw [grows.issued]
    intro a one b two path seq
    rcases List.mem_cons.mp one with rfl | one <;> rcases List.mem_cons.mp two with rfl | two
    · rfl
    · exact absurd seq.symm (fresh b two path.symm)
    · exact absurd seq (fresh a one path)
    · exact sound.single a one b two path seq
  · rw [grows.issued]
    intro a there k below
    rcases List.mem_cons.mp there with rfl | old
    · rcases next.2 with zero | ⟨b,inside,own,step⟩
      · exact absurd (zero ▸ below) (Nat.not_lt_zero k)
      · rcases Nat.lt_or_ge k b.sequenceNumber with lower | reaches
        · obtain ⟨c,inside',own',same⟩ := sound.gapless b inside k lower
          exact ⟨c,List.mem_cons_of_mem _ inside',own'.trans own,same⟩
        · have below : k < frame.sequenceNumber := below
          exact ⟨b,List.mem_cons_of_mem _ inside,own,by omega⟩
    · obtain ⟨b,inside,rest⟩ := sound.gapless a old k below
      exact ⟨b,List.mem_cons_of_mem _ inside,rest⟩
  · rw [grows.mark]
    split_ifs
    · rw [Option.isSome_map]
      exact sound.first
    · exact sound.first
  · intro pathId m marked
    rw [grows.mark] at marked
    split_ifs at marked with own
    · subst own
      obtain ⟨before,there,rfl⟩ := Option.map_eq_some_iff.mp marked
      have below : before ≤ frame.sequenceNumber+1 := by
        rcases (sound.marked _ before there).2 with zero | ⟨a,inside,own,step⟩
        · exact zero.trans_le (Nat.zero_le _)
        · have := next.1 a inside own
          omega
      rw [Nat.max_eq_right below]
      exact after
    · exact elsewhere pathId m own (sound.marked pathId m marked)
  · intro pathId
    rcases grows.chosen with ⟨same,_⟩ | updated
    · rw [same]
      exact sound.consecutive pathId
    · rw [updated,Function.update_apply]
      split_ifs with own
      · cases picked : s.chosen frame.pathId with
        | nil => exact .singleton _
        | cons c rest =>
          refine List.isChain_cons_cons.mpr ⟨?_,picked ▸ sound.consecutive frame.pathId⟩
          have newest := sound.newest frame.pathId c rest picked
          have reaches : c+1 ≤ frame.sequenceNumber := by
            rcases newest.2 with zero | ⟨a,inside,own,step⟩
            · cases zero
            · exact step.symm.trans_le (next.1 a inside own)
          rcases next.2 with zero | ⟨a,inside,own,step⟩
          · omega
          · have := newest.1 a inside own
            omega
      · exact sound.consecutive pathId
  · intro pathId c rest picked
    rcases grows.chosen with ⟨same,none⟩ | updated
    · rw [same] at picked
      have other : pathId ≠ frame.pathId := fun own => by
        rw [own,none] at picked
        cases picked
      exact elsewhere pathId _ other (sound.newest pathId c rest picked)
    · rw [updated,Function.update_apply] at picked
      split_ifs at picked with own
      · obtain ⟨rfl,_⟩ := List.cons.inj picked
        rw [own]
        exact after
      · exact elsewhere pathId _ own (sound.newest pathId c rest picked)
  · intro pathId
    rw [live,grows.limit]
    unfold Paths.cidActiveCountForPath at space ⊢
    rw [List.countP_append,List.countP_singleton]
    by_cases own : frame.pathId = pathId
    · rw [decide_eq_true own,if_pos rfl,← own]
      exact space
    · rw [decide_eq_false own,if_neg Bool.false_ne_true]
      exact (fewer.countP_le).trans (sound.room pathId)
  · rw [grows.limit]
    exact sound.limit

namespace LocalCids

theorem bind_ok {α β : Type} {x : Except CidError α} {f : α → Except CidError β} {b : β} (ok : x >>= f = .ok b) :
    ∃ a, x = .ok a ∧ f a = .ok b := by
  cases x with
  | error e => cases ok
  | ok a => exact ⟨a,rfl,ok⟩

theorem available_same {s : LocalCids} {pathId seq : Nat} {cid : ConnId} (nonempty : cid.len ≠ 0)
    (available : s.ensureLocalCidAvailable pathId seq cid = .ok ()) {item : IssuedCid} (there : item ∈ s.localCids)
    (here : holds pathId seq item = true) : item.cid = cid := by
  unfold ensureLocalCidAvailable at available
  rw [if_neg nonempty] at available
  split_ifs at available with taken
  by_contra other
  exact taken (List.any_eq_true.mpr ⟨item,there,by rw [here]; exact decide_eq_true other⟩)

theorem holds_iff {pathId seq : Nat} {item : IssuedCid} :
    holds pathId seq item = true ↔ item.pathId = pathId ∧ item.sequenceNumber = seq := by
  unfold holds
  rw [Bool.and_eq_true,decide_eq_true_iff,decide_eq_true_iff]

theorem exists_iff {s : LocalCids} {pathId seq : Nat} : s.localCidSequenceExists pathId seq = true ↔
    ∃ item ∈ s.localCids, item.pathId = pathId ∧ item.sequenceNumber = seq := by
  unfold localCidSequenceExists
  rw [List.any_eq_true]
  exact exists_congr fun item => and_congr_right fun _ => holds_iff

theorem append_frame (s : LocalCids) (frame : IssuedCid) : ∃ paths scid, s.appendLocalCid frame =
    {s with localCids := s.localCids++[frame],paths := paths,localScid := scid} ∧
      ((∀ p ∈ s.paths, p.id < s.nextPathId) → ∀ p ∈ paths, p.id < s.nextPathId) ∧
      ∀ pathId, (s.appendLocalCid frame).mark pathId =
        if pathId = frame.pathId then (s.mark pathId).map (max · (frame.sequenceNumber+1)) else s.mark pathId := by
  unfold appendLocalCid
  dsimp only
  rw [show ({s with localCids := s.localCids++[frame]} : LocalCids).getPath frame.pathId = s.getPath frame.pathId from rfl]
  cases path : s.getPath frame.pathId with
  | none =>
    refine ⟨s.paths,s.localScid,rfl,id,fun pathId => ?_⟩
    split_ifs with own
    · rw [own]
      show s.mark frame.pathId = (s.mark frame.pathId).map _
      unfold mark
      rw [path]
      rfl
    · rfl
  | some first =>
    dsimp only
    generalize changed : (fun p : LocalPath => {p with
      localCid := if decide (first.localCid.len = 0 ∨ frame.sequenceNumber = 0) then frame.cid else p.localCid
      nextLocalCidSeq := max p.nextLocalCidSeq (frame.sequenceNumber+1)}) = f
    have same : ∀ p, (f p).id = p.id := fun p => by rw [← changed]
    have raised : ∀ p, (f p).nextLocalCidSeq = max p.nextLocalCidSeq (frame.sequenceNumber+1) := fun p => by rw [← changed]
    have below : (∀ p ∈ s.paths, p.id < s.nextPathId) →
        ∀ p ∈ s.paths.map (fun p => if p.id = frame.pathId then f p else p), p.id < s.nextPathId := by
      intro below p there
      obtain ⟨q,inside,rfl⟩ := List.mem_map.mp there
      split_ifs
      · rw [same]
        exact below q inside
      · exact below q inside
    have marks : ∀ (t : LocalCids) pathId, t.paths = s.paths → (t.updatePath frame.pathId f).mark pathId =
        if pathId = frame.pathId then (s.mark pathId).map (max · (frame.sequenceNumber+1)) else s.mark pathId := by
      intro t pathId paths
      unfold mark
      rw [getPath_updatePath t frame.pathId pathId same,Option.map_map,show t.getPath pathId = s.getPath pathId by
        unfold getPath; rw [paths]]
      split_ifs with own
      · rw [Option.map_map]
        congr 1
        funext p
        exact raised p
      · rfl
    split_ifs
    · exact ⟨_,_,rfl,below,fun pathId => marks _ pathId rfl⟩
    · exact ⟨_,_,rfl,below,fun pathId => marks _ pathId rfl⟩

theorem next_unique {s : LocalCids} {pathId m n : Nat} (one : s.Next pathId m) (two : s.Next pathId n) : m = n := by
  rcases one.2 with zero | ⟨a,there,own,step⟩ <;> rcases two.2 with zero' | ⟨b,there',own',step'⟩
  · exact zero.trans zero'.symm
  · have := one.1 b there' own'
    omega
  · have := two.1 a there own
    omega
  · have := one.1 b there' own'
    have := two.1 a there own
    omega

theorem replace_sound {s : LocalCids} (sound : Sound s) {frame : IssuedCid} (same : ∀ item ∈ s.localCids,
    holds frame.pathId frame.sequenceNumber item = true → item.cid = frame.cid) :
    Sound {s with localCids := FirstMatch.update (holds frame.pathId frame.sequenceNumber) (fun _ => frame) s.localCids} := by
  cases found : s.localCids.find? (holds frame.pathId frame.sequenceNumber) with
  | none =>
    rw [FirstMatch.update_none found]
    exact sound
  | some item =>
    have matched := holds_iff.mp (@List.find?_some _ (holds frame.pathId frame.sequenceNumber) _ _ found)
    have there := List.mem_of_find?_eq_some found
    have given : issuedAs frame = issuedAs item := by
      unfold issuedAs
      rw [matched.1,matched.2,same item there (holds_iff.mpr matched)]
    obtain ⟨before,after,split,updated⟩ := FirstMatch.update_split found
    refine {sound with live := ?_,room := ?_}
    · intro other inside
      dsimp only at inside
      rw [updated] at inside
      rcases List.mem_append.mp inside with old | rest
      · exact sound.live other (split ▸ List.mem_append_left _ old)
      · rcases List.mem_cons.mp rest with rfl | old
        · rw [given]
          exact sound.live item there
        · exact sound.live other (split ▸ List.mem_append_right _ (List.mem_cons_of_mem _ old))
    · intro pathId
      have room := sound.room pathId
      unfold Paths.cidActiveCountForPath at room ⊢
      dsimp only
      rw [split] at room
      rw [updated]
      rw [List.countP_append,List.countP_cons,matched.1] at room
      rw [List.countP_append,List.countP_cons]
      exact room

theorem remember_cases {s t : LocalCids} {frame : IssuedCid} (ok : s.rememberLocalCid frame = .ok t) :
    (frame.cid.len = 0 ∧ t = s) ∨
    (frame.retirePriorTo > frame.sequenceNumber ∧ t = s.close Paths.transportErrorFrameEncoding "invalid retire_prior_to") ∨
    ((∀ item ∈ s.localCids, holds frame.pathId frame.sequenceNumber item = true → item.cid = frame.cid) ∧
      s.localCidSequenceExists frame.pathId frame.sequenceNumber = true ∧
      t = {s with localCids := FirstMatch.update (holds frame.pathId frame.sequenceNumber) (fun _ => frame) s.localCids}) ∨
    (frame.cid.len ≠ 0 ∧ s.localCidSequenceExists frame.pathId frame.sequenceNumber = false ∧
      t = (s.retireLocalCidsPriorTo frame.pathId frame.retirePriorTo).appendLocalCid frame) := by
  unfold rememberLocalCid at ok
  split_ifs at ok with empty above live
  · exact .inl ⟨empty,(Except.ok.inj ok).symm⟩
  · exact .inr (.inl ⟨above,(Except.ok.inj ok).symm⟩)
  · obtain ⟨_,available,rest⟩ := bind_ok ok
    exact .inr (.inr (.inl ⟨fun item there => available_same empty available there,live,(Except.ok.inj rest).symm⟩))
  · obtain ⟨_,_,rest⟩ := bind_ok ok
    exact .inr (.inr (.inr ⟨empty,Bool.eq_false_iff.mpr live,(Except.ok.inj rest).symm⟩))

theorem queue_cases {s t : LocalCids} {frame : IssuedCid} (ok : s.queueLocalConnectionId frame = .ok t) :
    (t = s ∧ ∃ item, item ∈ s.pendingFor frame.pathId ∧ item.pathId = frame.pathId ∧ item.sequenceNumber = frame.sequenceNumber ∧
      item.cid = frame.cid) ∨
    ∃ u, s.rememberLocalCid frame = .ok u ∧ t = (u.appendFrame frame).note (issuedAs frame) ∧
      (frame.cid.len ≠ 0 → s.localCidSequenceExists frame.pathId frame.sequenceNumber = false →
        s.localConnectionIdIssueBudgetAfterRetirePriorTo frame.pathId frame.retirePriorTo ≠ 0) := by
  unfold queueLocalConnectionId at ok
  obtain ⟨_,_,ok⟩ := bind_ok ok
  obtain ⟨_,can,ok⟩ := bind_ok ok
  obtain ⟨_,_,ok⟩ := bind_ok ok
  cases found : (s.pendingFor frame.pathId).find? (holds frame.pathId frame.sequenceNumber) with
  | some item =>
    rw [found] at ok
    dsimp only at ok
    split_ifs at ok with other
    have matched := holds_iff.mp (@List.find?_some _ (holds frame.pathId frame.sequenceNumber) _ _ found)
    exact .inl ⟨(Except.ok.inj ok).symm,item,List.mem_of_find?_eq_some found,matched.1,matched.2,not_not.mp other⟩
  | none =>
    rw [found] at ok
    obtain ⟨u,remembered,ok⟩ := bind_ok ok
    refine .inr ⟨u,remembered,(Except.ok.inj ok).symm,fun nonempty absent full => ?_⟩
    unfold ensureCanIssueLocalCid at can
    rw [if_neg nonempty,absent,if_neg Bool.false_ne_true,if_pos full] at can
    cases can

theorem appendFrame_waits {s : LocalCids} {frame item : IssuedCid} (waits : (s.appendFrame frame).Waits item) :
    s.Waits item ∨ item = frame := by
  unfold appendFrame at waits
  split_ifs at waits
  · rcases waits with there | there
    · rcases List.mem_append.mp there with old | new
      · exact .inl (.inl old)
      · exact .inr (List.mem_singleton.mp new)
    · exact .inl (.inr there)
  · rcases waits with there | there | there
    · exact .inl (.inl there)
    · rcases List.mem_append.mp there with old | new
      · exact .inl (.inr (.inl old))
      · exact .inr (List.mem_singleton.mp new)
    · exact .inl (.inr (.inr there))

/-- What issuing an ID again keeps, for the IDs that are issued after it. -/
structure Again (s t : LocalCids) : Prop where
  sound : Sound t
  «open» : ∀ pathId, (t.mark pathId).isSome = (s.mark pathId).isSome
  newest : ∀ pathId, NewestLive s pathId → NewestLive t pathId
  next : ∀ pathId n, s.Next pathId n → t.Next pathId n

theorem Again.refl {s : LocalCids} (sound : Sound s) : Again s s := ⟨sound,fun _ => rfl,fun _ => id,fun _ _ => id⟩

theorem Again.trans {s t u : LocalCids} (one : Again s t) (two : Again t u) : Again s u :=
  ⟨two.sound,fun p => (two.open p).trans (one.open p),fun p live => two.newest p (one.newest p live),
    fun p n next => two.next p n (one.next p n next)⟩

theorem again_note {s : LocalCids} (sound : Sound s) {frame : IssuedCid} (given : issuedAs frame ∈ s.issued) :
    Again s ((s.appendFrame frame).note (issuedAs frame)) := by
  have members : ∀ a, a ∈ issuedAs frame::s.issued ↔ a ∈ s.issued := fun a =>
    ⟨fun there => (List.mem_cons.mp there).elim (fun same => same ▸ given) id,List.mem_cons_of_mem _⟩
  have fields : ∃ first others, (s.appendFrame frame).note (issuedAs frame) =
      {s with issued := issuedAs frame::s.issued,newConnectionIds := first,pathNewConnectionIds := others} := by
    unfold appendFrame note
    split_ifs
    · exact ⟨_,_,rfl⟩
    · exact ⟨_,_,rfl⟩
  have waits : ∀ item, ((s.appendFrame frame).note (issuedAs frame)).Waits item → s.Waits item ∨ item = frame :=
    fun item => appendFrame_waits
  obtain ⟨first,others,changed⟩ := fields
  rw [changed] at waits ⊢
  have next : ∀ pathId n, s.Next pathId n →
      ({s with issued := issuedAs frame::s.issued,newConnectionIds := first,pathNewConnectionIds := others} : LocalCids).Next pathId n := by
    intro pathId n next
    refine ⟨fun a there => next.1 a ((members a).mp there),next.2.imp_right ?_⟩
    rintro ⟨a,there,rest⟩
    exact ⟨a,(members a).mpr there,rest⟩
  refine ⟨⟨?_,?_,?_,?_,sound.first,sound.below,?_,sound.consecutive,?_,sound.room,sound.limit⟩,fun _ => rfl,?_,next⟩
  · exact fun item there => List.mem_cons_of_mem _ (sound.live item there)
  · intro item there
    rcases waits item there with old | rfl
    · exact List.mem_cons_of_mem _ (sound.waiting item old)
    · exact List.mem_cons_self
  · exact fun a one b two => sound.single a ((members a).mp one) b ((members b).mp two)
  · intro a there k below
    obtain ⟨b,inside,rest⟩ := sound.gapless a ((members a).mp there) k below
    exact ⟨b,List.mem_cons_of_mem _ inside,rest⟩
  · exact fun pathId m marked => next pathId m (sound.marked pathId m marked)
  · exact fun pathId c rest picked => next pathId (c+1) (sound.newest pathId c rest picked)
  · exact fun pathId live a there => live a ((members a).mp there)

theorem replace_newest {s : LocalCids} {frame : IssuedCid} {pathId : Nat} (live : NewestLive s pathId) :
    NewestLive {s with localCids := FirstMatch.update (holds frame.pathId frame.sequenceNumber) (fun _ => frame) s.localCids} pathId := by
  intro a there own
  obtain ⟨item,inside,same,reaches⟩ := live a there own
  cases found : s.localCids.find? (holds frame.pathId frame.sequenceNumber) with
  | none =>
    rw [FirstMatch.update_none found]
    exact ⟨item,inside,same,reaches⟩
  | some old =>
    obtain ⟨before,after,split,updated⟩ := FirstMatch.update_split found
    dsimp only
    rw [updated]
    rw [split] at inside
    have matched := holds_iff.mp (@List.find?_some _ (holds frame.pathId frame.sequenceNumber) _ _ found)
    rcases List.mem_append.mp inside with first | rest
    · exact ⟨item,List.mem_append_left _ first,same,reaches⟩
    · rcases List.mem_cons.mp rest with rfl | last
      · exact ⟨frame,List.mem_append_right _ List.mem_cons_self,matched.1.symm.trans same,reaches.trans matched.2.le⟩
      · exact ⟨item,List.mem_append_right _ (List.mem_cons_of_mem _ last),same,reaches⟩

theorem queue_again {s t : LocalCids} (sound : Sound s) {frame : IssuedCid} (given : issuedAs frame ∈ s.issued)
    (live : s.localCidSequenceExists frame.pathId frame.sequenceNumber = true) (ok : s.queueLocalConnectionId frame = .ok t) :
    Again s t := by
  rcases queue_cases ok with ⟨rfl,_⟩ | ⟨u,remembered,rfl,_⟩
  · exact Again.refl sound
  rcases remember_cases remembered with ⟨_,rfl⟩ | ⟨_,rfl⟩ | ⟨same,_,rfl⟩ | ⟨_,absent,_⟩
  · exact again_note sound given
  · have closed := sound.same (same_close s Paths.transportErrorFrameEncoding "invalid retire_prior_to")
    exact (⟨closed,fun _ => rfl,fun _ => id,fun _ _ => id⟩ : Again s _).trans (again_note closed given)
  · have replaced := replace_sound sound same
    exact (⟨replaced,fun _ => rfl,fun _ => replace_newest,fun _ _ => id⟩ : Again s _).trans (again_note replaced given)
  · rw [live] at absent
    cases absent

theorem budget_room {s : LocalCids} {pathId retirePriorTo : Nat}
    (budget : s.localConnectionIdIssueBudgetAfterRetirePriorTo pathId retirePriorTo ≠ 0) :
    Paths.cidActiveCountForPath (s.retireLocalCidsPriorTo pathId retirePriorTo).localCids pathId < s.peerLimit := by
  have kept : (s.retireLocalCidsPriorTo pathId retirePriorTo).localCids =
      s.localCids.filter fun item => !item.goes pathId retirePriorTo := by
    unfold retireLocalCidsPriorTo promoteLocalCidForPath
    split
    · rfl
    · dsimp only
      split_ifs <;> rfl
  have counted : Paths.cidActiveCountForPath (s.retireLocalCidsPriorTo pathId retirePriorTo).localCids pathId =
      s.localCids.countP fun item => item.pathId = pathId && retirePriorTo ≤ item.sequenceNumber := by
    rw [kept,Paths.cidActiveCountForPath,List.countP_filter]
    congr 1
    funext item
    unfold Paths.IssuedCid.goes
    by_cases own : item.pathId = pathId
    · by_cases reaches : retirePriorTo ≤ item.sequenceNumber
      · simp [own,reaches]
      · simp [own,reaches,Nat.lt_of_not_le reaches]
    · simp [own]
  rw [counted]
  unfold localConnectionIdIssueBudgetAfterRetirePriorTo at budget
  omega

theorem remember_fresh {s u : LocalCids} (sound : Sound s) {frame : IssuedCid} (next : s.Next frame.pathId frame.sequenceNumber)
    (nonempty : frame.cid.len ≠ 0) (proper : frame.retirePriorTo ≤ frame.sequenceNumber)
    (budget : s.localConnectionIdIssueBudgetAfterRetirePriorTo frame.pathId frame.retirePriorTo ≠ 0)
    (remembered : s.rememberLocalCid frame = .ok u) :
    u.issued = s.issued ∧ u.chosen = s.chosen ∧ (∀ item, u.Waits item → s.Waits item) ∧
      (∃ older, older.Sublist s.localCids ∧ u.localCids = older++[frame] ∧
        Paths.cidActiveCountForPath older frame.pathId < s.peerLimit) ∧
      (∀ pathId, u.mark pathId =
        if pathId = frame.pathId then (s.mark pathId).map (max · (frame.sequenceNumber+1)) else s.mark pathId) ∧
      ((∀ p ∈ s.paths, p.id < s.nextPathId) → ∀ p ∈ u.paths, p.id < u.nextPathId) ∧ u.peerLimit = s.peerLimit := by
  have absent : s.localCidSequenceExists frame.pathId frame.sequenceNumber = false := Bool.eq_false_iff.mpr fun live => by
    obtain ⟨item,there,own,same⟩ := exists_iff.mp live
    exact absurd same (next.1 (issuedAs item) (sound.live item there) own).ne
  rcases remember_cases remembered with ⟨empty,_⟩ | ⟨above,_⟩ | ⟨_,live,_⟩ | ⟨_,_,rfl⟩
  · exact absurd empty nonempty
  · exact absurd proper (Nat.not_le_of_lt above)
  · rw [absent] at live
    cases live
  have retired := same_retirePriorTo s frame.pathId frame.retirePriorTo
  obtain ⟨paths,scid,appended,below,marks⟩ := append_frame (s.retireLocalCidsPriorTo frame.pathId frame.retirePriorTo) frame
  simp only [retired.mark] at marks
  refine ⟨?_,?_,?_,⟨_,retired.live,?_,budget_room budget⟩,marks,?_,?_⟩ <;> rw [appended]
  · exact retired.issued
  · exact retired.chosen
  · exact retired.waiting
  · exact fun before => below (retired.below before)
  · exact retired.limit

theorem appendFrame_fields (s : LocalCids) (frame : IssuedCid) : ∃ first others, s.appendFrame frame =
    {s with newConnectionIds := first,pathNewConnectionIds := others} := by
  unfold appendFrame
  split_ifs
  · exact ⟨_,_,rfl⟩
  · exact ⟨_,_,rfl⟩

theorem queue_fresh {s t : LocalCids} (sound : Sound s) {frame : IssuedCid} (next : s.Next frame.pathId frame.sequenceNumber)
    (nonempty : frame.cid.len ≠ 0) (proper : frame.retirePriorTo ≤ frame.sequenceNumber) (ok : s.queueLocalConnectionId frame = .ok t) :
    Grows s frame {t with chosen := Function.update t.chosen frame.pathId (frame.sequenceNumber::t.chosen frame.pathId)} := by
  rcases queue_cases ok with ⟨_,item,there,own,same,_⟩ | ⟨u,remembered,rfl,budget⟩
  · have waits : s.Waits item := by
      unfold pendingFor at there
      split_ifs at there
      · exact .inl there
      · exact .inr (.inl there)
    exact absurd same (next.1 (issuedAs item) (sound.waiting item waits) own).ne
  have absent : s.localCidSequenceExists frame.pathId frame.sequenceNumber = false := Bool.eq_false_iff.mpr fun live => by
    obtain ⟨item,there,own,same⟩ := exists_iff.mp live
    exact absurd same (next.1 (issuedAs item) (sound.live item there) own).ne
  obtain ⟨issued,chosen,waits,live,marks,below,limit⟩ :=
    remember_fresh sound next nonempty proper (budget nonempty absent) remembered
  have queued : ∀ item, (u.appendFrame frame).Waits item → u.Waits item ∨ item = frame := fun _ => appendFrame_waits
  obtain ⟨first,others,fields⟩ := appendFrame_fields u frame
  rw [fields] at queued ⊢
  refine ⟨congrArg (issuedAs frame::·) issued,live,fun item there => (queued item there).imp_left (waits item),marks,below,limit,.inr ?_⟩
  show Function.update u.chosen frame.pathId (frame.sequenceNumber::u.chosen frame.pathId) = _
  rw [chosen]

theorem mark_isSome (s : LocalCids) (pathId : Nat) : (s.mark pathId).isSome = (s.getPath pathId).isSome := Option.isSome_map

theorem provisions_sound {provisions : List ConnectionIdProvision} {s : LocalCids} (sound : Sound s) {pathId : Nat}
    (seen : (s.getPath pathId).isSome ∨ NewestLive s pathId) (proper : Proper (s.nextLocalCidSequence pathId) provisions) (queued : Nat) :
    Sound (s.queueProvisions pathId provisions queued).2 := by
  induction provisions generalizing s queued with
  | nil => exact sound
  | cons provision rest ih =>
    obtain ⟨nonempty,above,proper⟩ := proper
    have next := next_sequence sound seen
    unfold queueProvisions
    split_ifs
    · exact sound
    dsimp only
    unfold ConnId.fromSlice
    split_ifs with short
    swap
    · exact sound
    dsimp only
    split
    · exact sound
    · rename_i t ok
      have filled : (ConnId.mk provision.connectionId short).len ≠ 0 := fun empty => nonempty (List.length_eq_zero_iff.mp empty)
      have grows := queue_fresh sound next filled above ok
      have grown := sound.grow next grows
      obtain ⟨_,_,live,_⟩ := grows.live
      have later : NewestLive _ pathId := fun a there own => by
        refine ⟨_,by rw [live]; exact List.mem_append_right _ List.mem_cons_self,rfl,?_⟩
        rw [grows.issued] at there
        rcases List.mem_cons.mp there with rfl | old
        · exact Nat.le_refl _
        · exact (next.1 a old own).le
      refine ih grown (.inr later) ?_ (queued+1)
      have follows := next_unique (grows.after next) (next_sequence grown (.inr later))
      rw [← follows]
      exact proper

theorem blocked_again {seqs : List Nat} {s : LocalCids} (sound : Sound s) (pathId queued : Nat) :
    Again s (s.requeueBlocked pathId seqs queued).2 := by
  induction seqs generalizing s queued with
  | nil => exact Again.refl sound
  | cons seq rest ih =>
    unfold requeueBlocked
    cases found : s.localCidForSequence pathId seq with
    | none => exact ih sound queued
    | some item =>
      dsimp only
      have there := List.mem_of_find?_eq_some found
      split
      · exact Again.refl sound
      · rename_i t ok
        have again := queue_again sound (sound.live item there) (exists_iff.mpr ⟨item,there,rfl,rfl⟩) ok
        exact again.trans (ih again.sound (queued+1))

theorem same_clear (s : LocalCids) (pathId : Nat) : Same s (s.clearSatisfiedPathCidsBlocked pathId) := by
  unfold clearSatisfiedPathCidsBlocked
  split
  · exact Same.refl s
  · split_ifs
    · exact ⟨rfl,rfl,fun _ => rfl,id,rfl,fun _ => id,List.Sublist.refl _⟩
    · exact Same.refl s

theorem replenish_sound {s : LocalCids} (sound : Sound s) {pathId : Nat} (seen : (s.getPath pathId).isSome ∨ NewestLive s pathId)
    {provisions : List ConnectionIdProvision} (proper : Proper (s.nextLocalCidSequence pathId) provisions) :
    Sound (s.replenishLocalConnectionIds pathId provisions).2 := by
  unfold replenishLocalConnectionIds
  have again : Again s (s.requeueBlocked pathId (s.blockedSequences pathId) 0).2 := blocked_again sound pathId 0
  rcases outcome : s.requeueBlocked pathId (s.blockedSequences pathId) 0 with ⟨result,t⟩
  rw [outcome] at again
  cases result with
  | error e => exact again.sound
  | ok queued =>
    dsimp only
    have seenAfter : (t.getPath pathId).isSome ∨ NewestLive t pathId := by
      refine seen.imp (fun «open» => ?_) (again.newest pathId)
      rw [← mark_isSome,again.open,mark_isSome]
      exact «open»
    have following := next_unique (again.next pathId _ (next_sequence sound seen)) (next_sequence again.sound seenAfter)
    have provided := provisions_sound again.sound seenAfter (following ▸ proper) queued
    rcases outcome : t.queueProvisions pathId provisions queued with ⟨result,u⟩
    rw [outcome] at provided
    cases result with
    | error e => exact provided
    | ok queued =>
      dsimp only
      split_ifs
      · exact provided.same (same_clear u pathId)
      · exact provided

theorem first_sound {s u : LocalCids} (sound : Sound s) {frame : IssuedCid} (zero : frame.sequenceNumber = 0)
    (none : ∀ a ∈ s.issued, a.pathId ≠ frame.pathId) (nonempty : frame.cid.len ≠ 0) (proper : frame.retirePriorTo ≤ frame.sequenceNumber)
    (remembered : s.rememberLocalCid frame = .ok u) : Sound (u.note (issuedAs frame)) := by
  have next : s.Next frame.pathId frame.sequenceNumber := ⟨fun a there own => absurd own (none a there),.inl zero⟩
  have budget : s.localConnectionIdIssueBudgetAfterRetirePriorTo frame.pathId frame.retirePriorTo ≠ 0 := by
    have empty : s.localCids.countP (fun item => item.pathId = frame.pathId && frame.retirePriorTo ≤ item.sequenceNumber) = 0 := by
      rw [List.countP_eq_zero]
      intro item there held
      exact none _ (sound.live item there) (of_decide_eq_true (Bool.and_eq_true_iff.mp held).1)
    have limit := sound.limit
    unfold localConnectionIdIssueBudgetAfterRetirePriorTo
    omega
  have unpicked : s.chosen frame.pathId = [] := by
    cases picked : s.chosen frame.pathId with
    | nil => rfl
    | cons c rest =>
      rcases (sound.newest _ c rest picked).2 with zero | ⟨a,there,own,_⟩
      · cases zero
      · exact absurd own (none a there)
  obtain ⟨issued,chosen,waits,live,marks,below,limit⟩ := remember_fresh sound next nonempty proper budget remembered
  exact sound.grow next ⟨congrArg (issuedAs frame::·) issued,live,fun item there => .inl (waits item there),marks,below,limit,
    .inl ⟨chosen,unpicked⟩⟩

theorem note_sound {s : LocalCids} (sound : Sound s) {given : Issued} (known : given ∈ s.issued) : Sound (s.note given) := by
  have members : ∀ a, a ∈ given::s.issued ↔ a ∈ s.issued := fun a =>
    ⟨fun there => (List.mem_cons.mp there).elim (fun same => same ▸ known) id,List.mem_cons_of_mem _⟩
  have next : ∀ pathId n, s.Next pathId n → (s.note given).Next pathId n := fun pathId n next =>
    ⟨fun a there => next.1 a ((members a).mp there),
      next.2.imp_right fun ⟨a,there,rest⟩ => ⟨a,(members a).mpr there,rest⟩⟩
  refine ⟨fun item there => List.mem_cons_of_mem _ (sound.live item there),
    fun item there => List.mem_cons_of_mem _ (sound.waiting item there),
    fun a one b two => sound.single a ((members a).mp one) b ((members b).mp two),?_,sound.first,sound.below,
    fun pathId m marked => next pathId m (sound.marked pathId m marked),sound.consecutive,
    fun pathId c rest picked => next pathId (c+1) (sound.newest pathId c rest picked),sound.room,sound.limit⟩
  intro a there k below
  obtain ⟨b,inside,rest⟩ := sound.gapless a ((members a).mp there) k below
  exact ⟨b,List.mem_cons_of_mem _ inside,rest⟩

theorem setLocalScid_sound {s : LocalCids} (sound : Sound s) {cid : List Byte} (careful : Careful s (.setLocalScid cid)) :
    Sound (s.setLocalScid cid).2 := by
  unfold setLocalScid ConnId.fromSlice
  split_ifs with short
  swap
  · exact sound
  dsimp only
  have named : Same s {s with localScid := ⟨cid,short⟩} :=
    ⟨rfl,rfl,fun _ => rfl,id,rfl,fun _ => id,List.Sublist.refl _⟩
  have moved := named.trans (same_updatePath _ 0 (f := fun p => {p with localCid := ⟨cid,short⟩}) (fun _ => rfl) (fun _ => rfl))
  have before := sound.same moved
  split
  · exact before
  rename_i u remembered
  unfold noteNonempty
  by_cases empty : (ConnId.mk cid short).len = 0
  · rw [if_pos empty]
    rcases remember_cases remembered with ⟨_,rfl⟩ | ⟨above,_⟩ | ⟨same,_,rfl⟩ | ⟨nonempty,_⟩
    · exact before
    · exact absurd above (Nat.lt_irrefl 0)
    · exact replace_sound before same
    · exact absurd empty nonempty
  rw [if_neg empty]
  have filled : cid ≠ [] := fun nothing => empty (List.length_eq_zero_iff.mpr nothing)
  rcases careful.resolve_left filled with live | fresh
  · obtain ⟨item,there,own,number⟩ := exists_iff.mp live
    rcases remember_cases remembered with ⟨none,_⟩ | ⟨above,_⟩ | ⟨same,_,rfl⟩ | ⟨_,absent,_⟩
    · exact absurd none empty
    · exact absurd above (Nat.lt_irrefl 0)
    · have identical := same item there (holds_iff.mpr ⟨own,number⟩)
      refine note_sound (replace_sound before same) ?_
      have known := sound.live item there
      unfold issuedAs at known
      rw [own,number,identical] at known
      exact known
    · have found : s.localCidSequenceExists 0 0 = false := absent
      rw [live] at found
      cases found
  · refine first_sound before rfl ?_ empty (Nat.le_refl 0) remembered
    intro a there own
    rcases Nat.eq_zero_or_pos a.sequenceNumber with zero | positive
    · exact fresh a there own zero
    · obtain ⟨b,inside,same,number⟩ := sound.gapless a there 0 positive
      exact fresh b inside (same.trans own) number

theorem mark_addPath {s : LocalCids} (below : ∀ p ∈ s.paths, p.id < s.nextPathId) (localCid : ConnId) (pathId : Nat) :
    (s.addPath localCid).mark pathId = if pathId = s.nextPathId then some 0 else s.mark pathId := by
  unfold mark getPath addPath
  dsimp only
  rw [List.find?_append]
  by_cases own : pathId = s.nextPathId
  · have absent : s.paths.find? (·.id = pathId) = none := List.find?_eq_none.mpr fun p there same =>
      absurd ((of_decide_eq_true same).trans own) (below p there).ne
    rw [if_pos own,absent,own]
    simp
  · rw [if_neg own,List.find?_singleton,decide_eq_false (Ne.symm own),if_neg Bool.false_ne_true,Option.or_none]

theorem openPath_sound {s t : LocalCids} (sound : Sound s) {localCid peerCid : ConnId} (careful : Careful s (.openPath localCid peerCid))
    (ok : s.openPath localCid peerCid = .ok t) : Sound t := by
  obtain ⟨_,_,ok⟩ := bind_ok ok
  obtain ⟨u,remembered,ok⟩ := bind_ok ok
  obtain rfl := Except.ok.inj ok
  have marks := mark_addPath sound.below localCid
  have none : ∀ a ∈ s.issued, a.pathId ≠ s.nextPathId := careful
  have added : Sound (s.addPath localCid) := by
    refine ⟨sound.live,sound.waiting,sound.single,sound.gapless,?_,?_,?_,sound.consecutive,sound.newest,sound.room,sound.limit⟩
    · rw [marks]
      split_ifs
      · rfl
      · exact sound.first
    · intro p there
      rcases List.mem_append.mp there with old | new
      · exact (sound.below p old).trans (Nat.lt_succ_self _)
      · rw [List.mem_singleton.mp new]
        exact Nat.lt_succ_self _
    · intro pathId m marked
      rw [marks] at marked
      split_ifs at marked with own
      · obtain rfl := Option.some.inj marked
        exact ⟨fun a there same => absurd (same.trans own) (none a there),.inl rfl⟩
      · exact sound.marked pathId m marked
  unfold noteNonempty
  by_cases empty : localCid.len = 0
  · rw [if_pos empty]
    rcases remember_cases remembered with ⟨_,rfl⟩ | ⟨above,_⟩ | ⟨same,_,rfl⟩ | ⟨nonempty,_⟩
    · exact added
    · exact absurd above (Nat.lt_irrefl 0)
    · exact replace_sound added same
    · exact absurd empty nonempty
  · rw [if_neg empty]
    refine first_sound added rfl ?_ empty (Nat.le_refl 0) remembered
    exact none

theorem step_sound {s : LocalCids} (sound : Sound s) {event : Event} (allowed : Allowed s event) (careful : Careful s event) :
    Sound (step s event) := by
  have first : (s.getPath 0).isSome := by
    rw [← mark_isSome]
    exact sound.first
  cases event with
  | setLocalScid cid => exact setLocalScid_sound sound careful
  | openPath localCid peerCid =>
    dsimp only [step]
    cases ok : s.openPath localCid peerCid with
    | error e => exact sound
    | ok t => exact openPath_sound sound careful ok
  | replenish provisions => exact replenish_sound sound (.inl first) careful
  | replenishPath pathId provisions =>
    dsimp only [step,replenishPathConnectionIds]
    cases s.ensureCanIssueCidForPathId pathId with
    | error e => exact sound
    | ok _ => exact replenish_sound sound careful.2 careful.1
  | retire sequenceNumber => exact sound.same (same_handleRetire s sequenceNumber)
  | pathRetire pathId sequenceNumber => exact sound.same (same_handlePathRetire s pathId sequenceNumber)
  | pathCidsBlocked pathId next => exact sound.same (same_cidsBlocked s pathId next)
  | pack onFirstPath => exact sound.same (same_pack s onFirstPath)
  | lost index =>
    dsimp only [step]
    cases found : s.sentNewConnectionIds[index]? with
    | none => exact sound
    | some frame =>
      have given := sound.waiting frame (.inr (.inr (List.mem_of_getElem? found)))
      dsimp only [requeueLost]
      split_ifs with live
      · cases ok : s.queueLocalConnectionId frame with
        | error e => exact sound
        | ok t => exact (queue_again sound given live ok).sound
      · exact sound
  | datagram incoming => exact sound.same ⟨rfl,rfl,fun _ => rfl,id,rfl,fun _ => id,List.Sublist.refl _⟩
  | peerParams limit maxPathId =>
    have limits : s.peerLimit ≤ min limit maxSupportedActiveConnectionIdLimit := by
      unfold peerLimit
      cases known : s.peerActiveConnectionIdLimit with
      | none => exact Nat.le_min.mpr ⟨allowed.1,by decide⟩
      | some before => rw [allowed.2 before known]
    exact {sound with
      room := fun pathId => (sound.room pathId).trans limits
      limit := sound.limit.trans limits}
  | queueMaxPathId maximum => exact sound.same ⟨rfl,rfl,fun _ => rfl,id,rfl,fun _ => id,List.Sublist.refl _⟩
  | maxPathId maximum => exact sound.same ⟨rfl,rfl,fun _ => rfl,id,rfl,fun _ => id,List.Sublist.refl _⟩

theorem closing_promote (s : LocalCids) (pathId : Nat) : (s.promoteLocalCidForPath pathId).pendingClose = s.pendingClose := by
  unfold promoteLocalCidForPath
  split
  · rfl
  · dsimp only
    split_ifs <;> rfl

theorem closing_retire (s : LocalCids) (pathId sequenceNumber : Nat) :
    ((s.retireLocalCid pathId sequenceNumber).dropPendingLocalCidAdvertisement pathId sequenceNumber).pendingClose = s.pendingClose := by
  have dropped : ∀ t : LocalCids, (t.dropPendingLocalCidAdvertisement pathId sequenceNumber).pendingClose = t.pendingClose := by
    intro t
    unfold dropPendingLocalCidAdvertisement
    split_ifs <;> rfl
  rw [dropped]
  unfold retireLocalCid
  dsimp only
  split
  · split_ifs
    · exact closing_promote _ _
    · rfl
  · rfl

theorem good_of_sound {s : LocalCids} (sound : Sound s) : Good s := ⟨sound.single,sound.gapless,sound.consecutive,sound.room⟩

theorem retirable_of_sound {s : LocalCids} (sound : Sound s) {event : Event} (careful : Careful s event) : Retirable s event := by
  have below : ∀ a ∈ s.issued, ¬(s.getPath a.pathId).any (a.sequenceNumber ≥ ·.nextLocalCidSeq) = true := by
    intro a there reaches
    cases found : s.getPath a.pathId with
    | none =>
      rw [found] at reaches
      cases reaches
    | some path =>
      rw [found] at reaches
      have marked := sound.marked a.pathId path.nextLocalCidSeq (by unfold mark; rw [found]; rfl)
      exact absurd (of_decide_eq_true reaches) (Nat.not_le_of_lt (marked.1 a there rfl))
  cases event with
  | pathRetire pathId sequenceNumber =>
    rintro ⟨a,there,rfl,rfl⟩
    dsimp only [step]
    unfold handlePathRetireConnectionId
    rw [if_neg (below a there)]
    exact closing_retire _ _ _
  | retire sequenceNumber =>
    rintro ⟨a,there,own,rfl⟩ few other
    have counted : ¬saturatingAdd s.incomingRetireCidCount 1 > incomingRetireCidCap := by
      unfold saturatingAdd
      omega
    have issued := below a there
    rw [own] at issued
    have elsewhere : s.incomingLocalCid.map (·.sequenceNumber) ≠ some a.sequenceNumber := by
      intro same
      obtain ⟨item,here,number⟩ := Option.map_eq_some_iff.mp same
      exact other item here ⟨careful item here number,number⟩
    dsimp only [step]
    unfold handleRetireConnectionId currentIncomingLocalCidSeq
    dsimp only
    rw [if_neg counted,if_neg elsewhere]
    split_ifs with above low
    · exact absurd above issued
    · rfl
    · exact closing_retire _ _ _
  | _ => trivial

end LocalCids

def initial (localMaxPathId : Nat) : LocalCids := {localMaxPathId}

theorem initial_sound (localMaxPathId : Nat) : Sound (initial localMaxPathId) := by
  refine ⟨fun _ there => (nomatch there),?_,fun _ there => (nomatch there),fun _ there => (nomatch there),rfl,?_,?_,
    fun _ => .nil,fun _ _ _ picked => (nomatch picked),fun _ => Nat.zero_le _,Nat.le_refl 2⟩
  · rintro item (there | there | there) <;> cases there
  · intro p there
    rw [List.mem_singleton.mp there]
    exact Nat.one_pos
  · intro pathId m marked
    refine ⟨fun _ there => (nomatch there),.inl ?_⟩
    unfold LocalCids.mark LocalCids.getPath initial at marked
    rw [List.find?_singleton] at marked
    split_ifs at marked
    · exact (Option.some.inj marked).symm
    · cases marked

theorem ids_issued_once (localMaxPathId : Nat) {events : List Event} (allowed : Admits step Allowed (initial localMaxPathId) events)
    (careful : Admits step Careful (initial localMaxPathId) events) :
    Throughout Good step (initial localMaxPathId) events ∧ Admits step Retirable (initial localMaxPathId) events := by
  have sound := initial_sound localMaxPathId
  have steps : ∀ s event, Sound s → Allowed s event ∧ Careful s event → Sound (step s event) :=
    fun s event sound admitted => LocalCids.step_sound sound admitted.1 admitted.2
  have reached : Reaches (· = initial localMaxPathId) step (fun s event => Allowed s event ∧ Careful s event) (initial localMaxPathId) :=
    .start rfl
  constructor
  · refine Throughout.of_reaches (fun s reached => ?_) reached (allowed.and careful)
    refine LocalCids.good_of_sound (reached.invariant Sound ?_ steps)
    rintro s rfl
    exact sound
  · exact Admits.under steps (fun s event sound admitted => LocalCids.retirable_of_sound sound admitted.2) sound (allowed.and careful)

def provision (b : Byte) : ConnectionIdProvision := ⟨[b],⟨List.replicate 16 b,rfl⟩,0⟩

/-- The handshake ID, two more, and a second path; the peer retires the newest ID of the first one, and gets another. -/
def usual : List Event :=
  [.setLocalScid [1],.peerParams 4 (some 4),.replenish [provision 2,provision 3],.openPath ⟨[9],by decide⟩ ⟨[8],by decide⟩,
    .datagram (some [1]),.retire 2,.pack true,.lost 0,.replenish [provision 4],.replenishPath 1 [provision 5],.pathRetire 1 1]

theorem ids_issued_once_usual : (run step (initial 4) usual).chosen 0 = [3,2,1] ∧
    Throughout Good step (initial 4) usual ∧ Admits step Retirable (initial 4) usual :=
  ⟨by decide +kernel,ids_issued_once 4 (by decide +kernel) (by decide +kernel)⟩

/-- IDs issued for a path that is not open: the peer retires the newest one, and its number goes to another ID. -/
def ahead : List Event :=
  [.setLocalScid [1],.peerParams 4 (some 4),.replenishPath 1 [provision 2],.pathRetire 1 0,.replenishPath 1 [provision 3]]

theorem number_issued_twice : ¬Good (run step (initial 4) ahead) := by
  intro good
  have clash := good.single ⟨1,0,⟨[3],by decide⟩⟩ (by decide +kernel) ⟨1,0,⟨[2],by decide⟩⟩ (by decide +kernel) rfl rfl
  exact absurd clash (by decide)

/-- The ID 1 of the first path is retired in a datagram to the ID 1 of the second one, and the connection closes. -/
example : (run step (initial 4) [.setLocalScid [1],.peerParams 4 (some 4),.replenish [provision 2],
    .openPath ⟨[9],by decide⟩ ⟨[8],by decide⟩,.replenishPath 1 [provision 5],.datagram (some [5]),.retire 1]).pendingClose.isSome := by
  decide +kernel

end QuicZig.Conn.LocalIds
