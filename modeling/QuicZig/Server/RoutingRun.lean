import QuicZig.Library.System
import QuicZig.Server.RetryGateSpec
import QuicZig.Server.RoutingSpec

/-! The routing table over whole runs of a server: which IDs it routes after every datagram, rotation and reap. -/
namespace QuicZig.Server.Routing
open Machine Codec Wire RetryGate
open Conn.LocalIds (LocalCids ConnectionIdProvision Registered)

/-- A step of the server, with what the calls of the outside give it. -/
inductive Event where
  | feed (d : Datagram)
  | rotate (minted : Nat → Option ConnId) (grows : Nat → Nat)
  | reap
  | close (key : Nat)

def step (s : Router) : Event → Router
  | .feed d => (s.feed d).1
  | .rotate minted grows => s.rotateLiveSlotCids minted grows
  | .reap => s.reap
  | .close key => s.close key

/-- An ID that this slot's peer may send to: it has been issued, and the peer has not retired it. -/
def Slot.Usable (slot : Slot) (cid : ConnId) : Prop :=
  ∃ a ∈ slot.conn.issued, a.cid = cid ∧ a.sequenceNumber ∉ slot.retired

instance (slot : Slot) (cid : ConnId) : Decidable (slot.Usable cid) :=
  inferInstanceAs (Decidable (∃ a ∈ slot.conn.issued,_))

/-- A packet with a short header that is addressed to an ID. -/
def AddressedTo (cid : ConnId) (d : Datagram) : Prop :=
  ∃ first rest, d.bytes = first::(cid.bytes ++ rest) ∧ first &&& (0x80 : Byte) = 0

structure Good (s : Router) : Prop where
  routes : ∀ slot ∈ s.slots, slot.closed = false → ∀ cid, slot.Usable cid → (s.cidTable.lookup cid).bind s.find = some slot
  entries : ∀ cid key, s.cidTable.lookup cid = some key → ∃ slot ∈ s.slots, s.find key = some slot ∧
    (cid = slot.initialDcid ∨ ∃ item ∈ slot.conn.localCids, item.cid = cid)
  unreset : ∀ slot ∈ s.slots, slot.closed = false → ∀ cid, slot.Usable cid → ∀ d, AddressedTo cid d →
    (s.feed d).2 ≠ .statelessResetSent

structure Housed (s : Router) (table : Table) (slot : Slot) : Prop where
  registered : Registered slot.conn slot.retired
  sized : ∀ item ∈ slot.conn.localCids, item.cid.bytes.length = s.localCidLen
  tracks : ∀ cid, cid ∈ slot.trackedCids ↔ ∃ item ∈ slot.conn.localCids, item.cid = cid
  routed : ∀ cid ∈ slot.trackedCids, table.lookup cid = some slot.key

structure Inv (s : Router) : Prop where
  named : 0 < s.localCidLen
  distinct : (s.slots.map Slot.key).Nodup
  below : ∀ slot ∈ s.slots, slot.key < s.nextSlotKey
  housed : ∀ slot ∈ s.slots, Housed s s.cidTable slot
  owned : ∀ cid key, s.cidTable.lookup cid = some key → ∃ slot ∈ s.slots, slot.key = key ∧
    (cid = slot.initialDcid ∨ cid ∈ slot.trackedCids)

theorem Inv.find {s : Router} (inv : Inv s) {slot : Slot} (there : slot ∈ s.slots) : s.find slot.key = some slot := by
  unfold Router.find
  cases found : s.slots.find? (·.key = slot.key) with
  | none =>
    have other := List.find?_eq_none.mp found slot there
    exact absurd (decide_eq_true rfl) other
  | some other =>
    have same : other.key = slot.key := by simpa using List.find?_some found
    rw [List.inj_on_of_nodup_map inv.distinct (List.mem_of_find?_eq_some found) there same]

theorem find_key {s : Router} {key : Nat} {slot : Slot} (found : s.find key = some slot) : slot ∈ s.slots ∧ slot.key = key :=
  ⟨List.mem_of_find?_eq_some found,by simpa using List.find?_some found⟩

theorem find_dcid {s : Router} {bytes : List Byte} {slot : Slot} (found : s.findSlotForDatagram bytes = some slot) :
    slot ∈ s.slots := by
  unfold Router.findSlotForDatagram at found
  obtain ⟨dcid,-,found⟩ := Option.bind_eq_some_iff.mp found
  obtain ⟨key,-,found⟩ := Option.bind_eq_some_iff.mp found
  exact (find_key found).1

theorem Inv.routes {s : Router} (inv : Inv s) {slot : Slot} (there : slot ∈ s.slots) {cid : ConnId}
    (usable : slot.Usable cid) :
    (s.cidTable.lookup cid).bind s.find = some slot ∧ cid.bytes.length = s.localCidLen := by
  obtain ⟨a,issued,rfl,fresh⟩ := usable
  have housed := inv.housed slot there
  obtain ⟨item,live,rfl⟩ := housed.registered.held a issued fresh
  change (s.cidTable.lookup item.cid).bind s.find = some slot ∧ item.cid.bytes.length = s.localCidLen
  rw [housed.routed item.cid ((housed.tracks item.cid).mpr ⟨item,live,rfl⟩)]
  exact ⟨inv.find there,housed.sized item live⟩

theorem routed_unreset {s : Router} {slot : Slot} {cid : ConnId} (routes : (s.cidTable.lookup cid).bind s.find = some slot)
    (sized : cid.bytes.length = s.localCidLen) {d : Datagram} (addressed : AddressedTo cid d) :
    (s.feed d).2 ≠ .statelessResetSent := by
  obtain ⟨first,rest,bytes,short⟩ := addressed
  have peeked : peekDcidForServer d.bytes s.localCidLen = some cid.bytes := by
    unfold peekDcidForServer
    rw [bytes]
    dsimp only
    have long : ¬(first::(cid.bytes ++ rest)).length < 1+s.localCidLen := by
      rw [List.length_cons,List.length_append,sized]
      omega
    rw [if_neg (not_not.mpr short),if_neg long,← sized,List.take_left]
  have found : s.findSlotForDatagram d.bytes = some slot := by
    unfold Router.findSlotForDatagram
    rw [peeked]
    change (s.cidTable.lookup (clamped cid.bytes)).bind s.find = some slot
    rw [clamped_cid]
    exact routes
  unfold Router.feed
  rw [found,bytes]
  dsimp only
  split_ifs
  · intro reset
    cases reset
  · unfold Router.feedRouted
    dsimp only
    split_ifs
    · intro reset
      cases reset
    · split <;> exact fun reset => nomatch reset

theorem Inv.good {s : Router} (inv : Inv s) : Good s := by
  refine ⟨fun slot there _ cid usable => (inv.routes there usable).1,fun cid key routed => ?_,
    fun slot there _ cid usable d addressed => ?_⟩
  · obtain ⟨slot,there,rfl,owns⟩ := inv.owned cid key routed
    exact ⟨slot,there,inv.find there,owns.imp_right ((inv.housed slot there).tracks cid).mp⟩
  · obtain ⟨routes,sized⟩ := inv.routes there usable
    exact routed_unreset routes sized addressed

theorem Inv.put {s : Router} (inv : Inv s) (slots : List Slot) (table : Table) (slot : Slot) (nextSlotKey : Nat)
    (distinct : (slots.map Slot.key).Nodup) (there : slot ∈ slots)
    (others : ∀ other, other.key ≠ slot.key → (other ∈ slots ↔ other ∈ s.slots)) (later : s.nextSlotKey ≤ nextSlotKey)
    (below : slot.key < nextSlotKey) (housed : Housed s table slot)
    (kept : ∀ cid key, key ≠ slot.key → (table.lookup cid = some key ↔ s.cidTable.lookup cid = some key))
    (own : ∀ cid, table.lookup cid = some slot.key → cid = slot.initialDcid ∨ cid ∈ slot.trackedCids) :
    Inv {s with slots := slots,cidTable := table,nextSlotKey := nextSlotKey} := by
  have split (other : Slot) (here : other ∈ slots) : other = slot ∨ other.key ≠ slot.key ∧ other ∈ s.slots := by
    by_cases same : other.key = slot.key
    · exact .inl (List.inj_on_of_nodup_map distinct here there same)
    · exact .inr ⟨same,(others other same).mp here⟩
  refine ⟨inv.named,distinct,fun other here => ?_,fun other here => ?_,fun cid key routed => ?_⟩
  · rcases split other here with rfl | ⟨-,old⟩
    · exact below
    · exact (inv.below other old).trans_le later
  · rcases split other here with rfl | ⟨different,old⟩
    · exact ⟨housed.registered,housed.sized,housed.tracks,housed.routed⟩
    · have before := inv.housed other old
      exact ⟨before.registered,before.sized,before.tracks,fun cid tracked => (kept cid _ different).mpr
        (before.routed cid tracked)⟩
  · by_cases same : key = slot.key
    · subst same
      exact ⟨slot,there,rfl,own cid routed⟩
    · obtain ⟨other,old,rfl,owns⟩ := inv.owned cid key ((kept cid key same).mp routed)
      exact ⟨other,(others other same).mpr old,rfl,owns⟩

theorem keys_commit (s : Router) (slot : Slot) (table : Table) :
    (s.commit slot table).slots.map Slot.key = s.slots.map Slot.key := by
  unfold Router.commit
  rw [List.map_map]
  refine List.map_congr_left fun other _ => ?_
  rw [Function.comp_apply]
  split_ifs with same
  · exact same.symm
  · rfl

theorem mem_commit {s : Router} {slot : Slot} (table : Table) {other : Slot} (different : other.key ≠ slot.key) :
    other ∈ (s.commit slot table).slots ↔ other ∈ s.slots := by
  unfold Router.commit
  dsimp only
  rw [List.mem_map]
  constructor
  · rintro ⟨before,there,rfl⟩
    split_ifs at different ⊢ with same
    · exact absurd rfl different
    · exact there
  · exact fun there => ⟨other,there,if_neg different⟩

theorem Inv.resync {s : Router} (inv : Inv s) {old slot : Slot} (there : old ∈ s.slots) (key : slot.key = old.key)
    (initialDcid : slot.initialDcid = old.initialDcid) (trackedCids : slot.trackedCids = old.trackedCids)
    (registered : Registered slot.conn slot.retired)
    (sized : ∀ item ∈ slot.conn.localCids, item.cid.bytes.length = s.localCidLen)
    (free : ∀ item ∈ slot.conn.localCids, (∃ before ∈ old.conn.localCids, before.cid = item.cid) ∨
      ∀ owner, s.cidTable.lookup item.cid = some owner → owner = old.key)
    {grows : Nat} (room : maxTrackedCidsPerSlot ≤ grows) (replenished : Bool) :
    ∃ tracked table, resyncSlotCids grows s.cidTable slot = ({slot with trackedCids := tracked},table,true) ∧
      Inv (s.commit {slot with trackedCids := tracked,cidsReplenished := replenished} table) ∧
      ∀ cid, s.cidTable.lookup cid = none → (∀ item ∈ slot.conn.localCids, item.cid ≠ cid) → table.lookup cid = none := by
  have housed := inv.housed old there
  have routed : ∀ cid ∈ slot.trackedCids, s.cidTable.lookup cid = some slot.key := by
    rw [trackedCids,key]
    exact housed.routed
  have mem := slot.mem_snapshot registered
  have own : ∀ cid ∈ slot.snapshot, ∀ owner, s.cidTable.lookup cid = some owner → owner = slot.key := by
    intro cid inside owner here
    obtain ⟨item,live,rfl⟩ := (mem cid).mp inside
    rw [key]
    rcases free item live with before | mine
    · rw [housed.routed item.cid ((housed.tracks item.cid).mpr before)] at here
      exact (Option.some.inj here).symm
    · exact mine owner here
  obtain ⟨tracked,table,made,members,entries⟩ := resync_spec own routed room
  refine ⟨tracked,table,made,?_,fun cid absent new => ?_⟩
  · refine inv.put (s.commit {slot with trackedCids := tracked,cidsReplenished := replenished} table).slots table
      {slot with trackedCids := tracked,cidsReplenished :=
        replenished} s.nextSlotKey ?_ ?_ (fun other different => mem_commit table different) (Nat.le_refl _) ?_ ?_ ?_ ?_
    · rw [keys_commit]
      exact inv.distinct
    · exact List.mem_map.mpr ⟨old,there,if_pos key.symm⟩
    · rw [key]
      exact inv.below old there
    · refine ⟨registered,sized,fun cid => (members cid).trans (mem cid),fun cid inside => ?_⟩
      rw [entries,if_pos ((members cid).mp inside)]
    · intro cid other different
      rw [entries]
      split_ifs with inside known
      · refine ⟨fun same => absurd (Option.some.inj same).symm different,fun here => ?_⟩
        exact absurd (own cid inside other here) different
      · refine ⟨fun none => (nomatch none),fun here => ?_⟩
        rw [routed cid known] at here
        exact absurd (Option.some.inj here).symm different
      · exact Iff.rfl
    · intro cid here
      rw [entries] at here
      split_ifs at here with inside known
      · exact .inr ((members cid).mpr inside)
      · obtain ⟨other,present,same,owns⟩ := inv.owned cid _ here
        have self : other = old := List.inj_on_of_nodup_map inv.distinct present there (same.trans key)
        rw [self,← initialDcid,← trackedCids] at owns
        exact .inl (owns.resolve_right known)
  · rw [entries,if_neg,if_neg]
    · exact absent
    · intro known
      rw [routed cid known] at absent
      cases absent
    · intro inside
      obtain ⟨item,live,same⟩ := (mem cid).mp inside
      exact new item live same

/-- An ID that is new to the table, and of the length that the server looks for. -/
def Fresh (s : Router) (cid : ConnId) : Prop := cid.bytes.length = s.localCidLen ∧ s.cidTable.lookup cid = none

/-- What the server is promised: the IDs that it mints are new and distinct, and no peer takes back its limit. The
ID of a handshake is the one that the client already sends to when it comes from a Retry. -/
def Promised (s : Router) : Event → Prop
  | .feed d =>
    let later := d.preferred.toList ++ d.minted.filterMap id
    (d.scid.toList ++ later).Nodup ∧ (∀ cid ∈ d.scid.toList ++ later, Fresh s cid) ∧
      (∀ cid ∈ later, ∀ ids ∈ peekLongHeaderIds d.bytes, cid ≠ clamped ids.dcid) ∧
      ParamsFit ((s.findSlotForDatagram d.bytes).elim 2 (·.conn.peerLimit)) d.handled.frames
  | .rotate minted _ => (∀ slot ∈ s.slots, ∀ cid ∈ minted slot.key, Fresh s cid) ∧
      ∀ one ∈ s.slots, ∀ two ∈ s.slots, ∀ cid ∈ minted one.key, minted two.key = some cid → one.key = two.key
  | .reap => True
  | .close _ => True

/-- The top-up issues IDs. -/
def Router.Tops (s : Router) (slot : Slot) (minted : List (Option ConnId)) : Prop :=
  s.topUpDue slot = true ∧ s.topUpBudget slot ≠ 0 ∧ s.topUpProvisions slot minted ≠ []

/-- The slot that a datagram is for, an old or a new one, after its frames. -/
def Router.dispatched (s : Router) (d : Datagram) : Option Slot :=
  match s.findSlotForDatagram d.bytes with
  | some slot => some (slot.dispatch (peekDcidForServer d.bytes s.localCidLen) d.handled)
  | none =>
    match peekLongHeaderIds d.bytes,d.scid.bind fun scid => s.openConn scid d.preferred with
    | some ids,some conn => some ((s.newSlot conn (clamped ids.dcid)).dispatch (some ids.dcid) d.handled)
    | _,_ => none

def Router.Rotates (s : Router) (minted : Nat → Option ConnId) (slot : Slot) : Prop :=
  s.lbFactory = true ∧ slot.closed = false ∧ slot.conn.localConnectionIdIssueBudget 0 ≠ 0 ∧
    ∃ derive ∈ s.statelessResetKey, ∃ cid ∈ minted slot.key, derive cid ≠ none

/-- Memory lasts, no datagram tops up the IDs of its slot, and rotations come to slots whose IDs are all retired. -/
def Calm (s : Router) : Event → Prop
  | .feed d => d.handled.outOfMemory = false ∧ maxTrackedCidsPerSlot ≤ d.grows ∧
  ∀ slot ∈ s.dispatched d, ¬s.Tops slot d.minted
  | .rotate minted grows => ∀ slot ∈ s.slots, s.Rotates minted slot →
      maxTrackedCidsPerSlot ≤ grows slot.key ∧ ∀ a ∈ slot.conn.issued, a.sequenceNumber ∈ slot.retired
  | .reap => True
  | .close _ => True

theorem replenish_calm {s : Router} (slot : Slot) {minted : List (Option ConnId)} (calm : ¬s.Tops slot minted) :
    s.maybeReplenishConnectionIds slot minted = {slot with cidsReplenished := slot.cidsReplenished || s.topUpDue slot} := by
  unfold Router.maybeReplenishConnectionIds
  by_cases due : s.topUpDue slot = true
  · rw [if_pos due,due,Bool.or_true]
    congr 1
    split_ifs with spent
    · rfl
    · have none : s.topUpProvisions slot minted = [] := by
        by_contra some
        exact calm ⟨due,spent,some⟩
      rw [none]
  · rw [if_neg due,Bool.eq_false_iff.mpr due,Bool.or_false]

theorem Inv.feedRouted {s : Router} (inv : Inv s) {slot : Slot} (there : slot ∈ s.slots) {d : Datagram}
    (fits : ParamsFit slot.conn.peerLimit d.handled.frames) (memory : d.handled.outOfMemory = false)
    (room : maxTrackedCidsPerSlot ≤ d.grows)
    (calm : ¬s.Tops (slot.dispatch (peekDcidForServer d.bytes s.localCidLen) d.handled) d.minted) :
    Inv (s.feedRouted slot d).1 := by
  have housed := inv.housed slot there
  have shrinks := Slot.dispatch_shrinks housed.registered (peekDcidForServer d.bytes s.localCidLen) fits
  unfold Router.feedRouted
  dsimp only
  rw [if_neg (Bool.eq_false_iff.mp memory)]
  generalize slot.dispatch (peekDcidForServer d.bytes s.localCidLen) d.handled = after at shrinks calm
  obtain ⟨tracked,table,made,inv',-⟩ := inv.resync there shrinks.key shrinks.initialDcid shrinks.trackedCids
    shrinks.registered
    (fun item live => housed.sized item (shrinks.live item live))
      (fun item live => .inl ⟨item,shrinks.live item live,rfl⟩) room
    (after.cidsReplenished || s.topUpDue after)
  rw [made]
  dsimp only
  have same := replenish_calm {after with trackedCids := tracked} calm
  rw [same]
  exact inv'

theorem openConn_spec {s : Router} (named : 0 < s.localCidLen) {scid : ConnId} {preferred : Option ConnId} {conn : LocalCids}
    (long : scid.bytes.length = s.localCidLen) (alt : ∀ cid ∈ preferred, cid.bytes.length = s.localCidLen)
    (made : s.openConn scid preferred = some conn) :
    Conn.LocalIds.Provides {} conn [] fun item => item.cid = scid ∨ preferred = some item.cid := by
  have filled (cid : ConnId) (long : cid.bytes.length = s.localCidLen) : cid.bytes ≠ [] := by
    intro empty
    rw [empty] at long
    exact absurd long (Nat.ne_of_lt named)
  have inj {one two : ConnId} (same : one.bytes = two.bytes) : one = two := by
    rw [← clamped_cid one,same,clamped_cid]
  have first : Conn.LocalIds.Provides {} (LocalCids.setLocalScid {} scid.bytes).2 [] fun item =>
      item.cid = scid ∨ preferred = some item.cid :=
    (Conn.LocalIds.LocalCids.registered_first (filled scid long) scid.short).weaken fun item same => .inl (inj same)
  unfold Router.openConn at made
  cases set : LocalCids.setLocalScid {} scid.bytes with
  | mk answer conn0 =>
    rw [set] at made first
    cases answer with
    | error e => cases made
    | ok _ =>
      dsimp only at made first
      cases key : s.statelessResetKey with
      | none =>
        rw [key] at made
        cases made
        exact first
      | some derive =>
        cases given : preferred with
        | none =>
          rw [key,given] at made
          cases made
          rw [given] at first
          exact first
        | some cid =>
          rw [key,given] at made
          obtain ⟨token,-,rfl⟩ := Option.map_eq_some_iff.mp made
          rw [given] at first
          refine first.trans ((Conn.LocalIds.LocalCids.Registered.replenish first.registered ?_ ?_).weaken ?_)
          · intro p only
            rw [List.mem_singleton.mp only]
            exact filled cid (alt cid given)
          · intro p only
            rw [List.mem_singleton.mp only]
          · rintro item ⟨p,only,same⟩
            rw [List.mem_singleton.mp only] at same
            exact .inr (congrArg some (inj same).symm)

theorem Inv.opened {s : Router} (inv : Inv s) {initialDcid : ConnId} (free : s.cidTable.lookup initialDcid = none) :
    Inv {s with
      slots := s.slots ++ [s.newSlot {} initialDcid]
      cidTable := s.cidTable.insert initialDcid s.nextSlotKey
      nextSlotKey := s.nextSlotKey+1
    } := by
  have newest (slot : Slot) (there : slot ∈ s.slots) : slot.key ≠ s.nextSlotKey := (inv.below slot there).ne
  refine inv.put (s.slots ++ [s.newSlot {} initialDcid]) (s.cidTable.insert initialDcid s.nextSlotKey)
    (s.newSlot {} initialDcid) (s.nextSlotKey+1) ?_ (List.mem_append_right _ List.mem_cons_self) ?_ (Nat.le_succ _)
    (Nat.lt_succ_self _) ?_ ?_ ?_
  · rw [List.map_append,List.nodup_append]
    refine ⟨inv.distinct,List.nodup_singleton _,?_⟩
    rintro key old _ only rfl
    obtain ⟨slot,there,same⟩ := List.mem_map.mp old
    exact newest slot there (same.trans (List.mem_singleton.mp only))
  · intro other different
    rw [List.mem_append]
    refine ⟨fun here => here.resolve_right fun only => different ?_,.inl⟩
    rw [List.mem_singleton.mp only]
  · have registered : Registered {} [] := ⟨Conn.LocalIds.initial_sound 0,rfl,fun _ there => absurd there List.not_mem_nil,
      fun _ there => absurd there List.not_mem_nil⟩
    refine ⟨registered,fun _ there => absurd there List.not_mem_nil,fun cid =>
      ⟨fun there => absurd there List.not_mem_nil,?_⟩,
      fun _ there => absurd there List.not_mem_nil⟩
    rintro ⟨item,there,-⟩
    exact absurd there List.not_mem_nil
  · intro cid key different
    by_cases same : cid = initialDcid
    · subst same
      rw [Finmap.lookup_insert,free]
      exact ⟨fun own => absurd (Option.some.inj own).symm different,fun none => nomatch none⟩
    · rw [Finmap.lookup_insert_of_ne _ same]
  · intro cid own
    by_cases same : cid = initialDcid
    · exact .inl same
    · rw [Finmap.lookup_insert_of_ne _ same] at own
      obtain ⟨slot,there,key,-⟩ := inv.owned cid _ own
      exact absurd key (newest slot there)

theorem replace_last {slots : List Slot} {key : Nat} (newest : ∀ slot ∈ slots, slot.key ≠ key) (old new : Slot)
    (same : old.key = key) (own : new.key = key) :
    ((slots ++ [old]).map fun other => if other.key = new.key then new else other) = slots ++ [new] := by
  have olds : (slots.map fun other => if other.key = new.key then new else other) = slots.map id :=
    List.map_congr_left fun other there => if_neg (own ▸ newest other there)
  rw [List.map_append,olds,List.map_id,List.map_singleton,if_pos (same.trans own.symm)]

theorem Inv.feedOpening {s : Router} (inv : Inv s) {d : Datagram} {ids : LongHeaderIds} {conn : LocalCids}
    (read : peekLongHeaderIds d.bytes = some ids) (made : (d.scid.bind fun scid => s.openConn scid d.preferred) = some conn)
    (free : s.cidTable.lookup (clamped ids.dcid) = none)
    (scid : ∀ cid ∈ d.scid, Fresh s cid)
    (preferred : ∀ cid ∈ d.preferred, Fresh s cid ∧ cid ≠ clamped ids.dcid) (fits : ParamsFit 2 d.handled.frames)
    (memory : d.handled.outOfMemory = false) (room : maxTrackedCidsPerSlot ≤ d.grows)
    (calm : ¬s.Tops ((s.newSlot conn (clamped ids.dcid)).dispatch (some ids.dcid) d.handled) d.minted) :
    Inv (s.feedOpening d).1 := by
  obtain ⟨cid,given,made'⟩ := Option.bind_eq_some_iff.mp made
  have provides := openConn_spec inv.named (scid cid given).1 (fun alt there => (preferred alt there).1.1) made'
  have opened := inv.opened free
  have limit : conn.peerLimit = 2 := provides.limit
  have registered : Registered (s.newSlot conn (clamped ids.dcid)).conn (s.newSlot conn (clamped ids.dcid)).retired :=
    provides.registered
  have shrinks := Slot.dispatch_shrinks registered (some ids.dcid) (limit.symm ▸ fits : ParamsFit conn.peerLimit _)
  unfold Router.feedOpening
  rw [read,made]
  dsimp only
  generalize (s.newSlot conn (clamped ids.dcid)).dispatch (some ids.dcid) d.handled = after at shrinks calm
  split_ifs with grows gone still
  · rw [memory] at gone
    cases gone
  · have same : dropAllCidsFromTable after (s.cidTable.insert (clamped ids.dcid) s.nextSlotKey) = s.cidTable := by
      refine Finmap.ext_lookup fun other => ?_
      rw [lookup_drop,shrinks.initialDcid,shrinks.trackedCids,shrinks.key]
      by_cases own : other = clamped ids.dcid
      · subst own
        rw [Finmap.lookup_insert,free,if_pos ⟨.inl rfl,rfl⟩]
      · rw [Finmap.lookup_insert_of_ne _ own,if_neg]
        rintro ⟨mine | tracked,-⟩
        · exact own mine
        · exact absurd tracked List.not_mem_nil
    change Inv {s with
      cidTable := dropAllCidsFromTable after (s.cidTable.insert (clamped ids.dcid) s.nextSlotKey)
      nextSlotKey := s.nextSlotKey+1
    }
    rw [same]
    exact ⟨inv.named,inv.distinct,fun slot there => (inv.below slot there).trans (Nat.lt_succ_self _),
      fun slot there => ⟨(inv.housed slot there).registered,(inv.housed slot there).sized,(inv.housed slot there).tracks,
        (inv.housed slot there).routed⟩,inv.owned⟩
  · have origin (item) (live : item ∈ after.conn.localCids) : item.cid = cid ∨ d.preferred = some item.cid :=
      (provides.live item (shrinks.live item live)).resolve_left List.not_mem_nil
    have fresh (item) (live : item ∈ after.conn.localCids) : Fresh s item.cid := by
      rcases origin item live with same | same
      · rw [same]
        exact scid cid given
      · exact (preferred item.cid same).1
    have mine (item) (live : item ∈ after.conn.localCids) (owner : Nat)
        (owned : (s.cidTable.insert (clamped ids.dcid) s.nextSlotKey).lookup item.cid = some owner) : owner =
          s.nextSlotKey := by
      by_cases same : item.cid = clamped ids.dcid
      · rw [same,Finmap.lookup_insert] at owned
        exact (Option.some.inj owned).symm
      · rw [Finmap.lookup_insert_of_ne _ same,(fresh item live).2] at owned
        cases owned
    obtain ⟨tracked,table,synced,inv',-⟩ := opened.resync (List.mem_append_right _ List.mem_cons_self) shrinks.key
      shrinks.initialDcid
      shrinks.trackedCids shrinks.registered (fun item live => (fresh item live).1)
        (fun item live => .inr (mine item live)) room
      (after.cidsReplenished || s.topUpDue after)
    have synced : resyncSlotCids d.grows (s.cidTable.insert (s.newSlot conn (clamped ids.dcid)).initialDcid
      (s.newSlot conn (clamped ids.dcid)).key) after = _ := synced
    have same : Router.maybeReplenishConnectionIds {s with nextSlotKey := s.nextSlotKey+1} {after with trackedCids :=
      tracked} d.minted =
      _ := replenish_calm {after with trackedCids := tracked} calm
    rw [synced]
    dsimp only
    rw [same]
    have newest (slot : Slot) (there : slot ∈ s.slots) : slot.key ≠ after.key := by
      rw [shrinks.key]
      exact (inv.below slot there).ne
    have alone := replace_last newest (s.newSlot {} (clamped ids.dcid)) {after with
      trackedCids := tracked
      cidsReplenished := after.cidsReplenished || s.topUpDue after
    } shrinks.key.symm rfl
    unfold Router.commit at inv'
    dsimp only at inv' alone
    rw [alone] at inv'
    exact inv'
  · exact inv

theorem Inv.unrouted {s : Router} (inv : Inv s) {bytes : List Byte} {ids : LongHeaderIds}
    (read : peekLongHeaderIds bytes = some ids)
    {first : Byte} {rest : List Byte} (form : bytes = first::rest) (long : first &&& (0x80 : Byte) ≠ 0)
    (absent : s.findSlotForDatagram bytes = none) : s.cidTable.lookup (clamped ids.dcid) = none := by
  have peeked : peekDcidForServer bytes s.localCidLen = some ids.dcid := by
    unfold peekDcidForServer
    rw [form] at read ⊢
    dsimp only
    rw [if_pos long,read]
    rfl
  unfold Router.findSlotForDatagram at absent
  rw [peeked] at absent
  change (s.cidTable.lookup (clamped ids.dcid)).bind s.find = none at absent
  cases here : s.cidTable.lookup (clamped ids.dcid) with
  | none => rfl
  | some key =>
    obtain ⟨slot,there,rfl,-⟩ := inv.owned _ key here
    rw [here] at absent
    change s.find slot.key = none at absent
    rw [inv.find there] at absent
    cases absent

theorem inv_feed {s : Router} (inv : Inv s) {d : Datagram} (promised : Promised s (.feed d)) (calm : Calm s (.feed d)) :
    Inv (s.feed d).1 := by
  obtain ⟨-,fresh,apart,fits⟩ := promised
  obtain ⟨memory,room,idle⟩ := calm
  unfold Router.feed
  split
  · exact inv
  · rename_i first rest form
    by_cases passes : d.passes = true
    · rw [passes,Bool.not_true,if_neg Bool.false_ne_true]
      cases found : s.findSlotForDatagram d.bytes with
      | some slot =>
        rw [found] at fits
        have idle' := idle (slot.dispatch (peekDcidForServer d.bytes s.localCidLen) d.handled) (by
          unfold Router.dispatched
          rw [found]
          rfl)
        exact inv.feedRouted (find_dcid found) fits memory room idle'
      | none =>
        rw [found] at fits
        dsimp only
        split_ifs with short unused admitted
        · exact inv
        · exact inv
        · cases read : peekLongHeaderIds d.bytes with
          | none =>
            unfold Router.feedOpening
            rw [read]
            exact inv
          | some ids =>
            cases made : d.scid.bind fun scid => s.openConn scid d.preferred with
            | none =>
              unfold Router.feedOpening
              rw [read,made]
              exact inv
            | some conn =>
              have idle' := idle ((s.newSlot conn (clamped ids.dcid)).dispatch (some ids.dcid) d.handled) (by
                unfold Router.dispatched
                rw [found,read,made]
                rfl)
              refine inv.feedOpening read made (inv.unrouted read form short found) (fun cid given => ?_)
                (fun cid given => ?_) fits
                memory room idle'
              · exact fresh cid (List.mem_append_left _ (Option.mem_toList.mpr given))
              · have later : cid ∈ d.preferred.toList ++ d.minted.filterMap id :=
                  List.mem_append_left _ (Option.mem_toList.mpr given)
                exact ⟨fresh cid (List.mem_append_right _ later),apart cid later ids read⟩
        · exact inv
    · rw [Bool.eq_false_iff.mpr passes,Bool.not_false,if_pos rfl]
      exact inv

/-- What a rotation needs of the slots that it has yet to come to. -/
structure Awaits (s : Router) (minted : Nat → Option ConnId) (grows : Nat → Nat) (derive : ConnId → Option (Fixed 16))
    (key : Nat) :
    Prop where
  fresh : ∀ slot ∈ s.slots, slot.key = key → ∀ cid ∈ minted key, Fresh s cid
  calm : ∀ slot ∈ s.slots, slot.key = key → slot.closed = false → slot.conn.localConnectionIdIssueBudget 0 ≠ 0 →
    ∀ cid ∈ minted key, derive cid ≠ none → maxTrackedCidsPerSlot ≤ grows key ∧
      ∀ a ∈ slot.conn.issued, a.sequenceNumber ∈ slot.retired

theorem Inv.commit_same {s : Router} (inv : Inv s) {slot : Slot} (there : slot ∈ s.slots) :
    s.commit slot s.cidTable = s := by
  have olds : (s.slots.map fun other => if other.key = slot.key then slot else other) = s.slots.map id := by
    refine List.map_congr_left fun other here => ?_
    split_ifs with same
    · exact (List.inj_on_of_nodup_map inv.distinct here there same).symm
    · rfl
  unfold Router.commit
  rw [olds,List.map_id]

/-- One slot of a rotation: the others stay, and no more than the minted ID is new in the table. -/
structure RotatedAt (s t : Router) (minted : Nat → Option ConnId) (key : Nat) : Prop where
  inv : Inv t
  len : t.localCidLen = s.localCidLen
  others : ∀ slot, slot.key ≠ key → (slot ∈ t.slots ↔ slot ∈ s.slots)
  absent : ∀ cid, s.cidTable.lookup cid = none → minted key ≠ some cid → t.cidTable.lookup cid = none

theorem Inv.rotateSlot {s : Router} (inv : Inv s) {minted : Nat → Option ConnId} {grows : Nat → Nat}
    {derive : ConnId → Option (Fixed 16)} {key : Nat} (awaits : Awaits s minted grows derive key) :
    RotatedAt s (Router.rotateSlot derive minted grows s key) minted key := by
  have still : RotatedAt s s minted key := ⟨inv,rfl,fun _ _ => Iff.rfl,fun _ none _ => none⟩
  unfold Router.rotateSlot
  split
  · rename_i slot cid found given
    obtain ⟨there,rfl⟩ := find_key found
    split_ifs with skipped
    · exact still
    · rw [Bool.or_eq_true,not_or] at skipped
      split
      · exact still
      · rename_i token derived
        obtain ⟨room,gone⟩ := awaits.calm slot there rfl (Bool.eq_false_iff.mpr skipped.1) (by simpa using skipped.2)
          cid given
          (by rw [derived]; exact Option.some_ne_none _)
        obtain ⟨long,absent⟩ := awaits.fresh slot there rfl cid given
        have housed := inv.housed slot there
        have filled : cid.bytes ≠ [] := by
          intro empty
          rw [empty] at long
          exact absurd long (Nat.ne_of_lt inv.named)
        have provides := Conn.LocalIds.LocalCids.Registered.rotate housed.registered token filled gone
        cases made : slot.conn.replenishConnectionIds [{
            connectionId := cid.bytes
            statelessResetToken := token
            retirePriorTo := slot.conn.nextLocalCidSequence 0
          }] with
        | mk answer conn =>
          rw [made] at provides
          cases answer with
          | error e =>
            have same := Conn.LocalIds.LocalCids.replenish_failed housed.registered.unblocked made
            dsimp only
            rw [same]
            change RotatedAt s (s.commit slot s.cidTable) minted slot.key
            rw [inv.commit_same there]
            exact still
          | ok _ =>
            have given' (item) (live : item ∈ conn.localCids) : item ∈ slot.conn.localCids ∨ item.cid = cid := by
              refine (provides.live item live).imp_right fun same => ?_
              rw [← clamped_cid item.cid,same,clamped_cid]
            have sized (item) (live : item ∈ conn.localCids) : item.cid.bytes.length = s.localCidLen := by
              rcases given' item live with old | new
              · exact housed.sized item old
              · rw [new]
                exact long
            have free (item) (live : item ∈ conn.localCids) : (∃ before ∈ slot.conn.localCids, before.cid = item.cid) ∨
                ∀ owner, s.cidTable.lookup item.cid = some owner → owner = slot.key := by
              rcases given' item live with old | new
              · exact .inl ⟨item,old,rfl⟩
              · refine .inr fun owner owned => ?_
                rw [new,absent] at owned
                cases owned
            obtain ⟨tracked,table,synced,inv',absent'⟩ :=
              Inv.resync inv there (rfl : ({slot with conn := conn} : Slot).key = slot.key)
              rfl rfl provides.registered sized free room slot.cidsReplenished
            dsimp only
            rw [synced]
            refine ⟨inv',rfl,fun other different => mem_commit table different,fun c none other => absent' c none
              fun item live same => ?_⟩
            rcases given' item live with old | new
            · rw [← same,housed.routed item.cid ((housed.tracks item.cid).mpr ⟨item,old,rfl⟩)] at none
              cases none
            · exact other (given.trans (congrArg some (new.symm.trans same)))
  · exact still

theorem Inv.rotateSlots {keys : List Nat} (distinct : keys.Nodup) {s : Router} (inv : Inv s) {minted : Nat → Option ConnId}
    {grows : Nat → Nat} {derive : ConnId → Option (Fixed 16)}
    (apart : ∀ one ∈ keys, ∀ two ∈ keys, ∀ cid ∈ minted one, minted two = some cid → one = two)
    (awaits : ∀ key ∈ keys, Awaits s minted grows derive key) :
    Inv (keys.foldl (Router.rotateSlot derive minted grows) s) := by
  induction keys generalizing s with
  | nil => exact inv
  | cons key rest ih =>
    obtain ⟨new,later⟩ := List.nodup_cons.mp distinct
    have one := inv.rotateSlot (awaits key List.mem_cons_self)
    refine ih later one.inv (fun a ina b inb => apart a (List.mem_cons_of_mem _ ina) b (List.mem_cons_of_mem _ inb))
      fun other inside => ?_
    have different : other ≠ key := fun same => new (same ▸ inside)
    have before := awaits other (List.mem_cons_of_mem _ inside)
    refine ⟨fun slot there own cid given => ?_,fun slot there own => ?_⟩
    · obtain ⟨long,absent⟩ := before.fresh slot ((one.others slot (own ▸ different)).mp there) own cid given
      refine ⟨long.trans one.len.symm,one.absent cid absent fun same => different ?_⟩
      exact apart other (List.mem_cons_of_mem _ inside) key List.mem_cons_self cid given same
    · exact before.calm slot ((one.others slot (own ▸ different)).mp there) own

theorem inv_rotate {s : Router} (inv : Inv s) {minted : Nat → Option ConnId} {grows : Nat → Nat}
    (promised : Promised s (.rotate minted grows)) (calm : Calm s (.rotate minted grows)) :
    Inv (s.rotateLiveSlotCids minted grows) := by
  obtain ⟨fresh,apart⟩ := promised
  unfold Router.rotateLiveSlotCids
  split
  · rename_i derive factory key
    refine inv.rotateSlots inv.distinct (fun one inOne two inTwo cid given same => ?_) fun key' inside => ⟨?_,?_⟩
    · obtain ⟨a,thereA,rfl⟩ := List.mem_map.mp inOne
      obtain ⟨b,thereB,rfl⟩ := List.mem_map.mp inTwo
      exact apart a thereA b thereB cid given same
    · rintro slot there rfl cid given
      exact fresh slot there cid given
    · rintro slot there rfl opened budget cid given derived
      exact calm slot there ⟨factory,opened,budget,derive,key,cid,given,derived⟩
  · exact inv

theorem lookup_drops (slots : List Slot) (table : Table) (cid : ConnId) (key : Nat) :
    (slots.foldr dropAllCidsFromTable table).lookup cid = some key ↔ table.lookup cid = some key ∧
      ∀ slot ∈ slots, slot.key = key → ¬(cid = slot.initialDcid ∨ cid ∈ slot.trackedCids) := by
  induction slots with
  | nil => simp
  | cons slot rest ih =>
    rw [List.foldr_cons,lookup_drop,List.forall_mem_cons,← and_assoc,and_right_comm,← ih]
    generalize rest.foldr dropAllCidsFromTable table = after
    split_ifs with gone
    · refine ⟨fun none => (nomatch none),fun ⟨same,stays⟩ => ?_⟩
      exact absurd gone.1 (stays (Option.some.inj (gone.2.symm.trans same)))
    · refine ⟨fun same => ⟨same,fun own names => gone ⟨names,own ▸ same⟩⟩,And.left⟩

theorem inv_reap {s : Router} (inv : Inv s) : Inv s.reap := by
  have closed (slot : Slot) : slot ∈ s.slots.filter (·.closed) ↔ slot ∈ s.slots ∧ slot.closed = true := List.mem_filter
  have stays (slot : Slot) : slot ∈ s.slots.filter (!·.closed) ↔ slot ∈ s.slots ∧ slot.closed = false := by
    rw [List.mem_filter,Bool.not_eq_true']
  refine ⟨inv.named,inv.distinct.sublist (List.filter_sublist.map Slot.key),fun slot there => inv.below slot
    ((stays slot).mp there).1,
    fun slot there => ?_,fun cid key routed => ?_⟩
  · obtain ⟨there,opened⟩ := (stays slot).mp there
    have housed := inv.housed slot there
    refine ⟨housed.registered,housed.sized,housed.tracks,fun cid tracked => ?_⟩
    refine (lookup_drops _ s.cidTable cid slot.key).mpr ⟨housed.routed cid tracked,fun other inside same => ?_⟩
    obtain ⟨here,gone⟩ := (closed other).mp inside
    rw [List.inj_on_of_nodup_map inv.distinct here there same,opened] at gone
    cases gone
  · obtain ⟨before,kept⟩ := (lookup_drops _ s.cidTable cid key).mp routed
    obtain ⟨slot,there,own,names⟩ := inv.owned cid key before
    refine ⟨slot,(stays slot).mpr ⟨there,Bool.eq_false_iff.mpr fun gone => ?_⟩,own,names⟩
    exact kept slot ((closed slot).mpr ⟨there,gone⟩) own names

theorem inv_close {s : Router} (inv : Inv s) (key : Nat) : Inv (s.close key) := by
  have same (slot : Slot) : (if slot.key = key then {slot with closed := true} else slot).key = slot.key := by
    split_ifs <;> rfl
  refine ⟨inv.named,?_,fun slot there => ?_,fun slot there => ?_,fun cid other routed => ?_⟩
  · unfold Router.close
    rw [List.map_map]
    have keys : s.slots.map (Slot.key ∘ fun slot => if slot.key = key then {slot with closed := true} else slot) =
      s.slots.map Slot.key := List.map_congr_left fun slot _ => same slot
    rw [keys]
    exact inv.distinct
  · obtain ⟨before,old,rfl⟩ := List.mem_map.mp there
    rw [same]
    exact inv.below before old
  · obtain ⟨before,old,rfl⟩ := List.mem_map.mp there
    have housed := inv.housed before old
    split_ifs
    · exact ⟨housed.registered,housed.sized,housed.tracks,housed.routed⟩
    · exact ⟨housed.registered,housed.sized,housed.tracks,housed.routed⟩
  · obtain ⟨slot,there,own,names⟩ := inv.owned cid other routed
    refine ⟨_,List.mem_map.mpr ⟨slot,there,rfl⟩,(same slot).trans own,?_⟩
    split_ifs <;> exact names

theorem inv_step {s : Router} (inv : Inv s) {event : Event} (promised : Promised s event) (calm : Calm s event) :
    Inv (step s event) := by
  cases event with
  | feed d => exact inv_feed inv promised calm
  | rotate minted grows => exact inv_rotate inv promised calm
  | reap => exact inv_reap inv
  | close key => exact inv_close inv key

/-- A server that has not been fed; its IDs are not empty. -/
structure Start (s : Router) : Prop where
  slots : s.slots = []
  cidTable : s.cidTable = ∅
  named : 0 < s.localCidLen

theorem inv_start {s : Router} (start : Start s) : Inv s := by
  have none (slot : Slot) (there : slot ∈ s.slots) : False := by
    rw [start.slots] at there
    exact absurd there List.not_mem_nil
  refine ⟨start.named,?_,fun slot there => (none slot there).elim,fun slot there => (none slot there).elim,fun cid key
    routed => ?_⟩
  · rw [start.slots]
    exact List.nodup_nil
  · rw [start.cidTable] at routed
    cases routed

/-- In a calm run the table routes every ID that a peer may send to, and nothing but its slots' IDs. -/
theorem ids_stay_routed {s : Router} (start : Start s) (events : List Event)
    (admitted : System.Admits step (fun s event => Promised s event ∧ Calm s event) s events) :
    System.Throughout Good step s events := by
  refine System.Throughout.of_reaches (fun s' reached => ?_) (@System.Reaches.start _ _ (· = s) step _ _ rfl) admitted
  refine (reached.invariant Inv ?_ fun s event inv met => inv_step inv met.1 met.2).good
  rintro s rfl
  exact inv_start start

instance (s : Router) (cid : ConnId) : Decidable (Fresh s cid) := inferInstanceAs (Decidable (_ ∧ _))

instance (s : Router) (slot : Slot) (minted : List (Option ConnId)) : Decidable (s.Tops slot minted) :=
  inferInstanceAs (Decidable (_ ∧ _))

instance (s : Router) (minted : Nat → Option ConnId) (slot : Slot) : Decidable (s.Rotates minted slot) :=
  inferInstanceAs (Decidable (_ ∧ _))

instance (s : Router) (event : Event) : Decidable (Promised s event) :=
  match event with
  | .feed _ => inferInstanceAs (Decidable (_ ∧ _))
  | .rotate _ _ => inferInstanceAs (Decidable (_ ∧ _))
  | .reap => isTrue trivial
  | .close _ => isTrue trivial

instance (s : Router) (event : Event) : Decidable (Calm s event) :=
  match event with
  | .feed _ => inferInstanceAs (Decidable (_ ∧ _))
  | .rotate _ _ => inferInstanceAs (Decidable (∀ slot ∈ s.slots,_))
  | .reap => isTrue trivial
  | .close _ => isTrue trivial

theorem eightTimes_short (b : Byte) : (List.replicate 8 b).length ≤ maxCidLen := by
  rw [List.length_replicate]
  decide

def eightTimes (b : Byte) : ConnId := ⟨List.replicate 8 b,eightTimes_short b⟩

def server : Router where
  localCidLen := 8
  statelessResetKey := some fun cid => some ⟨(cid.bytes ++ List.replicate 16 0).take 16,by simp⟩
  lbFactory := true

def initialTo (cid : ConnId) : Datagram := {bytes := [0xc0,0,0,0,1,UInt8.ofNat cid.bytes.length] ++ cid.bytes ++ [0]}

def packetTo (cid : ConnId) : Datagram := {bytes := (0x40 : Byte)::(cid.bytes ++ List.replicate 32 0)}

theorem packetTo_addressed (cid : ConnId) : AddressedTo cid (packetTo cid) := ⟨0x40,List.replicate 32 0,rfl,by decide⟩

/-- A client that moves to its server's preferred address, and goes. -/
def visit : List Event := [
  .feed {initialTo (eightTimes 1) with scid := some (eightTimes 2),preferred := some (eightTimes 3)},
  .feed {packetTo (eightTimes 2) with handled := {frames := [.peerParams 4],handshakeDone := true}},
  .feed {packetTo (eightTimes 3) with handled := {frames := [.retireConnectionId 0]}},
  .close 0,
  .rotate (fun _ => some (eightTimes 4)) fun _ => 0,
  .reap]

theorem ids_stay_routed_once : System.Throughout Good step {server with autoReplenishConnectionIds := false} visit :=
  ids_stay_routed ⟨rfl,rfl,by decide⟩ visit (by decide +kernel)

/-- The datagram that ends the handshake tops up the IDs of its slot. -/
def toppedUp : List Event := [
  .feed {initialTo (eightTimes 1) with scid := some (eightTimes 2)},
  .feed {packetTo (eightTimes 2) with
    handled := {frames := [.peerParams 4],handshakeDone := true}
    minted := [some (eightTimes 3),some (eightTimes 4),some (eightTimes 5)]
  }]

/-- A rotation, and nothing from the client behind it. -/
def rotated : List Event := [
  .feed {initialTo (eightTimes 1) with scid := some (eightTimes 2)},
  .rotate (fun _ => some (eightTimes 3)) fun _ => maxTrackedCidsPerSlot]

/-- A packet to an ID that the peer may send to is answered with a reset. -/
def Resets (s : Router) (cid : ConnId) : Prop :=
  (∃ slot ∈ s.slots, slot.closed = false ∧ slot.Usable cid) ∧ (s.feed (packetTo cid)).2 = .statelessResetSent

instance (s : Router) (cid : ConnId) : Decidable (Resets s cid) := inferInstanceAs (Decidable (_ ∧ _))

theorem Resets.not_good {s : Router} {cid : ConnId} (resets : Resets s cid) : ¬Good s := by
  obtain ⟨⟨slot,there,opened,usable⟩,answer⟩ := resets
  exact fun good => good.unreset slot there opened cid usable (packetTo cid) (packetTo_addressed cid) answer

/-- The IDs of a top-up are in the frames that go out next, and not in the table; a rotation takes the ID out of the table
that the client goes on to use until it hears of the new one. -/
theorem usable_id_reset : (System.Admits step Promised server toppedUp ∧ ¬System.Throughout Good step server toppedUp) ∧
    System.Admits step Promised server rotated ∧ ¬System.Throughout Good step server rotated := by
  have fresh : Resets (System.run step server toppedUp) (eightTimes 3) := by decide +kernel
  have old : Resets (System.run step server rotated) (eightTimes 2) := by decide +kernel
  exact ⟨⟨by decide +kernel,fun all => fresh.not_good all.last⟩,by decide +kernel,fun all => old.not_good all.last⟩

end QuicZig.Server.Routing
