import QuicZig.Conn.LocalCidRun
import QuicZig.Wire.HeaderRoundTrip

/-! Which local IDs stay in the registry: all that were issued on the first path and that the peer has not retired,
as long as no new ID asks to retire one of them. -/
namespace QuicZig.Conn.LocalIds
open Machine Codec Wire
open Paths (IssuedCid)

/-- The registry of a connection with one path. -/
structure Registered (conn : LocalCids) (retired : List Nat) : Prop where
  sound : Sound conn
  unblocked : conn.pathCidsBlocked = none
  first : ∀ a ∈ conn.issued, a.pathId = 0
  held : ∀ a ∈ conn.issued, a.sequenceNumber ∉ retired → ∃ item ∈ conn.localCids, issuedAs item = a

/-- A call that issues IDs, and leaves those of before to the peer. -/
structure Provides (s t : LocalCids) (retired : List Nat) (given : IssuedCid → Prop) : Prop where
  registered : Registered t retired
  live : ∀ item ∈ t.localCids, item ∈ s.localCids ∨ given item
  limit : t.peerLimit = s.peerLimit

theorem Provides.none {s : LocalCids} {retired : List Nat} (registered : Registered s retired) (given : IssuedCid → Prop) :
    Provides s s retired given := ⟨registered,fun _ there => .inl there,rfl⟩

theorem Provides.weaken {s t : LocalCids} {retired : List Nat} {given more : IssuedCid → Prop}
    (provides : Provides s t retired given) (implied : ∀ item, given item → more item) : Provides s t retired more :=
  ⟨provides.registered,fun item there => (provides.live item there).imp_right (implied item),provides.limit⟩

theorem Provides.trans {s t u : LocalCids} {retired : List Nat} {given : IssuedCid → Prop}
    (one : Provides s t retired given) (two : Provides t u retired given) : Provides s u retired given :=
  ⟨two.registered,fun item there => (two.live item there).elim (one.live item) .inr,two.limit.trans one.limit⟩

namespace LocalCids

theorem live_promote (conn : LocalCids) (pathId : Nat) :
    (conn.promoteLocalCidForPath pathId).localCids = conn.localCids ∧
      (conn.promoteLocalCidForPath pathId).pathCidsBlocked = conn.pathCidsBlocked := by
  unfold promoteLocalCidForPath
  split
  · exact ⟨rfl,rfl⟩
  · dsimp only
    split_ifs <;> exact ⟨rfl,rfl⟩

theorem live_retirePriorTo (conn : LocalCids) (pathId retirePriorTo : Nat) :
    (conn.retireLocalCidsPriorTo pathId retirePriorTo).localCids = conn.localCids.filter (!·.goes pathId retirePriorTo) ∧
      (conn.retireLocalCidsPriorTo pathId retirePriorTo).pathCidsBlocked = conn.pathCidsBlocked := live_promote _ pathId

theorem queue_live {s t : LocalCids} (sound : Sound s) {frame : IssuedCid} (next : s.Next frame.pathId frame.sequenceNumber)
    (nonempty : frame.cid.len ≠ 0) (proper : frame.retirePriorTo ≤ frame.sequenceNumber)
    (ok : s.queueLocalConnectionId frame = .ok t) :
    t.localCids = s.localCids.filter (!·.goes frame.pathId frame.retirePriorTo) ++ [frame] ∧
      t.pathCidsBlocked = s.pathCidsBlocked := by
  have absent : s.localCidSequenceExists frame.pathId frame.sequenceNumber = false := Bool.eq_false_iff.mpr fun live => by
    obtain ⟨item,there,own,same⟩ := exists_iff.mp live
    exact absurd same (next.1 (issuedAs item) (sound.live item there) own).ne
  rcases queue_cases ok with ⟨_,item,there,own,same,_⟩ | ⟨u,remembered,rfl,-⟩
  · have waits : s.Waits item := by
      unfold pendingFor at there
      split_ifs at there
      · exact .inl there
      · exact .inr (.inl there)
    exact absurd same (next.1 (issuedAs item) (sound.waiting item waits) own).ne
  · obtain ⟨first,others,fields⟩ := appendFrame_fields u frame
    rw [fields]
    change u.localCids = _ ∧ u.pathCidsBlocked = _
    rcases remember_cases remembered with ⟨empty,_⟩ | ⟨above,_⟩ | ⟨_,live,_⟩ | ⟨_,_,rfl⟩
    · exact absurd empty nonempty
    · exact absurd proper (Nat.not_le_of_lt above)
    · rw [absent] at live
      cases live
    · obtain ⟨paths,scid,appended,-,-⟩ := append_frame (s.retireLocalCidsPriorTo frame.pathId frame.retirePriorTo) frame
      obtain ⟨stays,blocked⟩ := live_retirePriorTo s frame.pathId frame.retirePriorTo
      rw [appended]
      exact ⟨congrArg (· ++ [frame]) stays,blocked⟩

theorem Registered.issue {s t : LocalCids} {retired : List Nat} (registered : Registered s retired) {frame : IssuedCid}
    (path : frame.pathId = 0) (next : s.Next frame.pathId frame.sequenceNumber) (nonempty : frame.cid.len ≠ 0)
    (proper : frame.retirePriorTo ≤ frame.sequenceNumber)
    (spares : ∀ a ∈ s.issued, a.sequenceNumber ∉ retired → frame.retirePriorTo ≤ a.sequenceNumber)
    (ok : s.queueLocalConnectionId frame = .ok t) :
    Provides s {t with chosen := Function.update t.chosen frame.pathId (frame.sequenceNumber::t.chosen frame.pathId)} retired
      (· = frame) := by
  have grows := queue_fresh registered.sound next nonempty proper ok
  obtain ⟨live,blocked⟩ := queue_live registered.sound next nonempty proper ok
  have issued : t.issued = issuedAs frame::s.issued := grows.issued
  refine ⟨⟨registered.sound.grow next grows,blocked.trans registered.unblocked,fun a there => ?_,fun a there fresh => ?_⟩,
    fun item there => ?_,grows.limit⟩
  · change a ∈ t.issued at there
    rw [issued] at there
    rcases List.mem_cons.mp there with rfl | old
    · exact path
    · exact registered.first a old
  · change a ∈ t.issued at there
    change ∃ item ∈ t.localCids, issuedAs item = a
    rw [issued] at there
    rw [live]
    rcases List.mem_cons.mp there with rfl | old
    · exact ⟨frame,List.mem_append_right _ (List.mem_singleton_self frame),rfl⟩
    · obtain ⟨item,here,rfl⟩ := registered.held a old fresh
      refine ⟨item,List.mem_append_left _ (List.mem_filter.mpr ⟨here,?_⟩),rfl⟩
      have kept : ¬item.sequenceNumber < frame.retirePriorTo := Nat.not_lt_of_le (spares _ old fresh)
      simp [Paths.IssuedCid.goes,kept]
  · change item ∈ t.localCids at there
    rw [live] at there
    rcases List.mem_append.mp there with old | new
    · exact .inl (List.mem_filter.mp old).1
    · exact .inr (List.mem_singleton.mp new)

theorem Registered.next {s : LocalCids} {retired : List Nat} (registered : Registered s retired) :
    s.Next 0 (s.nextLocalCidSequence 0) := by
  refine next_sequence registered.sound (.inl ?_)
  rw [← mark_isSome]
  exact registered.sound.first

/-- The call ends at a provision, or goes on behind it with the ID issued. -/
theorem provision_cases (s : LocalCids) (p : ConnectionIdProvision) (rest : List ConnectionIdProvision) (queued : Nat) :
    (s.queueProvisions 0 (p::rest) queued).2 = s ∨ ∃ cid t, cid.bytes = p.connectionId ∧
      s.queueLocalConnectionId ⟨0,s.nextLocalCidSequence 0,p.retirePriorTo,cid,p.statelessResetToken⟩ = .ok t ∧
      s.queueProvisions 0 (p::rest) queued = queueProvisions {t with
        chosen := Function.update t.chosen 0 (s.nextLocalCidSequence 0::t.chosen 0)} 0 rest (queued+1) := by
  rw [queueProvisions]
  split
  · exact .inl rfl
  · dsimp only
    split
    · exact .inl rfl
    · rename_i cid short
      split
      · exact .inl rfl
      · rename_i t ok
        exact .inr ⟨cid,t,Header.fromSlice_inv short,ok,rfl⟩

theorem Registered.provision {s t : LocalCids} {retired : List Nat} (registered : Registered s retired)
    {p : ConnectionIdProvision} {cid : ConnId} (bytes : cid.bytes = p.connectionId) (filled : p.connectionId ≠ [])
    (proper : p.retirePriorTo ≤ s.nextLocalCidSequence 0)
    (spares : ∀ a ∈ s.issued, a.sequenceNumber ∉ retired → p.retirePriorTo ≤ a.sequenceNumber)
    (ok : s.queueLocalConnectionId ⟨0,s.nextLocalCidSequence 0,p.retirePriorTo,cid,p.statelessResetToken⟩ = .ok t) :
    Provides s {t with chosen := Function.update t.chosen 0 (s.nextLocalCidSequence 0::t.chosen 0)} retired
      (·.cid.bytes = p.connectionId) := by
  have nonempty : cid.len ≠ 0 := fun empty => filled (bytes ▸ List.length_eq_zero_iff.mp empty)
  refine (Registered.issue registered rfl (Registered.next registered) nonempty proper spares ok).weaken ?_
  rintro _ rfl
  exact bytes

theorem Registered.provisions {provisions : List ConnectionIdProvision} {s : LocalCids} {retired : List Nat}
    (registered : Registered s retired) (filled : ∀ p ∈ provisions, p.connectionId ≠ [])
    (spares : ∀ p ∈ provisions, p.retirePriorTo = 0) (queued : Nat) :
    Provides s (s.queueProvisions 0 provisions queued).2 retired fun item => ∃ p ∈ provisions, item.cid.bytes =
    p.connectionId := by
  induction provisions generalizing s queued with
  | nil => exact Provides.none registered _
  | cons p rest ih =>
    rcases provision_cases s p rest queued with same | ⟨cid,t,bytes,ok,later⟩
    · rw [same]
      exact Provides.none registered _
    · have zero := spares p List.mem_cons_self
      have one := Registered.provision registered bytes (filled p List.mem_cons_self)
        (by rw [zero]; exact Nat.zero_le _) (by rw [zero]; exact fun _ _ _ => Nat.zero_le _) ok
      have two := ih one.registered (fun q there => filled q (List.mem_cons_of_mem _ there))
        (fun q there => spares q (List.mem_cons_of_mem _ there)) (queued+1)
      rw [later]
      refine (one.weaken fun item same => ⟨p,List.mem_cons_self,same⟩).trans (two.weaken ?_)
      rintro item ⟨q,inside,same⟩
      exact ⟨q,List.mem_cons_of_mem _ inside,same⟩

theorem replenish_unblocked {s : LocalCids} (unblocked : s.pathCidsBlocked = none) {provisions : List ConnectionIdProvision}
    (after : (s.queueProvisions 0 provisions 0).2.pathCidsBlocked = none) :
    (s.replenishConnectionIds provisions).2 = (s.queueProvisions 0 provisions 0).2 := by
  unfold replenishConnectionIds replenishLocalConnectionIds blockedSequences
  rw [unblocked]
  dsimp only [requeueBlocked]
  generalize s.queueProvisions 0 provisions 0 = result at after
  obtain ⟨answer,conn⟩ := result
  cases answer with
  | error e => rfl
  | ok queued =>
    dsimp only
    split_ifs
    · unfold clearSatisfiedPathCidsBlocked
      rw [after]
    · rfl

theorem replenish_failed {s t : LocalCids} (unblocked : s.pathCidsBlocked = none) {p : ConnectionIdProvision} {e : CidError}
    (failed : s.replenishConnectionIds [p] = (.error e,t)) : t = s := by
  unfold replenishConnectionIds replenishLocalConnectionIds blockedSequences at failed
  rw [unblocked] at failed
  dsimp only [requeueBlocked] at failed
  cases made : s.queueProvisions 0 [p] 0 with
  | mk answer conn =>
    rw [made] at failed
    cases answer with
    | ok queued => cases failed
    | error e' =>
      rcases provision_cases s p [] 0 with same | ⟨cid,u,-,-,later⟩
      · rw [made] at same
        cases failed
        exact same
      · rw [later] at made
        cases made

theorem Registered.replenish {s : LocalCids} {retired : List Nat} (registered : Registered s retired)
    {provisions : List ConnectionIdProvision} (filled : ∀ p ∈ provisions, p.connectionId ≠ [])
    (spares : ∀ p ∈ provisions, p.retirePriorTo = 0) :
    Provides s (s.replenishConnectionIds provisions).2 retired fun item => ∃ p ∈ provisions, item.cid.bytes =
    p.connectionId := by
  have after := Registered.provisions registered filled spares 0
  rw [replenish_unblocked registered.unblocked after.registered.unblocked]
  exact after

theorem Registered.rotate {s : LocalCids} {retired : List Nat} (registered : Registered s retired)
    {cid : List Byte} (token : Fixed 16) (filled : cid ≠ []) (gone : ∀ a ∈ s.issued, a.sequenceNumber ∈ retired) :
    Provides s (s.replenishConnectionIds [⟨cid,token,s.nextLocalCidSequence 0⟩]).2 retired (·.cid.bytes = cid) := by
  have after : Provides s (s.queueProvisions 0 [⟨cid,token,s.nextLocalCidSequence 0⟩] 0).2 retired (·.cid.bytes = cid) := by
    rcases provision_cases s ⟨cid,token,s.nextLocalCidSequence 0⟩ [] 0 with same | ⟨id,t,bytes,ok,later⟩
    · rw [same]
      exact Provides.none registered _
    · rw [later]
      exact Registered.provision registered bytes filled (Nat.le_refl _)
        (fun a there fresh => absurd (gone a there) fresh) ok
  rw [replenish_unblocked registered.unblocked after.registered.unblocked]
  exact after

theorem live_retire (s : LocalCids) (sequenceNumber : Nat) :
    (∀ item ∈ s.localCids, item.sequenceNumber ≠ sequenceNumber →
    item ∈ (s.handleRetireConnectionId sequenceNumber).localCids) ∧
      (s.handleRetireConnectionId sequenceNumber).pathCidsBlocked = s.pathCidsBlocked := by
  have stays (item : IssuedCid) (there : item ∈ s.localCids) (other : item.sequenceNumber ≠ sequenceNumber) :
      item ∈ s.localCids.filter fun item => !holds 0 sequenceNumber item := by
    refine List.mem_filter.mpr ⟨there,?_⟩
    simp [holds,other]
  unfold handleRetireConnectionId
  dsimp only
  split_ifs
  · exact ⟨fun item there _ => there,rfl⟩
  · exact ⟨fun item there _ => there,rfl⟩
  · exact ⟨fun item there _ => there,rfl⟩
  · exact ⟨fun item there _ => there,rfl⟩
  · unfold dropPendingLocalCidAdvertisement retireLocalCid
    rw [if_pos rfl]
    dsimp only
    split
    · split_ifs
      · rw [(live_promote _ 0).1,(live_promote _ 0).2]
        exact ⟨stays,rfl⟩
      · exact ⟨stays,rfl⟩
    · exact ⟨stays,rfl⟩

theorem Registered.retire {s : LocalCids} {retired : List Nat} (registered : Registered s retired) (sequenceNumber : Nat) :
    Registered (s.handleRetireConnectionId sequenceNumber) (sequenceNumber::retired) ∧
      ∀ item ∈ (s.handleRetireConnectionId sequenceNumber).localCids, item ∈ s.localCids := by
  have same := same_handleRetire s sequenceNumber
  obtain ⟨stays,blocked⟩ := live_retire s sequenceNumber
  refine ⟨⟨registered.sound.same same,blocked.trans registered.unblocked,fun a there => ?_,fun a there fresh => ?_⟩,
    fun item there => same.live.subset there⟩
  · rw [same.issued] at there
    exact registered.first a there
  · rw [same.issued] at there
    rw [List.mem_cons,not_or] at fresh
    obtain ⟨item,here,rfl⟩ := registered.held a there fresh.2
    exact ⟨item,stays item here fresh.1,rfl⟩

theorem Registered.quiet {s : LocalCids} {retired : List Nat} (registered : Registered s retired) (count : Nat)
    (incoming : Option IssuedCid) :
    Registered {s with incomingRetireCidCount := count,incomingLocalCid := incoming} retired :=
  ⟨registered.sound.same ⟨rfl,rfl,fun _ => rfl,id,rfl,fun _ => id,List.Sublist.refl _⟩,registered.unblocked,registered.first,
    registered.held⟩

theorem Registered.peerParams {s : LocalCids} {retired : List Nat} (registered : Registered s retired) {limit : Nat}
    (more : s.peerLimit ≤ min limit maxSupportedActiveConnectionIdLimit) :
    Registered {s with peerActiveConnectionIdLimit := some limit} retired := by
  have sound := registered.sound
  refine ⟨⟨sound.live,sound.waiting,sound.single,sound.gapless,sound.first,sound.below,sound.marked,sound.consecutive,
    sound.newest,
    fun pathId => (sound.room pathId).trans more,sound.limit.trans more⟩,registered.unblocked,registered.first,
      registered.held⟩

theorem registered_first {cid : List Byte} (filled : cid ≠ []) (short : cid.length ≤ maxCidLen) :
    Provides {} (setLocalScid {} cid).2 [] (·.cid.bytes = cid) := by
  have fresh : Careful (initial 0) (.setLocalScid cid) := .inr (.inr fun _ there => (nomatch there))
  have allowed : Allowed (initial 0) (.setLocalScid cid) := trivial
  have sound : Sound (setLocalScid {} cid).2 := step_sound (initial_sound 0) allowed fresh
  have nonempty : (ConnId.mk cid short).len ≠ 0 := fun empty => filled (List.length_eq_zero_iff.mp empty)
  have made : ∃ paths, setLocalScid {} cid = (.ok (),{
      paths := paths
      localCids := [⟨0,0,0,⟨cid,short⟩,⟨List.replicate 16 0,rfl⟩⟩]
      localScid := ⟨cid,short⟩
      issued := [⟨0,0,⟨cid,short⟩⟩]
    }) := by
    unfold setLocalScid ConnId.fromSlice
    rw [dif_pos short]
    dsimp only
    have remembered (conn : LocalCids) (none : conn.localCids = []) (frame : IssuedCid) (own : frame.cid = ⟨cid,short⟩)
        (zero : frame.retirePriorTo = 0) : conn.rememberLocalCid frame =
          .ok ((conn.retireLocalCidsPriorTo frame.pathId frame.retirePriorTo).appendLocalCid frame) := by
      have filled : frame.cid.len ≠ 0 := own ▸ nonempty
      have available : conn.ensureLocalCidAvailable frame.pathId frame.sequenceNumber frame.cid = .ok () := by
        unfold ensureLocalCidAvailable
        rw [none]
        simp [filled]
      unfold rememberLocalCid
      rw [if_neg filled,if_neg (by omega),available]
      change (if conn.localCidSequenceExists frame.pathId frame.sequenceNumber then _ else _) = _
      rw [if_neg (by simp [localCidSequenceExists,none])]
      rfl
    rw [remembered _ rfl _ rfl rfl]
    dsimp only
    unfold noteNonempty
    rw [if_neg nonempty]
    exact ⟨_,rfl⟩
  obtain ⟨paths,made⟩ := made
  rw [made] at sound ⊢
  refine ⟨⟨sound,rfl,fun a there => ?_,fun a there _ => ?_⟩,fun item there => .inr ?_,rfl⟩
  · rw [List.mem_singleton.mp there]
  · exact ⟨_,List.mem_singleton_self _,(List.mem_singleton.mp there).symm⟩
  · rw [List.mem_singleton.mp there]

end LocalCids

end QuicZig.Conn.LocalIds
