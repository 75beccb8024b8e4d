import QuicZig.Conn.InboundSlots

/-! What holds of the stream ids in every state: no id beyond what was promised, and no
credit held back from a peer that waits for it. -/
namespace QuicZig.Conn
open Machine

namespace StreamIdSpace

/-- Nothing is to be advertised: there is no credit, or too little of it for a peer that has ids left and asks for none. -/
theorem creditToAdvertise_eq_none {self : StreamIdSpace} {peerBlockedAt : Option Nat} :
    self.creditToAdvertise peerBlockedAt = none ↔ self.target ≤ self.limit ∨
      (self.target-self.limit < max 1 (self.window/2) ∧ self.opened < self.limit ∧ peerBlockedAt.all (· < self.limit) = true) := by
  unfold creditToAdvertise
  dsimp only
  by_cases covered : self.target ≤ self.limit
  · rw [if_pos covered]
    exact ⟨fun _ => .inl covered,fun _ => rfl⟩
  rw [if_neg covered]
  by_cases much : self.target-self.limit ≥ max 1 (self.window/2)
  · rw [if_pos much]
    exact ⟨fun some' => (nomatch some'),fun either => by omega⟩
  rw [if_neg much]
  by_cases out : self.opened ≥ self.limit
  · rw [if_pos out]
    exact ⟨fun some' => (nomatch some'),fun either => by omega⟩
  rw [if_neg out]
  cases peerBlockedAt with
  | none => exact ⟨fun _ => .inr ⟨by omega,by omega,rfl⟩,fun _ => rfl⟩
  | some at' =>
    by_cases blocked : at' ≥ self.limit
    · rw [if_pos (by simpa using blocked)]
      refine ⟨fun some' => (nomatch some'),fun either => ?_⟩
      have below : at' < self.limit := by simpa using (either.resolve_left covered).2.2
      omega
    · rw [if_neg (by simpa using blocked)]
      exact ⟨fun _ => .inr ⟨by omega,by omega,by simpa using blocked⟩,fun _ => rfl⟩

end StreamIdSpace

namespace Inbound
open Paths Streams SendFlow

namespace Slots

/-- The ids of one kind that the peer may open. -/
structure Bounded (space : StreamIdSpace) : Prop where
  opened : space.opened ≤ space.limit
  limit : space.limit ≤ StreamIdSpace.maxStreamCount
  window : space.window ≤ maxConcurrentStreamsPerKind

structure Sound (s : Slots) : Prop where
  ids : s.ids.Sound
  peer : ∀ bidi, Bounded (s.peerIds bidi)
  localBidi : s.ids.localBidiIds.opened ≤ StreamIdSpace.maxStreamCount
  localUni : s.ids.localUniIds.opened ≤ StreamIdSpace.maxStreamCount
  /-- A frame that waits has the limit of now. -/
  waits : ∀ bidi n, s.pending bidi = some n → n = (s.peerIds bidi).limit

/-- Nothing that the peer waits for is held back, until the connection winds down. -/
def Offered (s : Slots) (bidi : Bool) : Prop := s.shut = false → (s.peerIds bidi).creditToAdvertise (s.blockedAt bidi) = none

/-- The limits that the peer was given only rise, and each rise waits in a frame. -/
structure Goes (s t : Slots) : Prop where
  limit : ∀ bidi, (s.peerIds bidi).limit ≤ (t.peerIds bidi).limit
  shut : s.shut = true → t.shut = true
  pending : ∀ bidi, (t.pending bidi = s.pending bidi ∧ (t.peerIds bidi).limit = (s.peerIds bidi).limit) ∨
    t.pending bidi = some (t.peerIds bidi).limit
  blocked : ∀ bidi, t.blockedAt bidi = s.blockedAt bidi ∨
    (t.blockedAt bidi = none ∧ (s.blockedAt bidi).all (· < (t.peerIds bidi).limit) = true)

variable {s t u : Slots} {bidi : Bool} {id n : Nat}

theorem Goes.refl (s : Slots) : Goes s s := ⟨fun _ => le_rfl,fun shut => shut,fun _ => .inl ⟨rfl,rfl⟩,fun _ => .inl rfl⟩

theorem Goes.trans (first : Goes s t) (second : Goes t u) : Goes s u := by
  refine ⟨fun bidi => (first.limit bidi).trans (second.limit bidi),fun shut => second.shut (first.shut shut),fun bidi => ?_,fun bidi => ?_⟩
  · rcases second.pending bidi with ⟨same,limit⟩ | fresh
    · rcases first.pending bidi with ⟨same',limit'⟩ | fresh'
      · exact .inl ⟨same.trans same',limit.trans limit'⟩
      · exact .inr (by rw [same,fresh',limit])
    · exact .inr fresh
  · have higher := second.limit bidi
    rcases second.blocked bidi with same | ⟨none',all⟩
    · rcases first.blocked bidi with same' | ⟨none',all⟩
      · exact .inl (same.trans same')
      · refine .inr ⟨same.trans none',?_⟩
        simp only [Option.all_eq_true,decide_eq_true_eq] at all ⊢
        exact fun n there => (all n there).trans_le higher
    · rcases first.blocked bidi with same' | ⟨_,all'⟩
      · exact .inr ⟨none',same' ▸ all⟩
      · refine .inr ⟨none',?_⟩
        simp only [Option.all_eq_true,decide_eq_true_eq] at all' ⊢
        exact fun n there => (all' n there).trans_le higher

@[simp] theorem peerIds_setPeer (s : Slots) (bidi other : Bool) (space : StreamIdSpace) :
    (s.setPeer bidi space).peerIds other = if other = bidi then space else s.peerIds other := by
  cases bidi <;> cases other <;> rfl

@[simp] theorem peerIds_raise (s : Slots) (bidi other : Bool) (limit : Nat) :
    (s.raise bidi limit).peerIds other = if other = bidi then {s.peerIds bidi with limit := limit} else s.peerIds other :=
  peerIds_setPeer s bidi other _

theorem setPeer_sound (sound : s.Sound) {space : StreamIdSpace} (ids : space.Sound) (bounded : Bounded space)
    (limit : space.limit = (s.peerIds bidi).limit) : (s.setPeer bidi space).Sound := by
  refine ⟨?_,fun other => ?_,?_,?_,fun other n waiting => ?_⟩
  · cases bidi
    · exact {sound.ids with peerUniIds := ids}
    · exact {sound.ids with peerBidiIds := ids}
  · rw [peerIds_setPeer]
    split
    · exact bounded
    · exact sound.peer other
  · cases bidi <;> exact sound.localBidi
  · cases bidi <;> exact sound.localUni
  · rw [peerIds_setPeer]
    have same : n = (s.peerIds other).limit := sound.waits other n waiting
    split
    · rename_i here
      rw [limit,← here,same]
    · exact same

theorem setPeer_goes {space : StreamIdSpace} (limit : space.limit = (s.peerIds bidi).limit) : Goes s (s.setPeer bidi space) := by
  have same : ∀ other, ((s.setPeer bidi space).peerIds other).limit = (s.peerIds other).limit := by
    intro other
    rw [peerIds_setPeer]
    split
    · rename_i here
      rw [limit,here]
    · rfl
  exact ⟨fun other => (same other).ge,fun shut => shut,fun other => .inl ⟨rfl,same other⟩,fun other => .inl rfl⟩

theorem raise_sound (sound : s.Sound) (higher : (s.peerIds bidi).limit < n) (bound : n ≤ StreamIdSpace.maxStreamCount) :
    (s.raise bidi n).Sound := by
  have ids := sound.ids
  have bounded := sound.peer bidi
  refine ⟨?_,fun other => ?_,?_,?_,fun other m waiting => ?_⟩
  · cases bidi
    · exact {ids with peerUniIds := ⟨ids.peerUniIds.sorted,ids.peerUniIds.below⟩}
    · exact {ids with peerBidiIds := ⟨ids.peerBidiIds.sorted,ids.peerBidiIds.below⟩}
  · rw [peerIds_raise]
    split
    · exact ⟨bounded.opened.trans higher.le,bound,bounded.window⟩
    · exact sound.peer other
  · cases bidi <;> exact sound.localBidi
  · cases bidi <;> exact sound.localUni
  · rw [peerIds_raise]
    change Function.update s.pending bidi _ other = some m at waiting
    split
    · rename_i here
      subst here
      rw [Function.update_self] at waiting
      split at waiting
      · exact (Option.some.inj waiting).symm
      · rename_i low
        simp only [Option.all_eq_true,decide_eq_true_eq,not_forall] at low
        obtain ⟨old,there,late⟩ := low
        exact absurd (sound.waits _ old there ▸ higher) late
    · rename_i apart
      rw [Function.update_of_ne apart] at waiting
      exact sound.waits other m waiting

theorem raise_goes (sound : s.Sound) (higher : (s.peerIds bidi).limit < n) : Goes s (s.raise bidi n) := by
  have apart : ∀ other, other ≠ bidi → (s.raise bidi n).peerIds other = s.peerIds other := by
    intro other apart
    rw [peerIds_raise,if_neg apart]
  have here : ((s.raise bidi n).peerIds bidi).limit = n := by rw [peerIds_raise,if_pos rfl]
  refine ⟨fun other => ?_,fun shut => shut,fun other => ?_,fun other => ?_⟩
  · by_cases same : other = bidi
    · rw [same,here]
      exact higher.le
    · rw [apart other same]
  · by_cases same : other = bidi
    · rw [same,here]
      right
      change Function.update s.pending bidi _ bidi = _
      rw [Function.update_self,if_pos]
      simp only [Option.all_eq_true,decide_eq_true_eq]
      exact fun m there => sound.waits _ m there ▸ higher
    · rw [apart other same]
      exact .inl ⟨Function.update_of_ne same _ _,rfl⟩
  · by_cases same : other = bidi
    · rw [same,here]
      change Function.update s.blockedAt bidi _ bidi = _ ∨ (Function.update s.blockedAt bidi _ bidi = _ ∧ _)
      rw [Function.update_self]
      cases s.blockedAt bidi with
      | none => exact .inl rfl
      | some at' =>
        by_cases passed : n > at'
        · rw [if_pos (by simpa using passed)]
          exact .inr ⟨rfl,by simpa using passed⟩
        · rw [if_neg (by simpa using passed)]
          exact .inl rfl
    · exact .inl (Function.update_of_ne same _ _)

theorem queueMaxStreams_keeps (sound : s.Sound) (bidi : Bool) (n : Nat) :
    (s.queueMaxStreams bidi n).Sound ∧ Goes s (s.queueMaxStreams bidi n) := by
  unfold queueMaxStreams
  split
  · exact ⟨sound,.refl s⟩
  split
  · exact ⟨sound,.refl s⟩
  dsimp only
  split
  · exact ⟨sound,.refl s⟩
  · rename_i higher
    exact ⟨raise_sound sound (by omega) (by omega),raise_goes sound (by omega)⟩

theorem advertise_keeps (sound : s.Sound) (bidi : Bool) : (s.advertise bidi).Sound ∧ Goes s (s.advertise bidi) := by
  unfold advertise
  split
  · exact ⟨sound,.refl s⟩
  · exact queueMaxStreams_keeps sound bidi _

theorem raise_offered (offered : Offered s bidi) {other : Bool} (higher : (s.peerIds other).limit < n) :
    Offered (s.raise other n) bidi := by
  intro open'
  have none' := offered open'
  rw [peerIds_raise]
  change StreamIdSpace.creditToAdvertise _ (Function.update s.blockedAt other _ bidi) = none
  by_cases same : bidi = other
  · subst same
    rw [if_pos rfl,Function.update_self]
    rw [StreamIdSpace.creditToAdvertise_eq_none] at none' ⊢
    have target : StreamIdSpace.target {s.peerIds bidi with limit := n} = (s.peerIds bidi).target := rfl
    rw [target]
    dsimp only
    rcases none' with covered | ⟨few,left',asks⟩
    · exact .inl (covered.trans higher.le)
    · refine .inr ⟨by omega,by omega,?_⟩
      split
      · rfl
      · simp only [Option.all_eq_true,decide_eq_true_eq] at asks ⊢
        exact fun m there => (asks m there).trans higher
  · rw [if_neg same,Function.update_of_ne same]
    exact none'

theorem queueMaxStreams_offered (offered : Offered s bidi) (other : Bool) (n : Nat) : Offered (s.queueMaxStreams other n) bidi := by
  unfold queueMaxStreams
  split
  · exact offered
  split
  · exact offered
  dsimp only
  split
  · exact offered
  · rename_i higher
    exact raise_offered offered (by omega)

theorem advertise_offered (sound : s.Sound) (bidi : Bool) : Offered (s.advertise bidi) bidi := by
  unfold advertise
  cases credit : (s.peerIds bidi).creditToAdvertise (s.blockedAt bidi) with
  | none => exact fun _ => credit
  | some newLimit =>
    obtain ⟨rfl,freed⟩ := StreamIdSpace.creditToAdvertise_some credit
    dsimp only
    intro open'
    have bounded := sound.peer bidi
    have running : s.shut = false := by
      cases shut : s.shut with
      | false => rfl
      | true =>
        have shut' := (queueMaxStreams_keeps sound bidi (s.peerIds bidi).target).2.shut shut
        rw [shut'] at open'
        cases open'
    have most : (s.peerIds bidi).target ≤ StreamIdSpace.maxStreamCount := min_le_right _ _
    have within : (s.peerIds bidi).target ≤ saturatingAdd (s.peerIds bidi).closed maxConcurrentStreamsPerKind := by
      have window := bounded.window
      unfold StreamIdSpace.target saturatingAdd
      omega
    have raised : s.queueMaxStreams bidi (s.peerIds bidi).target = s.raise bidi (s.peerIds bidi).target := by
      unfold queueMaxStreams
      rw [if_neg (by rw [running]; exact Bool.false_ne_true),if_neg (not_lt.mpr most)]
      dsimp only
      rw [min_eq_left within,if_neg (not_le.mpr freed)]
    rw [raised,StreamIdSpace.creditToAdvertise_eq_none,peerIds_raise,if_pos rfl]
    exact .inl le_rfl

theorem advertise_offered_other (offered : Offered s bidi) (other : Bool) : Offered (s.advertise other) bidi := by
  unfold advertise
  split
  · exact offered
  · exact queueMaxStreams_offered offered other _

section
variable {f : StreamIdSpace → StreamIdSpace}

theorem idSpace_theirs (theirs : streamInitiatedByLocal s.role id = false) :
    s.ids.idSpace s.role id = s.peerIds (streamIsBidi id) := by
  unfold IdSpaces.idSpace peerIds
  rw [if_neg (by rw [theirs]; exact Bool.false_ne_true)]

theorem modify_theirs (theirs : streamInitiatedByLocal s.role id = false) :
    {s with ids := s.ids.modify s.role id f} = s.setPeer (streamIsBidi id) (f (s.peerIds (streamIsBidi id))) := by
  unfold IdSpaces.modify setPeer peerIds
  rw [if_neg (by rw [theirs]; exact Bool.false_ne_true)]
  split <;> rfl

theorem peerIds_ours (ours : streamInitiatedByLocal s.role id = true) (bidi : Bool) :
    peerIds {s with ids := s.ids.modify s.role id f} bidi = s.peerIds bidi := by
  unfold IdSpaces.modify peerIds
  rw [if_pos ours]
  cases streamIsBidi id <;> rfl

theorem ours_goes (ours : streamInitiatedByLocal s.role id = true) : Goes s {s with ids := s.ids.modify s.role id f} :=
  ⟨fun bidi => (congrArg StreamIdSpace.limit (peerIds_ours ours bidi)).ge,fun shut => shut,
    fun bidi => .inl ⟨rfl,congrArg StreamIdSpace.limit (peerIds_ours ours bidi)⟩,fun _ => .inl rfl⟩

theorem ours_sound (sound : s.Sound) (ours : streamInitiatedByLocal s.role id = true) (ids : (s.ids.modify s.role id f).Sound)
    (bound : (f (s.ids.idSpace s.role id)).opened ≤ StreamIdSpace.maxStreamCount) :
    Sound {s with ids := s.ids.modify s.role id f} := by
  refine ⟨ids,fun bidi => ?_,?_,?_,fun bidi n waiting => ?_⟩
  · rw [peerIds_ours ours]
    exact sound.peer bidi
  · unfold IdSpaces.idSpace at bound
    unfold IdSpaces.modify
    rw [if_pos ours] at bound ⊢
    split <;> rename_i kind
    · rw [if_pos kind] at bound
      exact bound
    · exact sound.localBidi
  · unfold IdSpaces.idSpace at bound
    unfold IdSpaces.modify
    rw [if_pos ours] at bound ⊢
    split <;> rename_i kind
    · exact sound.localUni
    · rw [if_neg kind] at bound
      exact bound
  · rw [peerIds_ours ours]
    exact sound.waits bidi n waiting

theorem ours_offered (ours : streamInitiatedByLocal s.role id = true) (offered : Offered s bidi) :
    Offered {s with ids := s.ids.modify s.role id f} bidi := by
  intro open'
  rw [peerIds_ours ours]
  exact offered open'

end

theorem opened_keeps (sound : s.Sound) {granted : Bool} {cap : Option Nat} {space : StreamIdSpace}
    (ok : (s.ids.idSpace s.role id).open granted (streamIndex id) cap = (.ok (),space)) (bound : streamIndex id < StreamIdSpace.maxStreamCount) :
    Sound {s with ids := s.ids.modify s.role id fun _ => space} ∧ Goes s {s with ids := s.ids.modify s.role id fun _ => space} := by
  obtain ⟨below,opened,limit,closed,window⟩ := StreamIdSpace.open_opened ok
  have ids := (IdSpaces.open_spec sound.ids ok).1
  cases ours : streamInitiatedByLocal s.role id with
  | true =>
    refine ⟨ours_sound sound ours ids ?_,ours_goes ours⟩
    have old : (s.ids.idSpace s.role id).opened ≤ StreamIdSpace.maxStreamCount := by
      unfold IdSpaces.idSpace
      rw [if_pos ours]
      split
      · exact sound.localBidi
      · exact sound.localUni
    omega
  | false =>
    rw [idSpace_theirs ours] at ok below opened limit closed window
    have bounded := sound.peer (streamIsBidi id)
    rw [modify_theirs ours]
    refine ⟨setPeer_sound sound (StreamIdSpace.open_spec ?_ ok).1 ⟨?_,limit ▸ bounded.limit,window ▸ bounded.window⟩ limit,setPeer_goes limit⟩
    · rw [← idSpace_theirs ours]
      exact sound.ids.idSpace id
    · have early := bounded.opened
      omega

theorem offer_keeps (sound : s.Sound) (id : Nat) : (s.offer id).Sound ∧ Goes s (s.offer id) := by
  unfold offer
  split
  · exact ⟨sound,.refl s⟩
  · exact advertise_keeps sound _

theorem closed_keeps (sound : s.Sound) (id : Nat) :
    Sound {s with ids := s.ids.modify s.role id (·.noteClosed)} ∧ Goes s {s with ids := s.ids.modify s.role id (·.noteClosed)} := by
  have ids : (s.ids.modify s.role id (·.noteClosed)).Sound :=
    (IdSpaces.sameIds_modify (f := (·.noteClosed)) s.ids s.role id fun _ => ⟨rfl,rfl⟩).sound sound.ids
  cases ours : streamInitiatedByLocal s.role id with
  | true =>
    refine ⟨ours_sound sound ours ids ?_,ours_goes ours⟩
    unfold IdSpaces.idSpace
    rw [if_pos ours]
    split
    · exact sound.localBidi
    · exact sound.localUni
  | false =>
    have bounded := sound.peer (streamIsBidi id)
    have space : (s.ids.idSpace s.role id).Sound := sound.ids.idSpace id
    rw [idSpace_theirs ours] at space
    rw [modify_theirs ours]
    exact ⟨setPeer_sound sound ⟨space.sorted,space.below⟩ ⟨bounded.opened,bounded.limit,bounded.window⟩ rfl,setPeer_goes rfl⟩

end Slots

open Slots

variable {s t : Slots}

theorem Move.keeps (sound : s.Sound) (move : Move s t) : t.Sound ∧ Goes s t := by
  cases move with
  | opened bound ok =>
    obtain ⟨sound',goes⟩ := opened_keeps sound ok bound
    obtain ⟨sound'',goes'⟩ := offer_keeps sound' _
    exact ⟨sound'',goes.trans goes'⟩
  | @filled granted id cap space theirs hole ok =>
    refine opened_keeps sound ok ?_
    have below := (StreamIdSpace.open_opened ok).1
    have limit := (sound.peer (streamIsBidi id)).limit
    rw [idSpace_theirs theirs] at below
    omega
  | closed id =>
    obtain ⟨sound',goes⟩ := closed_keeps sound id
    obtain ⟨sound'',goes'⟩ := offer_keeps sound' _
    exact ⟨sound'',goes.trans goes'⟩
  | queued bidi n => exact queueMaxStreams_keeps sound bidi n
  | granted bidiLimit uniLimit =>
    have ids := sound.ids
    refine ⟨⟨⟨ids.peerBidiIds,ids.peerUniIds,⟨ids.localBidiIds.sorted,ids.localBidiIds.below⟩,
      ⟨ids.localUniIds.sorted,ids.localUniIds.below⟩⟩,sound.peer,sound.localBidi,sound.localUni,sound.waits⟩,?_⟩
    exact ⟨fun _ => le_rfl,fun shut => shut,fun _ => .inl ⟨rfl,rfl⟩,fun _ => .inl rfl⟩
  | shut =>
    exact ⟨⟨sound.ids,sound.peer,sound.localBidi,sound.localUni,sound.waits⟩,
      fun _ => le_rfl,fun _ => rfl,fun _ => .inl ⟨rfl,rfl⟩,fun _ => .inl rfl⟩

theorem offer_offered {id : Nat} {f : StreamIdSpace → StreamIdSpace} (offered : ∀ bidi, Offered s bidi)
    (sound : Slots.Sound {s with ids := s.ids.modify s.role id f}) (bidi : Bool) :
    Offered (Slots.offer {s with ids := s.ids.modify s.role id f} id) bidi := by
  unfold Slots.offer
  split
  · rename_i ours
    exact ours_offered ours (offered bidi)
  · rename_i theirs
    by_cases same : bidi = streamIsBidi id
    · exact same ▸ advertise_offered sound _
    · refine advertise_offered_other (fun open' => ?_) _
      rw [modify_theirs (by rw [← Bool.not_eq_true]; exact theirs),peerIds_setPeer,if_neg same]
      exact offered bidi open'

theorem Move.offered (sound : s.Sound) (offered : ∀ bidi, Offered s bidi) (move : Move s t) (bidi : Bool) : Offered t bidi := by
  cases move with
  | opened bound ok => exact offer_offered offered (opened_keeps sound ok bound).1 bidi
  | @filled granted id cap space theirs hole ok =>
    intro open'
    rw [modify_theirs theirs,peerIds_setPeer]
    split
    · rename_i same
      have before := offered bidi open'
      obtain ⟨below,opened,limit,closed,window⟩ := StreamIdSpace.open_opened ok
      rw [idSpace_theirs theirs,← same] at below opened limit closed window hole
      -- the highest index in use stays
      have early : streamIndex id < (s.peerIds bidi).opened := by
        unfold StreamIdSpace.classify at hole
        split at hole
        · cases hole
        · omega
      have target : space.target = (s.peerIds bidi).target := by
        unfold StreamIdSpace.target
        rw [closed,window]
      rw [StreamIdSpace.creditToAdvertise_eq_none] at before ⊢
      rw [target,limit,window]
      rcases before with covered | ⟨few,left',asks⟩
      · exact .inl covered
      · exact .inr ⟨few,by omega,asks⟩
    · exact offered bidi open'
  | closed id => exact offer_offered offered (closed_keeps sound id).1 bidi
  | queued other n => exact queueMaxStreams_offered (offered bidi) other n
  | granted bidiLimit uniLimit => exact offered bidi
  | shut => exact fun open' => (nomatch open')

theorem Moves.keeps (sound : s.Sound) (offered : ∀ bidi, Offered s bidi) (moves : Moves s t) :
    t.Sound ∧ (∀ bidi, Offered t bidi) ∧ Goes s t := by
  induction moves with
  | refl => exact ⟨sound,offered,.refl s⟩
  | tail _ move ih =>
    obtain ⟨sound',offered',goes⟩ := ih
    obtain ⟨sound'',goes'⟩ := move.keeps sound'
    exact ⟨sound'',move.offered sound' offered',goes.trans goes'⟩

theorem hear_keeps {bidi : Bool} {n : Nat} (sound : s.Sound) (offered : ∀ bidi, Offered s bidi) :
    (s.hear bidi n).Sound ∧ (∀ other, Offered (s.hear bidi n) other) ∧
      (∀ other, (s.peerIds other).limit ≤ ((s.hear bidi n).peerIds other).limit) ∧ (s.shut = true → (s.hear bidi n).shut = true) ∧
      (∀ other, ((s.hear bidi n).pending other = s.pending other ∧
        ((s.hear bidi n).peerIds other).limit = (s.peerIds other).limit) ∨
          (s.hear bidi n).pending other = some ((s.hear bidi n).peerIds other).limit) ∧
      ∀ other, (s.hear bidi n).blockedAt other = Function.update s.blockedAt bidi (some n) other ∨
        ((s.hear bidi n).blockedAt other = none ∧
          (Function.update s.blockedAt bidi (some n) other).all (· < ((s.hear bidi n).peerIds other).limit) = true) := by
  have heard : Slots.Sound {s with blockedAt := Function.update s.blockedAt bidi (some n)} :=
    ⟨sound.ids,sound.peer,sound.localBidi,sound.localUni,sound.waits⟩
  obtain ⟨sound',goes⟩ := advertise_keeps heard bidi
  refine ⟨sound',fun other => ?_,goes.limit,goes.shut,goes.pending,goes.blocked⟩
  by_cases same : other = bidi
  · exact same ▸ advertise_offered heard bidi
  · refine advertise_offered_other (fun open' => ?_) bidi
    change StreamIdSpace.creditToAdvertise _ (Function.update s.blockedAt bidi _ other) = none
    rw [Function.update_of_ne same]
    exact offered other open'

/-- The rule for runs: what holds of the ids survives every step, and no step takes a limit back. -/
theorem act_keeps {conn : Connection} (sound : conn.slots.Sound) (offered : ∀ bidi, Offered conn.slots bidi) (e : Event) :
    (conn.act e).2.slots.Sound ∧ (∀ bidi, Offered (conn.act e).2.slots bidi) ∧
      ∀ bidi, (conn.slots.peerIds bidi).limit ≤ ((conn.act e).2.slots.peerIds bidi).limit := by
  by_cases sends : ∃ bidi, e.call = .sentMaxStreams bidi
  · obtain ⟨bidi,call⟩ := sends
    unfold Connection.act Connection.apply
    split
    swap
    · exact ⟨sound,offered,fun _ => le_rfl⟩
    · rw [call]
      dsimp only
      rw [sentMaxStreams_slots]
      refine ⟨⟨sound.ids,sound.peer,sound.localBidi,sound.localUni,fun other n waiting => ?_⟩,offered,fun _ => le_rfl⟩
      change Function.update conn.slots.pending bidi none other = some n at waiting
      by_cases same : other = bidi
      · subst same
        rw [Function.update_self] at waiting
        cases waiting
      · rw [Function.update_of_ne same] at waiting
        exact sound.waits other n waiting
  by_cases asks : ∃ sb, e.call = .streamsBlocked sb
  · obtain ⟨sb,call⟩ := asks
    unfold Connection.act Connection.apply
    split
    swap
    · exact ⟨sound,offered,fun _ => le_rfl⟩
    · rw [call]
      dsimp only
      rw [handleStreamsBlocked_slots]
      split
      · exact ⟨sound,offered,fun _ => le_rfl⟩
      · obtain ⟨sound',offered',limit,_⟩ := @hear_keeps conn.slots sb.bidi sb.maximumStreams sound offered
        exact ⟨sound',offered',limit⟩
  push Not at sends asks
  obtain ⟨sound',offered',goes⟩ := (act_moves conn e sends asks).keeps sound offered
  exact ⟨sound',offered',goes.limit⟩

theorem fresh_slots {h : History} (fresh : Fresh h) : h.conn.slots.Sound ∧ ∀ bidi, Offered h.conn.slots bidi := by
  obtain ⟨role,params,memory,send,cap,follows,tunes,stream,conn,normal,rfl⟩ := fresh
  have bounded : ∀ window, window ≤ maxConcurrentStreamsPerKind → Bounded (.initAdvertised window) := by
    intro window within
    exact ⟨Nat.zero_le _,min_le_right _ _,(min_le_left _ _).trans within⟩
  have idle : ∀ window, window ≤ maxConcurrentStreamsPerKind → (StreamIdSpace.initAdvertised window).creditToAdvertise none = none := by
    intro window within
    rw [StreamIdSpace.creditToAdvertise_eq_none]
    have most : maxConcurrentStreamsPerKind ≤ maxU64 := by decide
    left
    unfold StreamIdSpace.target StreamIdSpace.initAdvertised saturatingAdd
    dsimp only
    omega
  refine ⟨⟨⟨StreamIdSpace.sound_init _ _,StreamIdSpace.sound_init _ _,StreamIdSpace.sound_init _ _,StreamIdSpace.sound_init _ _⟩,
    fun bidi => ?_,Nat.zero_le _,Nat.zero_le _,fun bidi n waiting => ?_⟩,fun bidi _ => ?_⟩
  · cases bidi
    · exact bounded _ normal.streamsUni
    · exact bounded _ normal.streamsBidi
  · cases bidi <;> cases waiting
  · cases bidi
    · exact idle _ normal.streamsUni
    · exact idle _ normal.streamsBidi

end Inbound
end QuicZig.Conn
