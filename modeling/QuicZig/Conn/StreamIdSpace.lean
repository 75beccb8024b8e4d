import QuicZig.Conn.PeerCids
import QuicZig.Conn.RangeList

/-! Stream ids: what an id says of its stream, and the four spaces that remember
which ids had a stream. A space counts indices; the ones skipped are its holes. -/
namespace QuicZig.Conn
open Machine RangeList Spans

namespace StreamIdSpace

def maxStreamCount : Nat := 2^60

inductive Error where
  | limitExceeded | alreadyUsed | tooManySkippedIds | outOfMemory
  deriving DecidableEq, Repr

/-- What is known about an index. -/
inductive State where
  | notOpened | hole | used
  deriving DecidableEq, Repr

end StreamIdSpace

structure StreamIdSpace where
  opened : Nat := 0
  holes : List Range := []
  closed : Nat := 0
  limit : Nat := 0
  window : Nat := 0
  deriving DecidableEq, Repr

namespace StreamIdSpace

def initAdvertised (window : Nat) : StreamIdSpace :=
  let bounded := min window maxStreamCount
  {limit := bounded,window := bounded}

def initGranted (limit : Nat) : StreamIdSpace := {limit := min limit maxStreamCount}

def classify (self : StreamIdSpace) (index : Nat) : State :=
  if index ≥ self.opened then .notOpened
  else if containsPoint self.holes index then .hole
  else .used

/-- `maxHoleRanges = none` is no cap. -/
def «open» (granted : Bool) (self : StreamIdSpace) (index : Nat) (maxHoleRanges : Option Nat) :
    Except Error Unit × StreamIdSpace :=
  if index ≥ self.limit then (.error .limitExceeded,self)
  else if index < self.opened then
    if !containsPoint self.holes index then (.error .alreadyUsed,self)
    else if removalSplits self.holes index && maxHoleRanges.any (self.holes.length ≥ ·) then (.error .tooManySkippedIds,self)
    else match removePoint granted self.holes index with
      | (.ok _,holes) => (.ok (),{self with holes := holes})
      | (.error _,holes) => (.error .outOfMemory,{self with holes := holes})
  else if index > self.opened then
    if maxHoleRanges.any (self.holes.length ≥ ·) then (.error .tooManySkippedIds,self)
    else if !granted then (.error .outOfMemory,self)
    else (.ok (),{self with holes := self.holes ++ [⟨self.opened,index⟩],opened := index+1})
  else (.ok (),{self with opened := index+1})

def noteClosed (self : StreamIdSpace) : StreamIdSpace := {self with closed := self.closed+1}

def holeCount (self : StreamIdSpace) : Nat := (self.holes.map Range.len).sum

def inUse (self : StreamIdSpace) : Nat := self.opened-self.closed

def target (self : StreamIdSpace) : Nat := min (saturatingAdd self.window self.closed) maxStreamCount

def creditToAdvertise (self : StreamIdSpace) (peerBlockedAt : Option Nat) : Option Nat :=
  let entitled := self.target
  if entitled ≤ self.limit then none
  else if entitled-self.limit ≥ max 1 (self.window/2) then some entitled
  else if self.opened ≥ self.limit then some entitled
  else if peerBlockedAt.any (· ≥ self.limit) then some entitled
  else none

def raiseLimit (self : StreamIdSpace) (newLimit : Nat) : StreamIdSpace :=
  let bounded := min newLimit maxStreamCount
  if bounded > self.limit then {self with limit := bounded} else self

/-- The holes are sorted, and the highest index in use is not one of them. -/
structure Sound (ids : StreamIdSpace) : Prop where
  sorted : Sorted ids.holes
  below : ∀ r ∈ ids.holes, r.stop < ids.opened

theorem sound_init (limit window : Nat) : Sound {limit := limit,window := window} := ⟨separated_nil,by simp⟩

theorem classify_used {self : StreamIdSpace} (sound : self.Sound) (index : Nat) :
    self.classify index = .used ↔ index < self.opened ∧ ¬ Covered self.holes index := by
  unfold classify
  rw [← containsPoint_iff sound.sorted]
  grind

theorem open_error {self after : StreamIdSpace} {granted : Bool} {index : Nat} {cap : Option Nat} {e : Error}
    (refused : self.open granted index cap = (.error e,after)) : after = self := by
  unfold StreamIdSpace.open at refused
  split at refused
  · cases refused
    rfl
  split at refused
  · split at refused
    · cases refused
      rfl
    split at refused
    · cases refused
      rfl
    · have kept := removePoint_error granted self.holes index
      cases outcome : removePoint granted self.holes index with
      | mk result holes =>
      rw [outcome] at refused kept
      cases result with
      | ok _ => cases refused
      | error e =>
        obtain rfl : holes = self.holes := kept
        cases refused
        rfl
  split at refused
  · split at refused
    · cases refused
      rfl
    split at refused
    · cases refused
      rfl
    · cases refused
  · cases refused

theorem open_spec {self after : StreamIdSpace} (sound : self.Sound) {granted : Bool} {index : Nat} {cap : Option Nat}
    (ok : self.open granted index cap = (.ok (),after)) :
    after.Sound ∧ self.classify index ≠ .used ∧ index < self.limit ∧ after.limit = self.limit ∧ after.closed = self.closed ∧
      after.window = self.window ∧ ∀ j, after.classify j = .used ↔ self.classify j = .used ∨ j = index := by
  unfold StreamIdSpace.open at ok
  split at ok
  · cases ok
  rename_i bound
  split at ok
  · rename_i early
    split at ok
    · cases ok
    rename_i known
    split at ok
    · cases ok
    have hole : Covered self.holes index := (containsPoint_iff sound.sorted index).mp (by simpa using known)
    have removed := removePoint_spec sound.sorted granted index
    cases outcome : removePoint granted self.holes index with
    | mk result holes =>
    rw [outcome] at ok removed
    cases result with
    | error e => cases ok
    | ok found =>
      cases found with
      | false => exact absurd hole removed.1
      | true =>
      obtain ⟨_,sorted,covers⟩ := removed
      cases ok
      have below : ∀ r ∈ holes, r.stop < self.opened := by
        intro r member
        have proper := sorted.proper r member
        obtain ⟨r',member',low,high⟩ := ((covers (r.stop-1)).mp ⟨r,member,by omega,by omega⟩).1
        have := sound.below r' member'
        omega
      have sound' : Sound {self with holes := holes} := ⟨sorted,below⟩
      refine ⟨sound',?_,by omega,rfl,rfl,rfl,fun j => ?_⟩
      · rw [Ne,classify_used sound]
        exact fun used => used.2 hole
      · rw [classify_used sound',classify_used sound,covers]
        dsimp only
        by_cases same : j = index
        · subst same
          simp [early]
        · simp [same]
  · rename_i late
    have fresh : self.classify index ≠ .used := by
      rw [Ne,classify_used sound]
      omega
    split at ok
    · rename_i jump
      split at ok
      · cases ok
      split at ok
      · cases ok
      cases ok
      have sound' : Sound {self with holes := self.holes ++ [⟨self.opened,index⟩],opened := index+1} := by
        refine ⟨(separated_append _ _).mpr ⟨sound.sorted,(separated_cons _ _).mpr ⟨jump,by simp,separated_nil⟩,?_⟩,?_⟩
        · intro left member right last
          rw [List.mem_singleton.mp last]
          exact sound.below left member
        · intro r member
          rcases List.mem_append.mp member with old | new
          · have := sound.below r old
            dsimp only
            omega
          · rw [List.mem_singleton.mp new]
            dsimp only
            omega
      refine ⟨sound',fresh,by omega,rfl,rfl,rfl,fun j => ?_⟩
      rw [classify_used sound',classify_used sound]
      dsimp only
      rw [covered_append,covered_cons]
      have : Covered self.holes j → j < self.opened := by
        rintro ⟨r,member,_,stop⟩
        have := sound.below r member
        omega
      simp only [covers_nil,or_false]
      grind
    · cases ok
      have sound' : Sound {self with opened := index+1} :=
        ⟨sound.sorted,fun r member => lt_of_lt_of_le (sound.below r member) (by dsimp only; omega)⟩
      refine ⟨sound',fresh,by omega,rfl,rfl,rfl,fun j => ?_⟩
      rw [classify_used sound',classify_used sound]
      dsimp only
      have : Covered self.holes j → j < self.opened := by
        rintro ⟨r,member,_,stop⟩
        have := sound.below r member
        omega
      grind

/-- An opening moves the highest index in use, and nothing else but the holes. -/
theorem open_opened {self after : StreamIdSpace} {granted : Bool} {index : Nat} {cap : Option Nat}
    (ok : self.open granted index cap = (.ok (),after)) :
    index < self.limit ∧ after.opened = max self.opened (index+1) ∧ after.limit = self.limit ∧ after.closed = self.closed ∧
      after.window = self.window := by
  unfold StreamIdSpace.open at ok
  split at ok
  · cases ok
  rename_i bound
  split at ok
  · split at ok
    · cases ok
    split at ok
    · cases ok
    cases outcome : removePoint granted self.holes index with
    | mk result holes =>
    rw [outcome] at ok
    cases result with
    | error e => cases ok
    | ok found =>
      cases ok
      exact ⟨by omega,by dsimp only; omega,rfl,rfl,rfl⟩
  split at ok
  · split at ok
    · cases ok
    split at ok
    · cases ok
    cases ok
    exact ⟨by omega,by dsimp only; omega,rfl,rfl,rfl⟩
  · cases ok
    exact ⟨by omega,by dsimp only; omega,rfl,rfl,rfl⟩

theorem open_hole {self : StreamIdSpace} {index : Nat} {cap : Option Nat} (below : index < self.limit)
    (hole : self.classify index = .hole) (room : (removalSplits self.holes index && cap.any (self.holes.length ≥ ·)) = false) :
    ∃ after, self.open true index cap = (.ok (),after) := by
  have early : index < self.opened ∧ containsPoint self.holes index = true := by
    unfold classify at hole
    split_ifs at hole with late known
    exact ⟨not_le.mp late,known⟩
  unfold StreamIdSpace.open
  rw [if_neg (not_le.mpr below),if_pos early.1,early.2,room]
  cases outcome : removePoint true self.holes index with
  | mk result holes =>
  cases result with
  | ok _ => exact ⟨_,rfl⟩
  | error e =>
    unfold removePoint at outcome
    split at outcome
    · cases outcome
    split at outcome
    · cases outcome
    · rw [Bool.not_true,Bool.and_false] at outcome
      cases outcome

theorem creditToAdvertise_some {self : StreamIdSpace} {peerBlockedAt : Option Nat} {newLimit : Nat}
    (some' : self.creditToAdvertise peerBlockedAt = some newLimit) : newLimit = self.target ∧ self.limit < self.target := by
  unfold creditToAdvertise at some'
  dsimp only at some'
  split_ifs at some'
  all_goals cases some'; exact ⟨rfl,by omega⟩

theorem creditToAdvertise_none {self : StreamIdSpace} {peerBlockedAt : Option Nat}
    (none' : self.creditToAdvertise peerBlockedAt = none) (freed : self.limit < self.target) :
    self.opened < self.limit ∧ peerBlockedAt.all (· < self.limit) = true := by
  unfold creditToAdvertise at none'
  dsimp only at none'
  split_ifs at none' with _ _ out blocked
  · omega
  · refine ⟨by omega,?_⟩
    cases peerBlockedAt with
    | none => rfl
    | some at' => simpa using blocked

/-- The same ids are in use; limits and counts may differ. -/
structure SameIds (ids after : StreamIdSpace) : Prop where
  opened : after.opened = ids.opened
  holes : after.holes = ids.holes

theorem SameIds.refl (ids : StreamIdSpace) : SameIds ids ids := ⟨rfl,rfl⟩

theorem SameIds.trans {ids mid after : StreamIdSpace} (first : SameIds ids mid) (second : SameIds mid after) :
    SameIds ids after := ⟨second.opened.trans first.opened,second.holes.trans first.holes⟩

theorem SameIds.sound {ids after : StreamIdSpace} (same : SameIds ids after) (sound : ids.Sound) : after.Sound := by
  refine ⟨same.holes ▸ sound.sorted,fun r member => ?_⟩
  rw [same.opened]
  exact sound.below r (same.holes ▸ member)

theorem SameIds.classify {ids after : StreamIdSpace} (same : SameIds ids after) (index : Nat) :
    after.classify index = ids.classify index := by
  unfold StreamIdSpace.classify
  rw [same.opened,same.holes]

end StreamIdSpace

namespace Streams
open Paths

def streamInitiatedByClient (id : Nat) : Bool := id &&& 0b01 = 0

def streamIsBidi (id : Nat) : Bool := id &&& 0b10 = 0

def streamIsUni (id : Nat) : Bool := !streamIsBidi id

def streamIndex (id : Nat) : Nat := id >>> 2

def streamInitiatedByLocal (role : Role) (id : Nat) : Bool := streamInitiatedByClient id == decide (role = .client)

def localMaySendOnStream (role : Role) (id : Nat) : Bool := streamIsBidi id || streamInitiatedByLocal role id

def peerMaySendOnStream (role : Role) (id : Nat) : Bool := streamIsBidi id || !streamInitiatedByLocal role id

structure IdSpaces where
  peerBidiIds : StreamIdSpace := .initAdvertised 0
  peerUniIds : StreamIdSpace := .initAdvertised 0
  localBidiIds : StreamIdSpace := .initGranted maxU64
  localUniIds : StreamIdSpace := .initGranted maxU64
  deriving DecidableEq, Repr

namespace IdSpaces

/-- `idSpace` with its place in the connection: what `f` makes of the space of `id`. -/
def modify (spaces : IdSpaces) (role : Role) (id : Nat) (f : StreamIdSpace → StreamIdSpace) : IdSpaces :=
  if streamInitiatedByLocal role id then
    if streamIsBidi id then {spaces with localBidiIds := f spaces.localBidiIds}
    else {spaces with localUniIds := f spaces.localUniIds}
  else if streamIsBidi id then {spaces with peerBidiIds := f spaces.peerBidiIds}
  else {spaces with peerUniIds := f spaces.peerUniIds}

def idSpace (spaces : IdSpaces) (role : Role) (id : Nat) : StreamIdSpace :=
  if streamInitiatedByLocal role id then
    if streamIsBidi id then spaces.localBidiIds else spaces.localUniIds
  else if streamIsBidi id then spaces.peerBidiIds else spaces.peerUniIds

structure Sound (spaces : IdSpaces) : Prop where
  peerBidiIds : spaces.peerBidiIds.Sound
  peerUniIds : spaces.peerUniIds.Sound
  localBidiIds : spaces.localBidiIds.Sound
  localUniIds : spaces.localUniIds.Sound

def Used (spaces : IdSpaces) (role : Role) (id : Nat) : Prop := (spaces.idSpace role id).classify (streamIndex id) = .used

instance (spaces : IdSpaces) (role : Role) (id : Nat) : Decidable (spaces.Used role id) :=
  inferInstanceAs (Decidable (_ = _))

variable {spaces : IdSpaces} {role : Role}

theorem Sound.idSpace (sound : spaces.Sound) (id : Nat) : (spaces.idSpace role id).Sound := by
  unfold IdSpaces.idSpace
  split <;> split
  · exact sound.localBidiIds
  · exact sound.localUniIds
  · exact sound.peerBidiIds
  · exact sound.peerUniIds

theorem Sound.modify (sound : spaces.Sound) {id : Nat} {f : StreamIdSpace → StreamIdSpace}
    (kept : (f (spaces.idSpace role id)).Sound) : (spaces.modify role id f).Sound := by
  unfold IdSpaces.modify
  unfold IdSpaces.idSpace at kept
  split <;> split <;> rename_i first second <;> simp only [first,second,if_true] at kept
  · exact {sound with localBidiIds := kept}
  · exact {sound with localUniIds := kept}
  · exact {sound with peerBidiIds := kept}
  · exact {sound with peerUniIds := kept}

/-- Two ids of one space share who opened them and their kind. -/
def SameSpace (role : Role) (id other : Nat) : Prop :=
  streamInitiatedByLocal role id = streamInitiatedByLocal role other ∧ streamIsBidi id = streamIsBidi other

instance (role : Role) (id other : Nat) : Decidable (SameSpace role id other) := inferInstanceAs (Decidable (_ ∧ _))

theorem idSpace_modify (id other : Nat) (f : StreamIdSpace → StreamIdSpace) :
    (spaces.modify role id f).idSpace role other =
      if SameSpace role id other then f (spaces.idSpace role other) else spaces.idSpace role other := by
  by_cases first : streamInitiatedByLocal role id <;> by_cases second : streamIsBidi id <;>
    by_cases third : streamInitiatedByLocal role other <;> by_cases fourth : streamIsBidi other <;>
    simp [IdSpaces.modify,IdSpaces.idSpace,SameSpace,first,second,third,fourth]

theorem streamInitiatedByClient_eq (id : Nat) : streamInitiatedByClient id = decide (id % 2 = 0) := by
  unfold streamInitiatedByClient
  rw [Nat.and_one_is_mod]

theorem streamIsBidi_eq (id : Nat) : streamIsBidi id = decide (id/2 % 2 = 0) := by
  have shifted : id &&& 0b10 = 2*((id/2) &&& 1) := by
    apply Nat.eq_of_testBit_eq
    intro i
    cases i with
    | zero => simp [Nat.testBit_zero]
    | succ i =>
      rw [Nat.testBit_and,Nat.testBit_succ,Nat.testBit_succ,Nat.testBit_succ,Nat.mul_div_cancel_left _ (by omega : 0 < 2),
        Nat.testBit_and]
  unfold streamIsBidi
  rw [shifted,Nat.and_one_is_mod]
  exact decide_eq_decide.mpr (by omega)

theorem streamIndex_eq (id : Nat) : streamIndex id = id/4 := Nat.shiftRight_eq_div_pow id 2

theorem index_inj {id other : Nat} (same : SameSpace role id other) (index : streamIndex id = streamIndex other) : id = other := by
  obtain ⟨initiated,kind⟩ := same
  unfold streamInitiatedByLocal at initiated
  rw [streamInitiatedByClient_eq,streamInitiatedByClient_eq] at initiated
  rw [streamIsBidi_eq,streamIsBidi_eq,decide_eq_decide] at kind
  rw [streamIndex_eq,streamIndex_eq] at index
  have low : id % 2 = 0 ↔ other % 2 = 0 := by
    rcases Nat.mod_two_eq_zero_or_one id with a | a <;> rcases Nat.mod_two_eq_zero_or_one other with b | b <;>
      simp_all
  omega

theorem open_spec (sound : spaces.Sound) {granted : Bool} {id : Nat} {cap : Option Nat} {after : StreamIdSpace}
    (ok : (spaces.idSpace role id).open granted (streamIndex id) cap = (.ok (),after)) :
    (spaces.modify role id fun _ => after).Sound ∧ ¬ spaces.Used role id ∧
      ∀ other, (spaces.modify role id fun _ => after).Used role other ↔ spaces.Used role other ∨ other = id := by
  obtain ⟨sound',fresh,_,_,_,_,used⟩ := StreamIdSpace.open_spec (sound.idSpace id) ok
  refine ⟨sound.modify sound',fresh,fun other => ?_⟩
  unfold Used
  rw [idSpace_modify]
  by_cases same : SameSpace role id other
  · have space : spaces.idSpace role other = spaces.idSpace role id := by
      unfold idSpace
      rw [same.1,same.2]
    rw [if_pos same,used,space]
    refine or_congr_right ⟨fun index => (index_inj same index.symm).symm,fun equal => by rw [equal]⟩
  · rw [if_neg same]
    refine ⟨.inl,fun either => either.resolve_right (fun equal => ?_)⟩
    exact same (equal ▸ ⟨rfl,rfl⟩)

theorem open_limits (sound : spaces.Sound) {granted : Bool} {id : Nat} {cap : Option Nat} {after : StreamIdSpace}
    (ok : (spaces.idSpace role id).open granted (streamIndex id) cap = (.ok (),after)) :
    (spaces.modify role id fun _ => after).localBidiIds.limit = spaces.localBidiIds.limit ∧
      (spaces.modify role id fun _ => after).localUniIds.limit = spaces.localUniIds.limit := by
  obtain ⟨_,_,_,limit,_⟩ := StreamIdSpace.open_spec (sound.idSpace id) ok
  unfold idSpace at limit
  unfold modify
  split <;> split <;> rename_i first second <;> simp only [first,second,if_true] at limit
  · exact ⟨limit,rfl⟩
  · exact ⟨rfl,limit⟩
  · exact ⟨rfl,rfl⟩
  · exact ⟨rfl,rfl⟩

theorem modify_same (spaces : IdSpaces) (role : Role) (id : Nat) :
    (spaces.modify role id fun _ => spaces.idSpace role id) = spaces := by
  unfold IdSpaces.modify IdSpaces.idSpace
  split <;> split <;> rfl

structure SameIds (spaces after : IdSpaces) : Prop where
  peerBidiIds : StreamIdSpace.SameIds spaces.peerBidiIds after.peerBidiIds
  peerUniIds : StreamIdSpace.SameIds spaces.peerUniIds after.peerUniIds
  localBidiIds : StreamIdSpace.SameIds spaces.localBidiIds after.localBidiIds
  localUniIds : StreamIdSpace.SameIds spaces.localUniIds after.localUniIds

theorem SameIds.refl (spaces : IdSpaces) : SameIds spaces spaces := ⟨.refl _,.refl _,.refl _,.refl _⟩

theorem SameIds.trans {mid after : IdSpaces} (first : SameIds spaces mid) (second : SameIds mid after) : SameIds spaces after :=
  ⟨first.peerBidiIds.trans second.peerBidiIds,first.peerUniIds.trans second.peerUniIds,
    first.localBidiIds.trans second.localBidiIds,first.localUniIds.trans second.localUniIds⟩

theorem SameIds.sound {after : IdSpaces} (same : SameIds spaces after) (sound : spaces.Sound) : after.Sound :=
  ⟨same.peerBidiIds.sound sound.peerBidiIds,same.peerUniIds.sound sound.peerUniIds,
    same.localBidiIds.sound sound.localBidiIds,same.localUniIds.sound sound.localUniIds⟩

theorem SameIds.used {after : IdSpaces} (same : SameIds spaces after) (id : Nat) : after.Used role id ↔ spaces.Used role id := by
  have space : StreamIdSpace.SameIds (spaces.idSpace role id) (after.idSpace role id) := by
    unfold idSpace
    split <;> split
    · exact same.localBidiIds
    · exact same.localUniIds
    · exact same.peerBidiIds
    · exact same.peerUniIds
  unfold Used
  rw [space.classify]

theorem sameIds_modify (spaces : IdSpaces) (role : Role) (id : Nat) {f : StreamIdSpace → StreamIdSpace}
    (same : ∀ ids, StreamIdSpace.SameIds ids (f ids)) : SameIds spaces (spaces.modify role id f) := by
  unfold IdSpaces.modify
  split <;> split
  · exact {SameIds.refl spaces with localBidiIds := same _}
  · exact {SameIds.refl spaces with localUniIds := same _}
  · exact {SameIds.refl spaces with peerBidiIds := same _}
  · exact {SameIds.refl spaces with peerUniIds := same _}

end IdSpaces
end Streams
end QuicZig.Conn
