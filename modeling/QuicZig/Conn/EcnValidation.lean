import QuicZig.Conn.EcnReceive

/-! The validation of the ECN counts that an honest peer reports, when its ACK frames
are delayed, reordered and lost. -/
namespace QuicZig.Conn.EcnValidation
open Machine EcnReceive

/-- An ACK frame, and how many packets the peer had received when it built it. -/
structure Built where
  frame : Frame.Ack
  received : Nat
  deriving DecidableEq, Repr

/-- The sender's space of one path, and its peer: `log` are the packets that the peer received, in that order and
with the marks they arrived with, `acks` the ACK frames it built. `base` tells which ACK frame the counts of the
space are from: what the peer had received when it built that one. -/
structure Path where
  ecnEnabled : Bool := true
  space : PnSpace := {}
  log : List (Nat × EcnCodepoint) := []
  acks : List Built := []
  base : Nat := 0

inductive Event where
  | send (ackEliciting : Bool)
  | sendClose
  | receive (pn : Nat) (mark : EcnCodepoint)
  | build (a : Frame.Ack)
  | deliver (b : Built)

def deliver (s : Path) (b : Built) : Path :=
  let space := (s.space.applyAck s.ecnEnabled b.frame).getD s.space
  {s with space := space,
          base := if s.ecnEnabled ∧ b.frame.ecnCounts ≠ none ∧ space.validation = .testing then b.received else s.base}

def step (s : Path) : Event → Path
  | .send ackEliciting =>
    match s.space.allocatePn with
    | none => s
    | some (_,space) => {s with space := space.recordSent s.ecnEnabled ackEliciting}
  | .sendClose =>
    match s.space.allocatePn with
    | none => s
    | some (_,space) => {s with space := space.recordCloseSent s.ecnEnabled}
  | .receive pn mark => {s with log := s.log ++ [(pn,mark)]}
  | .build a => {s with acks := ⟨a,s.log.length⟩::s.acks}
  | .deliver b => deliver s b

/-- The true counts of the packets received. -/
def truth (log : List (Nat × EcnCodepoint)) : Frame.EcnCounts :=
  {ect0 := tally log .ect0,ect1 := tally log .ect1,ecnCe := tally log .ce}

/-- The peer receives what was sent, counts it once, and reports the truth; ACK frames arrive in any order, or never. -/
def Honest (s : Path) : Event → Prop
  | .receive pn _ => pn < s.space.nextPn ∧ pn ∉ s.log.map Prod.fst
  | .build a => a.largestAcked ∈ s.log.map Prod.fst ∧ (a.ecnCounts = none ∨ a.ecnCounts = some (truth s.log))
  | .deliver b => b ∈ s.acks
  | _ => True

def Fresh (s : Path) : Prop := ∃ ecnEnabled, s = {ecnEnabled := ecnEnabled}

/-- How many of the packets arrived with a mark. -/
def marked (log : List (Nat × EcnCodepoint)) : Nat := log.countP fun c => c.2 ≠ .notEct

/-- No marked packet came between the building of this ACK frame and of the one whose counts were taken last, and
the peer had received no more marked packets than the sender has counted: those that asked for an ACK, and closes. -/
def InOrder (s : Path) : Event → Prop
  | .deliver b => s.ecnEnabled = false ∨ b.frame.ecnCounts = none ∨
      (marked ((s.log.take s.base).drop b.received) = 0 ∧ marked (s.log.take b.received) ≤ s.space.ectMarkedSent)
  | _ => True

structure Truthful (s : Path) : Prop where
  distinct : (s.log.map Prod.fst).Nodup
  sent : ∀ x ∈ s.log.map Prod.fst, x < s.space.nextPn
  few : s.space.nextPn ≤ PnSpace.maxPn+1
  built : ∀ b ∈ s.acks, b.received ≤ s.log.length ∧ b.frame.largestAcked < s.space.nextPn ∧
    (b.frame.ecnCounts = none ∨ b.frame.ecnCounts = some (truth (s.log.take b.received)))
  based : s.base ≤ s.log.length
  taken : s.space.peerAckEct0 = (truth (s.log.take s.base)).ect0 ∧ s.space.peerAckEct1 = (truth (s.log.take s.base)).ect1 ∧
    s.space.peerAckCe = (truth (s.log.take s.base)).ecnCe
  seen : s.space.peerAckEcnSeen = false → s.base = 0

theorem marked_cons (pn : Nat) (mark : EcnCodepoint) (log : List (Nat × EcnCodepoint)) :
    marked ((pn,mark)::log) = marked log+if mark = .notEct then 0 else 1 := by
  unfold marked
  rw [List.countP_cons]
  by_cases none : mark = .notEct <;> simp [none]

theorem truth_marked (log : List (Nat × EcnCodepoint)) : (truth log).ect0+(truth log).ect1+(truth log).ecnCe = marked log := by
  unfold truth
  dsimp only
  induction log with
  | nil => rfl
  | cons c rest ih =>
    obtain ⟨pn,mark⟩ := c
    simp only [tally_cons,marked_cons]
    cases mark <;> simp <;> omega

theorem tally_append (front back : List (Nat × EcnCodepoint)) (mark : EcnCodepoint) :
    tally (front ++ back) mark = tally front mark+tally back mark := List.countP_append

/-- The counts of an earlier log are below those of a later one, unless no marked packet came in between. -/
theorem behind_iff (log : List (Nat × EcnCodepoint)) (early late : Nat) :
    ((truth (log.take early)).ect0 < (truth (log.take late)).ect0 ∨
      (truth (log.take early)).ect1 < (truth (log.take late)).ect1 ∨
      (truth (log.take early)).ecnCe < (truth (log.take late)).ecnCe) ↔ marked ((log.take late).drop early) ≠ 0 := by
  have sum := truth_marked ((log.take late).drop early)
  rcases Nat.le_total late early with before | after
  · have none : (log.take late).drop early = [] := by
      rw [List.drop_eq_nil_iff,List.length_take]
      omega
    have split : log.take early = log.take late ++ (log.take early).drop late := by
      conv_lhs => rw [← List.take_append_drop late (log.take early)]
      rw [List.take_take,Nat.min_eq_left before]
    rw [none,split]
    simp only [truth,tally_append,marked]
    simp
  · have split : log.take late = log.take early ++ (log.take late).drop early := by
      conv_lhs => rw [← List.take_append_drop early (log.take late)]
      rw [List.take_take,Nat.min_eq_left after]
    generalize (log.take late).drop early = middle at sum split ⊢
    rw [split,← sum]
    simp only [truth,tally_append]
    omega

theorem Truthful.total {s : Path} (truthful : Truthful s) (received : Nat) :
    PnSpace.reportedTotal (truth (s.log.take received)) = marked (s.log.take received) := by
  have sum := truth_marked (s.log.take received)
  have most : marked (s.log.take received) ≤ s.log.length := by
    refine Nat.le_trans List.countP_le_length ?_
    rw [List.length_take]
    exact Nat.min_le_right _ _
  have sent : s.log.length ≤ s.space.nextPn := by
    rw [← List.length_map Prod.fst,← List.length_range (n := s.space.nextPn)]
    apply List.Subperm.length_le
    exact List.subperm_of_subset truthful.distinct (fun x member => List.mem_range.mpr (truthful.sent x member))
  have few := truthful.few
  unfold PnSpace.reportedTotal saturatingAdd maxU64
  unfold PnSpace.maxPn at few
  omega

/-- The counts of an ACK frame pass the checks just in case it comes in order. -/
theorem Truthful.accepts_iff {s : Path} (truthful : Truthful s) (testing : s.space.validation = .testing) (received : Nat) :
    s.space.Accepts (truth (s.log.take received)) ↔
      marked ((s.log.take s.base).drop received) = 0 ∧ marked (s.log.take received) ≤ s.space.ectMarkedSent := by
  have behind := behind_iff s.log received s.base
  have total := truthful.total received
  obtain ⟨ect0,ect1,ce⟩ := truthful.taken
  constructor
  · intro accepts
    refine ⟨?_,by rw [← total]; exact accepts.total⟩
    cases seen : s.space.peerAckEcnSeen with
    | false =>
      rw [truthful.seen seen,List.take_zero,List.drop_nil]
      rfl
    | true =>
      have monotone := accepts.monotone seen
      by_contra between
      have less := behind.mpr between
      omega
  · intro both
    obtain ⟨none,few⟩ := both
    refine ⟨testing,?_,by rw [total]; exact few⟩
    intro _
    have notLess := fun less => behind.mp less none
    omega

theorem deliver_spec {s : Path} {b : Built} (truthful : Truthful s) (testing : s.space.validation = .testing)
    (built : b ∈ s.acks) : (deliver s b).space.validation = .testing ↔ InOrder s (.deliver b) := by
  obtain ⟨_,sent,counts⟩ := truthful.built b built
  obtain ⟨largest,⟨unread,applied⟩ | ⟨enabled,_,here,accepts,applied⟩ | ⟨enabled,_,here,rejects,applied⟩⟩ :=
    PnSpace.applyAck_cases s.ecnEnabled sent
  · unfold deliver
    rw [applied]
    constructor
    · intro _
      rcases unread with disabled | none
      · exact .inl disabled
      · exact .inr (.inl none)
    · intro _
      exact testing
  · have same := counts.resolve_left (by rw [here]; nofun)
    rw [here] at same
    obtain rfl := Option.some.inj same
    unfold deliver
    rw [applied]
    constructor
    · intro _
      exact .inr (.inr ((truthful.accepts_iff testing b.received).mp accepts))
    · intro _
      exact testing
  · have same := counts.resolve_left (by rw [here]; nofun)
    rw [here] at same
    obtain rfl := Option.some.inj same
    rw [truthful.accepts_iff testing] at rejects
    unfold deliver
    rw [applied]
    constructor
    · nofun
    · intro inOrder
      rcases inOrder with disabled | none | met
      · rw [enabled] at disabled
        cases disabled
      · rw [here] at none
        cases none
      · exact absurd met rejects

theorem truthful_deliver {s : Path} {b : Built} (truthful : Truthful s) (built : b ∈ s.acks) : Truthful (deliver s b) := by
  obtain ⟨within,sent,counts⟩ := truthful.built b built
  obtain ⟨largest,⟨unread,applied⟩ | ⟨enabled,_,here,accepts,applied⟩ | ⟨enabled,_,here,rejects,applied⟩⟩ :=
    PnSpace.applyAck_cases s.ecnEnabled sent
  · have kept : ¬ (s.ecnEnabled = true ∧ b.frame.ecnCounts ≠ none ∧ s.space.validation = .testing) := by
      intro all
      rcases unread with disabled | none
      · rw [disabled] at all
        cases all.1
      · exact all.2.1 none
    unfold deliver
    rw [applied]
    dsimp only [Option.getD_some]
    rw [if_neg kept]
    exact ⟨truthful.distinct,truthful.sent,truthful.few,truthful.built,truthful.based,truthful.taken,truthful.seen⟩
  · have same := counts.resolve_left (by rw [here]; nofun)
    rw [here] at same
    obtain rfl := Option.some.inj same
    unfold deliver
    rw [applied]
    dsimp only [Option.getD_some]
    rw [if_pos ⟨enabled,by rw [here]; nofun,accepts.testing⟩]
    exact ⟨truthful.distinct,truthful.sent,truthful.few,truthful.built,within,⟨rfl,rfl,rfl⟩,nofun⟩
  · unfold deliver
    rw [applied]
    dsimp only [Option.getD_some]
    rw [if_neg (fun all => nomatch all.2.2)]
    exact ⟨truthful.distinct,truthful.sent,truthful.few,truthful.built,truthful.based,truthful.taken,truthful.seen⟩

/-- Sending raises the next number, and changes neither the log nor the counts taken. -/
theorem Truthful.sends {s : Path} {pn : Nat} {space after : PnSpace} (truthful : Truthful s)
    (allocated : s.space.allocatePn = some (pn,space)) (recorded : ∃ count, after = {space with ectMarkedSent := count}) :
    Truthful {s with space := after} := by
  obtain ⟨count,rfl⟩ := recorded
  unfold PnSpace.allocatePn at allocated
  split at allocated
  · cases allocated
  · rename_i room
    cases allocated
    refine ⟨truthful.distinct,?_,?_,?_,truthful.based,truthful.taken,truthful.seen⟩
    · exact fun x member => Nat.lt_succ_of_lt (truthful.sent x member)
    · exact Nat.succ_le_succ (Nat.not_lt.mp room)
    · intro b member
      obtain ⟨within,sent,counts⟩ := truthful.built b member
      exact ⟨within,Nat.lt_succ_of_lt sent,counts⟩

theorem recordSent_count (ecnEnabled ackEliciting : Bool) (space : PnSpace) :
    ∃ count, space.recordSent ecnEnabled ackEliciting = {space with ectMarkedSent := count} := by
  cases ecnEnabled <;> cases ackEliciting <;> exact ⟨_,rfl⟩

theorem recordCloseSent_count (ecnEnabled : Bool) (space : PnSpace) :
    ∃ count, space.recordCloseSent ecnEnabled = {space with ectMarkedSent := count} := by
  cases ecnEnabled <;> exact ⟨_,rfl⟩

theorem truthful_step (s : Path) (e : Event) (truthful : Truthful s) (honest : Honest s e) : Truthful (step s e) := by
  cases e with
  | send ackEliciting =>
    rw [step]
    split
    · exact truthful
    · rename_i allocated
      exact truthful.sends allocated (recordSent_count _ _ _)
  | sendClose =>
    rw [step]
    split
    · exact truthful
    · rename_i allocated
      exact truthful.sends allocated (recordCloseSent_count _ _)
  | receive pn mark =>
    obtain ⟨sent,new⟩ := honest
    have kept (received : Nat) (within : received ≤ s.log.length) :
        (s.log ++ [(pn,mark)]).take received = s.log.take received := List.take_append_of_le_length within
    have longer : (s.log ++ [(pn,mark)]).length = s.log.length+1 := by simp
    refine ⟨?_,?_,truthful.few,?_,?_,?_,truthful.seen⟩
    · rw [step,List.map_append]
      apply List.Nodup.append truthful.distinct (by simp)
      simpa using new
    · intro x member
      rw [step,List.map_append,List.mem_append] at member
      rcases member with before | last
      · exact truthful.sent x before
      · have here : x = pn := by simpa using last
        rw [here]
        exact sent
    · intro b member
      obtain ⟨within,sent,counts⟩ := truthful.built b member
      rw [step]
      dsimp only
      rw [kept b.received within,longer]
      exact ⟨Nat.le_succ_of_le within,sent,counts⟩
    · rw [step]
      dsimp only
      rw [longer]
      exact Nat.le_succ_of_le truthful.based
    · rw [step]
      dsimp only
      rw [kept s.base truthful.based]
      exact truthful.taken
  | build a =>
    obtain ⟨largest,counts⟩ := honest
    refine ⟨truthful.distinct,truthful.sent,truthful.few,?_,truthful.based,truthful.taken,truthful.seen⟩
    intro b member
    rcases List.mem_cons.mp member with rfl | before
    · refine ⟨Nat.le_refl _,truthful.sent _ largest,?_⟩
      rw [step]
      dsimp only
      rw [List.take_length]
      exact counts
    · exact truthful.built b before
  | deliver b => exact truthful_deliver truthful honest

theorem testing_step (s : Path) (e : Event) (truthful : Truthful s) (testing : s.space.validation = .testing)
    (honest : Honest s e) : (step s e).space.validation = .testing ↔ InOrder s e := by
  cases e with
  | send ackEliciting =>
    have same : (step s (.send ackEliciting)).space.validation = s.space.validation := by
      unfold step PnSpace.allocatePn PnSpace.recordSent
      grind
    rw [same]
    exact ⟨fun _ => trivial,fun _ => testing⟩
  | sendClose =>
    have same : (step s .sendClose).space.validation = s.space.validation := by
      unfold step PnSpace.allocatePn PnSpace.recordCloseSent
      grind
    rw [same]
    exact ⟨fun _ => trivial,fun _ => testing⟩
  | receive | build => exact ⟨fun _ => trivial,fun _ => testing⟩
  | deliver b => exact deliver_spec truthful testing honest

theorem fresh_truthful (s : Path) (fresh : Fresh s) : Truthful s ∧ s.space.validation = .testing := by
  obtain ⟨ecnEnabled,rfl⟩ := fresh
  exact ⟨⟨List.nodup_nil,by simp,Nat.zero_le _,by simp,Nat.le_refl _,⟨rfl,rfl,rfl⟩,fun _ => rfl⟩,rfl⟩

/-- With an honest peer the validation goes on throughout a run just in case every ACK frame with counts comes in order. -/
theorem validation_goes_on (s : Path) (fresh : Fresh s) (events : List Event) (honest : System.Admits step Honest s events) :
    System.Throughout (fun s => s.space.validation = .testing) step s events ↔ System.Admits step InOrder s events := by
  obtain ⟨truthful,testing⟩ := fresh_truthful s fresh
  exact System.throughout_iff truthful_step testing_step truthful testing honest

/-- An ACK frame for one packet, received with ECT(0). -/
def first : Frame.Ack := {largestAcked := 0,ackDelay := 0,firstRange := 0,rangeCount := 0,rangesBytes := [],
                          ecnCounts := some {ect0 := 1,ect1 := 0,ecnCe := 0}}

def second : Frame.Ack := {largestAcked := 1,ackDelay := 0,firstRange := 1,rangeCount := 0,rangesBytes := [],
                           ecnCounts := some {ect0 := 2,ect1 := 0,ecnCe := 0}}

/-- Two packets are received and acknowledged one by one. -/
def exchange : List Event :=
  [.send true,.send true,.receive 0 .ect0,.build first,.receive 1 .ect0,.build second]

theorem exchange_honest (later : List Event)
    (honest : System.Admits step Honest (System.run step {} exchange) later) :
    System.Admits step Honest {} (exchange ++ later) := by
  refine ⟨trivial,trivial,⟨by decide,by decide⟩,⟨by decide,.inr rfl⟩,⟨by decide,by decide⟩,⟨by decide,.inr rfl⟩,honest⟩

def ordered : List Event := [.deliver ⟨first,1⟩,.deliver ⟨second,2⟩]

theorem validation_goes_on_ordered :
    System.Throughout (fun s => s.space.validation = .testing) step {} (exchange ++ ordered) :=
  (validation_goes_on {} ⟨true,rfl⟩ (exchange ++ ordered) (exchange_honest ordered ⟨.tail _ (.head _),.head _,trivial⟩)).mpr
    ⟨trivial,trivial,trivial,trivial,trivial,trivial,.inr (.inr (by decide)),.inr (.inr (by decide)),trivial⟩

/-- The ACK frame for the first packet overtaken by the one for both fails the validation. -/
theorem late_ack_fails : ¬ ∀ (s : Path) (events : List Event), Fresh s → System.Admits step Honest s events →
    (System.run step s events).space.validation = .testing := by
  intro always
  have run := always {} (exchange ++ [.deliver ⟨second,2⟩,.deliver ⟨first,1⟩]) ⟨true,rfl⟩
    (exchange_honest [.deliver ⟨second,2⟩,.deliver ⟨first,1⟩] ⟨.head _,.tail _ (.head _),trivial⟩)
  revert run
  decide

end QuicZig.Conn.EcnValidation
