import QuicZig.Conn.ReorderQueue

/-! Runs of the ring and of its queue of notes: what is reported, and how the thresholds move. -/
namespace QuicZig.Conn.Reorder
open Machine QuicZig.System QuicZig.Refinement
open Clock (RttEstimator granularityUs)
open Clock.Space (widestThresholdUs)

/-- Between the initial values and the widest ones. -/
structure Bounded (t : Thresholds) : Prop where
  low : initialPacketThreshold ≤ t.packetThreshold
  high : t.packetThreshold ≤ maxPacketThreshold
  shift : t.timeShift ≤ initialTimeShift

/-- Neither threshold is smaller, at any estimate of the round trip time. -/
def Wider (t t' : Thresholds) : Prop :=
  t.packetThreshold ≤ t'.packetThreshold ∧ ∀ rtt, t.timeThresholdUs rtt ≤ t'.timeThresholdUs rtt

def streak (log : List Mark) : Nat := (log.takeWhile (·.isClean)).length

/-- The count of clean rounds is borne out by the log, and so is each return to the initial values. -/
structure Earned (l : Logged) : Prop where
  bounded : Bounded l.thresholds
  rounds : l.thresholds.cleanRounds ≤ streak l.log
  few : l.thresholds.cleanRounds < decayAfterRounds
  decays : ∀ later earlier, l.log = later ++ .decayed::earlier → decayAfterRounds ≤ streak earlier

/-- From `l` on only marks were added to the log, and a threshold that shrank did so in a decay. -/
def Moved (l l' : Logged) : Prop :=
  ∃ marks, l'.log = marks ++ l.log ∧ (Wider l.thresholds l'.thresholds ∨ .decayed ∈ marks)

section
variable {l : Logged} {t : Thresholds}

theorem saturatingAdd_mono {a b c d : Nat} (first : a ≤ c) (second : b ≤ d) : saturatingAdd a b ≤ saturatingAdd c d := by
  unfold saturatingAdd
  omega

theorem timeThresholdUs_antitone {t t' : Thresholds} (shift : t'.timeShift ≤ t.timeShift) (rtt : RttEstimator) :
    t.timeThresholdUs rtt ≤ t'.timeThresholdUs rtt := by
  unfold Thresholds.timeThresholdUs
  by_cases widest : t'.timeShift = 0
  · rw [if_pos widest]
    split
    · exact Nat.le_refl _
    · have twice : saturatingAdd (referenceRtt rtt) (referenceRtt rtt/2^t.timeShift) ≤ widestThresholdUs rtt := by
        have half : referenceRtt rtt/2^t.timeShift ≤ referenceRtt rtt := Nat.div_le_self _ _
        have doubled := saturatingAdd_mono (Nat.le_refl (referenceRtt rtt)) half
        refine Nat.le_trans doubled ?_
        unfold widestThresholdUs
        dsimp only
        change saturatingAdd (referenceRtt rtt) (referenceRtt rtt) ≤ saturatingAdd
          (saturatingAdd (referenceRtt rtt) (referenceRtt rtt)) _
        unfold saturatingAdd
        omega
      omega
  · rw [if_neg widest,if_neg (by omega)]
    have narrower : referenceRtt rtt/2^t.timeShift ≤ referenceRtt rtt/2^t'.timeShift :=
      Nat.div_le_div_left (Nat.pow_le_pow_right (by decide) shift) (Nat.pow_pos (by decide))
    have both := saturatingAdd_mono (Nat.le_refl (referenceRtt rtt)) narrower
    omega

theorem Bounded.wider (bounded : Bounded t) : Wider {} t := ⟨bounded.low,timeThresholdUs_antitone bounded.shift⟩

theorem widenShift_spec (reference needed shift : Nat) :
    Thresholds.widenShift reference needed shift ≤ shift ∧ (Thresholds.widenShift reference needed shift ≠ 0 →
      needed ≤ saturatingAdd reference (reference/2^Thresholds.widenShift reference needed shift)) := by
  induction shift with
  | zero => exact ⟨Nat.le_refl _,fun nonzero => absurd rfl nonzero⟩
  | succ shift ih =>
    unfold Thresholds.widenShift
    split
    · exact ⟨Nat.le_succ_of_le ih.1,ih.2⟩
    · rename_i enough
      exact ⟨Nat.le_refl _,fun _ => Nat.le_of_not_lt enough⟩

theorem widen_covers (t : Thresholds) (lost : LostRecord) (previous : Option Nat) (nowUs : Nat) (rtt : RttEstimator)
    (reachable : nowUs-lost.sentTimeUs ≤ widestThresholdUs rtt) :
    nowUs-lost.sentTimeUs ≤ (t.widen lost previous nowUs rtt).timeThresholdUs rtt := by
  have spec := (widenShift_spec (referenceRtt rtt) (nowUs-lost.sentTimeUs) t.timeShift).2
  unfold Thresholds.widen
  dsimp only
  rw [if_neg (Nat.not_lt.mpr reachable)]
  unfold Thresholds.timeThresholdUs
  dsimp only
  split
  · exact Nat.le_trans reachable (Nat.le_max_left _ _)
  · rename_i some
    exact Nat.le_trans (spec some) (Nat.le_max_left _ _)

theorem widen_bounded (bounded : Bounded t) (lost : LostRecord) (previous : Option Nat) (nowUs : Nat) (rtt : RttEstimator) :
    Bounded (t.widen lost previous nowUs rtt) ∧ Wider t (t.widen lost previous nowUs rtt) := by
  have spec := (widenShift_spec (referenceRtt rtt) (nowUs-lost.sentTimeUs) t.timeShift).1
  unfold Thresholds.widen
  dsimp only
  split
  · exact ⟨⟨bounded.low,bounded.high,bounded.shift⟩,Nat.le_refl _,timeThresholdUs_antitone (Nat.le_refl _)⟩
  · exact ⟨⟨show initialPacketThreshold ≤ maxPacketThreshold by decide,Nat.le_refl _,Nat.le_trans spec bounded.shift⟩,
      bounded.high,
      timeThresholdUs_antitone spec⟩

theorem widen_rounds (t : Thresholds) (lost : LostRecord) (previous : Option Nat) (nowUs : Nat) (rtt : RttEstimator) :
    (t.widen lost previous nowUs rtt).cleanRounds = 0 := by
  unfold Thresholds.widen
  dsimp only
  split <;> rfl

theorem streak_clean (sentTimeUs : Nat) (log : List Mark) : streak (.clean sentTimeUs::log) = streak log+1 := rfl

theorem Earned.mark (earned : Earned l) {mark : Mark} (other : mark ≠ .decayed) (later earlier : List Mark)
    (split : mark::l.log = later ++ .decayed::earlier) : decayAfterRounds ≤ streak earlier := by
  cases later with
  | nil => exact absurd (List.cons.inj split).1 other
  | cons first rest => exact earned.decays rest earlier (List.cons.inj split).2

theorem widen_moved (earned : Earned l) (lost : LostRecord) (previous : Option Nat) (nowUs : Nat) (rtt : RttEstimator) :
    Earned (l.widen lost previous nowUs rtt) ∧ Moved l (l.widen lost previous nowUs rtt) := by
  obtain ⟨bounded,wider⟩ := widen_bounded earned.bounded lost previous nowUs rtt
  have rounds := widen_rounds l.thresholds lost previous nowUs rtt
  refine ⟨⟨bounded,?_,?_,earned.mark (by simp)⟩,[.spurious lost.sentTimeUs],rfl,.inl wider⟩
  · exact Nat.le_trans (Nat.le_of_eq rounds) (Nat.zero_le _)
  · exact Nat.lt_of_le_of_lt (Nat.le_of_eq rounds) (by decide)

theorem countRound_cases (t : Thresholds) (sentTimeUs : Nat) :
    (t.cleanRounds+1 < decayAfterRounds ∧ t.decaysNow = false ∧
      t.countRound sentTimeUs = {t with lastCountedSentUs := some sentTimeUs,cleanRounds := t.cleanRounds+1}) ∨
    (decayAfterRounds ≤ t.cleanRounds+1 ∧ t.decaysNow = false ∧
      t.countRound sentTimeUs = {t with lastCountedSentUs := some sentTimeUs,cleanRounds := 0}) ∨
    (decayAfterRounds ≤ t.cleanRounds+1 ∧ t.decaysNow = true ∧ t.countRound sentTimeUs = {t with
      lastCountedSentUs := some sentTimeUs
      cleanRounds := 0
      packetThreshold := initialPacketThreshold
      timeShift := initialTimeShift
      decays := t.decays+1}) := by
  unfold Thresholds.countRound Thresholds.decaysNow
  dsimp only
  by_cases enough : t.cleanRounds+1 ≥ decayAfterRounds
  · rw [if_pos enough]
    by_cases initial : t.packetThreshold = initialPacketThreshold ∧ t.timeShift = initialTimeShift
    · exact .inr (.inl ⟨enough,by simp [initial],if_pos initial⟩)
    · exact .inr (.inr ⟨enough,by rw [decide_eq_true_eq]; exact ⟨enough,initial⟩,if_neg initial⟩)
  · rw [if_neg enough]
    exact .inl ⟨Nat.lt_of_not_le enough,decide_eq_false fun both => enough both.1,rfl⟩

theorem count_moved (earned : Earned l) (sentTimeUs reference : Nat) :
    Earned (l.count sentTimeUs reference) ∧ Moved l (l.count sentTimeUs reference) := by
  have bounded := earned.bounded
  have clean := earned.mark (show Mark.clean sentTimeUs ≠ .decayed by simp)
  have rounds := earned.rounds
  unfold Logged.count Thresholds.count
  cases l.thresholds.counts sentTimeUs reference with
  | false => exact ⟨⟨bounded,rounds,earned.few,earned.decays⟩,[],rfl,.inl ⟨Nat.le_refl _,fun _ => Nat.le_refl _⟩⟩
  | true =>
    simp only [if_true]
    rcases countRound_cases l.thresholds sentTimeUs with ⟨few,no,next⟩ | ⟨enough,no,next⟩ | ⟨enough,yes,next⟩
    · rw [next,no]
      exact ⟨⟨⟨bounded.low,bounded.high,bounded.shift⟩,Nat.succ_le_succ rounds,few,clean⟩,[.clean sentTimeUs],rfl,
        .inl ⟨Nat.le_refl _,timeThresholdUs_antitone (Nat.le_refl _)⟩⟩
    · rw [next,no]
      exact ⟨⟨⟨bounded.low,bounded.high,bounded.shift⟩,Nat.zero_le _,show 0 < decayAfterRounds by decide,clean⟩,
        [.clean sentTimeUs],rfl,
        .inl ⟨Nat.le_refl _,timeThresholdUs_antitone (Nat.le_refl _)⟩⟩
    · rw [next,yes]
      refine ⟨⟨⟨Nat.le_refl _,show initialPacketThreshold ≤ maxPacketThreshold by decide,Nat.le_refl _⟩,Nat.zero_le _,
        show 0 < decayAfterRounds by decide,?_⟩,[.decayed,.clean sentTimeUs],rfl,.inr List.mem_cons_self⟩
      intro later earlier split
      cases later with
      | nil =>
        have rest : .clean sentTimeUs::l.log = earlier := (List.cons.inj split).2
        rw [← rest,streak_clean]
        omega
      | cons first rest => exact clean rest earlier (List.cons.inj split).2

theorem Moved.refl (l : Logged) : Moved l l := ⟨[],rfl,.inl ⟨Nat.le_refl _,fun _ => Nat.le_refl _⟩⟩

theorem Moved.trans {a b c : Logged} (first : Moved a b) (second : Moved b c) : Moved a c := by
  obtain ⟨marks,log,wider⟩ := first
  obtain ⟨marks',log',wider'⟩ := second
  refine ⟨marks' ++ marks,by rw [log',log,List.append_assoc],?_⟩
  rcases wider with wider | decayed
  · rcases wider' with wider' | decayed
    · exact .inl ⟨Nat.le_trans wider.1 wider'.1,fun rtt => Nat.le_trans (wider.2 rtt) (wider'.2 rtt)⟩
    · exact .inr (List.mem_append_left _ decayed)
  · exact .inr (List.mem_append_right _ decayed)

theorem foldl_moved (found : List Note) (previous : Option Nat) (nowUs : Nat) (rtt : RttEstimator) (earned : Earned l) :
    let l' := found.foldl (fun l n => l.widen n.lost previous nowUs rtt) l
    Earned l' ∧ Moved l l' ∧ Wider l.thresholds l'.thresholds ∧
      ∀ n ∈ found, nowUs-n.lost.sentTimeUs ≤ widestThresholdUs rtt →
      nowUs-n.lost.sentTimeUs ≤ l'.thresholds.timeThresholdUs rtt := by
  induction found generalizing l with
  | nil => exact ⟨earned,.refl l,⟨Nat.le_refl _,fun _ => Nat.le_refl _⟩,by simp⟩
  | cons n rest ih =>
    obtain ⟨earned',moved⟩ := widen_moved earned n.lost previous nowUs rtt
    have wider := (widen_bounded earned.bounded n.lost previous nowUs rtt).2
    obtain ⟨last,moves,widened,covers⟩ := ih earned'
    refine ⟨last,moved.trans moves,⟨Nat.le_trans wider.1 widened.1,fun rtt => Nat.le_trans (wider.2 rtt) (widened.2 rtt)⟩,?_⟩
    intro other member reachable
    rcases List.mem_cons.mp member with here | later
    · rw [here] at reachable ⊢
      exact Nat.le_trans (widen_covers l.thresholds n.lost previous nowUs rtt reachable) (widened.2 rtt)
    · exact covers other later reachable

theorem settleNotes_moved (nowUs reach reference : Nat) (notes : List Note) (earned : Earned l) :
    Earned (Memory.settleNotes nowUs reach reference notes l).2 ∧ Moved l
    (Memory.settleNotes nowUs reach reference notes l).2 := by
  induction notes generalizing l with
  | nil => exact ⟨earned,.refl l⟩
  | cons n rest ih =>
    rw [Memory.settleNotes]
    split
    · exact ih earned
    split
    · exact ⟨earned,.refl l⟩
    · obtain ⟨earned',moved⟩ := count_moved earned n.lost.sentTimeUs reference
      obtain ⟨last,moves⟩ := ih earned'
      exact ⟨last,moved.trans moves⟩

theorem step_moved (m : Memory) (e : Event) (earned : Earned m.toLogged) : Earned
    (m.step e).toLogged ∧ Moved m.toLogged (m.step e).toLogged := by
  cases e with
  | note block pn sentTimeUs =>
    have same : (m.note block.isSome pn sentTimeUs).toLogged = m.toLogged := by
      unfold Memory.note
      split <;> rfl
    change Earned (m.note block.isSome pn sentTimeUs).toLogged ∧
      Moved m.toLogged (m.note block.isSome pn sentTimeUs).toLogged
    rw [same]
    exact ⟨earned,.refl _⟩
  | stamp n episode => exact ⟨earned,.refl _⟩
  | ack smallest largest previous nowUs rtt =>
    obtain ⟨earned',moved,-,-⟩ := foldl_moved (m.found smallest largest) previous nowUs rtt earned
    exact ⟨earned',moved⟩
  | settle nowUs rtt => exact settleNotes_moved nowUs (widestThresholdUs rtt) (referenceRtt rtt) m.notes earned
  | release => exact ⟨earned,.refl _⟩

theorem fresh_earned : Earned {} :=
  ⟨⟨Nat.le_refl _,show initialPacketThreshold ≤ maxPacketThreshold by decide,Nat.le_refl _⟩,Nat.zero_le _,
    show 0 < decayAfterRounds by decide,by simp⟩

end

theorem step_reported (m : Memory) (e : Event) : (m.step e).reported =
    ((m.reports e).map (·.serial)).reverse ++ m.reported := by
  cases e with
  | note block pn sentTimeUs =>
    change (m.note block.isSome pn sentTimeUs).reported = m.reported
    unfold Memory.note
    split <;> rfl
  | stamp => rfl
  | ack => rfl
  | settle => rfl
  | release => rfl

theorem run_reported (m : Memory) (events : List Event) : (run Memory.step m events).reported =
    (answers (fun m e => (m.reports e).map (·.serial)) Memory.step m events).flatten.reverse ++ m.reported := by
  induction events generalizing m with
  | nil => rfl
  | cons e rest ih =>
    unfold answers
    rw [List.flatten_cons,List.reverse_append,List.append_assoc,← step_reported]
    exact ih (m.step e)

/-- The state of the ring against that of the notes after a run. -/
structure Faithful (w : ReorderWindow) (m : Memory) : Prop where
  represents : Represents w m
  queue : Queue m
  earned : Earned m.toLogged
  initial : Wider {} w.toThresholds

/-- What the next event does to the thresholds of the ring: a threshold that shrinks does so in a decay, and a
spurious loss that some width covers is covered from then on. -/
structure Grows (w : ReorderWindow) (m : Memory) (e : Event) : Prop where
  moved : ∃ marks, (m.step e).log = marks ++ m.log ∧ (Wider w.toThresholds (w.step e).toThresholds ∨ .decayed ∈ marks)
  covers : ∀ smallest largest previous nowUs rtt, e = .ack smallest largest previous nowUs rtt → ∀ lost ∈ w.reports e,
    nowUs-lost.sentTimeUs ≤ widestThresholdUs rtt → nowUs-lost.sentTimeUs ≤ (w.step e).timeThresholdUs rtt

theorem Faithful.grows {w : ReorderWindow} {m : Memory} (faithful : Faithful w m) {e : Event}
    (numbered : e.Numbered) : Grows w m e := by
  have next := step_simulates.kept w m e faithful.represents numbered
  obtain ⟨marks,log,wider⟩ := (step_moved m e faithful.earned).2
  refine ⟨⟨marks,log,?_⟩,?_⟩
  · rw [faithful.represents.thresholds,next.thresholds]
    exact wider
  · intro smallest largest previous nowUs rtt same lost told reachable
    rw [same] at told next ⊢
    rw [step_simulates.alike w m _ faithful.represents (by trivial)] at told
    obtain ⟨n,there,named⟩ := List.mem_map.mp told
    rw [next.thresholds,← named]
    exact (foldl_moved (m.found smallest largest) previous nowUs rtt faithful.earned).2.2.2 n there (named ▸ reachable)

/-- Over every run the ring reports, event by event, the losses that the queue of the latest notes reports, each note at
most once. The thresholds stay at or above their initial values, and shrink only in a decay, which sixteen rounds
without a spurious loss have earned. -/
theorem ring_refines_queue (events : List Event) (numbered : ∀ e ∈ events, e.Numbered) :
    answers ReorderWindow.reports ReorderWindow.step {} events =
        answers (fun m e => (m.reports e).map (·.lost)) Memory.step {} events ∧
      (answers (fun m e => (m.reports e).map (·.serial)) Memory.step {} events).flatten.Nodup ∧
      Faithful (run ReorderWindow.step {} events) (run Memory.step {} events) ∧
      ∀ e : Event, e.Numbered → Grows (run ReorderWindow.step {} events) (run Memory.step {} events) e := by
  obtain ⟨same,represents⟩ := step_simulates.run fresh_represents (Admits.of_forall numbered ({} : ReorderWindow))
  have queue : Queue (run Memory.step {} events) ∧ Earned (run Memory.step {} events).toLogged := by
    have fresh : Queue {} := ⟨Nat.le_refl _,rfl,List.nodup_nil,by simp,by simp⟩
    have start : Reaches (fun m : Memory => m = {}) Memory.step (fun _ _ => True) {} := .start rfl
    have reached := start.run events (.of_forall (fun _ _ => trivial) _)
    exact reached.invariant (fun m => Queue m ∧ Earned m.toLogged) (fun m start => by rw [start]; exact ⟨fresh,fresh_earned⟩)
      fun m e both _ => ⟨step_queue m e both.1,(step_moved m e both.2).1⟩
  have faithful : Faithful (run ReorderWindow.step {} events) (run Memory.step {} events) :=
    ⟨represents,queue.1,queue.2,represents.thresholds ▸ queue.2.bounded.wider⟩
  have once := queue.1.once
  rw [run_reported,List.append_nil,List.nodup_reverse] at once
  exact ⟨same,once,faithful,fun _ numbered => faithful.grows numbered⟩

/-- Packet 7 is noted in a ring of uninitialised cells, and an ACK covers it twice. -/
def arrivedOnce : List Event :=
  [.note (some ⟨List.replicate ringSlots default,List.length_replicate ..⟩) 7 1000,.stamp 1 3,
    .ack 5 9 (some 4) 1400 {latestRttUs := 300,smoothedRttUs := 300,rttVarUs := 50},
    .ack 5 9 (some 9) 1500 {latestRttUs := 300,smoothedRttUs := 300,rttVarUs := 50}]

theorem arrived_once_reported : answers ReorderWindow.reports ReorderWindow.step {} arrivedOnce =
    [[],[],[⟨7,1000,3,false⟩],[]] :=
  (ring_refines_queue arrivedOnce (by
    intro e member
    simp only [arrivedOnce,List.mem_cons,List.not_mem_nil,or_false] at member
    rcases member with rfl | rfl | rfl | rfl
    · exact (by decide : 7 < tombstonePn)
    all_goals exact trivial)).1.trans (by decide +kernel)

end QuicZig.Conn.Reorder
