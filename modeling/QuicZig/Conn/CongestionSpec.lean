import QuicZig.Conn.Congestion
import Mathlib.Data.List.Nodup

/-! What the controllers do to their windows and their loss episodes, and what the ring
remembers. -/
namespace QuicZig.Conn.Congestion
open Machine SentPackets

/-- A controller goes on: its episodes become `episodes`, and its window stays at the minimum or above. -/
structure Turn (cc after : Controller) (episodes : LossEpisodes) : Prop where
  cfg : after.cfg = cc.cfg
  episodes : after.episodes = episodes
  floor : cc.cfg.minWindow ≤ maxU64 → cc.cfg.minWindow ≤ cc.cwnd → cc.cfg.minWindow ≤ after.cwnd

theorem floor_saturating {floor cwnd : Nat} (small : floor ≤ maxU64) (above : floor ≤ cwnd) (n : Nat) :
    floor ≤ saturatingAdd cwnd n := by
  unfold saturatingAdd
  omega

theorem NewReno.onPacketAcked_turn (c : NewReno) (bytesAcked largestAckedSentTimeUs bytesInFlight : Nat) :
    Turn (.newReno c) (.newReno (c.onPacketAcked bytesAcked largestAckedSentTimeUs bytesInFlight)) c.episodes := by
  unfold NewReno.onPacketAcked
  split
  · exact ⟨rfl,rfl,fun _ => id⟩
  dsimp only
  split
  · exact ⟨rfl,rfl,fun _ => id⟩
  split
  · exact ⟨rfl,rfl,fun small above => floor_saturating small above _⟩
  split
  · exact ⟨rfl,rfl,fun small above => floor_saturating small above _⟩
  · exact ⟨rfl,rfl,fun _ => id⟩

theorem Cubic.onPacketAcked_turn (curve : Curve) (c : Cubic) (bytesAcked largestAckedSentTimeUs nowUs srttUs bytesInFlight : Nat) :
    Turn (.cubic c) (.cubic (c.onPacketAcked curve bytesAcked largestAckedSentTimeUs nowUs srttUs bytesInFlight)) c.episodes := by
  have grown : ∀ a : Cubic, a.cfg = c.cfg → a.episodes = c.episodes → a.cwnd = c.cwnd →
      Turn (.cubic c) (.cubic (a.grow curve bytesAcked nowUs srttUs)) c.episodes := by
    intro a cfg episodes cwnd
    refine ⟨cfg,episodes,fun small above => ?_⟩
    change c.cfg.minWindow ≤ (a.grow curve bytesAcked nowUs srttUs).cwnd
    have above' : c.cfg.minWindow ≤ a.cwnd := cwnd ▸ above
    unfold Cubic.grow
    dsimp only
    generalize saturatingAdd a.wEst _ = wEst
    generalize min _ (saturatingAdd a.cwnd (a.cwnd/2)) = target
    have inner : c.cfg.minWindow ≤
        if target > a.cwnd then saturatingAdd a.cwnd (min ((target-a.cwnd)*bytesAcked/max a.cwnd 1) maxU64) else a.cwnd := by
      split
      · exact floor_saturating small above' _
      · exact above'
    generalize (if target > a.cwnd then saturatingAdd a.cwnd (min ((target-a.cwnd)*bytesAcked/max a.cwnd 1) maxU64)
      else a.cwnd) = cwnd at inner ⊢
    split
    · exact Nat.le_trans inner (by omega)
    · exact inner
  unfold Cubic.onPacketAcked
  split
  · exact ⟨rfl,rfl,fun _ => id⟩
  dsimp only
  split
  · exact ⟨rfl,rfl,fun _ => id⟩
  split
  · exact ⟨rfl,rfl,fun small above => floor_saturating small above _⟩
  · refine grown _ ?_ ?_ ?_ <;>
      · unfold Cubic.anchor
        split <;> rfl

theorem Controller.onPacketAcked_turn (curve : Curve) (cc : Controller)
    (bytesAcked largestAckedSentTimeUs nowUs srttUs bytesInFlight : Nat) :
    Turn cc (cc.onPacketAcked curve bytesAcked largestAckedSentTimeUs nowUs srttUs bytesInFlight) cc.episodes := by
  cases cc with
  | newReno c => exact c.onPacketAcked_turn _ _ _
  | cubic c => exact c.onPacketAcked_turn curve _ _ _ _ _

theorem Controller.onAckProcessed_turn (cc : Controller) (largestAckedPn : Nat) (latestRttUs : Option Nat) (nextPnToSend : Nat) :
    Turn cc (cc.onAckProcessed largestAckedPn latestRttUs nextPnToSend) cc.episodes := by
  cases cc with
  | newReno c =>
    change Turn _ (.newReno (c.onAckProcessed _ _ _)) _
    unfold NewReno.onAckProcessed
    split
    · exact ⟨rfl,rfl,fun _ => id⟩
    · split <;> exact ⟨rfl,rfl,fun _ => id⟩
  | cubic c =>
    change Turn _ (.cubic (c.onAckProcessed _ _ _)) _
    unfold Cubic.onAckProcessed
    split
    · exact ⟨rfl,rfl,fun _ => id⟩
    · split <;> exact ⟨rfl,rfl,fun _ => id⟩

theorem Controller.onPacketLost_turn (cc : Controller) (lostLargestSentTimeUs nowUs : Nat) :
    Turn cc (cc.onPacketLost lostLargestSentTimeUs nowUs)
      (if cc.isInRecovery lostLargestSentTimeUs then cc.episodes else cc.episodes.open) := by
  cases cc with
  | newReno c =>
    change Turn _ (.newReno (c.onPacketLost _ _)) (if c.isInRecovery _ then _ else _)
    unfold NewReno.onPacketLost
    split
    · exact ⟨rfl,rfl,fun _ => id⟩
    · exact ⟨rfl,rfl,fun _ _ => le_max_right _ _⟩
  | cubic c =>
    change Turn _ (.cubic (c.onPacketLost _ _)) (if c.isInRecovery _ then _ else _)
    unfold Cubic.onPacketLost
    split
    · exact ⟨rfl,rfl,fun _ => id⟩
    · exact ⟨rfl,rfl,fun _ _ => le_max_right _ _⟩

theorem Controller.onCongestionEvent_eq (cc : Controller) (cePacketSentTimeUs nowUs : Nat) :
    cc.onCongestionEvent cePacketSentTimeUs nowUs = cc.onPacketLost cePacketSentTimeUs nowUs := by
  cases cc <;> rfl

theorem Controller.onPersistentCongestion_turn (cc : Controller) : Turn cc cc.onPersistentCongestion cc.episodes := by
  cases cc <;> exact ⟨rfl,rfl,fun _ _ => le_rfl⟩

theorem Controller.noteDeclaredLost_turn (cc : Controller) (count : Nat) :
    Turn cc (cc.noteDeclaredLost count) (cc.episodes.noteDeclaredLost count) := by
  cases cc <;> exact ⟨rfl,rfl,fun _ => id⟩

theorem Controller.onSpuriousLoss_turn (cc : Controller) (episode : Nat) :
    Turn cc (cc.onSpuriousLoss episode) (cc.episodes.arrived episode).2 := by
  cases cc with
  | newReno c =>
    change Turn _ (.newReno (c.onSpuriousLoss _)) (c.episodes.arrived _).2
    unfold NewReno.onSpuriousLoss
    generalize c.episodes.arrived episode = outcome
    obtain ⟨arrived,episodes⟩ := outcome
    cases arrived with
    | none => exact ⟨rfl,rfl,fun _ => id⟩
    | current => exact ⟨rfl,rfl,fun _ above => Nat.le_trans above (Nat.le_max_left _ _)⟩
    | previous =>
      dsimp only
      split <;> exact ⟨rfl,rfl,fun _ above => Nat.le_trans above (Nat.le_max_left _ _)⟩
  | cubic c =>
    change Turn _ (.cubic (c.onSpuriousLoss _)) (c.episodes.arrived _).2
    unfold Cubic.onSpuriousLoss
    generalize c.episodes.arrived episode = outcome
    obtain ⟨arrived,episodes⟩ := outcome
    cases arrived with
    | none => exact ⟨rfl,rfl,fun _ => id⟩
    | current => exact ⟨rfl,rfl,fun _ above => Nat.le_trans above (Nat.le_max_left _ _)⟩
    | previous =>
      dsimp only
      split <;> exact ⟨rfl,rfl,fun _ above => Nat.le_trans above (Nat.le_max_left _ _)⟩

theorem Turn.trans {a b c : Controller} {first second : LossEpisodes} (one : Turn a b first) (two : Turn b c second) :
    Turn a c second :=
  ⟨two.cfg.trans one.cfg,two.episodes,fun small above => one.cfg ▸ two.floor (one.cfg ▸ small) (one.cfg.symm ▸ one.floor small above)⟩

namespace ReorderWindow

def remembered (w : ReorderWindow) : List LostRecord := w.records.filter (·.pn ≠ tombstonePn)

def record? (w : ReorderWindow) (pn : Nat) : Option LostRecord := w.remembered.find? (·.pn = pn)

structure Sound (w : ReorderWindow) : Prop where
  live : w.live = w.remembered.length
  once : (w.remembered.map (·.pn)).Nodup
  fresh : w.allocated = false → w.records = []

section
variable {γ : Type} {callback : γ → LostRecord → γ} {pn : Nat}

theorem takeLoop_skips {smallest largest : Nat} {records : List LostRecord}
    (skipped : ∀ r ∈ records, r.pn = tombstonePn ∨ r.pn < smallest ∨ r.pn > largest) (rest : List LostRecord) (live : Nat) (context : γ) :
    takeLoop smallest largest callback (records ++ rest) live context =
      (records ++ (takeLoop smallest largest callback rest live context).1,
        (takeLoop smallest largest callback rest live context).2) := by
  induction records with
  | nil => rfl
  | cons r records ih =>
    rw [List.cons_append,takeLoop,if_pos (skipped r List.mem_cons_self),ih fun r there => skipped r (List.mem_cons_of_mem _ there)]
    rfl

theorem takeLoop_none {smallest largest : Nat} {records : List LostRecord}
    (skipped : ∀ r ∈ records, r.pn = tombstonePn ∨ r.pn < smallest ∨ r.pn > largest) (live : Nat) (context : γ) :
    takeLoop smallest largest callback records live context = (records,live,context) := by
  have all := @takeLoop_skips γ callback smallest largest records skipped [] live context
  rw [List.append_nil] at all
  rw [all]
  simp [takeLoop]

theorem apart_skipped {r : LostRecord} (apart : r.pn ≠ tombstonePn → r.pn ≠ pn) :
    r.pn = tombstonePn ∨ r.pn < pn ∨ r.pn > pn := by
  by_cases stone : r.pn = tombstonePn
  · exact .inl stone
  · exact .inr (Nat.lt_or_gt_of_ne (apart stone))

theorem record?_none {w : ReorderWindow} : w.record? pn = none ↔ ∀ r ∈ w.records, r.pn ≠ tombstonePn → r.pn ≠ pn := by
  unfold record? remembered
  rw [List.find?_eq_none]
  constructor
  · intro absent r there real
    simpa using absent r (List.mem_filter.mpr ⟨there,by simpa using real⟩)
  · intro apart r there
    obtain ⟨member,real⟩ := List.mem_filter.mp there
    simpa using apart r member (by simpa using real)

theorem takeCovered_none {w : ReorderWindow} (absent : w.record? pn = none) (context : γ) :
    w.takeCovered pn pn context callback = (w,context) := by
  unfold takeCovered
  split
  · rfl
  · rename_i some
    rw [takeLoop_none fun r there => apart_skipped (record?_none.mp absent r there)]
    dsimp only
    rw [if_neg some]

def forget (w : ReorderWindow) (before later : List LostRecord) (rec : LostRecord) : ReorderWindow :=
  {w with
    records := if w.live-1 = 0 then [] else before ++ {rec with pn := tombstonePn}::later
    live := w.live-1}

theorem takeCovered_at {w : ReorderWindow} {before later : List LostRecord} {rec : LostRecord} (split : w.records = before ++ rec::later)
    (named : rec.pn = pn) (real : rec.pn ≠ tombstonePn) (some : w.live ≠ 0)
    (front : ∀ r ∈ before, r.pn ≠ tombstonePn → r.pn ≠ pn) (back : ∀ r ∈ later, r.pn ≠ tombstonePn → r.pn ≠ pn) (context : γ) :
    w.takeCovered pn pn context callback = (w.forget before later rec,callback context rec) := by
  have walked : takeLoop pn pn callback w.records w.live context =
      (before ++ {rec with pn := tombstonePn}::later,w.live-1,callback context rec) := by
    rw [split,takeLoop_skips fun r there => apart_skipped (front r there)]
    rw [takeLoop,if_neg (by omega),takeLoop_none fun r there => apart_skipped (back r there)]
  unfold takeCovered
  rw [if_neg some,walked]
  rfl

/-- A number that is remembered is told to the callback once, and forgotten. -/
theorem takeCovered_some {w : ReorderWindow} (sound : w.Sound) {rec : LostRecord} (found : w.record? pn = some rec) (context : γ) :
    ∃ after, w.takeCovered pn pn context callback = (after,callback context rec) ∧ after.Sound ∧
      after.remembered = w.remembered.filter (·.pn ≠ pn) := by
  have there := List.mem_of_find?_eq_some found
  have named : rec.pn = pn := by simpa using List.find?_some found
  obtain ⟨member,real⟩ := List.mem_filter.mp there
  have real : rec.pn ≠ tombstonePn := by simpa using real
  obtain ⟨before,later,split⟩ := List.append_of_mem member
  have once := sound.once
  have live := sound.live
  have kept : w.remembered = before.filter (·.pn ≠ tombstonePn) ++ rec::later.filter (·.pn ≠ tombstonePn) := by
    unfold remembered
    rw [split,List.filter_append,List.filter_cons_of_pos (by simpa using real)]
  rw [kept,List.map_append,List.map_cons] at once
  have apart := List.nodup_append.mp once
  have front : ∀ r ∈ before, r.pn ≠ tombstonePn → r.pn ≠ pn := fun r there real' same =>
    apart.2.2 r.pn (List.mem_map_of_mem (List.mem_filter.mpr ⟨there,by simpa using real'⟩)) rec.pn List.mem_cons_self
      (same.trans named.symm)
  have back : ∀ r ∈ later, r.pn ≠ tombstonePn → r.pn ≠ pn := fun r there real' same =>
    (List.nodup_cons.mp apart.2.1).1 (named ▸ same ▸ List.mem_map_of_mem (List.mem_filter.mpr ⟨there,by simpa using real'⟩))
  have some : w.live ≠ 0 := by
    rw [live,kept]
    simp
  have rest : w.remembered.filter (·.pn ≠ pn) = before.filter (·.pn ≠ tombstonePn) ++ later.filter (·.pn ≠ tombstonePn) := by
    have same : ∀ part : List LostRecord, (∀ r ∈ part, r.pn ≠ tombstonePn → r.pn ≠ pn) →
        (part.filter (·.pn ≠ tombstonePn)).filter (·.pn ≠ pn) = part.filter (·.pn ≠ tombstonePn) := by
      intro part differ
      refine List.filter_eq_self.mpr fun r there => ?_
      obtain ⟨member,real⟩ := List.mem_filter.mp there
      simpa using differ r member (by simpa using real)
    rw [kept,List.filter_append,List.filter_cons_of_neg (by simp [named]),same before front,same later back]
  have stones : (before ++ {rec with pn := tombstonePn}::later).filter (·.pn ≠ tombstonePn) =
      before.filter (·.pn ≠ tombstonePn) ++ later.filter (·.pn ≠ tombstonePn) := by
    rw [List.filter_append,List.filter_cons_of_neg (by simp)]
  have fewer : w.live-1 = (w.remembered.filter (·.pn ≠ pn)).length := by
    rw [live,rest,kept]
    simp
  rw [takeCovered_at split named real some front back context]
  have remembered' : (w.forget before later rec).remembered = w.remembered.filter (·.pn ≠ pn) := by
    change (if w.live-1 = 0 then [] else before ++ {rec with pn := tombstonePn}::later).filter (·.pn ≠ tombstonePn) = _
    split
    · rename_i last
      rw [fewer] at last
      rw [List.eq_nil_of_length_eq_zero last]
      rfl
    · rw [stones,rest]
  refine ⟨w.forget before later rec,rfl,⟨?_,?_,fun none => ?_⟩,remembered'⟩
  · rw [remembered']
    exact fewer
  · rw [remembered']
    exact sound.once.sublist (List.filter_sublist.map _)
  · rw [sound.fresh none] at member
    cases member

end

/-- The ring holds what it held, less its oldest records, and then the packets of the sweep. -/
theorem rememberAll_spec {Frame : Type} (grants : Allocator) (packets : List (SentPacket Frame)) (request : Nat)
    {w : ReorderWindow} {old new : List LostRecord} (split : w.records = old ++ new) (fresh : w.allocated = false → w.records = []) :
    ∃ old' new', (Recovery.rememberAll grants request packets w).records = old' ++ new' ∧ old'.Sublist old ∧
      (new'.map (·.pn)).Sublist (new.map (·.pn) ++ packets.map (·.pn)) ∧ (old' = [] ∨ new'.length = new.length+packets.length) ∧
      ((Recovery.rememberAll grants request packets w).allocated = false →
        (Recovery.rememberAll grants request packets w).records = []) := by
  induction packets generalizing w old new request with
  | nil => exact ⟨old,new,split,.refl _,by simp,.inr rfl,fresh⟩
  | cons p rest ih =>
    unfold Recovery.rememberAll
    by_cases refused : (!w.allocated && !grants request) = true
    · have still : w.remember (grants request) p.pn p.sentTimeUs = w := if_pos refused
      have unallocated : w.allocated = false := by
        rw [Bool.and_eq_true,Bool.not_eq_true'] at refused
        exact refused.1
      rw [still]
      obtain ⟨old',new',records,kept,named,_,fresh'⟩ := ih (request+1) split fresh
      have empty := fresh unallocated
      rw [split,List.append_eq_nil_iff] at empty
      refine ⟨old',new',records,kept,named.trans ?_,.inl ?_,fresh'⟩
      · exact (List.Sublist.refl _).append (List.sublist_cons_self _ _)
      · rw [empty.1] at kept
        exact List.sublist_nil.mp kept
    · have taken : w.remember (grants request) p.pn p.sentTimeUs = {
          allocated := true
          records := (if w.records.length = ringSlots then w.records.tail else w.records) ++ [{pn := p.pn,sentTimeUs := p.sentTimeUs}]
          live := (if w.records.length = ringSlots ∧ w.records.head?.any (·.pn ≠ tombstonePn) then w.live-1 else w.live)+1} :=
        if_neg refused
      have goes : ∀ o n : List LostRecord, (w.remember (grants request) p.pn p.sentTimeUs).records =
          o ++ (n ++ [{pn := p.pn,sentTimeUs := p.sentTimeUs}]) → o.Sublist old → n.Sublist new → (o = [] ∨ n = new) →
            ∃ old' new', (Recovery.rememberAll grants (request+1) rest (w.remember (grants request) p.pn p.sentTimeUs)).records =
                old' ++ new' ∧ old'.Sublist old ∧
              (new'.map (·.pn)).Sublist (new.map (·.pn) ++ (p::rest).map (·.pn)) ∧
              (old' = [] ∨ new'.length = new.length+(p::rest).length) ∧
              ((Recovery.rememberAll grants (request+1) rest (w.remember (grants request) p.pn p.sentTimeUs)).allocated = false →
                (Recovery.rememberAll grants (request+1) rest (w.remember (grants request) p.pn p.sentTimeUs)).records = []) := by
        intro o n split' kept fewer whole
        obtain ⟨old',new',records,kept',named,sized,fresh'⟩ := ih (request+1) split' fun none => by
          rw [taken] at none
          cases none
        refine ⟨old',new',records,kept'.trans kept,named.trans ?_,?_,fresh'⟩
        · rw [List.map_append,List.append_assoc]
          exact (fewer.map _).append (.refl _)
        · rcases sized with none | sized
          · exact .inl none
          · rcases whole with rfl | rfl
            · exact .inl (List.sublist_nil.mp kept')
            · refine .inr ?_
              rw [sized,List.length_append,List.length_cons,List.length_cons,List.length_nil]
              omega
      by_cases full : w.records.length = ringSlots
      · have records : (w.remember (grants request) p.pn p.sentTimeUs).records =
            (old ++ new).tail ++ [{pn := p.pn,sentTimeUs := p.sentTimeUs}] := by
          rw [taken,← split]
          exact congrArg (· ++ _) (if_pos full)
        cases old with
        | nil =>
          refine goes [] new.tail ?_ (.refl _) (List.tail_sublist new) (.inl rfl)
          rw [records]
          rfl
        | cons first others =>
          refine goes others new ?_ (List.sublist_cons_self _ _) (.refl _) (.inr rfl)
          rw [records,List.cons_append,List.tail_cons,List.append_assoc]
      · refine goes old new ?_ (.refl _) (.refl _) (.inr rfl)
        rw [taken,← List.append_assoc,← split]
        exact congrArg (· ++ _) (if_neg full)

theorem remembered_append (w : ReorderWindow) {old new : List LostRecord} (split : w.records = old ++ new) :
    w.remembered = old.filter (·.pn ≠ tombstonePn) ++ new.filter (·.pn ≠ tombstonePn) := by
  unfold remembered
  rw [split,List.filter_append]

theorem rememberAll_live {Frame : Type} (grants : Allocator) (packets : List (SentPacket Frame)) (request : Nat)
    {w : ReorderWindow} (counted : w.live = w.remembered.length) (real : ∀ p ∈ packets, p.pn ≠ tombstonePn) :
    (Recovery.rememberAll grants request packets w).live = (Recovery.rememberAll grants request packets w).remembered.length := by
  induction packets generalizing w request with
  | nil => exact counted
  | cons p rest ih =>
    unfold Recovery.rememberAll
    refine ih (request+1) ?_ fun q there => real q (List.mem_cons_of_mem _ there)
    unfold remember
    split
    · exact counted
    · have here := real p List.mem_cons_self
      unfold remembered at counted ⊢
      dsimp only
      rw [List.filter_append,List.length_append,List.filter_cons_of_pos (by simpa using here),List.filter_nil,List.length_singleton]
      congr 1
      by_cases full : w.records.length = ringSlots
      · cases records : w.records with
        | nil =>
          rw [records] at full
          cases full
        | cons first others =>
          rw [records] at counted full
          rw [if_pos full,List.tail_cons]
          by_cases stone : first.pn = tombstonePn
          · rw [List.filter_cons_of_neg (by simp [stone])] at counted
            rw [if_neg (by simp [stone])]
            exact counted
          · rw [List.filter_cons_of_pos (by simpa using stone),List.length_cons] at counted
            rw [if_pos ⟨full,by simp [stone]⟩]
            omega
      · rw [if_neg full,if_neg fun both => full both.1]
        exact counted

theorem stampLast_records {w : ReorderWindow} {old new : List LostRecord} {n : Nat} (split : w.records = old ++ new)
    (sized : (old = [] ∧ new.length ≤ n) ∨ new.length = n) (episode : Nat) :
    (w.stampLast n episode).records = old ++ new.map fun rec => {rec with episode := episode} := by
  have older : w.records.length-n = old.length := by
    rw [split,List.length_append]
    rcases sized with ⟨rfl,few⟩ | rfl
    · rw [List.length_nil]
      omega
    · omega
  change w.records.take (w.records.length-n) ++ (w.records.drop (w.records.length-n)).map _ = _
  rw [older,split,List.take_left,List.drop_left]

theorem sweep_remembered {Frame : Type} (grants : Allocator) {packets : List (SentPacket Frame)} {w : ReorderWindow}
    (sound : w.Sound) (real : ∀ p ∈ packets, p.pn ≠ tombstonePn) (once : (packets.map (·.pn)).Nodup)
    (apart : ∀ r ∈ w.remembered, r.pn ∉ packets.map (·.pn)) (episode : Nat) :
    ((Recovery.rememberAll grants 0 packets w).stampLast packets.length episode).Sound ∧
      ∀ r ∈ ((Recovery.rememberAll grants 0 packets w).stampLast packets.length episode).remembered,
        r ∈ w.remembered ∨ (r.episode = episode ∧ r.pn ∈ packets.map (·.pn)) := by
  obtain ⟨old,new,split,kept,named,sized,fresh⟩ := rememberAll_spec grants packets 0
    (show w.records = w.records ++ [] by rw [List.append_nil]) sound.fresh
  have live := rememberAll_live grants packets 0 sound.live real
  generalize Recovery.rememberAll grants 0 packets w = mid at split fresh live ⊢
  rw [List.map_nil,List.nil_append] at named
  rw [List.length_nil,Nat.zero_add] at sized
  have few : new.length ≤ packets.length := by
    have most := named.length_le
    rwa [List.length_map,List.length_map] at most
  have stamped := stampLast_records split (sized.imp (fun none => ⟨none,few⟩) id) episode
  have stampedRemembered := remembered_append _ stamped
  have before := remembered_append _ split
  have pns : (new.map fun rec => {rec with episode := episode}).filter (·.pn ≠ tombstonePn) =
      (new.filter (·.pn ≠ tombstonePn)).map fun rec => {rec with episode := episode} := by
    rw [List.filter_map]
    rfl
  rw [pns] at stampedRemembered
  have oldKept : (old.filter (·.pn ≠ tombstonePn)).Sublist w.remembered := kept.filter _
  have newNamed : ((new.filter (·.pn ≠ tombstonePn)).map (·.pn)).Sublist (packets.map (·.pn)) :=
    (List.filter_sublist.map _).trans named
  refine ⟨⟨?_,?_,fun none => ?_⟩,fun r there => ?_⟩
  · change mid.live = _
    rw [live,before,stampedRemembered,List.length_append,List.length_append,List.length_map]
  · rw [stampedRemembered,List.map_append,List.map_map]
    refine List.nodup_append.mpr ⟨sound.once.sublist (oldKept.map _),once.sublist newNamed,fun a there b there' same => ?_⟩
    obtain ⟨r,member,rfl⟩ := List.mem_map.mp there
    exact apart r (oldKept.subset member) (same ▸ newNamed.subset there')
  · have empty := fresh none
    rw [split,List.append_eq_nil_iff] at empty
    rw [stamped,empty.1,empty.2]
    rfl
  · rw [stampedRemembered] at there
    rcases List.mem_append.mp there with there | there
    · exact .inl (oldKept.subset there)
    · obtain ⟨q,member,rfl⟩ := List.mem_map.mp there
      have listed : q.pn ∈ packets.map (·.pn) := newNamed.subset (List.mem_map_of_mem member)
      exact .inr ⟨rfl,listed⟩

theorem Sound.record?_some {w : ReorderWindow} (sound : w.Sound) {rec : LostRecord} (there : rec ∈ w.remembered) :
    w.record? rec.pn = some rec := by
  cases found : w.record? rec.pn with
  | none =>
    obtain ⟨member,real⟩ := List.mem_filter.mp there
    exact absurd rfl (record?_none.mp found rec member (by simpa using real))
  | some other =>
    have named : other.pn = rec.pn := by simpa using List.find?_some found
    rw [List.inj_on_of_nodup_map sound.once (List.mem_of_find?_eq_some found) there named]

/-- A walk over a range is the walk over its first record, and then the same walk again. -/
theorem takeCovered_first {w : ReorderWindow} {before later : List LostRecord} {rec : LostRecord} {smallest largest : Nat}
    (split : w.records = before ++ rec::later) (real : rec.pn ≠ tombstonePn) (some : w.live ≠ 0)
    (front : ∀ r ∈ before, r.pn = tombstonePn ∨ r.pn < smallest ∨ r.pn > largest) (covered : smallest ≤ rec.pn ∧ rec.pn ≤ largest)
    (last : w.live-1 = 0 → ∀ r ∈ later, r.pn = tombstonePn) (context : γ) :
    w.takeCovered smallest largest context callback =
      (w.forget before later rec).takeCovered smallest largest (callback context rec) callback := by
  have whole : takeLoop smallest largest callback w.records w.live context =
      (before ++ {rec with pn := tombstonePn}::(takeLoop smallest largest callback later (w.live-1) (callback context rec)).1,
        (takeLoop smallest largest callback later (w.live-1) (callback context rec)).2) := by
    rw [split,takeLoop_skips front,takeLoop,if_neg (by omega)]
  unfold takeCovered forget
  rw [if_neg some,whole]
  by_cases none : w.live-1 = 0
  · rw [takeLoop_none fun r there => .inl (last none r there)]
    simp only [none,if_true]
  · have again : takeLoop smallest largest callback (before ++ {rec with pn := tombstonePn}::later) (w.live-1) (callback context rec) =
        (before ++ {rec with pn := tombstonePn}::(takeLoop smallest largest callback later (w.live-1) (callback context rec)).1,
          (takeLoop smallest largest callback later (w.live-1) (callback context rec)).2) := by
      rw [takeLoop_skips front,takeLoop,if_pos (.inl rfl)]
    dsimp only
    rw [if_neg none,if_neg none,again]

/-- The packet numbers of a range that the ring remembers, oldest record first. -/
def covered (w : ReorderWindow) (smallest largest : Nat) : List Nat :=
  (w.remembered.filter fun r => smallest ≤ r.pn && r.pn ≤ largest).map (·.pn)

end ReorderWindow

/-- An ACK range takes effect as the acknowledgements of the numbers it covers do, one after another. -/
theorem Recovery.ackRange_each {r : Recovery} (sound : r.reorder.Sound) (smallest largest : Nat) :
    r.ackRange smallest largest = (r.reorder.covered smallest largest).foldl (fun r pn => r.ackRange pn pn) r := by
  generalize size : (r.reorder.covered smallest largest).length = n
  induction n generalizing r with
  | zero =>
    have none := List.eq_nil_of_length_eq_zero size
    rw [none,List.foldl_nil]
    rw [ReorderWindow.covered,List.map_eq_nil_iff,List.filter_eq_nil_iff] at none
    have skipped : ∀ q ∈ r.reorder.records, q.pn = tombstonePn ∨ q.pn < smallest ∨ q.pn > largest := by
      intro q there
      by_cases stone : q.pn = tombstonePn
      · exact .inl stone
      · have outside := none q (List.mem_filter.mpr ⟨there,by simpa using stone⟩)
        simp only [Bool.and_eq_true,decide_eq_true_eq,not_and] at outside
        omega
    unfold Recovery.ackRange ReorderWindow.takeCovered
    by_cases none : r.reorder.live = 0
    · rw [if_pos none]
    · rw [if_neg none,ReorderWindow.takeLoop_none skipped]
      dsimp only
      rw [if_neg none]
  | succ n ih =>
    cases listed : r.reorder.remembered.filter fun q => smallest ≤ q.pn && q.pn ≤ largest with
    | nil =>
      rw [ReorderWindow.covered,listed] at size
      cases size
    | cons rec others =>
      have records := listed
      rw [ReorderWindow.remembered,List.filter_filter,List.filter_eq_cons_iff] at records
      obtain ⟨before,later,split,front,here,_⟩ := records
      simp only [Bool.and_eq_true,decide_eq_true_eq,ne_eq] at here
      obtain ⟨inside,real⟩ := here
      have member : rec ∈ r.reorder.remembered := (List.mem_filter.mp (listed ▸ List.mem_cons_self : rec ∈ List.filter _ _)).1
      have whole := ReorderWindow.remembered_append r.reorder split
      rw [List.filter_cons_of_pos (by simpa using real)] at whole
      have once := sound.once
      rw [whole,List.map_append,List.map_cons] at once
      have once' : ((rec::others).map (·.pn)).Nodup := listed ▸ sound.once.sublist (List.filter_sublist.map _)
      have apart := List.nodup_append.mp once
      have live := sound.live
      have some : r.reorder.live ≠ 0 := by
        rw [live,whole]
        simp
      have found := sound.record?_some member
      have earlier : ∀ q ∈ before, q.pn ≠ tombstonePn → q.pn ≠ rec.pn := fun q there real' same =>
        apart.2.2 q.pn (List.mem_map_of_mem (List.mem_filter.mpr ⟨there,by simpa using real'⟩)) rec.pn List.mem_cons_self same
      have after : ∀ q ∈ later, q.pn ≠ tombstonePn → q.pn ≠ rec.pn := fun q there real' same =>
        (List.nodup_cons.mp apart.2.1).1 (same ▸ List.mem_map_of_mem (List.mem_filter.mpr ⟨there,by simpa using real'⟩))
      have one := @ReorderWindow.takeCovered_at _ (fun cc rec => Controller.onSpuriousLoss rec.episode cc) _ _ _ _ _ split rfl real some
        earlier after r.cc
      obtain ⟨w,taken,sound',rest⟩ := @ReorderWindow.takeCovered_some _ (fun cc rec => Controller.onSpuriousLoss rec.episode cc) _ _
        sound _ found r.cc
      rw [one] at taken
      have same : r.reorder.forget before later rec = w := congrArg Prod.fst taken
      have step : r.ackRange rec.pn rec.pn = {cc := r.cc.onSpuriousLoss rec.episode,reorder := w} := by
        unfold Recovery.ackRange
        rw [one,same]
      have first : r.ackRange smallest largest = (r.ackRange rec.pn rec.pn).ackRange smallest largest := by
        rw [step]
        unfold Recovery.ackRange
        rw [ReorderWindow.takeCovered_first split real some ?_ inside ?_,same]
        · intro q there
          by_cases stone : q.pn = tombstonePn
          · exact .inl stone
          · have outside := front q there
            simp only [Bool.and_eq_true,decide_eq_true_eq,not_and] at outside
            by_cases low : q.pn < smallest
            · exact .inr (.inl low)
            · exact .inr (.inr (Nat.lt_of_not_le fun high => outside ⟨by omega,high⟩ stone))
        · intro last q there
          by_contra stone
          rw [live,whole,List.length_append,List.length_cons] at last
          have none : later.filter (·.pn ≠ tombstonePn) = [] := List.eq_nil_of_length_eq_zero (by omega)
          exact absurd (List.filter_eq_nil_iff.mp none q there) (by simpa using stone)
      have left : (r.ackRange rec.pn rec.pn).reorder.covered smallest largest = others.map (·.pn) := by
        rw [step]
        change (w.remembered.filter _).map _ = _
        have alone := once'
        rw [List.map_cons] at alone
        rw [rest,List.filter_comm,listed,List.filter_cons_of_neg (by simp)]
        refine congrArg _ (List.filter_eq_self.mpr fun q there => ?_)
        have other : q.pn ≠ rec.pn := fun same => (List.nodup_cons.mp alone).1 (same ▸ List.mem_map_of_mem there)
        simpa using other
      rw [first,ih (by rw [step]; exact sound') ?_,left,ReorderWindow.covered,listed,List.map_cons,List.foldl_cons]
      rw [left]
      rw [ReorderWindow.covered,listed] at size
      simpa using size

end QuicZig.Conn.Congestion
