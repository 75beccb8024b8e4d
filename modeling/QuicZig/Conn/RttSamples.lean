import QuicZig.Conn.PersistentCongestion

/-! The round-trip estimates after a sequence of samples, whatever delays the peer reports for them. -/
namespace QuicZig.Conn.RttSamples
open Machine
open PersistentCongestion (RttEstimator)

structure Sample where
  latestRttUs : Nat
  ackDelayUs : Nat
  handshakeConfirmed : Bool
  maxAckDelayUs : Nat

def step (rtt : RttEstimator) (s : Sample) : RttEstimator :=
  rtt.update s.latestRttUs s.ackDelayUs s.handshakeConfirmed s.maxAckDelayUs

/-- The largest smoothed value that the saturating sum can give. -/
def smoothedCap : Nat := maxU64/8

structure Within (rtt : RttEstimator) (low high : Nat) : Prop where
  taken : rtt.firstSampleTaken = true
  least : rtt.minRttUs = low
  most : low ≤ high
  above : min low smoothedCap ≤ rtt.smoothedRttUs
  below : rtt.smoothedRttUs ≤ high
  varies : rtt.rttVarUs ≤ high

theorem within_first (rtt : RttEstimator) (s : Sample) (first : rtt.firstSampleTaken = false) :
    Within (step rtt s) s.latestRttUs s.latestRttUs := by
  simp only [step,RttEstimator.update,first,Bool.not_false,if_true]
  constructor <;> simp
  omega

theorem smoothed_between {old new low high : Nat} (oldAbove : min low smoothedCap ≤ old) (oldBelow : old ≤ high)
    (newAbove : low ≤ new) (newBelow : new ≤ high) :
    min low smoothedCap ≤ saturatingAdd (Clock.saturatingMul old 7) new/8 ∧
      saturatingAdd (Clock.saturatingMul old 7) new/8 ≤ high := by
  unfold saturatingAdd Clock.saturatingMul smoothedCap at *
  generalize maxU64 = top at *
  omega

theorem varied_below {old distance high : Nat} (oldBelow : old ≤ high) (near : distance ≤ high) :
    saturatingAdd (Clock.saturatingMul old 3) distance/4 ≤ high := by
  unfold saturatingAdd Clock.saturatingMul
  generalize maxU64 = top
  omega

theorem adjusted_between {latest low delay : Nat} (least : low ≤ latest) (early : latest < maxU64) :
    low ≤ (if latest ≥ saturatingAdd low delay then latest-delay else latest) ∧
      (if latest ≥ saturatingAdd low delay then latest-delay else latest) ≤ latest := by
  unfold saturatingAdd
  generalize maxU64 = top at *
  split <;> omega

theorem within_step {rtt : RttEstimator} {low high : Nat} (within : Within rtt low high) (s : Sample)
    (early : s.latestRttUs < maxU64) : Within (step rtt s) (min s.latestRttUs low) (max high s.latestRttUs) := by
  obtain ⟨taken,least,most,above,below,varies⟩ := within
  simp only [step,RttEstimator.update,taken,Bool.not_true,Bool.false_eq_true,if_false,least]
  generalize (if s.handshakeConfirmed = true ∧ s.ackDelayUs > s.maxAckDelayUs then s.maxAckDelayUs else s.ackDelayUs) = delay
  obtain ⟨adjustedAbove,adjustedBelow⟩ := @adjusted_between _ _ delay (Nat.min_le_left s.latestRttUs low) early
  generalize (if s.latestRttUs ≥ saturatingAdd (min s.latestRttUs low) delay then s.latestRttUs-delay else s.latestRttUs) =
    adjusted at *
  have old : min (min s.latestRttUs low) smoothedCap ≤ rtt.smoothedRttUs := by omega
  obtain ⟨smoothedAbove,smoothedBelow⟩ := @smoothed_between _ _ _ (max high s.latestRttUs) old (by omega)
    adjustedAbove (by omega)
  generalize saturatingAdd (Clock.saturatingMul rtt.smoothedRttUs 7) adjusted/8 = smoothed at *
  exact {
    taken := rfl
    least := rfl
    most := by omega
    above := smoothedAbove
    below := smoothedBelow
    varies := varied_below (by omega) (by split <;> omega)}

theorem within_run {rtt : RttEstimator} {low high : Nat} (within : Within rtt low high) (samples : List Sample)
    (early : ∀ s ∈ samples, s.latestRttUs < maxU64) :
    Within (samples.foldl step rtt) ((samples.map (·.latestRttUs)).foldl (fun low latest => min latest low) low)
      ((samples.map (·.latestRttUs)).foldl max high) := by
  induction samples generalizing rtt low high with
  | nil => exact within
  | cons s rest ih =>
    exact ih (within_step within s (early s List.mem_cons_self)) fun other member => early other
      (List.mem_cons_of_mem _ member)

theorem foldl_min (values : List Nat) (start : Nat) :
    (∀ v ∈ start::values, values.foldl (fun low latest => min latest low) start ≤ v) ∧
      values.foldl (fun low latest => min latest low) start ∈ start::values := by
  induction values generalizing start with
  | nil => simp
  | cons v rest ih =>
    obtain ⟨least,member⟩ := ih (min v start)
    simp only [List.foldl_cons,List.mem_cons,forall_eq_or_imp] at least member ⊢
    refine ⟨⟨by omega,by omega,least.2⟩,?_⟩
    rcases member with here | later
    · omega
    · exact .inr (.inr later)

theorem foldl_max (values : List Nat) (start : Nat) :
    (∀ v ∈ start::values, v ≤ values.foldl max start) ∧ values.foldl max start ∈ start::values := by
  induction values generalizing start with
  | nil => simp
  | cons v rest ih =>
    obtain ⟨most,member⟩ := ih (max start v)
    simp only [List.foldl_cons,List.mem_cons,forall_eq_or_imp] at most member ⊢
    refine ⟨⟨by omega,by omega,most.2⟩,?_⟩
    rcases member with here | later
    · omega
    · exact .inr (.inr later)

/-- After any samples, whatever acknowledgement delays came with them: the minimum is the least sample, the smoothed value lies
between the least and the greatest one, the variance is no greater than the greatest one, and so the probe timeout is bounded
by it. -/
theorem estimates_within_samples (first : Sample) (rest : List Sample) (early : ∀ s ∈ first::rest, s.latestRttUs < maxU64)
    (maxAckDelayUs : Nat) : ∃ low ∈ (first::rest).map (·.latestRttUs), ∃ high ∈ (first::rest).map (·.latestRttUs),
      let rtt := (first::rest).foldl step {}
      (∀ s ∈ first::rest, low ≤ s.latestRttUs ∧ s.latestRttUs ≤ high) ∧ rtt.minRttUs = low ∧
        min low smoothedCap ≤ rtt.smoothedRttUs ∧ rtt.smoothedRttUs ≤ high ∧ rtt.rttVarUs ≤ high ∧
        rtt.pto maxAckDelayUs ≤ high+max (4*high) Clock.granularityUs+maxAckDelayUs := by
  have start := within_first {} first rfl
  have within := within_run start rest fun s member => early s (List.mem_cons_of_mem _ member)
  obtain ⟨least,low⟩ := foldl_min (rest.map (·.latestRttUs)) first.latestRttUs
  obtain ⟨most,high⟩ := foldl_max (rest.map (·.latestRttUs)) first.latestRttUs
  refine ⟨_,low,_,high,fun s member => ?_,within.least,within.above,within.below,within.varies,?_⟩
  · have here : s.latestRttUs ∈ (first::rest).map (·.latestRttUs) := List.mem_map_of_mem member
    exact ⟨least _ here,most _ here⟩
  · have below := within.below
    have varies := within.varies
    change _ ≤ _ at below varies
    simp only [List.foldl_cons] at *
    unfold Clock.RttEstimator.pto saturatingAdd Clock.saturatingMul
    generalize maxU64 = top
    omega

def millisecond (n ackDelayUs : Nat) : Sample := ⟨n*1000,ackDelayUs,false,25000⟩

/-- The second sample comes with a delay beyond all measure. -/
theorem estimates_within_samples_delayed :
    (([millisecond 50 0,millisecond 60 (2^62),millisecond 40 0].foldl step {} : RttEstimator)).smoothedRttUs ≤ 60000 := by
  obtain ⟨low,_,high,member,bounds,_,_,below,_⟩ :=
    estimates_within_samples (millisecond 50 0) [millisecond 60 (2^62),millisecond 40 0] (by decide) 25000
  refine Nat.le_trans below ?_
  simp only [millisecond,List.map_cons,List.map_nil,List.mem_cons,List.not_mem_nil,or_false] at member
  omega

end QuicZig.Conn.RttSamples
