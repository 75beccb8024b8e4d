import QuicZig.Conn.Congestion

/-! The exit of slow start on growing round trips: what the ACKs before it have reported, round by round. -/
namespace QuicZig.Conn.HyStartRun
open Machine Congestion

structure Ack where
  largestAckedPn : Nat
  latestRttUs : Option Nat
  nextPnToSend : Nat

inductive Event where
  | ack (ack : Ack)
  | reset

/-- The samples of the current round and of the rounds before it, latest first. -/
structure Logged where
  state : HyStart
  current : List Nat := []
  rounds : List (List Nat) := []

namespace Logged

def answer (l : Logged) (a : Ack) : Bool × HyStart := l.state.onAckProcessed a.largestAckedPn a.latestRttUs a.nextPnToSend

def samples (l : Logged) (a : Ack) : List Nat := a.latestRttUs.toList ++ l.current

def ends (l : Logged) (a : Ack) : Bool := !decide (a.largestAckedPn < l.state.roundEndPn.getD a.nextPnToSend)

/-- The controller resets the state of a slow start that is over; losses do so as well. -/
def step (l : Logged) : Event → Logged
  | .reset => {state := l.state.reset}
  | .ack a =>
    if !l.state.cfg.enabled then l
    else if (l.answer a).1 then {state := (l.answer a).2.reset}
    else if l.ends a then {state := (l.answer a).2,current := [],rounds := l.samples a::l.rounds}
    else {l with state := (l.answer a).2,current := l.samples a}

/-- The round that enters Conservative Slow Start: from some of its samples on, all of them `n` or more, every one lay beyond
the threshold over `base`. -/
def Inflated (cfg : HyStartConfig) (base : Nat) (round : List Nat) : Prop :=
  ∃ later early, round = later ++ early ∧ cfg.nRttSample ≤ early.length ∧ early ≠ [] ∧
    ∀ rtt ∈ early, saturatingAdd base (max cfg.minRttThreshUs (min cfg.maxRttThreshUs (base/cfg.minRttDivisor))) ≤ rtt

/-- Conservative Slow Start with `done` complete rounds behind it: `before` is the round before it, and the round that entered it
is the oldest of `done`, or the current one. -/
structure Slowed (cfg : HyStartConfig) (current : List Nat) (rounds : List (List Nat)) (base : Nat)
    (done : List (List Nat)) : Prop where
  split : ∃ before older, rounds = done ++ before::older ∧ before.min? = some base
  above : ∀ round ∈ done, ∀ rtt ∈ round, base ≤ rtt
  entry : Inflated cfg base (done.getLast?.getD current)

structure Inv (cfg : HyStartConfig) (l : Logged) : Prop where
  config : l.state.cfg = cfg
  count : l.state.rttSampleCount = l.current.length
  least : l.state.currentRoundMinRttUs = l.current.min?
  last : l.state.lastRoundMinRttUs = l.rounds.head?.bind List.min?
  css : l.state.inCss = true → ∃ base done, l.state.cssBaselineMinRttUs = some base ∧ done.length = l.state.cssRoundsSeen ∧
    Slowed cfg l.current l.rounds base done

variable {cfg : HyStartConfig} {l : Logged}

theorem min?_push (rtt : Nat) (current : List Nat) :
    (rtt::current).min? = if current.min?.all (rtt < ·) then some rtt else current.min? := by
  rw [List.min?_cons]
  cases current.min? with
  | none => rfl
  | some c =>
    simp only [Option.elim_some,Option.all_some,decide_eq_true_eq]
    by_cases less : rtt < c
    · simp [less,Nat.min_eq_left (Nat.le_of_lt less)]
    · simp [less,Nat.min_eq_right (Nat.le_of_not_lt less)]

theorem min?_le {values : List Nat} {least : Nat} (found : values.min? = some least) : ∀ v ∈ values, least ≤ v :=
  (List.min?_eq_some_iff.mp found).2

theorem Inflated.push {base : Nat} {round : List Nat} (inflated : Inflated cfg base round) (rtt : Nat) :
    Inflated cfg base (rtt::round) := by
  obtain ⟨later,early,rfl,rest⟩ := inflated
  exact ⟨rtt::later,early,rfl,rest⟩

theorem Slowed.push {base : Nat} {done rounds : List (List Nat)} {current : List Nat}
    (slowed : Slowed cfg current rounds base done)
    (rtt : Nat) : Slowed cfg (rtt::current) rounds base done := by
  refine {slowed with entry := ?_}
  have entry := slowed.entry
  cases last : done.getLast? with
  | none =>
    rw [last] at entry
    exact entry.push rtt
  | some round =>
    rw [last] at entry
    exact entry

/-- The samples of a round, and what they have to reach for the entry into Conservative Slow Start. -/
theorem inv_sample (inv : Inv cfg l) (rtt : Nat) :
    Inv cfg {l with state := l.state.sample rtt,current := rtt::l.current} := by
  have least := min?_push rtt l.current
  rw [← inv.least] at least
  have plain : Inv cfg {l with
      state := {l.state with
        currentRoundMinRttUs := if l.state.currentRoundMinRttUs.all (rtt < ·) then some rtt else l.state.currentRoundMinRttUs
        rttSampleCount := l.state.rttSampleCount+1}
      current := rtt::l.current} := {
    config := inv.config
    count := congrArg (·+1) inv.count
    least := least.symm
    last := inv.last
    css := fun slow => by
      obtain ⟨base,done,baseline,length,slowed⟩ := inv.css slow
      exact ⟨base,done,baseline,length,slowed.push rtt⟩}
  unfold HyStart.sample
  dsimp only
  split
  · rename_i lastMin curMin last found
    split
    · rename_i enters
      simp only [Bool.and_eq_true,Bool.not_eq_true',decide_eq_true_eq] at enters
      obtain ⟨⟨_,enough⟩,beyond⟩ := enters
      refine {plain with css := fun _ => ⟨lastMin,[],rfl,rfl,?_,by simp,[],rtt::l.current,rfl,?_,by simp,?_⟩}
      · have before := inv.last
        rw [last] at before
        cases rounds : l.rounds with
        | nil =>
          rw [rounds] at before
          cases before
        | cons round older =>
          rw [rounds] at before
          exact ⟨round,older,rfl,before.symm⟩
      · rw [← inv.config,List.length_cons,← inv.count]
        exact enough
      · intro v member
        rw [← inv.config]
        exact Nat.le_trans beyond (min?_le (least.trans found) v member)
    · exact plain
  · exact plain

theorem endRound_cfg (s : HyStart) (nextPnToSend : Nat) : (s.endRound nextPnToSend).2.cfg = s.cfg := by
  unfold HyStart.endRound
  grind

/-- The end of a round: Conservative Slow Start is left on a sample below the base, and slow start after enough rounds of it. -/
theorem inv_endRound (inv : Inv cfg l) (nextPnToSend : Nat) :
    ((l.state.endRound nextPnToSend).1 = true → ∃ base done, cfg.cssRounds ≤ done.length+1 ∧
    Slowed cfg l.current l.rounds base done ∧
      ∀ rtt ∈ l.current, base ≤ rtt) ∧
    ((l.state.endRound nextPnToSend).1 = false →
      Inv cfg {state := (l.state.endRound nextPnToSend).2,current := [],rounds := l.current::l.rounds}) := by
  have calm : ∀ s : HyStart, s.cfg = cfg → s.currentRoundMinRttUs = l.current.min? → s.inCss = false →
      Inv cfg {state := {s with
        lastRoundMinRttUs := s.currentRoundMinRttUs
        currentRoundMinRttUs := none
        rttSampleCount := 0
        roundEndPn := some nextPnToSend},current := [],rounds := l.current::l.rounds} := fun s config least slow => {
    config := config
    count := rfl
    least := rfl
    last := least
    css := fun slow' => absurd (slow.symm.trans slow') (by simp)}
  cases slow : l.state.inCss with
  | false =>
    have stays : l.state.endRound nextPnToSend = (false,{l.state with
        lastRoundMinRttUs := l.state.currentRoundMinRttUs
        currentRoundMinRttUs := none
        rttSampleCount := 0
        roundEndPn := some nextPnToSend}) := by
      unfold HyStart.endRound
      cases base : l.state.cssBaselineMinRttUs <;> cases found : l.state.currentRoundMinRttUs <;> simp [slow,base,found]
    rw [stays]
    exact ⟨fun beyond => absurd beyond Bool.false_ne_true,fun _ => calm l.state inv.config inv.least slow⟩
  | true =>
    obtain ⟨base,done,baseline,length,slowed⟩ := inv.css slow
    by_cases alarm : ∃ curMin, l.state.currentRoundMinRttUs = some curMin ∧ curMin < base
    · obtain ⟨curMin,found,below⟩ := alarm
      have leaves : l.state.endRound nextPnToSend = (false,{l.state with
          inCss := false
          cssBaselineMinRttUs := none
          cssRoundsSeen := 0
          lastRoundMinRttUs := l.state.currentRoundMinRttUs
          currentRoundMinRttUs := none
          rttSampleCount := 0
          roundEndPn := some nextPnToSend}) := by
        unfold HyStart.endRound
        simp [baseline,found,slow,below]
      rw [leaves]
      exact ⟨fun beyond => absurd beyond Bool.false_ne_true,fun _ => calm {l.state with
        inCss := false
        cssBaselineMinRttUs := none
        cssRoundsSeen := 0} inv.config inv.least rfl⟩
    · have above : ∀ rtt ∈ l.current, base ≤ rtt := by
        intro rtt member
        cases found : l.state.currentRoundMinRttUs with
        | none =>
          have empty := List.min?_eq_none_iff.mp (inv.least.symm.trans found)
          rw [empty] at member
          cases member
        | some curMin =>
          have reached := min?_le (inv.least.symm.trans found) rtt member
          have fine : ¬curMin < base := fun below => alarm ⟨curMin,found,below⟩
          omega
      have counts : l.state.endRound nextPnToSend =
          if l.state.cssRoundsSeen+1 ≥ l.state.cfg.cssRounds then
            (true,{l.state with cssRoundsSeen := l.state.cssRoundsSeen+1})
          else (false,{l.state with
            cssRoundsSeen := l.state.cssRoundsSeen+1
            lastRoundMinRttUs := l.state.currentRoundMinRttUs
            currentRoundMinRttUs := none
            rttSampleCount := 0
            roundEndPn := some nextPnToSend}) := by
        unfold HyStart.endRound
        cases found : l.state.currentRoundMinRttUs with
        | none => simp [baseline,slow,found]
        | some curMin =>
          have fine : ¬curMin < base := fun below => alarm ⟨curMin,found,below⟩
          simp [baseline,slow,found,fine]
      rw [counts,inv.config]
      split
      · rename_i enough
        exact ⟨fun _ => ⟨base,done,by omega,slowed,above⟩,fun more => absurd more Bool.noConfusion⟩
      · refine ⟨fun beyond => absurd beyond Bool.false_ne_true,fun _ => ?_⟩
        refine {
          config := inv.config
          count := rfl
          least := rfl
          last := inv.least
          css := fun _ => ⟨base,l.current::done,baseline,congrArg (·+1) length,?_,?_,?_⟩}
        · obtain ⟨before,older,split,least⟩ := slowed.split
          exact ⟨before,older,congrArg (l.current::·) split,least⟩
        · exact List.forall_mem_cons.mpr ⟨above,slowed.above⟩
        · rw [List.getLast?_cons]
          exact slowed.entry

theorem inv_begin (inv : Inv cfg l) (roundEndPn : Nat) :
    Inv cfg {l with state := {l.state with roundEndPn := some roundEndPn}} := {
  config := inv.config
  count := inv.count
  least := inv.least
  last := inv.last
  css := inv.css}

theorem inv_reset (config : l.state.cfg = cfg) : Inv cfg {state := l.state.reset} := {
  config := config
  count := rfl
  least := rfl
  last := rfl
  css := fun slow => nomatch slow}

theorem answer_eq (enabled : l.state.cfg.enabled = true) (inv : Inv cfg l) (a : Ack) :
    ∃ sampled, Inv cfg {l with state := sampled,current := l.samples a} ∧
      l.answer a = if l.ends a then sampled.endRound a.nextPnToSend else (false,sampled) := by
  have begun := inv_begin inv (l.state.roundEndPn.getD a.nextPnToSend)
  unfold answer samples ends HyStart.onAckProcessed
  simp only [enabled,Bool.not_true,Bool.false_eq_true,if_false]
  cases a.latestRttUs with
  | none =>
    refine ⟨_,begun,?_⟩
    by_cases within : a.largestAckedPn < l.state.roundEndPn.getD a.nextPnToSend <;> simp [within]
  | some rtt =>
    refine ⟨_,inv_sample begun rtt,?_⟩
    by_cases within : a.largestAckedPn < l.state.roundEndPn.getD a.nextPnToSend <;> simp [within]

theorem inv_step (inv : Inv cfg l) (event : Event) : Inv cfg (l.step event) := by
  cases event with
  | reset => exact inv_reset inv.config
  | ack a =>
    cases enabled : l.state.cfg.enabled with
    | false => simpa [step,enabled] using inv
    | true =>
      obtain ⟨sampled,inv',answered⟩ := answer_eq enabled inv a
      cases ends : l.ends a with
      | false => simpa [step,enabled,answered,ends] using inv'
      | true =>
        obtain ⟨_,goes⟩ := inv_endRound inv' a.nextPnToSend
        cases beyond : (sampled.endRound a.nextPnToSend).1 with
        | false => simpa [step,enabled,answered,ends,beyond] using goes beyond
        | true =>
          have config : (sampled.endRound a.nextPnToSend).2.cfg = cfg :=
            (endRound_cfg sampled a.nextPnToSend).trans inv'.config
          simpa [step,enabled,answered,ends,beyond] using inv_reset
            (l := {state := (sampled.endRound a.nextPnToSend).2}) config

def fresh (cfg : HyStartConfig) : Logged := {state := {cfg := cfg}}

theorem inv_run (cfg : HyStartConfig) (events : List Event) : Inv cfg (events.foldl step (fresh cfg)) := by
  have start : Inv cfg (fresh cfg) := inv_reset (l := fresh cfg) rfl
  generalize fresh cfg = l at *
  induction events generalizing l with
  | nil => exact start
  | cons event rest ih => exact ih _ (inv_step start event)

/-- Slow start ends only on growing round trips: the last rounds, as many as `cssRounds` or more, hold no sample below the minimum
of the round before them, and in the first of them all of the first `nRttSample` samples or more were
beyond the threshold over that minimum. -/
theorem exits_on_inflation (cfg : HyStartConfig) (events : List Event) (a : Ack)
    (exits : ((events.foldl step (fresh cfg)).answer a).1 = true) :
    let l := events.foldl step (fresh cfg)
    l.ends a = true ∧ ∃ base css before older entry, l.samples a::l.rounds = css ++ before::older ∧ before.min? = some base ∧
      cfg.cssRounds ≤ css.length ∧ (∀ round ∈ css, ∀ rtt ∈ round, base ≤ rtt) ∧ css.getLast? = some entry ∧
        Inflated cfg base entry := by
  intro l
  have inv : Inv cfg l := inv_run cfg events
  change (l.answer a).1 = true at exits
  clear_value l
  cases enabled : l.state.cfg.enabled with
  | false => simp [answer,HyStart.onAckProcessed,enabled] at exits
  | true =>
    obtain ⟨sampled,inv',answered⟩ := answer_eq enabled inv a
    rw [answered] at exits
    cases ends : l.ends a with
    | false => simp [ends] at exits
    | true =>
      rw [ends,if_pos rfl] at exits
      obtain ⟨base,done,enough,slowed,above⟩ := (inv_endRound inv' a.nextPnToSend).1 exits
      obtain ⟨before,older,split,least⟩ := slowed.split
      refine ⟨rfl,base,l.samples a::done,before,older,_,congrArg (l.samples a::·) split,least,by simpa using enough,
        List.forall_mem_cons.mpr ⟨above,slowed.above⟩,?_,slowed.entry⟩
      rw [List.getLast?_cons]

def early : HyStartConfig := {nRttSample := 2,cssRounds := 2}

def queueing : List Event :=
  [.ack ⟨0,some 30000,10⟩,.ack ⟨10,some 29000,20⟩,.ack ⟨14,some 34000,24⟩,.ack ⟨20,some 33500,30⟩,.ack ⟨26,none,36⟩]

theorem exits_on_inflation_queueing :
    let l := queueing.foldl step (fresh early)
    l.ends ⟨30,some 33000,40⟩ = true ∧ ∃ base css before older entry, l.samples ⟨30,some 33000,40⟩::l.rounds =
      css ++ before::older ∧
      before.min? = some base ∧ early.cssRounds ≤ css.length ∧ (∀ round ∈ css, ∀ rtt ∈ round, base ≤ rtt) ∧
      css.getLast? = some entry ∧ Inflated early base entry :=
  exits_on_inflation early queueing ⟨30,some 33000,40⟩ (by decide)

end Logged

end QuicZig.Conn.HyStartRun
