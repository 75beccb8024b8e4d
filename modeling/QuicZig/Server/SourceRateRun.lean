import QuicZig.Library.System
import QuicZig.Server.SourceRateSpec

/-! The gates over whole runs, against budgets that each source has for itself: a window for each axis
and a bucket, in a table without limit. -/
namespace QuicZig.Server.SourceRate
open Machine

/-- A rounded bucket, the same one without rounding in parts of a byte, and what rounding may have cost. -/
structure Drawn where
  tokens : Nat
  parts : Nat
  lost : Nat
  atUs : Nat

structure Sole where
  window : Axis → Option Window := fun _ => none
  bucket : Option Drawn := none

namespace Sole

def restart (sole : Sole) (axis : Axis) (w : Window) : Sole :=
  {sole with window := fun other => if other = axis then some w else sole.window other}

def count (windowUs : Nat) (axis : Axis) (cap nowUs : Nat) (sole : Sole) : Bool × Sole :=
  match sole.window axis with
  | none => (true,sole.restart axis ⟨1,nowUs⟩)
  | some w =>
    if nowUs-w.startUs ≥ windowUs then (true,sole.restart axis ⟨1,nowUs⟩)
    else if w.count ≥ cap then (false,sole)
    else (true,sole.restart axis ⟨w.count+1,w.startUs⟩)

/-- A bucket starts full. -/
def refilled (rate nowUs : Nat) (sole : Sole) : Drawn :=
  match sole.bucket with
  | none => ⟨rate,rate*usPerS,0,nowUs⟩
  | some b => ⟨TokenBucket.refill usPerS rate b.tokens (nowUs-b.atUs),TokenBucket.exactRefill usPerS rate b.parts (nowUs-b.atUs),
      TokenBucket.lostRefill usPerS rate b.tokens b.lost (nowUs-b.atUs),nowUs⟩

def draw (rate bytes nowUs : Nat) (sole : Sole) : Bool × Sole :=
  let b := sole.refilled rate nowUs
  if b.tokens < bytes then (false,{sole with bucket := some b})
  else (true,{sole with bucket := some {b with tokens := b.tokens-bytes,parts := b.parts-bytes*usPerS}})

end Sole

inductive Gate where
  | count (axis : Axis) (cap : Nat)
  | draw (bytes : Nat)

section
variable {Address : Type} [DecidableEq Address] (rate : Nat)

inductive Event (Address : Type) where
  | call (gate : Gate) (addr : Address) (order : List Address) (granted : Bool) (nowUs : Nat)
  | prune (order : List Address) (nowUs : Nat)

def Event.nowUs : Event Address → Nat
  | .call _ _ _ _ nowUs => nowUs
  | .prune _ nowUs => nowUs

def Event.order : Event Address → List Address
  | .call _ _ order _ _ => order
  | .prune order _ => order

def Gate.code (gate : Gate) (s : Gates Address) (addr : Address) (order : List Address) (granted : Bool) (nowUs : Nat) :
    Option (Bool × Gates Address) :=
  match gate with
  | .count axis cap => s.acceptWindowed axis order granted addr cap nowUs
  | .draw bytes => s.acceptSourceBandwidth order granted addr bytes rate nowUs

def Gate.sole (windowUs : Nat) (gate : Gate) (nowUs : Nat) (sole : Sole) : Bool × Sole :=
  match gate with
  | .count axis cap => sole.count windowUs axis cap nowUs
  | .draw bytes => sole.draw rate bytes nowUs

/-- The gates, the budgets of each source since its entry was made, and the time of the last call. -/
structure History (Address : Type) where
  gates : Gates Address
  sole : Address → Sole := fun _ => {}
  clock : Nat := 0

namespace History

/-- The source has no entry and there is no memory for one. -/
def Denied (h : History Address) (addr : Address) (order : List Address) (granted : Bool) (nowUs : Nat) : Prop :=
  (h.gates.ensureSourceRateRoom order nowUs).find addr = none ∧ granted = false

instance (h : History Address) (addr : Address) (order : List Address) (granted : Bool) (nowUs : Nat) :
    Decidable (h.Denied addr order granted nowUs) :=
  decidable_of_iff (((h.gates.ensureSourceRateRoom order nowUs).find addr).isNone ∧ granted = false)
    (and_congr_left' Option.isNone_iff_eq_none)

/-- An evicted entry takes its budgets along. -/
def spared (h : History Address) (order : List Address) (nowUs : Nat) (addr : Address) : Sole :=
  if h.gates.victim order nowUs = some addr then {} else h.sole addr

def step (h : History Address) : Event Address → History Address
  | .prune order nowUs => {h with gates := h.gates.pruneSourceRate order nowUs,clock := nowUs}
  | .call gate addr order granted nowUs =>
    match gate.code rate h.gates addr order granted nowUs with
    | none => {h with clock := nowUs}
    | some (_,gates) =>
      {gates := gates
       sole := fun other => if other = addr ∧ ¬h.Denied addr order granted nowUs then
          (gate.sole rate h.gates.sourceRateWindowUs nowUs (h.sole addr)).2
        else h.spared order nowUs other
       clock := nowUs}

/-- The clock does not go back, and the iterator meets every entry. -/
def Ordinary (h : History Address) (event : Event Address) : Prop :=
  h.clock ≤ event.nowUs ∧ event.nowUs ≤ maxU64 ∧ h.gates.Iterates event.order

/-- What a gate asks for: an axis is not used for the first time in an entry that another axis made less than a window,
or a second, after time zero; the first datagram of an entry is no larger than a full bucket; the numbers fit; and the
fractions of a byte that the times since the bucket was full leave come to one byte at most. -/
def GateMeets (h : History Address) (gate : Gate) (addr : Address) (order : List Address) (granted : Bool) (nowUs : Nat) : Prop :=
  match gate with
  | .count axis _ => ∀ e, (h.gates.ensureSourceRateRoom order nowUs).find addr = some e →
      ((h.sole addr).window axis = none → h.gates.sourceRateWindowUs ≤ nowUs) ∧ (e.window axis).count < maxU32
  | .draw bytes => ((h.gates.ensureSourceRateRoom order nowUs).find addr = none → granted = true → bytes ≤ rate) ∧
      ∀ e, (h.gates.ensureSourceRateRoom order nowUs).find addr = some e →
        ((h.sole addr).bucket = none → usPerS ≤ nowUs) ∧ (nowUs-e.bandwidthLastRefillUs)*rate/usPerS ≤ maxU64 ∧
        ((h.sole addr).refilled rate nowUs).lost ≤ usPerS

def Meets (h : History Address) : Event Address → Prop
  | .prune _ _ => True
  | .call gate addr order granted nowUs => nowUs < maxU64 ∧
      ((h.gates.find addr).isSome → h.gates.count < h.gates.sourceRateTableCapacity ∨
        ∃ other e, h.gates.find other = some e ∧ h.gates.idle e nowUs = true) ∧
      h.GateMeets rate gate addr order granted nowUs

/-- The bucket holds what the exact one holds, up to a byte. -/
def Level (gate : Gate) (e : Option SourceRateEntry) (sole : Sole) : Prop :=
  match gate with
  | .count _ _ => True
  | .draw _ => ∃ e' b, e = some e' ∧ sole.bucket = some b ∧ e'.bandwidthTokens*usPerS ≤ b.parts ∧
      b.parts ≤ e'.bandwidthTokens*usPerS+usPerS

/-- A call from a source with an entry leaves every active entry, and a call is answered from the source's own budgets. -/
def Kept (h : History Address) : Event Address → Prop
  | .prune _ _ => True
  | .call gate addr order granted nowUs => ∃ answer gates, gate.code rate h.gates addr order granted nowUs = some (answer,gates) ∧
      ((h.gates.find addr).isSome → ∀ other e, h.gates.find other = some e → h.gates.idle e nowUs = false → other ≠ addr →
        gates.find other = some e) ∧
      (h.Denied addr order granted nowUs ∧ answer = false ∨
        answer = (gate.sole rate h.gates.sourceRateWindowUs nowUs (h.sole addr)).1 ∧
        Level gate (gates.find addr) (gate.sole rate h.gates.sourceRateWindowUs nowUs (h.sole addr)).2)

def Bounded (h : History Address) : Prop := h.gates.count ≤ h.gates.sourceRateTableCapacity

def Spares (addr : Address) (h : History Address) (event : Event Address) : Prop :=
  match event with
  | .prune _ _ => True
  | .call _ _ order _ nowUs => h.gates.victim order nowUs ≠ some addr

def admitted (addr : Address) (h : History Address) : Event Address → Nat
  | .call (.draw bytes) source order granted nowUs =>
    match h.gates.acceptSourceBandwidth order granted source bytes rate nowUs with
    | some (true,_) => if source = addr then bytes else 0
    | _ => 0
  | _ => 0

def admittedOver (addr : Address) (h : History Address) : List (Event Address) → Nat
  | [] => 0
  | event::rest => h.admitted rate addr event+admittedOver addr (h.step rate event) rest

def Stale (windowUs clock : Nat) (sole : Sole) (axis : Axis) : Prop :=
  ∀ w, sole.window axis = some w → w.startUs+windowUs ≤ clock

def StaleBucket (clock : Nat) (sole : Sole) : Prop := ∀ b, sole.bucket = some b → b.atUs+bandwidthIdleThresholdUs ≤ clock

/-- The rounded bucket is the exact one, up to what rounding may have cost. -/
structure Near (b : Drawn) : Prop where
  below : b.tokens*usPerS ≤ b.parts
  above : b.parts ≤ b.tokens*usPerS+b.lost
  lost : b.lost ≤ usPerS

/-- An axis of an entry has the source's own budget, or is as new while that budget is past its time. -/
structure Tracks (windowUs clock : Nat) (e : SourceRateEntry) (sole : Sole) : Prop where
  window : ∀ axis, sole.window axis = some (e.window axis) ∨ e.window axis = {} ∧ Stale windowUs clock sole axis
  bucket : (∃ b, sole.bucket = some b ∧ b.tokens = e.bandwidthTokens ∧ b.atUs = e.bandwidthLastRefillUs ∧ Near b) ∨
    (e.bandwidthTokens = 0 ∧ e.bandwidthLastRefillUs = 0) ∧ StaleBucket clock sole

def Follows (windowUs clock : Nat) (e : Option SourceRateEntry) (sole : Sole) : Prop :=
  match e with
  | none => (∀ axis, Stale windowUs clock sole axis) ∧ StaleBucket clock sole
  | some e => Tracks windowUs clock e sole

theorem Follows.later {windowUs clock nowUs : Nat} (order : clock ≤ nowUs) {e : Option SourceRateEntry} {sole : Sole}
    (follows : Follows windowUs clock e sole) : Follows windowUs nowUs e sole := by
  cases e with
  | none =>
    obtain ⟨windows,bucket⟩ := follows
    exact ⟨fun axis w there => Nat.le_trans (windows axis w there) order,fun b there => Nat.le_trans (bucket b there) order⟩
  | some e =>
    obtain ⟨windows,bucket⟩ := follows
    exact ⟨fun axis => (windows axis).imp_right fun both => ⟨both.1,fun w there => Nat.le_trans (both.2 w there) order⟩,
      bucket.imp_right fun both => ⟨both.1,fun b there => Nat.le_trans (both.2 b there) order⟩⟩

omit [DecidableEq Address] in
theorem Follows.idle {s : Gates Address} {nowUs : Nat} {e : SourceRateEntry} {sole : Sole}
    (follows : Follows s.sourceRateWindowUs nowUs (some e) sole) (small : nowUs ≤ maxU64)
    (past : (∀ axis, (e.window axis).startUs ≤ nowUs) ∧ e.bandwidthLastRefillUs ≤ nowUs) (idle : s.idle e nowUs = true) :
    Follows s.sourceRateWindowUs nowUs none sole := by
  unfold Gates.idle at idle
  rw [decide_eq_true_iff,elapsed_eq (past.1 _) small,elapsed_eq (past.1 _) small,elapsed_eq (past.1 _) small,
    elapsed_eq (past.1 _) small,elapsed_eq past.2 small] at idle
  obtain ⟨initial,vn,reset,log,bucket⟩ := idle
  have long : ∀ axis, s.sourceRateWindowUs ≤ nowUs-(e.window axis).startUs := fun axis => by cases axis <;> assumption
  obtain ⟨windows,drawn⟩ := follows
  refine ⟨fun axis w there => ?_,fun b there => ?_⟩
  · rcases windows axis with same | ⟨_,stale⟩
    · rw [there] at same
      cases same
      have order := past.1 axis
      have far := long axis
      omega
    · exact stale w there
  · rcases drawn with ⟨b',there',_,at',_⟩ | ⟨_,stale⟩
    · rw [there] at there'
      cases there'
      rw [at']
      have order := past.2
      omega
    · exact stale b there

theorem Follows.new (windowUs clock : Nat) : Follows windowUs clock none {} := ⟨fun _ => nofun,nofun⟩

theorem room_follows {h : History Address} {order : List Address} {nowUs : Nat} (iterates : h.gates.Iterates order)
    (small : nowUs ≤ maxU64) (past : h.gates.Past nowUs) {addr : Address}
    (follows : Follows h.gates.sourceRateWindowUs nowUs (h.gates.find addr) (h.sole addr)) :
    Follows h.gates.sourceRateWindowUs nowUs ((h.gates.ensureSourceRateRoom order nowUs).find addr) (h.spared order nowUs addr) := by
  rw [(Gates.ensureSourceRateRoom_spec iterates nowUs).2]
  unfold spared
  by_cases gone : h.gates.victim order nowUs = some addr
  · rw [if_pos gone,if_pos gone]
    exact .new _ _
  rw [if_neg gone,if_neg gone]
  by_cases idle : h.gates.count ≥ h.gates.sourceRateTableCapacity ∧ (h.gates.find addr).any (h.gates.idle · nowUs) = true
  · rw [if_pos idle]
    cases there : h.gates.find addr with
    | none => exact there ▸ follows
    | some e =>
      rw [there] at follows idle
      exact follows.idle small (past addr e there) idle.2
  · rwa [if_neg idle]

structure Frame (r gates : Gates Address) (addr : Address) (nowUs : Nat) : Prop where
  others : ∀ other, other ≠ addr → gates.find other = r.find other
  same : Gates.Same r gates
  count : gates.count ≤ r.count+1
  past : r.Past nowUs → gates.Past nowUs

theorem Frame.refl (r : Gates Address) (addr : Address) (nowUs : Nat) : Frame r r addr nowUs :=
  ⟨fun _ _ => rfl,⟨rfl,rfl⟩,Nat.le_succ _,id⟩

theorem Frame.put (r : Gates Address) (addr : Address) {nowUs : Nat} {e : SourceRateEntry}
    (starts : ∀ axis, (e.window axis).startUs ≤ nowUs) (refill : e.bandwidthLastRefillUs ≤ nowUs) :
    Frame r (r.put addr e) addr nowUs :=
  ⟨fun other apart => (Gates.find_put r addr other e).trans (if_neg apart),⟨rfl,rfl⟩,Gates.count_put_le r addr e,
    fun past => past.put starts refill⟩

theorem find_put_self (r : Gates Address) (addr : Address) (e : SourceRateEntry) : (r.put addr e).find addr = some e :=
  (Gates.find_put r addr addr e).trans (if_pos rfl)

/-- The answer is the source's own, and so is what is kept of it, unless there is no memory for an entry. -/
structure Served (gate : Gate) (r gates : Gates Address) (addr : Address) (granted : Bool) (nowUs : Nat) (sole : Sole)
    (answer : Bool) : Prop where
  frame : Frame r gates addr nowUs
  served : (r.find addr = none ∧ granted = false) ∧ answer = false ∧ gates = r ∨ ¬(r.find addr = none ∧ granted = false) ∧
    answer = (gate.sole rate r.sourceRateWindowUs nowUs sole).1 ∧
    Level gate (gates.find addr) (gate.sole rate r.sourceRateWindowUs nowUs sole).2 ∧
    Follows r.sourceRateWindowUs nowUs (gates.find addr) (gate.sole rate r.sourceRateWindowUs nowUs sole).2

theorem Tracks.restart {windowUs nowUs : Nat} {e : SourceRateEntry} {sole : Sole} (tracks : Tracks windowUs nowUs e sole)
    (axis : Axis) (w : Window) :
    Tracks windowUs nowUs {e with window := fun other => if other = axis then w else e.window other} (sole.restart axis w) := by
  refine ⟨fun other => ?_,tracks.bucket⟩
  unfold Stale Sole.restart
  dsimp only
  by_cases same : other = axis
  · rw [if_pos same,if_pos same]
    exact .inl rfl
  · rw [if_neg same,if_neg same]
    exact tracks.window other

theorem Follows.fresh {windowUs nowUs : Nat} {sole : Sole} (follows : Follows windowUs nowUs none sole) :
    Tracks windowUs nowUs {} sole :=
  ⟨fun axis => .inr ⟨rfl,follows.1 axis⟩,.inr ⟨⟨rfl,rfl⟩,follows.2⟩⟩

theorem count_anew {windowUs nowUs : Nat} {sole : Sole} {axis : Axis}
    (anew : ∀ w, sole.window axis = some w → w.startUs+windowUs ≤ nowUs) (cap : Nat) :
    sole.count windowUs axis cap nowUs = (true,sole.restart axis ⟨1,nowUs⟩) := by
  unfold Sole.count
  cases there : sole.window axis with
  | none => rfl
  | some w =>
    have far := anew w there
    dsimp only
    rw [if_pos (by omega)]

theorem count_serves (axis : Axis) (cap : Nat) {r : Gates Address} {addr : Address} {nowUs : Nat} {sole : Sole}
    (small : nowUs ≤ maxU64) (past : r.Past nowUs) (follows : Follows r.sourceRateWindowUs nowUs (r.find addr) sole)
    (meets : ∀ e, r.find addr = some e →
      (sole.window axis = none → r.sourceRateWindowUs ≤ nowUs) ∧ (e.window axis).count < maxU32) (granted : Bool) :
    ∃ answer gates, r.countIn axis granted addr cap nowUs = some (answer,gates) ∧
      Served rate (.count axis cap) r gates addr granted nowUs sole answer := by
  unfold Gates.countIn
  cases there : r.find addr with
  | none =>
    dsimp only
    cases granted with
    | false => exact ⟨_,_,if_pos rfl,.refl _ _ _,.inl ⟨⟨there,rfl⟩,rfl,rfl⟩⟩
    | true =>
      rw [there] at follows
      have own := count_anew (follows.1 axis) cap
      refine ⟨_,_,if_neg nofun,Frame.put _ _ (fun other => ?_) (Nat.zero_le _),.inr ⟨fun both => (nomatch both.2),?_,trivial,?_⟩⟩
      · dsimp only
        split
        · exact Nat.le_refl _
        · exact Nat.zero_le _
      · exact (congrArg Prod.fst own).symm
      · rw [find_put_self]
        change Tracks _ _ _ (sole.count r.sourceRateWindowUs axis cap nowUs).2
        rw [own]
        exact follows.fresh.restart axis ⟨1,nowUs⟩
  | some e =>
    rw [there] at follows
    obtain ⟨late,room⟩ := meets e there
    obtain ⟨starts,refill⟩ := past addr e there
    have apart : ¬(r.find addr = none ∧ granted = false) := fun none => by
      rw [there] at none
      nomatch none.1
    have times : ∀ n, ∀ startUs ≤ nowUs, ∀ other, (if other = axis then ⟨n,startUs⟩ else e.window other : Window).startUs ≤ nowUs := by
      intro n startUs order other
      split
      · exact order
      · exact starts other
    dsimp only
    rw [elapsed_eq (starts axis) small]
    by_cases over' : nowUs-(e.window axis).startUs ≥ r.sourceRateWindowUs
    · have own : sole.count r.sourceRateWindowUs axis cap nowUs = (true,sole.restart axis ⟨1,nowUs⟩) := by
        refine count_anew (fun w at' => ?_) cap
        rcases follows.window axis with same | ⟨_,stale⟩
        · rw [at'] at same
          cases same
          have order := starts axis
          omega
        · exact stale w at'
      refine ⟨_,_,if_pos over',Frame.put _ _ (times 1 nowUs (Nat.le_refl _)) refill,.inr ⟨apart,?_,trivial,?_⟩⟩
      · exact (congrArg Prod.fst own).symm
      · rw [find_put_self]
        change Tracks _ _ _ (sole.count r.sourceRateWindowUs axis cap nowUs).2
        rw [own]
        exact Tracks.restart follows axis ⟨1,nowUs⟩
    rw [if_neg over']
    have same : sole.window axis = some (e.window axis) := by
      rcases follows.window axis with same | ⟨new,stale⟩
      · exact same
      · exfalso
        refine over' ?_
        rw [new]
        cases at' : sole.window axis with
        | none => exact late at'
        | some w =>
          have far := stale w at'
          change r.sourceRateWindowUs ≤ nowUs-0
          omega
    by_cases full : (e.window axis).count ≥ cap
    · have own : sole.count r.sourceRateWindowUs axis cap nowUs = (false,sole) := by
        unfold Sole.count
        rw [same]
        dsimp only
        rw [if_neg over',if_pos full]
      refine ⟨_,_,if_pos full,.refl _ _ _,.inr ⟨apart,(congrArg Prod.fst own).symm,trivial,?_⟩⟩
      change Follows _ _ _ (sole.count r.sourceRateWindowUs axis cap nowUs).2
      rw [own,there]
      exact follows
    · have own : sole.count r.sourceRateWindowUs axis cap nowUs =
          (true,sole.restart axis ⟨(e.window axis).count+1,(e.window axis).startUs⟩) := by
        unfold Sole.count
        rw [same]
        dsimp only
        rw [if_neg over',if_neg full]
      rw [if_neg full,if_neg (by omega)]
      refine ⟨_,_,rfl,Frame.put _ _ (times _ _ (starts axis)) refill,.inr ⟨apart,(congrArg Prod.fst own).symm,trivial,?_⟩⟩
      rw [find_put_self]
      change Tracks _ _ _ (sole.count r.sourceRateWindowUs axis cap nowUs).2
      rw [own]
      exact Tracks.restart follows axis ⟨(e.window axis).count+1,(e.window axis).startUs⟩

theorem refilled_anew {nowUs : Nat} {sole : Sole} (anew : StaleBucket nowUs sole) :
    sole.refilled rate nowUs = ⟨rate,rate*usPerS,0,nowUs⟩ := by
  unfold Sole.refilled
  cases there : sole.bucket with
  | none => rfl
  | some b =>
    have far : usPerS ≤ nowUs-b.atUs := by
      have idle := anew b there
      unfold bandwidthIdleThresholdUs at idle
      unfold usPerS
      omega
    dsimp only
    rw [TokenBucket.refill_full (by decide) _ far,TokenBucket.exactRefill_full _ far,TokenBucket.lostRefill_full (by decide) _ _ far]

theorem Near.full (rate nowUs : Nat) : Near ⟨rate,rate*usPerS,0,nowUs⟩ :=
  ⟨Nat.le_refl (rate*usPerS),Nat.le_add_right (rate*usPerS) 0,Nat.zero_le usPerS⟩

theorem Near.spend {b : Drawn} (near : Near b) {bytes : Nat} (enough : bytes ≤ b.tokens) :
    Near {b with tokens := b.tokens-bytes,parts := b.parts-bytes*usPerS} := by
  obtain ⟨below,above,lost⟩ := near
  have most : bytes*usPerS ≤ b.tokens*usPerS := Nat.mul_le_mul_right _ enough
  refine ⟨?_,?_,lost⟩
  · dsimp only
    rw [Nat.sub_mul]
    omega
  · dsimp only
    rw [Nat.sub_mul]
    omega

theorem level_eq (fits : rate ≤ maxU64) (q : Nat) : min (if q ≤ maxU64 then q else rate) rate = min q rate := by
  split
  · rfl
  · omega

theorem refilled_level {e : SourceRateEntry} {sole : Sole} {windowUs nowUs : Nat} (fits : rate ≤ maxU64)
    (tracks : Tracks windowUs nowUs e sole) (late : sole.bucket = none → usPerS ≤ nowUs)
    (steady : (sole.refilled rate nowUs).lost ≤ usPerS) :
    (sole.refilled rate nowUs).tokens = min (if e.bandwidthTokens+(nowUs-e.bandwidthLastRefillUs)*rate/usPerS ≤ maxU64 then
      e.bandwidthTokens+(nowUs-e.bandwidthLastRefillUs)*rate/usPerS else rate) rate ∧
      (sole.refilled rate nowUs).atUs = nowUs ∧ Near (sole.refilled rate nowUs) := by
  rw [level_eq rate fits]
  rcases tracks.bucket with ⟨b,there,tokens,at',near⟩ | ⟨⟨tokens,at'⟩,stale⟩
  · have own : sole.refilled rate nowUs = ⟨TokenBucket.refill usPerS rate b.tokens (nowUs-b.atUs),
        TokenBucket.exactRefill usPerS rate b.parts (nowUs-b.atUs),
        TokenBucket.lostRefill usPerS rate b.tokens b.lost (nowUs-b.atUs),nowUs⟩ := by
      unfold Sole.refilled
      rw [there]
    rw [own] at steady ⊢
    refine ⟨?_,rfl,TokenBucket.refill_below near.below _,TokenBucket.refill_near near.above _,steady⟩
    rw [← tokens,← at']
    rfl
  · rw [refilled_anew rate stale,tokens,at']
    refine ⟨?_,rfl,.full rate nowUs⟩
    have long : usPerS ≤ nowUs := by
      cases there : sole.bucket with
      | none => exact late there
      | some b =>
        have idle := stale b there
        unfold bandwidthIdleThresholdUs at idle
        unfold usPerS
        omega
    exact (TokenBucket.refill_full (by decide) 0 long).symm

theorem draw_serves (bytes : Nat) {r : Gates Address} {addr : Address} {nowUs : Nat} {sole : Sole} (fits : rate ≤ maxU64)
    (small : nowUs ≤ maxU64) (past : r.Past nowUs) (follows : Follows r.sourceRateWindowUs nowUs (r.find addr) sole)
    {granted : Bool} (bounded : r.find addr = none → granted = true → bytes ≤ rate)
    (meets : ∀ e, r.find addr = some e → (sole.bucket = none → usPerS ≤ nowUs) ∧
      (nowUs-e.bandwidthLastRefillUs)*rate/usPerS ≤ maxU64 ∧ (sole.refilled rate nowUs).lost ≤ usPerS) :
    ∃ answer gates, r.drawIn granted addr bytes rate nowUs = some (answer,gates) ∧
      Served rate (.draw bytes) r gates addr granted nowUs sole answer := by
  unfold Gates.drawIn
  cases there : r.find addr with
  | none =>
    dsimp only
    cases granted with
    | false => exact ⟨_,_,if_pos rfl,.refl _ _ _,.inl ⟨⟨there,rfl⟩,rfl,rfl⟩⟩
    | true =>
      rw [there] at follows
      have enough := bounded there rfl
      have own : sole.draw rate bytes nowUs =
          (true,{sole with bucket := some ⟨rate-bytes,rate*usPerS-bytes*usPerS,0,nowUs⟩}) := by
        unfold Sole.draw
        rw [refilled_anew rate follows.2]
        exact if_neg (Nat.not_lt.mpr enough)
      have near := (Near.full rate nowUs).spend enough
      refine ⟨_,_,if_neg nofun,Frame.put _ _ (fun _ => Nat.zero_le _) (Nat.le_refl _),
        .inr ⟨fun both => (nomatch both.2),?_,?_,?_⟩⟩
      · change decide (rate ≥ bytes) = (sole.draw rate bytes nowUs).1
        rw [own]
        exact decide_eq_true enough
      · change Level (.draw bytes) _ (sole.draw rate bytes nowUs).2
        rw [own,find_put_self,if_pos enough]
        exact ⟨_,_,rfl,rfl,near.below,Nat.le_trans near.above (Nat.add_le_add_left (Nat.zero_le _) _)⟩
      · change Follows _ _ _ (sole.draw rate bytes nowUs).2
        rw [own,find_put_self,if_pos enough]
        exact ⟨fun axis => .inr ⟨rfl,follows.1 axis⟩,.inl ⟨_,rfl,rfl,rfl,near⟩⟩
  | some e =>
    rw [there] at follows
    obtain ⟨late,cast,steady⟩ := meets e there
    obtain ⟨starts,refill⟩ := past addr e there
    obtain ⟨level,at',near⟩ := refilled_level rate fits follows late steady
    have apart : ¬(r.find addr = none ∧ granted = false) := fun both => by
      rw [there] at both
      nomatch both.1
    dsimp only
    rw [elapsed_eq refill small,if_neg (Nat.not_lt.mpr cast),← level]
    by_cases short : (sole.refilled rate nowUs).tokens < bytes
    · have own : sole.draw rate bytes nowUs = (false,{sole with bucket := some (sole.refilled rate nowUs)}) := if_pos short
      refine ⟨_,_,if_pos short,Frame.put _ _ starts (Nat.le_refl _),.inr ⟨apart,(congrArg Prod.fst own).symm,?_,?_⟩⟩
      · change Level (.draw bytes) _ (sole.draw rate bytes nowUs).2
        rw [own,find_put_self]
        exact ⟨_,_,rfl,rfl,near.below,Nat.le_trans near.above (Nat.add_le_add_left near.lost _)⟩
      · change Follows _ _ _ (sole.draw rate bytes nowUs).2
        rw [own,find_put_self]
        exact ⟨follows.window,.inl ⟨_,rfl,rfl,at',near⟩⟩
    · have own : sole.draw rate bytes nowUs = (true,{sole with bucket := some {sole.refilled rate nowUs with
          tokens := (sole.refilled rate nowUs).tokens-bytes,parts := (sole.refilled rate nowUs).parts-bytes*usPerS}}) := if_neg short
      have near := near.spend (Nat.not_lt.mp short)
      refine ⟨_,_,if_neg short,Frame.put _ _ starts (Nat.le_refl _),.inr ⟨apart,(congrArg Prod.fst own).symm,?_,?_⟩⟩
      · change Level (.draw bytes) _ (sole.draw rate bytes nowUs).2
        rw [own,find_put_self]
        exact ⟨_,_,rfl,rfl,near.below,Nat.le_trans near.above (Nat.add_le_add_left near.lost _)⟩
      · change Follows _ _ _ (sole.draw rate bytes nowUs).2
        rw [own,find_put_self]
        exact ⟨follows.window,.inl ⟨_,rfl,rfl,at',near⟩⟩

theorem gate_serves (gate : Gate) {h : History Address} {addr : Address} {order : List Address} {granted : Bool} {nowUs : Nat}
    (fits : rate ≤ maxU64) (small : nowUs ≤ maxU64) (past : (h.gates.ensureSourceRateRoom order nowUs).Past nowUs)
    (same : Gates.Same h.gates (h.gates.ensureSourceRateRoom order nowUs))
    (follows : Follows h.gates.sourceRateWindowUs nowUs ((h.gates.ensureSourceRateRoom order nowUs).find addr) (h.sole addr))
    (meets : h.GateMeets rate gate addr order granted nowUs) :
    ∃ answer gates, gate.code rate h.gates addr order granted nowUs = some (answer,gates) ∧
      Served rate gate (h.gates.ensureSourceRateRoom order nowUs) gates addr granted nowUs (h.sole addr) answer := by
  rw [← same.window] at follows
  cases gate with
  | count axis cap =>
    refine count_serves rate axis cap small past follows (fun e there => ?_) granted
    rw [same.window]
    exact meets e there
  | draw bytes =>
    exact draw_serves rate bytes fits small past follows meets.1 meets.2

/-- What holds of a history whose steps meet the condition. -/
structure Inv (h : History Address) : Prop where
  positive : 0 < h.gates.sourceRateTableCapacity
  bounded : h.Bounded
  past : h.gates.Past h.clock
  follows : ∀ addr, Follows h.gates.sourceRateWindowUs h.clock (h.gates.find addr) (h.sole addr)

theorem prune_inv {h : History Address} (inv : h.Inv) {order : List Address} {nowUs : Nat}
    (ordinary : h.Ordinary (.prune order nowUs)) : (h.step rate (.prune order nowUs)).Inv := by
  obtain ⟨later,small,iterates⟩ := ordinary
  simp only [Event.nowUs,Event.order] at later small iterates
  have same := (Gates.find_pruneSourceRate order h.gates nowUs).1
  refine ⟨?_,?_,?_,fun addr => ?_⟩
  · change 0 < (h.gates.pruneSourceRate order nowUs).sourceRateTableCapacity
    rw [same.capacity]
    exact inv.positive
  · change (h.gates.pruneSourceRate order nowUs).count ≤ (h.gates.pruneSourceRate order nowUs).sourceRateTableCapacity
    rw [same.capacity]
    exact Nat.le_trans (Gates.count_prune_le order h.gates nowUs) inv.bounded
  · exact (inv.past.later later).kept (Gates.prune_kept order h.gates nowUs)
  · change Follows (h.gates.pruneSourceRate order nowUs).sourceRateWindowUs nowUs ((h.gates.pruneSourceRate order nowUs).find addr) _
    have follows := (inv.follows addr).later later
    rw [same.window,Gates.pruned iterates]
    by_cases idle : (h.gates.find addr).any (h.gates.idle · nowUs) = true
    · rw [if_pos idle]
      cases there : h.gates.find addr with
      | none => exact there ▸ follows
      | some e =>
        rw [there] at follows idle
        exact follows.idle small (inv.past.later later addr e there) idle
    · rwa [if_neg idle]

theorem call_keeps {h : History Address} (inv : h.Inv) {gate : Gate} {addr : Address} {order : List Address} {granted : Bool}
    {nowUs : Nat} (fits : rate ≤ maxU64) (ordinary : h.Ordinary (.call gate addr order granted nowUs))
    (meets : h.Meets rate (.call gate addr order granted nowUs)) :
    (h.step rate (.call gate addr order granted nowUs)).Inv ∧ h.Kept rate (.call gate addr order granted nowUs) := by
  obtain ⟨later,small,iterates⟩ := ordinary
  simp only [Event.nowUs,Event.order] at later small iterates
  obtain ⟨early,housed,asked⟩ := meets
  have past := inv.past.later later
  obtain ⟨same,found⟩ := Gates.ensureSourceRateRoom_spec iterates nowUs
  have roomy := Gates.ensureSourceRateRoom_room iterates inv.positive inv.bounded past early
  have follows := fun other => room_follows iterates small past ((inv.follows other).later later)
  have own : h.spared order nowUs addr = h.sole addr := by
    refine if_neg fun gone => ?_
    have none := Gates.victim_none iterates inv.bounded (housed (Gates.victim_there gone))
    rw [gone] at none
    nomatch none
  obtain ⟨answer,gates,code,⟨others,same',count,past'⟩,served⟩ := gate_serves rate gate fits small
    (past.kept (Gates.ensureSourceRateRoom_kept iterates nowUs)) same (own ▸ follows addr) asked
  constructor
  · unfold step
    dsimp only
    rw [code]
    dsimp only
    refine ⟨?_,?_,past' (past.kept (Gates.ensureSourceRateRoom_kept iterates nowUs)),fun other => ?_⟩
    · dsimp only
      rw [same'.capacity,same.capacity]
      exact inv.positive
    · change gates.count ≤ gates.sourceRateTableCapacity
      rw [same'.capacity,same.capacity]
      omega
    · dsimp only
      rw [same'.window,same.window]
      rw [same.window] at served
      by_cases eq : other = addr
      · subst eq
        rcases served with ⟨denied,_,rfl⟩ | ⟨granted',_,_,kept⟩
        · rw [if_neg fun both => both.2 denied]
          exact follows other
        · rw [if_pos ⟨rfl,granted'⟩]
          exact kept
      · rw [if_neg fun both => eq both.1,others other eq]
        exact follows other
  · refine ⟨answer,gates,code,fun there other e at' busy apart => ?_,?_⟩
    · rw [others other apart,found,Gates.victim_none iterates inv.bounded (housed there),if_neg nofun,at']
      simp [busy]
    · rw [same.window] at served
      rcases served with ⟨denied,refused,_⟩ | ⟨_,answered,level,_⟩
      · exact .inl ⟨denied,refused⟩
      · exact .inr ⟨answered,level⟩

/-! ### The bytes of one source -/

/-- What the bucket of a source could give out at a time, in parts of a byte: a source without an entry has a full one. -/
def creditAt (e : Option SourceRateEntry) (nowUs : Nat) : Nat :=
  match e with
  | none => rate*usPerS
  | some e => TokenBucket.credit usPerS rate e.bandwidthTokens (nowUs-e.bandwidthLastRefillUs)

theorem creditAt_le (e : Option SourceRateEntry) (nowUs : Nat) : creditAt rate e nowUs ≤ rate*usPerS := by
  cases e with
  | none => exact Nat.le_refl (rate*usPerS)
  | some e => exact TokenBucket.credit_le _ _

theorem creditAt_later (e : Option SourceRateEntry) {fromUs nowUs : Nat} (order : fromUs ≤ nowUs) :
    creditAt rate e nowUs ≤ creditAt rate e fromUs+(nowUs-fromUs)*rate := by
  cases e with
  | none => exact Nat.le_add_right (rate*usPerS) _
  | some e => exact TokenBucket.credit_later _ _ (by omega)

omit [DecidableEq Address] in
theorem creditAt_idle {s : Gates Address} {e : SourceRateEntry} {nowUs : Nat} (small : nowUs ≤ maxU64)
    (past : e.bandwidthLastRefillUs ≤ nowUs) (idle : s.idle e nowUs = true) : creditAt rate (some e) nowUs = rate*usPerS := by
  unfold Gates.idle at idle
  rw [decide_eq_true_iff,elapsed_eq past small] at idle
  refine TokenBucket.credit_full _ (Nat.le_trans ?_ idle.2.2.2.2)
  unfold usPerS bandwidthIdleThresholdUs
  omega

theorem creditAt_pruned {s : Gates Address} {nowUs : Nat} {addr : Address} (small : nowUs ≤ maxU64) (past : s.Past nowUs)
    (idle : (s.find addr).any (s.idle · nowUs) = true) : creditAt rate (s.find addr) nowUs = rate*usPerS := by
  cases there : s.find addr with
  | none => rfl
  | some e =>
    rw [there] at idle
    exact creditAt_idle rate small (past addr e there).2 idle

theorem creditAt_room {s : Gates Address} {order : List Address} {nowUs : Nat} {addr : Address} (iterates : s.Iterates order)
    (small : nowUs ≤ maxU64) (past : s.Past nowUs) (spares : s.victim order nowUs ≠ some addr) :
    creditAt rate ((s.ensureSourceRateRoom order nowUs).find addr) nowUs = creditAt rate (s.find addr) nowUs := by
  rw [(Gates.ensureSourceRateRoom_spec iterates nowUs).2,if_neg spares]
  by_cases idle : s.count ≥ s.sourceRateTableCapacity ∧ (s.find addr).any (s.idle · nowUs) = true
  · rw [if_pos idle,creditAt_pruned rate small past idle.2]
    rfl
  · rw [if_neg idle]

theorem countIn_credit {axis : Axis} {granted : Bool} {r gates : Gates Address} {addr other : Address} {cap nowUs : Nat}
    {answer : Bool} (done : r.countIn axis granted addr cap nowUs = some (answer,gates)) :
    creditAt rate (gates.find other) nowUs ≤ creditAt rate (r.find other) nowUs := by
  unfold Gates.countIn at done
  cases there : r.find addr with
  | none =>
    rw [there] at done
    dsimp only at done
    split at done
    · cases done
      exact Nat.le_refl _
    · cases done
      rw [Gates.find_put]
      by_cases eq : other = addr
      · rw [if_pos eq,eq,there]
        exact creditAt_le rate _ _
      · rw [if_neg eq]
  | some e =>
    rw [there] at done
    dsimp only at done
    have level : ∀ window, creditAt rate ((r.put addr {e with window := window}).find other) nowUs ≤
        creditAt rate (r.find other) nowUs := by
      intro window
      rw [Gates.find_put]
      by_cases eq : other = addr
      · rw [if_pos eq,eq,there]
        exact Nat.le_refl (creditAt rate (some e) nowUs)
      · rw [if_neg eq]
    split_ifs at done
    · cases done
      exact level _
    · cases done
      exact Nat.le_refl _
    · cases done
      exact level _

theorem drawIn_credit {granted : Bool} {r gates : Gates Address} {addr other : Address} {bytes nowUs : Nat}
    {answer : Bool} (fits : rate ≤ maxU64) (small : nowUs ≤ maxU64) (past : r.Past nowUs)
    (done : r.drawIn granted addr bytes rate nowUs = some (answer,gates)) :
    (if answer = true ∧ addr = other then bytes else 0)*usPerS+creditAt rate (gates.find other) nowUs ≤
      creditAt rate (r.find other) nowUs := by
  unfold Gates.drawIn at done
  cases there : r.find addr with
  | none =>
    rw [there] at done
    dsimp only at done
    split at done
    · cases done
      rw [if_neg fun both => (nomatch both.1),Nat.zero_mul,Nat.zero_add]
    · cases done
      rw [Gates.find_put]
      by_cases eq : other = addr
      · rw [if_pos eq,eq,there]
        unfold creditAt
        dsimp only
        rw [Nat.sub_self]
        refine Nat.le_trans (Nat.add_le_add_left (TokenBucket.credit_now _) _) ?_
        by_cases enough : rate ≥ bytes
        · rw [if_pos ⟨decide_eq_true enough,rfl⟩,if_pos enough,← Nat.add_mul,Nat.add_sub_cancel' enough]
        · rw [if_neg fun both => enough (of_decide_eq_true both.1),if_neg enough,Nat.zero_mul]
          exact Nat.zero_le _
      · rw [if_neg eq,if_neg fun both => eq both.2.symm,Nat.zero_mul,Nat.zero_add]
  | some e =>
    rw [there] at done
    dsimp only at done
    have order := (past addr e there).2
    rw [elapsed_eq order small,level_eq rate fits] at done
    split at done
    · nomatch done
    have spend := fun spent => @TokenBucket.credit_spend usPerS rate e.bandwidthTokens (nowUs-e.bandwidthLastRefillUs) spent
    unfold TokenBucket.refill at spend
    split at done
    · cases done
      rw [if_neg fun both => (nomatch both.1),Nat.zero_mul,Nat.zero_add,Gates.find_put]
      by_cases eq : other = addr
      · rw [if_pos eq,eq,there]
        unfold creditAt
        dsimp only
        rw [Nat.sub_self]
        have kept := spend 0 (Nat.zero_le _)
        rwa [Nat.zero_mul,Nat.zero_add,Nat.sub_zero] at kept
      · rw [if_neg eq]
    · rename_i enough
      cases done
      rw [Gates.find_put]
      by_cases eq : other = addr
      · rw [if_pos eq,if_pos ⟨rfl,eq.symm⟩,eq,there]
        unfold creditAt
        dsimp only
        rw [Nat.sub_self]
        exact spend bytes (Nat.not_lt.mp enough)
      · rw [if_neg eq,if_neg fun both => eq both.2.symm,Nat.zero_mul,Nat.zero_add]

theorem step_credit {h : History Address} {event : Event Address} {addr : Address} (fits : rate ≤ maxU64)
    (past : h.gates.Past h.clock) (ordinary : h.Ordinary event) (spares : Spares addr h event) :
    h.admitted rate addr event*usPerS+creditAt rate ((h.step rate event).gates.find addr) event.nowUs ≤
      creditAt rate (h.gates.find addr) event.nowUs := by
  obtain ⟨later,small,iterates⟩ := ordinary
  have past := past.later later
  cases event with
  | prune order nowUs =>
    simp only [Event.nowUs,Event.order] at small iterates past ⊢
    change 0*usPerS+creditAt rate ((h.gates.pruneSourceRate order nowUs).find addr) nowUs ≤ _
    rw [Nat.zero_mul,Nat.zero_add,Gates.pruned iterates]
    by_cases idle : (h.gates.find addr).any (h.gates.idle · nowUs) = true
    · rw [if_pos idle,creditAt_pruned rate small past idle]
      exact creditAt_le rate none nowUs
    · rw [if_neg idle]
  | call gate source order granted nowUs =>
    simp only [Event.nowUs,Event.order] at small iterates past ⊢
    have room := creditAt_room rate iterates small past spares
    have past := past.kept (Gates.ensureSourceRateRoom_kept iterates nowUs)
    rw [← room]
    unfold step
    dsimp only
    cases gate with
    | count axis cap =>
      change 0*usPerS+_ ≤ _
      rw [Nat.zero_mul,Nat.zero_add]
      cases code : Gate.code rate (.count axis cap) h.gates source order granted nowUs with
      | none => exact Nat.le_of_eq room.symm
      | some out => exact countIn_credit rate code
    | draw bytes =>
      unfold admitted
      dsimp only
      cases code : h.gates.acceptSourceBandwidth order granted source bytes rate nowUs with
      | none =>
        rw [show Gate.code rate (.draw bytes) h.gates source order granted nowUs = none from code]
        dsimp only
        rw [Nat.zero_mul,Nat.zero_add]
        exact Nat.le_of_eq room.symm
      | some out =>
        obtain ⟨answer,gates⟩ := out
        rw [show Gate.code rate (.draw bytes) h.gates source order granted nowUs = some (answer,gates) from code]
        have spent := @drawIn_credit _ _ rate _ _ _ _ addr _ _ _ fits small past code
        dsimp only
        cases answer with
        | false =>
          rw [if_neg fun both => Bool.false_ne_true both.1] at spent
          exact spent
        | true =>
          simp only [true_and] at spent
          exact spent

theorem Frame.of_countIn {axis : Axis} {granted : Bool} {r gates : Gates Address} {addr : Address} {cap nowUs : Nat}
    {answer : Bool} (past : r.Past nowUs) (done : r.countIn axis granted addr cap nowUs = some (answer,gates)) :
    Frame r gates addr nowUs := by
  unfold Gates.countIn at done
  cases there : r.find addr with
  | none =>
    rw [there] at done
    dsimp only at done
    split at done
    · cases done
      exact .refl _ _ _
    · cases done
      refine .put _ _ (fun other => ?_) (Nat.zero_le _)
      dsimp only
      split
      · exact Nat.le_refl _
      · exact Nat.zero_le _
  | some e =>
    obtain ⟨starts,refill⟩ := past addr e there
    rw [there] at done
    dsimp only at done
    split_ifs at done
    · cases done
      refine .put _ _ (fun other => ?_) refill
      dsimp only
      split
      · exact Nat.le_refl _
      · exact starts other
    · cases done
      exact .refl _ _ _
    · cases done
      refine .put _ _ (fun other => ?_) refill
      dsimp only
      split
      · exact starts axis
      · exact starts other

theorem Frame.of_drawIn {granted : Bool} {r gates : Gates Address} {addr : Address} {bytes nowUs : Nat}
    {answer : Bool} (past : r.Past nowUs) (done : r.drawIn granted addr bytes rate nowUs = some (answer,gates)) :
    Frame r gates addr nowUs := by
  unfold Gates.drawIn at done
  cases there : r.find addr with
  | none =>
    rw [there] at done
    dsimp only at done
    split at done
    · cases done
      exact .refl _ _ _
    · cases done
      exact .put _ _ (fun _ => Nat.zero_le _) (Nat.le_refl _)
  | some e =>
    have starts := (past addr e there).1
    rw [there] at done
    dsimp only at done
    split at done
    · nomatch done
    generalize min (if e.bandwidthTokens+elapsed nowUs e.bandwidthLastRefillUs*rate/usPerS ≤ maxU64 then
      e.bandwidthTokens+elapsed nowUs e.bandwidthLastRefillUs*rate/usPerS else rate) rate = level at done
    split at done
    · cases done
      exact .put _ _ starts (Nat.le_refl _)
    · cases done
      exact .put _ _ starts (Nat.le_refl _)

theorem step_clock (h : History Address) (event : Event Address) : (h.step rate event).clock = event.nowUs := by
  cases event with
  | prune => rfl
  | call gate addr order granted nowUs =>
    unfold step
    dsimp only
    split <;> rfl

theorem step_past {h : History Address} {event : Event Address} (past : h.gates.Past h.clock) (ordinary : h.Ordinary event) :
    (h.step rate event).gates.Past (h.step rate event).clock := by
  rw [step_clock]
  obtain ⟨later,_,iterates⟩ := ordinary
  have past := past.later later
  cases event with
  | prune order nowUs => exact past.kept (Gates.prune_kept order h.gates nowUs)
  | call gate addr order granted nowUs =>
    have roomy := past.kept (Gates.ensureSourceRateRoom_kept iterates nowUs)
    unfold step
    dsimp only
    cases code : gate.code rate h.gates addr order granted nowUs with
    | none => exact past
    | some out =>
      cases gate with
      | count axis cap => exact (Frame.of_countIn roomy code).past roomy
      | draw bytes => exact (Frame.of_drawIn rate roomy code).past roomy

theorem timely {h : History Address} {events : List (Event Address)} (ordinary : System.Admits (step rate) Ordinary h events) :
    ∀ event ∈ events, h.clock ≤ event.nowUs := by
  induction events generalizing h with
  | nil => exact nofun
  | cons first rest ih =>
    obtain ⟨allowed,ordinary⟩ := ordinary
    intro event member
    rcases List.mem_cons.mp member with rfl | member
    · exact allowed.1
    · have later := ih ordinary event member
      rw [step_clock] at later
      exact Nat.le_trans allowed.1 later

/-- What a source is let send in a time is what its bucket holds at first, and what it gains in that time. -/
theorem admitted_within {h : History Address} {events : List (Event Address)} {addr : Address} (fits : rate ≤ maxU64)
    (past : h.gates.Past h.clock) (ordinary : System.Admits (step rate) Ordinary h events)
    (spares : System.Admits (step rate) (Spares addr) h events) {fromUs untilUs : Nat}
    (within : ∀ event ∈ events, fromUs ≤ event.nowUs ∧ event.nowUs ≤ untilUs) :
    h.admittedOver rate addr events*usPerS ≤ creditAt rate (h.gates.find addr) fromUs+(untilUs-fromUs)*rate := by
  induction events generalizing h fromUs with
  | nil =>
    rw [admittedOver,Nat.zero_mul]
    exact Nat.zero_le _
  | cons event rest ih =>
    obtain ⟨allowed,ordinary⟩ := ordinary
    obtain ⟨left,spares⟩ := spares
    obtain ⟨after,before⟩ := within event List.mem_cons_self
    have once := step_credit rate fits past allowed left
    have later := creditAt_later rate (h.gates.find addr) after
    have times := timely rate ordinary
    rw [step_clock] at times
    have more := @ih (h.step rate event) (step_past rate past allowed) ordinary spares event.nowUs
      fun other member => ⟨times other member,(within other (List.mem_cons_of_mem _ member)).2⟩
    have whole : (untilUs-event.nowUs)*rate+(event.nowUs-fromUs)*rate = (untilUs-fromUs)*rate := by
      rw [← Nat.add_mul]
      congr 1
      omega
    rw [admittedOver,Nat.add_mul]
    omega

/-- A table without entries. -/
structure New (capacity windowUs : Nat) (h : History Address) : Prop where
  made : h = ⟨{sourceRateTableCapacity := capacity,sourceRateWindowUs := windowUs},fun _ => {},0⟩
  positive : 0 < capacity

theorem new_inv {capacity windowUs : Nat} {h : History Address} (new : New capacity windowUs h) : h.Inv := by
  obtain ⟨rfl,positive⟩ := new
  refine ⟨positive,Nat.zero_le _,fun addr e there => ?_,fun addr => ?_⟩
  · nomatch there
  · exact .new _ _

/-- The gates in every run whose calls meet the condition: the table stays within its capacity, every call is answered from
the budgets of its source, and a source that is not evicted sends no more than its bucket allows. -/
theorem gates_keep_budgets (fits : rate ≤ maxU64) {capacity windowUs : Nat} {h : History Address} (new : New capacity windowUs h)
    (before events : List (Event Address)) (ordinary : System.Admits (step rate) Ordinary h (before ++ events))
    (meets : System.Admits (step rate) (Meets rate) h (before ++ events)) :
    System.Throughout Bounded (step rate) h (before ++ events) ∧ System.Admits (step rate) (Kept rate) h (before ++ events) ∧
      ∀ addr fromUs untilUs, System.Admits (step rate) (Spares addr) (System.run (step rate) h before) events →
        (∀ event ∈ events, fromUs ≤ event.nowUs ∧ event.nowUs ≤ untilUs) →
        (System.run (step rate) h before).admittedOver rate addr events*usPerS ≤ rate*usPerS+(untilUs-fromUs)*rate := by
  have kept : ∀ (h : History Address) event, h.Inv → (h.Ordinary event ∧ h.Meets rate event) → (h.step rate event).Inv := by
    intro h event inv allowed
    cases event with
    | prune => exact prune_inv rate inv allowed.1
    | call => exact (call_keeps rate inv fits allowed.1 allowed.2).1
  have both := ordinary.and meets
  refine ⟨?_,.under kept (fun h event inv allowed => ?_) (new_inv new) both,fun addr fromUs untilUs spares within => ?_⟩
  · refine System.Throughout.of_reaches (fun h' reached => ?_) (.start new) both
    exact (reached.invariant Inv (fun h => new_inv) kept).bounded
  · cases event with
    | prune => exact trivial
    | call => exact (call_keeps rate inv fits allowed.1 allowed.2).2
  · obtain ⟨first,second⟩ := System.Admits.append.mp ordinary
    have reached := System.Reaches.run before (.start new) first
    have past := reached.invariant (fun h => h.gates.Past h.clock) (fun h new => (new_inv new).past)
      fun h event past allowed => step_past rate past allowed
    exact Nat.le_trans (admitted_within rate fits past second spares within) (Nat.add_le_add_right (creditAt_le rate _ _) _)

def smallTable (capacity windowUs : Nat) : History Nat :=
  ⟨{sourceRateTableCapacity := capacity,sourceRateWindowUs := windowUs},fun _ => {},0⟩

def drawThenCount : List (Event Nat) := [.call (.draw 3) 7 [] true 1000000,.call (.count .initial 1) 7 [7] true 1000000]

theorem gates_keep_budgets_once : System.Throughout Bounded (step 1000) (smallTable 2 10) drawThenCount ∧
    System.Admits (step 1000) (Kept 1000) (smallTable 2 10) drawThenCount := by
  have kept := @gates_keep_budgets Nat _ 1000 (by decide) 2 10 (smallTable 2 10) ⟨rfl,by decide⟩ [] drawThenCount
    ⟨⟨by decide,by decide,fun _ there => absurd there Bool.false_ne_true⟩,⟨by decide,by decide,fun addr there => ?_⟩,trivial⟩
    ⟨⟨by decide,fun there => absurd there Bool.false_ne_true,fun _ _ => by decide,
      fun _ there => absurd there.symm (Option.some_ne_none _)⟩,⟨by decide,fun _ => .inl (by decide),fun e there => ?_⟩,trivial⟩
  · exact ⟨kept.1,kept.2.1⟩
  · change (((smallTable 2 10).gates.put 7 {bandwidthTokens := 997,bandwidthLastRefillUs := 1000000}).find addr).isSome = true at there
    rw [Gates.find_put] at there
    split at there
    · rename_i eq
      exact eq ▸ List.mem_cons_self
    · cases there
  · cases there
    exact ⟨fun _ => by decide,by decide⟩

/-- With one place in the table, a source whose budget is used up takes its own place and is let in again. -/
theorem full_table_forgives : System.Admits (step 0) Ordinary (smallTable 1 10)
      [.call (.count .initial 1) 7 [] true 10,.call (.count .initial 1) 7 [7] true 11] ∧
    ¬System.Admits (step 0) (Kept 0) (smallTable 1 10)
      [.call (.count .initial 1) 7 [] true 10,.call (.count .initial 1) 7 [7] true 11] := by
  refine ⟨⟨⟨by decide,by decide,fun _ there => absurd there Bool.false_ne_true⟩,⟨by decide,by decide,fun addr there => ?_⟩,trivial⟩,fun admitted => ?_⟩
  · change (((smallTable 1 10).gates.put 7 {window := fun other => if other = .initial then ⟨1,10⟩ else {}}).find addr).isSome =
      true at there
    rw [Gates.find_put] at there
    split at there
    · rename_i eq
      exact eq ▸ List.mem_cons_self
    · cases there
  · obtain ⟨_,⟨answer,gates,code,_,served⟩,_⟩ := admitted
    cases code
    rcases served with ⟨_,refused⟩ | ⟨answered,_⟩
    · cases refused
    · cases answered

end History
end

end QuicZig.Server.SourceRate
