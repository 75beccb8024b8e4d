import QuicZig.Conn.InboundAccount

/-! The streams that the two lists of blocked streams name, and when they outlive them. -/
namespace QuicZig.Conn.Inbound
open Machine Paths Streams SendFlow BlockedStreams

/-- Both lists name live streams only, each once. -/
structure Living (conn : Connection) : Prop where
  localLive : ∀ id ∈ ids conn.blocked.localStreamDataBlocked, id ∈ names conn
  peerLive : ∀ id ∈ ids conn.blocked.peerStreamDataBlocked, id ∈ names conn
  localOnce : (ids conn.blocked.localStreamDataBlocked).Nodup
  peerOnce : (ids conn.blocked.peerStreamDataBlocked).Nodup

/-- So neither list is longer than there are live streams. -/
structure Tracked (h : History) : Prop where
  living : Living h.conn
  localRoom : h.conn.blocked.localStreamDataBlocked.length ≤ h.conn.flow.streams.length
  peerRoom : h.conn.blocked.peerStreamDataBlocked.length ≤ h.conn.flow.streams.length

/-- All that the stream will get is here, up to its final size. -/
def Complete (s : RecvStream) : Prop :=
  s.reset = none ∧ s.finSeen = true ∧ match s.ranges with
    | [] => s.finalSize = some s.readOffset
    | [r] => r.offset = s.readOffset ∧ s.finalSize = some r.stop
    | _ => False

instance (s : RecvStream) : Decidable (Complete s) := by
  unfold Complete
  split <;> infer_instance

/-- The receive half came to its end, or it was stopped and nothing more is to come. -/
def recvReady (h : RecvHalf) : Bool := recvFullyTerminated h || (h.recvStopped && decide (Complete h.recv))

/-- A live stream that is ready to be reclaimed. -/
def Connection.ready (conn : Connection) (id : Nat) : Bool :=
  match conn.flow.get id with
  | none => false
  | some s => conn.flow.streamFullyTerminated (recvReady (conn.half id)) s

/-- The step leaves, or puts, a name in a list that is of no live stream: a list names one of the first streams that
are ready to be reclaimed, or the peer says it is blocked on a stream of its own that is not there. -/
def Strands (conn : Connection) (e : Event) : Prop :=
  match e.call with
  | .gcClosedStreams candidates => ∃ id ∈ (candidates.filter conn.ready).take gcBatch,
      id ∈ ids conn.blocked.localStreamDataBlocked ∨ id ∈ ids conn.blocked.peerStreamDataBlocked
  | .streamDataBlocked sdb => conn.takes e = true ∧ conn.flow.get sdb.streamId = none ∧
      streamInitiatedByLocal conn.flow.role sdb.streamId = false ∧ conn.beyondLocalLimit sdb.streamId = none ∧
      conn.blocked.peerStreamDataBlocked.length < maxTrackedStreamDataBlocked ∧ e.grants 0 0 = true
  | _ => False

section
variable {conn after : Connection} {id : Nat}

theorem Living.tracked {h : History} (living : Living h.conn) : Tracked h := by
  have shorter : ∀ list : Entries, (ids list).Nodup → (∀ id ∈ ids list, id ∈ names h.conn) → list.length ≤ h.conn.flow.streams.length := by
    intro list once live
    have most := (once.subperm live).length_le
    unfold ids names at most
    rwa [List.length_map,List.length_map] at most
  exact ⟨living,shorter _ living.localOnce living.localLive,shorter _ living.peerOnce living.peerLive⟩

theorem Listed.living {live : List Nat} (listed : Listed live conn.blocked after.blocked) (living : Living conn)
    (known : ∀ id ∈ live, id ∈ names after) (kept : ∀ id ∈ names conn, id ∈ names after) : Living after :=
  ⟨fun id there => (listed.localNames id there).elim (fun old => kept id (living.localLive id old)) (known id),
    fun id there => (listed.peerNames id there).elim (fun old => kept id (living.peerLive id old)) (known id),
    listed.localOnce living.localOnce,listed.peerOnce living.peerOnce⟩

theorem Onward.living {terms : Terms} {charged risen up back : Nat} (onward : Onward terms charged risen up back conn after)
    (listed : terms.listed) (living : Living conn) : Living after := by
  obtain ⟨mid,begun,effect⟩ := onward
  rcases begun with rfl | ⟨id,made⟩
  · exact (effect.blocked listed).living living (fun id there => effect.named ▸ there) fun id there => effect.named ▸ there
  · have noted := effect.blocked listed
    rw [made.blocked] at noted
    have more := made.names
    refine noted.living living (fun id there => effect.named ▸ there) fun id there => ?_
    rw [effect.named,more]
    exact List.mem_append_left _ there

theorem creditConnectionRecvWindow_blocked (conn : Connection) (n : Nat) :
    (conn.creditConnectionRecvWindow n).blocked = conn.blocked := by
  unfold Connection.creditConnectionRecvWindow
  split
  · rfl
  dsimp only
  split <;> rfl

theorem discardTurns_blocked (id turns : Nat) (conn : Connection) : (conn.discardTurns id turns).blocked = conn.blocked := by
  induction turns generalizing conn with
  | zero => rfl
  | succ turns ih =>
    unfold Connection.discardTurns
    dsimp only
    split
    · rfl
    · rename_i read _
      have once : ((conn.shrinkRecv id read).creditConnectionRecvWindow (conn.half id).recv.peek.length).blocked = conn.blocked :=
        creditConnectionRecvWindow_blocked _ _
      split
      · exact once
      · exact (ih _).trans once

theorem collectGc_blocked (candidates : List Nat) (room : Nat) (conn : Connection) :
    (Connection.collectGc room candidates conn).2.blocked = conn.blocked := by
  induction candidates generalizing room conn with
  | nil => rfl
  | cons id rest ih =>
    unfold Connection.collectGc
    split
    · exact ih room conn
    dsimp only
    have read : (if (conn.half id).recvStopped then conn.discardStopped id else conn).blocked = conn.blocked := by
      split
      · exact discardTurns_blocked _ _ _
      · rfl
    generalize (if (conn.half id).recvStopped then conn.discardStopped id else conn) = mid at read ⊢
    split
    · exact (ih _ _).trans read
    split
    · exact read
    · exact (ih _ _).trans read

theorem maybeAdvertise_streams (conn : Connection) (bidi : Bool) :
    (conn.maybeAdvertiseStreamCredit bidi).flow.streams = conn.flow.streams := (maybeAdvertise_same conn bidi).streams

theorem retire_names (conn : Connection) (id : Nat) : names (conn.retire id) = (names conn).filter (· ≠ id) := by
  have without : ∀ c : Connection, c.flow.streams = conn.flow.streams.filter (·.id ≠ id) → names c = (names conn).filter (· ≠ id) := by
    intro c streams
    unfold names
    rw [streams,List.filter_map]
    rfl
  unfold Connection.retire
  split
  · rename_i absent
    have missing : id ∉ names conn := fun there => by
      rw [mem_names,absent] at there
      cases there
    exact (List.filter_eq_self.mpr fun other there => by
      simpa using fun same : other = id => missing (same ▸ there)).symm
  · refine without _ ?_
    dsimp only
    split
    · split
      · rfl
      · exact maybeAdvertise_streams _ _
    · rfl

theorem retireAll_names (batch : List Nat) (conn : Connection) (id : Nat) :
    id ∈ names (batch.foldl Connection.retire conn) ↔ id ∈ names conn ∧ id ∉ batch := by
  induction batch generalizing conn with
  | nil => simp
  | cons first rest ih =>
    rw [List.foldl_cons,ih,retire_names,List.mem_filter,List.mem_cons]
    simp only [ne_eq,decide_not,Bool.not_eq_true',decide_eq_false_iff_not]
    tauto

theorem collectGc_names (candidates : List Nat) (room : Nat) (conn : Connection) (housed : Housed conn) :
    names (Connection.collectGc room candidates conn).2 = names conn := by
  let terms : Terms := ⟨(names conn).filter (peerMaySendOnStream conn.flow.role),False,False⟩
  obtain ⟨n,effect⟩ := @collectGc_effect terms candidates room conn (housed.once.filter _) housed fun id there may =>
    List.mem_filter.mpr ⟨there,may⟩
  exact effect.named

/-- The buffer as `discardStopped` reads it. -/
def drain : Nat → RecvStream → RecvStream
  | 0,s => s
  | turns+1,s =>
    match s.consume s.peek.length with
    | none => s
    | some after => if s.peek.length = 0 then after else drain turns after

theorem credit_half (conn : Connection) (n : Nat) : (conn.creditConnectionRecvWindow n).half = conn.half := by
  unfold Connection.creditConnectionRecvWindow
  dsimp only
  split_ifs <;> rfl

theorem discardTurns_half (id turns : Nat) (conn : Connection) : (conn.discardTurns id turns).half =
    Function.update conn.half id {conn.half id with recv := drain turns (conn.half id).recv} := by
  induction turns generalizing conn with
  | zero => exact (Function.update_eq_self id conn.half).symm
  | succ turns ih =>
    unfold Connection.discardTurns drain
    dsimp only
    cases read : (conn.half id).recv.consume (conn.half id).recv.peek.length with
    | none => exact (Function.update_eq_self id conn.half).symm
    | some after =>
      have once : ((conn.shrinkRecv id after).creditConnectionRecvWindow (conn.half id).recv.peek.length).half =
          Function.update conn.half id {conn.half id with recv := after} := credit_half _ _
      dsimp only
      split
      · exact once
      · rw [ih,once,Function.update_self,Function.update_idem]

/-- The state says that a stream came to its end. -/
def Terminated (s : RecvStream) : Prop := s.state = .dataRecvd ∨ s.state = .dataRead ∨ s.state = .resetRecvd ∨ s.state = .resetRead

theorem advance_ready {s : RecvStream} (running : s.reset = none) :
    (Complete s.maybeAdvanceState ↔ Complete s) ∧ s.maybeAdvanceState.ranges = s.ranges ∧
      (Terminated s.maybeAdvanceState ↔ Terminated s ∨ s.finSeen = true ∧ s.finalSize = some s.readOffset ∧ s.ranges = []) := by
  obtain ⟨state,fields⟩ := RecvStream.advance_fields s
  refine ⟨by rw [fields]; exact Iff.rfl,by rw [fields],?_⟩
  unfold RecvStream.maybeAdvanceState Terminated
  rw [running,if_neg (by exact Bool.false_ne_true)]
  split_ifs with unseen ended read
  · rw [Bool.not_eq_true'] at unseen
    rw [unseen]
    simp
  · simp only [true_or,true_iff]
    exact .inr ⟨by simpa using unseen,ended⟩
  · rw [not_not.mp read]
    simp
  · split
    · split_ifs with whole
      · rcases whole.2.2 with state | state <;> rw [state] <;> simp [ended]
      · simp [ended]
    · simp [ended]

theorem consume_ready {s t : RecvStream} (sound : s.Sound) (ok : s.consume s.peek.length = some t) :
    (Terminated t ∨ Complete t ↔ Terminated s ∨ Complete s) ∧
      (s.peek.length = 0 → (Terminated t ∨ Complete t → Terminated t)) ∧
      (s.peek.length ≠ 0 → t.ranges.length < s.ranges.length) := by
  cases reset : s.reset with
  | some r =>
    have emptied : s.Emptied r := by
      unfold RecvStream.Sound at sound
      rw [reset] at sound
      exact sound
    have same : t = s := by
      unfold RecvStream.consume at ok
      rw [emptied.peek] at ok
      exact (Option.some.inj ok).symm.trans (RecvStream.advance_reset reset)
    rw [same]
    refine ⟨Iff.rfl,fun _ either => either.resolve_right fun whole => ?_,fun some => absurd (by rw [emptied.peek]; rfl) some⟩
    rw [Complete,reset] at whole
    cases whole.1
  | none =>
  have running : s.Running := by
    unfold RecvStream.Sound at sound
    rw [reset] at sound
    exact sound
  obtain ⟨accepted,delivered,⟨assembled,_⟩,_⟩ := running.assembled
  have sorted := assembled.sorted
  have shown := (RecvRun.peek_spec assembled).1
  dsimp only at sorted shown
  obtain ⟨whole,kept,ends⟩ := advance_ready reset
  by_cases none : s.peek.length = 0
  · rw [none] at ok
    obtain rfl := Option.some.inj ok
    have last : Complete s → s.finSeen = true ∧ s.finalSize = some s.readOffset ∧ s.ranges = [] := by
      rintro ⟨_,seen,final⟩
      split at final
      · rename_i ranges
        exact ⟨seen,final,ranges⟩
      · rename_i r ranges
        have proper := sorted.proper r (by rw [ranges]; exact List.mem_singleton.mpr rfl)
        rw [none,RecvStream.readableBytes,ranges] at shown
        dsimp only at shown
        rw [if_neg (not_not.mpr final.1)] at shown
        omega
      · exact final.elim
    rw [whole,ends]
    exact ⟨⟨fun either => either.elim (fun done => done.imp_right fun last => ⟨reset,last.1,by rw [last.2.2]; exact last.2.1⟩) .inr,
      fun either => either.imp_left .inl⟩,fun _ either => either.elim id fun complete => .inr (last complete),absurd none⟩
  · cases ranges : s.ranges with
    | nil =>
      rw [RecvStream.readableBytes,ranges] at shown
      exact absurd shown none
    | cons r rest =>
    rw [RecvStream.readableBytes,ranges] at shown
    dsimp only at shown
    have begins : r.offset = s.readOffset := by
      by_contra apart
      rw [if_pos apart] at shown
      exact none shown
    rw [if_neg (not_not.mpr begins)] at shown
    rw [ranges] at sorted
    obtain ⟨_,gap,_⟩ := (Spans.separated_cons r rest).mp sorted
    have stop : s.readOffset+s.peek.length = r.stop := by omega
    unfold RecvStream.consume at ok
    rw [if_neg none,ranges] at ok
    dsimp only at ok
    rw [if_neg (by rintro (apart | more) <;> omega),if_pos shown,stop] at ok
    generalize RecvStream.slide s.bytes (s.bufStart+s.peek.length) = slid at ok
    obtain ⟨bytes,bufStart⟩ := slid
    dsimp only at ok
    obtain ⟨whole',kept',ends'⟩ := @advance_ready
      {s with bytes := bytes,bufStart := bufStart,readOffset := r.stop,ranges := rest} reset
    generalize RecvStream.maybeAdvanceState _ = u at ok whole' kept' ends'
    -- the range that begins above the gap is no more the next than it was before
    have last : Complete {s with bytes := bytes,bufStart := bufStart,readOffset := r.stop,ranges := rest} →
        s.finSeen = true ∧ s.finalSize = some r.stop ∧ rest = [] := by
      intro whole
      cases rest with
      | nil => exact ⟨whole.2.1,whole.2.2,rfl⟩
      | cons next others =>
        cases others with
        | nil => exact absurd whole.2.2.1 (gap next (List.mem_singleton.mpr rfl)).ne'
        | cons => exact whole.2.2.elim
    have first : Complete s ↔ s.finSeen = true ∧ s.finalSize = some r.stop ∧ rest = [] := by
      rw [Complete,ranges]
      cases rest with
      | nil => exact ⟨fun whole => ⟨whole.2.1,whole.2.2.2,rfl⟩,fun whole => ⟨reset,whole.1,begins,whole.2.1⟩⟩
      | cons => exact ⟨fun whole => whole.2.2.elim,fun whole => absurd whole.2.2 (List.cons_ne_nil _ _)⟩
    have read : Terminated u ↔ Terminated s ∨ Complete s := ends'.trans (or_congr_right first.symm)
    have more : Complete u → Terminated u := fun complete => ends'.mpr (.inr (last (whole'.mp complete)))
    obtain rfl := Option.some.inj ok
    split
    · rename_i compacted
      have done : Terminated u.compact := .inl compacted.1
      exact ⟨⟨fun _ => read.mp (.inl compacted.1),fun _ => .inl done⟩,fun _ _ => done,fun _ => Nat.succ_pos _⟩
    · refine ⟨⟨fun either => read.mp (either.elim id more),fun either => .inl (read.mpr either)⟩,fun _ either => either.elim id more,
        fun _ => ?_⟩
      rw [kept']
      exact Nat.lt_succ_self _

/-- Read to its end, a stream is terminated just in case nothing was missing. -/
theorem drain_ready {turns : Nat} {s : RecvStream} (sound : s.Sound) (enough : s.ranges.length < turns) :
    (drain turns s).Sound ∧ (Terminated (drain turns s) ↔ Terminated s ∨ Complete s) ∧
      (Complete (drain turns s) → Terminated (drain turns s)) := by
  induction turns generalizing s with
  | zero => omega
  | succ turns ih =>
    obtain ⟨t,ok,sound',_⟩ := sound.consume le_rfl
    obtain ⟨same,ends,shorter⟩ := consume_ready sound ok
    unfold drain
    rw [ok]
    dsimp only
    split
    · rename_i none
      exact ⟨sound',⟨fun done => same.mp (.inl done),fun either => ends none (same.mpr either)⟩,fun whole => ends none (.inr whole)⟩
    · rename_i some
      obtain ⟨sound'',both,whole⟩ := ih sound' (by have := shorter some; omega)
      exact ⟨sound'',both.trans same,whole⟩

theorem discardStopped_ready (id : Nat) (halves : ∀ id, (conn.half id).recv.Sound) :
    let mid := if (conn.half id).recvStopped then conn.discardStopped id else conn
    (∀ id, (mid.half id).recv.Sound) ∧ mid.ready = conn.ready ∧ mid.flow = conn.flow ∧
      recvFullyTerminated (mid.half id) = recvReady (conn.half id) := by
  dsimp only
  split
  swap
  · rename_i running
    refine ⟨halves,rfl,rfl,?_⟩
    unfold recvReady
    rw [Bool.eq_false_iff.mpr running,Bool.false_and,Bool.or_false]
  rename_i stopped
  obtain ⟨sound,both,whole⟩ := drain_ready (halves id) (Nat.lt_succ_self (conn.half id).recv.ranges.length)
  have flow := discardTurns_flow id ((conn.half id).recv.ranges.length+1) conn
  have half := discardTurns_half id ((conn.half id).recv.ranges.length+1) conn
  change (conn.discardStopped id).flow = conn.flow at flow
  change (conn.discardStopped id).half = _ at half
  generalize drain _ (conn.half id).recv = t at sound both whole half
  have ends : recvFullyTerminated {conn.half id with recv := t} = recvReady (conn.half id) := by
    unfold recvReady recvFullyTerminated
    rw [stopped,Bool.true_and,Bool.eq_iff_iff,Bool.or_eq_true,decide_eq_true_iff,decide_eq_true_iff,decide_eq_true_iff]
    exact both
  have again : recvReady {conn.half id with recv := t} = recvReady (conn.half id) := by
    rw [← ends]
    unfold recvReady
    rw [Bool.or_eq_left_iff_imp,Bool.and_eq_true]
    intro more
    exact decide_eq_true (whole (of_decide_eq_true more.2))
  refine ⟨fun other => ?_,funext fun other => ?_,flow,?_⟩
  · rw [half]
    by_cases same : other = id
    · rw [same,Function.update_self]
      exact sound
    · rw [Function.update_of_ne same]
      exact halves other
  · unfold Connection.ready
    rw [flow,half]
    by_cases same : other = id
    · rw [same,Function.update_self,again]
    · rw [Function.update_of_ne same]
  · rw [half,Function.update_self]
    exact ends

theorem collectGc_batch (candidates : List Nat) (room : Nat) (conn : Connection) (halves : ∀ id, (conn.half id).recv.Sound) :
    (Connection.collectGc room candidates conn).1 = (candidates.filter conn.ready).take room := by
  induction candidates generalizing room conn with
  | nil => exact List.take_nil.symm
  | cons id rest ih =>
    unfold Connection.collectGc
    rw [List.filter_cons]
    cases found : conn.flow.get id with
    | none =>
      have absent : conn.ready id = false := by
        unfold Connection.ready
        rw [found]
      rw [absent]
      exact ih room conn halves
    | some s =>
      dsimp only
      have read := discardStopped_ready id halves
      generalize (if (conn.half id).recvStopped then conn.discardStopped id else conn) = mid at read ⊢
      obtain ⟨halves',same,flow,ends⟩ := read
      have ready : mid.streamFullyTerminated s = conn.ready id := by
        unfold Connection.streamFullyTerminated Connection.ready
        rw [found,(get_named found).1,ends,flow]
      rw [ready]
      cases conn.ready id with
      | false =>
        rw [← same]
        exact ih room mid halves'
      | true =>
        cases room with
        | zero => rfl
        | succ room =>
          have rest' := ih room mid halves'
          rw [same] at rest'
          exact congrArg (id :: ·) rest'

/-- The cleanup leaves a dead name just in case it reclaims a stream that a list names. -/
theorem gcClosedStreams_living (housed : Housed conn) (living : Living conn) (candidates : List Nat) :
    Living (conn.gcClosedStreams candidates) ↔ ¬ ∃ id ∈ (candidates.filter conn.ready).take gcBatch,
      id ∈ ids conn.blocked.localStreamDataBlocked ∨ id ∈ ids conn.blocked.peerStreamDataBlocked := by
  rw [← collectGc_batch candidates gcBatch conn housed.halves]
  unfold Connection.gcClosedStreams
  have named := collectGc_names candidates gcBatch conn housed
  have blocked := collectGc_blocked candidates gcBatch conn
  generalize Connection.collectGc gcBatch candidates conn = outcome at named blocked ⊢
  obtain ⟨batch,mid⟩ := outcome
  dsimp only at named blocked ⊢
  have blocked' : (batch.foldl Connection.retire mid).blocked = conn.blocked := (retireAll_shrunk batch mid).blocked.trans blocked
  have left : ∀ id, id ∈ names (batch.foldl Connection.retire mid) ↔ id ∈ names conn ∧ id ∉ batch := by
    intro id
    rw [retireAll_names,named]
  constructor
  · rintro ⟨localLive,peerLive,_,_⟩ ⟨id,gone,listed⟩
    rw [blocked'] at localLive peerLive
    rcases listed with listed | listed
    · exact ((left id).mp (localLive id listed)).2 gone
    · exact ((left id).mp (peerLive id listed)).2 gone
  · intro spared
    refine ⟨fun id there => ?_,fun id there => ?_,?_,?_⟩ <;> rw [blocked'] at *
    · exact (left id).mpr ⟨living.localLive id there,fun gone => spared ⟨id,gone,.inl there⟩⟩
    · exact (left id).mpr ⟨living.peerLive id there,fun gone => spared ⟨id,gone,.inr there⟩⟩
    · exact living.localOnce
    · exact living.peerOnce

theorem Same.living {conn after : Connection} (same : Same conn after) (living : Living conn) : Living after := by
  obtain ⟨localLive,peerLive,localOnce,peerOnce⟩ := living
  unfold names at localLive peerLive
  rw [← same.streams,← same.blocked] at localLive peerLive
  rw [← same.blocked] at localOnce peerOnce
  exact ⟨localLive,peerLive,localOnce,peerOnce⟩

theorem upsert_adds {granted changed : Bool} {list after : Entries} {item : Frame.StreamDataBlocked}
    (outcome : upsertStreamBlocked granted list item = (.ok changed,after)) (absent : item.streamId ∉ ids list) :
    list.length < maxTrackedStreamDataBlocked ∧ granted = true := by
  unfold upsertStreamBlocked at outcome
  rw [find_none.mpr absent] at outcome
  dsimp only at outcome
  split_ifs at outcome with full refused
  · cases outcome
  · cases outcome
  · exact ⟨not_le.mp full,by simpa using refused⟩

theorem handleStreamDataBlocked_living (living : Living conn) (granted : Bool) {sdb : Frame.StreamDataBlocked}
    (dead : conn.flow.get sdb.streamId = none) : Living (conn.handleStreamDataBlocked granted sdb).2 ↔
      ¬ (streamInitiatedByLocal conn.flow.role sdb.streamId = false ∧ conn.beyondLocalLimit sdb.streamId = none ∧
        conn.blocked.peerStreamDataBlocked.length < maxTrackedStreamDataBlocked ∧ granted = true) := by
  have absent : sdb.streamId ∉ names conn := by
    rw [mem_names,dead]
    exact Bool.false_ne_true
  have unlisted : sdb.streamId ∉ ids conn.blocked.peerStreamDataBlocked := fun there => absent (living.peerLive _ there)
  have closes : ∀ code reason, Living (conn.close code reason) := fun code reason => (close_same conn code reason).living living
  unfold Connection.handleStreamDataBlocked
  rw [dead]
  split
  · rename_i mute
    refine iff_of_true (closes _ _) fun noted => ?_
    unfold peerMaySendOnStream at mute
    rw [noted.1] at mute
    simp at mute
  split
  · rename_i beyond
    refine iff_of_true (closes _ _) fun noted => ?_
    have within := noted.2.1
    unfold Connection.beyondLocalLimit at within
    dsimp only at within
    rw [if_pos beyond] at within
    cases within
  cases ours : streamInitiatedByLocal conn.flow.role sdb.streamId with
  | true => exact iff_of_true living fun noted => Bool.false_ne_true noted.1.symm
  | false =>
    simp only [Option.isNone_none,Bool.true_and,Bool.false_eq_true,if_false,if_true]
    cases beyond : conn.beyondLocalLimit sdb.streamId with
    | some why => exact iff_of_true (closes _ _) fun noted => (nomatch noted.2.1)
    | none =>
      dsimp only
      have spec := upsert_spec granted conn.blocked.peerStreamDataBlocked sdb
      rcases outcome : upsertStreamBlocked granted conn.blocked.peerStreamDataBlocked sdb with ⟨result,list⟩
      rw [outcome] at spec
      cases result with
      | error e =>
        cases e with
        | streamLimitExceeded => exact iff_of_true (closes _ _) fun noted => absurd noted.2.2.1 (not_lt.mpr spec.2.2)
        | outOfMemory =>
          refine iff_of_true living fun noted => ?_
          rw [spec.2.2.2] at noted
          exact Bool.false_ne_true noted.2.2.2
      | ok changed =>
        obtain ⟨room,memory⟩ := upsert_adds outcome unlisted
        refine iff_of_false (fun after => absent (after.peerLive _ ?_)) fun spared => spared ⟨trivial,rfl,room,memory⟩
        dsimp only at spec ⊢
        rw [spec,if_neg unlisted]
        exact List.mem_append_right _ List.mem_cons_self

theorem step_living {h : History} (kept : Kept h) (living : Living h.conn) (e : Event) :
    Living (step h e).conn ↔ ¬ Strands h.conn e := by
  change Living (h.conn.act e).2 ↔ _
  by_cases takes : h.conn.takes e = true
  swap
  · have still : h.conn.act e = (.ok (),h.conn) := if_neg takes
    rw [still]
    refine iff_of_true living fun strands => ?_
    unfold Strands at strands
    split at strands
    · rename_i cleans
      refine takes ?_
      unfold Connection.takes
      rw [cleans]
      exact Bool.or_true _
    · exact takes strands.1
    · exact strands
  have taken : h.conn.act e = h.conn.apply e := if_pos takes
  rw [taken]
  obtain ⟨call,grants,notes,behind⟩ := e
  by_cases cleans : ∃ candidates, call = .gcClosedStreams candidates
  · obtain ⟨candidates,rfl⟩ := cleans
    exact gcClosedStreams_living kept.housed living candidates
  by_cases dead : ∃ sdb, call = .streamDataBlocked sdb ∧ h.conn.flow.get sdb.streamId = none
  · obtain ⟨sdb,rfl,none⟩ := dead
    have noted := handleStreamDataBlocked_living living (grants 0 0) none
    refine noted.trans (not_congr ⟨fun rest => ⟨takes,none,rest⟩,fun strands => strands.2.2⟩)
  · have spared : ¬ Strands h.conn ⟨call,grants,notes,behind⟩ := by
      intro strands
      unfold Strands at strands
      split at strands
      · rename_i same
        exact cleans ⟨_,same⟩
      · rename_i same
        exact dead ⟨_,same,strands.2.1⟩
      · exact strands
    let terms : Terms := ⟨((names h.conn ++ call.subject.toList).dedup).filter (peerMaySendOnStream h.conn.flow.role),False,True⟩
    have accounts := @apply_accounts terms h.conn kept.housed ((List.nodup_dedup _).filter _) ⟨call,grants,notes,behind⟩
      (fun id may there => List.mem_filter.mpr ⟨by simpa using there,may⟩) (fun absurd => absurd.elim)
      (fun candidates same => cleans ⟨candidates,same⟩)
      (fun _ sdb same => by
        rw [mem_names]
        by_contra absent
        exact dead ⟨sdb,same,by simpa using absent⟩) takes
    obtain ⟨charged,risen,up,back,onward,_⟩ := accounts.turn
    exact iff_of_true (onward.living trivial living) spared

end

/-- The lists name live streams only just in the runs where no stream is reclaimed that a list names, and no
STREAM_DATA_BLOCKED frame comes for a stream of the peer that is not there. -/
theorem blocked_lists_live (start : History) (events : List Event) (fresh : Fresh start) :
    System.Throughout Tracked step start events ↔ System.Admits step (fun h e => ¬ Strands h.conn e) start events := by
  obtain ⟨kept,_,_,_⟩ := kept_fresh fresh
  have empty : Living start.conn := by
    obtain ⟨role,params,memory,send,cap,follows,tunes,stream,conn,normal,rfl⟩ := fresh
    exact ⟨fun id there => (nomatch there),fun id there => (nomatch there),List.nodup_nil,List.nodup_nil⟩
  refine @System.throughout_iff _ _ step (fun _ _ => True) Kept _ _ ?_ ?_ start events kept empty.tracked
    (System.Admits.of_forall (fun _ _ => trivial) start)
  · intro h e kept _
    obtain ⟨charged,risen,booked⟩ := @step_booked False h kept e fun absurd => absurd.elim
    exact booked.kept
  · intro h e kept tracked _
    exact ⟨fun after => (step_living kept tracked.living e).mp after.living,fun spared => ((step_living kept tracked.living e).mpr
      spared).tracked⟩

instance (conn : Connection) (e : Event) : Decidable (Strands conn e) := by
  obtain ⟨call,grants,notes,behind⟩ := e
  delta Strands
  dsimp only
  split <;> infer_instance

/-- What a server announces whose streams take two bytes before they need credit. -/
def tight : History :=
  {conn := start .server {initialMaxData := 16,initialMaxStreamDataUni := 2,initialMaxStreamsUni := 8} (32*1024*1024)}

theorem tight_fresh : Fresh tight :=
  ⟨.server,_,32*1024*1024,SendStream.defaultMaxBufferedSend,16*1024*1024,true,true,8*1024*1024,16*1024*1024,
    ⟨by decide,by decide,by decide,by decide,by decide,by decide,by decide⟩,rfl⟩

/-- The peer is blocked, gets credit for what is read, finishes, and its stream is reclaimed. -/
theorem blocked_lists_live_credited :
    System.Throughout Tracked step tight
      [{call := .stream {streamId := 2,offset := 0,data := [1,2],hasOffset := true,hasLength := true,fin := false} (by decide) (by decide)},
       {call := .streamDataBlocked {streamId := 2,maximumStreamData := 2}},{call := .streamRead 2 2},
       {call := .stream {streamId := 2,offset := 2,data := [3],hasOffset := true,hasLength := true,fin := true} (by decide) (by decide)},
       {call := .streamRead 2 2},{call := .gcClosedStreams [2]}] :=
  (blocked_lists_live tight _ tight_fresh).mpr (by decide +kernel)

/-- The peer is blocked, gives its stream up, and the stream is reclaimed: the list still names it. -/
theorem reclaimed_stays_listed :
    ¬ System.Throughout Tracked step tight
      [{call := .stream {streamId := 2,offset := 0,data := [1,2],hasOffset := true,hasLength := true,fin := false} (by decide) (by decide)},
       {call := .streamDataBlocked {streamId := 2,maximumStreamData := 2}},
       {call := .resetStream {streamId := 2,applicationErrorCode := 0,finalSize := 2}},{call := .streamRead 2 2},
       {call := .gcClosedStreams [2]}] := by
  intro all
  have named := all.last.peerRoom
  revert named
  decide +kernel

end QuicZig.Conn.Inbound
