import QuicZig.Conn.InboundTurns

/-! A receive buffer that grows is charged for its growth after it has grown, and the
buffers give back their consumed prefixes before the budget says no. -/
namespace QuicZig.Conn.Inbound
open Machine Paths Streams SendFlow Ledger BlockedStreams

/-- The bytes that a compaction gives back. -/
def slack (conn : Connection) : Nat :=
  total (fun h : RecvHalf => h.recv.bufStart) conn.half ((names conn).filter (peerMaySendOnStream conn.flow.role))

/-- The buffer of `id` holds `grew` bytes that the budget is not charged for yet. -/
structure Owing (id grew : Nat) (conn : Connection) : Prop where
  owed : conn.resident.bytesResident+grew = conn.residentBytesSum
  behind : (conn.half id).recv.bufStart+grew ≤ (conn.half id).recv.bytes.length
  known : grew = 0 ∨ id ∈ names conn

section
variable {id grew : Nat} {conn : Connection}

theorem Owing.charged (owing : Owing id grew conn) (once : (names conn).Nodup) {other : Nat} (there : other ∈ names conn)
    (start : (conn.half other).recv.bufStart ≤ (conn.half other).recv.bytes.length) :
    (conn.half other).recv.bufStart ≤ conn.resident.bytesResident := by
  obtain ⟨owed,behind,known⟩ := owing
  have part := length_le_sum there
  by_cases same : other = id
  · subst same
    omega
  · rcases known with rfl | member
    · omega
    · have kept : id ∈ (names conn).filter (· ≠ other) := by
        simpa using ⟨member,fun equal : id = other => same equal.symm⟩
      have rest : total recvBytes conn.half ((names conn).filter (· ≠ other))+recvBytes (conn.half other) =
          total recvBytes conn.half (names conn) := total_erase once there
      have mine : recvBytes (conn.half id) ≤ total recvBytes conn.half ((names conn).filter (· ≠ other)) := worth_le_total kept
      have whole := residentBytesSum_eq conn
      unfold recvBytes at rest mine whole
      omega

theorem Owing.compact (owing : Owing id grew conn) (once : (names conn).Nodup) {other : Nat} (there : other ∈ names conn)
    (sound : (conn.half other).recv.Sound) :
    let after := conn.shrinkRecv other (conn.half other).recv.compactPrefix
    Owing id grew after ∧ after.resident.bytesResident+(conn.half other).recv.bufStart = conn.resident.bytesResident := by
  intro after
  have start := sound.start
  have charged := owing.charged once there start
  obtain ⟨sound',kept,_,length⟩ := sound.compactPrefix
  have half : after.half = Function.update conn.half other {conn.half other with recv := (conn.half other).recv.compactPrefix} := rfl
  have sum := half_sum once there (show after.flow = conn.flow from rfl) half rfl rfl
  have counter : after.resident.bytesResident =
      conn.resident.bytesResident-((conn.half other).recv.bytes.length-(conn.half other).recv.compactPrefix.bytes.length) := rfl
  dsimp only at sum
  have released : after.resident.bytesResident+(conn.half other).recv.bufStart = conn.resident.bytesResident := by omega
  refine ⟨⟨?_,?_,owing.known⟩,released⟩
  · have owed := owing.owed
    omega
  · have behind := owing.behind
    rw [half]
    by_cases same : id = other
    · subst same
      rw [Function.update_self]
      have begins : (conn.half id).recv.compactPrefix.bufStart = 0 := by
        obtain ⟨bytes,compacted,_⟩ := (conn.half id).recv.compactPrefix_fields
        rw [compacted]
      dsimp only
      omega
    · rw [Function.update_of_ne same]
      exact behind

theorem Owing.compactAll (ids : List Nat) (once : (names conn).Nodup) (apart : ids.Nodup) (there : ∀ other ∈ ids, other ∈ names conn)
    (halves : ∀ other, (conn.half other).recv.Sound) (owing : Owing id grew conn) :
    let after := ids.foldl (fun conn id =>
      if peerMaySendOnStream conn.flow.role id then conn.shrinkRecv id (conn.half id).recv.compactPrefix else conn) conn
    Owing id grew after ∧ after.resident.maxConnectionMemory = conn.resident.maxConnectionMemory ∧
      after.resident.bytesResident+total (fun h : RecvHalf => h.recv.bufStart) conn.half
        (ids.filter (peerMaySendOnStream conn.flow.role)) = conn.resident.bytesResident := by
  induction ids generalizing conn with
  | nil => exact ⟨owing,rfl,rfl⟩
  | cons other rest ih =>
    obtain ⟨absent,apart⟩ := List.nodup_cons.mp apart
    have later : ∀ x ∈ rest, x ∈ names conn := fun x member => there x (List.mem_cons_of_mem _ member)
    rw [List.foldl_cons]
    by_cases may : peerMaySendOnStream conn.flow.role other = true
    · rw [if_pos may,List.filter_cons_of_pos may,total_cons]
      obtain ⟨owing',released⟩ := owing.compact once (there other List.mem_cons_self) (halves other)
      have halves' : ∀ x, ((conn.shrinkRecv other (conn.half other).recv.compactPrefix).half x).recv.Sound := by
        intro x
        change (Function.update conn.half other _ x).recv.Sound
        by_cases same : x = other
        · rw [same,Function.update_self]
          exact (halves other).compactPrefix.1
        · rw [Function.update_of_ne same]
          exact halves x
      have once' : (names (conn.shrinkRecv other (conn.half other).recv.compactPrefix)).Nodup := once
      obtain ⟨last,limit,counter⟩ := ih once' apart later halves' owing'
      refine ⟨last,limit,?_⟩
      have still : total (fun h : RecvHalf => h.recv.bufStart) (conn.shrinkRecv other (conn.half other).recv.compactPrefix).half
            (rest.filter (peerMaySendOnStream (conn.shrinkRecv other (conn.half other).recv.compactPrefix).flow.role)) =
          total (fun h : RecvHalf => h.recv.bufStart) conn.half (rest.filter (peerMaySendOnStream conn.flow.role)) :=
        total_update_out (fun member => absent (List.mem_of_mem_filter member)) _
      rw [still] at counter
      omega
    · rw [if_neg may,List.filter_cons_of_neg may]
      exact ih once apart later halves owing

/-- All of them do. -/
theorem Owing.compactPrefixes (housed : Housed conn) (owing : Owing id grew conn) :
    Owing id grew conn.compactReceivePrefixes ∧
      conn.compactReceivePrefixes.resident.maxConnectionMemory = conn.resident.maxConnectionMemory ∧
      conn.compactReceivePrefixes.resident.bytesResident+slack conn = conn.resident.bytesResident :=
  owing.compactAll (names conn) housed.once housed.once (fun _ member => member) housed.halves

end

theorem reserve_none_iff {m : Resident} {n : Nat} :
    m.tryReserveResidentBytes n = none ↔ n ≠ 0 ∧ m.maxConnectionMemory < m.bytesResident+n := by
  unfold Resident.tryReserveResidentBytes
  by_cases zero : n = 0
  · rw [if_pos zero]
    exact ⟨fun some => (nomatch some),fun both => absurd zero both.1⟩
  · rw [if_neg zero]
    split
    · exact ⟨fun _ => ⟨zero,by omega⟩,fun _ => rfl⟩
    · exact ⟨fun some => (nomatch some),fun both => by omega⟩

def Terms.unfunded (terms : Terms) : Terms := {terms with fits := False}

section
variable {terms : Terms} {charged risen up back : Nat} {conn after : Connection}

theorem Effect.evenly (effect : Effect terms.unfunded charged risen up back conn after)
    (even : terms.fits → Housed conn → Balanced conn → Balanced after) : Effect terms charged risen up back conn after :=
  ⟨effect.role,effect.ids,effect.named,effect.buffers,effect.halves,effect.others,effect.stopped,effect.sent,effect.reached,
    effect.finished,effect.read,effect.limit,effect.blocked,even⟩

theorem resident_effect (conn : Connection) (resident : Resident) :
    Effect terms.unfunded 0 0 0 0 conn {conn with resident := resident} :=
  ⟨rfl,.refl _,rfl,fun sound => sound,fun sound => sound,fun _ _ => rfl,fun _ => .inl,rfl,rfl,rfl,rfl,le_rfl,
    fun _ => .refl _ _,fun fits => fits.elim⟩

end

section
variable {terms : Terms} {conn : Connection} {id offset : Nat} {data : List Byte} {t : RecvStream}

theorem grown_owing (housed : Housed conn) (balanced : Balanced conn) (there : id ∈ names conn)
    (took : RecvStream.Took offset data (conn.half id).recv t) :
    Owing id (t.bytes.length-(conn.half id).recv.bytes.length) (conn.setRecv id t) := by
  have half : (conn.setRecv id t).half = Function.update conn.half id {conn.half id with recv := t} := rfl
  have sum := half_sum housed.once there (show (conn.setRecv id t).flow = conn.flow from rfl) half rfl rfl
  have before := balanced.resident
  have start := (housed.halves id).start
  have grown := took.grown
  refine ⟨?_,?_,.inr there⟩
  · change conn.resident.bytesResident+_ = _
    dsimp only at sum
    omega
  · rw [half,Function.update_self]
    dsimp only
    rw [took.bufStart]
    omega

theorem slack_grown (took : RecvStream.Took offset data (conn.half id).recv t) : slack (conn.setRecv id t) = slack conn := by
  unfold slack
  refine total_congr fun other _ => ?_
  change (Function.update conn.half id {conn.half id with recv := t} other).recv.bufStart = _
  by_cases same : other = id
  · rw [same,Function.update_self]
    exact took.bufStart
  · rw [Function.update_of_ne same]

theorem Owing.settled {grew : Nat} (owing : Owing id grew conn)
    (counted : ∀ lvl, (conn.crypto lvl).cryptoPendingBytes = ((conn.crypto lvl).cryptoPending.map (·.data.length)).sum)
    {resident : Resident} (charged : resident.bytesResident = conn.resident.bytesResident+grew) :
    Balanced {conn with resident := resident} :=
  ⟨charged.trans owing.owed,counted⟩

theorem grown_effect (once : terms.keys.Nodup) (counted : id ∈ terms.keys) (there : id ∈ names conn) (sound : t.Sound)
    (took : RecvStream.Took offset data (conn.half id).recv t) (running : (conn.half id).recv.reset = none) (running' : t.reset = none) :
    Effect terms.unfunded 0 (offset+data.length-(conn.half id).recv.endOffset) 0 0 conn (conn.setRecv id t) := by
  have flow : (conn.setRecv id t).flow = conn.flow := rfl
  have half : (conn.setRecv id t).half = Function.update conn.half id {conn.half id with recv := t} := rfl
  have even : terms.unfunded.fits → Housed conn → Balanced conn → Balanced (conn.setRecv id t) := False.elim
  have once' : terms.unfunded.keys.Nodup := once
  refine half_effect_counted there flow half (fun _ => sound) .inl rfl rfl rfl rfl even once' counted ?_ ?_
  · unfold RecvStream.highWater
    rw [running,running']
    have reach := took.reach
    dsimp only
    omega
  · unfold RecvStream.doneWith
    rw [running,running']
    exact took.read

theorem compacted_effect (housed : Housed conn) : Effect terms.unfunded 0 0 0 0 conn conn.compactReceivePrefixes :=
  compactReceivePrefixes_effect conn housed.halves

theorem compact_crypto (conn : Connection) : conn.compactReceivePrefixes.crypto = conn.crypto := by
  have walk : ∀ (ids : List Nat) (mid : Connection), (ids.foldl (fun conn id =>
      if peerMaySendOnStream conn.flow.role id then conn.shrinkRecv id (conn.half id).recv.compactPrefix else conn) mid).crypto =
        mid.crypto := by
    intro ids
    induction ids with
    | nil => exact fun _ => rfl
    | cons id rest ih =>
      intro mid
      rw [List.foldl_cons,ih]
      split <;> rfl
  exact walk _ conn

theorem residentBytesSum_resident (conn : Connection) (resident : Resident) :
    Connection.residentBytesSum {conn with resident := resident} = conn.residentBytesSum := rfl

/-- What is done about the buffer of a frame that was taken, where the bytes that are held fit into the counter. -/
theorem growRecv_effect (housed : Housed conn) (once : terms.keys.Nodup) (counted : id ∈ terms.keys) (there : id ∈ names conn)
    (sound : t.Sound) (took : RecvStream.Took offset data (conn.half id).recv t) (running : (conn.half id).recv.reset = none)
    (running' : t.reset = none) (fits : (conn.growRecv id t).1 = false → terms.fits → (conn.growRecv id t).2.residentBytesSum ≤ maxU64) :
    Effect terms 0 (offset+data.length-(conn.half id).recv.endOffset) 0 0 conn (conn.growRecv id t).2 := by
  have first := grown_effect once counted there sound took running running'
  have housed' : Housed (conn.setRecv id t) := first.housed housed
  have owing : Balanced conn → Owing id (t.bytes.length-(conn.half id).recv.bytes.length) (conn.setRecv id t) :=
    fun balanced => grown_owing housed balanced there took
  have second : Effect terms.unfunded 0 0 0 0 (conn.setRecv id t) (conn.setRecv id t).compactReceivePrefixes :=
    compacted_effect housed'
  unfold Connection.growRecv at fits ⊢
  dsimp only at fits ⊢
  split
  · rename_i resident ok
    refine Effect.evenly ?_ fun _ _ balanced => (owing balanced).settled balanced.counted (by rw [Resident.reserved ok])
    exact first.trans (resident_effect _ resident)
  rename_i none
  rw [none] at fits
  dsimp only at fits
  have owing' : Balanced conn → Owing id (t.bytes.length-(conn.half id).recv.bytes.length)
      (conn.setRecv id t).compactReceivePrefixes := fun balanced => ((owing balanced).compactPrefixes housed').1
  have levels : (conn.setRecv id t).compactReceivePrefixes.crypto = conn.crypto := compact_crypto _
  have both := first.trans second
  split
  · rename_i resident ok
    refine Effect.evenly ?_ fun _ _ balanced => (owing' balanced).settled (levels ▸ balanced.counted) (by rw [Resident.reserved ok])
    exact both.trans (resident_effect _ resident)
  · rename_i none
    rw [none] at fits
    dsimp only at fits
    refine Effect.evenly ?_ fun fit _ balanced => ?_
    · exact (both.trans (resident_effect _ _)).trans (close_same _ _ _).effect
    · have closed := close_same {(conn.setRecv id t).compactReceivePrefixes with
        resident := (conn.setRecv id t).compactReceivePrefixes.resident.concedeResidentBytes
          (t.bytes.length-(conn.half id).recv.bytes.length)} transportErrorExcessiveLoad "excessive resource use"
      have room := fits rfl fit
      rw [closed.residentBytesSum,residentBytesSum_resident,← (owing' balanced).owed] at room
      refine closed.balanced ((owing' balanced).settled (levels ▸ balanced.counted) ?_)
      unfold Resident.concedeResidentBytes saturatingAdd
      exact min_eq_left room

/-- The frame is refused only where the budget has no room for it even without the consumed prefixes. -/
theorem growRecv_refused (housed : Housed conn) (balanced : Balanced conn) (there : id ∈ names conn) (sound : t.Sound)
    (took : RecvStream.Took offset data (conn.half id).recv t) : (conn.growRecv id t).1 = false ↔
      t.bytes.length-(conn.half id).recv.bytes.length ≠ 0 ∧ conn.resident.maxConnectionMemory+slack conn <
        conn.resident.bytesResident+(t.bytes.length-(conn.half id).recv.bytes.length) := by
  have halves : ∀ other, ((conn.setRecv id t).half other).recv.Sound := by
    intro other
    change (Function.update conn.half id {conn.half id with recv := t} other).recv.Sound
    by_cases same : other = id
    · rw [same,Function.update_self]
      exact sound
    · rw [Function.update_of_ne same]
      exact housed.halves other
  have owing := grown_owing housed balanced there took
  have once : (names (conn.setRecv id t)).Nodup := housed.once
  obtain ⟨_,limit,released⟩ := owing.compactAll (names conn) once housed.once (fun _ member => member) halves
  have slack' : slack (conn.setRecv id t) = slack conn := slack_grown took
  change (Connection.compactReceivePrefixes (conn.setRecv id t)).resident.maxConnectionMemory = conn.resident.maxConnectionMemory
    at limit
  change (Connection.compactReceivePrefixes (conn.setRecv id t)).resident.bytesResident+slack (conn.setRecv id t) =
    conn.resident.bytesResident at released
  rw [slack'] at released
  unfold Connection.growRecv
  dsimp only
  split
  · rename_i resident ok
    have room : ¬ (conn.setRecv id t).resident.tryReserveResidentBytes
        (t.bytes.length-(conn.half id).recv.bytes.length) = none := by rw [ok]; simp
    rw [reserve_none_iff] at room
    change ¬ (_ ∧ conn.resident.maxConnectionMemory < conn.resident.bytesResident+_) at room
    exact ⟨fun refused => (nomatch refused),fun ⟨more,past⟩ => absurd ⟨more,by omega⟩ room⟩
  · split
    · rename_i resident ok
      have room : ¬ (conn.setRecv id t).compactReceivePrefixes.resident.tryReserveResidentBytes
          (t.bytes.length-(conn.half id).recv.bytes.length) = none := by rw [ok]; simp
      rw [reserve_none_iff] at room
      exact ⟨fun refused => (nomatch refused),fun ⟨more,past⟩ => absurd ⟨more,by omega⟩ room⟩
    · rename_i none
      obtain ⟨more,past⟩ := reserve_none_iff.mp none
      exact ⟨fun _ => ⟨more,by omega⟩,fun _ => rfl⟩

theorem settleRecv_effect (housed : Housed conn) (once : terms.keys.Nodup) (counted : id ∈ terms.keys) (there : id ∈ names conn)
    (sound : t.Sound) (took : RecvStream.Took offset data (conn.half id).recv t) (running : (conn.half id).recv.reset = none)
    (running' : t.reset = none) (fits : (conn.settleRecv id t).1 = false → terms.fits → (conn.settleRecv id t).2.residentBytesSum ≤ maxU64) :
    Effect terms 0 (offset+data.length-(conn.half id).recv.endOffset) 0 0 conn (conn.settleRecv id t).2 := by
  unfold Connection.settleRecv at fits ⊢
  split
  · rename_i longer
    rw [if_pos longer] at fits
    exact growRecv_effect housed once counted there sound took running running' fits
  · rename_i same
    refine Effect.evenly ?_ fun _ _ balanced => shrinkRecv_balanced housed.once there (not_lt.mp same) balanced
    exact (grown_effect once counted there sound took running running').trans (resident_effect _ _)

theorem settleRecv_refused (housed : Housed conn) (balanced : Balanced conn) (there : id ∈ names conn) (sound : t.Sound)
    (took : RecvStream.Took offset data (conn.half id).recv t) : (conn.settleRecv id t).1 = false ↔
      (conn.half id).recv.bytes.length < t.bytes.length ∧ conn.resident.maxConnectionMemory+slack conn <
        conn.resident.bytesResident+(t.bytes.length-(conn.half id).recv.bytes.length) := by
  unfold Connection.settleRecv
  split
  · rename_i longer
    rw [growRecv_refused housed balanced there sound took]
    exact and_congr_left fun _ => ⟨fun _ => longer,fun _ => by omega⟩
  · rename_i same
    exact ⟨fun refused => (nomatch refused),fun both => absurd both.1 same⟩

theorem reconcile_same (conn : Connection) (id : Nat) : conn.reconcileRecvResidentBytes id (conn.half id).recv = conn := by
  have half : Function.update conn.half id {conn.half id with recv := (conn.half id).recv} = conn.half :=
    Function.update_eq_self id conn.half
  unfold Connection.reconcileRecvResidentBytes Connection.setRecv Connection.modifyHalf
  rw [half]
  simp only [lt_irrefl,if_false]

end

end QuicZig.Conn.Inbound
