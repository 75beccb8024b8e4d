import QuicZig.Conn.SendCredit
import QuicZig.Conn.StreamCreditRun

/-! Runs in which the peer gives credit: the levels are what it said as long as the
parameters, when they are applied again, undercut nothing. -/
namespace QuicZig.Conn.SendFlow
open Machine Paths Streams HighWater Wire

/-- What every call leaves of the ids, the streams and the peer's blob. -/
structure Steady (conn after : Connection) : Prop where
  role : after.role = conn.role
  sound : conn.ids.Sound → after.ids.Sound
  used : ∀ id, conn.ids.Used conn.role id → after.ids.Used conn.role id
  blob : ∀ blob, conn.peerQuicTransportParams = some blob → after.peerQuicTransportParams = some blob
  live : ∀ id, (after.get id).isSome → (conn.get id).isSome

theorem Keeps.steady {conn after : Connection} (keeps : Keeps conn after) : Steady conn after := by
  refine ⟨keeps.role,keeps.sound,keeps.used,keeps.blob,fun id there => ?_⟩
  obtain ⟨s,found⟩ := Option.isSome_iff_exists.mp there
  have level := keeps.level (.streamData id) s.sendMaxData (by rw [level_streamData,found]; rfl)
  rw [level_streamData] at level
  cases before : conn.get id with
  | none => simp [before] at level
  | some _ => rfl

theorem Raises.steady {c : Credit} {value : Nat} {conn after : Connection} (raises : Raises c value conn after) :
    Steady conn after := by
  refine ⟨raises.role,raises.sound,raises.used,fun _ there => raises.blob.trans there,fun id there => ?_⟩
  have level := raises.level (.streamData id)
  rw [level_streamData,level_streamData] at level
  cases before : conn.get id with
  | some _ => rfl
  | none =>
    obtain ⟨s,found⟩ := Option.isSome_iff_exists.mp there
    rw [before,found] at level
    split at level <;> cases level

/-- What a history keeps whatever happens: who had a stream, what was noted, and where the parameters came from. -/
structure Ledger (h : History) : Prop where
  ids : h.conn.ids.Sound
  live : ∀ id, (h.conn.get id).isSome → h.conn.ids.Used h.conn.role id
  noted : ∀ id value, (.streamData id,value) ∈ h.told → h.conn.ids.Used h.conn.role id ∧ value ≤ Varint.maxValue
  decoded : ∀ params, h.conn.cachedPeerTransportParams = some params →
    ∃ blob, h.conn.peerQuicTransportParams = some blob ∧ Tls.TransportParams.decode blob = .ok params
  applied : h.applied = true → ∃ params, h.conn.cachedPeerTransportParams = some params ∧ Connection.limitsError params = none
  unnoted : h.applied = false → h.told = []

theorem Ledger.steady {h after : History} (ledger : Ledger h) (steady : Steady h.conn after.conn)
    (told : after.told = h.told) (still : h.applied = true → after.applied = true)
    (decoded : ∀ params, after.conn.cachedPeerTransportParams = some params →
      ∃ blob, after.conn.peerQuicTransportParams = some blob ∧ Tls.TransportParams.decode blob = .ok params)
    (applied : after.applied = true → ∃ params, after.conn.cachedPeerTransportParams = some params ∧
      Connection.limitsError params = none) : Ledger after := by
  refine ⟨steady.sound ledger.ids,fun id there => ?_,fun id value noted => ?_,decoded,applied,fun off => ?_⟩
  · rw [steady.role]
    exact steady.used id (ledger.live id (steady.live id there))
  · rw [told] at noted
    rw [steady.role]
    exact ⟨steady.used id (ledger.noted id value noted).1,(ledger.noted id value noted).2⟩
  · rw [told]
    refine ledger.unnoted (Bool.eq_false_iff.mpr fun was => ?_)
    rw [still was] at off
    cases off

theorem Ledger.opened {h after : History} {id : Nat} (ledger : Ledger h) (opened : Opened id h.conn after.conn)
    (told : after.told = h.told) (applied : after.applied = h.applied) : Ledger after := by
  have used := opened.used ledger.ids
  refine ⟨opened.sound ledger.ids,fun other there => ?_,fun other value noted => ?_,?_,?_,?_⟩
  · rw [opened.role,used]
    obtain ⟨new,streams,named,_⟩ := opened.streams
    unfold Connection.get at there
    rw [streams,List.find?_append] at there
    cases found : h.conn.get other with
    | some s => exact .inl (ledger.live other (by rw [found]; rfl))
    | none =>
      unfold Connection.get at found
      rw [found,Option.none_or,List.find?_singleton] at there
      by_cases here : new.id = other
      · exact .inr (here ▸ named)
      · simp [here] at there
  · rw [told] at noted
    rw [opened.role,used]
    exact ⟨.inl (ledger.noted other value noted).1,(ledger.noted other value noted).2⟩
  · rw [opened.cached,opened.blob]
    exact ledger.decoded
  · rw [applied,opened.cached]
    exact ledger.applied
  · rw [applied,told]
    exact ledger.unnoted

/-- Once the parameters are applied, each level is the highest of the initial one and those the peer told since. -/
def Exact (h : History) : Prop :=
  h.applied = true → ∃ params, h.conn.cachedPeerTransportParams = some params ∧
    ∀ c v, h.conn.level c = some v → v = max (initialLevel h.conn.role params c) (mark h.told c)

/-- A level that is there before and after is no lower after. -/
def Rises (h after : History) : Prop :=
  h.applied = true → ∀ c v w, h.conn.level c = some v → after.conn.level c = some w → v ≤ w

/-- Applying `params` undercuts no level: the first time none that a stream has, later none that the peer raised. -/
def Spares (h : History) (params : Tls.TransportParams.Params) : Prop :=
  if h.applied then ∀ c v, h.conn.level c = some v → (∀ id, c ≠ .streamData id) → v ≤ initialLevel h.conn.role params c
  else ∀ id v, h.conn.level (.streamData id) = some v → v = maxU64 ∨ v ≤ initialLevel h.conn.role params (.streamData id)

/-- The condition of a step: parameters that it applies undercut nothing. -/
def Sparing (h : History) (e : Event) : Prop :=
  match e.call with
  | .peerTransportParams _ => ∀ params ∈ h.conn.applicable, Spares h params
  | .cachePeerTransportParams _ =>
    h.conn.cachedPeerTransportParams = none → ∀ params ∈ h.conn.applicable, Spares h params
  | _ => True

/-- What a step leaves, and when it leaves the levels exact. -/
structure Turn (h after : History) (condition : Prop) : Prop where
  ledger : Ledger after
  role : after.conn.role = h.conn.role
  blob : ∀ blob, h.conn.peerQuicTransportParams = some blob → after.conn.peerQuicTransportParams = some blob
  told : ∀ entry ∈ h.told, entry ∈ after.told
  applied : h.applied = true → after.applied = true
  exact' : Exact h → (Exact after ↔ condition)

theorem Turn.trans {a b c : History} (first : Turn a b True) (second : Turn b c True) : Turn a c True := by
  refine ⟨second.ledger,second.role.trans first.role,fun blob there => second.blob blob (first.blob blob there),
    fun entry noted => second.told entry (first.told entry noted),second.applied ∘ first.applied,fun exact' => ?_⟩
  exact second.exact' ((first.exact' exact').mpr trivial)

theorem turn_idle {h after : History} (ledger : Ledger h) (idle : Idle h after) : Turn h after True := by
  obtain ⟨keeps,applied,told⟩ := idle
  refine ⟨ledger.steady keeps.steady told applied.trans (fun params cached => ?_) (fun now => ?_),keeps.role,keeps.blob,
    fun entry noted => told ▸ noted,fun was => applied.trans was,fun exact' => iff_true_intro fun now => ?_⟩
  · obtain ⟨blob,there,decoded⟩ := ledger.decoded params (keeps.cached.symm.trans cached)
    exact ⟨blob,keeps.blob blob there,decoded⟩
  · rw [keeps.cached]
    exact ledger.applied (applied.symm.trans now)
  · obtain ⟨params,cached,levels⟩ := exact' (applied.symm.trans now)
    refine ⟨params,keeps.cached.trans cached,fun c v there => ?_⟩
    rw [keeps.role,told]
    exact levels c v (keeps.level c v there)

theorem level_opened {id : Nat} {conn after : Connection} (opened : Opened id conn after) (sound : conn.ids.Sound)
    (absent : conn.get id = none) (c : Credit) :
    after.level c = if c = .streamData id then some (conn.initialSendStreamLimit id) else conn.level c := by
  obtain ⟨bidi,uni⟩ := opened.limits sound
  cases c with
  | data => exact congrArg some opened.peerMaxData
  | streams kind => cases kind <;> simp [Connection.level,bidi,uni]
  | streamData other =>
    obtain ⟨new,streams,named,_,limit,_⟩ := opened.streams
    rw [level_streamData,level_streamData]
    unfold Connection.get at absent ⊢
    rw [streams,List.find?_append,List.find?_singleton]
    by_cases here : other = id
    · subst here
      simp [absent,named,limit]
    · have apart : ¬ new.id = other := fun same => here (same.symm.trans named)
      simp [apart,here]

theorem turn_grown {h after : History} {id : Nat} (ledger : Ledger h) (grown : Grown id h.conn after.conn)
    (applied : after.applied = h.applied) (told : after.told = h.told) : Turn h after True := by
  rcases grown with same | opened
  · exact turn_idle ledger ⟨same ▸ .refl _,applied,told⟩
  have fresh := opened.fresh ledger.ids
  have absent : h.conn.get id = none := by
    cases found : h.conn.get id with
    | none => rfl
    | some s => exact absurd (ledger.live id (by rw [found]; rfl)) fresh
  refine ⟨ledger.opened opened told applied,opened.role,fun _ there => opened.blob.trans there,
    fun entry noted => told ▸ noted,fun was => applied.trans was,fun exact' => iff_true_intro fun now => ?_⟩
  obtain ⟨params,cached,levels⟩ := exact' (applied.symm.trans now)
  refine ⟨params,opened.cached.trans cached,fun c v there => ?_⟩
  rw [level_opened opened ledger.ids absent] at there
  rw [opened.role,told]
  split at there
  · rename_i here
    have unmarked : mark h.told (.streamData id) = 0 := by
      refine Nat.le_zero.mp (mark_le_iff.mpr fun level noted => ?_)
      exact absurd (ledger.noted id level noted).1 fresh
    rw [here,unmarked,← initialSendStreamLimit_cached cached]
    exact (Option.some.inj there).symm.trans (Nat.max_zero _).symm
  · exact levels c v there

theorem turn_raised {h : History} {conn : Connection} {c : Credit} {value : Nat} (ledger : Ledger h)
    (raises : Raises c value h.conn conn)
    (named : ∀ id, c = .streamData id → h.conn.ids.Used h.conn.role id ∧ value ≤ Varint.maxValue) :
    Turn h ({h with conn := conn}.note c value) True := by
  have base : Ledger {h with conn := conn} := by
    refine ledger.steady raises.steady rfl id (fun params cached => ?_) (fun now => ?_)
    · obtain ⟨blob,there,decoded⟩ := ledger.decoded params (raises.cached.symm.trans cached)
      exact ⟨blob,raises.blob.trans there,decoded⟩
    · obtain ⟨params,cached,fine⟩ := ledger.applied now
      exact ⟨params,raises.cached.trans cached,fine⟩
  have blob : ∀ blob, h.conn.peerQuicTransportParams = some blob → conn.peerQuicTransportParams = some blob :=
    fun _ there => raises.blob.trans there
  unfold History.note
  by_cases now : h.applied = true
  · rw [if_pos now]
    refine ⟨⟨base.ids,base.live,fun id level noted => ?_,base.decoded,base.applied,fun off => by simp [now] at off⟩,raises.role,blob,
      fun entry noted => List.mem_cons_of_mem _ noted,fun was => was,fun exact' => iff_true_intro fun _ => ?_⟩
    · rcases List.mem_cons.mp noted with new | old
      · obtain ⟨used,varint⟩ := named id (congrArg Prod.fst new).symm
        refine ⟨?_,(congrArg Prod.snd new).trans_le varint⟩
        exact raises.role.symm ▸ raises.used id used
      · exact base.noted id level old
    · obtain ⟨params,cached,levels⟩ := exact' now
      refine ⟨params,raises.cached.trans cached,fun d v there => ?_⟩
      change conn.level d = some v at there
      change v = max (initialLevel conn.role params d) (mark ((c,value)::h.told) d)
      rw [raises.level] at there
      rw [raises.role]
      split at there
      · rename_i here
        subst here
        cases before : h.conn.level d with
        | none => simp [before] at there
        | some old =>
          have old' := levels d old before
          have raised : v = max value old := by simpa [before] using there.symm
          rw [mark_same]
          omega
      · rename_i apart
        rw [mark_other (Ne.symm apart)]
        exact levels d v there
  · rw [if_neg now]
    exact ⟨base,raises.role,blob,fun entry noted => noted,fun was => was,
      fun _ => iff_true_intro fun was => absurd was now⟩

def CloseOnly (conn after : Connection) : Prop := ∃ pendingClose, after = {conn with pendingClose := pendingClose}

theorem CloseOnly.trans {a b c : Connection} (first : CloseOnly a b) (second : CloseOnly b c) : CloseOnly a c := by
  obtain ⟨_,rfl⟩ := first
  obtain ⟨last,rfl⟩ := second
  exact ⟨last,rfl⟩

theorem close_only (conn : Connection) (isTransport : Bool) (errorCode : Nat) (reason : String) :
    CloseOnly conn (conn.close isTransport errorCode reason) := by
  unfold Connection.close
  split
  · exact ⟨_,rfl⟩
  · exact ⟨_,rfl⟩

theorem checkRest_only (conn : Connection) (refused : Option ConnectionClose) : CloseOnly conn (conn.checkRest refused) := by
  unfold Connection.checkRest
  split
  · exact ⟨_,rfl⟩
  · exact close_only _ _ _ _

theorem reduction_only (conn : Connection) : CloseOnly conn conn.validateEarlyDataParamReduction := by
  unfold Connection.validateEarlyDataParamReduction
  split
  · split
    · exact close_only _ _ _ _
    · exact ⟨_,rfl⟩
  · exact ⟨_,rfl⟩

/-- What reading the peer's parameters does: it applies them, or refuses them, or there is nothing to read. -/
inductive Reads (conn after : Connection) : Prop where
  | applies (params : Tls.TransportParams.Params) (here : conn.applicable = some params)
      (only : CloseOnly ({conn with cachedPeerTransportParams := some params}.applyPeerFlowTransportParams params) after)
  | refuses (params : Tls.TransportParams.Params) (blob : List Byte) (none : conn.applicable = none)
      (there : conn.peerQuicTransportParams = some blob) (decoded : Tls.TransportParams.decode blob = .ok params)
      (only : CloseOnly {conn with cachedPeerTransportParams := some params} after)
  | nothing (none : conn.applicable = none) (same : after = conn)

theorem reads_limits {conn after : Connection} {blob : List Byte} {params : Tls.TransportParams.Params}
    (there : conn.peerQuicTransportParams = some blob) (decoded : Tls.TransportParams.decode blob = .ok params)
    (only : CloseOnly {conn with cachedPeerTransportParams := some params}.validatePeerTransportLimits after) : Reads conn after := by
  unfold Connection.validatePeerTransportLimits at only
  dsimp only at only
  cases refused : Connection.limitsError params with
  | none =>
    rw [refused] at only
    exact .applies params (applicable_intro there decoded refused) only
  | some reason =>
    rw [refused] at only
    refine .refuses params blob ?_ there decoded ((close_only _ _ _ _).trans only)
    unfold Connection.applicable
    rw [there]
    dsimp only
    rw [decoded]
    simp [refused]

theorem applicable_none {conn : Connection} (there : conn.peerQuicTransportParams = none) : conn.applicable = none := by
  unfold Connection.applicable
  rw [there]

theorem applicable_error {conn : Connection} {blob : List Byte} {e : Tls.TransportParams.Error}
    (there : conn.peerQuicTransportParams = some blob) (error : Tls.TransportParams.decode blob = .error e) :
    conn.applicable = none := by
  unfold Connection.applicable
  rw [there]
  dsimp only
  rw [error]

theorem peerTransportParams_reads (conn : Connection) (refused : Option ConnectionClose) :
    Reads conn (conn.peerTransportParams refused).2 := by
  unfold Connection.peerTransportParams
  split
  · rename_i there
    exact .nothing (applicable_none there) rfl
  rename_i blob there
  cases decoded : Tls.TransportParams.decode blob with
  | error e => exact .nothing (applicable_error there decoded) rfl
  | ok params => exact reads_limits there decoded (checkRest_only _ _)

theorem cachePeerTransportParams_reads (conn : Connection) (refused : Option ConnectionClose)
    (uncached : conn.cachedPeerTransportParams = none) : Reads conn (conn.cachePeerTransportParams refused).2 := by
  unfold Connection.cachePeerTransportParams
  split
  · rename_i cached
    simp [uncached] at cached
  split
  · rename_i there
    exact .nothing (applicable_none there) rfl
  rename_i blob there
  cases decoded : Tls.TransportParams.decode blob with
  | error e => exact .nothing (applicable_error there decoded) rfl
  | ok params => exact reads_limits there decoded ((checkRest_only _ _).trans (reduction_only _))

/-- The parameters of a connection that has them cached are the ones it would apply. -/
theorem Ledger.applicable {h : History} (ledger : Ledger h) (now : h.applied = true) :
    ∃ params, h.conn.cachedPeerTransportParams = some params ∧ h.conn.applicable = some params := by
  obtain ⟨params,cached,fine⟩ := ledger.applied now
  obtain ⟨blob,there,decoded⟩ := ledger.decoded params cached
  exact ⟨params,cached,applicable_intro there decoded fine⟩

theorem level_closeOnly {conn after : Connection} (only : CloseOnly conn after) (c : Credit) : after.level c = conn.level c := by
  obtain ⟨_,rfl⟩ := only
  cases c with
  | data => rfl
  | streams bidi => cases bidi <;> rfl
  | streamData id => rfl

theorem applicable_fits {conn : Connection} {params : Tls.TransportParams.Params} (here : conn.applicable = some params) :
    Tls.TransportParams.VarintsFit params := by
  obtain ⟨_,_,decoded,_⟩ := applicable_spec here
  exact decode_fits decoded

theorem initialLevel_varint (role : Role) {params : Tls.TransportParams.Params} (fits : Tls.TransportParams.VarintsFit params)
    (id : Nat) : initialLevel role params (.streamData id) ≤ Varint.maxValue := by
  change (if streamIsUni id then (if streamInitiatedByLocal role id then params.initialMaxStreamDataUni else 0)
    else if streamInitiatedByLocal role id then params.initialMaxStreamDataBidiRemote
    else params.initialMaxStreamDataBidiLocal) ≤ Varint.maxValue
  split_ifs
  · exact emitted_varint fits (k := .initialMaxStreamDataUni) rfl
  · exact Nat.zero_le _
  · exact emitted_varint fits (k := .initialMaxStreamDataBidiRemote) rfl
  · exact emitted_varint fits (k := .initialMaxStreamDataBidiLocal) rfl

theorem spares_iff {h : History} (ledger : Ledger h) {params : Tls.TransportParams.Params}
    (here : h.conn.applicable = some params) (exact' : Exact h) :
    (∀ c v, h.conn.level c = some v → max (standing c v) (initialLevel h.conn.role params c) =
      max (initialLevel h.conn.role params c) (mark h.told c)) ↔ Spares h params := by
  unfold Spares
  by_cases now : h.applied = true
  · rw [if_pos now]
    obtain ⟨known,cached,known'⟩ := ledger.applicable now
    obtain rfl : known = params := Option.some.inj (known'.symm.trans here)
    obtain ⟨same,cached',levels⟩ := exact' now
    obtain rfl : same = known := Option.some.inj (cached'.symm.trans cached)
    have kept : ∀ c v, (∀ id, c ≠ .streamData id) → standing c v = 0 := by
      intro c v apart
      cases c with
      | data => rfl
      | streams bidi => rfl
      | streamData id => exact absurd rfl (apart id)
    constructor
    · intro same c v there apart
      have level := levels c v there
      have applied := same c v there
      rw [kept c v apart,Nat.zero_max] at applied
      rw [level,← applied]
    · intro spares c v there
      have level := levels c v there
      by_cases apart : ∀ id, c ≠ .streamData id
      · have := spares c v there apart
        rw [kept c v apart]
        omega
      · obtain ⟨id,rfl⟩ : ∃ id, c = .streamData id := by
          by_contra none
          exact apart fun id same => none ⟨id,same⟩
        -- Every level that a frame told fits a varint, so a stream of an applied connection has a limit.
        have limited : v ≠ maxU64 := by
          have told : mark h.told (.streamData id) ≤ Varint.maxValue :=
            mark_le_iff.mpr fun level noted => (ledger.noted id level noted).2
          have initial := initialLevel_varint h.conn.role (applicable_fits here) id
          have small : Varint.maxValue < maxU64 := by decide
          omega
        unfold standing
        dsimp only
        rw [if_neg limited]
        omega
  · have before : h.applied = false := by simpa using now
    rw [if_neg now,ledger.unnoted before]
    constructor
    · intro same id v there
      have applied := same (.streamData id) v there
      by_cases unlimited : v = maxU64
      · exact .inl unlimited
      · unfold standing at applied
        dsimp only at applied
        rw [if_neg unlimited,mark_nil] at applied
        exact .inr (by omega)
    · intro spares c v there
      rw [mark_nil]
      cases c with
      | data => simp [standing]
      | streams bidi => simp [standing]
      | streamData id =>
        unfold standing
        dsimp only
        split
        · omega
        · rcases spares id v there with unlimited | below
          · contradiction
          · omega

/-- Reading the parameters leaves exact levels just in case the ones it applies spare the levels before. -/
theorem turn_reads {h after : History} (ledger : Ledger h) (reads : Reads h.conn after.conn) (told : after.told = h.told)
    (applied : after.applied = (h.applied || h.conn.applicable.isSome)) :
    Turn h after (∀ params ∈ h.conn.applicable, Spares h params) := by
  have still : h.applied = true → after.applied = true := fun was => by rw [applied,was,Bool.true_or]
  cases reads with
  | nothing none same =>
    rw [none,Option.isSome_none,Bool.or_false] at applied
    have turn := turn_idle ledger ⟨same ▸ .refl _,applied,told⟩
    rw [none]
    exact {turn with exact' := fun exact' => (turn.exact' exact').trans (by simp)}
  | refuses params blob none there decoded only =>
    obtain ⟨_,only⟩ := only
    have off : h.applied = false := by
      refine Bool.eq_false_iff.mpr fun was => ?_
      obtain ⟨_,_,some⟩ := ledger.applicable was
      rw [none] at some
      cases some
    rw [none,off,Option.isSome_none,Bool.or_false] at applied
    have steady : Steady h.conn after.conn := by
      rw [only]
      exact ⟨rfl,fun sound => sound,fun _ used => used,fun _ there => there,fun _ there => there⟩
    refine ⟨ledger.steady steady told still (fun known cached => ?_) (fun now => ?_),steady.role,steady.blob,
      fun entry noted => told ▸ noted,still,fun _ => ?_⟩
    · rw [only] at cached ⊢
      obtain rfl : params = known := Option.some.inj cached
      exact ⟨blob,there,decoded⟩
    · rw [applied] at now
      cases now
    · rw [none]
      refine iff_of_true (fun now => ?_) (by simp)
      rw [applied] at now
      cases now
  | applies params here only =>
    have level := fun c => (level_closeOnly only c).trans (level_apply {h.conn with cachedPeerTransportParams := some params} params rfl c)
    obtain ⟨_,only⟩ := only
    obtain ⟨blob,there,decoded,fine⟩ := applicable_spec here
    have on : after.applied = true := by rw [applied,here,Option.isSome_some,Bool.or_true]
    have ids : IdSpaces.SameIds h.conn.ids after.conn.ids := by
      rw [only]
      exact {IdSpaces.SameIds.refl h.conn.ids with localBidiIds := ⟨rfl,rfl⟩,localUniIds := ⟨rfl,rfl⟩}
    have role : after.conn.role = h.conn.role := by rw [only]; rfl
    have cached : after.conn.cachedPeerTransportParams = some params := by rw [only]; rfl
    have same : after.conn.peerQuicTransportParams = h.conn.peerQuicTransportParams := by rw [only]; rfl
    have before (c : Credit) : {h.conn with cachedPeerTransportParams := some params}.level c = h.conn.level c := by
      cases c with
      | data => rfl
      | streams bidi => cases bidi <;> rfl
      | streamData id => rfl
    have steady : Steady h.conn after.conn := by
      refine ⟨role,ids.sound,fun id => (ids.used id).mpr,fun _ there => same.trans there,fun id found => ?_⟩
      · have spec := level (.streamData id)
        rw [before,level_streamData,level_streamData] at spec
        cases was : h.conn.get id with
        | some _ => rfl
        | none =>
          obtain ⟨s,found⟩ := Option.isSome_iff_exists.mp found
          rw [was,found] at spec
          cases spec
    refine ⟨ledger.steady steady told still (fun known cached' => ?_) (fun _ => ⟨params,cached,fine⟩),role,steady.blob,
      fun entry noted => told ▸ noted,still,fun exact' => ?_⟩
    · obtain rfl : params = known := Option.some.inj (cached.symm.trans cached')
      exact ⟨blob,same.trans there,decoded⟩
    · have exactly : Exact after ↔ ∀ c v, h.conn.level c = some v → max (standing c v) (initialLevel h.conn.role params c) =
          max (initialLevel h.conn.role params c) (mark h.told c) := by
        constructor
        · intro exact'
          obtain ⟨known,cached',levels⟩ := exact' on
          obtain rfl : params = known := Option.some.inj (cached.symm.trans cached')
          intro c v there
          rw [role,told] at levels
          exact levels c _ (by rw [level,before,there]; rfl)
        · refine fun levels _ => ⟨params,cached,fun c v there => ?_⟩
          rw [role,told]
          rw [level,before] at there
          obtain ⟨old,was,rfl⟩ := Option.map_eq_some_iff.mp there
          exact levels c old was
      rw [exactly,spares_iff ledger here exact',here]
      simp

theorem turn_remember {h after : History} (ledger : Ledger h) (params : Tls.TransportParams.Params)
    (conn : after.conn = h.conn.setRememberedPeerTransportParams params) (applied : after.applied = h.applied)
    (told : after.told = h.told) : Turn h after True := by
  unfold Connection.setRememberedPeerTransportParams at conn
  dsimp only at conn
  split at conn
  · rename_i none
    have off : h.applied = false := by
      refine Bool.eq_false_iff.mpr fun was => ?_
      obtain ⟨_,cached,_⟩ := ledger.applied was
      rw [none] at cached
      cases cached
    have steady : Steady h.conn after.conn := by
      rw [conn]
      have ids : IdSpaces.SameIds h.conn.ids {h.conn.ids with
          localBidiIds := {h.conn.ids.localBidiIds with limit := min h.conn.ids.localBidiIds.limit params.initialMaxStreamsBidi}
          localUniIds := {h.conn.ids.localUniIds with limit := min h.conn.ids.localUniIds.limit params.initialMaxStreamsUni}} :=
        {IdSpaces.SameIds.refl h.conn.ids with localBidiIds := ⟨rfl,rfl⟩,localUniIds := ⟨rfl,rfl⟩}
      exact ⟨rfl,ids.sound,fun id => (ids.used id).mpr,fun _ there => there,fun _ there => there⟩
    have never (now : after.applied = true) : False := by
      rw [applied,off] at now
      cases now
    refine ⟨ledger.steady steady told applied.trans (fun known cached => ?_) (fun now => (never now).elim),steady.role,
      steady.blob,fun entry noted => told ▸ noted,applied.trans,fun _ => iff_true_intro fun now => (never now).elim⟩
    rw [conn] at cached
    exact absurd (none.symm.trans cached) (by simp)
  · exact turn_idle ledger ⟨conn ▸ .same rfl rfl rfl rfl rfl rfl,applied,told⟩

theorem turn_maxStreamData {h : History} (ledger : Ledger h) (grants : Allocator) (msd : Frame.MaxStreamData)
    (varint : msd.maximumStreamData ≤ Varint.maxValue) :
    Turn h (frameStep h grants (.maxStreamData msd varint)) True := by
  have raises := @handleMaxStreamData_raises grants h.conn msd
  dsimp only [frameStep]
  cases outcome : h.conn.handleMaxStreamData grants msd with
  | mk result after =>
  rw [outcome] at raises
  cases result with
  | error e => exact turn_idle ledger ⟨raises ▸ .refl _,rfl,rfl⟩
  | ok _ =>
    dsimp only at raises ⊢
    rcases raises with ⟨unknown,keeps⟩ | ⟨known,mid,grown,there,raises⟩
    · rw [unknown]
      exact turn_idle ledger ⟨keeps,rfl,rfl⟩
    · rw [if_pos known]
      have first : Turn h {h with conn := mid} True := @turn_grown h {h with conn := mid} _ ledger grown rfl rfl
      refine first.trans (turn_raised first.ledger raises fun id same => ?_)
      cases same
      exact ⟨there.elim (first.ledger.live _) fun used => used,varint⟩

theorem turn_maxStreams {h : History} (ledger : Ledger h) (grants : Allocator) (ms : Frame.MaxStreams) :
    Turn h (frameStep h grants (.maxStreams ms)) True := by
  have raises := handleMaxStreams_raises h.conn ms
  dsimp only [frameStep]
  split at raises
  · rw [if_pos ‹_›]
    exact turn_raised ledger raises fun id same => by cases same
  · rw [if_neg ‹_›]
    exact turn_idle ledger ⟨raises,rfl,rfl⟩

theorem turn_stopSending {h : History} (ledger : Ledger h) (grants : Allocator) (ss : Frame.StopSending) :
    Turn h (frameStep h grants (.stopSending ss)) True := by
  have prologue := sendPartForPeerFrame_spec grants h.conn ss.streamId .stopSending
  dsimp only [frameStep]
  unfold Connection.handleStopSending
  cases outcome : h.conn.sendPartForPeerFrame grants ss.streamId .stopSending with
  | mk result mid =>
  rw [outcome] at prologue
  cases result with
  | error e => exact turn_idle ledger ⟨prologue ▸ .refl _,rfl,rfl⟩
  | ok there =>
    cases there with
    | false =>
      rcases prologue with same | ⟨code,reason,closed⟩
      · exact turn_idle ledger ⟨same ▸ .refl _,rfl,rfl⟩
      · exact turn_idle ledger ⟨closed ▸ close_keeps _ _ _ _,rfl,rfl⟩
    | true =>
      have first : Turn h {h with conn := mid} True := @turn_grown h {h with conn := mid} _ ledger prologue rfl rfl
      exact first.trans (turn_idle first.ledger ⟨resetOne_keeps _ _ _,rfl,rfl⟩)

theorem turn_peerFrame {h : History} (ledger : Ledger h) (grants : Allocator) (id : Nat) (frame : Connection.PeerStreamFrame) :
    Turn h (frameStep h grants (.peerFrame id frame)) True := by
  have prologue := ensurePeerStream_spec grants h.conn id frame
  dsimp only [frameStep]
  cases outcome : h.conn.ensurePeerStream grants id frame with
  | mk result mid =>
  rw [outcome] at prologue
  cases result with
  | error e => exact turn_idle ledger ⟨prologue ▸ .refl _,rfl,rfl⟩
  | ok there =>
    cases there with
    | false =>
      rcases prologue with same | ⟨code,reason,closed⟩
      · exact turn_idle ledger ⟨same ▸ .refl _,rfl,rfl⟩
      · exact turn_idle ledger ⟨closed ▸ close_keeps _ _ _ _,rfl,rfl⟩
    | true => exact @turn_grown h {h with conn := mid} _ ledger prologue rfl rfl

theorem dispatch_keeps (conn : Connection) (id : Nat) (f : SendStream → SendStream) :
    Keeps conn (conn.modify id fun s => {s with send := f s.send}) :=
  modify_keeps conn id _ (fun _ => rfl) fun _ => rfl

theorem dispatchReset_keeps (conn : Connection) (rs : Frame.ResetStream) (f : SendStream → SendStream) :
    Keeps conn (conn.modify rs.streamId fun s => if Connection.resetMatches s rs then {s with send := f s.send} else s) := by
  refine modify_keeps conn rs.streamId _ (fun s => ?_) fun s => ?_
  · split <;> rfl
  · split <;> rfl

theorem turn_frame {h : History} (ledger : Ledger h) (grants : Allocator) (call : Call) :
    Turn h (frameStep h grants call) True := by
  have idle {conn : Connection} (keeps : Keeps h.conn conn) : Turn h {h with conn := conn} True :=
    turn_idle ledger ⟨keeps,rfl,rfl⟩
  cases call with
  | maxData md varint => exact turn_raised ledger (handleMaxData_raises h.conn md) fun id same => by cases same
  | maxStreamData msd varint => exact turn_maxStreamData ledger grants msd varint
  | maxStreams ms => exact turn_maxStreams ledger grants ms
  | stopSending ss => exact turn_stopSending ledger grants ss
  | peerFrame id frame => exact turn_peerFrame ledger grants id frame
  | acked id key => exact idle (dispatch_keeps h.conn id fun send => (send.onPacketAcked grants key).2)
  | lost id key => exact idle (dispatch_keeps h.conn id fun send => (send.onPacketLost grants key).2)
  | probeRequeued id key => exact idle (dispatch_keeps h.conn id fun send => (send.onPacketProbeRequeued grants key).2)
  | resetAcked rs => exact idle (dispatchReset_keeps h.conn rs SendStream.onResetAcked)
  | resetLost rs => exact idle (dispatchReset_keeps h.conn rs SendStream.onResetLost)
  | poll p =>
    dsimp only [frameStep]
    split
    · exact turn_idle ledger (pollStep_idle h p)
    · exact turn_idle ledger ⟨.refl _,rfl,rfl⟩
  | _ => exact turn_idle ledger ⟨.refl _,rfl,rfl⟩

theorem turn_call {h : History} (ledger : Ledger h) (e : Event) : Turn h (callStep h e.grants e.call) (Sparing h e) := by
  obtain ⟨call,grants⟩ := e
  have idle {conn : Connection} (keeps : Keeps h.conn conn) : Turn h {h with conn := conn} True :=
    turn_idle ledger ⟨keeps,rfl,rfl⟩
  have grown {conn : Connection} {id : Nat} (grown : Grown id h.conn conn) : Turn h {h with conn := conn} True :=
    @turn_grown h {h with conn := conn} _ ledger grown rfl rfl
  cases call with
  | openBidi id => exact grown (openBidi_grown grants h.conn id)
  | openUni id => exact grown (openUni_grown grants h.conn id)
  | streamWrite id budgetLeft data => exact idle (streamWrite_keeps grants budgetLeft h.conn id data)
  | streamFinish id => exact idle (streamFinish_keeps h.conn id)
  | streamReset id code => exact idle (streamReset_keeps h.conn id code)
  | streamStopSending id => exact grown (streamStopSending_grown grants h.conn id)
  | setRememberedPeerTransportParams params => exact turn_remember ledger params rfl rfl rfl
  | peerTransportParams refused => exact turn_reads ledger (peerTransportParams_reads h.conn refused) rfl rfl
  | cachePeerTransportParams refused =>
    unfold Sparing
    dsimp only [callStep]
    cases cached : h.conn.cachedPeerTransportParams with
    | none =>
      have turn := @turn_reads h {h with
        conn := (h.conn.cachePeerTransportParams refused).2
        applied := h.applied || ((none : Option Tls.TransportParams.Params).isNone && h.conn.applicable.isSome)} ledger
        (cachePeerTransportParams_reads h.conn refused cached) rfl rfl
      exact {turn with exact' := fun exact' => (turn.exact' exact').trans (by simp)}
    | some params =>
      have same : (h.conn.cachePeerTransportParams refused).2 = h.conn := by
        unfold Connection.cachePeerTransportParams
        rw [if_pos (by rw [cached]; rfl)]
      have turn := @turn_idle h {h with
        conn := (h.conn.cachePeerTransportParams refused).2
        applied := h.applied || ((some params).isNone && h.conn.applicable.isSome)} ledger
        ⟨by dsimp only; rw [same]; exact .refl _,by simp,rfl⟩
      exact {turn with exact' := fun exact' => (turn.exact' exact').trans (by simp)}
  | close error => exact idle (close_keeps h.conn _ _ _)
  | beginGracefulShutdown => exact idle (.same rfl rfl rfl rfl rfl rfl)
  | tlsTransportParams blob =>
    refine idle ⟨rfl,fun sound => sound,fun _ used => used,fun known there => ?_,rfl,fun c v there => ?_⟩
    · dsimp only
      rw [there]
      rfl
    · cases c with
      | data => exact there
      | streams bidi => cases bidi <;> exact there
      | streamData id => exact there
  | tlsEarlyDataSecret => exact idle (.same rfl rfl rfl rfl rfl rfl)
  | tlsEarlyDataAccepted => exact idle (.same rfl rfl rfl rfl rfl rfl)
  | raisePeerLimit bidi limit =>
    have ids : IdSpaces.SameIds h.conn.ids
        (if bidi then {h.conn.ids with peerBidiIds := {h.conn.ids.peerBidiIds with limit := limit}}
        else {h.conn.ids with peerUniIds := {h.conn.ids.peerUniIds with limit := limit}}) := by
      cases bidi
      · exact {IdSpaces.SameIds.refl h.conn.ids with peerUniIds := ⟨rfl,rfl⟩}
      · exact {IdSpaces.SameIds.refl h.conn.ids with peerBidiIds := ⟨rfl,rfl⟩}
    refine idle ⟨rfl,ids.sound,fun id => (ids.used id).mpr,fun _ there => there,rfl,fun c v there => ?_⟩
    cases c with
    | data => exact there
    | streams kind => cases kind <;> cases bidi <;> exact there
    | streamData id => exact there
  | reclaim id recvDone => exact idle (reclaim_keeps recvDone h.conn id)
  | _ => exact turn_idle ledger ⟨.refl _,rfl,rfl⟩

theorem turn_step {h : History} (ledger : Ledger h) (e : Event) : Turn h (step h e) (Sparing h e) := by
  unfold step
  by_cases packets : e.call.ofPackets = true
  · rw [if_pos packets]
    have free : Sparing h e ↔ True := by
      obtain ⟨call,grants⟩ := e
      cases call <;> simp [Call.ofPackets] at packets <;> exact Iff.rfl
    have turn := turn_frame ledger e.grants e.call
    exact {turn with exact' := fun exact' => (turn.exact' exact').trans free.symm}
  · rw [if_neg packets]
    exact turn_call ledger e

theorem Turn.rises {h after : History} {condition : Prop} (ledger : Ledger h) (turn : Turn h after condition)
    (before : Exact h) (exact' : Exact after) : Rises h after := by
  intro now c v w there here
  obtain ⟨params,cached,levels⟩ := before now
  obtain ⟨known,cached',levels'⟩ := exact' (turn.applied now)
  obtain ⟨blob,from',decoded⟩ := ledger.decoded params cached
  obtain ⟨blob',from'',decoded'⟩ := turn.ledger.decoded known cached'
  obtain rfl : blob = blob' := Option.some.inj ((turn.blob blob from').symm.trans from'')
  obtain rfl : params = known := Except.ok.inj (decoded.symm.trans decoded')
  rw [levels c v there,levels' c w here,turn.role]
  exact max_le_max le_rfl (mark_mono turn.told c)

theorem fresh_ledger (h : History) (fresh : Fresh h) : Ledger h := by
  obtain ⟨role,bidi,uni,maxBufferedSend,maxBufferedSendCap,follows,rfl⟩ := fresh
  exact ⟨⟨StreamIdSpace.sound_init _ _,StreamIdSpace.sound_init _ _,StreamIdSpace.sound_init _ _,
    StreamIdSpace.sound_init _ _⟩,by simp [Connection.get],by simp,by simp,by simp,by simp⟩

/-- The credit stays exactly what the peer gave, and never goes down, in just the runs whose steps undercut nothing
with the parameters that they apply. -/
theorem credit_exact_iff (start : History) (events : List Event) (fresh : Fresh start) :
    (System.Throughout Exact step start events ∧ ∀ before e after, events = before ++ e::after →
      Rises (System.run step start before) (step (System.run step start before) e)) ↔
    System.Admits step Sparing start events := by
  have ledger := fresh_ledger start fresh
  have always (events : List Event) : Ledger (System.run step start events) := by
    have reached : System.Reaches Fresh step (fun _ _ => True) (System.run step start events) :=
      (System.Reaches.start fresh).run events (.of_forall (fun (_ : Event) _ => trivial) start)
    exact reached.invariant Ledger fresh_ledger fun _ e ledger _ => (turn_step ledger e).ledger
  have off : Exact start := by
    obtain ⟨role,bidi,uni,maxBufferedSend,maxBufferedSendCap,follows,rfl⟩ := fresh
    exact fun now => by cases now
  have admitted : System.Admits step (fun _ _ => True) start events :=
    .of_forall (fun (_ : Event) _ => trivial) start
  have exact' : System.Throughout Exact step start events ↔ System.Admits step Sparing start events :=
    System.throughout_iff (fun _ e ledger _ => (turn_step ledger e).ledger)
      (fun _ e ledger good _ => (turn_step ledger e).exact' good) ledger off admitted
  refine ⟨fun both => exact'.mp both.1,fun met => ⟨exact'.mpr met,?_⟩⟩
  rintro before e after rfl
  obtain ⟨first,later⟩ := (exact'.mpr met).append
  obtain ⟨now,rest⟩ := later
  have next : Exact (step (System.run step start before) e) := by
    cases after with
    | nil => exact rest
    | cons => exact rest.1
  exact (turn_step (always before) e).rises (always before) now next

theorem three_small : 3 ≤ Varint.maxValue := by decide

def raised : List Event := [⟨.tlsTransportParams [4,1,1],granting⟩,⟨.cachePeerTransportParams none,granting⟩,
  ⟨.maxData ⟨3⟩ three_small,granting⟩]

theorem raised_sparing : System.Admits step Sparing client raised := by
  refine ⟨trivial,fun _ params _ => ?_,trivial,trivial⟩
  unfold Spares
  rw [if_neg (by decide)]
  intro id v there
  cases there

theorem credit_exact_raised : System.Throughout Exact step client raised ∧
    ∀ before e after, raised = before ++ e::after →
      Rises (System.run step client before) (step (System.run step client before) e) :=
  (credit_exact_iff client raised client_fresh).mpr raised_sparing

/-- Asking for the parameters takes the raise back. -/
theorem parameters_lower : Fresh client ∧ (System.run step client raised).applied = true ∧
    (System.run step client raised).conn.peerMaxData = 3 ∧
    (System.run step client (raised ++ [⟨.peerTransportParams none,granting⟩])).conn.peerMaxData = 1 :=
  ⟨client_fresh,by decide +kernel⟩

end QuicZig.Conn.SendFlow
