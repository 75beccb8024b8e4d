import QuicZig.Library.System
import QuicZig.Server.RetryGateSpec

/-! Every run of the Retry gate, over any datagrams from any addresses: what each Retry says on the wire, who is
let back in, and who is not. The versions of the Initials and the one entry for each address are what a run has
to mind. -/
namespace QuicZig.Server.RetryGate
open Machine Codec Wire Conn.TokenEnvelope Conn.AddressToken QuicZig.System

namespace Gate

/-- The Retries are as they were made, and the entry of an address is that of its standing Retries. -/
structure Inv (crypto : Crypto) (key : Fixed 32) (s : Gate) : Prop where
  on : s.retryTokenKey = some key
  made : ∀ q ∈ s.retries, Made crypto key s.retryTokenLifetimeUs q
  entry : ∀ q ∈ s.retries, q.standing = true →
    ∃ e, s.find q.dst = some e ∧ e.retryScid = q.retryScid ∧ e.originalDcid = q.originalDcid

theorem Made.standing {crypto : Crypto} {key : Fixed 32} {lifetimeUs : Nat} {q : QueuedRetry}
    (made : Made crypto key lifetimeUs q) (standing : Bool) : Made crypto key lifetimeUs {q with standing := standing} :=
  ⟨made.minted,made.sealed,made.version,made.now⟩

theorem Inv.opened {crypto : Crypto} {key : Fixed 32} {s : Gate} (inv : Inv crypto key s) (addr : Address) :
    Inv crypto key ((s.displace addr).remove addr) := by
  refine ⟨inv.on,fun q member => ?_,fun q member stands => ?_⟩
  · obtain ⟨old,there,same,-⟩ := mem_displace member
    rw [same]
    exact (inv.made old there).standing _
  · obtain ⟨old,there,same,before⟩ := mem_displace member
    obtain ⟨stood,other⟩ := before stands
    rw [find_remove,same,if_neg other]
    exact inv.entry old there stood

theorem Inv.answered {crypto : Crypto} {key : Fixed 32} {s : Gate} {d : Datagram} {ids : LongHeaderIds} {reused : Bool}
    {q : QueuedRetry} (inv : Inv crypto key s) (answers : Answers crypto s d ids key reused q) :
    Inv crypto key (s.record d reused q).1 := by
  unfold record
  split
  · rename_i room
    cases reused with
    | false =>
      refine ⟨inv.on,fun r member => ?_,fun r member stands => ?_⟩
      · rcases List.mem_append.mp member with before | new
        · obtain ⟨old,there,same,-⟩ := mem_displace before
          rw [same]
          exact (inv.made old there).standing _
        · rw [List.mem_singleton.mp new]
          exact answers.made.standing true
      · rw [find_put]
        rcases List.mem_append.mp member with before | new
        · obtain ⟨old,there,same,earlier⟩ := mem_displace before
          obtain ⟨stood,other⟩ := earlier stands
          rw [same,if_neg other]
          exact inv.entry old there stood
        · rw [List.mem_singleton.mp new,if_pos answers.dst]
          exact ⟨_,rfl,rfl,rfl⟩
    | true =>
      obtain ⟨e,here,sameScid,sameDcid⟩ := answers.taken rfl
      refine ⟨inv.on,fun r member => ?_,fun r member stands => ?_⟩
      · rcases List.mem_append.mp member with before | new
        · exact inv.made r before
        · rw [List.mem_singleton.mp new]
          exact answers.made.standing true
      · rw [find_put]
        rcases List.mem_append.mp member with before | new
        · obtain ⟨old,there,scid,dcid⟩ := inv.entry r before stands
          by_cases source : r.dst = d.src
          · -- the entry keeps its IDs, so the Retries before this one stand on
            rw [if_pos source]
            rw [source,here] at there
            cases there
            exact ⟨_,rfl,sameScid.symm.trans scid,sameDcid.symm.trans dcid⟩
          · rw [if_neg source]
            exact ⟨old,there,scid,dcid⟩
        · rw [List.mem_singleton.mp new,if_pos answers.dst]
          exact ⟨_,rfl,rfl,rfl⟩
  · refine ⟨inv.on,fun r member => ?_,fun r member stands => ?_⟩
    · rcases List.mem_append.mp member with before | new
      · exact inv.made r before
      · rw [List.mem_singleton.mp new]
        exact answers.made
    · rcases List.mem_append.mp member with before | new
      · exact inv.entry r before stands
      · rw [List.mem_singleton.mp new,answers.standing] at stands
        cases stands

theorem Inv.turn {crypto : Crypto} {key : Fixed 32} {s s' : Gate} {d : Datagram} (inv : Inv crypto key s)
    (turn : Turn crypto s d key s') : Inv crypto key s' := by
  cases turn with
  | rests => exact inv
  | answered _ _ answers => exact inv.answered answers
  | opened => exact inv.opened d.src

theorem openSlot_turn {crypto : Crypto} {s : Gate} {d : Datagram} {key : Fixed 32} (echo : Option RetryEcho) :
    Turn crypto s d key (s.openSlot d echo).1 := by
  unfold openSlot
  split
  · exact .rests
  · exact .rests
  · exact .rests
  · dsimp only
    split
    · exact .opened
    · exact .rests

theorem feed_turn {crypto : Crypto} {s : Gate} {d : Datagram} {key : Fixed 32} (on : s.retryTokenKey = some key)
    (below : s.count < s.retryStateTableCapacity) : Turn crypto s d key (s.feed crypto d).1 := by
  obtain ⟨turn,rest⟩ : Turn crypto s d key (s.applyRetryGate crypto d).1 ∧ _ := gate_turn on below
  unfold feed
  split <;> rename_i decided <;> rw [decided] at turn rest
  · exact turn
  · exact turn
  · exact turn
  all_goals
    obtain same | other | other | other := rest
    · cases same
      exact openSlot_turn _
    · cases other
    · cases other
    · cases other

def step (crypto : Crypto) (s : Gate) (d : Datagram) : Gate := (s.feed crypto d).1

/-- The Initial shows the token of the Retry, from its address, in its version and in its time. -/
def Shows (s : Gate) (d : Datagram) (q : QueuedRetry) : Prop :=
  d.src = q.dst ∧ (peekLongHeaderIds d.bytes).map LongHeaderIds.version = some q.version ∧ d.echoed = some q.token ∧
    q.mintedAtUs ≤ d.nowUs ∧ d.nowUs ≤ saturatingAdd q.mintedAtUs s.retryTokenLifetimeUs

/-- It does so to the Source Connection ID of the Retry. -/
def Echoes (s : Gate) (d : Datagram) (q : QueuedRetry) : Prop :=
  s.Shows d q ∧ (peekLongHeaderIds d.bytes).map LongHeaderIds.dcid = some q.retryScid.bytes

instance (s : Gate) (d : Datagram) (q : QueuedRetry) : Decidable (s.Shows d q) := inferInstanceAs (Decidable (_ ∧ _))

instance (s : Gate) (d : Datagram) (q : QueuedRetry) : Decidable (s.Echoes d q) := inferInstanceAs (Decidable (_ ∧ _))

/-- The header that the client of the Retry reads. -/
def Carries (q : QueuedRetry) : Prop := ∃ tag, Header.parse q.bytes 0 = .ok {
    header := .retry {
      version := q.version
      dcid := q.clientScid
      scid := q.retryScid
      retryToken := q.token
      integrityTag := tag
    }
    pnOffset := 0
  }

/-- A Retry speaks the version of its Initial, the Initial that echoes it is let in with its connection IDs, and
an Initial with a token is let in for no other reason. -/
structure Meets (crypto : Crypto) (s : Gate) (d : Datagram) : Prop where
  carries : ∀ q ∈ (s.step crypto d).retries, Carries q
  letsIn : ∀ q ∈ s.retries, s.Echoes d q →
    s.applyRetryGate crypto d = (s,.ok (.echo ⟨q.retryScid,q.originalDcid⟩)) ∧ (d.opening = .opened →
      (s.feed crypto d).2 = .accepted {
        originalDcid := q.originalDcid
        localScid := q.retryScid
        retrySourceConnectionId := some q.retryScid
      })
  keepsOut : ∀ token, d.echoed = some token → ∀ decision, (s.applyRetryGate crypto d).2 = .ok decision →
    decision = .sent ∨ decision = .drop ∨
      ∃ q ∈ s.retries, s.Shows d q ∧ decision = .echo ⟨q.retryScid,q.originalDcid⟩

/-- An Initial that is answered is in version 1, the Retry that one echoes still stands, and none shows a token
that the NEW_TOKEN check takes. -/
structure Clean (crypto : Crypto) (s : Gate) (d : Datagram) : Prop where
  plain : d.echoed = none ∨ s.find d.src = none → ∀ ids ∈ peekLongHeaderIds d.bytes, ids.version = 1
  stands : ∀ q ∈ s.retries, s.Echoes d q → q.standing = true
  noNewToken : ∀ ids ∈ peekLongHeaderIds d.bytes, d.echoed.any (s.newTokenValid crypto d ids) = false

/-- Tokens open under the server's key only when the server has sent them. -/
def Unforged (crypto : Crypto) (key : Fixed 32) (s : Gate) (d : Datagram) : Prop :=
  ∀ token ∈ d.echoed, RetryToken.env.plaintext? crypto.aead token key ≠ none → ∃ q ∈ s.retries, q.token = token

def Below (s : Gate) : Prop := s.count < s.retryStateTableCapacity

/-- A server whose Retry gate is on, before its first datagram. -/
structure Start (key : Fixed 32) (s : Gate) : Prop where
  on : s.retryTokenKey = some key
  table : s.retryStateTable = ∅
  retries : s.retries = []

theorem Start.inv {crypto : Crypto} {key : Fixed 32} {s : Gate} (start : Start key s) : Inv crypto key s := by
  refine ⟨start.on,fun q member => ?_,fun q member => ?_⟩ <;>
  · rw [start.retries] at member
    cases member

theorem token_valid {crypto : Crypto} (correct : crypto.aead.Correct) {key : Fixed 32} {s : Gate} {d : Datagram}
    {ids : LongHeaderIds} {q : QueuedRetry} {e : RetryStateEntry} (made : Made crypto key s.retryTokenLifetimeUs q) :
    retryTokenValid crypto d ids key e q.token = true ↔ q.version = ids.version ∧ q.mintedAtUs ≤ d.nowUs ∧
      d.nowUs ≤ saturatingAdd q.mintedAtUs s.retryTokenLifetimeUs ∧ q.dst = d.src ∧
      q.originalDcid.bytes = e.originalDcid.bytes ∧ q.retryScid.bytes = e.retryScid.bytes := by
  obtain ⟨nonce,minted⟩ := made.minted
  have plus (n : Nat) (small : n ≤ maxU64) : saturatingAdd n 0 = n := Nat.min_eq_left small
  unfold retryTokenValid
  rw [decide_eq_true_eq,RetryToken.validate_minted correct made.version made.now minted rfl
    (.cons (Address.writeContext_le _) (.cons e.originalDcid.short (.cons e.retryScid.short .nil)))]
  dsimp only
  rw [plus _ d.now64,plus (saturatingAdd _ _) (Nat.min_le_right _ _)]
  exact and_congr_right fun _ => and_congr_right fun _ => and_congr_right fun _ =>
    and_congr_left fun _ => ⟨Address.writeContext_inj,congrArg Address.writeContext⟩

theorem cid_ext {a b : ConnId} (same : a.bytes = b.bytes) : a = b := by
  cases a
  cases b
  cases same
  rfl

theorem keeps_out {crypto : Crypto} (correct : crypto.aead.Correct) {key : Fixed 32} {s : Gate} {d : Datagram}
    (inv : Inv crypto key s) (unforged : Unforged crypto key s d)
    (noNewToken : ∀ ids ∈ peekLongHeaderIds d.bytes, d.echoed.any (s.newTokenValid crypto d ids) = false)
    {decision : RetryDecision} (decided : (s.applyRetryGate crypto d).2 = .ok decision) :
    decision = .sent ∨ decision = .drop ∨ ∃ q ∈ s.retries, s.Shows d q ∧ decision = .echo ⟨q.retryScid,q.originalDcid⟩ := by
  unfold applyRetryGate at decided
  rw [inv.on,if_neg (by simp)] at decided
  split at decided
  · cases decided
    exact .inr (.inl rfl)
  · rename_i ids read
    rw [noNewToken ids read,if_neg (by decide)] at decided
    dsimp only at decided
    split at decided
    · rename_i shown e again _
      split at decided
      · rename_i valid
        cases decided
        have opens := RetryToken.validate_opens (of_decide_eq_true valid)
        obtain ⟨q,there,same⟩ := unforged shown again opens
        subst same
        obtain ⟨version,begun,running,source,dcid,scid⟩ := (token_valid correct (inv.made q there)).mp valid
        refine .inr (.inr ⟨q,there,⟨source.symm,?_,again,begun,running⟩,?_⟩)
        · rw [read,Option.map_some,version]
        · rw [cid_ext dcid,cid_ext scid]
      · cases decided
        exact .inr (.inl rfl)
    · unfold answer at decided
      split at decided <;> cases decided
      · exact .inl rfl
      · exact .inr (.inl rfl)

theorem lets_in {crypto : Crypto} (correct : crypto.aead.Correct) {key : Fixed 32} {s : Gate} {d : Datagram}
    (inv : Inv crypto key s)
    (noNewToken : ∀ ids ∈ peekLongHeaderIds d.bytes, d.echoed.any (s.newTokenValid crypto d ids) = false) {q : QueuedRetry}
    (there : q ∈ s.retries) (echoes : s.Echoes d q) (stands : q.standing = true) :
    s.applyRetryGate crypto d = (s,.ok (.echo ⟨q.retryScid,q.originalDcid⟩)) := by
  obtain ⟨⟨source,version,echo,begun,running⟩,-⟩ := echoes
  obtain ⟨ids,read,sameVersion⟩ := Option.map_eq_some_iff.mp version
  obtain ⟨e,here,scid,dcid⟩ := inv.entry q there stands
  have valid : retryTokenValid crypto d ids key e q.token = true :=
    (token_valid correct (inv.made q there)).mpr ⟨sameVersion.symm,begun,running,source.symm,by rw [dcid],by rw [scid]⟩
  unfold applyRetryGate
  rw [inv.on,if_neg (by simp)]
  simp only [read]
  rw [noNewToken ids read,if_neg (by decide)]
  simp only [echo,source,here]
  rw [if_pos valid,scid,dcid]

theorem opened_slot {s : Gate} {d : Datagram} {e : RetryEcho} {ids : LongHeaderIds}
    (read : peekLongHeaderIds d.bytes = some ids) (opens : d.opening = .opened) :
    (s.openSlot d (some e)).2 = .accepted {
      originalDcid := e.originalDcid
      localScid := e.retryScid
      retrySourceConnectionId := some e.retryScid
    } := by
  unfold openSlot slotIds
  rw [read,opens]
  rfl

/-- The Retries of a run were made for Initials in version 1. -/
def Plain (s : Gate) : Prop := ∀ q ∈ s.retries, q.version = 1

theorem Plain.turn {crypto : Crypto} {key : Fixed 32} {s s' : Gate} {d : Datagram} (plain : Plain s)
    (turn : Turn crypto s d key s')
    (version : d.echoed = none ∨ s.find d.src = none → ∀ ids ∈ peekLongHeaderIds d.bytes, ids.version = 1) : Plain s' := by
  have displaced (addr : Address) : Plain (s.displace addr) := by
    intro q member
    obtain ⟨old,there,same,-⟩ := mem_displace member
    rw [same]
    exact plain old there
  cases turn with
  | rests => exact plain
  | opened => exact displaced d.src
  | @answered ids reused q read bare answers =>
    have new : q.version = 1 := answers.version.trans (version bare ids read)
    unfold record
    split
    · intro r member
      rcases List.mem_append.mp member with before | last
      · cases reused with
        | false => exact displaced d.src r before
        | true => exact plain r before
      · rw [List.mem_singleton.mp last]
        exact new
    · intro r member
      rcases List.mem_append.mp member with before | last
      · exact plain r before
      · rw [List.mem_singleton.mp last]
        exact new

theorem Made.carries_iff {crypto : Crypto} {key : Fixed 32} {lifetimeUs : Nat} {q : QueuedRetry}
    (made : Made crypto key lifetimeUs q) : Carries q ↔ q.version = 1 := by
  obtain ⟨tag,parsed⟩ := retry_on_wire made.sealed
  constructor
  · rintro ⟨other,again⟩
    have same := Except.ok.inj (again.symm.trans parsed)
    simp only [Header.Parsed.mk.injEq,Header.retry.injEq,Header.Retry.mk.injEq] at same
    exact same.1.1
  · intro plain
    refine ⟨tag,?_⟩
    rw [plain]
    exact parsed

theorem clean_step {crypto : Crypto} (correct : crypto.aead.Correct) {key : Fixed 32} {s : Gate} {d : Datagram}
    (inv : Inv crypto key s) (plain : Plain s) (below : s.Below) (unforged : Unforged crypto key s d) (clean : Clean crypto s d) :
    Inv crypto key (s.step crypto d) ∧ Plain (s.step crypto d) ∧ Meets crypto s d := by
  have turn : Turn crypto s d key (s.step crypto d) := feed_turn inv.on below
  have inv' := inv.turn turn
  have plain' := plain.turn turn clean.plain
  refine ⟨inv',plain',fun q member => (inv'.made q member).carries_iff.mpr (plain' q member),fun q there echoes => ?_,
    fun _ _ _ decided => keeps_out correct inv unforged clean.noNewToken decided⟩
  have decided := lets_in correct inv clean.noNewToken there echoes (clean.stands q there echoes)
  refine ⟨decided,fun opens => ?_⟩
  obtain ⟨ids,read,-⟩ := Option.map_eq_some_iff.mp echoes.2
  unfold feed
  rw [decided]
  exact opened_slot read opens

/-- Below its capacity and with unforgeable tokens, a run of clean datagrams meets the contract at every step. -/
theorem retries_let_back_in (crypto : Crypto) (correct : crypto.aead.Correct) (key : Fixed 32) (s : Gate) (start : Start key s)
    (datagrams : List Datagram)
    (allowed : Admits (step crypto) (fun s d => s.Below ∧ Unforged crypto key s d) s datagrams)
    (clean : Admits (step crypto) (Clean crypto) s datagrams) : Admits (step crypto) (Meets crypto) s datagrams := by
  have first : Plain s := by
    intro q member
    rw [start.retries] at member
    cases member
  have kept : ∀ s d, Inv crypto key s ∧ Plain s → (s.Below ∧ Unforged crypto key s d) ∧ Clean crypto s d →
      Inv crypto key (s.step crypto d) ∧ Plain (s.step crypto d) := by
    rintro s d ⟨inv,plain⟩ ⟨⟨below,unforged⟩,clean⟩
    obtain ⟨inv',plain',-⟩ := clean_step correct inv plain below unforged clean
    exact ⟨inv',plain'⟩
  have met : ∀ s d, Inv crypto key s ∧ Plain s → (s.Below ∧ Unforged crypto key s d) ∧ Clean crypto s d →
      Meets crypto s d := by
    rintro s d ⟨inv,plain⟩ ⟨⟨below,unforged⟩,clean⟩
    exact (clean_step correct inv plain below unforged clean).2.2
  exact Admits.under kept met ⟨start.inv,first⟩ (allowed.and clean)

theorem others_stand {crypto : Crypto} {key : Fixed 32} {s s' : Gate} {d : Datagram} (turn : Turn crypto s d key s')
    {q : QueuedRetry} (there : q ∈ s.retries) (other : q.dst ≠ d.src) : q ∈ s'.retries := by
  have displaced : q ∈ (s.displace d.src).retries := by
    refine List.mem_map.mpr ⟨q,there,?_⟩
    rw [if_neg other]
  cases turn with
  | rests => exact there
  | opened => exact displaced
  | @answered ids reused r read bare answers =>
    unfold record
    split
    · cases reused with
      | false => exact List.mem_append_left _ displaced
      | true => exact List.mem_append_left _ there
    · exact List.mem_append_left _ there

instance (crypto : Crypto) (s : Gate) (d : Datagram) : Decidable (Clean crypto s d) :=
  decidable_of_iff ((d.echoed = none ∨ s.find d.src = none → ∀ ids ∈ peekLongHeaderIds d.bytes, ids.version = 1) ∧
      (∀ q ∈ s.retries, s.Echoes d q → q.standing = true) ∧
      ∀ ids ∈ peekLongHeaderIds d.bytes, d.echoed.any (s.newTokenValid crypto d ids) = false)
    ⟨fun h => ⟨h.1,h.2.1,h.2.2⟩,fun h => ⟨h.plain,h.stands,h.noNewToken⟩⟩

instance (s : Gate) : Decidable s.Below := inferInstanceAs (Decidable (_ < _))

instance (crypto : Crypto) (key : Fixed 32) (s : Gate) (d : Datagram) : Decidable (Unforged crypto key s d) :=
  inferInstanceAs (Decidable (∀ token ∈ d.echoed, _ → ∃ q ∈ s.retries, q.token = token))

/-- A cipher for runs on fixed inputs: it leaves the plaintext open and marks it with its domain. -/
def marked : Crypto where
  aead := {
    sealed := fun _ _ domainSeparator plain => some (plain ++ List.replicate tagLen (UInt8.ofNat domainSeparator.length))
    opened := fun _ _ domainSeparator ciphertext =>
      if ciphertext.drop (ciphertext.length-tagLen) = List.replicate tagLen (UInt8.ofNat domainSeparator.length) then
        some (ciphertext.take (ciphertext.length-tagLen))
      else none
  }
  retryIntegrityTag := fun _ _ _ => some zeroTag

theorem marked_correct : marked.aead.Correct := by
  constructor
  · intro _ _ domainSeparator plain ciphertext sealed
    cases sealed
    simp [marked]
  · intro _ _ _ _ _ sealed
    cases sealed
    simp

def zeroKey : Fixed 32 := ⟨List.replicate 32 0,rfl⟩

def server : Gate where
  retryTokenKey := some zeroKey
  retryTokenLifetimeUs := 10000000
  retryStateTableCapacity := 4096

theorem server_start : Start zeroKey server := ⟨rfl,rfl,rfl⟩

def eightBytes (b : Byte) : ConnId := ⟨List.replicate 8 b,by rw [List.length_replicate]; decide⟩

theorem client_exact : ([192,0,2,1] : List Byte).length = 4 := rfl

def initialFrom (version : Nat) (dcid : ConnId) (token : List Byte) (nowUs : Nat) (small : nowUs ≤ maxU64) : Datagram :=
  let header := Header.encode (.initial {
    version := version
    dcid := dcid
    scid := eightBytes 3
    token := token
    pnLength := .one
    pnTruncated := 0
    payloadLength := if token = [] then 1174 else 1173-token.length
    payloadLengthBytes := 2
  }) 1200
  {
    src := .ipv4 ⟨[192,0,2,1],client_exact⟩ 4433
    bytes := match header with
      | .ok bytes => bytes ++ List.replicate (1200-bytes.length) 0
      | .error _ => []
    nowUs := nowUs
    newTokenNowUs := nowUs
    retryScid := some (eightBytes (UInt8.ofNat nowUs))
    nonce := some ⟨List.replicate 12 (UInt8.ofNat nowUs),List.length_replicate⟩
    now64 := small
  }

/-- The Initial that echoes the first Retry in the queue. -/
def echoOf (s : Gate) (nowUs : Nat) (small : nowUs ≤ maxU64) : Datagram :=
  match s.retries with
  | [] => initialFrom 1 (eightBytes 0) [] nowUs small
  | q::_ => initialFrom q.version q.retryScid q.token nowUs small

def firstInitial : Datagram := initialFrom 1 (eightBytes 1) [] 1 (by decide)

/-- A client is answered and comes back. -/
def roundTrip : List Datagram := [firstInitial,echoOf (server.step marked firstInitial) 2 (by decide)]

theorem retries_let_back_in_once : Admits (step marked) (Meets marked) server roundTrip :=
  retries_let_back_in marked marked_correct zeroKey server server_start roundTrip (by decide +kernel) (by decide +kernel)

def secondVersion : Datagram := initialFrom Header.quicVersion2 (eightBytes 1) [] 1 (by decide)

/-- A second attempt from the address, before the client of the first one comes back. -/
def otherInitial : Datagram := initialFrom 1 (eightBytes 2) [] 2 (by decide)

def lateEcho : Datagram := echoOf (server.step marked firstInitial) 3 (by decide)

def shutsOut (s : Gate) (d : Datagram) : Bool :=
  match (s.applyRetryGate marked d).2 with
  | .ok .drop => true
  | _ => false

/-- An Initial in version 2 gets a Retry in version 1, and a second Initial from the address with another
Destination Connection ID, which anyone can send, shuts out the client of the first. -/
theorem version_lost_and_client_shut_out :
    (Admits (step marked) (fun s d => s.Below ∧ Unforged marked zeroKey s d) server [secondVersion] ∧
      ¬Admits (step marked) (Meets marked) server [secondVersion]) ∧
    Admits (step marked) (fun s d => s.Below ∧ Unforged marked zeroKey s d) server [firstInitial,otherInitial,lateEcho] ∧
      ¬Admits (step marked) (Meets marked) server [firstInitial,otherInitial,lateEcho] := by
  refine ⟨⟨by decide +kernel,fun meets => ?_⟩,by decide +kernel,fun meets => ?_⟩
  · have turn : Turn marked server secondVersion zeroKey (server.step marked secondVersion) := feed_turn rfl (by decide)
    have queued : ∃ q ∈ (server.step marked secondVersion).retries, q.version ≠ 1 := by decide +kernel
    obtain ⟨q,there,version⟩ := queued
    exact version (((server_start.inv.turn turn).made q there).carries_iff.mp (meets.1.carries q there))
  · have echoed : ∃ q ∈ ((server.step marked firstInitial).step marked otherInitial).retries,
        ((server.step marked firstInitial).step marked otherInitial).Echoes lateEcho q := by decide +kernel
    have dropped : ((server.step marked firstInitial).step marked otherInitial).shutsOut lateEcho = true := by
      decide +kernel
    obtain ⟨q,there,echoes⟩ := echoed
    unfold shutsOut at dropped
    rw [(meets.2.2.1.letsIn q there echoes).1] at dropped
    cases dropped

end Gate

end QuicZig.Server.RetryGate
