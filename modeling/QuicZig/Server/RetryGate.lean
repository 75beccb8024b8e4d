import QuicZig.Conn.AddressToken
import QuicZig.Server.SourceRate

/-! The Retry gate of a server. It answers an Initial without a token with a Retry, keeps for each address what
its last Retry was bound to, and lets the Initial in that brings the token back. -/
namespace QuicZig.Server.RetryGate
open Machine Codec Wire Conn.TokenEnvelope Conn.AddressToken

structure RetryStateEntry where
  retryScid : ConnId
  originalDcid : ConnId
  mintedAtUs : Nat

/-- A Retry in the queue of stateless responses, with what it was made for. -/
structure QueuedRetry where
  dst : Address
  bytes : List Byte
  /-- The version and the Source Connection ID of the Initial that it answers. -/
  version : Nat
  clientScid : ConnId
  originalDcid : ConnId
  retryScid : ConnId
  token : List Byte
  mintedAtUs : Nat
  /-- The table has taken it up, and since then neither a Retry with another Source Connection ID nor a
  connection has taken its place. -/
  standing : Bool

structure LongHeaderIds where
  version : Nat
  dcid : List Byte
  scid : List Byte

def peekLongHeaderIds (bytes : List Byte) : Option LongHeaderIds :=
  match bytes with
  | [] => none
  | first::_ =>
    if first &&& (0x80 : Byte) = 0 then none
    else
      match Header.peekLongCommon bytes with
      | .error _ => none
      | .ok common => some {version := common.version,dcid := common.dcid,scid := common.scid}

def peekInitialToken (bytes : List Byte) : Option (List Byte) :=
  match Header.parse bytes 0 with
  | .ok {header := .initial initial,..} => some initial.token
  | _ => none

/-- `ConnectionId.fromSlice`, which clamps. -/
def clamped (s : List Byte) : ConnId := ⟨s.take maxCidLen,List.length_take_le _ _⟩

structure RetrySealOptions where
  version : Nat := 0x00000001
  originalDcid : List Byte
  dcid : List Byte
  scid : List Byte
  retryToken : List Byte
  unusedBits : Fin 16 := 0

theorem zeroTag_exact : (List.replicate 16 (0 : Byte)).length = 16 := List.length_replicate

def zeroTag : Fixed 16 := ⟨List.replicate 16 0,zeroTag_exact⟩

/-- The AEADs that the gate rests on, the one of the tokens and the one of the integrity tag of a Retry. -/
structure Crypto where
  aead : Aead
  retryIntegrityTag (version : Nat) (originalDcid retryWithoutTag : List Byte) : Option (Fixed 16)

def sealRetry (crypto : Crypto) (room : Nat) (opts : RetrySealOptions) : Option (List Byte) :=
  match ConnId.fromSlice opts.dcid,ConnId.fromSlice opts.scid with
  | .ok dcid,.ok scid =>
    match Header.encode (.retry {
        version := opts.version
        dcid := dcid
        scid := scid
        retryToken := opts.retryToken
        integrityTag := zeroTag
        unusedBits := opts.unusedBits
      }) room with
    | .error _ => none
    | .ok bytes => (crypto.retryIntegrityTag opts.version opts.originalDcid (bytes.take (bytes.length-16))).map
        fun tag => bytes.take (bytes.length-16) ++ tag.bytes
  | _,_ => none

def maxStatelessResponseBytes : Nat := 256

/-- What becomes of the attempt to open a slot. -/
inductive Opening where
  | outOfMemory | fails | stillborn | opened
  deriving DecidableEq, Repr

/-- A datagram that comes to the gate, with what the clock, the random source, the allocator and the connection
have for it: the order in which the table is walked, the connection IDs that would be minted for a Retry and for
a connection, the nonce, whether the queue and the table can grow, and how the slot opens. -/
structure Datagram where
  src : Address
  bytes : List Byte
  nowUs : Nat
  newTokenNowUs : Nat
  order : List Address := []
  retryScid : Option ConnId := none
  nonce : Option (Fixed 12) := none
  queueGrows : Bool := true
  tableGrows : Bool := true
  slotScid : Option ConnId := none
  opening : Opening := .opened
  now64 : nowUs ≤ maxU64 := by decide

/-- A token of no bytes is as good as none. -/
def Datagram.echoed (d : Datagram) : Option (List Byte) :=
  (peekInitialToken d.bytes).filter fun token => decide (token ≠ [])

structure RetryEcho where
  retryScid : ConnId
  originalDcid : ConnId
  deriving DecidableEq, Repr

inductive RetryDecision where
  | none
  | sent
  | drop
  | echo (e : RetryEcho)
  | newTokenSkip
  deriving DecidableEq, Repr

inductive RetryMintError where
  | outOfMemory | randFailed | retryEncodeFailed
  deriving DecidableEq, Repr

/-- The connection IDs that a slot is opened with. -/
structure SlotIds where
  originalDcid : ConnId
  localScid : ConnId
  retrySourceConnectionId : Option ConnId
  deriving DecidableEq, Repr

inductive FeedOutcome where
  | outOfMemory
  | retrySent
  | dropped
  | accepted (ids : SlotIds)
  deriving DecidableEq, Repr

structure Gate where
  retryTokenKey : Option (Fixed 32)
  newTokenKey : Option (Fixed 32) := none
  newTokenMaxClockSkewUs : Nat := 0
  retryTokenLifetimeUs : Nat
  retryStateTableCapacity : Nat
  retryStateTable : Finmap fun _ : Address => RetryStateEntry := ∅
  /-- Every Retry that was put in the queue. -/
  retries : List QueuedRetry := []

namespace Gate

def find (s : Gate) (addr : Address) : Option RetryStateEntry := s.retryStateTable.lookup addr

def count (s : Gate) : Nat := s.retryStateTable.keys.card

def put (s : Gate) (addr : Address) (e : RetryStateEntry) : Gate :=
  {s with retryStateTable := s.retryStateTable.insert addr e}

def remove (s : Gate) (addr : Address) : Gate := {s with retryStateTable := s.retryStateTable.erase addr}

def expired (s : Gate) (e : RetryStateEntry) (nowUs : Nat) : Bool :=
  SourceRate.elapsed nowUs e.mintedAtUs > s.retryTokenLifetimeUs

def pruneExpiredRetryState (order : List Address) (s : Gate) (nowUs : Nat) : Gate :=
  order.foldl (fun s addr => match s.find addr with
    | none => s
    | some e => if s.expired e nowUs then s.remove addr else s) s

def oldest (order : List Address) (s : Gate) : Option Address × Nat :=
  order.foldl (fun best addr => match s.find addr with
    | none => best
    | some e => if e.mintedAtUs < best.2 then (some addr,e.mintedAtUs) else best) (none,maxU64)

def evictOldestRetryState (order : List Address) (s : Gate) : Gate :=
  match (s.oldest order).1 with
  | none => s
  | some addr => s.remove addr

def ensureRoom (order : List Address) (s : Gate) (nowUs : Nat) : Gate :=
  if s.count ≥ s.retryStateTableCapacity then
    let s := s.pruneExpiredRetryState order nowUs
    if s.count ≥ s.retryStateTableCapacity then s.evictOldestRetryState order else s
  else s

/-- The entry whose Source Connection ID a further Retry takes over. -/
def reusable (s : Gate) (addr : Address) (dcid : List Byte) (nowUs : Nat) : Option RetryStateEntry :=
  (s.find addr).filter fun e => !s.expired e nowUs && decide (e.originalDcid.bytes = dcid)

/-- The Retries to the address lose their place. -/
def displace (s : Gate) (addr : Address) : Gate :=
  {s with retries := s.retries.map fun q => if q.dst = addr then {q with standing := false} else q}

/-- The table takes up the Retry; a new address needs room for it. -/
def record (s : Gate) (d : Datagram) (reused : Bool) (q : QueuedRetry) : Gate × Option RetryMintError :=
  if d.tableGrows || (s.find d.src).isSome then
    let s := if reused then s else s.displace d.src
    ({s with retries := s.retries ++ [{q with standing := true}]}.put d.src {
      retryScid := q.retryScid
      originalDcid := q.originalDcid
      mintedAtUs := d.nowUs
    },none)
  else ({s with retries := s.retries ++ [q]},some .outOfMemory)

def mintAndQueueRetry (crypto : Crypto) (s : Gate) (d : Datagram) (ids : LongHeaderIds) (key : Fixed 32) :
    Gate × Option RetryMintError :=
  let s := s.ensureRoom d.order d.nowUs
  let existing := s.reusable d.src ids.dcid d.nowUs
  match (existing.map RetryStateEntry.retryScid).or d.retryScid with
  | none => (s,some .randFailed)
  | some retryScid =>
    match RetryToken.mint crypto.aead d.nonce tokenLen {
        key := key
        nowUs := d.nowUs
        lifetimeUs := s.retryTokenLifetimeUs
        clientAddress := d.src.writeContext
        originalDcid := ids.dcid
        retryScid := retryScid.bytes
        quicVersion := ids.version
      } with
    | .error _ => (s,some .retryEncodeFailed)
    | .ok token =>
      match sealRetry crypto maxStatelessResponseBytes {
          originalDcid := ids.dcid
          dcid := ids.scid
          scid := retryScid.bytes
          retryToken := token
        } with
      | none => (s,some .retryEncodeFailed)
      | some bytes =>
        if d.queueGrows then s.record d existing.isSome {
          dst := d.src
          bytes := bytes
          version := ids.version
          clientScid := clamped ids.scid
          originalDcid := clamped ids.dcid
          retryScid := retryScid
          token := token
          mintedAtUs := d.nowUs
          standing := false
        }
        else (s,some .outOfMemory)

/-- The Retry, or what the caller makes of its failure. -/
def answer (crypto : Crypto) (s : Gate) (d : Datagram) (ids : LongHeaderIds) (key : Fixed 32) :
    Gate × Except AllocError RetryDecision :=
  match s.mintAndQueueRetry crypto d ids key with
  | (s,none) => (s,.ok .sent)
  | (s,some .outOfMemory) => (s,.error .outOfMemory)
  | (s,some _) => (s,.ok .drop)

/-- The token of a returning client that the NEW_TOKEN check lets in. -/
def newTokenValid (crypto : Crypto) (s : Gate) (d : Datagram) (ids : LongHeaderIds) (token : List Byte) : Bool :=
  match s.newTokenKey with
  | none => false
  | some key => decide (NewToken.validate crypto.aead token {
      key := key
      nowUs := d.newTokenNowUs
      clientAddress := d.src.writeContext
      quicVersion := ids.version
      maxClockSkewUs := s.newTokenMaxClockSkewUs
    } = .valid)

def retryTokenValid (crypto : Crypto) (d : Datagram) (ids : LongHeaderIds) (key : Fixed 32) (e : RetryStateEntry)
    (token : List Byte) : Bool :=
  decide (RetryToken.validate crypto.aead token {
    key := key
    nowUs := d.nowUs
    clientAddress := d.src.writeContext
    originalDcid := e.originalDcid.bytes
    retryScid := e.retryScid.bytes
    quicVersion := ids.version
  } = .valid)

def applyRetryGate (crypto : Crypto) (s : Gate) (d : Datagram) : Gate × Except AllocError RetryDecision :=
  if s.retryTokenKey.isNone && s.newTokenKey.isNone then (s,.ok .none)
  else
    match peekLongHeaderIds d.bytes with
    | none => (s,.ok .drop)
    | some ids =>
      if d.echoed.any (s.newTokenValid crypto d ids) then (s,.ok .newTokenSkip)
      else
        match s.retryTokenKey with
        | none => (s,.ok .none)
        | some key =>
          match d.echoed,s.find d.src with
          | some token,some e =>
            if retryTokenValid crypto d ids key e token then (s,.ok (.echo ⟨e.retryScid,e.originalDcid⟩))
            else (s,.ok .drop)
          | _,_ => s.answer crypto d ids key

/-- The connection IDs that `openSlotFromInitial` starts from. -/
def slotIds (d : Datagram) (echo : Option RetryEcho) : Option SlotIds :=
  match peekLongHeaderIds d.bytes,echo with
  | none,_ => none
  | some _,some e => some {
      originalDcid := e.originalDcid
      localScid := e.retryScid
      retrySourceConnectionId := some e.retryScid
    }
  | some ids,none => d.slotScid.map fun scid => {
      originalDcid := clamped ids.dcid
      localScid := scid
      retrySourceConnectionId := none
    }

/-- The part of `feedWithEcn` behind the gate. A Retry that was echoed leaves the table with the slot. -/
def openSlot (s : Gate) (d : Datagram) (echo : Option RetryEcho) : Gate × FeedOutcome :=
  match slotIds d echo,d.opening with
  | _,.outOfMemory => (s,.outOfMemory)
  | none,_ => (s,.dropped)
  | some _,.fails => (s,.dropped)
  | some ids,opening =>
    let s := if echo.isSome then (s.displace d.src).remove d.src else s
    (s,if opening = .stillborn then .dropped else .accepted ids)

def feed (crypto : Crypto) (s : Gate) (d : Datagram) : Gate × FeedOutcome :=
  match s.applyRetryGate crypto d with
  | (s,.error _) => (s,.outOfMemory)
  | (s,.ok .sent) => (s,.retrySent)
  | (s,.ok .drop) => (s,.dropped)
  | (s,.ok .none) => s.openSlot d none
  | (s,.ok (.echo e)) => s.openSlot d (some e)
  | (s,.ok .newTokenSkip) => s.openSlot d none

end Gate

end QuicZig.Server.RetryGate
