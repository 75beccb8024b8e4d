import QuicZig.Server.RetryGate
import QuicZig.Wire.HeaderRoundTrip

/-! What the gate reads of a datagram, what it writes in a Retry and what a datagram does to its table. -/
namespace QuicZig.Server.RetryGate
open Machine Codec Wire Conn.TokenEnvelope Conn.AddressToken

theorem clamped_bytes {s : List Byte} (short : s.length ≤ maxCidLen) : (clamped s).bytes = s := List.take_of_length_le short

theorem clamped_cid (c : ConnId) : clamped c.bytes = c := by
  have same := clamped_bytes c.short
  obtain ⟨bytes,short⟩ := c
  simpa only [clamped,ConnId.mk.injEq] using same

theorem peek_bounds {bytes : List Byte} {ids : LongHeaderIds} (read : peekLongHeaderIds bytes = some ids) :
    ids.version < 2^32 ∧ ids.dcid.length ≤ maxCidLen ∧ ids.scid.length ≤ maxCidLen := by
  unfold peekLongHeaderIds at read
  split at read
  · cases read
  · split at read
    · cases read
    · split at read
      · cases read
      · rename_i common here
        cases read
        unfold Header.peekLongCommon Parser.run at here
        split at here
        · rename_i walked rest walk
          cases here
          have bounds := Header.longCommonSlices_inv walk
          exact ⟨bounds.1,bounds.2.1,bounds.2.2.1⟩
        · cases here

theorem retry_on_wire {crypto : Crypto} {room : Nat} {originalDcid token bytes : List Byte} {dcid scid : ConnId}
    (made : sealRetry crypto room {
      originalDcid := originalDcid
      dcid := dcid.bytes
      scid := scid.bytes
      retryToken := token
    } = some bytes) : ∃ tag, Header.parse bytes 0 = .ok {
      header := .retry {
        version := 1
        dcid := dcid
        scid := scid
        retryToken := token
        integrityTag := tag
      }
      pnOffset := 0
    } := by
  unfold sealRetry at made
  simp only [Header.fromSlice_bytes] at made
  obtain ⟨tokenLength,payloadLength,-,writes⟩ := Header.encode_layout (.retry {
    version := 1
    dcid := dcid
    scid := scid
    retryToken := token
    integrityTag := zeroTag
  }) ⟨Nat.one_ne_zero,Nat.one_lt_two_pow (by decide)⟩
  rw [writes room] at made
  split at made
  · cases made
  · rename_i written here
    split at here
    · cases here
      obtain ⟨tag,-,rfl⟩ := Option.map_eq_some_iff.mp made
      refine ⟨tag,?_⟩
      have split : Header.layout tokenLength payloadLength (.retry {
          version := 1
          dcid := dcid
          scid := scid
          retryToken := token
          integrityTag := zeroTag
        }) = Header.longHeaderCommon ((Header.longBits 1 (Header.longTypeToBits 1 .retry) 0 &&& (0xf0 : Byte)) |||
          UInt8.ofNat 0) 1 dcid scid ++ token ++ zeroTag.bytes := (List.append_assoc _ _ _).symm
      have front (common : List Byte) : (common ++ zeroTag.bytes).take ((common ++ zeroTag.bytes).length-16) = common := by
        rw [List.length_append,zeroTag.exact,Nat.add_sub_cancel]
        exact List.take_left
      rw [split,front,List.append_assoc]
      exact Header.parse_retry {
        version := 1
        dcid := dcid
        scid := scid
        retryToken := token
        integrityTag := tag
      } tokenLength payloadLength 0 Nat.one_ne_zero (Nat.one_lt_two_pow (by decide))
    · cases here

namespace Gate

@[simp] theorem find_put (s : Gate) (addr other : Address) (e : RetryStateEntry) :
    (s.put addr e).find other = if other = addr then some e else s.find other := by
  by_cases same : other = addr
  · rw [if_pos same,same]
    exact Finmap.lookup_insert _
  · rw [if_neg same]
    exact Finmap.lookup_insert_of_ne _ same

@[simp] theorem find_remove (s : Gate) (addr other : Address) :
    (s.remove addr).find other = if other = addr then none else s.find other := by
  by_cases same : other = addr
  · rw [if_pos same,same]
    exact Finmap.lookup_erase _ _
  · rw [if_neg same]
    exact Finmap.lookup_erase_ne same

@[simp] theorem find_displace (s : Gate) (addr other : Address) : (s.displace addr).find other = s.find other := rfl

theorem mem_displace {s : Gate} {addr : Address} {q : QueuedRetry} (member : q ∈ (s.displace addr).retries) :
    ∃ old ∈ s.retries, q = {old with standing := q.standing} ∧
      (q.standing = true → old.standing = true ∧ old.dst ≠ addr) := by
  obtain ⟨old,there,rfl⟩ := List.mem_map.mp member
  refine ⟨old,there,?_⟩
  split
  · exact ⟨rfl,fun stands => nomatch stands⟩
  · rename_i other
    exact ⟨rfl,fun stands => ⟨stands,other⟩⟩

theorem reusable_spec {s : Gate} {addr : Address} {dcid : List Byte} {nowUs : Nat} {e : RetryStateEntry}
    (found : s.reusable addr dcid nowUs = some e) : s.find addr = some e ∧ e.originalDcid.bytes = dcid := by
  obtain ⟨there,kept⟩ := Option.filter_eq_some_iff.mp found
  rw [Bool.and_eq_true,decide_eq_true_eq] at kept
  exact ⟨there,kept.2⟩

structure Made (crypto : Crypto) (key : Fixed 32) (lifetimeUs : Nat) (q : QueuedRetry) : Prop where
  minted : ∃ nonce, RetryToken.mint crypto.aead nonce tokenLen {
    key := key
    nowUs := q.mintedAtUs
    lifetimeUs := lifetimeUs
    clientAddress := q.dst.writeContext
    originalDcid := q.originalDcid.bytes
    retryScid := q.retryScid.bytes
    quicVersion := q.version
  } = .ok q.token
  sealed : sealRetry crypto maxStatelessResponseBytes {
    originalDcid := q.originalDcid.bytes
    dcid := q.clientScid.bytes
    scid := q.retryScid.bytes
    retryToken := q.token
  } = some q.bytes
  version : q.version < 2^32
  now : q.mintedAtUs ≤ maxU64

/-- The Retry that a datagram gets, and whether it takes over the Source Connection ID of the entry. -/
structure Answers (crypto : Crypto) (s : Gate) (d : Datagram) (ids : LongHeaderIds) (key : Fixed 32) (reused : Bool)
    (q : QueuedRetry) : Prop where
  made : Made crypto key s.retryTokenLifetimeUs q
  dst : q.dst = d.src
  version : q.version = ids.version
  standing : q.standing = false
  taken : reused = true → ∃ e, s.find d.src = some e ∧ e.retryScid = q.retryScid ∧ e.originalDcid = q.originalDcid

theorem ensureRoom_below {s : Gate} (below : s.count < s.retryStateTableCapacity) (order : List Address) (nowUs : Nat) :
    s.ensureRoom order nowUs = s := by
  unfold ensureRoom
  rw [if_neg (by omega)]

theorem mint_cases {crypto : Crypto} {s : Gate} {d : Datagram} {ids : LongHeaderIds} {key : Fixed 32}
    (below : s.count < s.retryStateTableCapacity) (read : peekLongHeaderIds d.bytes = some ids) :
    (s.mintAndQueueRetry crypto d ids key).1 = s ∨ ∃ reused q, Answers crypto s d ids key reused q ∧
      (s.mintAndQueueRetry crypto d ids key).1 = (s.record d reused q).1 := by
  obtain ⟨small,dcidShort,scidShort⟩ := peek_bounds read
  unfold mintAndQueueRetry
  rw [ensureRoom_below below]
  dsimp only
  split
  · exact .inl rfl
  · rename_i retryScid chosen
    split
    · exact .inl rfl
    · rename_i token minted
      split
      · exact .inl rfl
      · rename_i bytes sealed
        split
        · refine .inr ⟨_,_,⟨⟨⟨d.nonce,?_⟩,?_,small,d.now64⟩,rfl,rfl,rfl,?_⟩,rfl⟩
          · rw [clamped_bytes dcidShort]
            exact minted
          · rw [clamped_bytes dcidShort,clamped_bytes scidShort]
            exact sealed
          · intro reused
            obtain ⟨e,found⟩ := Option.isSome_iff_exists.mp reused
            obtain ⟨there,same⟩ := reusable_spec found
            rw [found] at chosen
            refine ⟨e,there,Option.some.inj chosen,?_⟩
            change e.originalDcid = clamped ids.dcid
            rw [← same,clamped_cid]
        · exact .inl rfl

/-- What a datagram can do to the gate while the table is below its capacity. -/
inductive Turn (crypto : Crypto) (s : Gate) (d : Datagram) (key : Fixed 32) : Gate → Prop where
  | rests : Turn crypto s d key s
  | answered {ids : LongHeaderIds} {reused : Bool} {q : QueuedRetry} (read : peekLongHeaderIds d.bytes = some ids)
      (bare : d.echoed = none ∨ s.find d.src = none) (answers : Answers crypto s d ids key reused q) :
      Turn crypto s d key (s.record d reused q).1
  | opened : Turn crypto s d key ((s.displace d.src).remove d.src)

theorem answer_state (crypto : Crypto) (s : Gate) (d : Datagram) (ids : LongHeaderIds) (key : Fixed 32) :
    (s.answer crypto d ids key).1 = (s.mintAndQueueRetry crypto d ids key).1 := by
  unfold answer
  split <;> rename_i made <;> rw [made]

theorem gate_turn {crypto : Crypto} {s : Gate} {d : Datagram} {key : Fixed 32} (on : s.retryTokenKey = some key)
    (below : s.count < s.retryStateTableCapacity) : Turn crypto s d key (s.applyRetryGate crypto d).1 ∧
      ((s.applyRetryGate crypto d).1 = s ∨ (s.applyRetryGate crypto d).2 = .ok .sent ∨
        (s.applyRetryGate crypto d).2 = .ok .drop ∨ (s.applyRetryGate crypto d).2 = .error .outOfMemory) := by
  have turn {ids : LongHeaderIds} (read : peekLongHeaderIds d.bytes = some ids)
      (bare : d.echoed = none ∨ s.find d.src = none) : Turn crypto s d key (s.answer crypto d ids key).1 := by
    rw [answer_state]
    obtain same | ⟨reused,q,answers,after⟩ : (s.mintAndQueueRetry crypto d ids key).1 = s ∨ _ := mint_cases below read
    · rw [same]
      exact .rests
    · rw [after]
      exact .answered read bare answers
  have decision (ids : LongHeaderIds) : (s.answer crypto d ids key).2 = .ok .sent ∨
      (s.answer crypto d ids key).2 = .ok .drop ∨ (s.answer crypto d ids key).2 = .error .outOfMemory := by
    unfold answer
    split
    · exact .inl rfl
    · exact .inr (.inr rfl)
    · exact .inr (.inl rfl)
  unfold applyRetryGate
  rw [on]
  rw [if_neg (by simp)]
  split
  · exact ⟨.rests,.inl rfl⟩
  · rename_i ids read
    split
    · exact ⟨.rests,.inl rfl⟩
    · dsimp only
      split
      · split
        · exact ⟨.rests,.inl rfl⟩
        · exact ⟨.rests,.inl rfl⟩
      · rename_i none
        refine ⟨turn read ?_,.inr (decision ids)⟩
        cases echo : d.echoed with
        | none => exact .inl rfl
        | some token =>
          cases here : s.find d.src with
          | none => exact .inr rfl
          | some e => exact absurd here (none token e echo)

end Gate

end QuicZig.Server.RetryGate
