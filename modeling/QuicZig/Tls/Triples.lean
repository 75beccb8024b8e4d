import QuicZig.Tls.TransportParams

/-! The triples of an encoded blob: what the two sinks write and count, and what
the decoder reads one after the other. -/
namespace QuicZig.Tls.TransportParams
open Machine BigEndian Codec Wire

/-- An id, a length and the value, the two numbers in any widths. -/
def SpellsTriple (t : Triple) (bytes : List Byte) : Prop :=
  ∃ id len, Varint.Spells id t.id ∧ Varint.Spells len t.value.length ∧ bytes = id ++ (len ++ t.value)

inductive SpellsTriples : List Triple → List Byte → Prop
  | nil : SpellsTriples [] []
  | cons {t : Triple} {triples : List Triple} {first later : List Byte} (spells : SpellsTriple t first)
      (rest : SpellsTriples triples later) : SpellsTriples (t::triples) (first ++ later)

theorem SpellsTriple.reads {t : Triple} {bytes : List Byte} (spells : SpellsTriple t bytes) :
    Reads Anything readTriple bytes t := by
  obtain ⟨id,len,spellsId,spellsLen,rfl⟩ := spells
  unfold readTriple
  apply (spellsId.reads.mapError Error.codec).bind
  apply (spellsLen.reads.mapError Error.codec).bind
  intro rest _
  rw [bind_ok (reads_take _ rfl rest trivial)]
  rfl

theorem accepts_triple : Accepts readTriple SpellsTriple := by
  apply (Varint.accepts_read.mapError _).bind
  intro id idBytes spellsId
  apply (Varint.accepts_read.mapError _).bind
  intro len lenBytes spellsLen
  apply (accepts_take _ len).bind
  intro value used taken
  obtain ⟨rfl,rfl⟩ := taken
  apply Accepts.pure
  exact ⟨idBytes,lenBytes,spellsId,spellsLen,by simp⟩

theorem SpellsTriple.ne_nil {t : Triple} {bytes : List Byte} (spells : SpellsTriple t bytes) : bytes ≠ [] := by
  obtain ⟨id,len,spellsId,_,rfl⟩ := spells
  obtain ⟨small,least⟩ := spellsId.bounds
  have positive := Varint.encodedLen_pos t.id small
  intro none
  rw [List.append_eq_nil_iff.mp none |>.1] at least
  simp at least
  omega

def Shape.value : Shape → List Byte
  | .varintParam value => Varint.minimal value
  | .bytesParam bytes => bytes
  | .flag => []
  | .versionList versions => versionBytes versions
  | .preferredAddress addr => preferredAddressBytes addr

theorem length_versionBytes (versions : List UInt32) : (versionBytes versions).length = versions.length*4 := by
  induction versions with
  | nil => rfl
  | cons v rest ih =>
    unfold versionBytes at ih ⊢
    rw [List.flatMap_cons,List.length_append,length_bigEndian,ih,List.length_cons]
    omega

theorem length_preferredAddressBytes (addr : PreferredAddress) :
    (preferredAddressBytes addr).length = preferredAddressValueLen addr := by
  simp only [preferredAddressBytes,preferredAddressValueLen,preferredAddressFixedLen,ConnId.len,List.length_append,
    length_bigEndian,addr.ipv4Address.exact,addr.ipv6Address.exact,addr.statelessResetToken.exact,List.length_singleton]
  omega

theorem fieldEncodedLen_ok {id valueLen n : Nat} (ok : fieldEncodedLen id valueLen = .ok n) :
    id ≤ Varint.maxValue ∧ valueLen ≤ Varint.maxValue ∧ n = Varint.encodedLen id+Varint.encodedLen valueLen+valueLen := by
  unfold fieldEncodedLen at ok
  split at ok
  · cases ok
  rename_i idFits
  split at ok
  · cases ok
  rename_i lenFits
  cases ok
  rw [Varint.encodedLen_zero] at idFits lenFits
  exact ⟨Nat.not_lt.mp idFits,Nat.not_lt.mp lenFits,rfl⟩

theorem fieldEncodedLen_fits {id valueLen : Nat} (idFits : id ≤ Varint.maxValue) (lenFits : valueLen ≤ Varint.maxValue) :
    ∃ n, fieldEncodedLen id valueLen = .ok n := by
  unfold fieldEncodedLen
  rw [if_neg (by rw [Varint.encodedLen_zero]; omega),if_neg (by rw [Varint.encodedLen_zero]; omega)]
  exact ⟨_,rfl⟩

theorem emits_varint {value : Nat} (small : value ≤ Varint.maxValue) :
    Emits (.codec .bufferTooSmall) (encodeVarint value) (Varint.minimal value) :=
  (Varint.emits_minimal value small).1.mapError Error.codec

/-- The sink that writes puts down as many bytes as the sink that counts counts. -/
theorem triple_emits {id n : Nat} {value : List Byte} {w : Writer Error} (ok : fieldEncodedLen id value.length = .ok n)
    (writes : Emits (.codec .bufferTooSmall) w value) : ∃ bytes,
    Emits (.codec .bufferTooSmall) (.all [encodeVarint id,encodeVarint value.length,w]) bytes ∧
      SpellsTriple {id := id,value := value} bytes ∧ bytes.length = n := by
  obtain ⟨idFits,lenFits,rfl⟩ := fieldEncodedLen_ok ok
  obtain ⟨_,spellsId,idLength⟩ := Varint.emits_minimal id idFits
  obtain ⟨_,spellsLen,lenLength⟩ := Varint.emits_minimal value.length lenFits
  refine ⟨Varint.minimal id ++ (Varint.minimal value.length ++ value),?_,⟨_,_,spellsId,spellsLen,rfl⟩,?_⟩
  · exact (emits_varint idFits).cons ((emits_varint lenFits).cons writes.last)
  · rw [List.length_append,List.length_append,idLength,lenLength]
    omega

theorem emits_bytes (bytes : List Byte) : Emits (.codec .bufferTooSmall) (putBytes bytes) bytes :=
  (emits_put Wire.Error.bufferTooSmall bytes).mapError Error.codec

theorem byteSink_emits {id n : Nat} {shape : Shape} (ok : countSink id shape = .ok n) : ∃ bytes,
    Emits (.codec .bufferTooSmall) (byteSink id shape) bytes ∧ SpellsTriple {id := id,value := shape.value} bytes ∧
      bytes.length = n := by
  cases shape with
  | varintParam value =>
    rw [countSink] at ok
    split at ok
    · cases ok
    rename_i fits
    have small : value ≤ Varint.maxValue := by
      rw [Varint.encodedLen_zero] at fits
      exact Nat.not_lt.mp fits
    have length := (Varint.emits_minimal value small).2.2
    rw [byteSink,if_neg fits,all_skip,← length]
    rw [← length] at ok
    exact triple_emits ok (emits_varint small)
  | bytesParam bytes => exact triple_emits ok (emits_bytes bytes)
  | flag =>
    have nothing : fieldEncodedLen id ([] : List Byte).length = .ok n := ok
    exact triple_emits nothing (emits_bytes [])
  | versionList versions =>
    rw [countSink] at ok
    rw [byteSink]
    cases valid : versionListValueLen versions with
    | error e =>
      rw [valid] at ok
      cases ok
    | ok valueLen =>
      rw [valid] at ok
      have length : valueLen = (versionBytes versions).length := by
        unfold versionListValueLen at valid
        rw [length_versionBytes]
        split at valid
        · cases valid
        split at valid
        · cases valid
        cases valid
        rfl
      subst length
      exact triple_emits ok (emits_bytes _)
  | preferredAddress addr =>
    rw [countSink,← length_preferredAddressBytes] at ok
    rw [byteSink,← length_preferredAddressBytes]
    exact triple_emits ok (emits_bytes _)

theorem varint_fits {value room : Nat} {bytes : List Byte} (ok : encodeVarint value room = .ok bytes) :
    value ≤ Varint.maxValue :=
  (Varint.encode_ok (mapError_inv ok)).1

theorem triple_fits {id valueLen room : Nat} {rest : List (Writer Error)} {bytes : List Byte}
    (ok : Writer.all (encodeVarint id::encodeVarint valueLen::rest) room = .ok bytes) :
    ∃ n, fieldEncodedLen id valueLen = .ok n := by
  obtain ⟨_,_,wroteId,wroteRest,_⟩ := all_inv ok
  obtain ⟨_,_,wroteLen,_,_⟩ := all_inv wroteRest
  exact fieldEncodedLen_fits (varint_fits wroteId) (varint_fits wroteLen)

theorem byteSink_counts {id room : Nat} {shape : Shape} {bytes : List Byte} (ok : byteSink id shape room = .ok bytes) :
    ∃ n, countSink id shape = .ok n := by
  cases shape with
  | varintParam value =>
    rw [byteSink] at ok
    rw [countSink]
    split at ok
    · obtain ⟨_,_,_,wroteRest,_⟩ := all_inv ok
      obtain ⟨_,_,failed,_⟩ := all_inv wroteRest
      cases failed
    · rename_i fits
      rw [if_neg fits]
      rw [all_skip] at ok
      exact triple_fits ok
  | bytesParam bytes => exact triple_fits ok
  | flag => exact triple_fits ok
  | versionList versions =>
    rw [byteSink] at ok
    rw [countSink]
    cases valid : versionListValueLen versions with
    | error e =>
      rw [valid] at ok
      cases ok
    | ok valueLen =>
      rw [valid] at ok
      exact triple_fits ok
  | preferredAddress addr => exact triple_fits ok

def tripleOf (entry : Known × Shape) : Triple := {id := entry.1.id,value := entry.2.value}

theorem entries_emit {entries : List (Known × Shape)} {n : Nat} (ok : countAll entries = .ok n) : ∃ bytes,
    Emits (.codec .bufferTooSmall) (.all (entries.map fun entry => byteSink entry.1.id entry.2)) bytes ∧
      SpellsTriples (entries.map tripleOf) bytes ∧ bytes.length = n := by
  induction entries generalizing n with
  | nil =>
    cases ok
    exact ⟨[],Emits.nil _,.nil,rfl⟩
  | cons entry rest ih =>
    rw [countAll] at ok
    split at ok
    · cases ok
    rename_i first counted
    split at ok
    · cases ok
    rename_i others countedRest
    cases ok
    obtain ⟨bytes,writes,spells,rfl⟩ := byteSink_emits counted
    obtain ⟨later,writesRest,spellsRest,rfl⟩ := ih countedRest
    exact ⟨bytes ++ later,writes.cons writesRest,.cons spells spellsRest,List.length_append⟩

theorem entries_count {entries : List (Known × Shape)} {room : Nat} {bytes : List Byte}
    (ok : Writer.all (entries.map fun entry => byteSink entry.1.id entry.2) room = .ok bytes) :
    ∃ n, countAll entries = .ok n := by
  induction entries generalizing room bytes with
  | nil => exact ⟨0,rfl⟩
  | cons entry rest ih =>
    obtain ⟨_,_,wrote,wroteRest,_⟩ := all_inv ok
    obtain ⟨n,counted⟩ := byteSink_counts wrote
    obtain ⟨m,countedRest⟩ := ih wroteRest
    rw [countAll,counted]
    dsimp only
    rw [countedRest]
    exact ⟨n+m,rfl⟩

end QuicZig.Tls.TransportParams
