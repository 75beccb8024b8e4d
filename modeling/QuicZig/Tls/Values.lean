import QuicZig.Tls.Triples
import Mathlib.Logic.Function.Basic

/-! The values of the known parameters: which ones are well formed, and what
parameters a set of values makes, whatever the order they come in. -/
namespace QuicZig.Tls.TransportParams
open Machine BigEndian Codec Wire

theorem map_ok {α β : Type} {value : Except Error α} {f : α → β} {b : β} :
    value.map f = .ok b ↔ ∃ a, value = .ok a ∧ f a = b := by
  cases value with
  | error e => exact ⟨nofun,nofun⟩
  | ok a => simp [Except.map]

theorem decodeVarintValue_ok {value : List Byte} {v : Nat} :
    decodeVarintValue value = .ok v ↔ Varint.Spells value v := by
  unfold decodeVarintValue
  constructor
  · intro ok
    split at ok
    · cases ok
    rename_i d here
    split at ok
    · cases ok
    rename_i whole
    cases ok
    obtain ⟨used,rest,rfl,length,spells⟩ := Varint.decode_spells here
    have none : rest = [] := by
      rw [List.length_append] at whole
      exact List.eq_nil_of_length_eq_zero (by omega)
    rwa [none,List.append_nil]
  · intro spells
    have whole := spells.decodes []
    rw [List.append_nil] at whole
    rw [whole]
    dsimp only
    rw [if_neg (by simp)]

theorem boundedOf_ok {bound : Nat → Bool} {value : List Byte} {v : Nat} :
    boundedOf bound value = .ok v ↔ Varint.Spells value v ∧ bound v = true := by
  unfold boundedOf
  rw [← decodeVarintValue_ok]
  cases decodeVarintValue value with
  | error e => simp
  | ok w =>
    dsimp only
    split
    · rename_i holds
      constructor
      · intro ok
        cases ok
        exact ⟨rfl,holds⟩
      · intro both
        exact both.1
    · rename_i fails
      constructor
      · nofun
      · intro both
        cases both.1
        exact absurd both.2 fails

theorem cidOf_ok {value : List Byte} {cid : ConnId} : cidOf value = .ok cid ↔ cid.bytes = value := by
  unfold cidOf
  split
  · constructor
    · intro ok
      cases ok
      rfl
    · intro same
      subst same
      rfl
  · rename_i long
    constructor
    · nofun
    · intro same
      subst same
      exact absurd cid.short long

theorem tokenOf_ok {value : List Byte} {token : Fixed 16} : tokenOf value = .ok token ↔ token.bytes = value := by
  unfold tokenOf
  split
  · constructor
    · intro ok
      cases ok
      rfl
    · intro same
      subst same
      rfl
  · rename_i other
    constructor
    · intro ok
      cases ok
    · intro same
      subst same
      exact absurd token.exact other

theorem flagOf_ok {value : List Byte} {b : Bool} : flagOf value = .ok b ↔ value = [] ∧ b = true := by
  unfold flagOf
  cases value <;> simp [eq_comm]

theorem wordsOf_versionBytes (versions : List UInt32) : wordsOf (versionBytes versions) = versions := by
  induction versions with
  | nil => rfl
  | cons v rest ih =>
    have four : ∃ a b c d, bigEndian 4 v.toNat = [a,b,c,d] := ⟨_,_,_,_,rfl⟩
    obtain ⟨a,b,c,d,four⟩ := four
    have number : ofBigEndian 0 [a,b,c,d] = v.toNat := by
      rw [← four,ofBigEndian_bigEndian]
      have bound := v.toNat_lt
      omega
    unfold versionBytes at ih ⊢
    rw [List.flatMap_cons,four]
    simp only [List.cons_append,List.nil_append,wordsOf]
    rw [number,ih,UInt32.ofNat_toNat]

theorem versionBytes_wordsOf (value : List Byte) (whole : value.length % 4 = 0) : versionBytes (wordsOf value) = value := by
  fun_induction wordsOf value with
  | case1 a b c d rest ih =>
    have bound := ofBigEndian_lt [a,b,c,d]
    have back := bigEndian_ofBigEndian [a,b,c,d] 0
    simp only [List.length_cons,List.length_nil] at bound back whole
    have number : (UInt32.ofNat (ofBigEndian 0 [a,b,c,d])).toNat = ofBigEndian 0 [a,b,c,d] := by
      rw [UInt32.toNat_ofNat']
      omega
    unfold versionBytes at ih ⊢
    rw [List.flatMap_cons,number,back,ih (by omega)]
    rfl
  | case2 value short =>
    match value with
    | [] => rfl
    | [_] | [_,_] | [_,_,_] => cases whole
    | a::b::c::d::rest => exact absurd rfl (short a b c d rest)

theorem versionsOf_ok {value : List Byte} {versions : CompatibleVersions} :
    versionsOf value = .ok versions ↔ value ≠ [] ∧ versionBytes versions.list = value := by
  unfold versionsOf
  constructor
  · intro ok
    split at ok
    · cases ok
    rename_i shape
    split at ok
    · cases ok
      rw [versionBytes_wordsOf value (by omega)]
      refine ⟨?_,rfl⟩
      intro none
      rw [none] at shape
      exact shape (.inl rfl)
    · cases ok
  · intro both
    obtain ⟨some,rfl⟩ := both
    have length := length_versionBytes versions.list
    have positive := List.length_pos_of_ne_nil some
    rw [if_neg (by omega)]
    simp only [wordsOf_versionBytes,dif_pos versions.few]

theorem port_bytes (port : UInt16) : UInt16.ofNat (ofBigEndian 0 (bigEndian 2 port.toNat)) = port := by
  have small : port.toNat % 256^2 = port.toNat := Nat.mod_eq_of_lt port.toNat_lt
  rw [ofBigEndian_bigEndian,Nat.zero_mul,Nat.zero_add,small,UInt16.ofNat_toNat]

theorem bytes_port {bytes : List Byte} (length : bytes.length = 2) :
    bigEndian 2 (UInt16.ofNat (ofBigEndian 0 bytes)).toNat = bytes := by
  have bound := ofBigEndian_lt bytes
  have back := bigEndian_ofBigEndian bytes 0
  rw [length] at bound back
  have small : ofBigEndian 0 bytes % 2^16 = ofBigEndian 0 bytes := Nat.mod_eq_of_lt bound
  rw [UInt16.toNat_ofNat',small,back]

theorem cidLen_byte (cid : ConnId) : (UInt8.ofNat cid.len).toNat = cid.bytes.length := by
  have short := cid.short
  unfold maxCidLen at short
  rw [UInt8.toNat_ofNat',ConnId.len]
  omega

theorem reads_preferredAddress (addr : PreferredAddress) :
    Reads Anything (readPreferredAddress addr.connectionId.bytes.length) (preferredAddressBytes addr) addr := by
  unfold readPreferredAddress preferredAddressBytes
  apply (reads_fixed _ addr.ipv4Address).bind
  apply (reads_take _ (length_bigEndian 2 addr.ipv4Port.toNat)).bind
  apply (reads_fixed _ addr.ipv6Address).bind
  apply (reads_take _ (length_bigEndian 2 addr.ipv6Port.toNat)).bind
  apply (reads_byte _ (UInt8.ofNat addr.connectionId.len)).bind
  apply (reads_take _ rfl).bind
  have cid : cidOf addr.connectionId.bytes = .ok addr.connectionId := cidOf_ok.mpr rfl
  rw [cid,bind_lift,port_bytes,port_bytes]
  intro rest _
  rw [bind_ok (reads_fixed _ addr.statelessResetToken rest trivial)]
  rfl

theorem cidLen_index (v4 : Fixed 4) (v6 : Fixed 16) {port4 port6 rest : List Byte} (b : Byte) (size4 : port4.length = 2)
    (size6 : port6.length = 2) :
    (v4.bytes ++ (port4 ++ (v6.bytes ++ (port6 ++ ([b] ++ rest))))).getD 24 0 = b := by
  have front : (v4.bytes ++ (port4 ++ (v6.bytes ++ port6))).length = 24 := by
    simp only [List.length_append,v4.exact,v6.exact,size4,size6]
  have regroup : v4.bytes ++ (port4 ++ (v6.bytes ++ (port6 ++ ([b] ++ rest)))) =
      (v4.bytes ++ (port4 ++ (v6.bytes ++ port6))) ++ (b::rest) := by simp
  rw [regroup,List.getD_append_right _ _ _ _ (Nat.le_of_eq front),front]
  rfl

theorem decodePreferredAddress_ok {value : List Byte} {addr : PreferredAddress} :
    decodePreferredAddress value = .ok addr ↔ preferredAddressBytes addr = value := by
  unfold decodePreferredAddress
  constructor
  · intro ok
    split at ok
    · cases ok
    dsimp only at ok
    split at ok
    · cases ok
    split at ok
    · cases ok
    rename_i short length
    unfold Parser.run at ok
    split at ok
    · rename_i a rest read
      cases ok
      obtain ⟨ipv4Address,s₁,read4,read⟩ := bind_inv read
      obtain ⟨ipv4Port,s₂,readPort4,read⟩ := bind_inv read
      obtain ⟨ipv6Address,s₃,read6,read⟩ := bind_inv read
      obtain ⟨ipv6Port,s₄,readPort6,read⟩ := bind_inv read
      obtain ⟨cidLength,s₅,readLength,read⟩ := bind_inv read
      obtain ⟨cid,s₆,readCid,read⟩ := bind_inv read
      obtain ⟨connectionId,s₇,lifted,read⟩ := bind_inv read
      obtain ⟨token,s₈,readToken,done⟩ := bind_inv read
      cases done
      obtain ⟨_,rfl,rfl⟩ := accepts_fixed _ _ _ _ _ read4
      obtain ⟨_,rfl,rfl,size4⟩ := accepts_take _ _ _ _ _ readPort4
      obtain ⟨_,rfl,rfl⟩ := accepts_fixed _ _ _ _ _ read6
      obtain ⟨_,rfl,rfl,size6⟩ := accepts_take _ _ _ _ _ readPort6
      obtain ⟨_,rfl,rfl⟩ := accepts_byte _ _ _ _ readLength
      obtain ⟨_,rfl,rfl,sizeCid⟩ := accepts_take _ _ _ _ _ readCid
      obtain ⟨made,rfl⟩ := lift_inv lifted
      obtain ⟨_,rfl,rfl⟩ := accepts_fixed _ _ _ _ _ readToken
      rw [cidOf_ok] at made
      subst made
      rw [cidLen_index ipv4Address ipv6Address cidLength size4 size6] at sizeCid length
      have none : rest = [] := by
        simp only [List.length_append,ipv4Address.exact,ipv6Address.exact,token.exact,size4,size6,List.length_singleton,
          preferredAddressFixedLen] at length
        exact List.eq_nil_of_length_eq_zero (by omega)
      have byte : UInt8.ofNat connectionId.len = cidLength := by
        rw [ConnId.len,sizeCid,UInt8.ofNat_toNat]
      unfold preferredAddressBytes
      rw [bytes_port size4,bytes_port size6,byte,none,List.append_nil]
    · cases ok
  · intro same
    subst same
    have size := length_preferredAddressBytes addr
    have index : (preferredAddressBytes addr).getD 24 0 = UInt8.ofNat addr.connectionId.len :=
      cidLen_index addr.ipv4Address addr.ipv6Address _ (length_bigEndian 2 _) (length_bigEndian 2 _)
    have read := reads_preferredAddress addr [] trivial
    have short := addr.connectionId.short
    rw [List.append_nil] at read
    unfold preferredAddressValueLen ConnId.len at size
    rw [index,cidLen_byte]
    dsimp only
    rw [if_neg (by omega),if_neg (by omega),if_neg (by omega),Parser.run,read]

/-- The well-formed values of a known parameter. -/
def ValidValue (k : Known) (value : List Byte) : Prop :=
  match k with
  | .originalDestinationConnectionId | .initialSourceConnectionId | .retrySourceConnectionId => value.length ≤ maxCidLen
  | .statelessResetToken => value.length = 16
  | .disableActiveMigration | .greaseQuicBit | .alternativeAddress => value = []
  | .preferredAddress => ∃ addr, preferredAddressBytes addr = value
  | .versionInformation => ∃ versions : CompatibleVersions, value ≠ [] ∧ versionBytes versions.list = value
  | .ackDelayExponent => ∃ v, Varint.Spells value v ∧ v ≤ 20
  | .maxAckDelay => ∃ v, Varint.Spells value v ∧ v < 2^14
  | .activeConnectionIdLimit => ∃ v, Varint.Spells value v ∧ 2 ≤ v
  | .initialMaxPathId => ∃ v, Varint.Spells value v ∧ v ≤ maxU32
  | .maxIdleTimeout | .maxUdpPayloadSize | .initialMaxData | .initialMaxStreamDataBidiLocal
  | .initialMaxStreamDataBidiRemote | .initialMaxStreamDataUni | .initialMaxStreamsBidi | .initialMaxStreamsUni
  | .maxDatagramFrameSize | .minAckDelay => ∃ v, Varint.Spells value v

section
variable {α : Type} (values : Known → Option (List Byte))

/-- The field that a parameter fills, when it is there. -/
def field (k : Known) (parse : List Byte → Except Error α) : Option α := (values k).bind fun value => (parse value).toOption

/-- The parameters that a set of values makes. -/
def assemble : Params where
  originalDestinationConnectionId := field values .originalDestinationConnectionId cidOf
  maxIdleTimeoutMs := (field values .maxIdleTimeout decodeVarintValue).getD 0
  statelessResetToken := field values .statelessResetToken tokenOf
  maxUdpPayloadSize := (field values .maxUdpPayloadSize decodeVarintValue).getD 65527
  initialMaxData := (field values .initialMaxData decodeVarintValue).getD 0
  initialMaxStreamDataBidiLocal := (field values .initialMaxStreamDataBidiLocal decodeVarintValue).getD 0
  initialMaxStreamDataBidiRemote := (field values .initialMaxStreamDataBidiRemote decodeVarintValue).getD 0
  initialMaxStreamDataUni := (field values .initialMaxStreamDataUni decodeVarintValue).getD 0
  initialMaxStreamsBidi := (field values .initialMaxStreamsBidi decodeVarintValue).getD 0
  initialMaxStreamsUni := (field values .initialMaxStreamsUni decodeVarintValue).getD 0
  ackDelayExponent := (field values .ackDelayExponent (boundedOf (· ≤ 20))).getD 3
  maxAckDelayMs := (field values .maxAckDelay (boundedOf (· < 1 <<< 14))).getD 25
  disableActiveMigration := (field values .disableActiveMigration flagOf).getD false
  preferredAddress := field values .preferredAddress decodePreferredAddress
  activeConnectionIdLimit := (field values .activeConnectionIdLimit (boundedOf (2 ≤ ·))).getD 2
  initialSourceConnectionId := field values .initialSourceConnectionId cidOf
  retrySourceConnectionId := field values .retrySourceConnectionId cidOf
  compatibleVersions := (field values .versionInformation versionsOf).getD {}
  maxDatagramFrameSize := (field values .maxDatagramFrameSize decodeVarintValue).getD 0
  minAckDelayUs := field values .minAckDelay decodeVarintValue
  greaseQuicBit := (field values .greaseQuicBit flagOf).getD false
  initialMaxPathId := (field values .initialMaxPathId (boundedOf (· ≤ maxU32))).map UInt32.ofNat
  alternativeAddress := (field values .alternativeAddress flagOf).getD false

variable {values}

@[simp] theorem field_update_same {k : Known} {value : List Byte} {parse : List Byte → Except Error α} {a : α}
    (parsed : parse value = .ok a) : field (Function.update values k (some value)) k parse = some a := by
  unfold field
  rw [Function.update_self,Option.bind_some,parsed]
  rfl

@[simp] theorem field_update_other {k other : Known} {value : Option (List Byte)} {parse : List Byte → Except Error α}
    (different : other ≠ k) : field (Function.update values k value) other parse = field values other parse := by
  unfold field
  rw [Function.update_of_ne different]

end

theorem setKnown_assemble {values : Known → Option (List Byte)} {k : Known} {value : List Byte} {p : Params}
    (ok : setKnown (assemble values) k value = .ok p) : p = assemble (Function.update values k (some value)) := by
  cases k <;>
    (obtain ⟨a,parsed,rfl⟩ := map_ok.mp ok
     simp [assemble,parsed,-Nat.reduceShiftLeft])

theorem cidOf_valid {value : List Byte} : (∃ cid, cidOf value = .ok cid) ↔ value.length ≤ maxCidLen := by
  constructor
  · intro made
    obtain ⟨cid,made⟩ := made
    rw [← cidOf_ok.mp made]
    exact cid.short
  · exact fun short => ⟨⟨value,short⟩,cidOf_ok.mpr rfl⟩

theorem tokenOf_valid {value : List Byte} : (∃ token, tokenOf value = .ok token) ↔ value.length = 16 := by
  constructor
  · intro made
    obtain ⟨token,made⟩ := made
    rw [← tokenOf_ok.mp made]
    exact token.exact
  · exact fun exact => ⟨⟨value,exact⟩,tokenOf_ok.mpr rfl⟩

theorem flagOf_valid {value : List Byte} : (∃ b, flagOf value = .ok b) ↔ value = [] := by
  constructor
  · intro made
    obtain ⟨b,made⟩ := made
    exact (flagOf_ok.mp made).1
  · exact fun none => ⟨true,flagOf_ok.mpr ⟨none,rfl⟩⟩

theorem setKnown_valid (p : Params) (k : Known) (value : List Byte) :
    (∃ p', setKnown p k value = .ok p') ↔ ValidValue k value := by
  have mapped {α : Type} (parse : List Byte → Except Error α) (set : α → Params) :
      (∃ p', (parse value).map set = .ok p') ↔ ∃ a, parse value = .ok a := by
    cases parse value <;> simp [Except.map]
  cases k with
  | originalDestinationConnectionId | initialSourceConnectionId | retrySourceConnectionId =>
    exact (mapped cidOf _).trans cidOf_valid
  | statelessResetToken => exact (mapped tokenOf _).trans tokenOf_valid
  | disableActiveMigration | greaseQuicBit | alternativeAddress => exact (mapped flagOf _).trans flagOf_valid
  | preferredAddress => exact (mapped decodePreferredAddress _).trans (exists_congr fun _ => decodePreferredAddress_ok)
  | versionInformation => exact (mapped versionsOf _).trans (exists_congr fun _ => versionsOf_ok)
  | ackDelayExponent | maxAckDelay | activeConnectionIdLimit | initialMaxPathId =>
    exact (mapped (boundedOf _) _).trans (exists_congr fun _ => boundedOf_ok.trans (by simp))
  | maxIdleTimeout | maxUdpPayloadSize | initialMaxData | initialMaxStreamDataBidiLocal | initialMaxStreamDataBidiRemote
  | initialMaxStreamDataUni | initialMaxStreamsBidi | initialMaxStreamsUni | maxDatagramFrameSize | minAckDelay =>
    exact (mapped decodeVarintValue _).trans (exists_congr fun _ => decodeVarintValue_ok)

theorem ofId_id (k : Known) : Known.ofId k.id = some k := by
  cases k <;> rfl

theorem ofId_some {id : Nat} {k : Known} (known : Known.ofId id = some k) : k.id = id := by
  simpa using List.find?_some known

theorem ofId_none {id : Nat} (unknown : Known.ofId id = none) (k : Known) : k.id ≠ id := by
  intro same
  rw [← same,ofId_id] at unknown
  cases unknown

theorem bit_injective {j k : Known} (same : j.bit = k.bit) : j = k := by
  have member (k : Known) : k ∈ Known.all := by
    cases k <;> decide
  exact (List.idxOf_inj (member j)).mp same

/-- What a triple must carry: any value when its id is unknown. -/
def ValidTriple (t : Triple) : Prop := ∀ k, Known.ofId t.id = some k → ValidValue k t.value

/-- The value that a list of triples has for each parameter, the first one when there are several. -/
def valuesOf (triples : List Triple) (k : Known) : Option (List Byte) := (triples.find? (·.id = k.id)).map (·.value)

theorem valuesOf_known {t : Triple} {k : Known} (known : Known.ofId t.id = some k) (done : List Triple) :
    valuesOf (t::done) = Function.update (valuesOf done) k (some t.value) := by
  funext j
  unfold valuesOf
  by_cases same : j = k
  · subst same
    simp [ofId_some known]
  · have other : ¬ t.id = j.id := by
      intro equal
      rw [equal,ofId_id] at known
      exact same (Option.some.inj known)
    rw [Function.update_of_ne same]
    simp [other]

theorem valuesOf_unknown {t : Triple} (unknown : Known.ofId t.id = none) (done : List Triple) :
    valuesOf (t::done) = valuesOf done := by
  funext j
  unfold valuesOf
  have other : ¬ t.id = j.id := fun same => ofId_none unknown j same.symm
  simp [other]

theorem setOne_valid (p : Params) (t : Triple) : (∃ p', setOne p t.id t.value = .ok p') ↔ ValidTriple t := by
  unfold setOne ValidTriple
  cases known : Known.ofId t.id with
  | none => simp
  | some k => simpa using setKnown_valid p k t.value

theorem setOne_assemble {done : List Triple} {t : Triple} {p : Params}
    (ok : setOne (assemble (valuesOf done)) t.id t.value = .ok p) : p = assemble (valuesOf (t::done)) := by
  unfold setOne at ok
  split at ok
  · rename_i unknown
    cases ok
    rw [valuesOf_unknown unknown]
  · rename_i k known
    rw [valuesOf_known known]
    exact setKnown_assemble ok

theorem valuesOf_some {triples : List Triple} (distinct : (triples.map Triple.id).Nodup) (k : Known) (value : List Byte) :
    valuesOf triples k = some value ↔ ⟨k.id,value⟩ ∈ triples := by
  induction triples with
  | nil => simp [valuesOf]
  | cons t rest ih =>
    obtain ⟨fresh,distinct⟩ := List.nodup_cons.mp distinct
    have found := ih distinct
    unfold valuesOf at found ⊢
    rw [List.find?_cons,List.mem_cons]
    by_cases here : t.id = k.id
    · have absent : (⟨k.id,value⟩ : Triple) ∉ rest := by
        intro member
        apply fresh
        rw [here]
        exact List.mem_map.mpr ⟨_,member,rfl⟩
      have same : (⟨k.id,value⟩ : Triple) = t ↔ t.value = value := by
        obtain ⟨id,carried⟩ := t
        dsimp only at here
        simp [here,eq_comm]
      simp [here,absent,same]
    · have other : (⟨k.id,value⟩ : Triple) ≠ t := by
        intro same
        exact here (congrArg Triple.id same.symm)
      simp only [here,other,decide_false,false_or]
      exact found

theorem valuesOf_filter (triples : List Triple) :
    valuesOf (triples.filter fun t => (Known.ofId t.id).isSome) = valuesOf triples := by
  induction triples with
  | nil => rfl
  | cons t rest ih =>
    cases known : Known.ofId t.id with
    | none => rw [List.filter_cons_of_neg (by simp [known]),valuesOf_unknown known,ih]
    | some k => rw [List.filter_cons_of_pos (by simp [known]),valuesOf_known known,valuesOf_known known,ih]

/-- The values do not depend on the order of the triples, nor on those with unknown ids. -/
theorem valuesOf_congr {triples others : List Triple} (distinct : (triples.map Triple.id).Nodup)
    (same : (triples.filter fun t => (Known.ofId t.id).isSome).Perm (others.filter fun t => (Known.ofId t.id).isSome)) :
    valuesOf triples = valuesOf others := by
  rw [← valuesOf_filter triples,← valuesOf_filter others]
  have first : ((triples.filter fun t => (Known.ofId t.id).isSome).map Triple.id).Nodup :=
    distinct.sublist (List.filter_sublist.map Triple.id)
  have second := (same.map Triple.id).nodup_iff.mp first
  funext k
  apply Option.ext
  intro value
  rw [valuesOf_some first,valuesOf_some second,same.mem_iff]

end QuicZig.Tls.TransportParams
