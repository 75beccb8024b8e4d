import QuicZig.Wire.ProtectionSpec
import QuicZig.Wire.LongPacket

/-! What a sealed packet with a long header is made of, and what a receiver and a mere
onlooker find at the front of bytes that begin with one. -/
namespace QuicZig.Wire.LongPacket
open Machine BigEndian Codec Keystream Protection Header

structure Contents where
  longType : LongType
  version : UInt32
  dcid : ConnId
  scid : ConnId
  token : List Byte
  reservedBits : Fin 4
  quicBit : Fin 2
  pnLength : PnLength
  pn : Nat
  plain : List Byte

namespace Contents

def first (c : Contents) : Byte :=
  longBits c.quicBit (longTypeToBits c.version.toNat c.longType) c.reservedBits ||| UInt8.ofNat c.pnLength.toTwoBits

def number (c : Contents) : List Byte := bigEndian c.pnLength.bytes (PacketNumber.truncate c.pn c.pnLength.bytes)

def fields (c : Contents) (tokenLength lengthField : List Byte) : List Byte :=
  (longHeaderCommon c.first c.version.toNat c.dcid c.scid).tail++
    ((if c.longType = .initial then tokenLength++c.token else [])++lengthField)

def lengthValue (c : Contents) : Nat := c.plain.length+16+c.pnLength.bytes

theorem first_fields (c : Contents) : c.first &&& (0x80 : Byte) ≠ 0 ∧
    bitsAt 4 c.first 4 = longTypeToBits c.version.toNat c.longType ∧ bitsAt 2 c.first 6 = c.quicBit ∧
    bitsAt 4 c.first 2 = c.reservedBits ∧ bitsAt 4 c.first 0 = c.pnLength.toTwoBits :=
  firstByte_fields.1 c.quicBit (longTypeToBits c.version.toNat c.longType) c.reservedBits c.pnLength.toTwoBits

theorem length_number (c : Contents) : c.number.length = c.pnLength.bytes := length_bigEndian _ _

theorem version_small (c : Contents) : c.version.toNat < 2^32 := c.version.toNat_lt

end Contents

/-- `packet` is `c`, sealed with `keys`. -/
structure Sealed (keys : PacketKeys) (c : Contents) (packet tokenLength lengthField : List Byte) (sample : Fixed 16) :
    Prop where
  suite : c.longType = .initial → keys.suite = .aes128GcmSha256
  token : c.longType = .initial → Varint.Spells tokenLength c.token.length
  tokenless : c.longType ≠ .initial → c.token = []
  length : Varint.Spells lengthField c.lengthValue
  sampled : 4 ≤ c.pnLength.bytes+c.plain.length
  taken : sampleAt (c.number++ciphertext keys none c.pn (c.first::(c.fields tokenLength lengthField++c.number)) c.plain) 0 =
    .ok sample
  packet : packet = protectedBytes .long (keys.headerProtectionMask sample) c.first (c.fields tokenLength lengthField)
    c.number (ciphertext keys none c.pn (c.first::(c.fields tokenLength lengthField++c.number)) c.plain)

section
variable {keys : PacketKeys} {c : Contents} {packet tokenLength lengthField : List Byte} {sample : Fixed 16}

theorem Sealed.size (made : Sealed keys c packet tokenLength lengthField sample) :
    packet.length = 1+(c.fields tokenLength lengthField).length+c.lengthValue := by
  rw [made.packet,length_protectedBytes,length_ciphertext,c.length_number,Contents.lengthValue]
  omega

theorem reads_token (spells : c.longType = .initial → Varint.Spells tokenLength c.token.length)
    (tokenless : c.longType ≠ .initial → c.token = []) :
    Reads Anything (tokenField c.longType) (if c.longType = .initial then tokenLength++c.token else []) c.token := by
  unfold tokenField
  by_cases initial : c.longType = .initial
  · rw [if_pos initial,if_pos initial]
    exact (spells initial).reads.bind (reads_take _ rfl)
  · rw [if_neg initial,if_neg initial,tokenless initial]
    exact Reads.pure [] _

theorem readPrefix_fields (made : Sealed keys c packet tokenLength lengthField sample) (total : Nat) (s : List Byte) :
    readPrefix total c.longType (c.fields tokenLength lengthField++s) =
      .ok (⟨c.dcid,c.scid,c.token,c.lengthValue,total-s.length⟩,s) := by
  unfold readPrefix Contents.fields
  rw [List.append_assoc,bind_ok (longCommonSlices_common total c.first _ c.dcid c.scid c.version_small _),fromSlice_bytes,
    fromSlice_bytes,bind_lift,bind_lift,List.append_assoc,
    bind_ok (reads_token made.token made.tokenless _ trivial),bind_ok (made.length.reads _ trivial),bind_remaining]
  rfl

theorem peekEnd_fields (made : Sealed keys c packet tokenLength lengthField sample) {total : Nat} {s : List Byte}
    (enough : c.lengthValue ≤ s.length) :
    (peekEnd total c.longType).run (c.fields tokenLength lengthField++s) = .ok (total-s.length+c.lengthValue) := by
  unfold peekEnd Contents.fields Parser.run
  rw [List.append_assoc,bind_ok (longCommonSlices_common total c.first _ c.dcid c.scid c.version_small _),List.append_assoc,
    bind_ok (reads_token made.token made.tokenless _ trivial),bind_ok (made.length.reads _ trivial),bind_remaining,
    if_neg (by omega)]
  rfl

theorem Sealed.front (made : Sealed keys c packet tokenLength lengthField sample) (rest : List Byte) :
    ∃ byte0 tail, packet++rest = byte0::(c.fields tokenLength lengthField++tail) ∧ byte0 &&& (0x80 : Byte) ≠ 0 ∧
      bitsAt 4 byte0 4 = longTypeToBits c.version.toNat c.longType ∧ tail.length = c.lengthValue+rest.length := by
  obtain ⟨k,key⟩ := firstKey_long (keys.headerProtectionMask sample)
  obtain ⟨long,type,_⟩ := c.first_fields
  obtain ⟨sameType,sameForm⟩ := masked_long c.first k
  refine ⟨c.first ^^^ UInt8.ofNat k,Keystream.mask (fun a b : Byte => a ^^^ b)
      (pnKey (keys.headerProtectionMask sample) c.number.length) c.number++
      (ciphertext keys none c.pn (c.first::(c.fields tokenLength lengthField++c.number)) c.plain++rest),
    ?_,by rw [sameForm]; exact long,sameType.trans type,?_⟩
  · rw [made.packet,protectedBytes,key]
    simp [Keystream.mask]
  · simp only [List.length_append,length_mask,length_ciphertext,c.length_number,Contents.lengthValue]
    omega

theorem version_bytes (tokenLength lengthField s : List Byte) :
    ofBigEndian 0 ((c.fields tokenLength lengthField++s).take 4) = c.version.toNat := by
  have small := c.version_small
  unfold Contents.fields longHeaderCommon
  rw [List.tail_cons,List.append_assoc,List.append_assoc,List.append_assoc,List.take_left' (length_bigEndian 4 _),
    ofBigEndian_bigEndian]
  omega

theorem fields_length (tokenLength lengthField : List Byte) : 4 ≤ (c.fields tokenLength lengthField).length := by
  unfold Contents.fields longHeaderCommon
  simp only [List.tail_cons,List.length_append,length_bigEndian]
  omega

theorem Sealed.peek (made : Sealed keys c packet tokenLength lengthField sample) (known : c.version.toNat ≠ 0)
    (type : c.longType ≠ .retry) (rest : List Byte) : peekPacketLen (packet++rest) = some packet.length := by
  obtain ⟨byte0,tail,bytes,long,typeBits,size⟩ := made.front rest
  have enough := fields_length (c := c) tokenLength lengthField
  have total : (byte0::(c.fields tokenLength lengthField++tail)).length =
      1+(c.fields tokenLength lengthField).length+tail.length := by
    rw [List.length_cons,List.length_append]
    omega
  rw [bytes]
  unfold peekPacketLen
  dsimp only
  rw [version_bytes,typeBits,longType_bits,peekEnd_fields made (by omega),if_neg (by rw [total]; simp [long]; omega),
    if_neg (by simp [known,type])]
  dsimp only
  rw [made.size,total]
  congr 1
  omega

theorem Sealed.checkPrefix (made : Sealed keys c packet tokenLength lengthField sample) (rest : List Byte) :
    checkPrefix (packet++rest) keys c.longType =
      .ok ⟨c.dcid,c.scid,c.token,c.lengthValue,1+(c.fields tokenLength lengthField).length⟩ := by
  obtain ⟨byte0,tail,bytes,long,typeBits,size⟩ := made.front rest
  have enough := fields_length (c := c) tokenLength lengthField
  have sampled := made.sampled
  have total : (byte0::(c.fields tokenLength lengthField++tail)).length =
      1+(c.fields tokenLength lengthField).length+tail.length := by
    rw [List.length_cons,List.length_append]
    omega
  have suite : ¬ (c.longType = .initial ∧ keys.suite ≠ .aes128GcmSha256) := fun wrong => wrong.2 (made.suite wrong.1)
  have offset : 1+(c.fields tokenLength lengthField).length+tail.length-tail.length =
      1+(c.fields tokenLength lengthField).length := by omega
  rw [bytes]
  unfold LongPacket.checkPrefix Parser.run
  dsimp only
  rw [readPrefix_fields made,version_bytes,typeBits,longType_bits,if_neg (by rw [total]; omega),if_neg long,
    if_neg (fun wrong => wrong rfl),if_neg suite,total]
  dsimp only
  unfold Contents.lengthValue sampleLen at *
  rw [offset,if_neg (by omega),if_neg (by omega),if_neg (by omega)]

/-- A receiver that has seen numbers close enough finds what went into the packet, whatever follows it. -/
theorem Sealed.opens (made : Sealed keys c packet tokenLength lengthField sample) (small : c.pn < 2^62)
    {largestReceived : Nat} (near : InWindow c.pn c.pnLength.bytes largestReceived) {room : Nat}
    (fits : c.plain.length+16 ≤ room) (rest : List Byte) :
    ∃ opened, opened.length+1 = packet.length ∧ openLongHeader room (packet++rest) keys largestReceived c.longType = (.ok {
      pn := c.pn
      payload := c.plain
      bytesConsumed := packet.length
      scid := c.scid
      dcid := c.dcid
      token := c.token
      reservedBits := c.reservedBits},c.first::(opened++rest)) := by
  obtain ⟨least,most⟩ := pnLength_bounds c.pnLength
  have size := c.length_number
  obtain ⟨_,typeBits,_,reserved,pnBits⟩ := c.first_fields
  obtain ⟨middle,here⟩ : ∃ middle, middle = c.fields tokenLength lengthField := ⟨_,rfl⟩
  obtain ⟨tail,sealing⟩ : ∃ tail, tail = ciphertext keys none c.pn (c.first::(middle++c.number)) c.plain := ⟨_,rfl⟩
  have packet' : packet = protectedBytes .long (keys.headerProtectionMask sample) c.first middle c.number tail := by
    rw [made.packet,sealing,here]
  have taken : sampleAt (c.number++tail) 0 = .ok sample := by
    rw [sealing,here]
    exact made.taken
  have sizeTail : tail.length = c.plain.length+16 := by rw [sealing,length_ciphertext]
  have whole : packet++rest =
      protectedBytes .long (keys.headerProtectionMask sample) c.first middle c.number (tail++rest) := by
    rw [packet']
    simp only [protectedBytes,List.append_assoc]
  -- The sample lies behind the longest packet number, where the mask changes nothing.
  have sampled : sampleAt (packet++rest) (1+middle.length) = .ok sample := by
    rw [whole,protectedBytes,← List.append_assoc _ middle,sampleAt_behind (by rw [List.length_append,length_mask]; rfl),
      sampleAt_number (length_mask _ _) (by omega),← List.append_assoc]
    exact sampleAt_more taken
  have lowBits : (c.first &&& (0x03 : Byte)).toNat+1 = c.number.length := by
    rw [size]
    exact low_bits c.first c.pnLength pnBits
  have unmasked : unmask (packet++rest) (1+middle.length) (keys.headerProtectionMask sample) =
      (c.first,c.number.length,c.first::(middle++(c.number++(tail++rest)))) := by
    unfold unmask
    rw [whole,unmask_first]
    dsimp only [List.headD_cons]
    rw [lowBits,unmask_number _ _ _ rfl (by omega)]
  have version : ofBigEndian 0 ((middle++(c.number++(tail++rest))).take 4) = c.version.toNat := by
    rw [here]
    exact version_bytes _ _ _
  have behind : (c.first::(middle++(c.number++(tail++rest)))).drop (1+middle.length) = c.number++(tail++rest) := by
    rw [Nat.add_comm,List.drop_succ_cons,List.drop_left' rfl]
  have header : (c.first::(middle++(c.number++(tail++rest)))).take (1+middle.length+c.number.length) =
      c.first::(middle++c.number) := by
    have split : c.first::(middle++(c.number++(tail++rest))) = (c.first::(middle++c.number))++(tail++rest) := by simp
    rw [split,List.take_left' (by simp; omega)]
  have cipher : ((c.first::(middle++(c.number++(tail++rest)))).drop (1+middle.length+c.number.length)).take
      (c.lengthValue-c.number.length) = tail := by
    rw [← List.drop_drop,behind,List.drop_left' rfl,List.take_left' (by rw [sizeTail,size,Contents.lengthValue]; omega)]
  have truncated : PacketNumber.readTruncated (c.number++(tail++rest)) c.number.length =
      .ok (PacketNumber.truncate c.pn c.pnLength.bytes) := by
    rw [size]
    exact readTruncated_number c.pn c.pnLength _
  have decoded : PacketNumber.decode (PacketNumber.truncate c.pn c.pnLength.bytes) c.number.length largestReceived =
      .ok (some c.pn) := by
    rw [size]
    exact decode_window least most small near
  refine ⟨middle++(c.number++tail),?_,?_⟩
  · rw [packet',length_protectedBytes]
    simp only [List.length_append]
    omega
  rw [show middle++(c.number++tail)++rest = middle++(c.number++(tail++rest)) by simp only [List.append_assoc]]
  unfold openLongHeader
  rw [made.checkPrefix rest,← here]
  dsimp only
  rw [sampled]
  dsimp only
  rw [unmasked]
  dsimp only
  have result : openUnmasked room (c.first::(middle++(c.number++(tail++rest)))) keys largestReceived c.longType
      ⟨c.dcid,c.scid,c.token,c.lengthValue,1+middle.length⟩ c.first c.number.length = .ok {
        pn := c.pn
        payload := c.plain
        bytesConsumed := packet.length
        scid := c.scid
        dcid := c.dcid
        token := c.token
        reservedBits := c.reservedBits} := by
    unfold openUnmasked openPayloadWithKeys
    dsimp only
    rw [List.drop_succ_cons,List.drop_zero,version,typeBits,longType_bits,if_neg (fun wrong => wrong rfl),behind,truncated]
    dsimp only
    rw [decoded]
    dsimp only
    rw [header,cipher,sealing,ciphertext,keys.aead.opens _ _ _ _ fits]
    dsimp only
    rw [made.size,reserved,here]
  rw [result]

end

theorem openLongHeader_restores {room : Nat} {src : List Byte} {keys : PacketKeys} {largestReceived : Nat}
    {expectedType : LongType} {e : PacketError}
    (failed : (openLongHeader room src keys largestReceived expectedType).1 = .error e) :
    (openLongHeader room src keys largestReceived expectedType).2 = src := by
  unfold openLongHeader at failed ⊢
  cases checked : checkPrefix src keys expectedType with
  | error e => rfl
  | ok fields =>
    rw [checked] at failed
    dsimp only at failed ⊢
    have long : fields.pnOffset+20 ≤ src.length := by
      unfold checkPrefix at checked
      split at checked
      · cases checked
      · split_ifs at checked
        split at checked
        · cases checked
        · split_ifs at checked
          cases checked
          unfold sampleLen at *
          omega
    cases sampled : sampleAt src fields.pnOffset with
    | error e => rfl
    | ok sample =>
      rw [sampled] at failed
      dsimp only [unmask] at failed ⊢
      split
      · have first : src.take 1 = (src.drop 0).take 1 := by rw [List.drop_zero]
        rw [first]
        apply putAt_restores
        · simp [xorAt]
        · omega
        · omega
        · intro i notFirst notNumber
          have short : (pnKey (keys.headerProtectionMask sample) (((xorAt 0 (firstKey .long
            (keys.headerProtectionMask sample)) src).headD 0 &&& (0x03 : Byte)).toNat+1)).length ≤ 4 := by
            rw [pnKey,List.length_take,List.length_drop,(keys.headerProtectionMask sample).exact]
            omega
          unfold xorAt at short ⊢
          rw [maskAt_getElem? (by omega),maskAt_getElem? (by rw [length_firstKey]; omega)]
      · rename_i result opened
        rw [opened] at failed
        cases failed

theorem fromBytes_bytes {n : Nat} (least : 1 ≤ n) (most : n ≤ 4) : (PnLength.fromBytes n).bytes = n := by
  obtain rfl | rfl | rfl | rfl : n = 1 ∨ n = 2 ∨ n = 3 ∨ n = 4 := by omega
  all_goals rfl

theorem encodeInitial_inv {h : Initial} {room : Nat} {bytes : List Byte} (ok : encode (.initial h) room = .ok bytes)
    (width : h.payloadLengthBytes ≠ 0) : ∃ tokenLength lengthField, Varint.Spells tokenLength h.token.length ∧
      tokenLength.length = Varint.encodedLen h.token.length ∧ Varint.Spells lengthField h.payloadLength ∧
      lengthField.length = h.payloadLengthBytes ∧ bytes =
        longHeaderCommon (longBits h.quicBit (longTypeToBits h.version .initial) h.reservedBits |||
          UInt8.ofNat h.pnLength.toTwoBits) h.version h.dcid h.scid++
          (tokenLength++(h.token++(lengthField++(bigEndian h.pnLength.bytes h.pnTruncated++[])))) := by
  unfold encode encodeInitial at ok
  dsimp only at ok
  obtain ⟨common,behind,wroteCommon,ok₁,rfl⟩ := all_inv ok
  obtain ⟨tokenLength,behind,wroteTokenLength,ok₂,rfl⟩ := all_inv ok₁
  obtain ⟨token,behind,wroteToken,ok₃,rfl⟩ := all_inv ok₂
  obtain ⟨lengthField,behind,wroteLength,ok₄,rfl⟩ := all_inv ok₃
  obtain ⟨number,behind,wroteNumber,ok₅,rfl⟩ := all_inv ok₄
  cases ok₅
  obtain ⟨_,spellsToken,sizeToken⟩ := Varint.encode_ok wroteTokenLength
  rw [if_neg width] at wroteLength
  obtain ⟨spells,size⟩ := Varint.encodeFixed_ok wroteLength
  refine ⟨tokenLength,lengthField,spellsToken,sizeToken,spells,size,?_⟩
  rw [put_inv wroteCommon,put_inv wroteToken,PacketNumber.encode_ok wroteNumber]
  rfl

theorem encodeLongPn_inv {h : LongPn} {kind : PnTailKind} {room : Nat} {bytes : List Byte}
    (ok : encode (kind.header h) room = .ok bytes) : ∃ lengthField, Varint.Spells lengthField h.payloadLength ∧
      lengthField.length = Varint.encodedLen h.payloadLength ∧ bytes =
        longHeaderCommon (longBits h.quicBit (longTypeToBits h.version kind.longType) h.reservedBits |||
          UInt8.ofNat h.pnLength.toTwoBits) h.version h.dcid h.scid++
          (lengthField++(bigEndian h.pnLength.bytes h.pnTruncated++[])) := by
  have body : encodeLongPn h kind room = .ok bytes := by
    cases kind <;> exact ok
  unfold encodeLongPn at body
  obtain ⟨common,behind,wroteCommon,body₁,rfl⟩ := all_inv body
  obtain ⟨lengthField,behind,wroteLength,body₂,rfl⟩ := all_inv body₁
  obtain ⟨number,behind,wroteNumber,body₃,rfl⟩ := all_inv body₂
  cases body₃
  obtain ⟨_,spells,size⟩ := Varint.encode_ok wroteLength
  refine ⟨lengthField,spells,size,?_⟩
  rw [put_inv wroteCommon,PacketNumber.encode_ok wroteNumber]
  rfl

theorem encodedLen_short {value : Nat} (small : value < 2^14) : Varint.encodedLen value = if value < 64 then 1 else 2 := by
  unfold Varint.encodedLen
  have first : 1 <<< 6 = 64 := rfl
  have second : 1 <<< 14 = 2^14 := rfl
  rw [first,second,if_pos small]

/-- The sizes that are planned: the payload and the sample fit, and the packet is as long as the padding asks. -/
theorem sizes_planned {opts : InitialSealOptions} (least : 1 ≤ opts.pnLen) (most : opts.pnLen ≤ 4)
    (staged : opts.sizes.ptLen ≤ stagingLen) : opts.payload.length ≤ opts.sizes.ptLen ∧ 4 ≤ opts.pnLen+opts.sizes.ptLen ∧
      opts.sizes.lengthVarintSize ≠ 0 ∧ opts.totalSize opts.sizes = max opts.padTo (opts.totalSize opts.plainSizes) := by
  obtain ⟨pt,plainPt⟩ : ∃ pt, pt = max opts.payload.length (minPtForSample opts.pnLen) := ⟨_,rfl⟩
  have sample : 4 ≤ opts.pnLen+pt ∧ opts.payload.length ≤ pt := by
    unfold minPtForSample at plainPt
    split_ifs at plainPt <;> omega
  have plain : opts.plainSizes = ⟨pt,Varint.encodedLen (pt+16+opts.pnLen)⟩ := by
    unfold InitialSealOptions.plainSizes
    rw [← plainPt]
  unfold InitialSealOptions.sizes InitialSealOptions.totalSize stagingLen at *
  rw [plain] at staged ⊢
  dsimp only at staged ⊢
  obtain ⟨fixed,same⟩ : ∃ fixed, fixed = opts.fixedLen := ⟨_,rfl⟩
  rw [← same] at staged ⊢
  by_cases short : fixed+Varint.encodedLen (pt+16+opts.pnLen)+pt < opts.padTo
  · rw [if_pos short] at staged ⊢
    obtain ⟨room,padding⟩ : ∃ room, room = opts.padTo-fixed-Varint.encodedLen (pt+16+opts.pnLen) := ⟨_,rfl⟩
    rw [← padding] at staged ⊢
    have bound := Varint.encodedLen_le (room+16+opts.pnLen)
    have small : room+16+opts.pnLen < 2^14 := by
      split_ifs at staged
      all_goals
        dsimp only at staged
        omega
    have needed := encodedLen_short small
    have unpadded := encodedLen_short (show pt+16+opts.pnLen < 2^14 by omega)
    generalize Varint.encodedLen (room+16+opts.pnLen) = wide at *
    generalize Varint.encodedLen (pt+16+opts.pnLen) = narrow at *
    split_ifs at needed unpadded staged ⊢
    all_goals
      dsimp only at staged ⊢
      omega
  · rw [if_neg short] at staged ⊢
    dsimp only at staged ⊢
    have unpadded := encodedLen_short (show pt+16+opts.pnLen < 2^14 by omega)
    generalize Varint.encodedLen (pt+16+opts.pnLen) = narrow at *
    split_ifs at unpadded
    all_goals omega

theorem fromSlice_ok {src : List Byte} (short : ¬ src.length > maxCidLen) : ∃ c : ConnId, ConnId.fromSlice src = .ok c ∧ c.bytes = src := by
  unfold ConnId.fromSlice
  rw [dif_pos (Nat.le_of_not_lt short)]
  exact ⟨_,rfl,rfl⟩

theorem sealLongStaged_sealed {keys : PacketKeys} {c : Contents} {tokenLength lengthField header packet : List Byte}
    {room : Nat} (suite : c.longType = .initial → keys.suite = .aes128GcmSha256)
    (token : c.longType = .initial → Varint.Spells tokenLength c.token.length) (tokenless : c.longType ≠ .initial → c.token = [])
    (length : Varint.Spells lengthField c.lengthValue) (sampled : 4 ≤ c.pnLength.bytes+c.plain.length)
    (written : header = c.first::(c.fields tokenLength lengthField++c.number))
    (fits : 1+(c.fields tokenLength lengthField).length+c.lengthValue ≤ room)
    (ok : sealLongStaged keys c.pn header c.pnLength.bytes c.plain room = .ok packet) :
    ∃ sample, Sealed keys c packet tokenLength lengthField sample := by
  obtain ⟨least,most⟩ := pnLength_bounds c.pnLength
  have size := c.length_number
  have enough : 1+(c.fields tokenLength lengthField).length+c.number.length+c.plain.length+16 ≤ room := by
    unfold Contents.lengthValue at fits
    omega
  obtain ⟨sample,taken,made⟩ := sealBehind_ok .long keys none c.pn c.first (c.fields tokenLength lengthField)
    (by omega) (by omega) (by omega) enough
  unfold sealLongStaged at ok
  rw [written,← size,made] at ok
  cases ok
  exact ⟨sample,suite,token,tokenless,length,sampled,taken,rfl⟩

namespace InitialSealOptions

def contents (opts : InitialSealOptions) (dcid scid : ConnId) : Contents where
  longType := .initial
  version := opts.version
  dcid := dcid
  scid := scid
  token := opts.token
  reservedBits := opts.reservedBits
  quicBit := opts.quicBit
  pnLength := PnLength.fromBytes opts.pnLen
  pn := opts.pn
  plain := padded opts.payload opts.sizes.ptLen

end InitialSealOptions

theorem sealInitial_sealed {opts : InitialSealOptions} {room : Nat} {packet : List Byte}
    (ok : sealInitial opts room = .ok packet) : ∃ dcid scid tokenLength lengthField sample,
      dcid.bytes = opts.dcid ∧ scid.bytes = opts.scid ∧ 1 ≤ opts.pnLen ∧ opts.pnLen ≤ 4 ∧ opts.sizes.ptLen ≤ stagingLen ∧
      packet.length = opts.totalSize opts.sizes ∧
      Sealed opts.keys (opts.contents dcid scid) packet tokenLength lengthField sample := by
  unfold sealInitial at ok
  split_ifs at ok with longDcid longScid suite pnLen small
  obtain ⟨dcid,madeDcid,dcidBytes⟩ := fromSlice_ok longDcid
  obtain ⟨scid,madeScid,scidBytes⟩ := fromSlice_ok longScid
  rw [madeDcid,madeScid] at ok
  dsimp only at ok
  split at ok
  · cases ok
  rename_i header encoded
  have least : 1 ≤ opts.pnLen := by omega
  have most : opts.pnLen ≤ 4 := by omega
  have staged : opts.sizes.ptLen ≤ stagingLen := by omega
  obtain ⟨covered,sampled,width,_⟩ := sizes_planned least most staged
  obtain ⟨tokenLength,lengthField,token,sizeToken,length,sizeLength,written⟩ := encodeInitial_inv encoded width
  have pnBytes := fromBytes_bytes least most
  have plain := padded_length covered
  have value : (opts.contents dcid scid).lengthValue = opts.sizes.ptLen+16+opts.pnLen := by
    unfold Contents.lengthValue InitialSealOptions.contents
    dsimp only
    rw [plain,pnBytes]
  have size : 1+((opts.contents dcid scid).fields tokenLength lengthField).length+(opts.contents dcid scid).lengthValue =
      opts.totalSize opts.sizes := by
    rw [value]
    unfold Contents.fields longHeaderCommon InitialSealOptions.totalSize InitialSealOptions.fixedLen
    simp only [List.tail_cons,List.length_append,List.length_cons,length_bigEndian,if_pos
      (show (opts.contents dcid scid).longType = .initial from rfl)]
    change 1+(4+(dcid.bytes.length+1)+(scid.bytes.length+1)+(tokenLength.length+opts.token.length+lengthField.length))+_ = _
    rw [dcidBytes,scidBytes]
    dsimp only at sizeToken sizeLength
    omega
  have fits : 1+((opts.contents dcid scid).fields tokenLength lengthField).length+(opts.contents dcid scid).lengthValue ≤
      room := by omega
  have bytes : header = (opts.contents dcid scid).first::((opts.contents dcid scid).fields tokenLength lengthField++
      (opts.contents dcid scid).number) := by
    rw [written]
    unfold Contents.fields Contents.number longHeaderCommon
    rw [if_pos (show (opts.contents dcid scid).longType = .initial from rfl)]
    simp only [List.append_nil,List.append_assoc,List.cons_append,List.tail_cons]
    rw [show (opts.contents dcid scid).pnLength.bytes = opts.pnLen from pnBytes,pnBytes]
    rfl
  have behind : sealLongStaged opts.keys (opts.contents dcid scid).pn header (opts.contents dcid scid).pnLength.bytes
      (opts.contents dcid scid).plain room = .ok packet := by
    rw [show (opts.contents dcid scid).pnLength.bytes = opts.pnLen from pnBytes]
    exact ok
  obtain ⟨sample,made⟩ := sealLongStaged_sealed (c := opts.contents dcid scid) (fun _ => by simpa using suite) (fun _ => token)
    (fun wrong => absurd rfl wrong) (by rw [value]; exact length)
    (by rw [show (opts.contents dcid scid).pnLength.bytes = opts.pnLen from pnBytes,
          show (opts.contents dcid scid).plain.length = opts.sizes.ptLen from plain]; exact sampled) bytes fits behind
  exact ⟨dcid,scid,tokenLength,lengthField,sample,dcidBytes,scidBytes,least,most,staged,by rw [made.size,size],made⟩

namespace LongPnSealOptions

def contents (opts : LongPnSealOptions) (kind : PnTailKind) (dcid scid : ConnId) : Contents where
  longType := kind.longType
  version := opts.version
  dcid := dcid
  scid := scid
  token := []
  reservedBits := 0
  quicBit := opts.quicBit
  pnLength := PnLength.fromBytes opts.pnLen
  pn := opts.pn
  plain := padded opts.payload opts.ptLen

end LongPnSealOptions

theorem sealLongPn_sealed {opts : LongPnSealOptions} {kind : PnTailKind} {room : Nat} {packet : List Byte}
    (ok : sealLongPn opts kind room = .ok packet) : ∃ dcid scid lengthField sample,
      dcid.bytes = opts.dcid ∧ scid.bytes = opts.scid ∧ 1 ≤ opts.pnLen ∧ opts.pnLen ≤ 4 ∧ packet.length = opts.totalSize ∧
      Sealed opts.keys (opts.contents kind dcid scid) packet [] lengthField sample := by
  unfold sealLongPn at ok
  split_ifs at ok with longDcid longScid pnLen small
  obtain ⟨dcid,madeDcid,dcidBytes⟩ := fromSlice_ok longDcid
  obtain ⟨scid,madeScid,scidBytes⟩ := fromSlice_ok longScid
  rw [madeDcid,madeScid] at ok
  dsimp only at ok
  split at ok
  · cases ok
  rename_i header encoded
  have least : 1 ≤ opts.pnLen := by omega
  have most : opts.pnLen ≤ 4 := by omega
  obtain ⟨lengthField,length,sizeLength,written⟩ := encodeLongPn_inv encoded
  have pnBytes := fromBytes_bytes least most
  have sample : 4 ≤ opts.pnLen+opts.ptLen ∧ opts.payload.length ≤ opts.ptLen := by
    unfold LongPnSealOptions.ptLen minPtForSample
    split_ifs <;> omega
  have plain := padded_length sample.2
  have other : (opts.contents kind dcid scid).longType ≠ .initial := by
    unfold LongPnSealOptions.contents
    cases kind <;> simp [PnTailKind.longType]
  have value : (opts.contents kind dcid scid).lengthValue = opts.ptLen+16+opts.pnLen := by
    unfold Contents.lengthValue LongPnSealOptions.contents
    dsimp only
    rw [plain,pnBytes]
  have size : 1+((opts.contents kind dcid scid).fields [] lengthField).length+(opts.contents kind dcid scid).lengthValue =
      opts.totalSize := by
    rw [value]
    unfold Contents.fields longHeaderCommon LongPnSealOptions.totalSize
    simp only [List.tail_cons,List.length_append,List.length_cons,length_bigEndian,if_neg other,List.length_nil]
    change 1+(4+(dcid.bytes.length+1)+(scid.bytes.length+1)+(0+lengthField.length))+_ = _
    rw [dcidBytes,scidBytes]
    dsimp only at sizeLength
    omega
  have fits : 1+((opts.contents kind dcid scid).fields [] lengthField).length+(opts.contents kind dcid scid).lengthValue ≤
      room := by omega
  have bytes : header = (opts.contents kind dcid scid).first::((opts.contents kind dcid scid).fields [] lengthField++
      (opts.contents kind dcid scid).number) := by
    rw [written]
    unfold Contents.fields Contents.number longHeaderCommon
    rw [if_neg other]
    simp only [List.append_nil,List.append_assoc,List.cons_append,List.tail_cons,List.nil_append]
    rw [show (opts.contents kind dcid scid).pnLength.bytes = opts.pnLen from pnBytes,pnBytes]
    rfl
  have behind : sealLongStaged opts.keys (opts.contents kind dcid scid).pn header
      (opts.contents kind dcid scid).pnLength.bytes (opts.contents kind dcid scid).plain room = .ok packet := by
    rw [show (opts.contents kind dcid scid).pnLength.bytes = opts.pnLen from pnBytes]
    exact ok
  obtain ⟨sampled,made⟩ := sealLongStaged_sealed (c := opts.contents kind dcid scid) (fun wrong => absurd wrong other)
    (fun wrong => absurd wrong other) (fun _ => rfl) (by rw [value]; exact length)
    (by rw [show (opts.contents kind dcid scid).pnLength.bytes = opts.pnLen from pnBytes,
          show (opts.contents kind dcid scid).plain.length = opts.ptLen from plain]; exact sample.1) bytes fits behind
  exact ⟨dcid,scid,lengthField,sampled,dcidBytes,scidBytes,least,most,by rw [made.size,size],made⟩

end QuicZig.Wire.LongPacket
