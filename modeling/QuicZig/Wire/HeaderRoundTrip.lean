import QuicZig.Wire.Header

/-! What `encode` writes is what `parse` reads. The two varints of a header may
be wider than `encode` makes them; all other bytes are fixed by the fields. -/
namespace QuicZig.Wire.Header
open Machine BigEndian Codec

def longBits (quicBit : Fin 2) (typeBits reserved : Fin 4) : Byte :=
  (0x80 : Byte) ||| (UInt8.ofNat quicBit <<< 6) ||| (UInt8.ofNat typeBits <<< 4) ||| (UInt8.ofNat reserved <<< 2)

def shortBits (quicBit : Fin 2) (spin : Bool) (reserved : Fin 4) (keyPhase : Bool) (pn : Fin 4) : Byte :=
  (UInt8.ofNat quicBit <<< 6) ||| (if spin then (0x20 : Byte) else 0) ||| (UInt8.ofNat reserved <<< 3) |||
    (if keyPhase then (0x04 : Byte) else 0) ||| UInt8.ofNat pn

def layout (tokenLength payloadLength : List Byte) : Header → List Byte
  | .initial h =>
    longHeaderCommon (longBits h.quicBit (longTypeToBits h.version .initial) h.reservedBits |||
      UInt8.ofNat h.pnLength.toTwoBits) h.version h.dcid h.scid ++
      (tokenLength ++ (h.token ++ (payloadLength ++ bigEndian h.pnLength.bytes h.pnTruncated)))
  | .zeroRtt h =>
    longHeaderCommon (longBits h.quicBit (longTypeToBits h.version .zeroRtt) h.reservedBits |||
      UInt8.ofNat h.pnLength.toTwoBits) h.version h.dcid h.scid ++
      (payloadLength ++ bigEndian h.pnLength.bytes h.pnTruncated)
  | .handshake h =>
    longHeaderCommon (longBits h.quicBit (longTypeToBits h.version .handshake) h.reservedBits |||
      UInt8.ofNat h.pnLength.toTwoBits) h.version h.dcid h.scid ++
      (payloadLength ++ bigEndian h.pnLength.bytes h.pnTruncated)
  | .retry h =>
    longHeaderCommon ((longBits h.quicBit (longTypeToBits h.version .retry) 0 &&& (0xf0 : Byte)) |||
      UInt8.ofNat h.unusedBits) h.version h.dcid h.scid ++ (h.retryToken ++ h.integrityTag.bytes)
  | .oneRtt h =>
    shortBits h.quicBit h.spinBit h.reservedBits h.keyPhase h.pnLength.toTwoBits::
      (h.dcid.bytes ++ bigEndian h.pnLength.bytes h.pnTruncated)
  | .versionNegotiation h =>
    longHeaderCommon ((0x80 : Byte) ||| UInt8.ofNat h.unusedBits) 0 h.dcid h.scid ++ h.versionsBytes

/-- The packet number as it is written; nothing for the two kinds that have none. -/
def pnField : Header → List Byte
  | .initial h => bigEndian h.pnLength.bytes h.pnTruncated
  | .zeroRtt h => bigEndian h.pnLength.bytes h.pnTruncated
  | .handshake h => bigEndian h.pnLength.bytes h.pnTruncated
  | .oneRtt h => bigEndian h.pnLength.bytes h.pnTruncated
  | .retry _ => []
  | .versionNegotiation _ => []

/-- The field values that the wire has room for. -/
def WellFormed : Header → Prop
  | .initial h => h.version ≠ 0 ∧ h.version < 2^32 ∧ h.token.length ≤ Varint.maxValue ∧
      h.pnTruncated < 256^h.pnLength.bytes ∧ h.payloadLength ≤ Varint.maxValue ∧
      (h.payloadLengthBytes = 0 ∨ ∃ most ∈ (Varint.tagAndMax h.payloadLengthBytes).map Prod.snd, h.payloadLength ≤ most)
  | .zeroRtt h => h.version ≠ 0 ∧ h.version < 2^32 ∧ h.pnTruncated < 256^h.pnLength.bytes ∧ h.payloadLength ≤ Varint.maxValue
  | .handshake h => h.version ≠ 0 ∧ h.version < 2^32 ∧ h.pnTruncated < 256^h.pnLength.bytes ∧ h.payloadLength ≤ Varint.maxValue
  | .retry h => h.version ≠ 0 ∧ h.version < 2^32
  | .oneRtt h => h.pnTruncated < 256^h.pnLength.bytes
  | .versionNegotiation h => h.versionsBytes.length ≠ 0 ∧ h.versionsBytes.length % 4 = 0

def VarintsOf (tokenLength payloadLength : List Byte) : Header → Prop
  | .initial h => Varint.Spells tokenLength h.token.length ∧ Varint.Spells payloadLength h.payloadLength
  | .zeroRtt h => Varint.Spells payloadLength h.payloadLength
  | .handshake h => Varint.Spells payloadLength h.payloadLength
  | _ => True

/-- A Retry or Version Negotiation packet fills its datagram; the others go on behind the header. -/
def Follows (rest : List Byte) : Header → Prop
  | .retry _ => rest = []
  | .versionNegotiation _ => rest = []
  | _ => True

def forgetWidth : Header → Header
  | .initial h => .initial {h with payloadLengthBytes := 0}
  | h => h

/-- Where the packet number begins; 0 when there is none. -/
def pnOffset (tokenLength payloadLength : List Byte) (h : Header) : Nat :=
  if pnField h = [] then 0 else (layout tokenLength payloadLength h).length-(pnField h).length

/-- What an accepted input is made of. -/
structure Rebuilds (src : List Byte) (dcidLen : Nat) (h : Header) (tokenLength payloadLength rest : List Byte) : Prop where
  bytes : src = layout tokenLength payloadLength h ++ rest
  wellFormed : WellFormed h
  varints : VarintsOf tokenLength payloadLength h
  follows : Follows rest h
  noWidth : forgetWidth h = h
  cidLen : ∀ g, h = .oneRtt g → dcidLen = g.dcid.len

theorem firstByte_fields :
    (∀ (quicBit : Fin 2) (typeBits reserved pn : Fin 4),
      let b := longBits quicBit typeBits reserved ||| UInt8.ofNat pn
      b &&& (0x80 : Byte) ≠ 0 ∧ bitsAt 4 b 4 = typeBits ∧ bitsAt 2 b 6 = quicBit ∧ bitsAt 4 b 2 = reserved ∧ bitsAt 4 b 0 = pn) ∧
    (∀ (quicBit : Fin 2) (typeBits : Fin 4) (unused : Fin 16),
      let b := (longBits quicBit typeBits 0 &&& (0xf0 : Byte)) ||| UInt8.ofNat unused
      b &&& (0x80 : Byte) ≠ 0 ∧ bitsAt 4 b 4 = typeBits ∧ bitsAt 2 b 6 = quicBit ∧ bitsAt 16 b 0 = unused) ∧
    (∀ unused : Fin 128,
      let b := (0x80 : Byte) ||| UInt8.ofNat unused
      b &&& (0x80 : Byte) ≠ 0 ∧ bitsAt 128 b 0 = unused) ∧
    ∀ (quicBit : Fin 2) (spin : Bool) (reserved : Fin 4) (keyPhase : Bool) (pn : Fin 4),
      let b := shortBits quicBit spin reserved keyPhase pn
      b &&& (0x80 : Byte) = 0 ∧ bitsAt 2 b 6 = quicBit ∧ decide (b &&& (0x20 : Byte) ≠ 0) = spin ∧ bitsAt 4 b 3 = reserved ∧
        decide (b &&& (0x04 : Byte) ≠ 0) = keyPhase ∧ bitsAt 4 b 0 = pn := by
  refine ⟨?_,?_,?_,?_⟩ <;> decide +kernel

theorem longType_bits (version : Nat) (t : LongType) : longTypeFromBits version (longTypeToBits version t) = t := by
  unfold longTypeFromBits longTypeToBits
  split <;> cases t <;> rfl

theorem bits_longType (version : Nat) (bits : Fin 4) : longTypeToBits version (longTypeFromBits version bits) = bits := by
  unfold longTypeFromBits longTypeToBits
  split <;> fin_cases bits <;> rfl

@[simp] theorem fromTwoBits_toTwoBits (n : PnLength) : PnLength.fromTwoBits n.toTwoBits = n := by
  cases n <;> rfl

@[simp] theorem toTwoBits_fromTwoBits (bits : Fin 4) : (PnLength.fromTwoBits bits).toTwoBits = bits := by
  fin_cases bits <;> rfl

theorem pnLength_bounds (n : PnLength) : 1 ≤ n.bytes ∧ n.bytes ≤ 4 := by
  cases n <;> decide

theorem fromSlice_bytes (c : ConnId) : ConnId.fromSlice c.bytes = .ok c := by
  unfold ConnId.fromSlice
  rw [dif_pos c.short]

theorem reads_cid (c : ConnId) : Reads Anything lengthPrefixedCid (UInt8.ofNat c.len::c.bytes) c.bytes := by
  have short := c.short
  unfold maxCidLen at short
  have length : (UInt8.ofNat c.len).toNat = c.bytes.length := by
    rw [UInt8.toNat_ofNat',ConnId.len]
    omega
  change Reads Anything lengthPrefixedCid ([UInt8.ofNat c.len] ++ c.bytes) c.bytes
  apply (reads_byte _ (UInt8.ofNat c.len)).bind
  rw [length,if_neg (by unfold maxCidLen; omega)]
  exact reads_take _ rfl

theorem accepts_cid : Accepts lengthPrefixedCid (fun bytes used =>
    bytes.length ≤ maxCidLen ∧ used = UInt8.ofNat bytes.length::bytes) := by
  apply (accepts_byte _).bind
  intro len used here
  split
  · exact accepts_fail _ _
  · rename_i short
    apply (accepts_take _ _).weaken
    intro bytes more taken
    rw [taken.1,here,taken.2]
    exact ⟨by omega,by simp⟩

theorem longCommonSlices_common (total : Nat) (first : Byte) (version : Nat) (dcid scid : ConnId) (small : version < 2^32)
    (s : List Byte) : longCommonSlices total ((longHeaderCommon first version dcid scid).tail ++ s) =
      .ok ({version := version,dcid := dcid.bytes,scid := scid.bytes,endPos := total-s.length},s) := by
  have digits : ofBigEndian 0 (bigEndian 4 version) = version := by
    rw [ofBigEndian_bigEndian]
    omega
  unfold longHeaderCommon longCommonSlices
  rw [List.tail_cons,List.append_assoc,List.append_assoc,bind_ok (reads_take _ (length_bigEndian 4 version) _ trivial),
    bind_ok (reads_cid dcid _ trivial),bind_ok (reads_cid scid _ trivial),bind_remaining,digits]
  rfl

theorem parseLongCommon_common (total : Nat) (first : Byte) (version : Nat) (dcid scid : ConnId) (small : version < 2^32)
    (s : List Byte) : parseLongCommon total ((longHeaderCommon first version dcid scid).tail ++ s) =
      .ok ({version := version,dcid := dcid,scid := scid},s) := by
  unfold parseLongCommon
  rw [bind_ok (longCommonSlices_common total first version dcid scid small s),fromSlice_bytes,fromSlice_bytes]
  rfl

theorem parse_long (first : Byte) (version : Nat) (dcid scid : ConnId) (s : List Byte) (dcidLen : Nat)
    (long : first &&& (0x80 : Byte) ≠ 0) (small : version < 2^32) :
    parse (longHeaderCommon first version dcid scid ++ s) dcidLen =
      (parseLongTail (longHeaderCommon first version dcid scid ++ s).length first
        {version := version,dcid := dcid,scid := scid}).run s := by
  have common := parseLongCommon_common (longHeaderCommon first version dcid scid ++ s).length first version dcid scid small s
  have unfolded : longHeaderCommon first version dcid scid ++ s =
      first::((longHeaderCommon first version dcid scid).tail ++ s) := rfl
  rw [unfolded,parse,if_neg long,Parser.run,parseLong,← unfolded,bind_ok common]
  rfl

theorem parseLongTail_initial (total : Nat) (first : Byte) (common : LongCommon) (known : common.version ≠ 0)
    (type : longTypeFromBits common.version (bitsAt 4 first 4) = .initial) :
    parseLongTail total first common = parseInitialTail total common (bitsAt 4 first 2)
      (PnLength.fromTwoBits (bitsAt 4 first 0)) (bitsAt 2 first 6) := by
  unfold parseLongTail
  rw [if_neg known]
  dsimp only
  rw [type]

theorem parseLongTail_retry (total : Nat) (first : Byte) (common : LongCommon) (known : common.version ≠ 0)
    (type : longTypeFromBits common.version (bitsAt 4 first 4) = .retry) :
    parseLongTail total first common = parseRetryTail common (bitsAt 16 first 0) (bitsAt 2 first 6) := by
  unfold parseLongTail
  rw [if_neg known]
  dsimp only
  rw [type]

theorem parseLongTail_pn (kind : PnTailKind) (total : Nat) (first : Byte) (common : LongCommon) (known : common.version ≠ 0)
    (type : longTypeFromBits common.version (bitsAt 4 first 4) = kind.longType) :
    parseLongTail total first common = parseLongPnTail total common (bitsAt 4 first 2)
      (PnLength.fromTwoBits (bitsAt 4 first 0)) (bitsAt 2 first 6) kind := by
  unfold parseLongTail
  rw [if_neg known]
  dsimp only
  rw [type]
  cases kind <;> rfl

theorem parse_initial (h : Initial) (tokenLength payloadLength rest : List Byte) (dcidLen : Nat) (known : h.version ≠ 0)
    (small : h.version < 2^32) (token : Varint.Spells tokenLength h.token.length)
    (payload : Varint.Spells payloadLength h.payloadLength) (fits : h.pnTruncated < 256^h.pnLength.bytes) :
    parse (layout tokenLength payloadLength (.initial h) ++ rest) dcidLen = .ok {
      header := .initial {h with payloadLengthBytes := 0}
      pnOffset := (layout tokenLength payloadLength (.initial h)).length-h.pnLength.bytes} := by
  obtain ⟨long,type,quic,reserved,pn⟩ := firstByte_fields.1 h.quicBit (longTypeToBits h.version .initial) h.reservedBits
    h.pnLength.toTwoBits
  obtain ⟨least,most⟩ := pnLength_bounds h.pnLength
  simp only [layout,List.append_assoc]
  rw [parse_long _ h.version h.dcid h.scid _ dcidLen long small]
  rw [parseLongTail_initial _ _ _ known (by rw [type,longType_bits]),quic,reserved,pn,fromTwoBits_toTwoBits]
  unfold parseInitialTail Parser.run
  rw [bind_ok (token.reads _ trivial),bind_ok (reads_take _ rfl _ trivial),bind_ok (payload.reads _ trivial),bind_remaining,
    bind_ok (PacketNumber.reads _ _ least most fits _ trivial)]
  change Except.ok _ = Except.ok _
  congr 2
  simp only [List.length_append,length_bigEndian]
  omega

theorem layout_longPn (kind : PnTailKind) (h : LongPn) (tokenLength payloadLength : List Byte) :
    layout tokenLength payloadLength (kind.header h) =
      longHeaderCommon (longBits h.quicBit (longTypeToBits h.version kind.longType) h.reservedBits |||
        UInt8.ofNat h.pnLength.toTwoBits) h.version h.dcid h.scid ++
        (payloadLength ++ bigEndian h.pnLength.bytes h.pnTruncated) := by
  cases kind <;> rfl

theorem parse_longPn (kind : PnTailKind) (h : LongPn) (tokenLength payloadLength rest : List Byte) (dcidLen : Nat)
    (known : h.version ≠ 0) (small : h.version < 2^32) (payload : Varint.Spells payloadLength h.payloadLength)
    (fits : h.pnTruncated < 256^h.pnLength.bytes) :
    parse (layout tokenLength payloadLength (kind.header h) ++ rest) dcidLen = .ok {
      header := kind.header h
      pnOffset := (layout tokenLength payloadLength (kind.header h)).length-h.pnLength.bytes} := by
  obtain ⟨long,type,quic,reserved,pn⟩ := firstByte_fields.1 h.quicBit (longTypeToBits h.version kind.longType) h.reservedBits
    h.pnLength.toTwoBits
  obtain ⟨least,most⟩ := pnLength_bounds h.pnLength
  rw [layout_longPn,List.append_assoc,List.append_assoc,parse_long _ h.version h.dcid h.scid _ dcidLen long small]
  rw [parseLongTail_pn kind _ _ _ known (by rw [type,longType_bits]),quic,reserved,pn,fromTwoBits_toTwoBits]
  unfold parseLongPnTail Parser.run
  rw [bind_ok (payload.reads _ trivial),bind_remaining,bind_ok (PacketNumber.reads _ _ least most fits _ trivial)]
  change Except.ok _ = Except.ok _
  congr 2
  simp only [List.length_append,length_bigEndian]
  omega

theorem parse_retry (h : Retry) (tokenLength payloadLength : List Byte) (dcidLen : Nat) (known : h.version ≠ 0)
    (small : h.version < 2^32) :
    parse (layout tokenLength payloadLength (.retry h)) dcidLen = .ok {header := .retry h,pnOffset := 0} := by
  obtain ⟨long,type,quic,unused⟩ := firstByte_fields.2.1 h.quicBit (longTypeToBits h.version .retry) h.unusedBits
  have tag := h.integrityTag.exact
  simp only [layout]
  rw [parse_long _ h.version h.dcid h.scid _ dcidLen long small]
  rw [parseLongTail_retry _ _ _ known (by rw [type,longType_bits]),quic,unused]
  unfold parseRetryTail Parser.run
  rw [bind_remaining,if_neg (by rw [List.length_append]; omega),
    bind_ok (reads_take _ (by rw [List.length_append]; omega) _ trivial)]
  have whole := reads_fixed Error.insufficientBytes h.integrityTag [] trivial
  rw [List.append_nil] at whole
  rw [bind_ok whole]
  rfl

theorem parse_versionNegotiation (h : VersionNegotiation) (tokenLength payloadLength : List Byte) (dcidLen : Nat)
    (some : h.versionsBytes.length ≠ 0) (whole : h.versionsBytes.length % 4 = 0) :
    parse (layout tokenLength payloadLength (.versionNegotiation h)) dcidLen =
      .ok {header := .versionNegotiation h,pnOffset := 0} := by
  obtain ⟨long,unused⟩ := firstByte_fields.2.2.1 h.unusedBits
  simp only [layout]
  rw [parse_long _ 0 h.dcid h.scid _ dcidLen long (by decide)]
  unfold parseLongTail Parser.run
  have read := reads_takeRest (ε := Error) h.versionsBytes [] rfl
  rw [List.append_nil] at read
  rw [if_pos rfl,bind_ok read,if_neg (by omega),unused]
  rfl

theorem parse_oneRtt (h : OneRtt) (tokenLength payloadLength rest : List Byte) (fits : h.pnTruncated < 256^h.pnLength.bytes) :
    parse (layout tokenLength payloadLength (.oneRtt h) ++ rest) h.dcid.len = .ok {
      header := .oneRtt h
      pnOffset := (layout tokenLength payloadLength (.oneRtt h)).length-h.pnLength.bytes} := by
  obtain ⟨short,quic,spin,reserved,keyPhase,pn⟩ := firstByte_fields.2.2.2 h.quicBit h.spinBit h.reservedBits h.keyPhase
    h.pnLength.toTwoBits
  obtain ⟨least,most⟩ := pnLength_bounds h.pnLength
  have cid := h.dcid.short
  simp only [layout,List.cons_append,List.append_assoc,parse]
  rw [if_pos short]
  unfold parseShort
  rw [if_neg (by unfold ConnId.len; omega)]
  dsimp only
  rw [quic,spin,reserved,keyPhase,pn,fromTwoBits_toTwoBits]
  unfold Parser.run
  rw [bind_ok (reads_take _ (show h.dcid.bytes.length = h.dcid.len from rfl) _ trivial),fromSlice_bytes,Parser.lift,bind_ok (rfl : (pure h.dcid : Parser Error ConnId) _ = _),
    bind_remaining,bind_ok (PacketNumber.reads _ _ least most fits _ trivial)]
  change Except.ok _ = Except.ok _
  congr 2
  simp only [List.length_append,List.length_cons,length_bigEndian]
  omega

theorem pnField_ne (n : PnLength) (pn : Nat) : bigEndian n.bytes pn ≠ [] := by
  cases n <;> simp [PnLength.bytes,bigEndian]

theorem parse_layout (h : Header) (tokenLength payloadLength rest : List Byte) (dcidLen : Nat) (wellFormed : WellFormed h)
    (varints : VarintsOf tokenLength payloadLength h) (follows : Follows rest h) (cidLen : ∀ g, h = .oneRtt g → dcidLen = g.dcid.len) :
    parse (layout tokenLength payloadLength h ++ rest) dcidLen =
      .ok {header := forgetWidth h,pnOffset := pnOffset tokenLength payloadLength h} := by
  unfold pnOffset
  cases h with
  | initial h =>
    obtain ⟨known,small,_,fits,_,_⟩ := wellFormed
    rw [if_neg (show pnField (.initial h) ≠ [] from pnField_ne h.pnLength h.pnTruncated),show (pnField (.initial h)).length = _ from length_bigEndian _ _]
    exact parse_initial h tokenLength payloadLength rest dcidLen known small varints.1 varints.2 fits
  | zeroRtt h =>
    obtain ⟨known,small,fits,_⟩ := wellFormed
    rw [if_neg (show pnField (.zeroRtt h) ≠ [] from pnField_ne h.pnLength h.pnTruncated),show (pnField (.zeroRtt h)).length = _ from length_bigEndian _ _]
    exact parse_longPn .zeroRtt h tokenLength payloadLength rest dcidLen known small varints fits
  | handshake h =>
    obtain ⟨known,small,fits,_⟩ := wellFormed
    rw [if_neg (show pnField (.handshake h) ≠ [] from pnField_ne h.pnLength h.pnTruncated),show (pnField (.handshake h)).length = _ from length_bigEndian _ _]
    exact parse_longPn .handshake h tokenLength payloadLength rest dcidLen known small varints fits
  | retry h =>
    obtain rfl : rest = [] := follows
    rw [List.append_nil]
    exact parse_retry h tokenLength payloadLength dcidLen wellFormed.1 wellFormed.2
  | oneRtt h =>
    rw [if_neg (show pnField (.oneRtt h) ≠ [] from pnField_ne h.pnLength h.pnTruncated),show (pnField (.oneRtt h)).length = _ from length_bigEndian _ _,cidLen h rfl]
    exact parse_oneRtt h tokenLength payloadLength rest wellFormed
  | versionNegotiation h =>
    obtain rfl : rest = [] := follows
    rw [List.append_nil]
    exact parse_versionNegotiation h tokenLength payloadLength dcidLen wellFormed.1 wellFormed.2

theorem emits_common (first : Byte) (version : Nat) (dcid scid : ConnId) :
    Emits Error.bufferTooSmall (writeLongHeaderCommon first version dcid scid) (longHeaderCommon first version dcid scid) :=
  emits_put _ _

theorem emits_payloadLength (h : Initial) (small : h.payloadLength ≤ Varint.maxValue) (width : h.payloadLengthBytes = 0 ∨
    ∃ most ∈ (Varint.tagAndMax h.payloadLengthBytes).map Prod.snd, h.payloadLength ≤ most) :
    ∃ bytes, Varint.Spells bytes h.payloadLength ∧ Emits Error.bufferTooSmall
      (if h.payloadLengthBytes = 0 then Varint.encode h.payloadLength
        else Varint.encodeFixed h.payloadLength h.payloadLengthBytes) bytes := by
  by_cases zero : h.payloadLengthBytes = 0
  · rw [if_pos zero]
    obtain ⟨bytes,writes,spells,_⟩ := Varint.emits h.payloadLength small
    exact ⟨bytes,spells,writes⟩
  · rw [if_neg zero]
    obtain ⟨most,known,fits⟩ := width.resolve_left zero
    obtain ⟨⟨tag,_⟩,row,rfl⟩ := Option.mem_map.mp known
    obtain ⟨bytes,writes,spells,_⟩ := Varint.emits_fixed h.payloadLength h.payloadLengthBytes tag _ row fits
    exact ⟨bytes,spells,writes⟩

theorem emits_longPn (kind : PnTailKind) (h : LongPn) (small : h.payloadLength ≤ Varint.maxValue) :
    ∃ payloadLength, Varint.Spells payloadLength h.payloadLength ∧ ∀ tokenLength,
      Emits Error.bufferTooSmall (encodeLongPn h kind) (layout tokenLength payloadLength (kind.header h)) := by
  obtain ⟨least,most⟩ := pnLength_bounds h.pnLength
  obtain ⟨payloadLength,writes,spells,_⟩ := Varint.emits h.payloadLength small
  refine ⟨payloadLength,spells,?_⟩
  intro tokenLength
  rw [layout_longPn]
  exact (emits_common _ h.version h.dcid h.scid).cons (writes.cons (PacketNumber.emits h.pnTruncated _ least most).last)

theorem emits_oneRtt (h : OneRtt) (tokenLength payloadLength : List Byte) :
    Emits Error.bufferTooSmall (encodeOneRtt h) (layout tokenLength payloadLength (.oneRtt h)) := by
  obtain ⟨least,most⟩ := pnLength_bounds h.pnLength
  have body := (emits_put Error.bufferTooSmall (oneRttFirstByte h::h.dcid.bytes)).cons
    (PacketNumber.emits h.pnTruncated _ least most).last
  intro room
  have size : (layout tokenLength payloadLength (.oneRtt h)).length = 1+h.dcid.len+h.pnLength.bytes := by
    simp only [layout,List.length_cons,List.length_append,length_bigEndian,ConnId.len]
    omega
  unfold encodeOneRtt
  rw [size]
  split
  · rw [if_neg (by omega)]
  · rw [if_pos (by omega),body room,if_pos]
    · rfl
    · change (layout tokenLength payloadLength (.oneRtt h)).length ≤ room
      omega

theorem encode_layout (h : Header) (wellFormed : WellFormed h) : ∃ tokenLength payloadLength,
    VarintsOf tokenLength payloadLength h ∧ Emits Error.bufferTooSmall (encode h) (layout tokenLength payloadLength h) := by
  cases h with
  | initial h =>
    obtain ⟨_,_,token,_,small,width⟩ := wellFormed
    obtain ⟨least,most⟩ := pnLength_bounds h.pnLength
    obtain ⟨tokenLength,writesToken,spellsToken,_⟩ := Varint.emits h.token.length token
    obtain ⟨payloadLength,spells,writes⟩ := emits_payloadLength h small width
    refine ⟨tokenLength,payloadLength,⟨spellsToken,spells⟩,?_⟩
    exact (emits_common _ h.version h.dcid h.scid).cons (writesToken.cons ((emits_put _ h.token).cons
      (writes.cons (PacketNumber.emits h.pnTruncated _ least most).last)))
  | zeroRtt h =>
    obtain ⟨payloadLength,spells,writes⟩ := emits_longPn .zeroRtt h wellFormed.2.2.2
    exact ⟨[],payloadLength,spells,writes []⟩
  | handshake h =>
    obtain ⟨payloadLength,spells,writes⟩ := emits_longPn .handshake h wellFormed.2.2.2
    exact ⟨[],payloadLength,spells,writes []⟩
  | retry h =>
    refine ⟨[],[],trivial,?_⟩
    exact (emits_common _ h.version h.dcid h.scid).cons (emits_put _ (h.retryToken ++ h.integrityTag.bytes)).last
  | oneRtt h => exact ⟨[],[],trivial,emits_oneRtt h [] []⟩
  | versionNegotiation h =>
    obtain ⟨some,whole⟩ := wellFormed
    refine ⟨[],[],trivial,?_⟩
    unfold encode encodeVersionNegotiation
    dsimp only
    rw [if_neg (by omega)]
    exact (emits_common _ 0 h.dcid h.scid).cons (emits_put _ h.versionsBytes).last

theorem fromSlice_inv {src : List Byte} {c : ConnId} (ok : ConnId.fromSlice src = .ok c) : c.bytes = src := by
  unfold ConnId.fromSlice at ok
  split at ok
  · cases ok
    rfl
  · cases ok

theorem longCommonSlices_inv {total : Nat} {s rest : List Byte} {common : LongCommonSlices}
    (ok : longCommonSlices total s = .ok (common,rest)) :
    common.version < 2^32 ∧ common.dcid.length ≤ maxCidLen ∧ common.scid.length ≤ maxCidLen ∧
      s = (bigEndian 4 common.version ++ (UInt8.ofNat common.dcid.length::common.dcid) ++
        (UInt8.ofNat common.scid.length::common.scid)) ++ rest := by
  unfold longCommonSlices at ok
  obtain ⟨version,s₁,readVersion,ok⟩ := bind_inv ok
  obtain ⟨dcid,s₂,readDcid,ok⟩ := bind_inv ok
  obtain ⟨scid,s₃,readScid,ok⟩ := bind_inv ok
  obtain ⟨left,s₄,readLeft,ok⟩ := bind_inv ok
  cases readLeft
  cases ok
  obtain ⟨_,rfl,rfl,size⟩ := accepts_take _ _ _ _ _ readVersion
  obtain ⟨_,rfl,dcidShort,rfl⟩ := accepts_cid _ _ _ readDcid
  obtain ⟨_,rfl,scidShort,rfl⟩ := accepts_cid _ _ _ readScid
  have bound := ofBigEndian_lt version
  have back := bigEndian_ofBigEndian version 0
  rw [size] at bound back
  refine ⟨bound,dcidShort,scidShort,?_⟩
  rw [back]
  simp

theorem parseLongCommon_inv {total : Nat} {s rest : List Byte} {common : LongCommon} (first : Byte)
    (ok : parseLongCommon total s = .ok (common,rest)) : common.version < 2^32 ∧
      first::s = longHeaderCommon first common.version common.dcid common.scid ++ rest := by
  unfold parseLongCommon at ok
  obtain ⟨slices,s₁,readSlices,ok⟩ := bind_inv ok
  obtain ⟨dcid,s₂,readDcid,ok⟩ := bind_inv ok
  obtain ⟨scid,s₃,readScid,ok⟩ := bind_inv ok
  cases ok
  obtain ⟨ofDcid,rfl⟩ := lift_inv readDcid
  obtain ⟨ofScid,rfl⟩ := lift_inv readScid
  obtain ⟨small,_,_,split⟩ := longCommonSlices_inv readSlices
  refine ⟨small,?_⟩
  rw [split,← fromSlice_inv ofDcid,← fromSlice_inv ofScid]
  rfl

theorem first_made (b : Byte) :
    (b &&& (0x80 : Byte) ≠ 0 → longBits (bitsAt 2 b 6) (bitsAt 4 b 4) (bitsAt 4 b 2) ||| UInt8.ofNat (bitsAt 4 b 0) = b ∧
      (longBits (bitsAt 2 b 6) (bitsAt 4 b 4) 0 &&& (0xf0 : Byte)) ||| UInt8.ofNat (bitsAt 16 b 0) = b ∧
      (0x80 : Byte) ||| UInt8.ofNat (bitsAt 128 b 0) = b) ∧
    (b &&& (0x80 : Byte) = 0 → shortBits (bitsAt 2 b 6) (decide (b &&& (0x20 : Byte) ≠ 0)) (bitsAt 4 b 3)
      (decide (b &&& (0x04 : Byte) ≠ 0)) (bitsAt 4 b 0) = b) := by
  revert b
  apply every_byte
  decide +kernel

theorem initial_rebuilds {total dcidLen : Nat} {first : Byte} {common : LongCommon} {s rest : List Byte} {parsed : Parsed}
    (long : first &&& (0x80 : Byte) ≠ 0) (known : common.version ≠ 0) (small : common.version < 2^32)
    (type : longTypeFromBits common.version (bitsAt 4 first 4) = .initial)
    (ok : parseInitialTail total common (bitsAt 4 first 2) (PnLength.fromTwoBits (bitsAt 4 first 0)) (bitsAt 2 first 6) s =
      .ok (parsed,rest)) : ∃ tokenLength payloadLength,
      Rebuilds (longHeaderCommon first common.version common.dcid common.scid ++ s) dcidLen parsed.header tokenLength
        payloadLength rest := by
  unfold parseInitialTail at ok
  obtain ⟨tokLen,s₁,readTokLen,ok⟩ := bind_inv ok
  obtain ⟨token,s₂,readToken,ok⟩ := bind_inv ok
  obtain ⟨length,s₃,readLength,ok⟩ := bind_inv ok
  obtain ⟨left,s₄,readLeft,ok⟩ := bind_inv ok
  cases readLeft
  obtain ⟨pn,s₅,readPn,done⟩ := bind_inv ok
  cases done
  obtain ⟨tokenLength,rfl,spellsToken⟩ := Varint.accepts_read _ _ _ readTokLen
  obtain ⟨_,rfl,rfl,rfl⟩ := accepts_take _ _ _ _ _ readToken
  obtain ⟨payloadLength,rfl,spells⟩ := Varint.accepts_read _ _ _ readLength
  obtain ⟨_,rfl,fits,rfl⟩ := PacketNumber.accepts_read _ _ _ _ readPn
  have firstByte := ((first_made first).1 long).1
  have typeBits := bits_longType common.version (bitsAt 4 first 4)
  rw [type] at typeBits
  refine ⟨tokenLength,payloadLength,?_,?_,?_,trivial,rfl,?_⟩
  · simp only [layout,typeBits,toTwoBits_fromTwoBits,firstByte,List.append_assoc]
  · exact ⟨known,small,spellsToken.bounds.1,fits,spells.bounds.1,.inl rfl⟩
  · exact ⟨spellsToken,spells⟩
  · intro g other
    cases other

theorem longPn_rebuilds {total dcidLen : Nat} {first : Byte} {common : LongCommon} {s rest : List Byte} {parsed : Parsed}
    (kind : PnTailKind) (long : first &&& (0x80 : Byte) ≠ 0) (known : common.version ≠ 0) (small : common.version < 2^32)
    (type : longTypeFromBits common.version (bitsAt 4 first 4) = kind.longType)
    (ok : parseLongPnTail total common (bitsAt 4 first 2) (PnLength.fromTwoBits (bitsAt 4 first 0)) (bitsAt 2 first 6) kind s =
      .ok (parsed,rest)) : ∃ tokenLength payloadLength,
      Rebuilds (longHeaderCommon first common.version common.dcid common.scid ++ s) dcidLen parsed.header tokenLength
        payloadLength rest := by
  unfold parseLongPnTail at ok
  obtain ⟨length,s₁,readLength,ok⟩ := bind_inv ok
  obtain ⟨left,s₂,readLeft,ok⟩ := bind_inv ok
  cases readLeft
  obtain ⟨pn,s₃,readPn,done⟩ := bind_inv ok
  cases done
  obtain ⟨payloadLength,rfl,spells⟩ := Varint.accepts_read _ _ _ readLength
  obtain ⟨_,rfl,fits,rfl⟩ := PacketNumber.accepts_read _ _ _ _ readPn
  have firstByte := ((first_made first).1 long).1
  have typeBits := bits_longType common.version (bitsAt 4 first 4)
  rw [type] at typeBits
  refine ⟨[],payloadLength,?_,?_,?_,?_,?_,?_⟩
  · rw [layout_longPn]
    simp only [typeBits,toTwoBits_fromTwoBits,firstByte,List.append_assoc]
  · cases kind <;> exact ⟨known,small,fits,spells.bounds.1⟩
  · cases kind <;> exact spells
  · cases kind <;> trivial
  · cases kind <;> rfl
  · intro g other
    cases kind <;> cases other

theorem retry_rebuilds {dcidLen : Nat} {first : Byte} {common : LongCommon} {s rest : List Byte} {parsed : Parsed}
    (long : first &&& (0x80 : Byte) ≠ 0) (known : common.version ≠ 0) (small : common.version < 2^32)
    (type : longTypeFromBits common.version (bitsAt 4 first 4) = .retry)
    (ok : parseRetryTail common (bitsAt 16 first 0) (bitsAt 2 first 6) s = .ok (parsed,rest)) :
    Rebuilds (longHeaderCommon first common.version common.dcid common.scid ++ s) dcidLen parsed.header [] [] rest := by
  unfold parseRetryTail at ok
  rw [bind_remaining] at ok
  split at ok
  · cases ok
  · rename_i enough
    obtain ⟨token,s₁,readToken,ok⟩ := bind_inv ok
    obtain ⟨tag,s₂,readTag,ok⟩ := bind_inv ok
    cases ok
    obtain ⟨_,rfl,rfl,size⟩ := accepts_take _ _ _ _ _ readToken
    obtain ⟨_,rfl,rfl⟩ := accepts_fixed _ _ _ _ _ readTag
    have firstByte := ((first_made first).1 long).2.1
    have typeBits := bits_longType common.version (bitsAt 4 first 4)
    rw [type] at typeBits
    -- The token and the tag fill the packet.
    have none : rest = [] := by
      have exact' := tag.exact
      simp only [List.length_append] at size
      apply List.length_eq_zero_iff.mp
      omega
    refine ⟨?_,⟨known,small⟩,trivial,none,rfl,?_⟩
    · simp only [layout,typeBits,firstByte,List.append_assoc]
    · intro g other
      cases other

theorem versionNegotiation_rebuilds {total dcidLen : Nat} {first : Byte} {common : LongCommon} {s rest : List Byte}
    {parsed : Parsed} (long : first &&& (0x80 : Byte) ≠ 0) (unknown : common.version = 0)
    (ok : parseLongTail total first common s = .ok (parsed,rest)) :
    Rebuilds (longHeaderCommon first common.version common.dcid common.scid ++ s) dcidLen parsed.header [] [] rest := by
  unfold parseLongTail at ok
  rw [if_pos unknown] at ok
  obtain ⟨versions,s₁,readVersions,ok⟩ := bind_inv ok
  cases readVersions
  split at ok
  · cases ok
  · rename_i whole
    cases ok
    have firstByte := ((first_made first).1 long).2.2
    refine ⟨?_,⟨by dsimp only; omega,by dsimp only; omega⟩,trivial,rfl,rfl,?_⟩
    · simp only [layout,firstByte,unknown,List.append_nil]
    · intro g other
      cases other

theorem oneRtt_rebuilds {total dcidLen : Nat} {first : Byte} {s rest : List Byte} {parsed : Parsed}
    (short : first &&& (0x80 : Byte) = 0) (ok : parseShort total first dcidLen s = .ok (parsed,rest)) :
    Rebuilds (first::s) dcidLen parsed.header [] [] rest := by
  unfold parseShort at ok
  split at ok
  · cases ok
  · obtain ⟨bytes,s₁,readBytes,ok⟩ := bind_inv ok
    obtain ⟨dcid,s₂,readDcid,ok⟩ := bind_inv ok
    obtain ⟨left,s₃,readLeft,ok⟩ := bind_inv ok
    cases readLeft
    obtain ⟨pn,s₄,readPn,done⟩ := bind_inv ok
    cases done
    obtain ⟨ofDcid,rfl⟩ := lift_inv readDcid
    obtain ⟨_,rfl,rfl,size⟩ := accepts_take _ _ _ _ _ readBytes
    obtain ⟨_,rfl,fits,rfl⟩ := PacketNumber.accepts_read _ _ _ _ readPn
    have firstByte := (first_made first).2 short
    have cid := fromSlice_inv ofDcid
    refine ⟨?_,fits,trivial,trivial,rfl,?_⟩
    · simp only [layout,toTwoBits_fromTwoBits,firstByte,cid,List.cons_append,List.append_assoc]
    · intro g same
      cases same
      rw [ConnId.len,cid,size]

theorem parse_rebuilds {src : List Byte} {dcidLen : Nat} {parsed : Parsed} (ok : parse src dcidLen = .ok parsed) :
    ∃ tokenLength payloadLength rest, Rebuilds src dcidLen parsed.header tokenLength payloadLength rest := by
  cases src with
  | nil => cases ok
  | cons first s =>
    unfold parse at ok
    dsimp only at ok
    have ran {p : Parser Error Parsed} (ok : p.run s = .ok parsed) : ∃ rest, p s = .ok (parsed,rest) := by
      unfold Parser.run at ok
      split at ok
      · rename_i rest here
        cases ok
        exact ⟨rest,here⟩
      · cases ok
    split at ok
    · rename_i short
      obtain ⟨rest,read⟩ := ran ok
      exact ⟨[],[],rest,oneRtt_rebuilds short read⟩
    · rename_i long
      obtain ⟨rest,read⟩ := ran ok
      obtain ⟨common,middle,readCommon,readTail⟩ := bind_inv read
      obtain ⟨small,split⟩ := parseLongCommon_inv first readCommon
      rw [split]
      by_cases unknown : common.version = 0
      · exact ⟨[],[],rest,versionNegotiation_rebuilds long unknown readTail⟩
      · cases type : longTypeFromBits common.version (bitsAt 4 first 4) with
        | initial =>
          rw [parseLongTail_initial _ _ _ unknown type] at readTail
          obtain ⟨tokenLength,payloadLength,rebuilds⟩ := initial_rebuilds long unknown small type readTail
          exact ⟨_,_,_,rebuilds⟩
        | zeroRtt =>
          rw [parseLongTail_pn .zeroRtt _ _ _ unknown type] at readTail
          obtain ⟨tokenLength,payloadLength,rebuilds⟩ := longPn_rebuilds .zeroRtt long unknown small type readTail
          exact ⟨_,_,_,rebuilds⟩
        | handshake =>
          rw [parseLongTail_pn .handshake _ _ _ unknown type] at readTail
          obtain ⟨tokenLength,payloadLength,rebuilds⟩ := longPn_rebuilds .handshake long unknown small type readTail
          exact ⟨_,_,_,rebuilds⟩
        | retry =>
          rw [parseLongTail_retry _ _ _ unknown type] at readTail
          exact ⟨[],[],rest,retry_rebuilds long unknown small type readTail⟩

theorem layout_initial (h : Initial) (tokenLength payloadLength : List Byte) : ∃ common,
    layout tokenLength payloadLength (.initial h) =
      common ++ (tokenLength ++ (h.token ++ (payloadLength ++ bigEndian h.pnLength.bytes h.pnTruncated))) := ⟨_,rfl⟩

/-- The packet number ends the header, at the offset that `parse` reports. -/
theorem drop_pnOffset (tokenLength payloadLength : List Byte) (h : Header) :
    pnOffset tokenLength payloadLength h+(pnField h).length ≤ (layout tokenLength payloadLength h).length ∧
      (pnField h ≠ [] → (layout tokenLength payloadLength h).drop (pnOffset tokenLength payloadLength h) = pnField h) := by
  have suffix : ∃ front, layout tokenLength payloadLength h = front ++ pnField h := by
    cases h with
    | initial h =>
      obtain ⟨common,split⟩ := layout_initial h tokenLength payloadLength
      exact ⟨common ++ (tokenLength ++ (h.token ++ payloadLength)),by rw [split]; simp [pnField]⟩
    | zeroRtt h => exact ⟨_ ++ payloadLength,(List.append_assoc _ _ _).symm⟩
    | handshake h => exact ⟨_ ++ payloadLength,(List.append_assoc _ _ _).symm⟩
    | retry h => exact ⟨_,(List.append_nil _).symm⟩
    | oneRtt h => exact ⟨_::h.dcid.bytes,rfl⟩
    | versionNegotiation h => exact ⟨_,(List.append_nil _).symm⟩
  obtain ⟨front,split⟩ := suffix
  have total : (layout tokenLength payloadLength h).length = front.length+(pnField h).length := by
    rw [split,List.length_append]
  unfold pnOffset
  split
  · rename_i none
    exact ⟨by rw [total,none]; simp,fun some => absurd none some⟩
  · refine ⟨by omega,?_⟩
    intro _
    rw [total,Nat.add_sub_cancel,split,List.drop_left]

def longFields : Header → Option (Nat × ConnId × ConnId)
  | .initial h => some (h.version,h.dcid,h.scid)
  | .zeroRtt h => some (h.version,h.dcid,h.scid)
  | .handshake h => some (h.version,h.dcid,h.scid)
  | .retry h => some (h.version,h.dcid,h.scid)
  | .versionNegotiation h => some (0,h.dcid,h.scid)
  | .oneRtt _ => none

/-- The part of the input that a parsed header borrows. -/
def slice : Header → Option (List Byte)
  | .initial h => some h.token
  | .retry h => some h.retryToken
  | .versionNegotiation h => some h.versionsBytes
  | _ => none

theorem layout_long {h : Header} {version : Nat} {dcid scid : ConnId} (long : longFields h = some (version,dcid,scid))
    (tokenLength payloadLength : List Byte) : ∃ first tail,
      layout tokenLength payloadLength h = longHeaderCommon first version dcid scid ++ tail := by
  cases h <;> cases long <;> exact ⟨_,_,rfl⟩

theorem peek_layout {h : Header} {version : Nat} {dcid scid : ConnId} (long : longFields h = some (version,dcid,scid))
    (wellFormed : WellFormed h) (tokenLength payloadLength rest : List Byte) : ∃ endPos,
      peekLongCommon (layout tokenLength payloadLength h ++ rest) =
        .ok {version := version,dcid := dcid.bytes,scid := scid.bytes,endPos := endPos} ∧
      endPos ≤ (layout tokenLength payloadLength h ++ rest).length := by
  have small : version < 2^32 := by
    cases h <;> cases long
    · exact wellFormed.2.1
    · exact wellFormed.2.1
    · exact wellFormed.2.1
    · exact wellFormed.2
    · decide
  obtain ⟨first,tail,split⟩ := layout_long long tokenLength payloadLength
  have common := longCommonSlices_common (layout tokenLength payloadLength h ++ rest).length first version dcid scid small
    (tail ++ rest)
  have behind : (layout tokenLength payloadLength h ++ rest).drop 1 =
      (longHeaderCommon first version dcid scid).tail ++ (tail ++ rest) := by
    rw [split,List.append_assoc]
    rfl
  unfold peekLongCommon Parser.run
  rw [behind,common]
  exact ⟨_,rfl,Nat.sub_le _ _⟩

theorem slice_infix {h : Header} {part : List Byte} (borrowed : slice h = some part) (tokenLength payloadLength rest : List Byte) :
    part <:+: layout tokenLength payloadLength h ++ rest := by
  cases h with
  | initial h =>
    cases borrowed
    obtain ⟨common,split⟩ := layout_initial h tokenLength payloadLength
    exact ⟨common ++ tokenLength,payloadLength ++ bigEndian h.pnLength.bytes h.pnTruncated ++ rest,by rw [split]; simp⟩
  | retry h =>
    cases borrowed
    obtain ⟨common,split⟩ : ∃ common, layout tokenLength payloadLength (.retry h) =
      common ++ (h.retryToken ++ h.integrityTag.bytes) := ⟨_,rfl⟩
    exact ⟨common,h.integrityTag.bytes ++ rest,by rw [split]; simp⟩
  | versionNegotiation h =>
    cases borrowed
    exact ⟨_,rest,rfl⟩
  | zeroRtt | handshake | oneRtt => cases borrowed

/-- The round trips of the header codec, up to the width of the Length field. -/
theorem header_round_trip :
    (∀ h, WellFormed h → ∃ bytes offset, Emits Error.bufferTooSmall (encode h) bytes ∧
      (∀ rest dcidLen, Follows rest h → (∀ g, h = .oneRtt g → dcidLen = g.dcid.len) →
        parse (bytes ++ rest) dcidLen = .ok {header := forgetWidth h,pnOffset := offset}) ∧
      (pnField h ≠ [] → bytes.drop offset = pnField h) ∧ (pnField h = [] → offset = 0)) ∧
    ∀ src dcidLen parsed, parse src dcidLen = .ok parsed → ∃ tokenLength payloadLength rest,
      src = layout tokenLength payloadLength parsed.header ++ rest ∧ VarintsOf tokenLength payloadLength parsed.header ∧
      (∃ tokenLength' payloadLength', VarintsOf tokenLength' payloadLength' parsed.header ∧
        Emits Error.bufferTooSmall (encode parsed.header) (layout tokenLength' payloadLength' parsed.header)) ∧
      parsed.pnOffset+(pnField parsed.header).length ≤ src.length ∧
      (∀ part, slice parsed.header = some part → part <:+: src) ∧
      ∀ version dcid scid, longFields parsed.header = some (version,dcid,scid) → ∃ endPos,
        peekLongCommon src = .ok {version := version,dcid := dcid.bytes,scid := scid.bytes,endPos := endPos} ∧
          endPos ≤ src.length := by
  constructor
  · intro h wellFormed
    obtain ⟨tokenLength,payloadLength,varints,writes⟩ := encode_layout h wellFormed
    refine ⟨_,pnOffset tokenLength payloadLength h,writes,?_,(drop_pnOffset _ _ h).2,fun none => if_pos none⟩
    intro rest dcidLen follows cidLen
    exact parse_layout h tokenLength payloadLength rest dcidLen wellFormed varints follows cidLen
  · intro src dcidLen parsed ok
    obtain ⟨tokenLength,payloadLength,rest,rebuilds⟩ := parse_rebuilds ok
    have again := parse_layout parsed.header tokenLength payloadLength rest dcidLen rebuilds.wellFormed rebuilds.varints
      rebuilds.follows rebuilds.cidLen
    rw [← rebuilds.bytes,ok] at again
    have offset : parsed.pnOffset = pnOffset tokenLength payloadLength parsed.header :=
      congrArg Parsed.pnOffset (Except.ok.inj again)
    have inside := (drop_pnOffset tokenLength payloadLength parsed.header).1
    refine ⟨tokenLength,payloadLength,rest,rebuilds.bytes,rebuilds.varints,encode_layout _ rebuilds.wellFormed,?_,?_,?_⟩
    · rw [offset,rebuilds.bytes,List.length_append]
      omega
    · intro part borrowed
      rw [rebuilds.bytes]
      exact slice_infix borrowed tokenLength payloadLength rest
    · intro version dcid scid long
      rw [rebuilds.bytes]
      exact peek_layout long rebuilds.wellFormed tokenLength payloadLength rest

/-- A small Initial header whose Length field takes eight bytes. -/
def wideInitial : Header := .initial {
  version := 1
  dcid := {}
  scid := {}
  token := []
  pnLength := .one
  pnTruncated := 0
  payloadLength := 17
  payloadLengthBytes := 8
}

theorem wideInitial_wellFormed : WellFormed wideInitial :=
  ⟨by decide,by decide,by decide,by decide,by decide,.inr ⟨_,rfl,by decide⟩⟩

theorem header_round_trip_wide : ∃ bytes offset, Emits Error.bufferTooSmall (encode wideInitial) bytes ∧
    parse bytes 0 = .ok {header := forgetWidth wideInitial,pnOffset := offset} := by
  obtain ⟨bytes,offset,writes,reads,_⟩ := header_round_trip.1 wideInitial wideInitial_wellFormed
  have read := reads [] 0 trivial (fun _ other => by cases other)
  rw [List.append_nil] at read
  exact ⟨bytes,offset,writes,read⟩

/-- The width of the Length field does not come back. -/
theorem width_not_recovered : ¬ ∀ (h : Header) (bytes : List Byte) (room dcidLen : Nat), WellFormed h →
    encode h room = .ok bytes → ∃ offset, parse bytes dcidLen = .ok {header := h,pnOffset := offset} := by
  intro recovered
  obtain ⟨bytes,encoded,read⟩ : ∃ bytes, encode wideInitial 64 = .ok bytes ∧
      parse bytes 0 = .ok {header := forgetWidth wideInitial,pnOffset := 16} := ⟨_,rfl,by decide +kernel⟩
  obtain ⟨offset,parsed⟩ := recovered wideInitial bytes 64 0 wideInitial_wellFormed encoded
  rw [read] at parsed
  have same : forgetWidth wideInitial = wideInitial := congrArg Parsed.header (Except.ok.inj parsed)
  revert same
  decide

end QuicZig.Wire.Header
