import QuicZig.Frame.Written

/-! What `decode` accepts is well formed and no shorter than announced, so it
can be written again. -/
namespace QuicZig.Frame
open Machine BigEndian Codec Wire

section Accepted
variable {spent : Nat}

theorem uses_single {next : Nat → QuicZig.Frame} (valid : ∀ v, Fits v → WellFormed (next v))
    (size : ∀ v, encodedLen (next v) = spent+Varint.encodedLen v) :
    Uses (do let v ← Varint.read; pure (next v)) spent WellFormed encodedLen := by
  apply uses_value.bind
  intro v fits
  exact Uses.pure (valid v fits) (Nat.le_of_eq (size v))

theorem uses_pair {next : Nat → Nat → QuicZig.Frame} (valid : ∀ u v, Fits u → Fits v → WellFormed (next u v))
    (size : ∀ u v, encodedLen (next u v) = spent+Varint.encodedLen u+Varint.encodedLen v) :
    Uses (do let u ← Varint.read; let v ← Varint.read; pure (next u v)) spent WellFormed encodedLen := by
  apply uses_value.bind
  intro u fitsFirst
  exact uses_single (fun v fits => valid u v fitsFirst fits) (size u)

theorem uses_path {next : Nat → QuicZig.Frame} (valid : ∀ pathId, FitsPathId pathId → WellFormed (next pathId))
    (size : ∀ pathId, encodedLen (next pathId) = spent+Varint.encodedLen pathId) :
    Uses (do let pathId ← decodePathId; pure (next pathId)) spent WellFormed encodedLen := by
  apply uses_pathId.bind
  intro pathId fits
  exact Uses.pure (valid pathId fits) (Nat.le_of_eq (size pathId))

theorem uses_pathPair {next : Nat → Nat → QuicZig.Frame}
    (valid : ∀ pathId v, FitsPathId pathId → Fits v → WellFormed (next pathId v))
    (size : ∀ pathId v, encodedLen (next pathId v) = spent+Varint.encodedLen pathId+Varint.encodedLen v) :
    Uses (do let pathId ← decodePathId; let v ← Varint.read; pure (next pathId v)) spent WellFormed encodedLen := by
  apply uses_pathId.bind
  intro pathId fitsPath
  exact uses_single (fun v fits => valid pathId v fitsPath fits) (size pathId)

end Accepted

theorem uses_resetStream : Uses decodeResetStream 1 WellFormed encodedLen := by
  apply uses_value.bind
  intro sid streamId
  exact uses_pair (fun ec sz errorCode finalSize => ⟨streamId,errorCode,finalSize⟩) (fun ec sz => rfl)

theorem uses_ackFrequency : Uses decodeAckFrequency (Varint.encodedLen frameTypeAckFrequency) WellFormed encodedLen := by
  apply uses_value.bind
  intro seq sequenceNumber
  apply uses_value.bind
  intro threshold fits
  exact uses_pair (fun delay reorder fitsDelay fitsReorder => ⟨sequenceNumber,fits,fitsDelay,fitsReorder⟩)
    (fun delay reorder => rfl)

theorem uses_crypto : Uses decodeCrypto 1 WellFormed encodedLen := by
  apply uses_value.bind
  intro off offset
  apply uses_value.bind
  intro len fits
  apply (uses_borrowed len).bind
  intro data length
  rw [← length] at fits ⊢
  exact Uses.pure ⟨offset,fits⟩ (Nat.le_refl _)

theorem uses_newToken : Uses decodeNewToken 1 WellFormed encodedLen := by
  apply uses_value.bind
  intro len fits
  apply (uses_borrowed len).bind
  intro token length
  rw [← length] at fits ⊢
  exact Uses.pure fits (Nat.le_refl _)

theorem uses_ack (withEcn : Bool) : Uses (decodeAck withEcn) 1 WellFormed encodedLen := by
  apply (uses_ackBody withEcn).bind
  intro body valid
  exact Uses.pure valid.1 (Nat.le_refl _)

theorem uses_pathAck (withEcn : Bool) :
    Uses (decodePathAck withEcn) (Varint.encodedLen (if withEcn then frameTypePathAckEcn else frameTypePathAck))
      WellFormed encodedLen := by
  apply uses_pathId.bind
  intro pathId fits
  apply (uses_ackBody withEcn).bind
  intro body valid
  obtain ⟨valid,ecn⟩ := valid
  have type : pathAckType body.ecnCounts = if withEcn then frameTypePathAckEcn else frameTypePathAck := by
    unfold pathAckType
    cases counts : body.ecnCounts <;> rw [counts] at ecn <;> subst ecn <;> rfl
  apply Uses.pure ⟨fits,valid⟩
  rw [← type]
  exact Nat.le_refl _

theorem uses_stream (typeByte : Byte) : Uses (decodeStream typeByte) 1 WellFormed encodedLen := by
  apply uses_value.bind
  intro sid streamId
  apply (uses_if _).bind
  intro offset fits
  apply (uses_data _).bind
  intro data length
  apply Uses.pure ⟨streamId,fits,length⟩
  simp only [encodedLen]
  omega

theorem uses_datagram (hasLength : Bool) : Uses (decodeDatagram hasLength) 1 WellFormed encodedLen := by
  apply (uses_data hasLength).bind
  intro data length
  apply Uses.pure length
  simp only [encodedLen]
  omega

theorem uses_connectionClose (isTransport : Bool) : Uses (decodeConnectionClose isTransport) 1 WellFormed encodedLen := by
  apply uses_value.bind
  intro ec errorCode
  apply (uses_if isTransport).bind
  intro frameType fits
  apply uses_value.bind
  intro rl fitsReason
  apply (uses_borrowed rl).bind
  intro reason length
  rw [← length] at fitsReason ⊢
  exact Uses.pure ⟨errorCode,fits,fitsReason⟩ (Nat.le_refl _)

theorem uses_newConnectionId : Uses decodeNewConnectionId 1 WellFormed encodedLen := by
  apply uses_value.bind
  intro seq sequenceNumber
  apply uses_value.bind
  intro ret retirePriorTo
  apply uses_cidAndResetToken.bind
  intro tail _
  exact Uses.pure ⟨sequenceNumber,retirePriorTo⟩ (Nat.le_refl _)

theorem uses_pathNewConnectionId :
    Uses decodePathNewConnectionId (Varint.encodedLen frameTypePathNewConnectionId) WellFormed encodedLen := by
  apply uses_pathId.bind
  intro pathId fits
  apply uses_value.bind
  intro seq sequenceNumber
  apply uses_value.bind
  intro ret retirePriorTo
  apply uses_cidAndResetToken.bind
  intro tail _
  exact Uses.pure ⟨fits,sequenceNumber,retirePriorTo⟩ (Nat.le_refl _)

theorem uses_fixed8 {next : Fixed 8 → QuicZig.Frame} (valid : ∀ data, WellFormed (next data))
    (size : ∀ data, encodedLen (next data) = 1+8) :
    Uses (do let data ← Parser.fixed Error.insufficientBytes 8; pure (next data)) 1 WellFormed encodedLen := by
  apply (uses_fixed _ 8).bind
  intro data _
  exact Uses.pure (valid data) (Nat.le_of_eq (size data))

theorem uses_alternative {t size : Nat} {next : AlternativeAddress size → QuicZig.Frame}
    (valid : ∀ f, Fits f.statusSequenceNumber ∧ f.port < 2^16 → WellFormed (next f))
    (length : ∀ f, encodedLen (next f) = encodedAltAddressLen t f) :
    Uses (do let r ← decodeAltAddress size; pure (next r)) (Varint.encodedLen t) WellFormed encodedLen := by
  apply (uses_altAddress size).bind
  intro f fits
  apply Uses.pure (valid f fits)
  rw [length]
  unfold encodedAltAddressLen
  omega

theorem uses_case {frameType t : Nat} {here others : Parser Error QuicZig.Frame}
    (matched : Uses here (Varint.encodedLen t) WellFormed encodedLen)
    (unmatched : Uses others (Varint.encodedLen frameType) WellFormed encodedLen) :
    Uses (if frameType = t then here else others) (Varint.encodedLen frameType) WellFormed encodedLen := by
  split
  · rename_i same
    rwa [same]
  · exact unmatched

theorem uses_streamTypes {frameType : Nat} {others : Parser Error QuicZig.Frame}
    (unmatched : Uses others (Varint.encodedLen frameType) WellFormed encodedLen) :
    Uses (if 0x08 ≤ frameType ∧ frameType ≤ 0x0f then decodeStream (UInt8.ofNat frameType) else others)
      (Varint.encodedLen frameType) WellFormed encodedLen := by
  split
  · have short : Varint.encodedLen frameType = 1 := if_pos (by omega)
    rw [short]
    exact uses_stream _
  · exact unmatched

theorem uses_body (frameType : Nat) : Uses (decodeBody frameType) (Varint.encodedLen frameType) WellFormed encodedLen := by
  unfold decodeBody
  apply uses_case
  · exact Uses.pure trivial (Nat.le_refl _)
  apply uses_case
  · exact uses_ack false
  apply uses_case
  · exact uses_ack true
  apply uses_case
  · exact uses_resetStream
  apply uses_case
  · exact uses_pair (fun _ _ => And.intro) (fun _ _ => rfl)
  apply uses_case
  · exact uses_crypto
  apply uses_case
  · exact uses_newToken
  apply uses_streamTypes
  apply uses_case
  · exact uses_single (fun _ => id) (fun _ => rfl)
  apply uses_case
  · exact uses_ackFrequency
  apply uses_case
  · exact Uses.pure trivial (Nat.le_refl _)
  apply uses_case
  · exact uses_pair (fun _ _ => And.intro) (fun _ _ => rfl)
  apply uses_case
  · exact uses_single (fun _ => id) (fun _ => rfl)
  apply uses_case
  · exact uses_single (fun _ => id) (fun _ => rfl)
  apply uses_case
  · exact uses_single (fun _ => id) (fun _ => rfl)
  apply uses_case
  · exact uses_pair (fun _ _ => And.intro) (fun _ _ => rfl)
  apply uses_case
  · exact uses_single (fun _ => id) (fun _ => rfl)
  apply uses_case
  · exact uses_single (fun _ => id) (fun _ => rfl)
  apply uses_case
  · exact uses_newConnectionId
  apply uses_case
  · exact uses_single (fun _ => id) (fun _ => rfl)
  apply uses_case
  · exact uses_fixed8 (fun _ => trivial) (fun _ => rfl)
  apply uses_case
  · exact uses_fixed8 (fun _ => trivial) (fun _ => rfl)
  apply uses_case
  · exact uses_connectionClose true
  apply uses_case
  · exact uses_connectionClose false
  apply uses_case
  · exact Uses.pure trivial (Nat.le_refl _)
  apply uses_case
  · exact uses_datagram false
  apply uses_case
  · exact uses_datagram true
  apply uses_case
  · exact uses_pathAck false
  apply uses_case
  · exact uses_pathAck true
  apply uses_case
  · exact uses_pathPair (fun _ _ => And.intro) (fun _ _ => rfl)
  apply uses_case
  · exact uses_pathPair (fun _ _ => And.intro) (fun _ _ => rfl)
  apply uses_case
  · exact uses_pathPair (fun _ _ => And.intro) (fun _ _ => rfl)
  apply uses_case
  · exact uses_pathNewConnectionId
  apply uses_case
  · exact uses_pathPair (fun _ _ => And.intro) (fun _ _ => rfl)
  apply uses_case
  · exact uses_path (fun _ => id) (fun _ => rfl)
  apply uses_case
  · exact uses_path (fun _ => id) (fun _ => rfl)
  apply uses_case
  · exact uses_pathPair (fun _ _ => And.intro) (fun _ _ => rfl)
  apply uses_case
  · exact uses_alternative (fun _ => id) (fun _ => rfl)
  apply uses_case
  · exact uses_alternative (fun _ => id) (fun _ => rfl)
  exact uses_fail _ _ _ _

theorem decode_typed {s rest : List Byte} {f : QuicZig.Frame} (ok : decodeTyped s = .ok (f,rest)) :
    decode s = .ok {frame := f,bytesConsumed := s.length-rest.length} := by
  cases s with
  | nil => cases ok
  | cons first tail =>
    by_cases zero : first = 0
    · subst zero
      have unknown : decodeTyped (0::tail) = .error .unknownFrameType := rfl
      rw [unknown] at ok
      cases ok
    · simp only [decode,if_neg zero,ok]

theorem decode_padding {count : Nat} (some : 1 ≤ count) {rest : List Byte} (nonzero : rest.head? ≠ .some 0) :
    decode (List.replicate count 0 ++ rest) = .ok {frame := .padding {count := count},bytesConsumed := count} := by
  obtain ⟨more,rfl⟩ : ∃ more, count = more+1 := ⟨count-1,by omega⟩
  have stops : rest.takeWhile (· = (0 : Byte)) = [] := by
    cases rest with
    | nil => rfl
    | cons first tail =>
      apply List.takeWhile_cons_of_neg
      simpa using nonzero
  have run : ((List.replicate (more+1) (0 : Byte) ++ rest).takeWhile (· = 0)).length = more+1 := by
    rw [List.takeWhile_append_of_pos (by simp),stops,List.append_nil,List.length_replicate]
  rw [List.replicate_succ,List.cons_append] at run ⊢
  simp only [decode,if_true,run]

theorem follows_nil (f : QuicZig.Frame) : Follows f [] := by
  cases f with
  | padding _ => exact nofun
  | stream _ => exact fun _ => rfl
  | datagram _ => exact fun _ => rfl
  | _ => trivial

theorem encode_decode (f : QuicZig.Frame) (wf : WellFormed f) : ∃ bytes, bytes.length = encodedLen f ∧
    Emits Error.bufferTooSmall (encode f) bytes ∧
    ∀ rest, Follows f rest → decode (bytes ++ rest) = .ok {frame := f,bytesConsumed := encodedLen f} := by
  by_cases padding : ∃ p, f = .padding p
  · obtain ⟨p,rfl⟩ := padding
    refine ⟨List.replicate p.count 0,List.length_replicate,emits_put _ _,?_⟩
    intro rest follows
    exact decode_padding wf follows
  · obtain ⟨bytes,writes,reads,length⟩ := codes_frame f wf (fun p same => padding ⟨p,same⟩)
    refine ⟨bytes,length,writes,?_⟩
    intro rest follows
    rw [decode_typed (reads rest follows),List.length_append,Nat.add_sub_cancel,length]

theorem decode_accepts {src : List Byte} {d : Decoded} (ok : decode src = .ok d) :
    WellFormed d.frame ∧ encodedLen d.frame ≤ d.bytesConsumed ∧ d.bytesConsumed ≤ src.length ∧ 1 ≤ d.bytesConsumed := by
  cases src with
  | nil => cases ok
  | cons first tail =>
    rw [decode] at ok
    split at ok
    · rename_i zero
      cases ok
      have first : 1 ≤ ((first::tail).takeWhile (· = (0 : Byte))).length := by
        rw [List.takeWhile_cons_of_pos (by simpa using zero)]
        exact Nat.le_add_left _ _
      exact ⟨first,Nat.le_refl _,(List.takeWhile_prefix _).length_le,first⟩
    · split at ok
      · rename_i f rest here
        cases ok
        obtain ⟨t,middle,type,body⟩ := bind_inv here
        obtain ⟨typeBytes,whole,spells⟩ := Varint.accepts_read _ _ _ type
        obtain ⟨used,rfl,wf,covered⟩ := uses_body t _ _ _ body
        obtain ⟨small,least⟩ := spells.bounds
        have positive := Varint.encodedLen_pos t small
        have length := congrArg List.length whole
        simp only [List.length_append] at length
        dsimp only
        refine ⟨wf,?_,?_,?_⟩ <;> omega
      · cases ok

/-- The round trips of the frame codec. -/
theorem frame_round_trip :
    (∀ f, WellFormed f → ∃ bytes, bytes.length = encodedLen f ∧
      (∀ room, encode f room = if encodedLen f ≤ room then .ok bytes else .error .bufferTooSmall) ∧
      ∀ rest, Follows f rest → decode (bytes ++ rest) = .ok {frame := f,bytesConsumed := encodedLen f}) ∧
    ∀ src d, decode src = .ok d →
      encodedLen d.frame ≤ d.bytesConsumed ∧ d.bytesConsumed ≤ src.length ∧ 1 ≤ d.bytesConsumed ∧
      ∃ bytes, encode d.frame (encodedLen d.frame) = .ok bytes ∧
        decode bytes = .ok {frame := d.frame,bytesConsumed := encodedLen d.frame} := by
  constructor
  · intro f wf
    obtain ⟨bytes,length,writes,reads⟩ := encode_decode f wf
    refine ⟨bytes,length,?_,reads⟩
    intro room
    rw [writes room,length]
  · intro src d ok
    obtain ⟨wf,covered,within,positive⟩ := decode_accepts ok
    obtain ⟨bytes,length,writes,reads⟩ := encode_decode d.frame wf
    have again := reads [] (follows_nil d.frame)
    rw [List.append_nil] at again
    refine ⟨covered,within,positive,bytes,?_,again⟩
    rw [writes,if_pos (Nat.le_of_eq length)]

/-- An acknowledgement of 40 to 50 and 20 to 30. -/
def twoRanges : QuicZig.Frame := .ack {
  largestAcked := 50
  ackDelay := 7
  firstRange := 10
  rangeCount := 1
  rangesBytes := [8,10]
}

theorem twoRanges_wellFormed : WellFormed twoRanges where
  largest := by decide
  delay := by decide
  count := by decide
  ranges := ⟨by decide,[{gap := 8,length := 10}],rfl,.cons (spells_short (by decide)) (spells_short (by decide)) .nil,by decide⟩
  ecn := nofun

theorem frame_round_trip_ack : (∃ bytes, encode twoRanges 7 = .ok bytes ∧
    decode bytes = .ok {frame := twoRanges,bytesConsumed := 7}) ∧
    ∃ bytes, encode .ping (encodedLen .ping) = .ok bytes ∧ decode bytes = .ok {frame := .ping,bytesConsumed := 1} := by
  constructor
  · obtain ⟨bytes,_,writes,reads⟩ := frame_round_trip.1 twoRanges twoRanges_wellFormed
    have read := reads [] trivial
    rw [List.append_nil] at read
    exact ⟨bytes,writes 7,read⟩
  · exact (frame_round_trip.2 [0x40,0x01] {frame := .ping,bytesConsumed := 2} (by decide +kernel)).2.2.2

/-- An application close with a frame type, which the wire has no place for. -/
def closeWithType : ConnectionClose := {isTransport := false,errorCode := 0,frameType := 1,reasonPhrase := []}

/-- An acknowledgement of 257 ranges of one packet each, behind the first one. -/
def manyRanges : Ack := {
  largestAcked := 600
  ackDelay := 0
  firstRange := 0
  rangeCount := 257
  rangesBytes := List.replicate 514 0
}

theorem spells_zeros (count : Nat) :
    SpellsPairs (List.replicate count {gap := 0,length := 0}) (List.replicate (2*count) 0) := by
  induction count with
  | zero => exact .nil
  | succ count ih =>
    have zero : Varint.Spells [0] 0 := spells_short (by decide)
    exact .cons (r := {gap := 0,length := 0}) zero zero ih

/-- The frame type of an application close and a list of more than 256 ranges do not come back. -/
theorem fields_not_recovered :
    ((Fits closeWithType.errorCode ∧ Fits closeWithType.frameType ∧ Fits closeWithType.reasonPhrase.length) ∧
      ∃ bytes, encode (.connectionClose closeWithType) 3 = .ok bytes ∧
        decode bytes = .ok {frame := .connectionClose {closeWithType with frameType := 0},bytesConsumed := 3} ∧
        {closeWithType with frameType := 0} ≠ closeWithType) ∧
    ((Fits manyRanges.largestAcked ∧ Fits manyRanges.ackDelay ∧ Fits manyRanges.rangeCount ∧
      ValidRanges manyRanges.largestAcked manyRanges.firstRange manyRanges.rangeCount manyRanges.rangesBytes) ∧
      ∃ bytes, encode (.ack manyRanges) (encodedLen (.ack manyRanges)) = .ok bytes ∧
        decode bytes = .error .ackRangeCountTooLarge) := by
  constructor
  · exact ⟨by decide,[0x1d,0x00,0x00],by decide +kernel,by decide +kernel,by decide⟩
  · refine ⟨⟨by decide,by decide,by decide,by decide,_,List.length_replicate,spells_zeros 257,by decide +kernel⟩,?_⟩
    exact ⟨[0x02,0x42,0x58,0x00,0x41,0x01,0x00] ++ List.replicate 514 0,by decide +kernel,by decide +kernel⟩

end QuicZig.Frame
