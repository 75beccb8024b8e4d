import QuicZig.Frame.Fields

/-! What `encode` writes for a well-formed frame is what the decoder reads, in
exactly the announced length. -/
namespace QuicZig.Frame
open Machine BigEndian Codec Wire

attribute [local simp] encodedLen

def WellFormed : QuicZig.Frame → Prop
  | .padding f => 1 ≤ f.count
  | .ping => True
  | .ack f => ValidAck f.largestAcked f.ackDelay f.firstRange f.rangeCount f.rangesBytes f.ecnCounts
  | .resetStream f => Fits f.streamId ∧ Fits f.applicationErrorCode ∧ Fits f.finalSize
  | .stopSending f => Fits f.streamId ∧ Fits f.applicationErrorCode
  | .crypto f => Fits f.offset ∧ Fits f.data.length
  | .newToken f => Fits f.token.length
  | .stream f => Fits f.streamId ∧ (Fits f.offset ∧ (f.hasOffset = false → f.offset = 0)) ∧
      (f.hasLength = true → Fits f.data.length)
  | .maxData f => Fits f.maximumData
  | .maxStreamData f => Fits f.streamId ∧ Fits f.maximumStreamData
  | .maxStreams f => Fits f.maximumStreams
  | .dataBlocked f => Fits f.maximumData
  | .streamDataBlocked f => Fits f.streamId ∧ Fits f.maximumStreamData
  | .streamsBlocked f => Fits f.maximumStreams
  | .newConnectionId f => Fits f.sequenceNumber ∧ Fits f.retirePriorTo
  | .retireConnectionId f => Fits f.sequenceNumber
  | .pathChallenge _ => True
  | .pathResponse _ => True
  | .connectionClose f => Fits f.errorCode ∧ (Fits f.frameType ∧ (f.isTransport = false → f.frameType = 0)) ∧
      Fits f.reasonPhrase.length
  | .handshakeDone => True
  | .datagram f => f.hasLength = true → Fits f.data.length
  | .pathAck f => FitsPathId f.pathId ∧
      ValidAck f.largestAcked f.ackDelay f.firstRange f.rangeCount f.rangesBytes f.ecnCounts
  | .pathAbandon f => FitsPathId f.pathId ∧ Fits f.errorCode
  | .pathStatusBackup f => FitsPathId f.pathId ∧ Fits f.sequenceNumber
  | .pathStatusAvailable f => FitsPathId f.pathId ∧ Fits f.sequenceNumber
  | .pathNewConnectionId f => FitsPathId f.pathId ∧ Fits f.sequenceNumber ∧ Fits f.retirePriorTo
  | .pathRetireConnectionId f => FitsPathId f.pathId ∧ Fits f.sequenceNumber
  | .maxPathId f => FitsPathId f.maximumPathId
  | .pathsBlocked f => FitsPathId f.maximumPathId
  | .pathCidsBlocked f => FitsPathId f.pathId ∧ Fits f.nextSequenceNumber
  | .alternativeV4Address f => Fits f.statusSequenceNumber ∧ f.port < 2^16
  | .alternativeV6Address f => Fits f.statusSequenceNumber ∧ f.port < 2^16
  | .ackFrequency f => Fits f.sequenceNumber ∧ Fits f.ackElicitingThreshold ∧ Fits f.requestMaxAckDelayUs ∧
      Fits f.reorderingThreshold
  | .immediateAck => True

def Follows : QuicZig.Frame → List Byte → Prop
  | .padding _,rest => rest.head? ≠ some 0
  | .stream f,rest => EndsPayload f.hasLength rest
  | .datagram f,rest => EndsPayload f.hasLength rest
  | _,_ => True

section Written
variable {follows : List Byte → Prop} {rest : List (Writer Error)} {body : Parser Error QuicZig.Frame} {f : QuicZig.Frame}
  {t n : Nat}

theorem codes_short (small : t < 64) (known : decodeBody t = body)
    (fields : Codes Error.bufferTooSmall follows (.all rest) body f n) :
    Codes Error.bufferTooSmall follows (.all (writeTypeOnly (UInt8.ofNat t)::rest)) decodeTyped f (1+n) := by
  apply (codes_typeOnly t small).cons
  rwa [known]

theorem codes_long (fits : Fits t) (known : decodeBody t = body)
    (fields : Codes Error.bufferTooSmall follows (.all rest) body f n) :
    Codes Error.bufferTooSmall follows (.all (writeFrameType t::rest)) decodeTyped f (Varint.encodedLen t+n) := by
  apply (codes_frameType t fits).cons
  rwa [known]

theorem codes_typeAlone {w : Writer Error} {m : Nat} (type : Codes Error.bufferTooSmall Anything w Varint.read t m)
    (known : decodeBody t = pure f) : Codes Error.bufferTooSmall Anything w decodeTyped f m :=
  type.final known

theorem codes_single {next : Nat → QuicZig.Frame} {v : Nat} (small : t < 64)
    (known : decodeBody t = do let v ← Varint.read; pure (next v)) (fits : Fits v) :
    Codes Error.bufferTooSmall Anything (encodeSingleVarint (UInt8.ofNat t) v) decodeTyped (next v)
      (1+Varint.encodedLen v) := by
  apply codes_short small known
  apply Codes.last
  exact (codes_value fits).final rfl

theorem codes_pair {next : Nat → Nat → QuicZig.Frame} {u v : Nat} (small : t < 64)
    (known : decodeBody t = do let u ← Varint.read; let v ← Varint.read; pure (next u v)) (fitsFirst : Fits u) (fits : Fits v) :
    Codes Error.bufferTooSmall Anything (.all [writeTypeOnly (UInt8.ofNat t),Varint.encode u,Varint.encode v]) decodeTyped
      (next u v) (1+Varint.encodedLen u+Varint.encodedLen v) := by
  apply Codes.of_length
  · apply codes_short small known
    apply (codes_value fitsFirst).cons
    apply Codes.last
    exact (codes_value fits).final rfl
  · exact (Nat.add_assoc _ _ _).symm

theorem codes_path {next : Nat → QuicZig.Frame} {pathId : Nat} (type : Fits t)
    (known : decodeBody t = do let pathId ← decodePathId; pure (next pathId)) (fits : FitsPathId pathId) :
    Codes Error.bufferTooSmall Anything (encodePathIdOnly t pathId) decodeTyped (next pathId)
      (Varint.encodedLen t+Varint.encodedLen pathId) := by
  apply codes_long type known
  apply Codes.last
  exact (codes_pathId fits).final rfl

theorem codes_pathPair {next : Nat → Nat → QuicZig.Frame} {pathId v : Nat} (type : Fits t)
    (known : decodeBody t = do let pathId ← decodePathId; let v ← Varint.read; pure (next pathId v))
    (fitsPath : FitsPathId pathId) (fits : Fits v) :
    Codes Error.bufferTooSmall Anything (.all [writeFrameType t,Varint.encode pathId,Varint.encode v]) decodeTyped
      (next pathId v) (Varint.encodedLen t+Varint.encodedLen pathId+Varint.encodedLen v) := by
  apply Codes.of_length
  · apply codes_long type known
    apply (codes_pathId fitsPath).cons
    apply Codes.last
    exact (codes_value fits).final rfl
  · exact (Nat.add_assoc _ _ _).symm

end Written

theorem codes_resetStream {f : ResetStream} (wf : WellFormed (.resetStream f)) :
    Codes Error.bufferTooSmall Anything (encodeResetStream f) decodeTyped (.resetStream f) (encodedLen (.resetStream f)) := by
  obtain ⟨streamId,applicationErrorCode,finalSize⟩ := wf
  apply Codes.of_length
  · apply codes_short (t := 0x04) (by decide) rfl
    apply (codes_value streamId).cons
    apply (codes_value applicationErrorCode).cons
    apply Codes.last
    exact (codes_value finalSize).final rfl
  · simp only [encodedLen,Nat.add_assoc]

theorem codes_ackFrequency {f : AckFrequency} (wf : WellFormed (.ackFrequency f)) :
    Codes Error.bufferTooSmall Anything (encodeAckFrequency f) decodeTyped (.ackFrequency f)
      (encodedLen (.ackFrequency f)) := by
  obtain ⟨sequenceNumber,threshold,delay,reordering⟩ := wf
  apply Codes.of_length
  · apply codes_long (t := frameTypeAckFrequency) (by decide) rfl
    apply (codes_value sequenceNumber).cons
    apply (codes_value threshold).cons
    apply (codes_value delay).cons
    apply Codes.last
    exact (codes_value reordering).final rfl
  · simp only [encodedLen,Nat.add_assoc]

theorem codes_crypto {f : Crypto} (wf : WellFormed (.crypto f)) :
    Codes Error.bufferTooSmall Anything (encodeCrypto f) decodeTyped (.crypto f) (encodedLen (.crypto f)) := by
  obtain ⟨offset,length⟩ := wf
  apply Codes.of_length
  · apply codes_short (t := 0x06) (by decide) rfl
    apply (codes_value offset).cons
    apply (codes_value length).cons
    apply Codes.last
    exact (codes_borrowed f.data).final rfl
  · simp only [encodedLen,Nat.add_assoc]

theorem codes_newToken {f : NewToken} (length : WellFormed (.newToken f)) :
    Codes Error.bufferTooSmall Anything (encodeNewToken f) decodeTyped (.newToken f) (encodedLen (.newToken f)) := by
  apply Codes.of_length
  · apply codes_short (t := 0x07) (by decide) rfl
    apply (codes_value length).cons
    apply Codes.last
    exact (codes_borrowed f.token).final rfl
  · simp only [encodedLen,Nat.add_assoc]

theorem codes_ack {f : Ack} (valid : WellFormed (.ack f)) :
    Codes Error.bufferTooSmall Anything (encodeAck f) decodeTyped (.ack f) (encodedLen (.ack f)) := by
  unfold encodeAck
  have body := codes_ackBody valid
  cases ecn : f.ecnCounts with
  | none =>
    rw [ecn] at body
    apply Codes.of_length
    · apply codes_short (t := 0x02) (by decide) rfl
      apply Codes.last
      apply body.final
      rw [← ecn]
    · simp only [encodedLen,ecn]
  | some e =>
    rw [ecn] at body
    apply Codes.of_length
    · apply codes_short (t := 0x03) (by decide) rfl
      apply Codes.last
      apply body.final
      rw [← ecn]
    · simp only [encodedLen,ecn]

theorem codes_pathAck {f : PathAck} (wf : WellFormed (.pathAck f)) :
    Codes Error.bufferTooSmall Anything (encodePathAck f) decodeTyped (.pathAck f) (encodedLen (.pathAck f)) := by
  obtain ⟨pathId,valid⟩ := wf
  unfold encodePathAck
  have body := codes_ackBody valid
  cases ecn : f.ecnCounts with
  | none =>
    rw [ecn] at body
    apply Codes.of_length
    · apply codes_long (t := frameTypePathAck) (by decide) rfl
      apply (codes_pathId pathId).cons
      apply Codes.last
      apply body.final
      rw [← ecn]
    · simp only [encodedLen,ecn,Nat.add_assoc]
      rfl
  | some e =>
    rw [ecn] at body
    apply Codes.of_length
    · apply codes_long (t := frameTypePathAckEcn) (by decide) rfl
      apply (codes_pathId pathId).cons
      apply Codes.last
      apply body.final
      rw [← ecn]
    · simp only [encodedLen,ecn,Nat.add_assoc]
      rfl

theorem streamTypeByte_flags (f : Stream) :
    8 ≤ (streamTypeByte f).toNat ∧ (streamTypeByte f).toNat ≤ 15 ∧
      decide (streamTypeByte f &&& (0x04 : Byte) ≠ 0) = f.hasOffset ∧
      decide (streamTypeByte f &&& (0x02 : Byte) ≠ 0) = f.hasLength ∧
      decide (streamTypeByte f &&& (0x01 : Byte) ≠ 0) = f.fin := by
  unfold streamTypeByte
  generalize f.hasOffset = hasOffset,f.hasLength = hasLength,f.fin = fin
  revert hasOffset hasLength fin
  decide

theorem decodeBody_stream {typeByte : Byte} (low : 8 ≤ typeByte.toNat) (high : typeByte.toNat ≤ 15) :
    decodeBody typeByte.toNat = decodeStream typeByte := by
  unfold decodeBody
  rw [if_neg (by omega),if_neg (by omega),if_neg (by omega),if_neg (by omega),if_neg (by omega),if_neg (by omega),
    if_neg (by omega),if_pos ⟨low,high⟩,UInt8.ofNat_toNat]

theorem codes_stream {f : Stream} (wf : WellFormed (.stream f)) :
    Codes Error.bufferTooSmall (EndsPayload f.hasLength) (encodeStream f) decodeTyped (.stream f)
      (encodedLen (.stream f)) := by
  obtain ⟨streamId,⟨offset,absent⟩,length⟩ := wf
  obtain ⟨low,high,offsetFlag,lengthFlag,finFlag⟩ := streamTypeByte_flags f
  have type := codes_typeOnly (streamTypeByte f).toNat (by omega)
  rw [UInt8.ofNat_toNat] at type
  unfold encodeStream
  apply Codes.of_length
  · apply type.cons
    rw [decodeBody_stream low high,decodeStream,offsetFlag,lengthFlag,finFlag]
    apply (codes_value streamId).cons
    apply (codes_if f.hasOffset offset absent).cons
    exact (codes_data f.hasLength f.data length).final rfl
  · simp only [encodedLen,Nat.add_assoc]

theorem codes_datagram {f : Datagram} (wf : WellFormed (.datagram f)) :
    Codes Error.bufferTooSmall (EndsPayload f.hasLength) (encodeDatagram f) decodeTyped (.datagram f)
      (encodedLen (.datagram f)) := by
  obtain ⟨data,hasLength⟩ := f
  unfold encodeDatagram
  cases hasLength with
  | true =>
    apply Codes.of_length
    · apply codes_short (t := 0x31) (by decide) rfl
      exact (codes_data true data wf).final rfl
    · simp only [encodedLen,Nat.add_assoc]
  | false =>
    apply Codes.of_length
    · apply codes_short (t := 0x30) (by decide) rfl
      exact (codes_data false data wf).final rfl
    · simp only [encodedLen,Nat.add_assoc]

theorem codes_connectionClose {f : ConnectionClose} (wf : WellFormed (.connectionClose f)) :
    Codes Error.bufferTooSmall Anything (encodeConnectionClose f) decodeTyped (.connectionClose f)
      (encodedLen (.connectionClose f)) := by
  obtain ⟨errorCode,⟨frameType,absent⟩,length⟩ := wf
  have fields : Codes Error.bufferTooSmall Anything
      (.all [Varint.encode f.errorCode,if f.isTransport then Varint.encode f.frameType else .all [],
        Varint.encode f.reasonPhrase.length,writeBytes f.reasonPhrase])
      (decodeConnectionClose f.isTransport) (.connectionClose f)
      (Varint.encodedLen f.errorCode+((if f.isTransport then Varint.encodedLen f.frameType else 0)+
        (Varint.encodedLen f.reasonPhrase.length+f.reasonPhrase.length))) := by
    apply (codes_value errorCode).cons
    apply (codes_if f.isTransport frameType absent).cons
    apply (codes_value length).cons
    apply Codes.last
    exact (codes_borrowed f.reasonPhrase).final rfl
  unfold encodeConnectionClose
  cases transport : f.isTransport with
  | true =>
    rw [transport] at fields
    apply Codes.of_length
    · exact codes_short (t := 0x1c) (by decide) rfl fields
    · simp only [encodedLen,transport,Nat.add_assoc]
  | false =>
    rw [transport] at fields
    apply Codes.of_length
    · exact codes_short (t := 0x1d) (by decide) rfl fields
    · simp only [encodedLen,transport,Nat.add_assoc]

theorem codes_newConnectionId {f : NewConnectionId} (wf : WellFormed (.newConnectionId f)) :
    Codes Error.bufferTooSmall Anything (encodeNewConnectionId f) decodeTyped (.newConnectionId f)
      (encodedLen (.newConnectionId f)) := by
  obtain ⟨sequenceNumber,retirePriorTo⟩ := wf
  apply Codes.of_length
  · apply codes_short (t := 0x18) (by decide) rfl
    apply (codes_value sequenceNumber).cons
    apply (codes_value retirePriorTo).cons
    apply Codes.last
    exact (codes_cidAndResetToken f.connectionId f.statelessResetToken).final rfl
  · simp only [encodedLen,Nat.add_assoc]

theorem codes_pathNewConnectionId {f : PathNewConnectionId} (wf : WellFormed (.pathNewConnectionId f)) :
    Codes Error.bufferTooSmall Anything (encodePathNewConnectionId f) decodeTyped (.pathNewConnectionId f)
      (encodedLen (.pathNewConnectionId f)) := by
  obtain ⟨pathId,sequenceNumber,retirePriorTo⟩ := wf
  apply Codes.of_length
  · apply codes_long (t := frameTypePathNewConnectionId) (by decide) rfl
    apply (codes_pathId pathId).cons
    apply (codes_value sequenceNumber).cons
    apply (codes_value retirePriorTo).cons
    apply Codes.last
    exact (codes_cidAndResetToken f.connectionId f.statelessResetToken).final rfl
  · simp only [encodedLen,Nat.add_assoc]

theorem codes_fixed8 {t : Nat} {next : Fixed 8 → QuicZig.Frame} (data : Fixed 8) (small : t < 64)
    (known : decodeBody t = do let data ← Parser.fixed .insufficientBytes 8; pure (next data)) :
    Codes Error.bufferTooSmall Anything (encodeFixed8 (UInt8.ofNat t) data) decodeTyped (next data) (1+8) := by
  refine ⟨UInt8.ofNat t::data.bytes,emits_put _ _,?_,by rw [List.length_cons,data.exact]⟩
  apply (spells_short small).reads.bind
  rw [known]
  intro rest _
  rw [bind_ok (reads_fixed _ data rest trivial)]
  rfl

theorem codes_alternative {t size : Nat} {next : AlternativeAddress size → QuicZig.Frame} {f : AlternativeAddress size}
    (type : Fits t) (known : decodeBody t = do let r ← decodeAltAddress size; pure (next r))
    (fits : Fits f.statusSequenceNumber) (port : f.port < 2^16) :
    Codes Error.bufferTooSmall Anything (encodeAltAddress t f) decodeTyped (next f) (encodedAltAddressLen t f) := by
  apply Codes.of_length
  · apply codes_long type known
    exact (codes_altAddress f fits port).final rfl
  · simp only [encodedAltAddressLen,Nat.add_assoc]

theorem codes_frame (f : QuicZig.Frame) (wf : WellFormed f) (typed : ∀ p, f ≠ .padding p) :
    Codes Error.bufferTooSmall (Follows f) (encode f) decodeTyped f (encodedLen f) := by
  cases f with
  | padding p => exact absurd rfl (typed p)
  | ping => exact codes_typeAlone (codes_typeOnly 0x01 (by decide)) rfl
  | ack f => exact codes_ack wf
  | resetStream f => exact codes_resetStream wf
  | stopSending f => exact codes_pair (t := 0x05) (by decide) rfl wf.1 wf.2
  | crypto f => exact codes_crypto wf
  | newToken f => exact codes_newToken wf
  | stream f => exact codes_stream wf
  | maxData f => exact codes_single (t := 0x10) (by decide) rfl wf
  | maxStreamData f => exact codes_pair (t := 0x11) (by decide) rfl wf.1 wf.2
  | maxStreams f =>
    obtain ⟨bidi,maximumStreams⟩ := f
    cases bidi with
    | true => exact codes_single (t := 0x12) (by decide) rfl wf
    | false => exact codes_single (t := 0x13) (by decide) rfl wf
  | dataBlocked f => exact codes_single (t := 0x14) (by decide) rfl wf
  | streamDataBlocked f => exact codes_pair (t := 0x15) (by decide) rfl wf.1 wf.2
  | streamsBlocked f =>
    obtain ⟨bidi,maximumStreams⟩ := f
    cases bidi with
    | true => exact codes_single (t := 0x16) (by decide) rfl wf
    | false => exact codes_single (t := 0x17) (by decide) rfl wf
  | newConnectionId f => exact codes_newConnectionId wf
  | retireConnectionId f => exact codes_single (t := 0x19) (by decide) rfl wf
  | pathChallenge f => exact codes_fixed8 (t := 0x1a) f.data (by decide) rfl
  | pathResponse f => exact codes_fixed8 (t := 0x1b) f.data (by decide) rfl
  | connectionClose f => exact codes_connectionClose wf
  | handshakeDone => exact codes_typeAlone (codes_typeOnly 0x1e (by decide)) rfl
  | datagram f => exact codes_datagram wf
  | pathAck f => exact codes_pathAck wf
  | pathAbandon f => exact codes_pathPair (t := frameTypePathAbandon) (by decide) rfl wf.1 wf.2
  | pathStatusBackup f => exact codes_pathPair (t := frameTypePathStatusBackup) (by decide) rfl wf.1 wf.2
  | pathStatusAvailable f => exact codes_pathPair (t := frameTypePathStatusAvailable) (by decide) rfl wf.1 wf.2
  | pathNewConnectionId f => exact codes_pathNewConnectionId wf
  | pathRetireConnectionId f => exact codes_pathPair (t := frameTypePathRetireConnectionId) (by decide) rfl wf.1 wf.2
  | maxPathId f => exact codes_path (t := frameTypeMaxPathId) (by decide) rfl wf
  | pathsBlocked f => exact codes_path (t := frameTypePathsBlocked) (by decide) rfl wf
  | pathCidsBlocked f => exact codes_pathPair (t := frameTypePathCidsBlocked) (by decide) rfl wf.1 wf.2
  | alternativeV4Address f => exact codes_alternative (t := frameTypeAlternativeV4Address) (by decide) rfl wf.1 wf.2
  | alternativeV6Address f => exact codes_alternative (t := frameTypeAlternativeV6Address) (by decide) rfl wf.1 wf.2
  | ackFrequency f => exact codes_ackFrequency wf
  | immediateAck => exact codes_typeAlone (codes_frameType frameTypeImmediateAck (by decide)) rfl

end QuicZig.Frame
