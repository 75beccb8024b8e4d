import QuicZig.Frame.Decode
import QuicZig.Wire.HeaderRoundTrip

/-! The parts that several frames share, written and read back. -/
namespace QuicZig.Frame
open Machine BigEndian Codec Wire

abbrev Fits (value : Nat) : Prop := value ≤ Varint.maxValue

abbrev FitsPathId (pathId : Nat) : Prop := pathId ≤ maxU32

theorem FitsPathId.fits {pathId : Nat} (small : FitsPathId pathId) : Fits pathId :=
  Nat.le_trans small (by decide)

theorem spells_short {t : Nat} (small : t < 64) : Varint.Spells [UInt8.ofNat t] t := by
  refine ⟨0,by simpa using small,?_⟩
  simp [bigEndian,Varint.tagFirst]

theorem codes_typeOnly (t : Nat) (small : t < 64) :
    Codes Error.bufferTooSmall Anything (writeTypeOnly (UInt8.ofNat t)) Varint.read t 1 :=
  ⟨[UInt8.ofNat t],emits_put _ _,(spells_short small).reads,rfl⟩

theorem codes_frameType (t : Nat) (small : Fits t) :
    Codes Error.bufferTooSmall Anything (writeFrameType t) Varint.read t (Varint.encodedLen t) :=
  Varint.codes t small

theorem codes_value {value : Nat} (fits : Fits value) :
    Codes Error.bufferTooSmall Anything (Varint.encode value) Varint.read value (Varint.encodedLen value) :=
  Varint.codes value fits

theorem uses_value : Uses Varint.read 0 Fits Varint.encodedLen := by
  apply Varint.accepts_read.weaken
  intro value used spells
  rw [Nat.zero_add]
  exact spells.bounds

theorem codes_pathId {pathId : Nat} (small : FitsPathId pathId) :
    Codes Error.bufferTooSmall Anything (Varint.encode pathId) decodePathId pathId (Varint.encodedLen pathId) := by
  apply (codes_value small.fits).final
  rw [if_neg (Nat.not_lt.mpr small)]

theorem uses_pathId : Uses decodePathId 0 FitsPathId Varint.encodedLen := by
  apply uses_value.bind
  intro d fits
  split
  · exact uses_fail _ _ _ _
  · rename_i small
    exact Uses.pure (Nat.not_lt.mp small) (Nat.le_add_left _ _)

theorem codes_if (present : Bool) {value : Nat} (fits : Fits value) (absent : present = false → value = 0) :
    Codes Error.bufferTooSmall Anything (if present then Varint.encode value else .all []) (readIf present) value
      (if present then Varint.encodedLen value else 0) := by
  cases present with
  | true => exact codes_value fits
  | false =>
    rw [absent rfl]
    exact Codes.nil _ _ _

theorem uses_if (present : Bool) : Uses (readIf present) 0 (fun value => Fits value ∧ (present = false → value = 0))
    (fun value => if present then Varint.encodedLen value else 0) := by
  cases present with
  | true =>
    apply uses_value.weaken
    intro value used here
    exact ⟨⟨here.1,nofun⟩,here.2⟩
  | false => exact Uses.pure ⟨Nat.zero_le _,fun _ => rfl⟩ (Nat.le_refl _)

theorem codes_borrowed (data : List Byte) :
    Codes Error.bufferTooSmall Anything (writeBytes data) (readBorrowed data.length) data data.length :=
  codes_bytes _ _ data

theorem uses_borrowed (len : Nat) : Uses (readBorrowed len) 0 (·.length = len) List.length := uses_take _ len

def EndsPayload (hasLength : Bool) (rest : List Byte) : Prop := hasLength = false → rest = []

theorem codes_data (hasLength : Bool) (data : List Byte) (fits : hasLength = true → Fits data.length) :
    Codes Error.bufferTooSmall (EndsPayload hasLength)
      (.all [if hasLength then Varint.encode data.length else .all [],writeBytes data]) (readData hasLength) data
      ((if hasLength then Varint.encodedLen data.length else 0)+data.length) := by
  cases hasLength with
  | true => exact ((codes_value (fits rfl)).cons (codes_borrowed data).last).weaken (fun _ _ => trivial)
  | false =>
    have rest := (codes_rest (ε := Error) Error.bufferTooSmall data).last
    have all : Codes Error.bufferTooSmall (· = []) (.all [.all [],writeBytes data])
        ((pure () : Parser Error Unit) >>= fun _ => Parser.takeRest) data (0+data.length) :=
      (Codes.nil Error.bufferTooSmall Anything ()).cons rest
    exact all.weaken (fun _ after => after rfl)

theorem uses_data (hasLength : Bool) : Uses (readData hasLength) 0 (fun data => hasLength = true → Fits data.length)
    (fun data => (if hasLength then Varint.encodedLen data.length else 0)+data.length) := by
  cases hasLength with
  | true =>
    apply uses_value.bind
    intro len fits
    apply (uses_borrowed len).weaken
    intro data used here
    obtain ⟨rfl,length⟩ := here
    exact ⟨fun _ => fits,by simp only [if_pos]; omega⟩
  | false =>
    apply uses_takeRest.weaken
    intro data used here
    exact ⟨nofun,by simpa using here.2⟩

theorem codes_cidAndResetToken (cid : ConnId) (token : Fixed 16) :
    Codes Error.bufferTooSmall Anything (writeCidAndResetToken cid token) readCidAndResetToken
      {cid := cid,token := token} (cidAndResetTokenLen cid) := by
  have short := cid.short
  unfold maxCidLen at short
  have length : (UInt8.ofNat cid.len).toNat = cid.bytes.length := by
    rw [UInt8.toNat_ofNat',ConnId.len]
    omega
  have fields : Codes Error.bufferTooSmall Anything (writeCidAndResetToken cid token) readCidAndResetToken
      {cid := cid,token := token} (1+(cid.bytes.length+16)) := by
    apply (codes_byte _ _ _).cons
    rw [length,if_neg (by unfold maxCidLen; omega)]
    apply (codes_borrowed cid.bytes).cons
    rw [Header.fromSlice_bytes,bind_lift]
    apply Codes.last
    exact (codes_fixed _ _ token).final rfl
  exact fields.of_length (Nat.add_assoc _ _ _).symm

theorem uses_cidAndResetToken :
    Uses readCidAndResetToken 0 (fun _ => True) (fun tail => cidAndResetTokenLen tail.cid) := by
  apply (uses_byte _).bind
  intro cidLen _
  split
  · exact uses_fail _ _ _ _
  · apply (uses_take _ _).bind
    intro slice length
    apply (uses_lift _).bind
    intro cid made
    apply (uses_fixed _ 16).bind
    intro token _
    apply Uses.pure trivial
    unfold cidAndResetTokenLen ConnId.len
    rw [Header.fromSlice_inv made]

theorem altAddressFlags_bits (preferred retire : Bool) :
    decide (altAddressFlags preferred retire &&& (0b10000000 : Byte) ≠ 0) = preferred ∧
      decide (altAddressFlags preferred retire &&& (0b01000000 : Byte) ≠ 0) = retire := by
  revert preferred retire
  decide

theorem codes_altAddress {size : Nat} (f : AlternativeAddress size) (fits : Fits f.statusSequenceNumber)
    (port : f.port < 2^16) :
    Codes Error.bufferTooSmall Anything
      (.all [.put .bufferTooSmall [altAddressFlags f.preferred f.retire],Varint.encode f.statusSequenceNumber,
        writeBytes f.address.bytes,.put .bufferTooSmall (bigEndian 2 f.port)])
      (decodeAltAddress size) f (1+(Varint.encodedLen f.statusSequenceNumber+(size+2))) := by
  obtain ⟨preferred,retire⟩ := altAddressFlags_bits f.preferred f.retire
  have number : ofBigEndian 0 (bigEndian 2 f.port) = f.port := by
    rw [ofBigEndian_bigEndian]
    omega
  apply (codes_byte _ _ _).cons
  apply (codes_value fits).cons
  apply (codes_fixed _ _ f.address).cons
  apply Codes.last
  apply Codes.final (a := bigEndian 2 f.port)
  · exact ⟨_,emits_put _ _,reads_take _ (length_bigEndian 2 f.port),length_bigEndian 2 f.port⟩
  · rw [preferred,retire,number]

theorem uses_altAddress (size : Nat) :
    Uses (decodeAltAddress size) 0 (fun f => Fits f.statusSequenceNumber ∧ f.port < 2^16)
      (fun f => 1+Varint.encodedLen f.statusSequenceNumber+size+2) := by
  apply (uses_byte _).bind
  intro flags _
  apply uses_value.bind
  intro seq fits
  apply (uses_fixed _ size).bind
  intro address _
  apply (uses_take _ 2).bind
  intro port length
  have bound := ofBigEndian_lt port
  rw [length] at bound
  apply Uses.pure
  · exact ⟨fits,bound⟩
  · dsimp only
    omega

theorem reads_pairs {pairs : List AckRange} {bytes : List Byte} (spells : SpellsPairs pairs bytes) :
    Reads Anything (readPairs pairs.length) bytes () := by
  induction spells with
  | nil => exact Reads.pure () _
  | cons spellsGap spellsLength _ ih => exact spellsGap.reads.bind (spellsLength.reads.bind ih)

theorem accepts_pairs (count : Nat) :
    Accepts (readPairs count) (fun _ used => ∃ pairs : List AckRange, pairs.length = count ∧ SpellsPairs pairs used) := by
  induction count with
  | zero => exact Accepts.pure ⟨[],rfl,.nil⟩
  | succ count ih =>
    apply Varint.accepts_read.bind
    intro gap gapBytes spellsGap
    apply Varint.accepts_read.bind
    intro length lengthBytes spellsLength
    apply ih.weaken
    intro _ used here
    obtain ⟨pairs,many,spells⟩ := here
    refine ⟨{gap := gap,length := length}::pairs,by rw [List.length_cons,many],?_⟩
    exact .cons spellsGap spellsLength spells

theorem validateLoop_spells {pairs : List AckRange} {bytes : List Byte} (spells : SpellsPairs pairs bytes) (cursor : Nat) :
    validateLoop pairs.length cursor bytes =
      if Descends cursor pairs then .ok ((),[]) else .error .overlappingAckRanges := by
  induction spells generalizing cursor with
  | nil => rfl
  | @cons r pairs gap length bytes spellsGap spellsLength spells ih =>
    rw [List.length_cons,validateLoop,bind_ok (spellsGap.reads _ trivial),bind_ok (spellsLength.reads _ trivial)]
    unfold Descends
    by_cases above : r.gap+2+r.length ≤ cursor
    · rw [if_neg (by omega),if_neg (by omega),ih]
      have lower : cursor-r.gap-2-r.length = cursor-(r.gap+2+r.length) := by omega
      simp only [lower,above,true_and]
    · simp only [above,false_and,if_false]
      split
      · rfl
      · rw [if_pos (by omega)]
        rfl

structure ValidRanges (largestAcked firstRange rangeCount : Nat) (rangesBytes : List Byte) : Prop where
  first : firstRange ≤ largestAcked
  pairs : ∃ pairs, pairs.length = rangeCount ∧ SpellsPairs pairs rangesBytes ∧ Descends (largestAcked-firstRange) pairs

theorem validateAckRanges_spells {pairs : List AckRange} {bytes : List Byte} (spells : SpellsPairs pairs bytes)
    (largestAcked firstRange : Nat) : validateAckRanges largestAcked firstRange pairs.length bytes = .ok () ↔
      firstRange ≤ largestAcked ∧ Descends (largestAcked-firstRange) pairs := by
  unfold validateAckRanges Parser.run
  rw [validateLoop_spells spells]
  grind

theorem ValidRanges.accepted {largestAcked firstRange rangeCount : Nat} {rangesBytes : List Byte}
    (valid : ValidRanges largestAcked firstRange rangeCount rangesBytes) :
    validateAckRanges largestAcked firstRange rangeCount rangesBytes = .ok () := by
  obtain ⟨first,pairs,rfl,spells,down⟩ := valid
  exact (validateAckRanges_spells spells largestAcked firstRange).mpr ⟨first,down⟩

def FitsEcn (ecn : Option EcnCounts) : Prop := ∀ e ∈ ecn, Fits e.ect0 ∧ Fits e.ect1 ∧ Fits e.ecnCe

theorem codes_ecn {ecn : Option EcnCounts} (fits : FitsEcn ecn) :
    Codes Error.bufferTooSmall Anything (encodeEcn ecn) (readEcn ecn.isSome) ecn (ecnLen ecn) := by
  cases ecn with
  | none => exact Codes.nil _ _ _
  | some e =>
    obtain ⟨ect0,ect1,ecnCe⟩ := fits e rfl
    apply Codes.of_length
    · apply (codes_value ect0).cons
      apply (codes_value ect1).cons
      apply Codes.last
      exact (codes_value ecnCe).final rfl
    · exact (Nat.add_assoc _ _ _).symm

theorem uses_ecn (withEcn : Bool) : Uses (readEcn withEcn) 0 (fun ecn => FitsEcn ecn ∧ ecn.isSome = withEcn) ecnLen := by
  cases withEcn with
  | true =>
    apply uses_value.bind
    intro ect0 fits0
    apply uses_value.bind
    intro ect1 fits1
    apply uses_value.bind
    intro ce fitsCe
    apply Uses.pure
    · refine ⟨?_,rfl⟩
      intro e here
      cases here
      exact ⟨fits0,fits1,fitsCe⟩
    · unfold ecnLen
      dsimp only
      omega
  | false => exact Uses.pure ⟨nofun,rfl⟩ (Nat.le_refl _)

/-- What a decoder accepts as the body of an acknowledgement. -/
structure ValidAck (largestAcked ackDelay firstRange rangeCount : Nat) (rangesBytes : List Byte)
    (ecn : Option EcnCounts) : Prop where
  largest : Fits largestAcked
  delay : Fits ackDelay
  count : rangeCount ≤ maxIncomingAckRanges
  ranges : ValidRanges largestAcked firstRange rangeCount rangesBytes
  ecn : FitsEcn ecn

theorem codes_ackBody {largestAcked ackDelay firstRange rangeCount : Nat} {rangesBytes : List Byte}
    {ecn : Option EcnCounts} (valid : ValidAck largestAcked ackDelay firstRange rangeCount rangesBytes ecn) :
    Codes Error.bufferTooSmall Anything (encodeAckBody largestAcked ackDelay rangeCount firstRange rangesBytes ecn)
      (decodeAckBody ecn.isSome) {
        largestAcked := largestAcked
        ackDelay := ackDelay
        firstRange := firstRange
        rangeCount := rangeCount
        rangesBytes := rangesBytes
        ecnCounts := ecn
      } (ackBodyLen largestAcked ackDelay rangeCount firstRange rangesBytes ecn) := by
  obtain ⟨largest,delay,count,ranges,fitsEcn⟩ := valid
  have accepted := ranges.accepted
  obtain ⟨pairs,many,spells,down⟩ := ranges.pairs
  have fitsCount : Fits rangeCount := Nat.le_trans count (by decide)
  have fitsFirst : Fits firstRange := Nat.le_trans ranges.first largest
  have raw : Codes Error.bufferTooSmall Anything (writeBytes rangesBytes) (readPairs rangeCount).raw rangesBytes
      rangesBytes.length := ⟨rangesBytes,emits_put _ _,(many ▸ reads_pairs spells).raw,rfl⟩
  apply Codes.of_length
  · apply (codes_value largest).cons
    apply (codes_value delay).cons
    apply (codes_value fitsCount).cons
    rw [if_neg (Nat.not_lt.mpr count)]
    apply (codes_value fitsFirst).cons
    apply raw.cons
    rw [accepted,bind_lift]
    apply Codes.last
    exact (codes_ecn fitsEcn).final rfl
  · unfold ackBodyLen
    omega

theorem uses_ackBody (withEcn : Bool) :
    Uses (decodeAckBody withEcn) 0
      (fun b => ValidAck b.largestAcked b.ackDelay b.firstRange b.rangeCount b.rangesBytes b.ecnCounts ∧
        b.ecnCounts.isSome = withEcn)
      (fun b => ackBodyLen b.largestAcked b.ackDelay b.rangeCount b.firstRange b.rangesBytes b.ecnCounts) := by
  apply uses_value.bind
  intro largest fitsLargest
  apply uses_value.bind
  intro delay fitsDelay
  apply uses_value.bind
  intro count _
  split
  · exact uses_fail _ _ _ _
  · rename_i few
    apply uses_value.bind
    intro first _
    have raw : Uses (readPairs count).raw 0 (fun bytes => ∃ pairs : List AckRange, pairs.length = count ∧
        SpellsPairs pairs bytes) List.length := by
      apply (accepts_pairs count).raw.weaken
      intro bytes used here
      obtain ⟨rfl,_,pairs⟩ := here
      exact ⟨pairs,by omega⟩
    apply raw.bind
    intro bytes spelled
    obtain ⟨pairs,rfl,spells⟩ := spelled
    apply (uses_lift _).bind
    intro _ accepted
    obtain ⟨inside,down⟩ := (validateAckRanges_spells spells largest first).mp accepted
    apply (uses_ecn withEcn).bind
    intro ecn fitsEcn
    apply Uses.pure
    · exact ⟨⟨fitsLargest,fitsDelay,Nat.not_lt.mp few,⟨inside,pairs,rfl,spells,down⟩,fitsEcn.1⟩,fitsEcn.2⟩
    · unfold ackBodyLen
      dsimp only
      omega

end QuicZig.Frame
