import QuicZig.Wire.HeaderRoundTrip
import QuicZig.Wire.Protection

/-! Header protection on a packet as a whole: where the sample comes from, which bytes the
mask changes, and what sealing behind a header writes. -/
namespace QuicZig.Wire.Protection
open Machine BigEndian Codec Keystream Header

theorem toNat_key {bits k : Nat} (few : bits ≤ 7) (small : k < 2^bits) : (UInt8.ofNat k).toNat = k ∧ k < 2^7 := by
  have least : 2^bits ≤ 2^7 := Nat.pow_le_pow_right (by decide) few
  exact ⟨UInt8.toNat_ofNat_of_lt' (show k < 2^8 by omega),by omega⟩

theorem low_ofNat (b : Byte) {bits : Nat} (few : bits ≤ 7) : b &&& UInt8.ofNat (2^bits-1) = UInt8.ofNat (b.toNat%2^bits) := by
  have some := Nat.two_pow_pos bits
  apply UInt8.toNat_inj.mp
  rw [UInt8.toNat_and,(toNat_key few (by omega)).1,(toNat_key few (Nat.mod_lt _ some)).1,Nat.and_two_pow_sub_one_eq_mod]

theorem masked_high (b : Byte) {bits k : Nat} (few : bits ≤ 7) (small : k < 2^bits) :
    (b ^^^ UInt8.ofNat k).toNat >>> bits = b.toNat >>> bits := by
  rw [UInt8.toNat_xor,(toNat_key few small).1,Nat.shiftRight_xor_distrib,Nat.shiftRight_eq_div_pow k,Nat.div_eq_of_lt small,
    Nat.xor_zero]

theorem masked_form (b : Byte) {bits k : Nat} (few : bits ≤ 7) (small : k < 2^bits) :
    (b ^^^ UInt8.ofNat k) &&& (0x80 : Byte) = b &&& (0x80 : Byte) := by
  obtain ⟨same,low⟩ := toNat_key few small
  have none : k &&& 2^7 = 0 := by rw [Nat.and_two_pow,Nat.testBit_lt_two_pow low,Bool.toNat_false,Nat.zero_mul]
  apply UInt8.toNat_inj.mp
  rw [UInt8.toNat_and,UInt8.toNat_and,UInt8.toNat_xor,same,show (0x80 : Byte).toNat = 2^7 from rfl,Nat.and_xor_distrib_right,
    none,Nat.xor_zero]

theorem firstKey_long (mask : Fixed 5) : ∃ k : Fin 16, firstKey .long mask = [UInt8.ofNat k] := by
  obtain ⟨bytes,size⟩ := mask
  cases bytes with
  | nil => cases size
  | cons b rest =>
    have low : b &&& (0x0f : Byte) = UInt8.ofNat (b.toNat%16) := low_ofNat b (show 4 ≤ 7 by decide)
    exact ⟨⟨b.toNat%16,Nat.mod_lt _ (by decide)⟩,by simp [firstKey,HeaderForm.firstByteMask,low]⟩

theorem firstKey_short (mask : Fixed 5) : ∃ k : Fin 32, firstKey .short mask = [UInt8.ofNat k] := by
  obtain ⟨bytes,size⟩ := mask
  cases bytes with
  | nil => cases size
  | cons b rest =>
    have low : b &&& (0x1f : Byte) = UInt8.ofNat (b.toNat%32) := low_ofNat b (show 5 ≤ 7 by decide)
    exact ⟨⟨b.toNat%32,Nat.mod_lt _ (by decide)⟩,by simp [firstKey,HeaderForm.firstByteMask,low]⟩

theorem masked_long (b : Byte) (k : Fin 16) : bitsAt 4 (b ^^^ UInt8.ofNat k) 4 = bitsAt 4 b 4 ∧
    (b ^^^ UInt8.ofNat k) &&& (0x80 : Byte) = b &&& (0x80 : Byte) := by
  refine ⟨?_,masked_form b (show 4 ≤ 7 by decide) k.isLt⟩
  unfold bitsAt
  rw [masked_high b (by decide) k.isLt]

theorem masked_short (b : Byte) (k : Fin 32) : (b ^^^ UInt8.ofNat k) &&& (0x80 : Byte) = b &&& (0x80 : Byte) :=
  masked_form b (show 5 ≤ 7 by decide) k.isLt

@[simp] theorem length_pnKey (mask : Fixed 5) {pnLength : Nat} (short : pnLength ≤ 4) : (pnKey mask pnLength).length = pnLength := by
  rw [pnKey,List.length_take,List.length_drop,mask.exact]
  omega

theorem sampleAt_behind {before : List Byte} {pnOffset : Nat} (here : before.length = pnOffset) (s : List Byte) :
    sampleAt (before++s) pnOffset = sampleAt s 0 := by
  have dropped : (before++s).drop (pnOffset+4) = s.drop 4 := by
    rw [← List.drop_drop,List.drop_left' here]
  unfold sampleAt
  simp only [dropped,Nat.zero_add]

theorem sampleAt_number {first second s : List Byte} (same : first.length = second.length) (short : second.length ≤ 4) :
    sampleAt (first++s) 0 = sampleAt (second++s) 0 := by
  have dropped : (first++s).drop 4 = (second++s).drop 4 := by
    rw [List.drop_append,List.drop_append,List.drop_of_length_le (by omega),List.drop_of_length_le short,same]
  unfold sampleAt
  simp only [dropped,Nat.zero_add]

theorem sampleAt_more {s rest : List Byte} {sample : Fixed 16} (taken : sampleAt s 0 = .ok sample) :
    sampleAt (s++rest) 0 = .ok sample := by
  unfold sampleAt at taken ⊢
  simp only [Nat.zero_add] at taken ⊢
  split at taken
  · rename_i long
    cases taken
    have inside : 4 ≤ s.length := by
      rw [List.length_drop] at long
      unfold sampleLen at long
      omega
    have dropped : (s++rest).drop 4 = s.drop 4++rest := List.drop_append_of_le_length inside
    have same : ((s++rest).drop 4).take sampleLen = (s.drop 4).take sampleLen := by
      rw [dropped,List.take_append_of_le_length long]
    rw [dif_pos (by rw [dropped,List.length_append]; exact Nat.le_add_right_of_le long)]
    simp only [same]
  · cases taken

def ciphertext (keys : PacketKeys) (multipathPathId : Option Nat) (pn : Nat) (header plain : List Byte) : List Byte :=
  keys.aead.sealing (nonceFor keys.iv multipathPathId pn) header plain

theorem length_ciphertext (keys : PacketKeys) (multipathPathId : Option Nat) (pn : Nat) (header plain : List Byte) :
    (ciphertext keys multipathPathId pn header plain).length = plain.length+16 := keys.aead.tagged _ _ _

/-- A packet behind its header protection: the first byte, the fields up to the packet number, the packet number. -/
def protectedBytes (form : HeaderForm) (mask : Fixed 5) (first : Byte) (fields number rest : List Byte) : List Byte :=
  Keystream.mask (fun a b : Byte => a ^^^ b) (firstKey form mask) [first]++(fields++
    (Keystream.mask (fun a b : Byte => a ^^^ b) (pnKey mask number.length) number++rest))

theorem length_protectedBytes (form : HeaderForm) (mask : Fixed 5) (first : Byte) (fields number rest : List Byte) :
    (protectedBytes form mask first fields number rest).length = 1+fields.length+number.length+rest.length := by
  simp only [protectedBytes,List.length_append,length_mask,List.length_singleton]
  omega

theorem length_firstKey (form : HeaderForm) (mask : Fixed 5) : (firstKey form mask).length = 1 := by
  rw [firstKey,List.length_map,List.length_take,mask.exact]
  rfl

theorem xorAt_both (form : HeaderForm) (mask : Fixed 5) (first : Byte) {fields number : List Byte} (rest : List Byte)
    {pnOffset : Nat} (here : 1+fields.length = pnOffset) (short : number.length ≤ 4) :
    xorAt pnOffset (pnKey mask number.length) (xorAt 0 (firstKey form mask) (first::(fields++(number++rest)))) =
      protectedBytes form mask first fields number rest := by
  have one : (firstKey form mask).length ≤ [first].length := by rw [length_firstKey]; rfl
  have atFirst := maskAt_append (f := fun a b : Byte => a ^^^ b) (show ([] : List Byte).length = 0 from rfl) one
    (fields++(number++rest))
  have before : (Keystream.mask (fun a b : Byte => a ^^^ b) (firstKey form mask) [first]++fields).length = pnOffset := by
    rw [List.length_append,length_mask]
    exact here
  have atNumber := maskAt_append (f := fun a b : Byte => a ^^^ b) before (length_pnKey mask short).le rest
  unfold xorAt protectedBytes
  rw [List.nil_append,List.nil_append] at atFirst
  change maskAt _ pnOffset _ (maskAt _ 0 _ ([first]++(fields++(number++rest)))) = _
  rw [atFirst,← List.append_assoc _ fields,atNumber,List.append_assoc]

theorem sealBehind_ok (form : HeaderForm) (keys : PacketKeys) (multipathPathId : Option Nat) (pn : Nat) (first : Byte)
    (fields : List Byte) {number plain : List Byte} {room : Nat} (some : 1 ≤ number.length) (short : number.length ≤ 4)
    (sampled : 4 ≤ number.length+plain.length) (fits : 1+fields.length+number.length+plain.length+16 ≤ room) :
    ∃ sample, sampleAt (number++ciphertext keys multipathPathId pn (first::(fields++number)) plain) 0 = .ok sample ∧
      sealBehind form keys multipathPathId pn (first::(fields++number)) number.length plain room =
        .ok (protectedBytes form (keys.headerProtectionMask sample) first fields number
          (ciphertext keys multipathPathId pn (first::(fields++number)) plain)) := by
  have size := length_ciphertext keys multipathPathId pn (first::(fields++number)) plain
  have header : (first::(fields++number)).length = 1+fields.length+number.length := by
    rw [List.length_cons,List.length_append]
    omega
  obtain ⟨sample,taken⟩ : ∃ sample,
      sampleAt (number++ciphertext keys multipathPathId pn (first::(fields++number)) plain) 0 = .ok sample := by
    unfold sampleAt
    rw [dif_pos (by rw [List.length_drop,List.length_append,size]; unfold sampleLen; omega)]
    exact ⟨_,rfl⟩
  refine ⟨sample,taken,?_⟩
  unfold sealBehind sealPayloadWithKeys
  rw [if_neg (by rw [header]; omega)]
  dsimp only
  have offset : (first::(fields++number)).length-number.length = 1+fields.length := by omega
  have packet : first::(fields++number)++ciphertext keys multipathPathId pn (first::(fields++number)) plain =
      (first::fields)++(number++ciphertext keys multipathPathId pn (first::(fields++number)) plain) := by simp
  rw [show keys.aead.sealing (nonceFor keys.iv multipathPathId pn) (first::(fields++number)) plain =
    ciphertext keys multipathPathId pn (first::(fields++number)) plain from rfl]
  rw [offset,packet,sampleAt_behind (by rw [List.length_cons]; omega),taken]
  dsimp only
  unfold applyHpMask
  rw [if_neg (by omega),if_neg (by simp only [List.length_append,List.length_cons]; omega)]
  refine congrArg Except.ok (Eq.trans ?_ (xorAt_both form _ first _ rfl short))
  exact congrArg (fun p => xorAt _ _ (xorAt 0 _ p)) List.cons_append

theorem unmask_first (form : HeaderForm) (mask : Fixed 5) (first : Byte) (fields number rest : List Byte) :
    xorAt 0 (firstKey form mask) (protectedBytes form mask first fields number rest) =
      first::(fields++(Keystream.mask (fun a b : Byte => a ^^^ b) (pnKey mask number.length) number++rest)) := by
  unfold xorAt protectedBytes
  have one : (firstKey form mask).length ≤ (Keystream.mask (fun a b : Byte => a ^^^ b) (firstKey form mask) [first]).length := by
    rw [length_mask,length_firstKey]
    exact Nat.le_refl _
  have masked := maskAt_append (f := fun a b : Byte => a ^^^ b) (show ([] : List Byte).length = 0 from rfl) one
    (fields++(Keystream.mask (fun a b : Byte => a ^^^ b) (pnKey mask number.length) number++rest))
  rw [List.nil_append,List.nil_append,mask_mask xor_xor] at masked
  exact masked

theorem unmask_number (mask : Fixed 5) (first : Byte) {fields number : List Byte} (rest : List Byte) {pnOffset : Nat}
    (here : 1+fields.length = pnOffset) (short : number.length ≤ 4) :
    xorAt pnOffset (pnKey mask number.length)
      (first::(fields++(Keystream.mask (fun a b : Byte => a ^^^ b) (pnKey mask number.length) number++rest))) =
        first::(fields++(number++rest)) := by
  have before : (first::fields).length = pnOffset := by rw [List.length_cons]; omega
  have long : (pnKey mask number.length).length ≤
      (Keystream.mask (fun a b : Byte => a ^^^ b) (pnKey mask number.length) number).length := by
    rw [length_mask,length_pnKey mask short]
  have masked := maskAt_append (f := fun a b : Byte => a ^^^ b) before long rest
  rw [mask_mask xor_xor] at masked
  exact masked

theorem readTruncated_number (pn : Nat) (n : PnLength) (rest : List Byte) :
    PacketNumber.readTruncated (bigEndian n.bytes (PacketNumber.truncate pn n.bytes)++rest) n.bytes =
      .ok (PacketNumber.truncate pn n.bytes) := by
  obtain ⟨least,most⟩ := pnLength_bounds n
  have size := length_bigEndian n.bytes (PacketNumber.truncate pn n.bytes)
  have fits : PacketNumber.truncate pn n.bytes < 256^n.bytes := by
    rw [PacketNumber.truncate_mod pn n.bytes most,Nat.pow_mul]
    exact Nat.mod_lt _ (Nat.pow_pos (by decide))
  unfold PacketNumber.readTruncated
  rw [if_neg (by omega),if_neg (by rw [List.length_append,size]; omega),List.take_left' size,ofBigEndian_bigEndian,
    Nat.mod_eq_of_lt fits,Nat.zero_mul,Nat.zero_add]

/-- The receiver has seen numbers close enough to `pn`: half of what `length` bytes can tell apart. -/
def InWindow (pn length largestReceived : Nat) : Prop :=
  2*pn ≤ 2*(largestReceived+1)+2^(8*length) ∧ 2*(largestReceived+1) < 2*pn+2^(8*length)

theorem decode_window {pn length largestReceived : Nat} (least : 1 ≤ length) (most : length ≤ 4) (small : pn < 2^62)
    (near : InWindow pn length largestReceived) :
    PacketNumber.decode (PacketNumber.truncate pn length) length largestReceived = .ok (some pn) := by
  obtain ⟨found,decoded,nearest⟩ := PacketNumber.decode_nearest (PacketNumber.truncate pn length) length largestReceived
    least most
  have here : Nearest.IsNearest (2^(8*length)) (2^62) (PacketNumber.truncate pn length) (largestReceived+1) pn := by
    refine Nearest.isNearest_of_window small ?_ (.inl near.1) (.inl near.2)
    rw [PacketNumber.truncate_mod pn length most,Nat.mod_mod]
  rw [decoded,nearest.unique here]

theorem low_bits (b : Byte) (n : PnLength) (here : bitsAt 4 b 0 = n.toTwoBits) : (b &&& (0x03 : Byte)).toNat+1 = n.bytes := by
  have same (b : Byte) : (b &&& (0x03 : Byte)).toNat = (bitsAt 4 b 0).val := by
    revert b
    exact every_byte (by decide +kernel)
  rw [same,here]
  cases n <;> rfl

theorem padded_length {payload : List Byte} {ptLen : Nat} (long : payload.length ≤ ptLen) :
    (padded payload ptLen).length = ptLen := by
  rw [padded,List.length_append,List.length_replicate]
  omega

end QuicZig.Wire.Protection
