import QuicZig.Machine
import QuicZig.Library.BigEndian
import QuicZig.Library.Codec
import Mathlib.Tactic.FinCases
import Mathlib.Data.Fintype.Basic

/-! Variable-length integers: the two high bits of the first byte are the
logarithm of the width, the other bits hold the value. -/
namespace QuicZig.Wire
open Machine BigEndian Codec

/-- The errors of the wire modules and the frame codec. Each module raises some of them. -/
inductive Error where
  | bufferTooSmall
  | insufficientBytes
  | valueTooLarge
  | invalidLength
  | unacknowledgedTooFar
  | connIdTooLong
  | invalidVersionNegotiation
  | unknownFrameType
  | pathIdTooLarge
  | ackRangeCountTooLarge
  | overlappingAckRanges
  deriving DecidableEq, Repr

namespace Varint

def maxValue : Nat := (1 <<< 62)-1

/-- 0 for a value above `maxValue`. -/
def encodedLen (value : Nat) : Nat :=
  if value < 1 <<< 6 then 1
  else if value < 1 <<< 14 then 2
  else if value < 1 <<< 30 then 4
  else if value ≤ maxValue then 8
  else 0

/-- The tag of a width and the largest value it holds. -/
def tagAndMax : Nat → Option (Byte × Nat)
  | 1 => some (0x00,(1 <<< 6)-1)
  | 2 => some (0x40,(1 <<< 14)-1)
  | 4 => some (0x80,(1 <<< 30)-1)
  | 8 => some (0xc0,maxValue)
  | _ => none

/-- `dst[0] |= tag`. -/
def tagFirst (tag : Byte) : List Byte → List Byte
  | [] => []
  | first::rest => (first ||| tag)::rest

def encodeFixed (value length : Nat) : Writer Error := fun room =>
  match tagAndMax length with
  | none => .error .invalidLength
  | some (tag,maxForLength) =>
    if value > maxForLength then .error .valueTooLarge
    else if room < length then .error .bufferTooSmall
    else .ok (tagFirst tag (bigEndian length value))

def encode (value : Nat) : Writer Error :=
  if encodedLen value = 0 then .fail .valueTooLarge else encodeFixed value (encodedLen value)

structure Decoded where
  value : Nat
  bytesRead : Nat
  deriving DecidableEq, Repr

def decode (src : List Byte) : Except Error Decoded :=
  match src with
  | [] => .error .insufficientBytes
  | first::rest =>
    let length := 1 <<< (first >>> 6).toNat
    if src.length < length then .error .insufficientBytes
    else .ok {value := ofBigEndian (first &&& 0x3f).toNat (rest.take (length-1)),bytesRead := length}

/-- `decode` at the position of the parser. -/
def read : Parser Error Nat := fun s =>
  match decode s with
  | .ok d => .ok (d.value,s.drop d.bytesRead)
  | .error e => .error e

theorem tagged_first (first : Fin 64) (k : Fin 4) :
    let byte := UInt8.ofNat first ||| UInt8.ofNat (k*64)
    (byte >>> 6).toNat = k ∧ (byte &&& (0x3f : Byte)).toNat = first := by
  revert first k
  decide +kernel

theorem first_tagged (b : Byte) :
    (b &&& (0x3f : Byte)) ||| UInt8.ofNat ((b >>> 6).toNat*64) = b ∧ (b &&& (0x3f : Byte)).toNat < 64 ∧ (b >>> 6).toNat < 4 := by
  revert b
  apply every_byte
  decide +kernel

theorem tagAndMax_width (k : Fin 4) :
    tagAndMax (1 <<< k.val) = some (UInt8.ofNat (k*64),64*256^(1 <<< k.val-1)-1) := by
  revert k
  decide +kernel

theorem tagAndMax_some {length : Nat} {tag : Byte} {most : Nat} (known : tagAndMax length = some (tag,most)) :
    ∃ k : Fin 4, length = 1 <<< k.val := by
  unfold tagAndMax at known
  split at known
  · exact ⟨0,rfl⟩
  · exact ⟨1,rfl⟩
  · exact ⟨2,rfl⟩
  · exact ⟨3,rfl⟩
  · cases known

/-- `bytes` are the value, written in one of the four widths. -/
def Spells (bytes : List Byte) (value : Nat) : Prop :=
  ∃ k : Fin 4, value < 64*256^(1 <<< k.val-1) ∧ bytes = tagFirst (UInt8.ofNat (k*64)) (bigEndian (1 <<< k.val) value)

theorem width_succ (bits : Nat) : ∃ width, 1 <<< bits = width+1 := by
  have positive := Nat.two_pow_pos bits
  exact ⟨1 <<< bits-1,by rw [Nat.one_shiftLeft]; omega⟩

theorem length_tagFirst (tag : Byte) (bytes : List Byte) : (tagFirst tag bytes).length = bytes.length := by
  cases bytes <;> rfl

theorem Spells.decodes {bytes : List Byte} {value : Nat} (spells : Spells bytes value) (rest : List Byte) :
    decode (bytes ++ rest) = .ok {value := value,bytesRead := bytes.length} := by
  obtain ⟨k,fits,rfl⟩ := spells
  rw [length_tagFirst,length_bigEndian]
  obtain ⟨width,positive⟩ := width_succ k
  rw [positive] at fits ⊢
  have small : value/256^width < 64 := Nat.div_lt_of_lt_mul (by rwa [Nat.mul_comm] at fits)
  obtain ⟨tag,low⟩ := tagged_first ⟨value/256^width,small⟩ k
  have first : tagFirst (UInt8.ofNat (k*64)) (bigEndian (width+1) value) ++ rest =
      (UInt8.ofNat (value/256^width) ||| UInt8.ofNat (k*64))::(bigEndian width value ++ rest) := by
    rw [bigEndian,shiftRight_bytes]
    rfl
  have number : ofBigEndian (value/256^width) (bigEndian width value) = value := by
    rw [ofBigEndian_bigEndian]
    exact Nat.div_add_mod' value (256^width)
  rw [first,decode]
  simp only [tag,low,positive]
  rw [if_neg (by simp),Nat.add_sub_cancel,List.take_left' (length_bigEndian width value),number]

theorem Spells.reads {bytes : List Byte} {value : Nat} (spells : Spells bytes value) : Reads Anything read bytes value := by
  intro rest _
  rw [read,spells.decodes rest]
  dsimp only
  rw [List.drop_left' rfl]

theorem Spells.bounds {bytes : List Byte} {value : Nat} (spells : Spells bytes value) :
    value ≤ maxValue ∧ encodedLen value ≤ bytes.length := by
  obtain ⟨k,fits,rfl⟩ := spells
  rw [length_tagFirst,length_bigEndian]
  unfold encodedLen maxValue
  fin_cases k
  · have bound : value < 64 := fits
    simp only [Nat.shiftLeft_eq]
    grind
  · have bound : value < 64*256 := fits
    simp only [Nat.shiftLeft_eq]
    grind
  · have bound : value < 64*256^3 := fits
    simp only [Nat.shiftLeft_eq]
    grind
  · have bound : value < 64*256^7 := fits
    simp only [Nat.shiftLeft_eq]
    grind

theorem emits_fixed (value length : Nat) (tag : Byte) (most : Nat) (known : tagAndMax length = some (tag,most))
    (fits : value ≤ most) :
    ∃ bytes, Emits Error.bufferTooSmall (encodeFixed value length) bytes ∧ Spells bytes value ∧ bytes.length = length := by
  obtain ⟨k,rfl⟩ := tagAndMax_some known
  rw [tagAndMax_width] at known
  obtain ⟨rfl,rfl⟩ := Prod.mk.inj (Option.some.inj known)
  have size : (tagFirst (UInt8.ofNat (k*64)) (bigEndian (1 <<< k.val) value)).length = 1 <<< k.val := by
    rw [length_tagFirst,length_bigEndian]
  have power := Nat.pow_pos (n := 1 <<< k.val-1) (show 0 < 256 by decide)
  refine ⟨_,?_,⟨k,by omega,rfl⟩,size⟩
  intro room
  unfold encodeFixed
  rw [tagAndMax_width,size]
  dsimp only
  rw [if_neg (by omega)]
  split
  · rw [if_neg (by omega)]
  · rw [if_pos (by omega)]

theorem encodedLen_width (value : Nat) (small : value ≤ maxValue) :
    ∃ tag most, tagAndMax (encodedLen value) = some (tag,most) ∧ value ≤ most := by
  unfold encodedLen
  split_ifs
  · exact ⟨_,_,rfl,by omega⟩
  · exact ⟨_,_,rfl,by omega⟩
  · exact ⟨_,_,rfl,by omega⟩
  · exact ⟨_,_,rfl,small⟩

theorem encodedLen_le (value : Nat) : encodedLen value ≤ 8 := by
  unfold encodedLen
  grind

theorem encodedLen_pos (value : Nat) (small : value ≤ maxValue) : 0 < encodedLen value := by
  obtain ⟨tag,most,known,_⟩ := encodedLen_width value small
  cases length : encodedLen value with
  | zero => rw [length] at known; cases known
  | succ => omega

theorem emits (value : Nat) (small : value ≤ maxValue) :
    ∃ bytes, Emits Error.bufferTooSmall (encode value) bytes ∧ Spells bytes value ∧ bytes.length = encodedLen value := by
  obtain ⟨tag,most,known,fits⟩ := encodedLen_width value small
  have positive := encodedLen_pos value small
  unfold encode
  rw [if_neg (by omega)]
  exact emits_fixed value _ tag most known fits

theorem codes (value : Nat) (small : value ≤ maxValue) :
    Codes Error.bufferTooSmall Anything (encode value) read value (encodedLen value) := by
  obtain ⟨bytes,writes,spells,length⟩ := emits value small
  exact ⟨bytes,writes,spells.reads,length⟩

theorem encodedLen_zero (value : Nat) : encodedLen value = 0 ↔ maxValue < value := by
  unfold encodedLen maxValue
  grind

/-- The bytes that `encode` writes. -/
def minimal (value : Nat) : List Byte := (encode value (encodedLen value)).toOption.getD []

theorem emits_minimal (value : Nat) (small : value ≤ maxValue) :
    Emits Error.bufferTooSmall (encode value) (minimal value) ∧ Spells (minimal value) value ∧
      (minimal value).length = encodedLen value := by
  obtain ⟨bytes,writes,spells,length⟩ := emits value small
  have here : minimal value = bytes := by
    unfold minimal
    rw [writes,if_pos (Nat.le_of_eq length)]
    rfl
  rw [here]
  exact ⟨writes,spells,length⟩

theorem encode_ok {value room : Nat} {bytes : List Byte} (ok : encode value room = .ok bytes) :
    value ≤ maxValue ∧ Spells bytes value ∧ bytes.length = encodedLen value := by
  by_cases small : value ≤ maxValue
  · obtain ⟨written,writes,spells,length⟩ := emits value small
    rw [writes room] at ok
    split at ok
    · cases ok
      exact ⟨small,spells,length⟩
    · cases ok
  · have zero := (encodedLen_zero value).mpr (Nat.not_le.mp small)
    rw [encode,if_pos zero] at ok
    cases ok

theorem encodeFixed_ok {value length room : Nat} {bytes : List Byte} (ok : encodeFixed value length room = .ok bytes) :
    Spells bytes value ∧ bytes.length = length := by
  have whole := ok
  unfold encodeFixed at ok
  split at ok
  · cases ok
  · rename_i tag most known
    split_ifs at ok with large
    obtain ⟨written,writes,spells,size⟩ := emits_fixed value length tag most known (by omega)
    rw [writes room] at whole
    split at whole
    · cases whole
      exact ⟨spells,size⟩
    · cases whole

theorem spells_digits (first : Byte) (digits : List Byte) (k : Fin 4) (tag : (first >>> 6).toNat = k)
    (size : digits.length+1 = 1 <<< k.val) :
    Spells (first::digits) (ofBigEndian (first &&& (0x3f : Byte)).toNat digits) := by
  obtain ⟨whole,low,_⟩ := first_tagged first
  have value := ofBigEndian_start (first &&& (0x3f : Byte)).toNat digits
  have bound := ofBigEndian_lt digits
  have head : ofBigEndian (first &&& (0x3f : Byte)).toNat digits/256^digits.length = (first &&& (0x3f : Byte)).toNat := by
    rw [value,Nat.add_comm,Nat.add_mul_div_right _ _ (Nat.pow_pos (by decide)),Nat.div_eq_of_lt bound,Nat.zero_add]
  refine ⟨k,?_,?_⟩
  · rw [← size,Nat.add_sub_cancel]
    nlinarith
  · rw [← size,bigEndian,shiftRight_bytes,head,bigEndian_ofBigEndian]
    simp only [tagFirst,UInt8.ofNat_toNat]
    rw [← tag,whole]

theorem decode_spells {s : List Byte} {d : Decoded} (ok : decode s = .ok d) :
    ∃ used rest, s = used ++ rest ∧ used.length = d.bytesRead ∧ Spells used d.value := by
  cases s with
  | nil => cases ok
  | cons first tail =>
    obtain ⟨width,positive⟩ := width_succ (first >>> 6).toNat
    rw [decode] at ok
    split at ok
    · cases ok
    · rename_i enough
      cases ok
      simp only [positive,List.length_cons] at enough ⊢
      rw [Nat.add_sub_cancel]
      have size : (tail.take width).length = width := List.length_take_of_le (by omega)
      refine ⟨first::tail.take width,tail.drop width,by simp,by rw [List.length_cons,size],?_⟩
      apply spells_digits first _ ⟨_,(first_tagged first).2.2⟩ rfl
      rw [size,← positive]

theorem accepts_read : Accepts read (fun value used => Spells used value) := by
  intro s value rest ok
  unfold read at ok
  split at ok
  · rename_i d here
    cases ok
    obtain ⟨used,rest,rfl,size,spells⟩ := decode_spells here
    exact ⟨used,by rw [List.drop_left' size],spells⟩
  · cases ok

end Varint

end QuicZig.Wire
