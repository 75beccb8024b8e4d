import Mathlib.Data.Nat.Bitwise
import Mathlib.Tactic.Ring
import Mathlib.Tactic.Linarith

/-! Numbers as bytes, most significant byte first. -/
namespace QuicZig.BigEndian

/-- The low `length` bytes of a number. -/
def bigEndian : Nat → Nat → List UInt8
  | 0,_ => []
  | length+1,value => UInt8.ofNat (value >>> (length*8))::bigEndian length value

/-- The number that `bytes` spell after the digits of `start`. -/
def ofBigEndian (start : Nat) (bytes : List UInt8) : Nat := bytes.foldl (fun v b => (v <<< 8) ||| b.toNat) start

@[simp] theorem length_bigEndian (length value : Nat) : (bigEndian length value).length = length := by
  induction length with
  | zero => rfl
  | succ length ih => simp [bigEndian,ih]

theorem shift_or (v : Nat) (b : UInt8) : (v <<< 8) ||| b.toNat = v*256+b.toNat := by
  rw [← Nat.shiftLeft_add_eq_or_of_lt b.toNat_lt,Nat.shiftLeft_eq]

theorem shiftRight_bytes (value length : Nat) : value >>> (length*8) = value/256^length := by
  rw [Nat.shiftRight_eq_div_pow,Nat.mul_comm,Nat.pow_mul]

@[simp] theorem ofBigEndian_nil (start : Nat) : ofBigEndian start [] = start := rfl

@[simp] theorem ofBigEndian_cons (start : Nat) (b : UInt8) (rest : List UInt8) :
    ofBigEndian start (b::rest) = ofBigEndian (start*256+b.toNat) rest := by
  simp [ofBigEndian,shift_or]

theorem ofBigEndian_start (start : Nat) (bytes : List UInt8) :
    ofBigEndian start bytes = start*256^bytes.length+ofBigEndian 0 bytes := by
  induction bytes generalizing start with
  | nil => simp
  | cons b rest ih =>
    rw [ofBigEndian_cons,ofBigEndian_cons,ih,ih (0*256+b.toNat),List.length_cons,Nat.pow_succ]
    ring

theorem ofBigEndian_lt (bytes : List UInt8) : ofBigEndian 0 bytes < 256^bytes.length := by
  induction bytes with
  | nil => simp
  | cons b rest ih =>
    have byte : b.toNat+1 ≤ 256 := b.toNat_lt
    calc ofBigEndian 0 (b::rest) = b.toNat*256^rest.length+ofBigEndian 0 rest := by
          rw [ofBigEndian_cons,ofBigEndian_start]
          ring
      _ < (b.toNat+1)*256^rest.length := by linarith
      _ ≤ 256*256^rest.length := Nat.mul_le_mul_right _ byte
      _ = 256^(b::rest).length := by
          rw [List.length_cons,Nat.pow_succ,Nat.mul_comm]

theorem ofBigEndian_bigEndian (start length value : Nat) :
    ofBigEndian start (bigEndian length value) = start*256^length+value%256^length := by
  induction length generalizing start with
  | zero => simp [bigEndian,Nat.mod_one]
  | succ length ih =>
    have byte : (UInt8.ofNat (value >>> (length*8))).toNat = value/256^length%256 := by
      simp [shiftRight_bytes]
    rw [bigEndian,ofBigEndian_cons,ih,byte,Nat.pow_succ,Nat.mod_mul]
    ring

theorem bigEndian_ofBigEndian (bytes : List UInt8) (start : Nat) :
    bigEndian bytes.length (ofBigEndian start bytes) = bytes := by
  induction bytes generalizing start with
  | nil => rfl
  | cons b rest ih =>
    rw [List.length_cons,ofBigEndian_cons,bigEndian,ih]
    congr 1
    apply UInt8.toNat_inj.mp
    have digit : ofBigEndian (start*256+b.toNat) rest/256^rest.length = start*256+b.toNat := by
      rw [ofBigEndian_start,Nat.add_comm,Nat.add_mul_div_right _ _ (Nat.pow_pos (by decide)),
        Nat.div_eq_of_lt (ofBigEndian_lt rest),Nat.zero_add]
    have byte := b.toNat_lt
    rw [shiftRight_bytes,digit]
    simp

theorem every_byte {holds : UInt8 → Prop} (all : ∀ n : Fin 256, holds (UInt8.ofNat n)) (b : UInt8) : holds b := by
  simpa using all ⟨b.toNat,b.toNat_lt⟩

end QuicZig.BigEndian
