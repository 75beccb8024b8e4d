import QuicZig.Wire.Varint
import QuicZig.Library.Nearest

/-! Packet numbers are sent without their high bytes; the receiver finds them
again near the largest number it has seen. -/
namespace QuicZig.Wire.PacketNumber
open Machine BigEndian Codec Nearest

def maxValue : Nat := (1 <<< 62)-1

/-- The loop of `encodedLength`: the bits that hold `target` values, 32 at most. -/
def bitsFor (target bits range : Nat) : Except Error Nat :=
  if range < target then
    if bits ≥ 32 then .error .unacknowledgedTooFar else bitsFor target (bits+1) (range <<< 1)
  else .ok bits
termination_by 32-bits

/-- A fresh space counts as if the packet before the first one had been acknowledged. -/
def numUnacked (pnToSend : Nat) : Option Nat → Except Error Nat
  | some la => if pnToSend ≤ la then .error .invalidLength else .ok (pnToSend-la)
  | none => .ok (pnToSend+1)

def bytesFor (bits : Nat) : Except Error Nat :=
  if bits ≤ 8 then .ok 1
  else if bits ≤ 16 then .ok 2
  else if bits ≤ 24 then .ok 3
  else if bits ≤ 32 then .ok 4
  else .error .unacknowledgedTooFar

def encodedLength (pnToSend : Nat) (largestAcked : Option Nat) : Except Error Nat :=
  match numUnacked pnToSend largestAcked with
  | .error e => .error e
  | .ok unacked =>
    match bitsFor (min (2*unacked) maxU64) 1 2 with
    | .error e => .error e
    | .ok bits => bytesFor bits

def chooseLength (pn : Nat) (largestAcked : Option Nat) : Nat :=
  let space :=
    match largestAcked with
    | some la => if pn > la then pn-la else 1
    | none => maxU64
  if space < 1 <<< 15 then 2
  else if space < 1 <<< 23 then 3
  else 4

def truncate (pn length : Nat) : Nat :=
  if length ≥ 8 then pn else pn &&& ((1 <<< (length*8))-1)

def encode (pn length : Nat) : Writer Error :=
  if length < 1 ∨ length > 4 then .fail .invalidLength
  else .put .bufferTooSmall (bigEndian length pn)

def readTruncated (src : List Byte) (length : Nat) : Except Error Nat :=
  if length < 1 ∨ length > 4 then .error .invalidLength
  else if src.length < length then .error .insufficientBytes
  else .ok (ofBigEndian 0 (src.take length))

/-- `readTruncated` at the position of the parser. -/
def read (length : Nat) : Parser Error Nat := fun s =>
  match readTruncated s length with
  | .ok v => .ok (v,s.drop length)
  | .error e => .error e

/-- The bits of a 64-bit number outside the mask. -/
def clear (v mask : Nat) : Nat := v &&& (maxU64 ^^^ mask)

/-- `ok none` is an arithmetic overflow, which traps. -/
def decode (truncated length largestPn : Nat) : Except Error (Option Nat) :=
  if length < 1 ∨ length > 4 then .error .invalidLength
  else
    let pnWin := 1 <<< (length*8)
    let pnHwin := pnWin/2
    let pnMask := pnWin-1
    match if largestPn ≥ maxValue then some maxValue else checkedAdd largestPn 1 with
    | none => .ok none
    | some expectedPn =>
      let candidate := clear expectedPn pnMask ||| (truncated &&& pnMask)
      if expectedPn ≥ pnHwin ∧ candidate ≤ expectedPn-pnHwin ∧ candidate < maxValue+1-pnWin then
        .ok (checkedAdd candidate pnWin)
      else if candidate > saturatingAdd expectedPn pnHwin ∧ candidate ≥ pnWin then .ok (some (candidate-pnWin))
      else .ok (some candidate)

theorem reads (pn length : Nat) (least : 1 ≤ length) (most : length ≤ 4) (fits : pn < 256^length) :
    Reads Anything (read length) (bigEndian length pn) pn := by
  intro rest _
  have size := length_bigEndian length pn
  unfold read readTruncated
  rw [if_neg (by omega),if_neg (by rw [List.length_append,size]; omega),List.take_left' size,ofBigEndian_bigEndian,
    Nat.mod_eq_of_lt fits]
  simp [List.drop_left' size]

theorem emits (pn length : Nat) (least : 1 ≤ length) (most : length ≤ 4) :
    Emits Error.bufferTooSmall (encode pn length) (bigEndian length pn) := by
  unfold encode
  rw [if_neg (by omega)]
  exact emits_put _ _

theorem encode_ok {pn length room : Nat} {bytes : List Byte} (ok : encode pn length room = .ok bytes) :
    bytes = bigEndian length pn := by
  unfold encode at ok
  split at ok
  · cases ok
  · exact put_inv ok

theorem accepts_read (length : Nat) : Accepts (read length) (fun pn used =>
    pn < 256^length ∧ used = bigEndian length pn) := by
  intro s pn rest ok
  unfold read readTruncated at ok
  split at ok
  · rename_i v here
    split_ifs at here with valid short
    cases here
    cases ok
    have size : (s.take length).length = length := List.length_take_of_le (by omega)
    have bound := ofBigEndian_lt (s.take length)
    have back := bigEndian_ofBigEndian (s.take length) 0
    rw [size] at bound back
    exact ⟨s.take length,(List.take_append_drop length s).symm,bound,back.symm⟩
  · cases ok

theorem splice_bits (v t bits : Nat) (fits : v ≤ maxU64) (short : bits < 64) :
    clear v ((1 <<< bits)-1) ||| (t &&& ((1 <<< bits)-1)) = v/2^bits*2^bits+t%2^bits := by
  have high : clear v ((1 <<< bits)-1) = v/2^bits*2^bits := by
    apply Nat.eq_of_testBit_eq
    intro i
    unfold clear
    rw [Nat.one_shiftLeft,Nat.testBit_and,Nat.testBit_xor,maxU64,Nat.testBit_two_pow_sub_one,Nat.testBit_two_pow_sub_one,
      Nat.testBit_mul_two_pow,Nat.testBit_div_two_pow]
    by_cases low : i < bits
    · have inside : i < 64 := by omega
      simp [low,inside]
    · have from' := Nat.le_of_not_lt low
      by_cases top : i < 64
      · simp [low,from',top,Nat.sub_add_cancel from']
      · have zero : v.testBit i = false := by
          apply Nat.testBit_lt_two_pow
          have power := Nat.pow_le_pow_right (show 0 < 2 by decide) (Nat.le_of_not_lt top)
          unfold maxU64 at fits
          omega
        simp [low,top,Nat.sub_add_cancel from',zero]
  rw [high,Nat.one_shiftLeft,Nat.and_two_pow_sub_one_eq_mod,Nat.mul_comm]
  exact Nat.two_pow_add_eq_or_of_lt (Nat.mod_lt _ (by positivity)) _ |>.symm

/-- Half the window at either end of a 62-bit range, for the four lengths. -/
theorem window_bounds (length : Nat) (least : 1 ≤ length) (most : length ≤ 4) :
    256 ≤ 2^(length*8) ∧ 2^(length*8) ≤ 2^32 ∧ 2*(2^(length*8)/2) = 2^(length*8) ∧ 2^62 % 2^(length*8) = 0 := by
  have cases' : length = 1 ∨ length = 2 ∨ length = 3 ∨ length = 4 := by omega
  rcases cases' with rfl | rfl | rfl | rfl <;> decide

theorem decode_nearest (truncated length largestPn : Nat) (least : 1 ≤ length) (most : length ≤ 4) :
    ∃ pn, decode truncated length largestPn = .ok (some pn) ∧
      IsNearest (2^(8*length)) (2^62) truncated (largestPn+1) pn := by
  obtain ⟨wide,narrow,halves,divides⟩ := window_bounds length least most
  have valid : ¬ (length < 1 ∨ length > 4) := by omega
  obtain ⟨expected,found,top⟩ : ∃ expected,
      (if largestPn ≥ maxValue then some maxValue else checkedAdd largestPn 1) = some expected ∧
      expected = min (largestPn+1) (2^62-1) := by
    unfold checkedAdd maxU64 maxValue
    split_ifs
    · exact ⟨_,rfl,by simp [Nat.shiftLeft_eq] at *; omega⟩
    · exact ⟨_,rfl,by simp [Nat.shiftLeft_eq] at *; omega⟩
    · simp [Nat.shiftLeft_eq] at *
      omega
  unfold decode
  rw [if_neg valid,found]
  dsimp only
  rw [splice_bits expected truncated (length*8) (by unfold maxU64; omega) (by omega),Nat.one_shiftLeft,Nat.mul_comm 8 length]
  have limit : maxValue+1 = 2^62 := rfl
  rw [limit]
  generalize 2^(length*8) = win at *
  have low : expected/win*win ≤ expected := Nat.div_mul_le_self expected win
  have next : expected < expected/win*win+win := by
    have division := Nat.div_add_mod' expected win
    have remainder := Nat.mod_lt expected (show win > 0 by omega)
    omega
  have room : expected/win*win+win ≤ 2^62 := by
    obtain ⟨k,multiple⟩ := Nat.dvd_of_mod_eq_zero divides
    have quotient : expected/win < k := by
      apply Nat.div_lt_of_lt_mul
      omega
    calc expected/win*win+win = win*(expected/win+1) := by ring
      _ ≤ win*k := Nat.mul_le_mul_left win quotient
      _ = 2^62 := multiple.symm
  have digits := Nat.mod_lt truncated (show win > 0 by omega)
  have same (q : Nat) : (expected/win*win+truncated%win+q*win) % win = truncated % win := by
    rw [Nat.add_mul_mod_self_right,Nat.add_comm,Nat.add_mul_mod_self_right,Nat.mod_mod]
  generalize expected/win*win = base at *
  have here := same 0
  have above := same 1
  have below (enough : base+truncated%win ≥ win) : (base+truncated%win-win) % win = truncated % win := by
    rw [← Nat.mod_eq_sub_mod enough]
    simpa using here
  simp only [Nat.zero_mul,Nat.one_mul,Nat.add_zero] at here above
  have inside : base ≤ base+truncated%win ∧ base+truncated%win < base+win := by omega
  generalize base+truncated%win = candidate at *
  have sum : saturatingAdd expected (win/2) = expected+win/2 := min_eq_left (by unfold maxU64; omega)
  have centre : expected ≤ largestPn+1 ∧ (expected = largestPn+1 ∨ expected+1 = 2^62) := by omega
  rw [sum]
  clear found top same sum digits valid divides
  split_ifs with behind ahead
  · have fits : candidate+win < 2^62 := by omega
    refine ⟨candidate+win,?_,isNearest_of_window fits above (.inl (by omega)) (.inl (by omega))⟩
    unfold checkedAdd maxU64
    rw [if_pos (by omega)]
  · clear behind
    exact ⟨_,rfl,isNearest_of_window (by omega) (below ahead.2) (.inl (by omega)) (by omega)⟩
  · exact ⟨_,rfl,isNearest_of_window (by omega) here (by clear behind; omega) (by clear ahead; omega)⟩

theorem truncate_mod (pn length : Nat) (short : length ≤ 4) : truncate pn length = pn % 2^(8*length) := by
  unfold truncate
  rw [if_neg (by omega),Nat.one_shiftLeft,Nat.and_two_pow_sub_one_eq_mod,Nat.mul_comm]

theorem chooseLength_room (pn la : Nat) (newer : la < pn) (near : pn-la < 2^31) :
    1 ≤ chooseLength pn (some la) ∧ chooseLength pn (some la) ≤ 4 ∧ 2^16 ≤ 2^(8*chooseLength pn (some la)) ∧
      2*(pn-la) ≤ 2^(8*chooseLength pn (some la)) := by
  unfold chooseLength
  simp only [Nat.one_shiftLeft,if_pos (show pn > la from newer)]
  split_ifs <;> omega

/-- A number within half a window of the expected one is recovered from its last bytes. -/
theorem decode_near {pn length r : Nat} (least : 1 ≤ length) (most : length ≤ 4) (small : pn ≤ maxValue)
    (notAbove : 2*pn ≤ 2*(r+1)+2^(8*length)) (notBelow : 2*(r+1) < 2*pn+2^(8*length)) :
    decode (truncate pn length) length r = .ok (some pn) := by
  obtain ⟨found,decoded,nearest⟩ := decode_nearest (truncate pn length) length r least most
  have limit : maxValue+1 = 2^62 := rfl
  have here : IsNearest (2^(8*length)) (2^62) (truncate pn length) (r+1) pn := by
    apply isNearest_of_window (by omega) _ (.inl notAbove) (.inl notBelow)
    rw [truncate_mod pn length most,Nat.mod_mod]
  rw [decoded,nearest.unique here]

theorem decode_chosen (pn la r : Nat) (small : pn ≤ maxValue) (newer : la < pn) (near : pn-la < 2^31) (seen : la ≤ r)
    (late : r ≤ pn+2^15-2) :
    decode (truncate pn (chooseLength pn (some la))) (chooseLength pn (some la)) r = .ok (some pn) := by
  obtain ⟨least,most,wide,room⟩ := chooseLength_room pn la newer near
  generalize chooseLength pn (some la) = length at *
  exact decode_near least most small (by omega) (by omega)

theorem bitsFor_least (target bits range found : Nat) (power : range = 2^bits)
    (ok : bitsFor target bits range = .ok found) (k : Nat) (start : bits ≤ k) (reached : target ≤ 2^k) : found ≤ k := by
  fun_induction bitsFor target bits range with
  | case1 bits range less stop => cases ok
  | case2 bits range less more ih =>
    have doubled : range <<< 1 = 2^(bits+1) := by
      rw [power,Nat.shiftLeft_eq,Nat.pow_succ 2 bits]
    apply ih doubled ok
    by_contra atMost
    have same : k = bits := by omega
    rw [same,← power] at reached
    omega
  | case3 bits range done =>
    cases ok
    exact start

theorem bytesFor_le {bits n k : Nat} (ok : bytesFor bits = .ok n) (some : 1 ≤ k) (few : k ≤ 4) (fits : bits ≤ 8*k) : n ≤ k := by
  unfold bytesFor at ok
  split_ifs at ok <;> cases ok <;> omega

/-- No more bytes than it takes to count to twice the unacknowledged range. -/
theorem encodedLength_le {pn n unacked k : Nat} {largestAcked : Option Nat} (known : numUnacked pn largestAcked = .ok unacked)
    (ok : encodedLength pn largestAcked = .ok n) (some : 1 ≤ k) (few : k ≤ 4) (fits : 2*unacked ≤ 2^(8*k) ∨ k = 4) : n ≤ k := by
  unfold encodedLength at ok
  rw [known] at ok
  dsimp only at ok
  split at ok
  · cases ok
  · rename_i bits found
    rcases fits with small | all
    · exact bytesFor_le ok some few (bitsFor_least _ 1 2 bits rfl found (8*k) (by omega) (by omega))
    · unfold bytesFor at ok
      split_ifs at ok <;> cases ok <;> omega

theorem encodedLength_le_chosen (pn n : Nat) (largestAcked : Option Nat) (ok : encodedLength pn largestAcked = .ok n) :
    n ≤ chooseLength pn largestAcked := by
  cases largestAcked with
  | none =>
    have all : chooseLength pn none = 4 := rfl
    exact encodedLength_le rfl ok (by omega) (by omega) (.inr all)
  | some la =>
    by_cases newer : la < pn
    · have known : numUnacked pn (some la) = .ok (pn-la) := if_neg (by omega)
      apply encodedLength_le known ok
      all_goals
        unfold chooseLength
        simp only [Nat.one_shiftLeft,if_pos newer]
        split_ifs <;> omega
    · have invalid : numUnacked pn (some la) = .error .invalidLength := if_pos (by omega)
      unfold encodedLength at ok
      rw [invalid] at ok
      cases ok

/-- `decode` finds the number nearest to the one expected, without overflow; the length the sender
chooses makes that the number sent, up to 2^15-2 newer packets, and is never shorter than needed. -/
theorem decode_recovers :
    (∀ truncated length largestPn, 1 ≤ length → length ≤ 4 → ∃ pn, decode truncated length largestPn = .ok (some pn) ∧
      pn < 2^62 ∧ pn % 2^(8*length) = truncated % 2^(8*length) ∧
      ∀ q < 2^62, q % 2^(8*length) = truncated % 2^(8*length) →
        Nat.dist pn (largestPn+1) < Nat.dist q (largestPn+1) ∨
          (Nat.dist pn (largestPn+1) = Nat.dist q (largestPn+1) ∧ q ≤ pn)) ∧
    (∀ pn la r, pn < 2^62 → la < pn → pn-la < 2^31 → la ≤ r → r ≤ pn+2^15-2 →
      decode (truncate pn (chooseLength pn (some la))) (chooseLength pn (some la)) r = .ok (some pn)) ∧
    ∀ pn largestAcked n, encodedLength pn largestAcked = .ok n → n ≤ chooseLength pn largestAcked := by
  refine ⟨?_,?_,fun pn largestAcked n => encodedLength_le_chosen pn n largestAcked⟩
  · intro truncated length largestPn least most
    obtain ⟨pn,decoded,nearest⟩ := decode_nearest truncated length largestPn least most
    exact ⟨pn,decoded,nearest.below,nearest.congruent,nearest.nearest⟩
  · intro pn la r small
    exact decode_chosen pn la r (Nat.le_of_lt_succ small)

/-- A packet that comes 2000 numbers late, ten after the last acknowledged one. -/
theorem decode_recovers_late :
    decode (truncate 1000 (chooseLength 1000 (some 990))) (chooseLength 1000 (some 990)) 3000 = .ok (some 1000) :=
  decode_recovers.2.1 1000 990 3000 (by decide) (by decide) (by decide) (by decide) (by decide)

end QuicZig.Wire.PacketNumber
