import QuicZig.Library.BigEndian
import QuicZig.Library.Feistel
import QuicZig.Library.Keystream
import QuicZig.Machine

/-! The network of four passes over a server id and a nonce. A length that is odd is split in the
middle of a byte. -/
namespace QuicZig.Lb.FourPass
open Machine BigEndian

def aesBlockSize : Nat := 16

def maxPlaintextLen : Nat := 19

/-- 16 bytes. -/
@[ext] structure Block where
  bytes : List Byte
  size : bytes.length = aesBlockSize
  deriving DecidableEq

inductive Error where
  | invalidPlaintextLen
  deriving DecidableEq, Repr

def expand (combined pass : Nat) (half : List Byte) : Block where
  bytes := (half ++ List.replicate 14 0).take 14 ++ [UInt8.ofNat combined,UInt8.ofNat pass]
  size := by
    rw [List.length_append,List.length_take,List.length_append,List.length_replicate,Nat.min_eq_left (Nat.le_add_left _ _)]
    rfl

structure Halves where
  left : List Byte
  right : List Byte
  deriving DecidableEq, Repr

/-- `half[half.len - 1] &= 0xf0` -/
def keepHigh (half : List Byte) : List Byte := half.modify (half.length-1) (· &&& 0xf0)

/-- `half[0] &= 0x0f` -/
def keepLow (half : List Byte) : List Byte := half.modify 0 (· &&& 0x0f)

def splitHalves (input : List Byte) : Halves :=
  let halfLen := (input.length+1)/2
  let left := input.take halfLen
  let right := input.drop (input.length-halfLen)
  if input.length%2 = 1 then ⟨keepHigh left,keepLow right⟩ else ⟨left,right⟩

/-- The cipher text goes over the front of the target. -/
def feistelRound (encryptBlock : Block → Block) (combined pass : Nat) (s : Halves) : Halves :=
  let passIsOdd := pass%2 = 1
  let source := if passIsOdd then s.left else s.right
  let target := if passIsOdd then s.right else s.left
  let aesOut := encryptBlock (expand combined pass source)
  let mixed := Keystream.mask (· ^^^ ·) (aesOut.bytes.take target.length) target
  let cleared := if combined%2 = 1 then (if passIsOdd then keepLow mixed else keepHigh mixed) else mixed
  if passIsOdd then {s with right := cleared} else {s with left := cleared}

def assembleHalves (odd : Bool) (s : Halves) : List Byte :=
  if odd then s.left.take (s.left.length-1) ++ [s.left.getD (s.left.length-1) 0 ||| s.right.getD 0 0] ++ s.right.drop 1
  else s.left ++ s.right

def validateLen (len : Nat) : Except Error Unit :=
  if len < 5 ∨ len > maxPlaintextLen ∨ len = 16 then .error .invalidPlaintextLen else .ok ()

def run (encryptBlock : Block → Block) (input : List Byte) (passes : List Nat) : Except Error (List Byte) :=
  match validateLen input.length with
  | .error e => .error e
  | .ok () => .ok (assembleHalves (input.length%2 = 1)
      (passes.foldl (fun s pass => feistelRound encryptBlock input.length pass s) (splitHalves input)))

def encrypt (encryptBlock : Block → Block) (plaintext : List Byte) : Except Error (List Byte) :=
  run encryptBlock plaintext [1,2,3,4]

def decrypt (encryptBlock : Block → Block) (ciphertext : List Byte) : Except Error (List Byte) :=
  run encryptBlock ciphertext [4,3,2,1]

/-- Halves of a length; of the byte that an odd length splits, each has its own four bits. -/
structure Proper (combined : Nat) (s : Halves) : Prop where
  left : s.left.length = (combined+1)/2
  right : s.right.length = (combined+1)/2
  high : combined%2 = 1 → keepHigh s.left = s.left
  low : combined%2 = 1 → keepLow s.right = s.right

theorem and_xor_and (c x k : Byte) : ((x ^^^ k) &&& c ^^^ k) &&& c = x &&& c := by
  apply UInt8.toBitVec_inj.mp
  ext i
  simp only [UInt8.toBitVec_and,UInt8.toBitVec_xor,BitVec.getElem_and,BitVec.getElem_xor]
  cases x.toBitVec[i] <;> cases k.toBitVec[i] <;> cases c.toBitVec[i] <;> rfl

theorem and_and_self (c x : Byte) : x &&& c &&& c = x &&& c := by
  rw [UInt8.and_assoc,UInt8.and_self]

theorem length_keepHigh (half : List Byte) : (keepHigh half).length = half.length := List.length_modify ..

theorem length_keepLow (half : List Byte) : (keepLow half).length = half.length := List.length_modify ..

theorem keepHigh_keepHigh (half : List Byte) : keepHigh (keepHigh half) = keepHigh half := by
  unfold keepHigh
  rw [List.length_modify,List.modify_modify_eq]
  congr 1
  funext x
  exact and_and_self _ x

theorem keepLow_keepLow (half : List Byte) : keepLow (keepLow half) = keepLow half := by
  unfold keepLow
  rw [List.modify_modify_eq]
  congr 1
  funext x
  exact and_and_self _ x

theorem keepLow_mask {key half : List Byte} (low : keepLow half = half) :
    keepLow (Keystream.mask (· ^^^ ·) key (keepLow (Keystream.mask (· ^^^ ·) key half))) = half :=
  Keystream.mask_clean Keystream.xor_xor (and_xor_and 0x0f) key low

theorem keepHigh_mask {key half : List Byte} (high : keepHigh half = half) :
    keepHigh (Keystream.mask (· ^^^ ·) key (keepHigh (Keystream.mask (· ^^^ ·) key half))) = half := by
  have whole := Keystream.mask_clean Keystream.xor_xor (and_xor_and 0xf0) key high
  unfold keepHigh
  simp only [Keystream.length_mask,List.length_modify]
  exact whole

/-- The half that a pass writes, from the front of the block that it makes of the other. -/
def mixed (odd passIsOdd : Bool) (key target : List Byte) : List Byte :=
  let sum := Keystream.mask (· ^^^ ·) key target
  if odd then (if passIsOdd then keepLow sum else keepHigh sum) else sum

theorem length_mixed (odd passIsOdd : Bool) (key target : List Byte) :
    (mixed odd passIsOdd key target).length = target.length := by
  unfold mixed
  dsimp only
  split
  · split
    · rw [length_keepLow,Keystream.length_mask]
    · rw [length_keepHigh,Keystream.length_mask]
  · exact Keystream.length_mask _ _

theorem mixed_mixed {odd passIsOdd : Bool} (key : List Byte) {target : List Byte}
    (own : odd = true → (if passIsOdd then keepLow target else keepHigh target) = target) :
    mixed odd passIsOdd key (mixed odd passIsOdd key target) = target := by
  cases odd with
  | false => exact Keystream.mask_mask Keystream.xor_xor _ _
  | true =>
    cases passIsOdd with
    | false => exact keepHigh_mask (own rfl)
    | true => exact keepLow_mask (own rfl)

theorem feistelRound_eq (encryptBlock : Block → Block) (combined pass : Nat) (s : Halves) :
    feistelRound encryptBlock combined pass s =
      if pass%2 = 1 then
        ⟨s.left,mixed (combined%2 = 1) true ((encryptBlock (expand combined pass s.left)).bytes.take s.right.length) s.right⟩
      else
        ⟨mixed (combined%2 = 1) false ((encryptBlock (expand combined pass s.right)).bytes.take s.left.length) s.left,s.right⟩ := by
  unfold feistelRound mixed
  by_cases odd : pass%2 = 1
  · simp [odd]
  · simp [odd]

theorem feistelRound_involutive (encryptBlock : Block → Block) (combined : Nat) :
    Feistel.Involutive (Proper combined) fun pass => feistelRound encryptBlock combined pass := by
  constructor
  · intro pass s ⟨left,right,high,low⟩
    rw [feistelRound_eq]
    split
    · refine ⟨left,(length_mixed ..).trans right,high,fun half => ?_⟩
      dsimp only [mixed]
      rw [decide_eq_true half,if_pos rfl,if_pos rfl,keepLow_keepLow]
    · refine ⟨(length_mixed ..).trans left,right,fun half => ?_,low⟩
      dsimp only [mixed]
      rw [decide_eq_true half,if_pos rfl,if_neg nofun,keepHigh_keepHigh]
  · intro pass s ⟨left,right,high,low⟩
    rw [feistelRound_eq,feistelRound_eq]
    by_cases odd : pass%2 = 1
    · rw [if_pos odd,if_pos odd]
      dsimp only
      rw [length_mixed,@mixed_mixed _ true _ _ fun half => (if_pos rfl).trans (low (of_decide_eq_true half))]
    · rw [if_neg odd,if_neg odd]
      dsimp only
      rw [length_mixed,@mixed_mixed _ false _ _ fun half => (if_neg Bool.false_ne_true).trans
        (high (of_decide_eq_true half))]

/-! ### The split byte -/

theorem halves_or (b : Byte) : b &&& 0xf0 ||| b &&& 0x0f = b :=
  @every_byte (fun b => b &&& 0xf0 ||| b &&& 0x0f = b) (by decide +kernel) b

theorem and_or_and (c l r : Byte) : (l ||| r) &&& c = l &&& c ||| r &&& c := by
  apply UInt8.toBitVec_inj.mp
  ext i
  simp only [UInt8.toBitVec_and,UInt8.toBitVec_or,BitVec.getElem_and,BitVec.getElem_or]
  cases l.toBitVec[i] <;> cases r.toBitVec[i] <;> cases c.toBitVec[i] <;> rfl

theorem or_high {l r : Byte} (high : l &&& 0xf0 = l) (low : r &&& 0x0f = r) : (l ||| r) &&& 0xf0 = l := by
  have none : r &&& 0xf0 = 0 := by
    rw [← low,UInt8.and_assoc]
    exact UInt8.and_zero
  rw [and_or_and,high,none,UInt8.or_zero]

theorem or_low {l r : Byte} (high : l &&& 0xf0 = l) (low : r &&& 0x0f = r) : (l ||| r) &&& 0x0f = r := by
  have none : l &&& 0x0f = 0 := by
    rw [← high,UInt8.and_assoc]
    exact UInt8.and_zero
  rw [and_or_and,low,none,UInt8.zero_or]

theorem keepHigh_concat (front : List Byte) (b : Byte) : keepHigh (front ++ [b]) = front ++ [b &&& 0xf0] := by
  unfold keepHigh
  rw [List.length_append,List.length_singleton,Nat.add_sub_cancel]
  induction front with
  | nil => rfl
  | cons x front ih =>
    rw [List.cons_append,List.length_cons,List.modify_succ_cons,ih,List.cons_append]

theorem split_odd {front back : List Byte} (b : Byte) (same : back.length = front.length) :
    splitHalves (front ++ b::back) = ⟨front ++ [b &&& 0xf0],(b &&& 0x0f)::back⟩ := by
  have size : (front ++ b::back).length = 2*front.length+1 := by
    rw [List.length_append,List.length_cons,same]
    omega
  unfold splitHalves
  dsimp only
  rw [size,if_pos (by omega),show (2*front.length+1+1)/2 = front.length+1 by omega,
    show 2*front.length+1-(front.length+1) = front.length by omega,List.drop_left,List.take_append,
    List.take_of_length_le (Nat.le_succ _),Nat.add_sub_cancel_left]
  exact congrArg₂ Halves.mk (keepHigh_concat front b) rfl

theorem split_even {front back : List Byte} (same : back.length = front.length) :
    splitHalves (front ++ back) = ⟨front,back⟩ := by
  have size : (front ++ back).length = 2*front.length := by
    rw [List.length_append,same]
    omega
  unfold splitHalves
  dsimp only
  rw [size,if_neg (by omega),show (2*front.length+1)/2 = front.length by omega,
    show 2*front.length-front.length = front.length by omega,List.drop_left,List.take_left]

theorem assemble_odd (front back : List Byte) (x y : Byte) :
    assembleHalves true ⟨front ++ [x],y::back⟩ = front ++ (x ||| y)::back := by
  unfold assembleHalves
  rw [if_pos rfl]
  dsimp only
  rw [List.length_append,List.length_singleton,Nat.add_sub_cancel,List.take_left,
    List.getD_append_right _ _ _ _ (Nat.le_refl _),
    Nat.sub_self,List.append_assoc]
  rfl

theorem assemble_split (input : List Byte) : assembleHalves (input.length%2 = 1) (splitHalves input) = input := by
  by_cases odd : input.length%2 = 1
  · have middle : input.length/2 < input.length := by omega
    have parts : input = input.take (input.length/2) ++ input[input.length/2]::input.drop (input.length/2+1) := by
      rw [List.getElem_cons_drop,List.take_append_drop]
    have same : (input.drop (input.length/2+1)).length = (input.take (input.length/2)).length := by
      rw [List.length_drop,List.length_take]
      omega
    rw [decide_eq_true odd]
    generalize input.take (input.length/2) = front at parts same
    generalize input.drop (input.length/2+1) = back at parts same
    generalize input[input.length/2] = b at parts
    rw [parts,split_odd b same,assemble_odd,halves_or]
  · have parts : input = input.take (input.length/2) ++ input.drop (input.length/2) := (List.take_append_drop _ _).symm
    have same : (input.drop (input.length/2)).length = (input.take (input.length/2)).length := by
      rw [List.length_drop,List.length_take]
      omega
    rw [decide_eq_false odd]
    generalize input.take (input.length/2) = front at parts same
    generalize input.drop (input.length/2) = back at parts same
    rw [parts,split_even same]
    rfl

theorem split_assemble {combined : Nat} (some' : 0 < combined) {s : Halves} (proper : Proper combined s) :
    (assembleHalves (combined%2 = 1) s).length = combined ∧ splitHalves (assembleHalves (combined%2 = 1) s) = s := by
  obtain ⟨left,right,high,low⟩ := proper
  obtain ⟨front,back⟩ := s
  dsimp only at left right high low
  by_cases odd : combined%2 = 1
  · rw [decide_eq_true odd]
    have high := high odd
    have low := low odd
    obtain ⟨front,x,rfl⟩ : ∃ front' x, front = front' ++ [x] := by
      rcases List.eq_nil_or_concat front with rfl | ⟨front',x,rfl⟩
      · rw [List.length_nil] at left
        omega
      · exact ⟨front',x,List.concat_eq_append⟩
    cases back with
    | nil =>
      rw [List.length_nil] at right
      omega
    | cons y back =>
      rw [List.length_append,List.length_singleton] at left
      rw [List.length_cons] at right
      rw [keepHigh_concat] at high
      have high : x &&& 0xf0 = x := List.singleton_inj.mp (List.append_cancel_left high)
      have low : y &&& 0x0f = y := (List.cons.inj low).1
      rw [assemble_odd,split_odd _ (by omega),or_high high low,or_low high low,List.length_append,List.length_cons]
      exact ⟨by omega,rfl⟩
  · rw [decide_eq_false odd]
    change (front ++ back).length = combined ∧ splitHalves (front ++ back) = _
    rw [split_even (by omega),List.length_append]
    exact ⟨by omega,rfl⟩

theorem split_proper (input : List Byte) : Proper input.length (splitHalves input) := by
  unfold splitHalves
  dsimp only
  have left : (input.take ((input.length+1)/2)).length = (input.length+1)/2 := by
    rw [List.length_take]
    omega
  have right : (input.drop (input.length-(input.length+1)/2)).length = (input.length+1)/2 := by
    rw [List.length_drop]
    omega
  split
  · refine ⟨(length_keepHigh _).trans left,(length_keepLow _).trans right,fun _ => keepHigh_keepHigh _,
      fun _ => keepLow_keepLow _⟩
  · rename_i even
    exact ⟨left,right,fun odd => absurd odd even,fun odd => absurd odd even⟩

theorem cut {combined : Nat} (some' : 0 < combined) : Feistel.Cut (fun input : List Byte => input.length = combined)
    (Proper combined) splitHalves (assembleHalves (combined%2 = 1)) where
  valid_split input size := size ▸ split_proper input
  block_join s proper := (split_assemble some' proper).1
  join_split input size := by
    subst size
    exact assemble_split input
  split_join s proper := (split_assemble some' proper).2

/-- The lengths that the configuration leaves to the four passes. -/
def Admitted (len : Nat) : Prop := 5 ≤ len ∧ len ≤ maxPlaintextLen ∧ len ≠ 16

theorem run_network (encryptBlock : Block → Block) {input : List Byte} (admitted : Admitted input.length)
    (passes : List Nat) :
    run encryptBlock input passes = .ok (Feistel.network splitHalves (assembleHalves (input.length%2 = 1))
      (fun pass => feistelRound encryptBlock input.length pass) passes input) := by
  obtain ⟨low,high,other⟩ := admitted
  unfold run validateLen
  rw [if_neg (by omega)]
  rfl

theorem run_reverse (encryptBlock : Block → Block) {input : List Byte} (admitted : Admitted input.length)
    (passes : List Nat) :
    ∃ out, run encryptBlock input passes = .ok out ∧ out.length = input.length ∧
      run encryptBlock out passes.reverse = .ok input := by
  have some' : 0 < input.length := by
    have low := admitted.1
    omega
  have size := Feistel.network_block (cut some') (feistelRound_involutive encryptBlock input.length) passes
    (rfl : input.length = _)
  have back := Feistel.network_reverse (cut some') (feistelRound_involutive encryptBlock input.length) passes
    (rfl : input.length = _)
  refine ⟨_,run_network encryptBlock admitted passes,size,?_⟩
  rw [run_network encryptBlock (size.symm ▸ admitted)]
  rw [size,back]

theorem decrypt_encrypt (encryptBlock : Block → Block) {plaintext : List Byte} (admitted : Admitted plaintext.length) :
    ∃ ciphertext, encrypt encryptBlock plaintext = .ok ciphertext ∧ ciphertext.length = plaintext.length ∧
      decrypt encryptBlock ciphertext = .ok plaintext := run_reverse encryptBlock admitted [1,2,3,4]

theorem encrypt_decrypt (encryptBlock : Block → Block) {ciphertext : List Byte} (admitted : Admitted ciphertext.length) :
    ∃ plaintext, decrypt encryptBlock ciphertext = .ok plaintext ∧ plaintext.length = ciphertext.length ∧
      encrypt encryptBlock plaintext = .ok ciphertext := run_reverse encryptBlock admitted [4,3,2,1]

end QuicZig.Lb.FourPass
