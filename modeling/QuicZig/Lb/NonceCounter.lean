import QuicZig.Library.BigEndian
import QuicZig.Machine

/-! The counter that an encrypted configuration draws its nonces from. -/
namespace QuicZig.Lb.Nonces
open Machine BigEndian

def maxNonceLen : Nat := 18

inductive Error where
  | nonceExhausted
  | randFailure
  deriving DecidableEq, Repr

/-- The bytes behind the first `nonceLen` are not used. -/
structure NonceCounter where
  nonceLen : Nat
  bytes : List Byte := List.replicate maxNonceLen 0
  exhausted : Bool := false
  deriving DecidableEq, Repr

/-- What the random source writes to a slice; `none` is its failure. -/
abbrev Draw := Option (Nat → Byte)

def fillBytes (draw : Nat → Byte) (len : Nat) : List Byte := (List.range len).map draw

def initRandom (nonceLen : Nat) (draw : Draw) : Except Error NonceCounter :=
  match draw with
  | none => .error .randFailure
  | some draw => .ok {
      nonceLen := nonceLen
      bytes := fillBytes draw nonceLen ++ List.replicate (maxNonceLen-nonceLen) 0
    }

/-- The loop below byte `i`, with the carry set; returns the carry that is left. -/
def increment : Nat → List Byte → List Byte × Bool
  | 0,bytes => (bytes,true)
  | i+1,bytes =>
    let sum := (bytes.getD i 0).toNat+1
    let bytes := bytes.set i (UInt8.ofNat sum)
    if sum > 0xff then increment i bytes else (bytes,false)

def next (self : NonceCounter) : Except Error (List Byte × NonceCounter) :=
  if self.exhausted then .error .nonceExhausted
  else
    let (bytes,carry) := increment self.nonceLen self.bytes
    .ok (self.bytes.take self.nonceLen,{self with bytes, exhausted := carry})

theorem length_fillBytes (draw : Nat → Byte) (len : Nat) : (fillBytes draw len).length = len := by
  unfold fillBytes
  rw [List.length_map,List.length_range]

/-- The number of the live bytes. -/
def NonceCounter.value (self : NonceCounter) : Nat := ofBigEndian 0 (self.bytes.take self.nonceLen)

def NonceCounter.Sized (self : NonceCounter) : Prop := self.nonceLen ≤ self.bytes.length

theorem ofBigEndian_concat (front : List Byte) (b : Byte) : ofBigEndian 0
    (front ++ [b]) = ofBigEndian 0 front*256+b.toNat := by
  unfold ofBigEndian
  rw [List.foldl_append,List.foldl_cons,List.foldl_nil,shift_or]

theorem increment_spec {i : Nat} {bytes : List Byte} (inside : i ≤ bytes.length) :
    (increment i bytes).1.length = bytes.length ∧ (increment i bytes).1.drop i = bytes.drop i ∧
      ofBigEndian 0 ((increment i bytes).1.take i)+(if (increment i bytes).2 then 256^i else 0) = ofBigEndian 0
      (bytes.take i)+1 := by
  induction i generalizing bytes with
  | zero => exact ⟨rfl,rfl,rfl⟩
  | succ i ih =>
    have here : i < bytes.length := inside
    have front : bytes.take (i+1) = bytes.take i ++ [bytes[i]] := (List.take_append_getElem here).symm
    unfold increment
    rw [← List.getElem_eq_getD 0 (h := here)]
    dsimp only
    split
    · rename_i round
      have full : bytes[i].toNat = 255 := by
        have byte := bytes[i].toNat_lt
        omega
      obtain ⟨size,rest,sum⟩ := @ih (bytes.set i (UInt8.ofNat (bytes[i].toNat+1))) (by rw [List.length_set]; omega)
      rw [List.length_set] at size
      have last : (increment i (bytes.set i (UInt8.ofNat (bytes[i].toNat+1)))).1.drop i = 0::bytes.drop (i+1) := by
        rw [rest,List.drop_eq_getElem_cons (by rw [List.length_set]; exact here),List.getElem_set_self,
          List.drop_set_of_lt (Nat.lt_succ_self i),full]
        rfl
      rw [List.take_set_of_le (Nat.le_refl i)] at sum
      generalize increment i (bytes.set i (UInt8.ofNat (bytes[i].toNat+1))) = out at size last sum
      obtain ⟨out,carry⟩ := out
      dsimp only at size last sum ⊢
      have room : i < out.length := by omega
      have cell : out[i] = 0 := by
        rw [List.drop_eq_getElem_cons room] at last
        exact (List.cons.inj last).1
      refine ⟨size,?_,?_⟩
      · rw [List.drop_eq_getElem_cons room] at last
        exact (List.cons.inj last).2
      · rw [← List.take_append_getElem room,front,ofBigEndian_concat,ofBigEndian_concat,cell,full,Nat.pow_succ,
          UInt8.toNat_zero]
        cases carry with
        | false =>
          rw [if_neg Bool.false_ne_true] at sum ⊢
          omega
        | true =>
          rw [if_pos rfl] at sum ⊢
          omega
    · rename_i low
      refine ⟨List.length_set ..,List.drop_set_of_lt (Nat.lt_succ_self i),?_⟩
      dsimp only
      rw [if_neg Bool.false_ne_true,← List.take_append_getElem (by rw [List.length_set]; exact here),front,
        ofBigEndian_concat,
        ofBigEndian_concat,List.take_set_of_le (Nat.le_refl i),List.getElem_set_self,UInt8.toNat_ofNat_of_lt' (by
          change _ < 256
          omega)]
      omega

theorem initRandom_sized {nonceLen : Nat} {draw : Draw} {self : NonceCounter} (drawn : initRandom nonceLen draw = .ok self) :
    self.Sized ∧ self.nonceLen = nonceLen := by
  unfold initRandom at drawn
  split at drawn
  · cases drawn
  · cases drawn
    unfold NonceCounter.Sized
    rw [List.length_append,length_fillBytes]
    exact ⟨Nat.le_add_right _ _,rfl⟩

theorem next_spec {self after : NonceCounter} {nonce : List Byte} (sized : self.Sized)
    (drawn : next self = .ok (nonce,after)) :
    after.Sized ∧ after.nonceLen = self.nonceLen ∧ nonce.length = self.nonceLen ∧ ofBigEndian 0 nonce = self.value ∧
      (after.exhausted = false → self.value < after.value) := by
  unfold next at drawn
  split at drawn
  · cases drawn
  · obtain ⟨size,-,sum⟩ := increment_spec sized
    cases drawn
    refine ⟨sized.trans_eq size.symm,rfl,List.length_take_of_le sized,rfl,fun going => ?_⟩
    have going : (increment self.nonceLen self.bytes).2 = false := going
    rw [going,if_neg Bool.false_ne_true] at sum
    unfold NonceCounter.value
    exact (Nat.lt_succ_self _).trans_eq sum.symm

theorem next_exhausted {self : NonceCounter} (exhausted : self.exhausted = true) :
    next self = .error .nonceExhausted := if_pos exhausted

def yields : Nat → NonceCounter → List (List Byte)
  | 0,_ => []
  | calls+1,self =>
    match next self with
    | .error _ => yields calls self
    | .ok (nonce,after) => nonce::yields calls after

theorem yields_exhausted (calls : Nat) {self : NonceCounter} (exhausted : self.exhausted = true) : yields calls self =
    [] := by
  induction calls with
  | zero => rfl
  | succ calls ih =>
    unfold yields
    rw [next_exhausted exhausted]
    exact ih

theorem yields_from (calls : Nat) {self : NonceCounter} (sized : self.Sized) :
    (∀ nonce ∈ yields calls self, self.value ≤ ofBigEndian 0 nonce) ∧ (yields calls self).Nodup := by
  induction calls generalizing self with
  | zero => exact ⟨nofun,List.nodup_nil⟩
  | succ calls ih =>
    unfold yields
    split
    · exact ih sized
    · rename_i nonce after drawn
      obtain ⟨sized',-,-,value,above⟩ := next_spec sized drawn
      have later : ∀ other ∈ yields calls after, self.value < ofBigEndian 0 other := by
        intro other there
        cases exhausted : after.exhausted with
        | true =>
          rw [yields_exhausted calls exhausted] at there
          cases there
        | false => exact (above exhausted).trans_le ((ih sized').1 other there)
      refine ⟨fun other there => ?_,List.nodup_cons.mpr ⟨fun again => ?_,(ih sized').2⟩⟩
      · rcases List.mem_cons.mp there with rfl | there
        · exact value.ge
        · exact (later other there).le
      · exact (later nonce again).ne value.symm

end QuicZig.Lb.Nonces
