import QuicZig.Conn.TokenEnvelope
import QuicZig.Wire.Header

/-! The two tokens that validate an address: the Retry token, bound to one Retry, and NEW_TOKEN. -/
namespace QuicZig.Conn.AddressToken
open Machine BigEndian Codec Wire TokenEnvelope

instance sixteenBits : NeZero (2^16) := ⟨by decide⟩

inductive Address where
  | unspecified
  | ipv4 (addr : Fixed 4) (port : Fin (2^16))
  | ipv6 (addr : Fixed 16) (port : Fin (2^16)) (flow : Fin (2^32))
  deriving DecidableEq

namespace Address

def contextMaxLen : Nat := 23

def writeContext : Address → List Byte
  | .unspecified => [0]
  | .ipv4 addr port => 4::(addr.bytes ++ bigEndian 2 port)
  | .ipv6 addr port flow => 6::(addr.bytes ++ (bigEndian 2 port ++ bigEndian 4 flow))

theorem writeContext_le (a : Address) : a.writeContext.length ≤ contextMaxLen := by
  cases a with
  | unspecified => decide
  | ipv4 addr port => simp [writeContext,addr.exact,contextMaxLen]
  | ipv6 addr port flow => simp [writeContext,addr.exact,contextMaxLen]

theorem writeContext_inj {a b : Address} (same : a.writeContext = b.writeContext) : a = b := by
  have fixed {size : Nat} {x y : Fixed size} (h : x.bytes = y.bytes) : x = y := by
    cases x
    cases y
    cases h
    rfl
  have digits {length n m : Nat} (n_lt : n < 256^length) (m_lt : m < 256^length) (h : bigEndian length n = bigEndian length m) :
      n = m := by
    have back := congrArg (ofBigEndian 0) h
    rwa [ofBigEndian_bigEndian,ofBigEndian_bigEndian,Nat.mod_eq_of_lt n_lt,Nat.mod_eq_of_lt m_lt,Nat.zero_mul,Nat.zero_add,
      Nat.zero_add] at back
  cases a with
  | unspecified => cases b <;> first | rfl | cases same
  | ipv4 addr port =>
    cases b with
    | ipv4 addr' port' =>
      obtain ⟨host,ports⟩ := List.append_inj (List.cons.inj same).2 (addr.exact.trans addr'.exact.symm)
      rw [fixed host,Fin.ext (digits port.isLt port'.isLt ports)]
    | _ => cases same
  | ipv6 addr port flow =>
    cases b with
    | ipv6 addr' port' flow' =>
      obtain ⟨host,rest⟩ := List.append_inj (List.cons.inj same).2 (addr.exact.trans addr'.exact.symm)
      obtain ⟨ports,flows⟩ := List.append_inj rest (by simp)
      rw [fixed host,Fin.ext (digits port.isLt port'.isLt ports),Fin.ext (digits flow.isLt flow'.isLt flows)]
    | _ => cases same

end Address

inductive TokenError where
  | outputTooSmall | contextTooLong | dcidTooLong | aeadFailure | randFailure
  deriving DecidableEq, Repr

def TokenError.ofSeal : SealError → TokenError
  | .aeadFailure => .aeadFailure
  | .randFailure => .randFailure

namespace RetryToken

def env : Config where
  domainSeparator := "quic retry token v3"
  fieldCaps := [Address.contextMaxLen,maxCidLen,maxCidLen]
  byteCaps := by decide
  capsTotal := by decide

structure MintOptions where
  key : Fixed 32
  nowUs : Nat
  lifetimeUs : Nat
  clientAddress : List Byte
  originalDcid : List Byte
  retryScid : List Byte
  quicVersion : Nat := 0x00000001

structure ValidateOptions where
  key : Fixed 32
  nowUs : Nat
  clientAddress : List Byte
  originalDcid : List Byte
  retryScid : List Byte
  quicVersion : Nat := 0x00000001
  maxClockSkewUs : Nat := 0

def validateBoundInputs (clientAddress originalDcid retryScid : List Byte) : Except TokenError Unit :=
  if clientAddress.length > Address.contextMaxLen then .error .contextTooLong
  else if originalDcid.length > maxCidLen then .error .dcidTooLong
  else if retryScid.length > maxCidLen then .error .dcidTooLong
  else .ok ()

def mint (aead : Aead) (rand : Option (Fixed 12)) (room : Nat) (opts : MintOptions) : Except TokenError (List Byte) :=
  if room < tokenLen then .error .outputTooSmall
  else do
    validateBoundInputs opts.clientAddress opts.originalDcid opts.retryScid
    (env.sealToken aead rand opts.key opts.quicVersion opts.nowUs opts.lifetimeUs
      [opts.clientAddress,opts.originalDcid,opts.retryScid]).mapError .ofSeal

def validate (aead : Aead) (token : List Byte) (opts : ValidateOptions) : Verdict :=
  match validateBoundInputs opts.clientAddress opts.originalDcid opts.retryScid with
  | .error _ => .malformed
  | .ok () => env.validate aead token opts.key opts.quicVersion opts.nowUs opts.maxClockSkewUs
      [opts.clientAddress,opts.originalDcid,opts.retryScid]

end RetryToken

namespace NewToken

def env : Config where
  domainSeparator := "quic new_token v2"
  fieldCaps := [Address.contextMaxLen]
  byteCaps := by decide
  capsTotal := by decide

structure MintOptions where
  key : Fixed 32
  nowUs : Nat
  lifetimeUs : Nat
  clientAddress : List Byte
  quicVersion : Nat := 0x00000001

structure ValidateOptions where
  key : Fixed 32
  nowUs : Nat
  clientAddress : List Byte
  quicVersion : Nat := 0x00000001
  maxClockSkewUs : Nat := 0

def validateBoundInputs (clientAddress : List Byte) : Except TokenError Unit :=
  if clientAddress.length > Address.contextMaxLen then .error .contextTooLong else .ok ()

def mint (aead : Aead) (rand : Option (Fixed 12)) (room : Nat) (opts : MintOptions) : Except TokenError (List Byte) :=
  if room < tokenLen then .error .outputTooSmall
  else do
    validateBoundInputs opts.clientAddress
    (env.sealToken aead rand opts.key opts.quicVersion opts.nowUs opts.lifetimeUs [opts.clientAddress]).mapError .ofSeal

def validate (aead : Aead) (token : List Byte) (opts : ValidateOptions) : Verdict :=
  match validateBoundInputs opts.clientAddress with
  | .error _ => .malformed
  | .ok () => env.validate aead token opts.key opts.quicVersion opts.nowUs opts.maxClockSkewUs [opts.clientAddress]

end NewToken

namespace RetryToken

theorem bound_iff {clientAddress originalDcid retryScid : List Byte} :
    validateBoundInputs clientAddress originalDcid retryScid = .ok () ↔
      Within env.fieldCaps [clientAddress,originalDcid,retryScid] := by
  unfold validateBoundInputs
  constructor
  · intro ok
    split_ifs at ok with context dcid scid
    exact .cons (by omega) (.cons (by omega) (.cons (by omega) .nil))
  · intro within
    obtain ⟨context,dcid,scid⟩ : clientAddress.length ≤ Address.contextMaxLen ∧ originalDcid.length ≤ maxCidLen ∧
        retryScid.length ≤ maxCidLen := by
      cases within with
      | cons first later =>
        cases later with
        | cons second later =>
          cases later with
          | cons third _ => exact ⟨first,second,third⟩
    rw [if_neg (by omega),if_neg (by omega),if_neg (by omega)]

theorem mint_inv {aead : Aead} {rand : Option (Fixed 12)} {room : Nat} {opts : MintOptions} {token : List Byte}
    (minted : mint aead rand room opts = .ok token) :
    Within env.fieldCaps [opts.clientAddress,opts.originalDcid,opts.retryScid] ∧
      env.sealToken aead rand opts.key opts.quicVersion opts.nowUs opts.lifetimeUs
        [opts.clientAddress,opts.originalDcid,opts.retryScid] = .ok token := by
  unfold mint at minted
  split at minted
  · cases minted
  · change (validateBoundInputs _ _ _).bind _ = _ at minted
    cases bound : validateBoundInputs opts.clientAddress opts.originalDcid opts.retryScid with
    | error e =>
      rw [bound] at minted
      cases minted
    | ok =>
      rw [bound] at minted
      refine ⟨bound_iff.mp bound,?_⟩
      change Except.mapError TokenError.ofSeal _ = _ at minted
      cases made : env.sealToken aead rand opts.key opts.quicVersion opts.nowUs opts.lifetimeUs
          [opts.clientAddress,opts.originalDcid,opts.retryScid] with
      | error e =>
        rw [made] at minted
        cases minted
      | ok sealed =>
        rw [made] at minted
        cases minted
        rfl

theorem validate_within {aead : Aead} {token : List Byte} {opts : ValidateOptions}
    (within : Within env.fieldCaps [opts.clientAddress,opts.originalDcid,opts.retryScid]) :
    validate aead token opts = env.validate aead token opts.key opts.quicVersion opts.nowUs opts.maxClockSkewUs
      [opts.clientAddress,opts.originalDcid,opts.retryScid] := by
  unfold validate
  rw [bound_iff.mpr within]

theorem validate_minted {aead : Aead} (correct : aead.Correct) {rand : Option (Fixed 12)} {room : Nat} {opts : MintOptions}
    {token : List Byte} (version : opts.quicVersion < 2^32) (now : opts.nowUs ≤ maxU64)
    (minted : mint aead rand room opts = .ok token) {expected : ValidateOptions} (key : expected.key = opts.key)
    (within : Within env.fieldCaps [expected.clientAddress,expected.originalDcid,expected.retryScid]) :
    validate aead token expected = .valid ↔ opts.quicVersion = expected.quicVersion ∧
      opts.nowUs ≤ saturatingAdd expected.nowUs expected.maxClockSkewUs ∧
      expected.nowUs ≤ saturatingAdd (saturatingAdd opts.nowUs opts.lifetimeUs) expected.maxClockSkewUs ∧
      opts.clientAddress = expected.clientAddress ∧ opts.originalDcid = expected.originalDcid ∧
      opts.retryScid = expected.retryScid := by
  obtain ⟨caps,sealed⟩ := mint_inv minted
  have size : [opts.clientAddress,opts.originalDcid,opts.retryScid].length =
      [expected.clientAddress,expected.originalDcid,expected.retryScid].length := rfl
  rw [validate_within within,key,Config.validate_sealed correct version now caps sealed _ _ _ size]
  constructor
  · intro agrees
    have fields := agrees.fields
    simp only [List.cons.injEq,and_true] at fields
    exact ⟨agrees.version,agrees.begun,agrees.running,fields⟩
  · rintro ⟨same,begun,running,context,dcid,scid⟩
    exact ⟨same,begun,running,by rw [context,dcid,scid]⟩

theorem validate_opens {aead : Aead} {token : List Byte} {opts : ValidateOptions} (valid : validate aead token opts = .valid) :
    env.plaintext? aead token opts.key ≠ none := by
  unfold validate at valid
  split at valid
  · cases valid
  · exact Config.validate_opens valid

end RetryToken

end QuicZig.Conn.AddressToken
