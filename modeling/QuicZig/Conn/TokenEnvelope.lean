import QuicZig.Library.BigEndian
import QuicZig.Library.Codec
import QuicZig.Machine

/-! The envelope that the two address-validation tokens share: a version, the times, and the bound fields,
each behind its length, padded to one size and sealed. -/
namespace QuicZig.Conn.TokenEnvelope
open Machine BigEndian Codec

def nonceLen : Nat := 12

def tagLen : Nat := 16

def tokenLen : Nat := 114

def plaintextLen : Nat := tokenLen-nonceLen-tagLen

/-- AES-GCM-256, under a domain separator as its associated data. -/
structure Aead where
  sealed (key : Fixed 32) (nonce : Fixed 12) (domainSeparator : String) (plain : List Byte) : Option (List Byte)
  opened (key : Fixed 32) (nonce : Fixed 12) (domainSeparator : String) (ciphertext : List Byte) : Option (List Byte)

/-- What was sealed opens, and the tag is all that it grows by. -/
structure Aead.Correct (aead : Aead) : Prop where
  opens {key : Fixed 32} {nonce : Fixed 12} {domainSeparator : String} {plain ciphertext : List Byte} :
    aead.sealed key nonce domainSeparator plain = some ciphertext →
      aead.opened key nonce domainSeparator ciphertext = some plain
  grows {key : Fixed 32} {nonce : Fixed 12} {domainSeparator : String} {plain ciphertext : List Byte} :
    aead.sealed key nonce domainSeparator plain = some ciphertext → ciphertext.length = plain.length+tagLen

structure Config where
  domainSeparator : String
  fieldCaps : List Nat
  byteCaps : ∀ cap ∈ fieldCaps, cap ≤ 255
  capsTotal : 4+8+8+fieldCaps.length+fieldCaps.sum ≤ plaintextLen

structure Header where
  quicVersion : Nat
  issuedAtUs : Nat
  expiresAtUs : Nat
  deriving DecidableEq, Repr

inductive Verdict where
  | valid | malformed | wrongVersion | notYetValid | expired | invalid
  deriving DecidableEq, Repr

inductive SealError where
  | aeadFailure | randFailure
  deriving DecidableEq, Repr

inductive ParseError where
  | truncatedField
  deriving DecidableEq, Repr

def lengthPrefixed (field : List Byte) : List Byte := UInt8.ofNat field.length::field

def header (quicVersion nowUs lifetimeUs : Nat) : List Byte :=
  bigEndian 4 quicVersion ++ bigEndian 8 nowUs ++ bigEndian 8 (saturatingAdd nowUs lifetimeUs)

def writePlaintext (quicVersion nowUs lifetimeUs : Nat) (fields : List (List Byte)) : List Byte :=
  let written := header quicVersion nowUs lifetimeUs ++ fields.flatMap lengthPrefixed
  written ++ List.replicate (plaintextLen-written.length) 0

def readLengthPrefixed (cap : Nat) : Parser ParseError (List Byte) := do
  let len ← Parser.byte .truncatedField
  if len.toNat > cap then Parser.fail .truncatedField
  else Parser.take .truncatedField len.toNat

def readFields : List Nat → Parser ParseError (List (List Byte))
  | [] => pure []
  | cap::rest => do
    let field ← readLengthPrefixed cap
    let later ← readFields rest
    pure (field::later)

/-- The padding behind the last field is not looked at. -/
def parsePlaintext (fieldCaps : List Nat) : Parser ParseError (Header × List (List Byte)) := do
  let version ← Parser.take .truncatedField 4
  let issued ← Parser.take .truncatedField 8
  let expires ← Parser.take .truncatedField 8
  let fields ← readFields fieldCaps
  pure ({quicVersion := ofBigEndian 0 version,issuedAtUs := ofBigEndian 0 issued,expiresAtUs := ofBigEndian 0 expires},fields)

def scratch (field : List Byte) : List Byte := field ++ List.replicate (plaintextLen-field.length) 0

/-- The comparison runs over copies of one size. -/
def equalCt (a b : List Byte) : Bool := decide (a.length = b.length) && decide (scratch a = scratch b)

namespace Config

def sealToken (c : Config) (aead : Aead) (rand : Option (Fixed 12)) (key : Fixed 32)
    (quicVersion nowUs lifetimeUs : Nat) (fields : List (List Byte)) : Except SealError (List Byte) :=
  match rand with
  | none => .error .randFailure
  | some nonce =>
    match aead.sealed key nonce c.domainSeparator (writePlaintext quicVersion nowUs lifetimeUs fields) with
    | none => .error .aeadFailure
    | some ciphertext => .ok (nonce.bytes ++ ciphertext)

/-- The ladder behind the parse. -/
def judge (header : Header) (fields : List (List Byte)) (quicVersion nowUs maxClockSkewUs : Nat)
    (expectedFields : List (List Byte)) : Verdict :=
  if header.quicVersion ≠ quicVersion then .wrongVersion
  else if saturatingAdd nowUs maxClockSkewUs < header.issuedAtUs then .notYetValid
  else if nowUs > saturatingAdd header.expiresAtUs maxClockSkewUs then .expired
  else if (fields.zip expectedFields).all (fun pair => equalCt pair.1 pair.2) then .valid
  else .invalid

def validate (c : Config) (aead : Aead) (token : List Byte) (key : Fixed 32) (quicVersion nowUs maxClockSkewUs : Nat)
    (expectedFields : List (List Byte)) : Verdict :=
  if size : token.length = tokenLen then
    match aead.opened key ⟨token.take nonceLen,by simp [size,nonceLen,tokenLen]⟩ c.domainSeparator
        (token.drop nonceLen) with
    | none => .malformed
    | some plain =>
      match (parsePlaintext c.fieldCaps).run plain with
      | .error _ => .malformed
      | .ok (header,fields) => judge header fields quicVersion nowUs maxClockSkewUs expectedFields
  else .malformed

end Config

abbrev Within (fieldCaps : List Nat) (fields : List (List Byte)) : Prop :=
  List.Forall₂ (fun field cap => field.length ≤ cap) fields fieldCaps

@[simp] theorem length_header (quicVersion nowUs lifetimeUs : Nat) : (header quicVersion nowUs lifetimeUs).length = 20 := by
  simp [header]

theorem length_fields {fieldCaps : List Nat} {fields : List (List Byte)} (within : Within fieldCaps fields) :
    (fields.flatMap lengthPrefixed).length ≤ fieldCaps.length+fieldCaps.sum := by
  induction within with
  | nil => simp
  | @cons field cap fields caps fits _ ih =>
    simp only [List.flatMap_cons,List.length_append,lengthPrefixed,List.length_cons,List.sum_cons]
    omega

theorem length_writePlaintext (c : Config) (quicVersion nowUs lifetimeUs : Nat) {fields : List (List Byte)}
    (within : Within c.fieldCaps fields) : (writePlaintext quicVersion nowUs lifetimeUs fields).length = plaintextLen := by
  have room := c.capsTotal
  have used := length_fields within
  simp only [writePlaintext,List.length_append,List.length_replicate,length_header]
  omega

theorem reads_lengthPrefixed {field : List Byte} {cap : Nat} (fits : field.length ≤ cap) (small : cap ≤ 255) :
    Reads Anything (readLengthPrefixed cap) (lengthPrefixed field) field := by
  have length : (UInt8.ofNat field.length).toNat = field.length := by
    rw [UInt8.toNat_ofNat']
    omega
  change Reads Anything (readLengthPrefixed cap) ([UInt8.ofNat field.length] ++ field) field
  apply (reads_byte _ (UInt8.ofNat field.length)).bind
  rw [length,if_neg (by omega)]
  exact reads_take _ rfl

theorem reads_fields {fieldCaps : List Nat} {fields : List (List Byte)} (small : ∀ cap ∈ fieldCaps, cap ≤ 255)
    (within : Within fieldCaps fields) : Reads Anything (readFields fieldCaps) (fields.flatMap lengthPrefixed) fields := by
  induction within with
  | nil => exact Reads.pure [] Anything
  | @cons field cap fields caps fits _ ih =>
    apply (reads_lengthPrefixed fits (small cap List.mem_cons_self)).bind
    intro rest after
    change (readFields caps >>= fun later => pure (field::later)) (fields.flatMap lengthPrefixed ++ rest) = _
    rw [bind_ok (ih (fun cap member => small cap (List.mem_cons_of_mem _ member)) rest after)]
    rfl

theorem parse_written (c : Config) {quicVersion nowUs lifetimeUs : Nat} {fields : List (List Byte)}
    (version : quicVersion < 2^32) (now : nowUs ≤ maxU64) (within : Within c.fieldCaps fields) :
    (parsePlaintext c.fieldCaps).run (writePlaintext quicVersion nowUs lifetimeUs fields) =
      .ok ({quicVersion := quicVersion,issuedAtUs := nowUs,expiresAtUs := saturatingAdd nowUs lifetimeUs},fields) := by
  have digits (length value : Nat) (small : value < 256^length) : ofBigEndian 0 (bigEndian length value) = value := by
    rw [ofBigEndian_bigEndian,Nat.zero_mul,Nat.zero_add,Nat.mod_eq_of_lt small]
  unfold Parser.run writePlaintext parsePlaintext header
  simp only [List.append_assoc]
  rw [bind_ok (reads_take _ (length_bigEndian 4 quicVersion) _ trivial),
    bind_ok (reads_take _ (length_bigEndian 8 nowUs) _ trivial),
    bind_ok (reads_take _ (length_bigEndian 8 (saturatingAdd nowUs lifetimeUs)) _ trivial),
    bind_ok (reads_fields c.byteCaps within _ trivial),digits 4 _ (by omega),digits 8 nowUs (by unfold maxU64 at now; omega),
    digits 8 (saturatingAdd nowUs lifetimeUs) (by unfold saturatingAdd maxU64; omega)]
  rfl

theorem equalCt_iff {a b : List Byte} : equalCt a b = true ↔ a = b := by
  unfold equalCt scratch
  rw [Bool.and_eq_true,decide_eq_true_eq,decide_eq_true_eq]
  constructor
  · intro same
    exact List.append_inj_left same.2 same.1
  · intro same
    subst same
    exact ⟨rfl,rfl⟩

theorem all_equalCt {fields expected : List (List Byte)} (size : fields.length = expected.length) :
    (fields.zip expected).all (fun pair => equalCt pair.1 pair.2) = true ↔ fields = expected := by
  induction fields generalizing expected with
  | nil =>
    cases expected with
    | nil => simp
    | cons => cases size
  | cons field fields ih =>
    cases expected with
    | nil => cases size
    | cons other expected =>
      rw [List.zip_cons_cons,List.all_cons,Bool.and_eq_true,equalCt_iff,ih (Nat.succ.inj size),List.cons.injEq]

namespace Config

/-- What a token has to say to be judged valid. -/
structure Agrees (header : Header) (fields : List (List Byte)) (quicVersion nowUs maxClockSkewUs : Nat)
    (expectedFields : List (List Byte)) : Prop where
  version : header.quicVersion = quicVersion
  begun : header.issuedAtUs ≤ saturatingAdd nowUs maxClockSkewUs
  running : nowUs ≤ saturatingAdd header.expiresAtUs maxClockSkewUs
  fields : fields = expectedFields

theorem judge_valid {header : Header} {fields : List (List Byte)} {quicVersion nowUs maxClockSkewUs : Nat}
    {expectedFields : List (List Byte)} (size : fields.length = expectedFields.length) :
    judge header fields quicVersion nowUs maxClockSkewUs expectedFields = .valid ↔
      Agrees header fields quicVersion nowUs maxClockSkewUs expectedFields := by
  unfold judge
  constructor
  · intro valid
    split_ifs at valid with version begun running same
    exact ⟨by simpa using version,by omega,by omega,(all_equalCt size).mp same⟩
  · intro agrees
    rw [if_neg (by simpa using agrees.version),if_neg (by have := agrees.begun; omega),
      if_neg (by have := agrees.running; omega),if_pos ((all_equalCt size).mpr agrees.fields)]

theorem sealToken_inv {c : Config} {aead : Aead} {rand : Option (Fixed 12)} {key : Fixed 32}
    {quicVersion nowUs lifetimeUs : Nat} {fields : List (List Byte)} {token : List Byte}
    (minted : c.sealToken aead rand key quicVersion nowUs lifetimeUs fields = .ok token) : ∃ nonce ciphertext,
      rand = some nonce ∧ token = nonce.bytes ++ ciphertext ∧ aead.sealed key nonce c.domainSeparator
        (writePlaintext quicVersion nowUs lifetimeUs fields) = some ciphertext := by
  unfold sealToken at minted
  cases rand with
  | none => cases minted
  | some nonce =>
    dsimp only at minted
    split at minted
    · cases minted
    · rename_i ciphertext made
      cases minted
      exact ⟨nonce,ciphertext,rfl,rfl,made⟩

def plaintext? (c : Config) (aead : Aead) (token : List Byte) (key : Fixed 32) : Option (List Byte) :=
  if size : token.length = tokenLen then
    aead.opened key ⟨token.take nonceLen,by simp [size,nonceLen,tokenLen]⟩ c.domainSeparator (token.drop nonceLen)
  else none

theorem plaintext_sealed {c : Config} {aead : Aead} (correct : aead.Correct) {rand : Option (Fixed 12)} {key : Fixed 32}
    {quicVersion nowUs lifetimeUs : Nat} {fields : List (List Byte)} {token : List Byte} (within : Within c.fieldCaps fields)
    (minted : c.sealToken aead rand key quicVersion nowUs lifetimeUs fields = .ok token) :
    token.length = tokenLen ∧ c.plaintext? aead token key = some (writePlaintext quicVersion nowUs lifetimeUs fields) := by
  obtain ⟨nonce,ciphertext,-,rfl,made⟩ := sealToken_inv minted
  have grown := correct.grows made
  have size : (nonce.bytes ++ ciphertext).length = tokenLen := by
    rw [List.length_append,nonce.exact,grown,length_writePlaintext c _ _ _ within]
    rfl
  have front : (nonce.bytes ++ ciphertext).take nonceLen = nonce.bytes := List.take_left' nonce.exact
  have back : (nonce.bytes ++ ciphertext).drop nonceLen = ciphertext := List.drop_left' nonce.exact
  refine ⟨size,?_⟩
  unfold plaintext?
  rw [dif_pos size]
  simp only [front,back]
  exact correct.opens made

theorem validate_opened {c : Config} {aead : Aead} {token : List Byte} {key : Fixed 32} {header : Header}
    {fields : List (List Byte)} {plain : List Byte} (opens : c.plaintext? aead token key = some plain)
    (parsed : (parsePlaintext c.fieldCaps).run plain = .ok (header,fields)) (quicVersion nowUs maxClockSkewUs : Nat)
    (expectedFields : List (List Byte)) : c.validate aead token key quicVersion nowUs maxClockSkewUs expectedFields =
      judge header fields quicVersion nowUs maxClockSkewUs expectedFields := by
  unfold plaintext? at opens
  unfold validate
  split at opens
  · rename_i size
    rw [dif_pos size,opens]
    dsimp only
    rw [parsed]
  · cases opens

theorem validate_sealed {c : Config} {aead : Aead} (correct : aead.Correct) {rand : Option (Fixed 12)} {key : Fixed 32}
    {quicVersion nowUs lifetimeUs : Nat} {fields : List (List Byte)} {token : List Byte} (version : quicVersion < 2^32)
    (now : nowUs ≤ maxU64) (within : Within c.fieldCaps fields)
    (minted : c.sealToken aead rand key quicVersion nowUs lifetimeUs fields = .ok token)
    (atVersion atUs maxClockSkewUs : Nat) {expectedFields : List (List Byte)} (size : fields.length = expectedFields.length) :
    c.validate aead token key atVersion atUs maxClockSkewUs expectedFields = .valid ↔
      Agrees {quicVersion := quicVersion,issuedAtUs := nowUs,expiresAtUs := saturatingAdd nowUs lifetimeUs} fields
        atVersion atUs maxClockSkewUs expectedFields := by
  rw [validate_opened (plaintext_sealed correct within minted).2 (parse_written c version now within)]
  exact judge_valid size

theorem validate_opens {c : Config} {aead : Aead} {token : List Byte} {key : Fixed 32}
    {quicVersion nowUs maxClockSkewUs : Nat} {expectedFields : List (List Byte)}
    (valid : c.validate aead token key quicVersion nowUs maxClockSkewUs expectedFields = .valid) :
    c.plaintext? aead token key ≠ none := by
  unfold validate at valid
  unfold plaintext?
  split at valid
  · rename_i size
    rw [dif_pos size]
    intro closed
    rw [closed] at valid
    cases valid
  · cases valid

end Config

end QuicZig.Conn.TokenEnvelope
