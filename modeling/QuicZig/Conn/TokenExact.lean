import QuicZig.Conn.AddressToken

/-! Both token formats on an ideal AEAD: what is minted fits, is valid for exactly what it was minted with, and only in its own
format. The reads of `validate` are followed byte by byte, on arbitrary tokens. -/
namespace QuicZig.Conn.TokenEnvelope
open Machine BigEndian Codec

/-! Reads by position. `none` is a trap: an index or a slice outside the bytes. -/

/-- The field at `pos`, and the position behind it. -/
def readLengthPrefixed? (pt : List Byte) (pos cap : Nat) : Option (Except ParseError (List Byte × Nat)) :=
  if pos+1 > pt.length then some (.error .truncatedField)
  else do
    let len ← pt[pos]?
    let pos := pos+1
    if len.toNat > cap then some (.error .truncatedField)
    else if pos+len.toNat > pt.length then some (.error .truncatedField)
    else do
      let field ← slice? pt pos (pos+len.toNat)
      some (.ok (field,pos+len.toNat))

def readFields? (pt : List Byte) : List Nat → Nat → Option (Except ParseError (List (List Byte)))
  | [],_ => some (.ok [])
  | cap::caps,pos => do
    match ← readLengthPrefixed? pt pos cap with
    | .error e => some (.error e)
    | .ok (field,pos) =>
      match ← readFields? pt caps pos with
      | .error e => some (.error e)
      | .ok later => some (.ok (field::later))

def parsePlaintext? (fieldCaps : List Nat) (pt : List Byte) : Option (Except ParseError (Header × List (List Byte))) := do
  let version ← slice? pt 0 4
  let issued ← slice? pt 4 12
  let expires ← slice? pt 12 20
  match ← readFields? pt fieldCaps 20 with
  | .error e => some (.error e)
  | .ok fields =>
    some (.ok ({quicVersion := ofBigEndian 0 version,issuedAtUs := ofBigEndian 0 issued,expiresAtUs := ofBigEndian 0 expires},fields))

/-- The copies go into blocks of the size of the plaintext. -/
def equalCt? (a b : List Byte) : Option Bool :=
  if a.length ≠ b.length then some false
  else if a.length > plaintextLen then none
  else some (decide (scratch a = scratch b))

/-- The loop that compares the fields. -/
def compare? : List (List Byte × List Byte) → Option Bool
  | [] => some true
  | (got,expected)::rest => do
    if ← equalCt? got expected then compare? rest else some false

namespace Config

/-- `validate` with its reads; the length that the AEAD reports is asserted. -/
def validate? (c : Config) (aead : Aead) (token : List Byte) (key : Fixed 32) (quicVersion nowUs maxClockSkewUs : Nat)
    (expectedFields : List (List Byte)) : Option Verdict :=
  if token.length ≠ tokenLen then some .malformed
  else do
    let nonce ← slice? token 0 nonceLen
    let ciphertext ← slice? token nonceLen tokenLen
    if size : nonce.length = 12 then
      match aead.opened key ⟨nonce,size⟩ c.domainSeparator ciphertext with
      | none => some .malformed
      | some pt =>
        if pt.length ≠ plaintextLen then none
        else
          match ← parsePlaintext? c.fieldCaps pt with
          | .error _ => some .malformed
          | .ok (header,fields) =>
            if header.quicVersion ≠ quicVersion then some .wrongVersion
            else if saturatingAdd nowUs maxClockSkewUs < header.issuedAtUs then some .notYetValid
            else if nowUs > saturatingAdd header.expiresAtUs maxClockSkewUs then some .expired
            else do
              if ← compare? (fields.zip expectedFields) then some .valid else some .invalid
    else none

end Config

/-- The AEAD of the library: nothing but a lack of memory makes it fail to seal, and the tag is all that a ciphertext has over
its plaintext. -/
structure Aead.Lawful (aead : Aead) : Prop extends aead.Correct where
  seals (key : Fixed 32) (nonce : Fixed 12) (domainSeparator : String) (plain : List Byte) :
    (aead.sealed key nonce domainSeparator plain).isSome = true
  shrinks {key : Fixed 32} {nonce : Fixed 12} {domainSeparator : String} {plain ciphertext : List Byte} :
    aead.opened key nonce domainSeparator ciphertext = some plain → ciphertext.length = plain.length+tagLen

def Aead.Binds (aead : Aead) (key : Fixed 32) (nonce : Fixed 12) (domainSeparator : String) (ciphertext : List Byte) :
    Prop :=
  ∀ key' nonce' domainSeparator', aead.opened key' nonce' domainSeparator' ciphertext ≠ none →
    key' = key ∧ nonce' = nonce ∧ domainSeparator' = domainSeparator

theorem slice?_within {bytes : List Byte} {start stop : Nat} (ordered : start ≤ stop) (within : stop ≤ bytes.length) :
    slice? bytes start stop = some ((bytes.drop start).take (stop-start)) := by
  unfold slice?
  rw [if_pos ⟨ordered,within⟩,List.drop_take]

section
variable (pt : List Byte)

theorem readLengthPrefixed?_cases (cap : Nat) {pos : Nat} (within : pos ≤ pt.length) :
    (∃ e, readLengthPrefixed? pt pos cap = some (.error e) ∧ readLengthPrefixed cap (pt.drop pos) = .error e) ∨
      ∃ field pos', readLengthPrefixed? pt pos cap = some (.ok (field,pos')) ∧
        readLengthPrefixed cap (pt.drop pos) = .ok (field,pt.drop pos') ∧ pos' ≤ pt.length ∧ field.length ≤ pt.length := by
  unfold readLengthPrefixed?
  by_cases short : pos+1 > pt.length
  · have none : pt.drop pos = [] := List.drop_eq_nil_of_le (by omega)
    rw [if_pos short,none]
    exact .inl ⟨_,rfl,rfl⟩
  rw [if_neg short,List.getElem?_eq_getElem (by omega),List.drop_eq_getElem_cons (by omega)]
  generalize pt[pos] = len
  have read : readLengthPrefixed cap (len::pt.drop (pos+1)) =
      (if len.toNat > cap then Parser.fail .truncatedField else Parser.take .truncatedField len.toNat)
        (pt.drop (pos+1)) := rfl
  rw [read]
  dsimp only [Option.bind_eq_bind,Option.bind_some]
  by_cases beyond : len.toNat > cap
  · rw [if_pos beyond,if_pos beyond]
    exact .inl ⟨_,rfl,rfl⟩
  rw [if_neg beyond,if_neg beyond]
  have left : (pt.drop (pos+1)).length = pt.length-(pos+1) := List.length_drop ..
  unfold Parser.take
  by_cases past : pos+1+len.toNat > pt.length
  · rw [if_pos past,if_pos (by omega)]
    exact .inl ⟨_,rfl,rfl⟩
  · rw [if_neg past,if_neg (by omega),slice?_within (by omega) (by omega),List.drop_drop,Nat.add_sub_cancel_left]
    refine .inr ⟨_,_,rfl,rfl,by omega,?_⟩
    rw [List.length_take]
    omega

theorem bind_error {ε α β : Type} {p : Parser ε α} {next : α → Parser ε β} {s : List Byte} {e : ε} (read : p s = .error e) :
    (p >>= next) s = .error e := by
  simp only [bind,read]

theorem readFields?_cases (caps : List Nat) {pos : Nat} (within : pos ≤ pt.length) :
    (∃ e, readFields? pt caps pos = some (.error e) ∧ readFields caps (pt.drop pos) = .error e) ∨
      ∃ fields rest, readFields? pt caps pos = some (.ok fields) ∧ readFields caps (pt.drop pos) = .ok (fields,rest) ∧
        ∀ field ∈ fields, field.length ≤ pt.length := by
  induction caps generalizing pos with
  | nil => exact .inr ⟨[],_,rfl,rfl,by simp⟩
  | cons cap caps ih =>
    rw [readFields?,readFields]
    rcases readLengthPrefixed?_cases pt cap within with ⟨e,here,parsed⟩ | ⟨field,pos',here,parsed,within',short⟩
    · rw [here,bind_error parsed]
      exact .inl ⟨e,rfl,rfl⟩
    · rw [here,bind_ok parsed]
      dsimp only [Option.bind_eq_bind,Option.bind_some]
      rcases ih within' with ⟨e,later,parsed⟩ | ⟨fields,rest,later,parsed,all⟩
      · rw [later,bind_error parsed]
        exact .inl ⟨e,rfl,rfl⟩
      · rw [later,bind_ok parsed]
        exact .inr ⟨field::fields,rest,rfl,rfl,List.forall_mem_cons.mpr ⟨short,all⟩⟩

theorem parsePlaintext?_eq (fieldCaps : List Nat) (size : pt.length = plaintextLen) :
    parsePlaintext? fieldCaps pt = some ((parsePlaintext fieldCaps).run pt) ∧
      ∀ header fields, (parsePlaintext fieldCaps).run pt = .ok
      (header,fields) → ∀ field ∈ fields, field.length ≤ plaintextLen := by
  have full : pt.length = 86 := size
  have parts : pt = pt.take 4 ++ ((pt.drop 4).take 8 ++ ((pt.drop 12).take 8 ++ pt.drop 20)) := by
    have first : (pt.drop 12).take 8 ++ pt.drop 20 = pt.drop 12 := by
      have next : pt.drop 20 = (pt.drop 12).drop 8 := by rw [List.drop_drop]
      rw [next,List.take_append_drop]
    have second : (pt.drop 4).take 8 ++ pt.drop 12 = pt.drop 4 := by
      have next : pt.drop 12 = (pt.drop 4).drop 8 := by rw [List.drop_drop]
      rw [next,List.take_append_drop]
    rw [first,second,List.take_append_drop]
  have parsed (result : Except ParseError (List (List Byte) × List Byte)) (read : readFields fieldCaps (pt.drop 20) =
    result) :
      (parsePlaintext fieldCaps).run pt = result.map fun fields => ({
        quicVersion := ofBigEndian 0 (pt.take 4)
        issuedAtUs := ofBigEndian 0 ((pt.drop 4).take 8)
        expiresAtUs := ofBigEndian 0 ((pt.drop 12).take 8)},fields.1) := by
    have four : (pt.take 4).length = 4 := by simp [full]
    have eight : ((pt.drop 4).take 8).length = 8 := by simp [full]
    have later : ((pt.drop 12).take 8).length = 8 := by simp [full]
    generalize pt.take 4 = version at *
    generalize (pt.drop 4).take 8 = issued at *
    generalize (pt.drop 12).take 8 = expires at *
    generalize pt.drop 20 = rest at *
    unfold Parser.run parsePlaintext
    rw [parts,bind_ok (reads_take _ four _ trivial),bind_ok (reads_take _ eight _ trivial),bind_ok
      (reads_take _ later _ trivial)]
    cases result with
    | error e =>
      rw [bind_error read]
      rfl
    | ok fields =>
      rw [bind_ok read]
      rfl
  unfold parsePlaintext?
  rw [slice?_within (by omega) (by omega),slice?_within (by omega) (by omega),slice?_within (by omega) (by omega)]
  dsimp only [Option.bind_eq_bind,Option.bind_some]
  rcases readFields?_cases pt fieldCaps (by omega : 20 ≤ pt.length) with ⟨e,here,read⟩ | ⟨fields,rest,here,read,all⟩
  · rw [here,parsed _ read]
    exact ⟨rfl,fun _ _ same => by cases same⟩
  · rw [here,parsed _ read]
    refine ⟨rfl,?_⟩
    intro header others same
    cases same
    exact size ▸ all

end

theorem compare?_eq {pairs : List (List Byte × List Byte)} (short : ∀ pair ∈ pairs, pair.1.length ≤ plaintextLen) :
    compare? pairs = some (pairs.all fun pair => equalCt pair.1 pair.2) := by
  induction pairs with
  | nil => rfl
  | cons pair rest ih =>
    have one : equalCt? pair.1 pair.2 = some (equalCt pair.1 pair.2) := by
      unfold equalCt? equalCt
      by_cases same : pair.1.length = pair.2.length
      · rw [if_neg (fun other => other same),if_neg (Nat.not_lt.mpr (short pair List.mem_cons_self)),decide_eq_true
          same,Bool.true_and]
      · rw [if_pos same,decide_eq_false same,Bool.false_and]
    rw [compare?,one,List.all_cons]
    dsimp only [Option.bind_eq_bind,Option.bind_some]
    cases equalCt pair.1 pair.2 with
    | true => exact ih fun other member => short other (List.mem_cons_of_mem _ member)
    | false => rfl

namespace Config

/-- On any bytes whatever, no read leaves the token or the opened plaintext. -/
theorem validate?_eq (c : Config) {aead : Aead} (lawful : aead.Lawful) (token : List Byte) (key : Fixed 32)
    (quicVersion nowUs maxClockSkewUs : Nat) (expectedFields : List (List Byte)) :
    c.validate? aead token key quicVersion nowUs maxClockSkewUs expectedFields =
      some (c.validate aead token key quicVersion nowUs maxClockSkewUs expectedFields) := by
  unfold validate? validate
  by_cases size : token.length = tokenLen
  · have length : token.length = 114 := size
    rw [if_neg (fun other => other size),dif_pos size,slice?_within (Nat.zero_le _) (by rw [length]; decide),
      slice?_within (by decide) (Nat.le_of_eq size.symm)]
    dsimp only [Option.bind_eq_bind,Option.bind_some]
    have front : (token.drop 0).take (nonceLen-0) = token.take nonceLen := rfl
    have back : (token.drop nonceLen).take (tokenLen-nonceLen) = token.drop nonceLen :=
      List.take_of_length_le (by rw [List.length_drop,size])
    have twelve : (token.take nonceLen).length = 12 := by simp [length,nonceLen]
    simp only [front,back]
    rw [dif_pos twelve]
    cases opened : aead.opened key ⟨token.take nonceLen,twelve⟩ c.domainSeparator (token.drop nonceLen) with
    | none => rfl
    | some pt =>
      have grown := lawful.shrinks opened
      have full : pt.length = plaintextLen := by
        rw [List.length_drop,size] at grown
        unfold tokenLen nonceLen tagLen at grown
        unfold plaintextLen tokenLen nonceLen tagLen
        omega
      obtain ⟨read,short⟩ := parsePlaintext?_eq pt c.fieldCaps full
      dsimp only
      rw [if_neg (fun other => other full),read]
      cases parsed : (parsePlaintext c.fieldCaps).run pt with
      | error e => rfl
      | ok result =>
        obtain ⟨header,fields⟩ := result
        have compared : compare? (fields.zip expectedFields) = _ := compare?_eq
          fun pair member => short header fields parsed pair.1 (List.of_mem_zip member).1
        dsimp only [Option.bind_some]
        rw [compared]
        unfold judge
        dsimp only [Option.bind_some]
        split
        · rfl
        split
        · rfl
        split
        · rfl
        split <;> rfl
  · rw [if_pos size,dif_neg size]

theorem validate_binds {c : Config} {aead : Aead} {token : List Byte} {key key' : Fixed 32} {nonce : Fixed 12}
    {domainSeparator : String} (binds : aead.Binds key nonce domainSeparator (token.drop nonceLen))
    {quicVersion nowUs maxClockSkewUs : Nat} {expectedFields : List (List Byte)}
    (valid : c.validate aead token key' quicVersion nowUs maxClockSkewUs expectedFields = .valid) :
    key' = key ∧ c.domainSeparator = domainSeparator := by
  have opens := validate_opens valid
  unfold plaintext? at opens
  split at opens
  · obtain ⟨same,-,separator⟩ := binds _ _ _ opens
    exact ⟨same,separator⟩
  · exact absurd rfl opens

theorem sealToken_lawful (c : Config) {aead : Aead} (lawful : aead.Lawful) (nonce : Fixed 12) (key : Fixed 32)
    (quicVersion nowUs lifetimeUs : Nat) (fields : List (List Byte)) :
    ∃ token, c.sealToken aead (some nonce) key quicVersion nowUs lifetimeUs fields = .ok token := by
  obtain ⟨ciphertext,made⟩ := Option.isSome_iff_exists.mp
    (lawful.seals key nonce c.domainSeparator (writePlaintext quicVersion nowUs lifetimeUs fields))
  unfold sealToken
  dsimp only
  rw [made]
  exact ⟨_,rfl⟩

end Config

end QuicZig.Conn.TokenEnvelope

namespace QuicZig.Conn.AddressToken
open Machine Codec Wire TokenEnvelope

/-- The time of a token: it may be used a skew before it was issued, and a skew after its lifetime. -/
abbrev InTime (issuedUs lifetimeUs nowUs maxClockSkewUs : Nat) : Prop :=
  issuedUs-maxClockSkewUs ≤ nowUs ∧ nowUs ≤ saturatingAdd (saturatingAdd issuedUs lifetimeUs) maxClockSkewUs

theorem begun_iff {issuedUs nowUs maxClockSkewUs : Nat} (issued : issuedUs ≤ maxU64) :
    issuedUs ≤ saturatingAdd nowUs maxClockSkewUs ↔ issuedUs-maxClockSkewUs ≤ nowUs := by
  unfold saturatingAdd
  omega

namespace RetryToken

def Meets (minted : MintOptions) (expected : ValidateOptions) : Prop :=
  expected.key = minted.key ∧ expected.quicVersion = minted.quicVersion ∧
    InTime minted.nowUs minted.lifetimeUs expected.nowUs expected.maxClockSkewUs ∧ expected.clientAddress =
      minted.clientAddress ∧
    expected.originalDcid = minted.originalDcid ∧ expected.retryScid = minted.retryScid

def validate? (aead : Aead) (token : List Byte) (opts : ValidateOptions) : Option Verdict :=
  match validateBoundInputs opts.clientAddress opts.originalDcid opts.retryScid with
  | .error _ => some .malformed
  | .ok () => env.validate? aead token opts.key opts.quicVersion opts.nowUs opts.maxClockSkewUs
      [opts.clientAddress,opts.originalDcid,opts.retryScid]

theorem validate?_eq {aead : Aead} (lawful : aead.Lawful) (token : List Byte) (opts : ValidateOptions) :
    validate? aead token opts = some (validate aead token opts) := by
  unfold validate? validate
  cases validateBoundInputs opts.clientAddress opts.originalDcid opts.retryScid with
  | error e => rfl
  | ok => exact env.validate?_eq lawful token _ _ _ _ _

theorem mint_within {aead : Aead} (lawful : aead.Lawful) (nonce : Fixed 12) {room : Nat} (enough : tokenLen ≤ room)
    {opts : MintOptions} (within : Within env.fieldCaps [opts.clientAddress,opts.originalDcid,opts.retryScid]) :
    ∃ token, mint aead (some nonce) room opts = .ok token := by
  obtain ⟨token,made⟩ := env.sealToken_lawful lawful nonce opts.key opts.quicVersion opts.nowUs opts.lifetimeUs
    [opts.clientAddress,opts.originalDcid,opts.retryScid]
  refine ⟨token,?_⟩
  unfold mint
  rw [if_neg (Nat.not_lt.mpr enough),bound_iff.mpr within,made]
  rfl

end RetryToken

namespace NewToken

def Meets (minted : MintOptions) (expected : ValidateOptions) : Prop :=
  expected.key = minted.key ∧ expected.quicVersion = minted.quicVersion ∧
    InTime minted.nowUs minted.lifetimeUs expected.nowUs expected.maxClockSkewUs ∧ expected.clientAddress =
      minted.clientAddress

def validate? (aead : Aead) (token : List Byte) (opts : ValidateOptions) : Option Verdict :=
  match validateBoundInputs opts.clientAddress with
  | .error _ => some .malformed
  | .ok () => env.validate? aead token opts.key opts.quicVersion opts.nowUs opts.maxClockSkewUs [opts.clientAddress]

theorem validate?_eq {aead : Aead} (lawful : aead.Lawful) (token : List Byte) (opts : ValidateOptions) :
    validate? aead token opts = some (validate aead token opts) := by
  unfold validate? validate
  cases validateBoundInputs opts.clientAddress with
  | error e => rfl
  | ok => exact env.validate?_eq lawful token _ _ _ _ _

theorem bound_iff {clientAddress : List Byte} : validateBoundInputs clientAddress = .ok () ↔ Within env.fieldCaps
    [clientAddress] := by
  unfold validateBoundInputs
  constructor
  · intro ok
    split_ifs at ok with context
    exact .cons (by omega) .nil
  · intro within
    cases within with
    | cons first _ => rw [if_neg (Nat.not_lt.mpr first)]

theorem mint_within {aead : Aead} (lawful : aead.Lawful) (nonce : Fixed 12) {room : Nat} (enough : tokenLen ≤ room)
    {opts : MintOptions} (within : Within env.fieldCaps [opts.clientAddress]) :
    ∃ token, mint aead (some nonce) room opts = .ok token ∧
      env.sealToken aead (some nonce) opts.key opts.quicVersion opts.nowUs opts.lifetimeUs
      [opts.clientAddress] = .ok token := by
  obtain ⟨token,made⟩ := env.sealToken_lawful lawful nonce opts.key opts.quicVersion opts.nowUs opts.lifetimeUs
    [opts.clientAddress]
  refine ⟨token,?_,made⟩
  unfold mint
  rw [if_neg (Nat.not_lt.mpr enough),bound_iff.mpr within,made]
  rfl

theorem validate_within {aead : Aead} {token : List Byte} {opts : ValidateOptions}
    (within : Within env.fieldCaps [opts.clientAddress]) :
    validate aead token opts = env.validate aead token opts.key opts.quicVersion opts.nowUs opts.maxClockSkewUs
    [opts.clientAddress] := by
  unfold validate
  rw [bound_iff.mpr within]

end NewToken

/-- A token that a validation accepts comes from the envelope of its own format. -/
theorem RetryToken.valid_envelope {aead : Aead} {token : List Byte} {opts : RetryToken.ValidateOptions}
    (valid : RetryToken.validate aead token opts = .valid) :
    Within RetryToken.env.fieldCaps [opts.clientAddress,opts.originalDcid,opts.retryScid] ∧
      RetryToken.env.validate aead token opts.key opts.quicVersion opts.nowUs opts.maxClockSkewUs
        [opts.clientAddress,opts.originalDcid,opts.retryScid] = .valid := by
  unfold RetryToken.validate at valid
  split at valid
  · cases valid
  · rename_i bound
    exact ⟨RetryToken.bound_iff.mp bound,valid⟩

theorem NewToken.valid_envelope {aead : Aead} {token : List Byte} {opts : NewToken.ValidateOptions}
    (valid : NewToken.validate aead token opts = .valid) :
    Within NewToken.env.fieldCaps [opts.clientAddress] ∧
      NewToken.env.validate aead token opts.key opts.quicVersion opts.nowUs opts.maxClockSkewUs
      [opts.clientAddress] = .valid := by
  unfold NewToken.validate at valid
  split at valid
  · cases valid
  · rename_i bound
    exact ⟨NewToken.bound_iff.mp bound,valid⟩

section
variable {aead : Aead} (lawful : aead.Lawful) (nonce : Fixed 12) {room : Nat} (enough : tokenLen ≤ room)
include lawful enough

theorem retry_exact (opts : RetryToken.MintOptions) (version : opts.quicVersion < 2^32) (now : opts.nowUs ≤ maxU64)
    (within : Within RetryToken.env.fieldCaps [opts.clientAddress,opts.originalDcid,opts.retryScid]) :
    ∃ token, RetryToken.mint aead (some nonce) room opts = .ok token ∧ token.length = tokenLen ∧
      (aead.Binds opts.key nonce RetryToken.env.domainSeparator (token.drop nonceLen) →
        (∀ expected, RetryToken.validate aead token expected = .valid ↔ RetryToken.Meets opts expected) ∧
          ∀ expected, NewToken.validate aead token expected ≠ .valid) := by
  obtain ⟨token,minted⟩ := RetryToken.mint_within lawful nonce enough within
  obtain ⟨-,made⟩ := RetryToken.mint_inv minted
  refine ⟨token,minted,(Config.plaintext_sealed lawful.toCorrect within made).1,fun binds =>
    ⟨fun expected => ?_,fun expected valid => ?_⟩⟩
  · constructor
    · intro valid
      obtain ⟨caps,envelope⟩ := RetryToken.valid_envelope valid
      have key := (Config.validate_binds binds envelope).1
      obtain ⟨same,begun,running,context,dcid,scid⟩ :=
        (RetryToken.validate_minted lawful.toCorrect version now minted key caps).mp valid
      exact ⟨key,same.symm,⟨(begun_iff now).mp begun,running⟩,context.symm,dcid.symm,scid.symm⟩
    · rintro ⟨key,same,⟨begun,running⟩,context,dcid,scid⟩
      refine (RetryToken.validate_minted lawful.toCorrect version now minted key ?_).mpr
        ⟨same.symm,(begun_iff now).mpr begun,running,context.symm,dcid.symm,scid.symm⟩
      rw [context,dcid,scid]
      exact within
  · have separators := (Config.validate_binds binds (NewToken.valid_envelope valid).2).2
    exact absurd separators (by decide)

theorem new_token_exact (opts : NewToken.MintOptions) (version : opts.quicVersion < 2^32) (now : opts.nowUs ≤ maxU64)
    (within : Within NewToken.env.fieldCaps [opts.clientAddress]) :
    ∃ token, NewToken.mint aead (some nonce) room opts = .ok token ∧ token.length = tokenLen ∧
      (aead.Binds opts.key nonce NewToken.env.domainSeparator (token.drop nonceLen) →
        (∀ expected, NewToken.validate aead token expected = .valid ↔ NewToken.Meets opts expected) ∧
          ∀ expected, RetryToken.validate aead token expected ≠ .valid) := by
  obtain ⟨token,minted,made⟩ := NewToken.mint_within lawful nonce enough within
  have judged (expected : NewToken.ValidateOptions) (key : expected.key =
    opts.key) (caps : Within NewToken.env.fieldCaps [expected.clientAddress]) :
      NewToken.validate aead token expected = .valid ↔ Config.Agrees
        {quicVersion := opts.quicVersion,issuedAtUs := opts.nowUs,expiresAtUs := saturatingAdd opts.nowUs opts.lifetimeUs}
        [opts.clientAddress] expected.quicVersion expected.nowUs expected.maxClockSkewUs [expected.clientAddress] := by
    rw [NewToken.validate_within caps,key]
    exact Config.validate_sealed lawful.toCorrect version now within made _ _ _ rfl
  refine ⟨token,minted,(Config.plaintext_sealed lawful.toCorrect within made).1,fun binds =>
    ⟨fun expected => ?_,fun expected valid => ?_⟩⟩
  · constructor
    · intro valid
      obtain ⟨caps,envelope⟩ := NewToken.valid_envelope valid
      have key := (Config.validate_binds binds envelope).1
      have agrees := (judged expected key caps).mp valid
      exact ⟨key,agrees.version.symm,⟨(begun_iff now).mp agrees.begun,agrees.running⟩,(List.cons.inj agrees.fields).1.symm⟩
    · rintro ⟨key,same,⟨begun,running⟩,context⟩
      refine (judged expected key ?_).mpr ⟨same.symm,(begun_iff now).mpr begun,running,by rw [context]⟩
      rw [context]
      exact within
  · have separators := (Config.validate_binds binds (RetryToken.valid_envelope valid).2).2
    exact absurd separators (by decide)

end

/-- Fields within their caps always get a token of the one length. It is valid for exactly what it was minted with, in its time,
and never as a token of the other format; and the reads of either validation stay inside whatever bytes it is given. -/
theorem tokens_exact {aead : Aead} (lawful : aead.Lawful) :
    (∀ (nonce : Fixed 12) (room : Nat) (opts : RetryToken.MintOptions), tokenLen ≤ room → opts.quicVersion < 2^32 →
    opts.nowUs ≤ maxU64 →
      Within RetryToken.env.fieldCaps [opts.clientAddress,opts.originalDcid,opts.retryScid] →
      ∃ token, RetryToken.mint aead (some nonce) room opts = .ok token ∧ token.length = tokenLen ∧
        (aead.Binds opts.key nonce RetryToken.env.domainSeparator (token.drop nonceLen) →
          (∀ expected, RetryToken.validate aead token expected = .valid ↔ RetryToken.Meets opts expected) ∧
            ∀ expected, NewToken.validate aead token expected ≠ .valid)) ∧
    (∀ (nonce : Fixed 12) (room : Nat) (opts : NewToken.MintOptions), tokenLen ≤ room → opts.quicVersion < 2^32 →
    opts.nowUs ≤ maxU64 →
      Within NewToken.env.fieldCaps [opts.clientAddress] →
      ∃ token, NewToken.mint aead (some nonce) room opts = .ok token ∧ token.length = tokenLen ∧
        (aead.Binds opts.key nonce NewToken.env.domainSeparator (token.drop nonceLen) →
          (∀ expected, NewToken.validate aead token expected = .valid ↔ NewToken.Meets opts expected) ∧
            ∀ expected, RetryToken.validate aead token expected ≠ .valid)) ∧
    (∀ token expected, RetryToken.validate? aead token expected = some (RetryToken.validate aead token expected)) ∧
    ∀ token expected, NewToken.validate? aead token expected = some (NewToken.validate aead token expected) :=
  ⟨fun nonce _ opts enough version now within => retry_exact lawful nonce enough opts version now within,
    fun nonce _ opts enough version now within => new_token_exact lawful nonce enough opts version now within,
    fun token expected => RetryToken.validate?_eq lawful token expected,
    fun token expected => NewToken.validate?_eq lawful token expected⟩

def zeros (size : Nat) : Fixed size := ⟨List.replicate size 0,List.length_replicate ..⟩

/-- Tags the plaintext it leaves in the clear, with zeros under one key, nonce and separator and with ones under all others. -/
def tagging : Aead where
  sealed key nonce separator plain := some (plain ++ tag key nonce separator)
  opened key nonce separator ciphertext :=
    if ciphertext.drop (ciphertext.length-tagLen) =
      tag key nonce separator then some (ciphertext.take (ciphertext.length-tagLen)) else none
where
  tag (key : Fixed 32) (nonce : Fixed 12) (separator : String) : List Byte :=
    List.replicate tagLen (if key = zeros 32 ∧ nonce = zeros 12 ∧ separator = RetryToken.env.domainSeparator then 0 else 1)

theorem tagging_lawful : tagging.Lawful where
  opens {key nonce separator plain ciphertext} made := by
    have size : (tagging.tag key nonce separator).length = tagLen := List.length_replicate ..
    have made : plain ++ tagging.tag key nonce separator = ciphertext := Option.some.inj made
    have front : ciphertext.length-tagLen = plain.length := by
      rw [← made,List.length_append,size,Nat.add_sub_cancel]
    change (if ciphertext.drop (ciphertext.length-tagLen) = tagging.tag key nonce separator then _ else _) = some plain
    rw [front,← made,List.drop_left,if_pos rfl,List.take_left]
  grows {key nonce separator plain ciphertext} made := by
    have size : (tagging.tag key nonce separator).length = tagLen := List.length_replicate ..
    rw [← Option.some.inj made,List.length_append,size]
  seals _ _ _ _ := rfl
  shrinks {key nonce separator plain ciphertext} opened := by
    change (if ciphertext.drop (ciphertext.length-tagLen) = tagging.tag key nonce separator then _ else _) =
      some plain at opened
    split at opened
    · rename_i tagged
      have size := congrArg List.length tagged
      rw [← Option.some.inj opened,List.length_take]
      rw [List.length_drop,tagging.tag,List.length_replicate] at size
      omega
    · cases opened

theorem tagging_binds (plain : List Byte) :
    tagging.Binds (zeros 32) (zeros 12) RetryToken.env.domainSeparator (plain ++ List.replicate tagLen 0) := by
  intro key nonce separator opens
  change (if (plain ++ List.replicate tagLen 0).drop ((plain ++ List.replicate tagLen 0).length-tagLen) =
    tagging.tag key nonce separator then _ else _) ≠ none at opens
  rw [List.length_append,List.length_replicate,Nat.add_sub_cancel,List.drop_left] at opens
  split at opens
  · rename_i same
    unfold tagging.tag at same
    by_contra other
    rw [if_neg other] at same
    exact absurd same (by decide)
  · exact absurd rfl opens

def fullToken : RetryToken.MintOptions where
  key := zeros 32
  nowUs := 1000
  lifetimeUs := 500
  clientAddress := (zeros 23).bytes
  originalDcid := (zeros 20).bytes
  retryScid := (zeros 20).bytes

/-- It is valid to the last microsecond of the skew behind its lifetime. -/
theorem full_token_valid : ∃ token, RetryToken.mint tagging (some (zeros 12)) tokenLen fullToken = .ok token ∧
    RetryToken.validate tagging token {
      key := zeros 32
      nowUs := 1510
      clientAddress := (zeros 23).bytes
      originalDcid := (zeros 20).bytes
      retryScid := (zeros 20).bytes
      maxClockSkewUs := 10} = .valid := by
  have within : Within RetryToken.env.fieldCaps [fullToken.clientAddress,fullToken.originalDcid,fullToken.retryScid] :=
    .cons (by decide) (.cons (by decide) (.cons (by decide) .nil))
  obtain ⟨token,minted,-,exact⟩ :=
    (tokens_exact tagging_lawful).1 (zeros 12) tokenLen fullToken (Nat.le_refl _) (by decide) (by decide) within
  obtain ⟨nonce,ciphertext,same,rfl,made⟩ := Config.sealToken_inv (RetryToken.mint_inv minted).2
  have ciphered := Option.some.inj made
  have drawn := Option.some.inj same
  refine ⟨_,minted,((exact ?_).1 _).mpr ⟨rfl,rfl,by decide,rfl,rfl,rfl⟩⟩
  have back : (nonce.bytes ++ ciphertext).drop nonceLen = ciphertext := List.drop_left' nonce.exact
  rw [back,← ciphered,← drawn]
  exact tagging_binds _

end QuicZig.Conn.AddressToken
