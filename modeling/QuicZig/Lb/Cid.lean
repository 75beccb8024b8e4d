import QuicZig.Lb.FourPass
import QuicZig.Lb.NonceCounter

/-! Connection ids that a load balancer routes by: the configuration, the server's minting and the
balancer's decoding. The block cipher is a parameter. -/
namespace QuicZig.Lb.Cid
open Machine Nonces
open FourPass (Block aesBlockSize)

def unroutableConfigId : Nat := 7

def maxServerIdLen : Nat := 15

def minNonceLen : Nat := 4

def maxCombinedLen : Nat := 19

abbrev Key := Block

structure LbConfig where
  configId : Fin 8
  serverId : List Byte
  nonceLen : Nat
  key : Option Key := none
  encodeLength : Bool := true
  deriving DecidableEq

inductive Error where
  | invalidLbConfig
  | bufferTooSmall
  | randFailure
  | aesKeyInvalid
  | invalidPlaintextLen
  | nonceExhausted
  deriving DecidableEq, Repr

def LbConfig.combined (self : LbConfig) : Nat := self.serverId.length+self.nonceLen

def LbConfig.validate (self : LbConfig) : Except Error Unit :=
  if self.configId.val > 6 then .error .invalidLbConfig
  else if self.serverId.length < 1 ∨ self.serverId.length > maxServerIdLen then .error .invalidLbConfig
  else if self.nonceLen < minNonceLen ∨ self.nonceLen > maxNonceLen then .error .invalidLbConfig
  else if self.combined > maxCombinedLen then .error .invalidLbConfig
  else .ok ()

def LbConfig.cidLength (self : LbConfig) : Nat := 1+self.serverId.length+self.nonceLen

inductive Mode where
  | plaintext
  | aesSinglePass
  | aesFourPass
  deriving DecidableEq, Repr

def modeForConfig (cfg : LbConfig) : Mode :=
  if cfg.key = none then .plaintext else if cfg.combined = 16 then .aesSinglePass else .aesFourPass

/-- The cipher; `none` is a key that it refuses. -/
structure Aes128 where
  init : Key → Option (Block → Block)
  initDecrypt : Key → Option (Block → Block)

structure Factory where
  cfg : LbConfig
  aes : Option (Block → Block) := none
  nonceCounter : Option NonceCounter := none

def Factory.initUnchecked (aes : Aes128) (cfg : LbConfig) (draw : Draw) : Except Error Factory :=
  match cfg.key with
  | none => .ok {cfg}
  | some key =>
    match aes.init key with
    | none => .error .aesKeyInvalid
    | some encryptBlock =>
      match initRandom cfg.nonceLen draw with
      | .error _ => .error .randFailure
      | .ok counter => .ok {cfg, aes := some encryptBlock, nonceCounter := some counter}

def Factory.init (aes : Aes128) (cfg : LbConfig) (draw : Draw) : Except Error Factory :=
  match cfg.validate with
  | .error _ => .error .invalidLbConfig
  | .ok () => Factory.initUnchecked aes cfg draw

def Factory.composeFirstOctet (self : Factory) (draw : Draw) : Except Error Byte :=
  let configBits := (UInt8.ofNat self.cfg.configId.val &&& 0x07) <<< 5
  if self.cfg.encodeLength then .ok (configBits ||| (UInt8.ofNat (self.cfg.cidLength-1) &&& 0x1F))
  else
    match draw with
    | none => .error .randFailure
    | some draw => .ok (configBits ||| (draw 0 &&& 0x1F))

/-- What an `assemble` writes to the front of a target of `room` bytes; `none` where the code traps. -/
abbrev Minted := Option (Except Error (List Byte))

def Factory.assemblePlaintext (self : Factory) (room : Nat) (nonce : List Byte) (draw : Draw) : Minted :=
  if room < self.cfg.cidLength then some (.error .bufferTooSmall)
  else
    match self.composeFirstOctet draw with
    | .error e => some (.error e)
    | .ok octet => some (.ok (octet::(self.cfg.serverId ++ nonce)))

/-- The server id and the nonce, as a block of the cipher; `none` is any other length. -/
def plaintextBlock (bytes : List Byte) : Option Block :=
  if size : bytes.length = aesBlockSize then some ⟨bytes,size⟩ else none

def Factory.assembleSinglePass (self : Factory) (room : Nat) (nonce : List Byte) (draw : Draw) : Minted :=
  if room < self.cfg.cidLength then some (.error .bufferTooSmall)
  else
    match self.composeFirstOctet draw with
    | .error e => some (.error e)
    | .ok octet =>
      match plaintextBlock (self.cfg.serverId ++ nonce),self.aes with
      | some plaintext,some encryptBlock => some (.ok (octet::(encryptBlock plaintext).bytes))
      | _,_ => none

def Factory.assembleFourPass (self : Factory) (room : Nat) (nonce : List Byte) (draw : Draw) : Minted :=
  if room < self.cfg.cidLength then some (.error .bufferTooSmall)
  else
    match self.composeFirstOctet draw with
    | .error e => some (.error e)
    | .ok octet =>
      match self.aes with
      | none => none
      | some encryptBlock =>
        match FourPass.encrypt encryptBlock (self.cfg.serverId ++ nonce) with
        | .error .invalidPlaintextLen => some (.error .invalidPlaintextLen)
        | .ok ciphertext => some (.ok (octet::ciphertext))

/-- The assertion on the nonce's length is a trap. -/
def Factory.mintWithNonce (self : Factory) (room : Nat) (nonce : List Byte) (draw : Draw) : Minted :=
  if nonce.length ≠ self.cfg.nonceLen then none
  else
    match modeForConfig self.cfg with
    | .plaintext => self.assemblePlaintext room nonce draw
    | .aesSinglePass => self.assembleSinglePass room nonce draw
    | .aesFourPass => self.assembleFourPass room nonce draw

/-- What the random source gives to one call of `mint`. -/
structure Draws where
  nonce : Draw
  octet : Draw

def Factory.mintPlaintext (self : Factory) (room : Nat) (draws : Draws) : Minted :=
  match draws.nonce with
  | none => some (.error .randFailure)
  | some draw => self.assemblePlaintext room (fillBytes draw self.cfg.nonceLen) draws.octet

/-- The counter moves on before the target's length is checked. -/
def Factory.mintCounted (self : Factory) (assemble : Factory → Nat → List Byte → Draw → Minted) (room : Nat)
    (draws : Draws) :
    Minted × Factory :=
  match self.nonceCounter with
  | none => (none,self)
  | some counter =>
    match next counter with
    | .error _ => (some (.error .nonceExhausted),self)
    | .ok (nonce,counter) =>
      let self := {self with nonceCounter := some counter}
      (assemble self room nonce draws.octet,self)

def Factory.mintSinglePass (self : Factory) (room : Nat) (draws : Draws) : Minted × Factory :=
  self.mintCounted Factory.assembleSinglePass room draws

def Factory.mintFourPass (self : Factory) (room : Nat) (draws : Draws) : Minted × Factory :=
  self.mintCounted Factory.assembleFourPass room draws

def Factory.mint (self : Factory) (room : Nat) (draws : Draws) : Minted × Factory :=
  match modeForConfig self.cfg with
  | .plaintext => (self.mintPlaintext room draws,self)
  | .aesSinglePass => self.mintSinglePass room draws
  | .aesFourPass => self.mintFourPass room draws

def firstOctetConfigId (firstOctet : Byte) : Byte := (firstOctet >>> 5) &&& 0x07

inductive DecodeError where
  | cidTooShort
  | unroutableCid
  | invalidLbConfig
  | aesKeyInvalid
  deriving DecidableEq, Repr

structure Decoded where
  configId : Byte
  serverId : List Byte
  nonce : List Byte
  deriving DecidableEq, Repr

/-- The body of an id, as the server had it before the cipher; `none` where the code traps. -/
def plaintextOf (aes : Aes128) (cfg : LbConfig) (body : List Byte) : Option (Except DecodeError (List Byte)) :=
  match cfg.key with
  | none => some (.ok (body.take cfg.combined))
  | some key =>
    if cfg.combined = 16 then
      match aes.initDecrypt key with
      | none => some (.error .aesKeyInvalid)
      | some decryptBlock =>
        (plaintextBlock (body.take aesBlockSize)).map fun ciphertext => .ok (decryptBlock ciphertext).bytes
    else
      match aes.init key with
      | none => some (.error .aesKeyInvalid)
      | some encryptBlock =>
        match FourPass.decrypt encryptBlock (body.take cfg.combined) with
        | .error .invalidPlaintextLen => some (.error .invalidLbConfig)
        | .ok plaintext => some (.ok plaintext)

def decode (aes : Aes128) (cid : List Byte) (cfg : LbConfig) : Option (Except DecodeError Decoded) :=
  match cfg.validate with
  | .error _ => some (.error .invalidLbConfig)
  | .ok () =>
    if cid.length < cfg.cidLength then some (.error .cidTooShort)
    else
      let configId := firstOctetConfigId (cid.getD 0 0)
      if configId.toNat = unroutableConfigId then some (.error .unroutableCid)
      else
        match plaintextOf aes cfg (cid.drop 1) with
        | none => none
        | some (.error e) => some (.error e)
        | some (.ok plaintext) => some (.ok {
            configId := configId
            serverId := plaintext.take cfg.serverId.length
            nonce := (plaintext.take cfg.combined).drop cfg.serverId.length
          })

end QuicZig.Lb.Cid
